import SkillLayer.Infrastructure.OutboxRepair

/-! Which vectors the points hold: each is that of an event, and the point of a published
event holds the vector that all events of the point agree on. -/

namespace SkillLayer.Infrastructure

variable {F : Type} (format : VectorFormat F) (blake3 : Blake3)

/-- The point that the relay writes for a record, if it is a well-formed vector upsert. -/
def askedPoint? (record : OutboxRecord) : Option (StoredPoint F) :=
  (upsertOf format record).toOption.map (VectorUpsertRequest.point blake3)

def OutboxWorld.HoldsVector (world : OutboxWorld F) (pointId : Nat) (vector : List F) : Prop :=
  ∃ stored, pointAt? pointId world.points = some stored ∧ stored.vector = vector

/-- Every event that asks for the point asks for the vector. -/
def Outbox.Agrees (outbox : Outbox) (pointId : Nat) (vector : List F) : Prop :=
  ∀ row ∈ outbox.rows, ∀ point, askedPoint? format blake3 row.toOutboxRecord = some point →
    point.id = pointId → point.vector = vector

/-- A point holds what an acknowledged write of it left there, or it is as it was at the
start; and every acknowledged write was asked for by an event. -/
structure Traced (start world : OutboxWorld F) : Prop where
  latest : ∀ pointId, (∃ entry ∈ world.written, pointAt? pointId world.points = some entry.2) ∨
    pointAt? pointId world.points = pointAt? pointId start.points ∧
      ∀ entry ∈ world.written, entry.2.id = pointId → entry ∈ start.written
  source : ∀ entry ∈ world.written, ∃ row ∈ world.outbox.rows,
    askedPoint? format blake3 row.toOutboxRecord = some entry.2

/-- What holds between the calls of the only program that works on an outbox. -/
structure Kept (start : OutboxWorld F) (ledger : RelayLedger) (world : OutboxWorld F) : Prop where
  sound : OutboxSound format blake3 world fun _ : Unit => ledger
  traced : Traced format blake3 start world

variable {format blake3} {answers : DrainWeather} {calls later : Nat} {start world after : OutboxWorld F}
  {ledger left : RelayLedger} {request : OutboxCall F} {pointId : Nat} {vector : List F}

theorem askedPoint_eq_some {record : OutboxRecord} {point : StoredPoint F} :
    askedPoint? format blake3 record = some point ↔
      ∃ upsert, upsertOf format record = .ok upsert ∧ upsert.point blake3 = point := by
  unfold askedPoint?
  cases upsertOf format record <;> simp [Except.toOption]

theorem askedPoint_congr {record other : OutboxRecord} (same : record.event = other.event) :
    askedPoint? format blake3 record = askedPoint? format blake3 other := by
  rw [askedPoint?, askedPoint?, upsertOf_congr same]

theorem id_of_pointAt {points : List (StoredPoint F)} {point : StoredPoint F}
    (found : pointAt? pointId points = some point) : point.id = pointId :=
  of_decide_eq_true (List.find?_some (p := fun point : StoredPoint F => decide (point.id = pointId)) found)

theorem pointAt_upsertPoint (point : StoredPoint F) (points : List (StoredPoint F)) :
    pointAt? pointId (upsertPoint point points) =
      if point.id = pointId then some point else pointAt? pointId points := by
  unfold pointAt? upsertPoint
  by_cases same : point.id = pointId
  · simp [same]
  · simp only [List.find?_cons, decide_eq_false same, if_neg same, List.find?_filter, decide_eq_true_eq]
    congr 1
    funext other
    by_cases here : other.id = pointId
    · simp [here, Ne.symm same]
    · simp [here]

/-! ### Calls -/

theorem Traced.refl (source : ∀ entry ∈ world.written, ∃ row ∈ world.outbox.rows,
    askedPoint? format blake3 row.toOutboxRecord = some entry.2) : Traced format blake3 world world :=
  ⟨fun _ => .inr ⟨rfl, fun _ member _ => member⟩, source⟩

/-- The events of acknowledged writes stay. -/
theorem source_effect (effect : OutboxEffect world ledger request after left) {point : StoredPoint F}
    (source : ∃ row ∈ world.outbox.rows, askedPoint? format blake3 row.toOutboxRecord = some point) :
    ∃ row ∈ after.outbox.rows, askedPoint? format blake3 row.toOutboxRecord = some point := by
  obtain ⟨row, member, asks⟩ := source
  obtain ⟨next, inAfter, same⟩ := effect.event_kept member
  exact ⟨next, inAfter, (askedPoint_congr same).trans asks⟩

theorem Traced.effect (kept : Kept format blake3 start ledger world)
    (allowed : ledger.Allows format blake3 request) (aside : request.Aside)
    (effect : OutboxEffect world ledger request after left) : Traced format blake3 start after := by
  obtain ⟨latest, source⟩ := kept.traced
  have stay {entry : Uuid × StoredPoint F} (member : entry ∈ world.written) :=
    source_effect effect (source entry member)
  cases effect with
  | untouched => exact ⟨latest, source⟩
  | added => exact ⟨latest, fun _ member => stay member⟩
  | claimed => exact ⟨latest, fun _ member => stay member⟩
  | published => exact ⟨latest, fun _ member => stay member⟩
  | failed => exact ⟨latest, fun _ member => stay member⟩
  | deleted => cases aside
  | wrote eventId wanted vector payload =>
    constructor
    · intro other
      have written : pointAt? other (world.wrote eventId ⟨wanted, vector, payload⟩).points = _ :=
        pointAt_upsertPoint ⟨wanted, vector, payload⟩ world.points
      by_cases same : wanted = other
      · exact .inl ⟨_, List.mem_cons_self, written.trans (if_pos same)⟩
      · rw [written.trans (if_neg same)]
        rcases latest other with ⟨entry, member, here⟩ | ⟨unchanged, old⟩
        · exact .inl ⟨entry, List.mem_cons_of_mem _ member, here⟩
        · refine .inr ⟨unchanged, fun entry member id => ?_⟩
          rcases List.mem_cons.mp member with rfl | inWritten
          · exact absurd id same
          · exact old entry inWritten id
    · intro entry member
      rcases List.mem_cons.mp member with rfl | inWritten
      · obtain ⟨record, rest, upsert, held, -, asked, point⟩ := allowed
        obtain ⟨row, inRows, event⟩ := kept.sound.known () record (held ▸ List.mem_cons_self)
        refine ⟨row, inRows, (askedPoint_congr event).trans ?_⟩
        exact askedPoint_eq_some.mpr ⟨upsert, asked, point⟩
      · exact stay inWritten

theorem serveDrain_eq (answers : DrainWeather) (calls : Nat) (request : OutboxCall F)
    (world : OutboxWorld F) :
    ∃ weather, serveDrain answers calls request world = serveOutbox weather request world := by
  cases request <;> exact ⟨_, rfl⟩

theorem Kept.call (calls : Nat) (request : OutboxCall F) (kept : Kept format blake3 start ledger world)
    (allowed : ledger.Allows format blake3 request) (aside : request.Aside) :
    Kept format blake3 start (ledger.after request (serveDrain answers calls request world).1)
      (serveDrain answers calls request world).2 := by
  obtain ⟨weather, same⟩ := serveDrain_eq answers calls request world
  have effect := OutboxEffect.of_served same.symm ledger
  refine ⟨?_, Traced.effect kept allowed aside effect⟩
  have sound : OutboxSound format blake3 _ (Function.update (fun _ : Unit => ledger) () _) :=
    kept.sound.effect allowed effect
  rwa [show Function.update (fun _ : Unit => ledger) () _ = fun _ => _ from
    funext fun _ => Function.update_self _ _ _] at sound

/-- A program that ends lets go of the events it holds. -/
theorem Kept.release (kept : Kept format blake3 start ledger world) :
    Kept format blake3 start .idle world := by
  refine ⟨?_, kept.traced⟩
  have sound := kept.sound.release ()
  rwa [show Function.update (fun _ : Unit => ledger) () _ = fun _ => _ from
    funext fun _ => Function.update_self _ _ _] at sound

/-- Later worlds can be traced back to this one. -/
theorem Kept.restart (kept : Kept format blake3 start ledger world) :
    Kept format blake3 world ledger world := ⟨kept.sound, .refl kept.traced.source⟩

/-! ### Programs -/

theorem Kept.run {Err Result : Type} {ends : RelayLedger → Except Err Result → Prop}
    {program : OutboxProgram F Err Result} (kept : Kept format blake3 start .idle world)
    (obeys : program.Obeys (outboxDiscipline format blake3) ends .idle)
    (aside : program.Calls OutboxCall.Aside) :
    Kept format blake3 start .idle (program.run (serveDrain answers) calls world).world := by
  have called (ledger : RelayLedger) (calls : Nat) (request : OutboxCall F) (world : OutboxWorld F)
      (holds : Kept format blake3 start ledger world)
      (allowed : ((outboxDiscipline format blake3).limit OutboxCall.Aside).allows ledger request) :
      Kept format blake3 start (ledger.after request (serveDrain answers calls request world).1)
        (serveDrain answers calls request world).2 := holds.call calls request allowed.1 allowed.2
  obtain ⟨left, last, -⟩ := (obeys.limit aside).run called kept
  exact last.release

theorem Kept.drain {relay : OutboxRelay} {correlationId : Uuid} {passes : Nat}
    {drained : Finished OutboxRelayError Unit (OutboxWorld F)} (kept : Kept format blake3 start .idle world)
    (ran : Program.runLoop (serveDrain answers) (relay.drainPass format blake3 correlationId) passes calls
      world = some drained) : Kept format blake3 start .idle drained.world := by
  have task : OutboxTask format blake3 (fun _ => True) (relay.drainPass format blake3 correlationId) :=
    .drainCorrelationOutbox trivial correlationId
  exact Program.runLoop_keeps _ (fun _ _ holds => holds.run task.obeys (aside_drainPass relay correlationId))
    kept ran

theorem Kept.relayAll {relay : OutboxRelay} {passes : Nat}
    {relayed : Finished OutboxRelayError Unit (OutboxWorld F)} (kept : Kept format blake3 start .idle world)
    (ran : Program.runLoop (serveDrain answers) (relay.relayAllPass format blake3) passes calls
      world = some relayed) : Kept format blake3 start .idle relayed.world := by
  have task : OutboxTask format blake3 (fun _ => True) (relay.relayAllPass format blake3) :=
    .relayAllPendingToCompletion trivial
  exact Program.runLoop_keeps _ (fun _ _ holds => holds.run task.obeys (aside_relayAllPass relay)) kept ran

/-! ### The vectors of points -/

/-- A point that held the vector all its events agree on still does. -/
theorem Traced.holds_of_held (traced : Traced format blake3 start world)
    (agrees : world.outbox.Agrees format blake3 pointId vector) (held : start.HoldsVector pointId vector) :
    world.HoldsVector pointId vector := by
  rcases traced.latest pointId with ⟨entry, member, here⟩ | ⟨unchanged, -⟩
  · obtain ⟨row, inRows, asks⟩ := traced.source entry member
    exact ⟨entry.2, here, agrees row inRows entry.2 asks (id_of_pointAt here)⟩
  · obtain ⟨stored, found, same⟩ := held
    exact ⟨stored, unchanged.trans found, same⟩

/-- The point of a published event holds the vector that all events of the point agree on. -/
theorem Kept.holds_of_published (kept : Kept format blake3 start ledger world) (new : start.written = [])
    {row : OutboxRow} (member : row ∈ world.outbox.rows) (published : row.status = .published)
    {point : StoredPoint F} (asks : askedPoint? format blake3 row.toOutboxRecord = some point)
    (agrees : world.outbox.Agrees format blake3 point.id vector) : world.HoldsVector point.id vector := by
  obtain ⟨upsert, asked, written⟩ := kept.sound.published row member published
  obtain rfl : upsert.point blake3 = point :=
    Option.some.inj ((askedPoint_eq_some.mpr ⟨upsert, asked, rfl⟩).symm.trans asks)
  rcases kept.traced.latest (upsert.point blake3).id with ⟨entry, inWritten, here⟩ | ⟨-, old⟩
  · obtain ⟨other, inRows, asksToo⟩ := kept.traced.source entry inWritten
    exact ⟨entry.2, here, agrees other inRows entry.2 asksToo (id_of_pointAt here)⟩
  · have before := old _ written rfl
    rw [new] at before
    cases before

/-- When a drain succeeds and every write was accepted, a well-formed event is published
that was published before, or that is of the correlation and had not failed. -/
theorem published_after_drain {relay : OutboxRelay} {correlationId : Uuid} {passes : Nat}
    (accepts : answers.Accepts)
    (ran : Program.runLoop (serveDrain answers) (relay.drainPass format blake3 correlationId) passes calls
      world = some ⟨.ok (), later, after⟩) {row : OutboxRow} (member : row ∈ world.outbox.rows)
    {point : StoredPoint F} (asks : askedPoint? format blake3 row.toOutboxRecord = some point)
    (may : row.status = .published ∨ row.event.correlationId = correlationId ∧ row.status ≠ .failed) :
    ∃ current ∈ after.outbox.rows, current.event = row.event ∧ current.status = .published := by
  obtain ⟨⟨events, rows⟩, none_⟩ := drained_of_ok ran
  obtain ⟨item, here, attempted⟩ := rows row member
  obtain ⟨current, inRows, id, rfl⟩ := Outbox.progress_eq_some.mp here
  obtain ⟨found, inStart, event⟩ := Outbox.exists_of_events events inRows
  obtain rfl := Outbox.same_row inStart member ((congrArg OutboxEvent.eventId event).trans id)
  refine ⟨current, inRows, event.symm, ?_⟩
  have delivers (attempt : Nat) : Delivers format answers found.toOutboxRecord attempt = true := by
    obtain ⟨upsert, asked, -⟩ := askedPoint_eq_some.mp asks
    rw [Delivers, asked, accepts]
    rfl
  have unmoved (waits : found.status ≠ .pending) : current.status.standing = found.status.standing := by
    rcases attempted.cases_head with same | ⟨_, ⟨pending, -⟩, -⟩
    · exact congrArg Progress.standing same.symm
    · cases status : found.status with
      | pending => exact absurd status waits
      | _ =>
        rw [OutboxRow.progress, status] at pending
        cases pending
  rcases may with published | ⟨mine, unfailed⟩
  · have same := unmoved (by rw [published]; decide)
    rw [published] at same
    exact OutboxStatus.standing_eq_done.mp same
  · have settled := Outbox.hasPending_eq_false none_ inRows (event ▸ mine)
    rw [published_iff_deliverable attempted settled]
    cases status : found.status with
    | pending => exact .inr ⟨rfl, found.attempts, Nat.le_refl _, .inl rfl, delivers _⟩
    | published => exact .inl rfl
    | failed => exact absurd status unfailed
    | processing =>
      have same := unmoved (by rw [status]; decide)
      rw [status] at same
      rcases settled with published | failed
      · rw [published] at same
        cases same
      · rw [failed] at same
        cases same

end SkillLayer.Infrastructure
