import SkillLayer.Infrastructure.OutboxDrain
import SkillLayer.Infrastructure.OutboxOrphans

/-! What a reconciler pass and a complete relay after it bring back. -/

namespace SkillLayer.Infrastructure

variable {F : Type} (format : VectorFormat F) (blake3 : Blake3)

/-! ### The newest record of a point -/

theorem Uuid.before_total (left right : Uuid) :
    Uuid.before left right = true ∨ left = right ∨ Uuid.before right left = true := by
  induction left generalizing right with
  | nil => cases right <;> simp [Uuid.before]
  | cons byte rest ih =>
    cases right with
    | nil => simp [Uuid.before]
    | cons other others =>
      rcases Nat.lt_trichotomy byte.toNat other.toNat with less | same | more
      · exact .inl (by simp [Uuid.before, UInt8.lt_iff_toNat_lt.mpr less])
      · obtain rfl := UInt8.toNat_inj.mp same
        simpa [Uuid.before] using ih others
      · exact .inr (.inr (by simp [Uuid.before, UInt8.lt_iff_toNat_lt.mpr more]))

/-- Of two records of different events one is newer. -/
theorem newer_total {left right : OutboxRecord} (different : left.event.eventId ≠ right.event.eventId) :
    outboxRecordIsNewer left right = true ∨ outboxRecordIsNewer right left = true := by
  unfold outboxRecordIsNewer
  rcases Int.lt_trichotomy left.event.timestamp right.event.timestamp with less | same | more
  · simp [less]
  · rcases Uuid.before_total left.event.eventId right.event.eventId with first | equal | second
    · simp [same, first]
    · exact absurd equal different
    · simp [same, second]
  · simp [more]

variable {format blake3}

theorem lookup_cons_ite (pointId wanted : Nat) (record : OutboxRecord)
    (rest : List (Nat × OutboxRecord)) :
    ((pointId, record) :: rest).lookup wanted =
      if wanted = pointId then some record else rest.lookup wanted := by
  rw [List.lookup_cons]
  by_cases same : wanted = pointId
  · rw [if_pos same, beq_iff_eq.mpr same]
  · rw [if_neg same, beq_eq_false_iff_ne.mpr same]

theorem lookup_insertNewest {pointId wanted : Nat} {record : OutboxRecord}
    {expected : List (Nat × OutboxRecord)} :
    (insertNewest pointId record expected).lookup wanted =
      if wanted = pointId then
        some (match expected.lookup pointId with
          | some current => if outboxRecordIsNewer record current then record else current
          | none => record)
      else expected.lookup wanted := by
  induction expected with
  | nil => exact lookup_cons_ite pointId wanted record []
  | cons entry rest ih =>
    obtain ⟨key, current⟩ := entry
    rw [insertNewest]
    dsimp only
    by_cases here : key = pointId
    · subst here
      rw [if_pos rfl, lookup_cons_ite, lookup_cons_ite, lookup_cons_ite, if_pos rfl]
      split <;> rfl
    · rw [if_neg here, lookup_cons_ite, ih, lookup_cons_ite, lookup_cons_ite, if_neg (Ne.symm here)]
      by_cases same : wanted = pointId
      · subst same
        rw [if_neg (Ne.symm here), if_pos rfl, if_pos rfl]
      · rw [if_neg same, if_neg same]

/-- A record is the newest of its point among some records. -/
def NewestOf (format : VectorFormat F) (blake3 : Blake3) (pointId : Nat) (newest : OutboxRecord)
    (records : List OutboxRecord) : Prop :=
  ∀ record ∈ records, recordPoint format blake3 record = .ok pointId →
    record = newest ∨ outboxRecordIsNewer newest record = true ∧ outboxRecordIsNewer record newest = false

theorem newest_fold {pointId : Nat} {newest : OutboxRecord} {records : List OutboxRecord}
    {before after : List (Nat × OutboxRecord)}
    (folded : records.foldlM (fun expected record => do
      let pointId ← recordPoint format blake3 record
      return insertNewest pointId record expected) before = .ok after)
    (above : NewestOf format blake3 pointId newest records)
    (start : before.lookup pointId = some newest ∨ newest ∈ records ∧
      recordPoint format blake3 newest = .ok pointId ∧ ∀ record, before.lookup pointId = some record →
        record = newest ∨ outboxRecordIsNewer newest record = true) :
    after.lookup pointId = some newest := by
  induction records generalizing before with
  | nil =>
    cases folded
    rcases start with here | ⟨member, -⟩
    · exact here
    · cases member
  | cons record rest ih =>
    rw [List.foldlM_cons] at folded
    cases point : recordPoint format blake3 record with
    | error error =>
      rw [point] at folded
      cases folded
    | ok asked =>
      rw [point] at folded
      refine ih folded (fun other inRest => above other (List.mem_cons_of_mem _ inRest)) ?_
      rw [lookup_insertNewest]
      by_cases mine : pointId = asked
      · subst mine
        rw [if_pos rfl]
        rcases above record List.mem_cons_self point with rfl | ⟨newer, notNewer⟩
        · refine .inl (congrArg some ?_)
          rcases start with here | ⟨-, -, older⟩
          · rw [here]
            exact ite_self _
          · split
            · rename_i current found
              rcases older current found with rfl | newer
              · exact ite_self _
              · exact if_pos newer
            · rfl
        · rcases start with here | ⟨member, asks, older⟩
          · refine .inl ?_
            rw [here]
            dsimp only
            rw [notNewer, if_neg Bool.false_ne_true]
          · rcases List.mem_cons.mp member with rfl | inRest
            · rw [notNewer] at newer
              cases newer
            · refine .inr ⟨inRest, asks, ?_⟩
              rintro kept ⟨⟩
              split
              · rename_i current found
                split
                · exact .inr newer
                · exact older current found
              · exact .inr newer
      · rw [if_neg mine]
        refine start.imp id ?_
        rintro ⟨member, asks, older⟩
        rcases List.mem_cons.mp member with rfl | inRest
        · exact absurd (Except.ok.inj (asks.symm.trans point)) mine
        · exact ⟨inRest, asks, older⟩

/-- The expected record of a point is its newest one. -/
theorem expected_newest {pointId : Nat} {newest : OutboxRecord} {records : List OutboxRecord}
    {expected : List (Nat × OutboxRecord)}
    (built : expectedPointsByEvent format blake3 records = .ok expected) (member : newest ∈ records)
    (asks : recordPoint format blake3 newest = .ok pointId)
    (above : NewestOf format blake3 pointId newest records) : (pointId, newest) ∈ expected := by
  have found := newest_fold built above (.inr ⟨member, asks, fun _ none_ => by cases none_⟩)
  obtain ⟨first, last, split_, -⟩ := List.lookup_eq_some_iff.mp found
  rw [split_]
  exact List.mem_append_right _ List.mem_cons_self

/-! ### The scan -/

/-- An entry of a sorted list is within a cut when few enough entries may precede it. -/
theorem mem_take_of_sorted {Row : Type} {precedes : Row → Row → Prop} {sorted : List Row}
    (pairwise : sorted.Pairwise precedes) {row : Row} (member : row ∈ sorted) (counts : Row → Bool)
    (self : counts row = true) (earlier : ∀ other, precedes other row → counts other = true) {limit : Nat}
    (few : (sorted.filter counts).length ≤ limit) : row ∈ sorted.take limit := by
  obtain ⟨before, after, rfl⟩ := List.append_of_mem member
  have counted : ∀ other ∈ before, counts other = true :=
    fun other inBefore => earlier other ((List.pairwise_append.mp pairwise).2.2 other inBefore row List.mem_cons_self)
  rw [List.filter_append, List.filter_eq_self.mpr counted, List.filter_cons_of_pos self,
    List.length_append, List.length_cons] at few
  rw [List.take_append, List.mem_append]
  obtain ⟨extra, length⟩ : ∃ extra, limit - before.length = extra + 1 := ⟨limit - before.length - 1, by omega⟩
  right
  rw [length, List.take_succ_cons]
  exact List.mem_cons_self

/-- The published upserts that are at least as new as a row. -/
def Outbox.publishedSince (outbox : Outbox) (row : OutboxRow) : List OutboxRow :=
  outbox.rows.filter fun other => other.status = .published &&
    other.event.eventType = vectorUpsertEventType && row.event.timestamp ≤ other.event.timestamp

theorem mem_listPublished {outbox : Outbox} {order : HashOrder OutboxRow} {limit : Int} {row : OutboxRow}
    (member : row ∈ outbox.rows) (published : row.status = .published)
    (upsert : row.event.eventType = vectorUpsertEventType)
    (few : ((outbox.publishedSince row).length : Int) ≤ limit) :
    row.toOutboxRecord ∈ outbox.listPublished order vectorUpsertEventType limit := by
  refine List.mem_map_of_mem (mem_take_of_sorted (List.pairwise_insertionSort _ _) ?_
    (fun other => row.event.timestamp ≤ other.event.timestamp) ?_ ?_ ?_)
  · rw [List.mem_insertionSort, (order.perm _).mem_iff, List.mem_filter]
    exact ⟨member, by simp [published, upsert]⟩
  · simp
  · simp
  · have sorted := (List.perm_insertionSort (fun left right : OutboxRow =>
      right.event.timestamp ≤ left.event.timestamp) _).trans (order.perm
        (outbox.rows.filter fun row => row.status = .published && row.event.eventType = vectorUpsertEventType))
    have count := (sorted.filter fun other => row.event.timestamp ≤ other.event.timestamp).length_eq
    rw [List.filter_filter] at count
    have since : outbox.publishedSince row = outbox.rows.filter fun other =>
        decide (row.event.timestamp ≤ other.event.timestamp) &&
          (decide (other.status = .published) && decide (other.event.eventType = vectorUpsertEventType)) :=
      List.filter_congr fun _ _ => Bool.and_comm _ _
    rw [← since] at count
    omega

/-! ### What a pass does -/

variable {answers : DrainWeather} {calls later : Nat} {world after : OutboxWorld F}

def OutboxWorld.Stored (world : OutboxWorld F) (pointId : Nat) : Prop :=
  (pointAt? pointId world.points).isSome = true

/-- The records that are reported missing contain every one whose point is not stored. -/
theorem run_missingRecords {entries : List (Nat × OutboxRecord)} {missing : List OutboxRecord}
    (ran : (missingRecords entries : OutboxProgram F OutboxRelayError (List OutboxRecord)).run
      (serveDrain answers) calls world = ⟨.ok missing, later, after⟩) :
    after = world ∧ ∀ entry ∈ entries, world.Stored entry.1 ∨ entry.2 ∈ missing := by
  induction entries generalizing calls later after missing with
  | nil =>
    cases ran
    exact ⟨rfl, fun _ member => absurd member List.not_mem_nil⟩
  | cons entry rest ih =>
    obtain ⟨pointId, record⟩ := entry
    rw [missingRecords, Program.ask_bind, Program.run_call] at ran
    obtain ⟨isPresent, _, _, answered, others⟩ := Program.run_bind_eq_ok.mp ran
    obtain ⟨answer, rfl, rfl⟩ := Program.run_ofExcept_eq_ok.mp answered
    have unchanged : (serveDrain answers calls (.hasVector pointId) world).2 = world := by
      simp only [serveDrain, serveOutbox, Weather.store]
      cases (answers.weather calls).storeRefused <;> rfl
    rw [unchanged] at others
    obtain ⟨found, _, _, remaining, returned⟩ := Program.run_bind_eq_ok.mp others
    obtain ⟨same, each⟩ := ih remaining
    have present : isPresent = true → world.Stored pointId := by
      rintro rfl
      simp only [serveDrain, serveOutbox, Weather.store] at answer
      cases refused : (answers.weather calls).storeRefused with
      | some message =>
        rw [refused] at answer
        cases answer
      | none =>
        rw [refused] at answer
        exact Except.ok.inj answer
    cases isPresent with
    | true =>
      cases returned
      refine ⟨same, fun entry member => ?_⟩
      rcases List.mem_cons.mp member with rfl | inRest
      · exact .inl (present rfl)
      · exact each entry inRest
    | false =>
      cases returned
      refine ⟨same, fun entry member => ?_⟩
      rcases List.mem_cons.mp member with rfl | inRest
      · exact .inr List.mem_cons_self
      · exact (each entry inRest).imp id (List.mem_cons_of_mem _)

theorem Outbox.holdsKey_iff {outbox : Outbox} {key : Str} :
    outbox.holdsKey key = true ↔ ∃ row ∈ outbox.rows, row.idempotencyKey = key := by
  simp [Outbox.holdsKey]

/-- A conflict of keys is reported only when the key is taken. -/
theorem Outbox.holdsKey_of_conflict {outbox : Outbox} {now : Timestamp} {event : OutboxEvent}
    (conflict : outbox.insert now event = .error (.uniqueViolation idempotencyKeyConstraint)) :
    outbox.holdsKey event.idempotencyKey = true := by
  unfold Outbox.insert at conflict
  split at conflict
  · cases conflict
  · split at conflict
    · split at conflict
      · cases conflict
      · rename_i taken
        exact taken
    · have different : eventIdConstraint ≠ idempotencyKeyConstraint := by decide
      exact absurd (SqlError.uniqueViolation.inj (Except.error.inj conflict)) different

/-- What a strict append leaves: a new pending row, or the same world where the key was
taken; no other outcome is a success or a conflict. -/
theorem run_appendOutboxEvent (answers : DrainWeather) (calls : Nat) (world : OutboxWorld F)
    (event : OutboxEvent) :
    match (appendOutboxEvent event : OutboxProgram F OutboxError Unit).run (serveDrain answers) calls world with
    | ⟨.ok (), _, after⟩ => ∃ now fresh freshKey,
        after = world.withOutbox (world.outbox.insertRow (event.pendingRow now) fresh freshKey)
    | ⟨.error (.idempotencyConflict _), _, after⟩ =>
        after = world ∧ world.outbox.holdsKey event.idempotencyKey = true
    | _ => True := by
  unfold appendOutboxEvent
  cases valid : validateOutboxEvent event with
  | error error =>
    unfold validateOutboxEvent at valid
    split at valid
    · cases valid
      trivial
    · split at valid
      · cases valid
        trivial
      · cases valid
  | ok _ =>
    unfold insertOutboxEvent
    simp only [Program.ofExcept_ok, Program.bind_done, Program.ask_bind, Program.run_call, serveDrain,
      serveOutbox, Weather.sql]
    cases refused : (answers.weather calls).refused with
    | some message => trivial
    | none =>
      cases inserted : world.outbox.insert (answers.weather calls).now event with
      | ok outbox =>
        obtain ⟨-, fresh, freshKey, rfl⟩ := Outbox.insert_eq_ok.mp inserted
        exact ⟨_, fresh, freshKey, rfl⟩
      | error error =>
        cases error with
        | refused message => trivial
        | uniqueViolation constraint =>
          simp only [Except.map]
          by_cases key : constraint = idempotencyKeyConstraint
          · subst key
            rw [if_pos rfl]
            exact ⟨rfl, Outbox.holdsKey_of_conflict inserted⟩
          · rw [if_neg key]
            trivial

/-- A repair is in the outbox afterwards: as a new pending event, or under its key before. -/
theorem run_enqueueRepair {event : OutboxEvent} {enqueued : Bool}
    (ran : (enqueueRepair event : OutboxProgram F OutboxRelayError Bool).run (serveDrain answers) calls
      world = ⟨.ok enqueued, later, after⟩) :
    (∃ now fresh freshKey, after =
      world.withOutbox (world.outbox.insertRow (event.pendingRow now) fresh freshKey)) ∨
      after = world ∧ world.outbox.holdsKey event.idempotencyKey = true := by
  obtain ⟨appended, _, left, append, rest⟩ := Program.run_bind_eq_ok.mp ran
  rw [Program.run_outcome] at append
  have facts := run_appendOutboxEvent answers calls world event
  rcases finished : (appendOutboxEvent event : OutboxProgram F OutboxError Unit).run (serveDrain answers)
    calls world with ⟨outcome, middle, between⟩
  rw [finished] at append facts
  cases append
  match outcome, facts, rest with
  | .ok (), facts, rest =>
    cases rest
    exact .inl facts
  | .error (.idempotencyConflict key), facts, rest =>
    cases rest
    exact .inr facts
  | .error (.invalidContract _), _, rest => cases rest
  | .error (.eventNotFound _), _, rest => cases rest
  | .error (.illegalTransition _ _ _), _, rest => cases rest
  | .error (.persistence _), _, rest => cases rest

/-! ### Repair keys -/

theorem digit_not_colon {number : Nat} {digit : Char} (member : digit ∈ Str.ofNat number) : digit ≠ ':' := by
  rintro rfl
  have isDigit : ':'.isDigit = true := Nat.isDigit_of_mem_toDigits (by decide) (by decide) member
  exact absurd isDigit (by decide)

/-- A repair key tells its point: it is the number after the last colon. -/
theorem repairKey_point {eventId other : Uuid} {pointId otherPoint : Nat}
    (same : repairKey eventId pointId = repairKey other otherPoint) : pointId = otherPoint := by
  have last (eventId : Uuid) (pointId : Nat) :
      (repairKey eventId pointId).reverse.takeWhile (fun digit => digit ≠ ':') =
        (Str.ofNat pointId).reverse := by
    have digits : ∀ digit ∈ (Str.ofNat pointId).reverse, decide (digit ≠ ':') = true :=
      fun digit member => decide_eq_true (digit_not_colon (List.mem_reverse.mp member))
    have colon : (":" : Str).reverse = [':'] := by decide
    unfold repairKey
    rw [List.reverse_append, List.takeWhile_append_of_pos digits, List.reverse_append, colon,
      List.singleton_append, List.takeWhile_cons_of_neg (by decide), List.append_nil]
  have equal : Str.ofNat pointId = Str.ofNat otherPoint :=
    List.reverse_injective ((last eventId pointId).symm.trans (same ▸ last other otherPoint))
  have number (pointId : Nat) : Nat.ofDigitChars 10 (Str.ofNat pointId) 0 = pointId :=
    Nat.ofDigitChars_toDigits (by decide) (by decide)
  rw [← number pointId, equal, number otherPoint]

theorem eventPoint_repairEvent {record : OutboxRecord} {pointId : Nat} {eventId : Uuid} {now : Timestamp}
    (asks : recordPoint format blake3 record = .ok pointId) :
    eventPoint? format blake3 (repairEvent record pointId eventId now) = some pointId := by
  unfold recordPoint at asks
  simp only [eventPoint?, repairEvent, if_true]
  cases parsed : parseVectorUpsertRequest format record.event.payload with
  | error error =>
    rw [parsed] at asks
    cases asks
  | ok upsert =>
    rw [parsed] at asks
    exact congrArg some (Except.ok.inj asks)

/-! ### The repairs of a pass -/

/-- Points and events stay, each further event is a pending repair, and every record has a
repair of it in the outbox. -/
structure Enqueued (format : VectorFormat F) (blake3 : Blake3) (records : List OutboxRecord)
    (before after : OutboxWorld F) : Prop where
  points : after.points = before.points
  kept : ∀ row ∈ before.outbox.rows, row ∈ after.outbox.rows
  added : ∀ row ∈ after.outbox.rows, row ∈ before.outbox.rows ∨ row.status = .pending ∧
    ∃ eventId pointId, row.idempotencyKey = repairKey eventId pointId ∧
      eventPoint? format blake3 row.event = some pointId
  repaired : ∀ record ∈ records, ∀ pointId, recordPoint format blake3 record = .ok pointId →
    ∃ row ∈ after.outbox.rows, row.idempotencyKey = repairKey record.event.eventId pointId

theorem Enqueued.trans {first rest : List OutboxRecord} {before between after : OutboxWorld F}
    (left : Enqueued format blake3 first before between)
    (right : Enqueued format blake3 rest between after) :
    Enqueued format blake3 (first ++ rest) before after where
  points := right.points.trans left.points
  kept row member := right.kept row (left.kept row member)
  added row member := by
    rcases right.added row member with old | repair
    · exact left.added row old
    · exact .inr repair
  repaired record member pointId asks := by
    rcases List.mem_append.mp member with inFirst | inRest
    · obtain ⟨row, inRows, key⟩ := left.repaired record inFirst pointId asks
      exact ⟨row, right.kept row inRows, key⟩
    · exact right.repaired record inRest pointId asks

theorem enqueued_repair {record : OutboxRecord} {pointId : Nat} {eventId : Uuid} {now : Timestamp}
    {enqueued : Bool} (asks : recordPoint format blake3 record = .ok pointId)
    (ran : (enqueueRepair (repairEvent record pointId eventId now) :
      OutboxProgram F OutboxRelayError Bool).run (serveDrain answers) calls world =
        ⟨.ok enqueued, later, after⟩) : Enqueued format blake3 [record] world after := by
  have mine : ∀ other ∈ [record], ∀ wanted, recordPoint format blake3 other = .ok wanted →
      other = record ∧ wanted = pointId := by
    intro other member wanted same
    obtain rfl := List.mem_singleton.mp member
    exact ⟨rfl, Except.ok.inj (same.symm.trans asks)⟩
  rcases run_enqueueRepair ran with ⟨now, fresh, freshKey, rfl⟩ | ⟨rfl, taken⟩
  · refine ⟨rfl, fun row member => List.mem_append_left _ member, ?_, ?_⟩
    · intro row member
      rcases List.mem_append.mp member with old | new
      · exact .inl old
      · obtain rfl := List.mem_singleton.mp new
        exact .inr ⟨rfl, _, _, rfl, eventPoint_repairEvent asks⟩
    · intro other member wanted same
      obtain ⟨rfl, rfl⟩ := mine other member wanted same
      exact ⟨_, List.mem_append_right _ List.mem_cons_self, rfl⟩
  · refine ⟨rfl, fun _ member => member, fun _ member => .inl member, ?_⟩
    intro other member wanted same
    obtain ⟨rfl, rfl⟩ := mine other member wanted same
    exact Outbox.holdsKey_iff.mp taken

theorem run_enqueueRepairs {records : List OutboxRecord} {repaired : Nat}
    (ran : (enqueueRepairs format blake3 records).run (serveDrain answers) calls world =
      ⟨.ok repaired, later, after⟩) : Enqueued format blake3 records world after := by
  induction records generalizing calls world repaired with
  | nil =>
    cases ran
    exact ⟨rfl, fun _ member => member, fun _ member => .inl member,
      fun _ member => absurd member List.not_mem_nil⟩
  | cons record rest ih =>
    obtain ⟨pointId, _, _, parsed, asking⟩ := Program.run_bind_eq_ok.mp ran
    obtain ⟨asks, rfl, rfl⟩ := Program.run_ofExcept_eq_ok.mp parsed
    rw [Program.ask_bind, Program.run_call, Program.ask_bind, Program.run_call] at asking
    obtain ⟨enqueued, _, _, first, remaining⟩ := Program.run_bind_eq_ok.mp asking
    obtain ⟨count, _, _, others, returned⟩ := Program.run_bind_eq_ok.mp remaining
    cases returned
    exact (enqueued_repair asks first).trans (ih others)

/-! ### A whole pass -/

theorem OutboxWorld.stored_iff {pointId : Nat} :
    world.Stored pointId ↔ ∃ point ∈ world.points, point.id = pointId := by
  rw [OutboxWorld.Stored, pointAt?, List.find?_isSome]
  simp only [decide_eq_true_iff]

theorem eventPoint_eq_some {record : OutboxRecord} {pointId : Nat} :
    eventPoint? format blake3 record.event = some pointId ↔
      record.event.eventType = vectorUpsertEventType ∧ recordPoint format blake3 record = .ok pointId := by
  unfold eventPoint? recordPoint
  by_cases upsert : record.event.eventType = vectorUpsertEventType
  · rw [if_pos upsert, and_iff_right upsert]
    cases parseVectorUpsertRequest format record.event.payload <;> simp [Except.map]
  · simp [upsert]

theorem of_mem_listPublished {outbox : Outbox} {order : HashOrder OutboxRow} {eventType : Str} {limit : Int}
    {record : OutboxRecord} (member : record ∈ outbox.listPublished order eventType limit) :
    ∃ row ∈ outbox.rows, row.status = .published ∧ row.event.eventType = eventType ∧
      row.toOutboxRecord = record := by
  obtain ⟨row, inTaken, rfl⟩ := List.mem_map.mp member
  have sorted := List.mem_of_mem_take inTaken
  rw [List.mem_insertionSort, (order.perm _).mem_iff, List.mem_filter, Bool.and_eq_true,
    decide_eq_true_iff, decide_eq_true_iff] at sorted
  exact ⟨row, sorted.1, sorted.2.1, sorted.2.2, rfl⟩

theorem run_listPublished {limit : Int} {records : List OutboxRecord}
    (ran : (listPublishedEventsByType vectorUpsertEventType limit : OutboxProgram F OutboxError
      (List OutboxRecord)).run (serveDrain answers) calls world = ⟨.ok records, later, after⟩) :
    after = world ∧ ∃ order, records = world.outbox.listPublished order vectorUpsertEventType limit := by
  unfold listPublishedEventsByType at ran
  split at ran
  · cases ran
  · split at ran
    · cases ran
    · rw [Program.ask_bind, Program.run_call] at ran
      obtain ⟨answer, rfl, rfl⟩ := Program.run_ofExcept_eq_ok.mp ran
      simp only [serveDrain, serveOutbox, Weather.sql] at answer ⊢
      cases refused : (answers.weather calls).refused with
      | some message =>
        rw [refused] at answer
        cases answer
      | none =>
        rw [refused] at answer
        exact ⟨rfl, _, (Except.ok.inj answer).symm⟩

theorem run_deleteOrphans {orphaned : List Nat} {result : Unit}
    (ran : (deleteOrphans orphaned : OutboxProgram F OutboxRelayError Unit).run (serveDrain answers) calls
      world = ⟨.ok result, later, after⟩) :
    after.outbox = world.outbox ∧
      ∀ pointId, pointId ∉ orphaned → world.Stored pointId → after.Stored pointId := by
  unfold deleteOrphans at ran
  split at ran
  · cases ran
    exact ⟨rfl, fun _ _ stored => stored⟩
  · rw [Program.ask_bind, Program.run_call] at ran
    obtain ⟨-, rfl, rfl⟩ := Program.run_ofExcept_eq_ok.mp ran
    simp only [serveDrain, serveOutbox, Weather.store]
    cases (answers.weather calls).storeRefused with
    | some message => exact ⟨rfl, fun _ _ stored => stored⟩
    | none =>
      refine ⟨rfl, fun pointId spared stored => ?_⟩
      obtain ⟨point, member, rfl⟩ := OutboxWorld.stored_iff.mp stored
      exact OutboxWorld.stored_iff.mpr
        ⟨point, List.mem_filter.mpr ⟨member, decide_eq_true spared⟩, rfl⟩

/-- The row is a published upsert of the point, and no other published one is newer. -/
structure Outbox.Leads (format : VectorFormat F) (blake3 : Blake3) (outbox : Outbox) (pointId : Nat)
    (row : OutboxRow) : Prop where
  member : row ∈ outbox.rows
  published : row.status = .published
  asks : eventPoint? format blake3 row.event = some pointId
  newest : ∀ other ∈ outbox.rows, other.status = .published →
    eventPoint? format blake3 other.event = some pointId →
      outboxRecordIsNewer other.toOutboxRecord row.toOutboxRecord = false

theorem Outbox.Leads.newestOf {outbox : Outbox} {pointId : Nat} {row : OutboxRow}
    (leads : outbox.Leads format blake3 pointId row) (order : HashOrder OutboxRow) (limit : Int) :
    NewestOf format blake3 pointId row.toOutboxRecord
      (outbox.listPublished order vectorUpsertEventType limit) := by
  intro record listed asks
  obtain ⟨other, member, published, upsert, rfl⟩ := of_mem_listPublished listed
  have older := leads.newest other member published (eventPoint_eq_some.mpr ⟨upsert, asks⟩)
  by_cases same : row.eventId = other.eventId
  · exact .inl (congrArg OutboxRow.toOutboxRecord (Outbox.same_row member leads.member same.symm))
  · refine .inr ⟨?_, older⟩
    rcases newer_total same with newer | notOlder
    · exact newer
    · rw [older] at notOlder
      cases notOlder

/-- A pass that scans the newest published upsert of a point finds the point stored or
leaves a repair of it in the outbox. -/
theorem run_reconcileOnce {reconciler : OutboxReconciler} {pointOrder : HashOrder (Nat × OutboxRecord)}
    {report : OutboxReconciliationReport}
    (ran : (reconciler.reconcileOnce format blake3 pointOrder).run (serveDrain answers) calls world =
      ⟨.ok report, later, after⟩) {pointId : Nat} {row : OutboxRow}
    (leads : world.outbox.Leads format blake3 pointId row)
    (few : ((world.outbox.publishedSince row).length : Int) ≤ reconciler.scanLimit) :
    after.Stored pointId ∨
      ∃ repair ∈ after.outbox.rows, repair.idempotencyKey = repairKey row.eventId pointId ∧
        (repair ∈ world.outbox.rows ∨
          repair.status = .pending ∧ eventPoint? format blake3 repair.event = some pointId) := by
  obtain ⟨upsert, asks⟩ := eventPoint_eq_some.mp leads.asks
  obtain ⟨records, _, _, reading, ran⟩ := Program.run_bind_eq_ok.mp ran
  obtain ⟨rfl, order, rfl⟩ := run_listPublished (Program.run_mapError_eq_ok.mp reading)
  obtain ⟨expected, _, _, building, ran⟩ := Program.run_bind_eq_ok.mp ran
  obtain ⟨built, rfl, rfl⟩ := Program.run_ofExcept_eq_ok.mp building
  obtain ⟨missing, _, _, looking, ran⟩ := Program.run_bind_eq_ok.mp ran
  obtain ⟨rfl, looked⟩ := run_missingRecords looking
  obtain ⟨enqueued, _, _, enqueuing, ran⟩ := Program.run_bind_eq_ok.mp ran
  have repairs := run_enqueueRepairs enqueuing
  rw [Program.ask_bind, Program.run_call] at ran
  obtain ⟨listing, _, _, listed, ran⟩ := Program.run_bind_eq_ok.mp ran
  obtain ⟨-, rfl, rfl⟩ := Program.run_ofExcept_eq_ok.mp listed
  obtain ⟨_, _, _, deleting, returned⟩ := Program.run_bind_eq_ok.mp ran
  cases returned
  obtain ⟨sameOutbox, spared⟩ := run_deleteOrphans deleting
  have unchanged (world : OutboxWorld F) (calls : Nat) :
      (serveDrain answers calls .listPointIds world).2 = world := by
    simp only [serveDrain, serveOutbox, Weather.store]
    cases (answers.weather calls).storeRefused <;> rfl
  rw [unchanged] at sameOutbox spared
  have inExpected := expected_newest built (mem_listPublished leads.member leads.published upsert few) asks
    (leads.newestOf order reconciler.scanLimit)
  rcases looked _ ((pointOrder.perm _).mem_iff.mpr inExpected) with stored | absent
  · refine .inl (spared pointId ?_ ?_)
    · split
      · rw [List.mem_filter, decide_eq_true_iff]
        exact fun orphan => orphan.2 (List.mem_map_of_mem inExpected)
      · exact List.not_mem_nil
    · rw [OutboxWorld.Stored, repairs.points]
      exact stored
  · obtain ⟨repair, inRows, key⟩ := repairs.repaired _ absent pointId asks
    refine .inr ⟨repair, sameOutbox ▸ inRows, key, ?_⟩
    rcases repairs.added repair inRows with old | ⟨pending, eventId, wanted, own, point⟩
    · exact .inl old
    · obtain rfl := repairKey_point (own.symm.trans key)
      exact .inr ⟨pending, point⟩

/-! ### The relay after a pass -/

/-- The store accepts every write. -/
def DrainWeather.Accepts (answers : DrainWeather) : Prop :=
  ∀ eventId attempt, answers.refuses eventId attempt = none

theorem stored_wrote {eventId : Uuid} {point : StoredPoint F} {pointId : Nat}
    (stored : world.Stored pointId ∨ point.id = pointId) : (world.wrote eventId point).Stored pointId := by
  rw [OutboxWorld.stored_iff]
  by_cases same : point.id = pointId
  · exact ⟨point, List.mem_cons_self, same⟩
  · obtain ⟨old, member, rfl⟩ := OutboxWorld.stored_iff.mp (stored.resolve_right same)
    exact ⟨old, List.mem_cons_of_mem _ (List.mem_filter.mpr ⟨member, decide_eq_true (Ne.symm same)⟩), rfl⟩

/-- Only reconcilers take points away. -/
theorem stored_serveDrain {pointId : Nat} (request : OutboxCall F) (stored : world.Stored pointId)
    (aside : request.Aside) : (serveDrain answers calls request world).2.Stored pointId := by
  cases request with
  | upsertVector eventId wanted vector payload =>
    simp only [serveDrain, serveOutbox, Weather.store]
    cases answers.refuses eventId (world.outbox.attemptsOf eventId) with
    | some message => exact stored
    | none => exact stored_wrote (.inl stored)
  | insert event =>
    simp only [serveDrain, serveOutbox, Weather.sql]
    cases (answers.weather calls).refused with
    | some message => exact stored
    | none => cases world.outbox.insert (answers.weather calls).now event <;> exact stored
  | insertIfNew event =>
    simp only [serveDrain, serveOutbox, Weather.sql]
    cases (answers.weather calls).refused with
    | some message => exact stored
    | none => cases world.outbox.insertIfNew (answers.weather calls).now event <;> exact stored
  | hasVector wanted =>
    simp only [serveDrain, serveOutbox, Weather.store]
    split <;> exact stored
  | listPointIds => cases aside
  | deletePoints pointIds => cases aside
  | listPublished eventType limit => cases aside
  | utcNow => exact stored
  | newEventId => exact stored
  | _ =>
    simp only [serveDrain, serveOutbox, Weather.sql]
    split <;> exact stored

theorem stored_run {Err Result : Type} {program : OutboxProgram F Err Result} {pointId : Nat}
    (aside : program.Calls OutboxCall.Aside) (stored : world.Stored pointId) :
    (program.run (serveDrain answers) calls world).world.Stored pointId :=
  aside.run (fun (world : OutboxWorld F) => world.Stored pointId)
    (fun _ request _ held side => stored_serveDrain request held side) stored

theorem processRecord_stores {relay : OutboxRelay} {record : OutboxRecord} {pointId : Nat}
    (accepts : answers.Accepts) (asks : eventPoint? format blake3 record.event = some pointId) :
    ((relay.processRecord format blake3 record).run (serveDrain answers) calls world).world.Stored
      pointId := by
  obtain ⟨isUpsert, point⟩ := eventPoint_eq_some.mp asks
  unfold recordPoint at point
  unfold OutboxRelay.processRecord upsertOf
  rw [if_neg (not_not.mpr isUpsert)]
  cases parsed : parseVectorUpsertRequest format record.event.payload with
  | error error =>
    rw [parsed] at point
    cases point
  | ok upsert =>
    rw [parsed] at point
    obtain rfl := Except.ok.inj point
    have accepted := accepts record.event.eventId (world.outbox.attemptsOf record.event.eventId)
    simp only [Except.mapError, Program.ask_bind, Program.run_call, serveDrain, serveOutbox, Weather.store,
      accepted]
    exact stored_run (aside_markPublished _ _) (stored_wrote (.inr rfl))

theorem run_processClaimedRecords_stores {relay : OutboxRelay} {records : List OutboxRecord}
    {report : OutboxRelayRunReport} (accepts : answers.Accepts)
    (ran : (relay.processClaimedRecords format blake3 records).run (serveDrain answers) calls world =
      ⟨.ok report, later, after⟩) {record : OutboxRecord} (member : record ∈ records) {pointId : Nat}
    (asks : eventPoint? format blake3 record.event = some pointId) : after.Stored pointId := by
  induction records generalizing calls world report with
  | nil => cases member
  | cons first rest ih =>
    obtain ⟨published, middle, left, processing, remaining⟩ := Program.run_bind_eq_ok.mp ran
    obtain ⟨restReport, _, _, others, returned⟩ := Program.run_bind_eq_ok.mp remaining
    cases returned
    rcases List.mem_cons.mp member with rfl | inRest
    · have stored : ((relay.processRecord format blake3 record).run (serveDrain answers) calls
          world).world.Stored pointId := processRecord_stores accepts asks
      rw [processing] at stored
      have kept : ((relay.processClaimedRecords format blake3 rest).run (serveDrain answers) middle
          left).world.Stored pointId := stored_run (aside_processClaimedRecords relay rest) stored
      rw [others] at kept
      exact kept
    · exact ih others inRest

/-- A relay pass with every write accepted leaves an event pending or its point stored. -/
theorem run_relayAllPass {relay : OutboxRelay} {ended : Option Unit} (accepts : answers.Accepts)
    (ran : (relay.relayAllPass format blake3).run (serveDrain answers) calls world =
      ⟨.ok ended, later, after⟩) {row : OutboxRow} (member : row ∈ world.outbox.rows) {pointId : Nat}
    (asks : eventPoint? format blake3 row.event = some pointId) :
    after.outbox.events = world.outbox.events ∧
      (after.outbox.progress row.eventId = some row.progress ∨ after.Stored pointId) := by
  obtain ⟨report, middle, left, relayed, returned⟩ := Program.run_bind_eq_ok.mp ran
  obtain rfl : left = after := by
    split at returned <;> cases returned <;> rfl
  have passed := run_relay relayed
  refine ⟨passed.events, ?_⟩
  obtain ⟨records, between, _, claiming, processing⟩ := Program.run_bind_eq_ok.mp relayed
  obtain ⟨order, now, rfl, rfl⟩ := run_claimOutbox (Program.run_mapError_eq_ok.mp claiming)
  obtain ⟨distinct, known, -, -⟩ := Outbox.claim_spec world.outbox order now none relay.claimLimit
  by_cases inside : row.eventId ∈ (world.outbox.claim order now none relay.claimLimit).1.map
      OutboxRecord.eventId
  · obtain ⟨record, inRecords, same⟩ := List.mem_map.mp inside
    obtain ⟨source, inRows, rfl, -⟩ := known record inRecords
    obtain rfl := Outbox.same_row inRows member same
    exact .inr (run_processClaimedRecords_stores accepts processing inRecords asks)
  · refine .inl ?_
    obtain ⟨-, settled⟩ := run_processClaimedRecords distinct processing
    have claimed : (world.outbox.claim order now none relay.claimLimit).2.progress =
        claimKeys ((world.outbox.claim order now none relay.claimLimit).1.map OutboxRecord.eventId)
          world.outbox.progress := Outbox.progress_claim _ _ _ _ _
    refine (settled.others row.eventId inside).trans ?_
    change (world.outbox.claim order now none relay.claimLimit).2.progress row.eventId = _
    rw [claimed, claimKeys, if_neg inside, Outbox.progress_of_mem member]

/-- After a relay with every write accepted, an event that was pending still is, or its
point is stored; and a stored point stays. -/
theorem runLoop_relayAllPass {relay : OutboxRelay} {passes : Nat} (accepts : answers.Accepts)
    (ran : Program.runLoop (serveDrain answers) (relay.relayAllPass format blake3) passes calls world =
      some ⟨.ok (), later, after⟩) {pointId : Nat}
    (start : world.Stored pointId ∨ ∃ row ∈ world.outbox.rows, row.status = .pending ∧
      eventPoint? format blake3 row.event = some pointId) :
    after.Stored pointId ∨ ∃ row ∈ after.outbox.rows, row.status = .pending ∧
      eventPoint? format blake3 row.event = some pointId := by
  have pass (calls later : Nat) (before after : OutboxWorld F) (ended : Option Unit)
      (holds : before.Stored pointId ∨ ∃ row ∈ before.outbox.rows, row.status = .pending ∧
        eventPoint? format blake3 row.event = some pointId)
      (ran : (relay.relayAllPass format blake3).run (serveDrain answers) calls before =
        ⟨.ok ended, later, after⟩) :
      after.Stored pointId ∨ ∃ row ∈ after.outbox.rows, row.status = .pending ∧
        eventPoint? format blake3 row.event = some pointId := by
    rcases holds with stored | ⟨row, member, pending, asks⟩
    · have kept : ((relay.relayAllPass format blake3).run (serveDrain answers) calls before).world.Stored
          pointId := stored_run ((aside_relay relay none).bind fun _ => by split <;> trivial) stored
      rw [ran] at kept
      exact .inl kept
    · obtain ⟨events, same | stored⟩ := run_relayAllPass accepts ran member asks
      · obtain ⟨current, inRows, event⟩ := Outbox.exists_of_events events.symm member
        have id : current.eventId = row.eventId := congrArg OutboxEvent.eventId event
        rw [← id, Outbox.progress_of_mem inRows] at same
        have standing : current.status.standing = row.status.standing :=
          congrArg Progress.standing (Option.some.inj same)
        refine .inr ⟨current, inRows, ?_, event ▸ asks⟩
        rw [pending] at standing
        cases status : current.status <;> rw [status] at standing <;> first | rfl | cases standing
      · exact .inl stored
  obtain ⟨calls, left, holds, last⟩ :=
    Program.runLoop_invariant (fun _ _ _ _ holds ran => pass _ _ _ _ _ holds ran) start ran
  exact pass _ _ _ _ _ holds last

/-! ### Repair -/

/-- Every row under the key of a repair of this row is a newer upsert of the point, and
none of them is failed or in processing. -/
def Outbox.RepairsOpen (format : VectorFormat F) (blake3 : Blake3) (outbox : Outbox) (pointId : Nat)
    (row : OutboxRow) : Prop :=
  ∀ repair ∈ outbox.rows, repair.idempotencyKey = repairKey row.eventId pointId →
    eventPoint? format blake3 repair.event = some pointId ∧
      outboxRecordIsNewer repair.toOutboxRecord row.toOutboxRecord = true ∧
      (repair.status = .pending ∨ repair.status = .published)

variable (format blake3) in
/-- Nothing that asks for the point is left pending. -/
def Outbox.RelayedFor (outbox : Outbox) (pointId : Nat) : Prop :=
  ∀ row ∈ outbox.rows, eventPoint? format blake3 row.event = some pointId → row.status ≠ .pending

/-- A pass and a complete relay after it bring a point back whose newest published upsert
is within the scan, when no earlier repair of it has failed or is stuck. -/
theorem reconcile_restores {reconciler : OutboxReconciler} {pointOrder : HashOrder (Nat × OutboxRecord)}
    {relay : OutboxRelay} {relaying : DrainWeather} {report : OutboxReconciliationReport}
    {reconciled : OutboxWorld F} {passes started ended pointId : Nat} {row : OutboxRow}
    (reconcile : (reconciler.reconcileOnce format blake3 pointOrder).run (serveDrain answers) calls world =
      ⟨.ok report, later, reconciled⟩)
    (accepts : relaying.Accepts)
    (relayed : Program.runLoop (serveDrain relaying) (relay.relayAllPass format blake3) passes started
      reconciled = some ⟨.ok (), ended, after⟩)
    (complete : after.outbox.RelayedFor format blake3 pointId)
    (leads : world.outbox.Leads format blake3 pointId row)
    (scanned : ((world.outbox.publishedSince row).length : Int) ≤ reconciler.scanLimit)
    (repairs : world.outbox.RepairsOpen format blake3 pointId row) : after.Stored pointId := by
  have start : reconciled.Stored pointId ∨ ∃ row ∈ reconciled.outbox.rows, row.status = .pending ∧
      eventPoint? format blake3 row.event = some pointId := by
    refine (run_reconcileOnce reconcile leads scanned).imp id ?_
    rintro ⟨repair, inRows, key, old | ⟨pending, asks⟩⟩
    · obtain ⟨asks, newer, pending | published⟩ := repairs repair old key
      · exact ⟨repair, inRows, pending, asks⟩
      · rw [leads.newest repair old published asks] at newer
        cases newer
    · exact ⟨repair, inRows, pending, asks⟩
  rcases runLoop_relayAllPass accepts relayed start with stored | ⟨left, inRows, pending, asks⟩
  · exact stored
  · exact absurd pending (complete left inRows asks)

/-! Two published vectors that the store has lost. -/

def twoPointDigest : Blake3 := fun bytes =>
  if bytes = Str.utf8 "c2" then
    [131, 238, 251, 202, 142, 76, 10, 142, 96, 215, 123, 234, 161, 91, 68, 19,
      187, 168, 250, 202, 201, 127, 236, 26, 89, 77, 137, 191, 247, 48, 46, 71]
  else samplePointDigest bytes

def secondEvent : OutboxEvent where
  eventId := List.replicate 16 2
  eventType := vectorUpsertEventType
  correlationId := List.replicate 16 7
  idempotencyKey := "graph.rebuild:vector:c2"
  schemaVersion := 1
  timestamp := 1
  payload := .object [("content_hash", .string "c2"), ("vector", .array [.number 2]), ("payload", .null)]

def publishTwo : OutboxProgram Rat OutboxRelayError OutboxRelayRunReport := do
  (appendOutboxEvent sampleEvent).mapError .coordinator
  (appendOutboxEvent secondEvent).mapError .coordinator
  sampleRelay.relayOnce rationalFormat twoPointDigest

def lostWorld : OutboxWorld Rat :=
  { (publishTwo.run (fun _ => serveOutbox calm) 0 freshWorld).world with points := [] }

/-- Every call gets a fresh id, and nothing is refused. -/
def repairing : DrainWeather where
  weather calls := { calm with now := 2, eventId := List.replicate 16 (UInt8.ofNat (calls + 3)) }
  refuses _ _ := none

def reconcileLost (reconciler : OutboxReconciler) :
    Finished OutboxRelayError OutboxReconciliationReport (OutboxWorld Rat) :=
  (reconciler.reconcileOnce rationalFormat twoPointDigest (.unchanged _)).run (serveDrain repairing) 0
    lostWorld

def relayRepairs (reconciler : OutboxReconciler) :
    Option (Finished OutboxRelayError Unit (OutboxWorld Rat)) :=
  Program.runLoop (serveDrain repairing) (sampleRelay.relayAllPass rationalFormat twoPointDigest) 5 0
    (reconcileLost reconciler).world

def firstPoint : Nat := qdrantPointIdFromContentHash twoPointDigest "c1".toList

theorem lostWorld_leads : ∃ row ∈ lostWorld.outbox.rows,
    lostWorld.outbox.Leads rationalFormat twoPointDigest firstPoint row ∧
      lostWorld.outbox.RepairsOpen rationalFormat twoPointDigest firstPoint row ∧
      (lostWorld.outbox.publishedSince row).length = 2 := by
  have found : ∃ row ∈ lostWorld.outbox.rows, row.status = .published ∧
      eventPoint? rationalFormat twoPointDigest row.event = some firstPoint ∧
      (∀ other ∈ lostWorld.outbox.rows, other.status = .published →
        eventPoint? rationalFormat twoPointDigest other.event = some firstPoint →
          outboxRecordIsNewer other.toOutboxRecord row.toOutboxRecord = false) ∧
      (∀ other ∈ lostWorld.outbox.rows, other.idempotencyKey ≠ repairKey row.eventId firstPoint) ∧
      (lostWorld.outbox.publishedSince row).length = 2 := by
    decide +kernel
  obtain ⟨row, member, published, asks, newest, untaken, count⟩ := found
  exact ⟨row, member, ⟨member, published, asks, newest⟩,
    fun repair inRows key => absurd key (untaken repair inRows), count⟩

/-- How a pass and a relay after it end on the lost vectors. -/
theorem repairLost_ends (reconciler : OutboxReconciler) (stored : Bool)
    (reconciles : (reconcileLost reconciler).outcome.isOk = true)
    (relays : (relayRepairs reconciler).map (fun finished => (finished.outcome.isOk,
      finished.world.outbox.rows.all fun row => row.status ≠ .pending,
      (pointAt? firstPoint finished.world.points).isSome)) = some (true, true, stored)) :
    ∃ report later reconciled ended after,
      (reconciler.reconcileOnce rationalFormat twoPointDigest (.unchanged _)).run (serveDrain repairing) 0
        lostWorld = ⟨.ok report, later, reconciled⟩ ∧
      Program.runLoop (serveDrain repairing) (sampleRelay.relayAllPass rationalFormat twoPointDigest) 5 0
        reconciled = some ⟨.ok (), ended, after⟩ ∧
      after.outbox.RelayedFor rationalFormat twoPointDigest firstPoint ∧
      (pointAt? firstPoint after.points).isSome = stored := by
  obtain ⟨⟨error | result, ended, after⟩, relayed, facts⟩ := Option.map_eq_some_iff.mp relays
  · cases (Prod.mk.inj facts).1
  obtain ⟨complete, here⟩ := Prod.mk.inj (Prod.mk.inj facts).2
  rw [List.all_eq_true] at complete
  rcases reconciled : reconcileLost reconciler with ⟨error | report, later, world⟩
  · rw [reconciled] at reconciles
    cases reconciles
  · rw [relayRepairs, reconciled] at relayed
    exact ⟨report, later, world, ended, after, reconciled, relayed,
      fun row member _ => of_decide_eq_true (complete row member), here⟩

theorem reconcile_restores_first : ∃ (report : OutboxReconciliationReport) (later : Nat)
    (reconciled after : OutboxWorld Rat) (ended : Nat),
    reconcileLost ⟨10, by decide⟩ = ⟨.ok report, later, reconciled⟩ ∧
      relayRepairs ⟨10, by decide⟩ = some ⟨.ok (), ended, after⟩ ∧
      lostWorld.points = [] ∧ after.Stored firstPoint := by
  obtain ⟨row, -, leads, repairs, count⟩ := lostWorld_leads
  obtain ⟨report, later, reconciled, ended, after, reconciling, relaying, complete, -⟩ :=
    repairLost_ends ⟨10, by decide⟩ true (by decide +kernel) (by decide +kernel)
  refine ⟨report, later, reconciled, after, ended, reconciling, ?_, rfl, ?_⟩
  · rw [relayRepairs, reconcileLost, reconciling]
    exact relaying
  · exact reconcile_restores reconciling (fun _ _ => rfl) relaying complete leads (by rw [count]; decide)
      repairs

/-- A point whose newest upsert is beyond the scan limit stays missing. -/
theorem reconcile_misses_beyond_limit : ¬ ∀ (reconciler : OutboxReconciler) (reconciling relaying : DrainWeather)
    (world reconciled after : OutboxWorld Rat) (report : OutboxReconciliationReport)
    (later passes started ended pointId : Nat) (row : OutboxRow),
    (reconciler.reconcileOnce rationalFormat twoPointDigest (.unchanged _)).run (serveDrain reconciling) 0
        world = ⟨.ok report, later, reconciled⟩ →
      relaying.Accepts →
      Program.runLoop (serveDrain relaying) (sampleRelay.relayAllPass rationalFormat twoPointDigest) passes
        started reconciled = some ⟨.ok (), ended, after⟩ →
      after.outbox.RelayedFor rationalFormat twoPointDigest pointId →
      world.outbox.Leads rationalFormat twoPointDigest pointId row →
      after.Stored pointId := by
  intro always
  obtain ⟨row, -, leads, -⟩ := lostWorld_leads
  obtain ⟨report, later, reconciled, ended, after, reconciling, relaying, complete, missing⟩ :=
    repairLost_ends ⟨1, by decide⟩ false (by decide +kernel) (by decide +kernel)
  have stored := always _ _ _ _ _ _ _ _ _ _ _ _ _ reconciling (fun _ _ => rfl) relaying complete leads
  rw [OutboxWorld.Stored, missing] at stored
  cases stored

end SkillLayer.Infrastructure
