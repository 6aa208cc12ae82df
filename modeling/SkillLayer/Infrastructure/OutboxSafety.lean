import SkillLayer.Infrastructure.OutboxEffects

/-! The outbox under any number of relays, rebuilds and reconcilers: what holds in every
reachable state, and why the drain loops end. -/

namespace SkillLayer.Infrastructure

variable {F Worker : Type} [DecidableEq Worker] (format : VectorFormat F) (blake3 : Blake3)

/-- Any number of programs on one outbox and one vector store, served in any weather. -/
def outboxSite (delays : Nat → Prop) :
    Site (OutboxCall F) (OutboxAnswer F) OutboxRelayError Unit RelayLedger (OutboxWorld F) where
  discipline := outboxDiscipline format blake3
  idle := .idle
  starts := OutboxTask format blake3 delays
  serves request world answer after := ∃ weather, serveOutbox weather request world = (answer, after)

abbrev OutboxCluster (F Worker : Type) :=
  Cluster (OutboxCall F) (OutboxAnswer F) OutboxRelayError Unit RelayLedger (OutboxWorld F) Worker

abbrev OutboxStep (F Worker : Type) := Event (OutboxCall F) (OutboxAnswer F) Worker

/-- No events yet; the vector store may hold anything. -/
structure OutboxWorld.New (world : OutboxWorld F) : Prop where
  outbox : world.outbox = .empty
  written : world.written = []
  failures : world.failures = []

/-- The store acknowledged a write for this event, of the point that it asks for. -/
def OutboxWorld.Acknowledged (world : OutboxWorld F) (record : OutboxRecord) : Prop :=
  ∃ upsert, upsertOf format record = .ok upsert ∧
    (record.event.eventId, upsert.point blake3) ∈ world.written

/-- The invariant of the outbox: the pool of events is sound, what a relay holds has a row,
failures are counted by the attempts, and published events were written before. -/
structure OutboxSound (world : OutboxWorld F) (ledgers : Worker → RelayLedger) : Prop where
  pool : PoolSound maxOutboxRetries world.outbox.progress fun worker => (ledgers worker).heldIds
  known : ∀ worker, ∀ record ∈ (ledgers worker).held, ∃ row ∈ world.outbox.rows, row.event = record.event
  counted : ∀ eventId, world.failures.count eventId =
    ((world.outbox.progress eventId).map Progress.attempts).getD 0
  published : ∀ row ∈ world.outbox.rows, row.status = .published →
    world.Acknowledged format blake3 row.toOutboxRecord
  wrote : ∀ worker record rest, (ledgers worker).held = record :: rest →
    (ledgers worker).wrote = true → world.Acknowledged format blake3 record

variable {format blake3}

theorem upsertOf_congr {record other : OutboxRecord} (same : record.event = other.event) :
    upsertOf format record = upsertOf format other := by
  rw [upsertOf, upsertOf, same]

theorem OutboxWorld.Acknowledged.mono {world after : OutboxWorld F} {record other : OutboxRecord}
    (acknowledged : world.Acknowledged format blake3 record) (more : world.written ⊆ after.written)
    (same : record.event = other.event) : after.Acknowledged format blake3 other := by
  obtain ⟨upsert, asked, written⟩ := acknowledged
  exact ⟨upsert, upsertOf_congr same ▸ asked, same ▸ more written⟩

theorem Outbox.same_row {outbox : Outbox} {row other : OutboxRow} (member : row ∈ outbox.rows)
    (found : other ∈ outbox.rows) (same : row.eventId = other.eventId) : row = other := by
  have first := Outbox.find?_of_mem member
  rw [same, Outbox.find?_of_mem found] at first
  exact (Option.some.inj first).symm

omit [DecidableEq Worker] in
theorem OutboxSound.start {world : OutboxWorld F} (new : world.New) :
    OutboxSound format blake3 world fun _ : Worker => RelayLedger.idle := by
  obtain ⟨outbox, written, failures⟩ := new
  have none_ (eventId : Uuid) : world.outbox.progress eventId = none := by
    rw [outbox]
    rfl
  refine ⟨⟨?_, ?_, ?_, ?_⟩, ?_, ?_, ?_, ?_⟩
  · intro eventId item here
    rw [none_] at here
    cases here
  · exact fun _ _ member => by cases member
  · exact fun _ => List.nodup_nil
  · exact fun _ _ _ => List.disjoint_nil_left _
  · exact fun _ _ member => by cases member
  · intro eventId
    rw [failures, none_]
    rfl
  · intro row member
    rw [outbox] at member
    cases member
  · exact fun _ _ _ held => by cases held

/-! ### What each effect keeps -/

section Effect

variable {world after : OutboxWorld F} {ledgers : Worker → RelayLedger} {worker : Worker}
  {request : OutboxCall F} {left : RelayLedger}

theorem heldIds_update (ledgers : Worker → RelayLedger) (worker : Worker) (left : RelayLedger) :
    (fun other => (Function.update ledgers worker left other).heldIds) =
      Function.update (fun other => (ledgers other).heldIds) worker left.heldIds :=
  Function.comp_update RelayLedger.heldIds ledgers worker left

theorem head_of_allowed {ledger : RelayLedger} {eventId : Uuid} (head : ledger.heldIds.head? = some eventId) :
    ∃ record rest, ledger.held = record :: rest ∧ record.event.eventId = eventId ∧
      ledger.heldIds = eventId :: rest.map OutboxRecord.eventId ∧
      ledger.settled.heldIds = rest.map OutboxRecord.eventId := by
  cases held : ledger.held with
  | nil => simp [RelayLedger.heldIds, held] at head
  | cons record rest =>
    have same : record.eventId = eventId := by simpa [RelayLedger.heldIds, held] using head
    refine ⟨record, rest, rfl, same, ?_, ?_⟩
    · rw [RelayLedger.heldIds, held, List.map_cons, same]
    · rw [RelayLedger.heldIds, RelayLedger.settled, held, List.tail_cons]

theorem pool_effect
    (pool : PoolSound maxOutboxRetries world.outbox.progress fun worker => (ledgers worker).heldIds)
    (allowed : (ledgers worker).Allows format blake3 request)
    (effect : OutboxEffect world (ledgers worker) request after left) :
    PoolSound maxOutboxRetries after.outbox.progress
      fun other => (Function.update ledgers worker left other).heldIds := by
  rw [heldIds_update]
  have still (same : left.heldIds = (ledgers worker).heldIds) :
      Function.update (fun other => (ledgers other).heldIds) worker left.heldIds =
        fun other => (ledgers other).heldIds := by
    rw [same, Function.update_eq_self]
  cases effect with
  | untouched => rwa [still rfl]
  | added asked fresh freshKey =>
    rw [still rfl, OutboxWorld.withOutbox, Outbox.progress_insertRow]
    exact pool.add (Outbox.progress_eq_none.mpr fresh) (by decide)
  | claimed correlationId limit order now =>
    obtain ⟨distinct, -, -, -⟩ := Outbox.claim_spec world.outbox order now correlationId limit
    rw [OutboxWorld.withOutbox, Outbox.progress_claim]
    exact pool.claim distinct (OutboxEffect.claimed_pending _ _ _ _ _)
  | published streamId here processing =>
    obtain ⟨record, rest, -, -, held, settled⟩ := head_of_allowed allowed.1
    rw [OutboxWorld.withOutbox, Outbox.progress_setPublished streamId here processing, settled]
    exact pool.settle held here (.inl rfl)
  | failed errorMessage availableAt here processing =>
    obtain ⟨record, rest, -, -, held, settled⟩ := head_of_allowed allowed
    rw [Outbox.progress_setFailed errorMessage availableAt here processing, settled]
    exact pool.settle held here (.inr rfl)
  | wrote => rwa [still rfl]
  | deleted => rwa [still rfl]

theorem known_effect
    (known : ∀ worker, ∀ record ∈ (ledgers worker).held, ∃ row ∈ world.outbox.rows, row.event = record.event)
    (effect : OutboxEffect world (ledgers worker) request after left) (other : Worker) :
    ∀ record ∈ (Function.update ledgers worker left other).held,
      ∃ row ∈ after.outbox.rows, row.event = record.event := by
  intro record member
  suffices before : ∃ row ∈ world.outbox.rows, row.event = record.event by
    obtain ⟨row, inRows, same⟩ := before
    obtain ⟨next, inAfter, kept⟩ := effect.event_kept inRows
    exact ⟨next, inAfter, kept.trans same⟩
  by_cases same : other = worker
  · subst same
    rw [Function.update_self] at member
    cases effect with
    | claimed correlationId limit order now =>
      obtain ⟨-, rows, -, -⟩ := Outbox.claim_spec world.outbox order now correlationId limit
      obtain ⟨row, inRows, rfl, -⟩ := rows record member
      exact ⟨row, inRows, rfl⟩
    | untouched => exact known other record member
    | added => exact known other record member
    | published => exact known other record (List.mem_of_mem_tail member)
    | failed => exact known other record (List.mem_of_mem_tail member)
    | wrote => exact known other record member
    | deleted => exact known other record member
  · rw [Function.update_of_ne same] at member
    exact known other record member

omit [DecidableEq Worker] in
theorem counted_effect
    (counted : ∀ eventId, world.failures.count eventId =
      ((world.outbox.progress eventId).map Progress.attempts).getD 0)
    (effect : OutboxEffect world (ledgers worker) request after left) (eventId : Uuid) :
    after.failures.count eventId = ((after.outbox.progress eventId).map Progress.attempts).getD 0 := by
  cases effect with
  | untouched => exact counted eventId
  | @added _ event now asked fresh freshKey =>
    have before := counted eventId
    rw [OutboxWorld.withOutbox, Outbox.progress_insertRow]
    by_cases same : eventId = event.eventId
    · subst same
      have absent : world.outbox.progress event.eventId = none := Outbox.progress_eq_none.mpr fresh
      rw [absent] at before
      rw [Function.update_self]
      exact before
    · rw [Function.update_of_ne same]
      exact before
  | claimed =>
    have before := counted eventId
    rw [OutboxWorld.withOutbox, Outbox.progress_claim, claimKeys]
    split
    · rw [Option.map_map]
      exact before
    · exact before
  | @published marked streamId item here processing =>
    have before := counted eventId
    rw [OutboxWorld.withOutbox, Outbox.progress_setPublished streamId here processing]
    by_cases same : eventId = marked
    · subst same
      rw [here] at before
      rw [Function.update_self]
      exact before
    · rw [Function.update_of_ne same]
      exact before
  | @failed marked errorMessage availableAt item here processing =>
    have before := counted eventId
    rw [Outbox.progress_setFailed errorMessage availableAt here processing]
    by_cases same : eventId = marked
    · subst same
      rw [here] at before
      rw [Function.update_self, List.count_cons_self, before]
      rfl
    · rw [Function.update_of_ne same, List.count_cons_of_ne (Ne.symm same)]
      exact before
  | wrote => exact counted eventId
  | deleted => exact counted eventId

omit [DecidableEq Worker] in
theorem written_effect (effect : OutboxEffect world (ledgers worker) request after left) :
    world.written ⊆ after.written := by
  cases effect with
  | wrote => exact List.subset_cons_self _ _
  | _ => exact List.Subset.refl _

omit [DecidableEq Worker] in
/-- A row that is published was published before, or it is the row that was just marked. -/
theorem published_before (effect : OutboxEffect world (ledgers worker) request after left)
    {row : OutboxRow} (member : row ∈ after.outbox.rows) (published : row.status = .published) :
    ∃ before ∈ world.outbox.rows, before.event = row.event ∧
      (before.status = .published ∨ ∃ streamId, request = .setPublished row.eventId streamId) := by
  have marked {selects : OutboxRow → Bool} {change : OutboxRow → OutboxRow}
      (keepsEvent : ∀ row, (change row).event = row.event)
      (other : ∀ row, selects row = true → (change row).status ≠ .published)
      (inside : row ∈ (world.outbox.modify selects change keepsEvent).rows) :
      ∃ before ∈ world.outbox.rows, before.event = row.event ∧ before.status = .published := by
    obtain ⟨before, inRows, same, rfl⟩ := Outbox.mem_rows_modify keepsEvent inside
    refine ⟨before, inRows, same, ?_⟩
    by_cases selected : selects before = true
    · rw [if_pos selected] at published
      exact absurd published (other before selected)
    · rwa [if_neg selected] at published
  cases effect with
  | untouched => exact ⟨row, member, rfl, .inl published⟩
  | added asked fresh freshKey =>
    rcases List.mem_append.mp member with old | new
    · exact ⟨row, old, rfl, .inl published⟩
    · obtain rfl := List.mem_singleton.mp new
      cases published
  | claimed =>
    obtain ⟨before, inRows, same, already⟩ := marked (fun _ => by rfl) (fun _ _ => by simp) member
    exact ⟨before, inRows, same, .inl already⟩
  | @published eventId streamId item here processing =>
    obtain ⟨before, inRows, same, changed⟩ := Outbox.mem_rows_modify (fun _ => by rfl) member
    refine ⟨before, inRows, same, ?_⟩
    by_cases selected : Outbox.inProcessing eventId before = true
    · have id : before.eventId = eventId := of_decide_eq_true (Bool.and_eq_true_iff.mp selected).1
      refine .inr ⟨streamId, ?_⟩
      rw [← id, OutboxRow.eventId, OutboxRow.eventId, same]
    · rw [if_neg selected] at changed
      exact .inl (changed ▸ published)
  | failed =>
    obtain ⟨before, inRows, same, already⟩ :=
      marked (fun _ => by rfl) (fun row _ => by dsimp only; split <;> simp) member
    exact ⟨before, inRows, same, .inl already⟩
  | wrote => exact ⟨row, member, rfl, .inl published⟩
  | deleted => exact ⟨row, member, rfl, .inl published⟩

omit [DecidableEq Worker] in
theorem published_effect (sound : OutboxSound format blake3 world ledgers)
    (allowed : (ledgers worker).Allows format blake3 request)
    (effect : OutboxEffect world (ledgers worker) request after left) :
    ∀ row ∈ after.outbox.rows, row.status = .published →
      after.Acknowledged format blake3 row.toOutboxRecord := by
  intro row member published
  obtain ⟨before, inRows, same, already | ⟨streamId, rfl⟩⟩ := published_before effect member published
  · exact (sound.published before inRows already).mono (written_effect effect) same
  · obtain ⟨record, rest, held, id, -, -⟩ := head_of_allowed allowed.1
    obtain ⟨source, found, from_⟩ := sound.known worker record (held ▸ List.mem_cons_self)
    have equal : source = before := Outbox.same_row found inRows (by
      rw [OutboxRow.eventId, OutboxRow.eventId, from_, id, same]
      rfl)
    exact (sound.wrote worker record rest held allowed.2).mono (written_effect effect)
      (from_.symm.trans ((congrArg (·.event) equal).trans same))

theorem wrote_effect (sound : OutboxSound format blake3 world ledgers)
    (allowed : (ledgers worker).Allows format blake3 request)
    (effect : OutboxEffect world (ledgers worker) request after left) (other : Worker)
    (record : OutboxRecord) (rest : List OutboxRecord)
    (held : (Function.update ledgers worker left other).held = record :: rest)
    (wrote : (Function.update ledgers worker left other).wrote = true) :
    after.Acknowledged format blake3 record := by
  have more := written_effect effect
  by_cases same : other = worker
  · subst same
    rw [Function.update_self] at held wrote
    cases effect with
    | untouched => exact (sound.wrote other record rest held wrote).mono more rfl
    | added => exact (sound.wrote other record rest held wrote).mono more rfl
    | claimed => cases wrote
    | published => cases wrote
    | failed => cases wrote
    | wrote eventId pointId vector payload =>
      obtain ⟨first, others, upsert, holds, rfl, asked, point⟩ := allowed
      obtain ⟨rfl, -⟩ := List.cons.inj (holds.symm.trans held)
      exact ⟨upsert, asked, point ▸ List.mem_cons_self⟩
    | deleted => exact (sound.wrote other record rest held wrote).mono more rfl
  · rw [Function.update_of_ne same] at held wrote
    exact (sound.wrote other record rest held wrote).mono more rfl

/-- An allowed call keeps the invariant. -/
theorem OutboxSound.effect (sound : OutboxSound format blake3 world ledgers)
    (allowed : (ledgers worker).Allows format blake3 request)
    (effect : OutboxEffect world (ledgers worker) request after left) :
    OutboxSound format blake3 after (Function.update ledgers worker left) where
  pool := pool_effect sound.pool allowed effect
  known := known_effect sound.known effect
  counted := counted_effect sound.counted effect
  published := published_effect sound allowed effect
  wrote := wrote_effect sound allowed effect

/-- A relay that stops lets go of what it holds. -/
theorem OutboxSound.release (sound : OutboxSound format blake3 world ledgers) (worker : Worker) :
    OutboxSound format blake3 world (Function.update ledgers worker .idle) where
  pool := by
    rw [heldIds_update]
    exact sound.pool.drop worker
  known := by
    intro other record member
    by_cases same : other = worker
    · subst same
      rw [Function.update_self] at member
      cases member
    · rw [Function.update_of_ne same] at member
      exact sound.known other record member
  counted := sound.counted
  published := sound.published
  wrote := by
    intro other record rest held wrote
    by_cases same : other = worker
    · subst same
      rw [Function.update_self] at wrote
      cases wrote
    · rw [Function.update_of_ne same] at held wrote
      exact sound.wrote other record rest held wrote

end Effect

/-! ### Every run -/

variable (format blake3) in
/-- The runs from an outbox without events. -/
def outboxRuns (Worker : Type) [DecidableEq Worker] (delays : Nat → Prop) :
    Transitions (OutboxCluster F Worker) :=
  (outboxSite format blake3 delays).runs Worker OutboxWorld.New

variable {delays : Nat → Prop} {cluster after : OutboxCluster F Worker} {event : OutboxStep F Worker}

variable (format blake3 delays) in
/-- The invariant holds, and every program keeps to the discipline. -/
abbrev OutboxGoverned (cluster : OutboxCluster F Worker) : Prop :=
  Site.Governed (outboxSite format blake3 delays) (RelayLedger.Ends delays) (OutboxSound format blake3)
    cluster

theorem OutboxGoverned.step (governed : OutboxGoverned format blake3 delays cluster)
    (step : (outboxSite format blake3 delays).Step cluster event after) :
    OutboxGoverned format blake3 delays after := by
  refine Site.Governed.step governed (fun body task => OutboxTask.obeys task) ?_ ?_ ?_ step
  · rintro worker request answer world - allowed ⟨weather, served⟩
    exact governed.holds.effect allowed (OutboxEffect.of_served served _)
  · exact fun worker _ _ _ => governed.holds.release worker
  · exact fun worker _ => governed.holds.release worker

theorem outboxGoverned_of_reachable
    (reached : (outboxRuns format blake3 Worker delays).Reachable cluster) :
    OutboxGoverned format blake3 delays cluster :=
  Site.governed_of_reachable (fun _ new => .start new) (fun _ _ _ governed _ step => OutboxGoverned.step governed step)
    reached

/-! ### Why the loops end -/

def OutboxRow.claimsLeft (row : OutboxRow) : Nat := row.progress.claimsLeft maxOutboxRetries

namespace Outbox

/-- How many claims of events are still possible. -/
def claimsLeft (outbox : Outbox) : Nat := Progress.total OutboxRow.claimsLeft outbox.rows

variable {outbox : Outbox}

theorem claimsLeft_modify {selects : OutboxRow → Bool} {change : OutboxRow → OutboxRow}
    (keepsEvent : ∀ row, (change row).event = row.event)
    (le : ∀ row ∈ outbox.rows, selects row = true → (change row).claimsLeft ≤ row.claimsLeft) :
    (outbox.modify selects change keepsEvent).claimsLeft ≤ outbox.claimsLeft := by
  rw [claimsLeft, claimsLeft, rows_modify]
  refine Progress.total_map_le fun row member => ?_
  split
  · rename_i selected
    exact le row member selected
  · exact Nat.le_refl _

theorem processing_of_inProcessing {eventId : Uuid} {row : OutboxRow}
    (selected : inProcessing eventId row = true) : row.progress.standing = .processing := by
  have processing : row.status = .processing := of_decide_eq_true (Bool.and_eq_true_iff.mp selected).2
  rw [OutboxRow.progress, processing]
  rfl

/-- A claim that returns a record uses up at least one of them. -/
theorem claimsLeft_claim (outbox : Outbox) (order : HashOrder OutboxRow) (now : Timestamp)
    (correlationId : Option Uuid) (limit : Int) :
    (outbox.claim order now correlationId limit).2.claimsLeft +
        (if (outbox.claim order now correlationId limit).1 = [] then 0 else 1) ≤ outbox.claimsLeft := by
  have lowers (row : OutboxRow) (member : row ∈ outbox.rows)
      (selected : row.eventId ∈ (outbox.claimed order now correlationId limit).map OutboxRow.eventId) :
      OutboxRow.claimsLeft { row with status := .processing } + 1 = row.claimsLeft := by
    refine @Progress.claimsLeft_claim _ row.progress ?_
    obtain ⟨other, inClaimed, same⟩ := List.mem_map.mp selected
    obtain ⟨inRows, may⟩ := mem_claimed inClaimed
    obtain rfl := same_row inRows member same
    rw [claimable, Bool.and_eq_true, Bool.and_eq_true, decide_eq_true_iff] at may
    rw [OutboxRow.progress, may.1.1]
    rfl
  have le (row : OutboxRow) (member : row ∈ outbox.rows)
      (selected : decide (row.eventId ∈
        (outbox.claimed order now correlationId limit).map OutboxRow.eventId) = true) :
      OutboxRow.claimsLeft { row with status := .processing } ≤ row.claimsLeft := by
    have here := lowers row member (of_decide_eq_true selected)
    omega
  by_cases none_ : (outbox.claim order now correlationId limit).1 = []
  · rw [if_pos none_]
    exact claimsLeft_modify (fun _ => by rfl) le
  · rw [if_neg none_]
    obtain ⟨record, inRecords⟩ := List.exists_mem_of_ne_nil _ none_
    obtain ⟨row, inClaimed, rfl⟩ := List.mem_map.mp inRecords
    have member := (order.perm _).mem_iff.mp inClaimed
    have selected := List.mem_map_of_mem (f := OutboxRow.eventId) member
    refine Progress.total_map_lt (fun row member => ?_) (mem_claimed member).1 ?_
    · split
      · rename_i selected
        exact le row member selected
      · exact Nat.le_refl _
    · rw [if_pos (decide_eq_true selected)]
      exact Nat.lt_of_succ_le (Nat.le_of_eq (lowers row (mem_claimed member).1 selected))

theorem claimsLeft_setPublished (outbox : Outbox) (eventId : Uuid) (streamId : Str) :
    (outbox.setPublished eventId streamId).claimsLeft ≤ outbox.claimsLeft :=
  claimsLeft_modify (fun _ => by rfl) fun row _ _ => Progress.claimsLeft_finish _ row.progress

theorem claimsLeft_setFailed (outbox : Outbox) (eventId : Uuid) (errorMessage : Str)
    (availableAt : Timestamp) :
    (outbox.setFailed eventId errorMessage availableAt).claimsLeft ≤ outbox.claimsLeft := by
  refine claimsLeft_modify (fun _ => by rfl) fun row _ selected => ?_
  rw [OutboxRow.claimsLeft, progress_failed]
  exact Progress.claimsLeft_fail (processing_of_inProcessing selected)

end Outbox

/-- The measure of one relay: the claims still possible, and whether this pass made one. -/
def rank (world : OutboxWorld F) (ledger : RelayLedger) : Nat :=
  world.outbox.claimsLeft + if ledger.progressed then 1 else 0

/-- Without new events no call raises the claims that are left, nor the measure of the
relay that makes it. -/
theorem OutboxEffect.rank_le {world after : OutboxWorld F} {ledger left : RelayLedger}
    {request : OutboxCall F} (effect : OutboxEffect world ledger request after left)
    (sameKeys : after.outbox.table.keys = world.outbox.table.keys) :
    after.outbox.claimsLeft ≤ world.outbox.claimsLeft ∧ rank after left ≤ rank world ledger := by
  cases effect with
  | untouched => exact ⟨Nat.le_refl _, Nat.le_refl _⟩
  | added asked fresh freshKey =>
    have longer := congrArg List.length sameKeys
    rw [OutboxWorld.withOutbox, Outbox.insertRow, Keyed.insert_keys, List.length_append] at longer
    simp at longer
  | claimed correlationId limit order now =>
    have less := Outbox.claimsLeft_claim world.outbox order now correlationId limit
    refine ⟨Nat.le_of_add_right_le less, ?_⟩
    rw [rank, rank, OutboxWorld.withOutbox, RelayLedger.took]
    cases records : (world.outbox.claim order now correlationId limit).1 with
    | nil =>
      rw [records] at less
      simpa using less
    | cons record rest =>
      rw [records] at less
      simp only [List.isEmpty_cons, Bool.not_false, Bool.true_or, if_true, reduceCtorEq, if_false] at less ⊢
      omega
  | @published eventId streamId item here processing =>
    have less := Outbox.claimsLeft_setPublished world.outbox eventId streamId
    exact ⟨less, Nat.add_le_add_right less _⟩
  | @failed eventId errorMessage availableAt item here processing =>
    have less := Outbox.claimsLeft_setFailed world.outbox eventId errorMessage availableAt
    exact ⟨less, Nat.add_le_add_right less _⟩
  | wrote => exact ⟨Nat.le_refl _, Nat.le_refl _⟩
  | deleted => exact ⟨Nat.le_refl _, Nat.le_refl _⟩

/-- A step of another worker does not raise the measure of a relay, and neither does its own. -/
theorem rank_step (step : (outboxSite format blake3 delays).Step cluster event after)
    (sameKeys : after.world.outbox.table.keys = cluster.world.outbox.table.keys) (worker : Worker) :
    rank after.world ((outboxSite format blake3 delays).ledgers after worker) ≤
      rank cluster.world ((outboxSite format blake3 delays).ledgers cluster worker) := by
  rcases step.ledgers_eq with ⟨mover, request, answer, -, ⟨weather, served⟩, ledgers⟩ |
    ⟨sameWorld, mover, ledgers⟩
  · have effect := OutboxEffect.of_served served
      ((outboxSite format blake3 delays).ledgers cluster mover)
    obtain ⟨less, own⟩ := effect.rank_le sameKeys
    rw [ledgers]
    by_cases same : worker = mover
    · subst same
      rw [Function.update_self]
      exact own
    · rw [Function.update_of_ne same]
      exact Nat.add_le_add_right less _
  · rw [ledgers, sameWorld]
    by_cases same : worker = mover
    · subst same
      rw [Function.update_self]
      exact Nat.add_le_add_left (Nat.zero_le _) _
    · rw [Function.update_of_ne same]

/-- A relay that begins another pass has lowered its measure. -/
theorem rank_again {worker : Worker} (governed : OutboxGoverned format blake3 delays cluster)
    (step : (outboxSite format blake3 delays).Step cluster (.again worker) after) :
    rank after.world ((outboxSite format blake3 delays).ledgers after worker) <
      rank cluster.world ((outboxSite format blake3 delays).ledgers cluster worker) := by
  obtain ⟨⟨-, progressed⟩, sameWorld, idle⟩ := Site.Governed.ended_again governed step
  rw [idle, sameWorld, rank, rank, progressed]
  exact Nat.lt_succ_self _

/-- While no event comes, a relay takes only finitely many steps, whatever the others do
and whatever the stores answer. -/
theorem relay_falls_silent {clusters : Nat → OutboxCluster F Worker} {events : Nat → OutboxStep F Worker}
    (governed : ∀ n, OutboxGoverned format blake3 delays (clusters n))
    (steps : ∀ n, (outboxSite format blake3 delays).Step (clusters n) (events n) (clusters (n + 1)))
    (sameKeys : ∀ n, (clusters (n + 1)).world.outbox.table.keys = (clusters n).world.outbox.table.keys)
    {worker : Worker} (once : ∀ n, events n ≠ .start worker) :
    ∃ N, ∀ n, N ≤ n → ¬ (events n).Proceeds worker := by
  refine Site.falls_silent steps once
    (fun n => rank (clusters n).world ((outboxSite format blake3 delays).ledgers (clusters n) worker)) ?_ ?_
  · exact fun n _ _ => rank_step (steps n) (sameKeys n) worker
  · intro n again
    have step := steps n
    rw [again] at step
    exact rank_again (governed n) step

/-- Nothing is refused and rows come in the order of the table. -/
def calm : Weather := ⟨0, none, none, .unchanged _, [], true⟩

/-! ### The status machine -/

/-- What the status machine of the outbox promises of a state: the attempts of an event
count its failed marks and reach the limit exactly when it is failed, no event is held by
two relays, published events were written before, and keys are unique. -/
structure OutboxMachine (format : VectorFormat F) (blake3 : Blake3) (world : OutboxWorld F)
    (ledgers : Worker → RelayLedger) : Prop where
  attempts : ∀ row ∈ world.outbox.rows, row.attempts = world.failures.count row.eventId ∧
    row.attempts ≤ maxOutboxRetries ∧ (row.status = .failed ↔ row.attempts = maxOutboxRetries)
  apart : ∀ worker other, worker ≠ other → (ledgers worker).heldIds.Disjoint (ledgers other).heldIds
  published : ∀ row ∈ world.outbox.rows, row.status = .published →
    world.Acknowledged format blake3 row.toOutboxRecord
  keys : (world.outbox.rows.map OutboxRow.idempotencyKey).Nodup

/-- What a step may do to the events: none is lost or changed, a status stays or makes one
move, and new events are pending without attempts. -/
structure OutboxMoves (before after : Outbox) : Prop where
  events : ∀ row ∈ before.rows, ∃ next ∈ after.rows, next.event = row.event
  statuses : PoolAdvances before.progress after.progress

theorem OutboxStatus.standing_eq_failed {status : OutboxStatus} :
    status.standing = .failed ↔ status = .failed := by
  cases status <;> simp [OutboxStatus.standing]

omit [DecidableEq Worker] in
theorem OutboxSound.machine {world : OutboxWorld F} {ledgers : Worker → RelayLedger}
    (sound : OutboxSound format blake3 world ledgers) : OutboxMachine format blake3 world ledgers where
  attempts := by
    intro row member
    have here := Outbox.progress_of_mem member
    have within := sound.pool.within _ _ here
    have counted := sound.counted row.eventId
    rw [here] at counted
    exact ⟨counted.symm, within.bounded, OutboxStatus.standing_eq_failed.symm.trans within.failed_iff⟩
  apart := sound.pool.apart
  published := sound.published
  keys := world.outbox.distinctKeys

theorem outboxMoves_of_step (step : (outboxSite format blake3 delays).Step cluster event after) :
    OutboxMoves cluster.world.outbox after.world.outbox := by
  rcases step.ledgers_eq with ⟨mover, request, answer, -, ⟨weather, served⟩, -⟩ | ⟨sameWorld, -⟩
  · have effect := OutboxEffect.of_served served RelayLedger.idle
    exact ⟨fun row member => effect.event_kept member, effect.advances⟩
  · rw [sameWorld]
    exact ⟨fun row member => ⟨row, member, rfl⟩, .refl _⟩

/-- In every reachable state of any number of relays, appends and reconcilers the status
machine holds and every step keeps to it; and while no event comes, every relay loop ends:
it takes finitely many steps and always has a next one until it is over. -/
theorem outbox_status_machine (reached : (outboxRuns format blake3 Worker delays).Reachable cluster) :
    OutboxMachine format blake3 cluster.world ((outboxSite format blake3 delays).ledgers cluster) ∧
      (∀ event after, (outboxSite format blake3 delays).Step cluster event after →
        OutboxMoves cluster.world.outbox after.world.outbox) ∧
      (∀ (clusters : Nat → OutboxCluster F Worker) (events : Nat → OutboxStep F Worker) (worker : Worker),
        clusters 0 = cluster →
        (∀ n, (outboxSite format blake3 delays).Step (clusters n) (events n) (clusters (n + 1))) →
        (∀ n, (clusters (n + 1)).world.outbox.table.keys = (clusters n).world.outbox.table.keys) →
        (∀ n, events n ≠ .start worker) → ∃ N, ∀ n, N ≤ n → ¬ (events n).Proceeds worker) ∧
      (∀ worker thread, cluster.threads worker = some thread →
        ∃ event after, (outboxSite format blake3 delays).Step cluster event after ∧
          (event.Proceeds worker ∨ event = .finish worker)) := by
  refine ⟨(outboxGoverned_of_reachable reached).holds.machine, fun _ _ => outboxMoves_of_step, ?_, ?_⟩
  · rintro clusters events worker rfl steps sameKeys once
    have governed (n : Nat) : OutboxGoverned format blake3 delays (clusters n) := by
      induction n with
      | zero => exact outboxGoverned_of_reachable reached
      | succ n ih => exact OutboxGoverned.step ih (steps n)
    exact relay_falls_silent governed steps sameKeys once
  · intro worker thread here
    have total (request : OutboxCall F) (world : OutboxWorld F) : ∃ answer after,
        (outboxSite format blake3 delays).serves request world answer after :=
      ⟨_, _, calm, rfl⟩
    exact Site.step_available total here

theorem once_not_again {Result : Type} {program : OutboxProgram F OutboxRelayError Result}
    {serve : Nat → (request : OutboxCall F) → OutboxWorld F → OutboxAnswer F request × OutboxWorld F}
    {calls : Nat} {world : OutboxWorld F} : ((once program).run serve calls world).outcome ≠ .ok none := by
  rw [once, Program.run_bind]
  rcases program.run serve calls world with ⟨error | result, later, left⟩
  · simp
  · simp

/-! A vector that is appended and relayed. -/

def rationalFormat : VectorFormat Rat := ⟨.number, id⟩

def samplePointDigest : Blake3 := fun bytes =>
  if bytes = Str.utf8 "c1" then
    [38, 214, 92, 121, 179, 62, 0, 45, 91, 11, 166, 169, 12, 98, 253, 42,
      167, 99, 182, 67, 150, 85, 108, 23, 21, 46, 151, 50, 101, 255, 21, 53]
  else []

def sampleEvent : OutboxEvent where
  eventId := List.replicate 16 1
  eventType := vectorUpsertEventType
  correlationId := List.replicate 16 7
  idempotencyKey := "graph.rebuild:vector:c1"
  schemaVersion := 1
  timestamp := 0
  payload := .object [("content_hash", .string "c1"), ("vector", .array [.number 1]), ("payload", .null)]

def sampleRelay : OutboxRelay := ⟨10, 0, by decide⟩

def freshWorld : OutboxWorld Rat := ⟨.empty, [], [], []⟩

theorem freshWorld_new : freshWorld.New := ⟨rfl, rfl, rfl⟩

/-- The world after one event was appended. -/
def appendedWorld : OutboxWorld Rat :=
  ((once ((appendOutboxEvent sampleEvent).mapError .coordinator)).run (fun _ => serveOutbox calm) 0
    freshWorld).world

def relayedWorld : OutboxWorld Rat :=
  ((once (sampleRelay.relayOnce rationalFormat samplePointDigest)).run (fun _ => serveOutbox calm) 0
    appendedWorld).world

theorem reachable_appendedWorld : (outboxRuns rationalFormat samplePointDigest Nat fun _ => True).Reachable
    (Site.quiet appendedWorld) :=
  Site.reachable_alone (.start ⟨freshWorld, freshWorld_new, rfl⟩) 0
    (OutboxTask.appendOutboxEvent sampleEvent) (fun _ => serveOutbox calm) (fun _ _ _ => ⟨calm, rfl⟩)
    once_not_again (fun _ => trivial) (fun _ _ _ => trivial) (fun _ => trivial)

theorem reachable_relayedWorld : (outboxRuns rationalFormat samplePointDigest Nat fun _ => True).Reachable
    (Site.quiet relayedWorld) :=
  Site.reachable_alone reachable_appendedWorld 0 (OutboxTask.relayOnce trivial)
    (fun _ => serveOutbox calm) (fun _ _ _ => ⟨calm, rfl⟩) once_not_again (fun _ => trivial)
    (fun _ _ _ => trivial) (fun _ => trivial)

theorem outbox_status_machine_relayed :
    relayedWorld.outbox.rows.map OutboxRow.status = [.published] ∧
      OutboxMachine rationalFormat samplePointDigest relayedWorld
        ((outboxSite rationalFormat samplePointDigest fun _ => True).ledgers
          (Site.quiet relayedWorld : OutboxCluster Rat Nat)) :=
  ⟨by decide +kernel, (outbox_status_machine reachable_relayedWorld).1⟩

end SkillLayer.Infrastructure
