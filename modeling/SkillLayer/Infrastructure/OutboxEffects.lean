import SkillLayer.Infrastructure.OutboxDiscipline

/-! What one call of an outbox program does to the outbox, the vector store and the ledger
of its caller. -/

namespace SkillLayer.Infrastructure

variable {F : Type}

theorem Outbox.ext {outbox other : Outbox} (same : outbox.rows = other.rows) : outbox = other := by
  obtain ⟨table, _⟩ := outbox
  obtain ⟨table', _⟩ := other
  obtain rfl : table = table' := Keyed.ext same
  rfl

/-- The event that a call appends. -/
def OutboxCall.appended? : OutboxCall F → Option OutboxEvent
  | .insert event => some event
  | .insertIfNew event => some event
  | _ => none

/-- A mark that did not change its row, or a refused write whose text cannot be recorded. -/
def Faulty : (request : OutboxCall F) → OutboxAnswer F request → Prop
  | .setPublished _ _, answer => answer ≠ .ok 1
  | .setFailed _ _ _, answer => answer ≠ .ok 1
  | .upsertVector _ _ _ _, answer => ∃ message, answer = .error message ∧ (Str.trim message).isEmpty = true
  | _, _ => False

theorem RelayLedger.marked_one (ledger : RelayLedger) {rowsAffected : Nat} (one : rowsAffected = 1) :
    ledger.marked (.ok rowsAffected) = ledger.settled := if_pos one

theorem RelayLedger.marked_other (ledger : RelayLedger) {rowsAffected : Nat} (other : rowsAffected ≠ 1) :
    ledger.marked (.ok rowsAffected) = { ledger with broken := true } := if_neg other

/-- A ledger is broken only by a faulty answer. -/
theorem RelayLedger.broken_after (ledger : RelayLedger) (request : OutboxCall F)
    (answer : OutboxAnswer F request) (sound : ¬ Faulty request answer) :
    (ledger.after request answer).broken = ledger.broken := by
  have mark (answer : Except SqlError Nat) (one : ¬ answer ≠ .ok 1) :
      (ledger.marked answer).broken = ledger.broken := by
    obtain rfl := not_not.mp one
    rfl
  cases request with
  | setPublished eventId streamId => exact mark answer sound
  | setFailed eventId errorMessage availableAt => exact mark answer sound
  | upsertVector eventId pointId vector payload =>
    cases answer with
    | ok written => rfl
    | error message =>
      have readable : (Str.trim message).isEmpty = false :=
        Bool.eq_false_iff.mpr fun blank => sound ⟨message, rfl, blank⟩
      simp [RelayLedger.after, RelayLedger.answered, readable]
  | claim correlationId limit => cases answer <;> rfl
  | _ => rfl

/-- The effects of calls: nothing, a new row, a claim, a mark that moved its row, a written
vector, or deleted ones. -/
inductive OutboxEffect (world : OutboxWorld F) (ledger : RelayLedger) :
    OutboxCall F → OutboxWorld F → RelayLedger → Prop where
  | untouched (request : OutboxCall F) (broken : Bool) :
      OutboxEffect world ledger request world { ledger with broken }
  | added {request : OutboxCall F} {event : OutboxEvent} {now : Timestamp}
      (asked : request.appended? = some event)
      (fresh : (event.pendingRow now).eventId ∉ world.outbox.table.keys)
      (freshKey : world.outbox.holdsKey (event.pendingRow now).idempotencyKey = false) :
      OutboxEffect world ledger request
        (world.withOutbox (world.outbox.insertRow (event.pendingRow now) fresh freshKey)) ledger
  | claimed (correlationId : Option Uuid) (limit : Int) (order : HashOrder OutboxRow) (now : Timestamp) :
      OutboxEffect world ledger (.claim correlationId limit)
        (world.withOutbox (world.outbox.claim order now correlationId limit).2)
        (ledger.took (world.outbox.claim order now correlationId limit).1)
  | published {eventId : Uuid} (streamId : Str) {item : Progress}
      (here : world.outbox.progress eventId = some item) (processing : item.standing = .processing) :
      OutboxEffect world ledger (.setPublished eventId streamId)
        (world.withOutbox (world.outbox.setPublished eventId streamId)) ledger.settled
  | failed {eventId : Uuid} (errorMessage : Str) (availableAt : Timestamp) {item : Progress}
      (here : world.outbox.progress eventId = some item) (processing : item.standing = .processing) :
      OutboxEffect world ledger (.setFailed eventId errorMessage availableAt)
        { world with
          outbox := world.outbox.setFailed eventId errorMessage availableAt
          failures := eventId :: world.failures }
        ledger.settled
  | wrote (eventId : Uuid) (pointId : Nat) (vector : List F) (payload : Value) :
      OutboxEffect world ledger (.upsertVector eventId pointId vector payload)
        (world.wrote eventId ⟨pointId, vector, payload⟩) { ledger with wrote := true }
  | deleted (pointIds : List Nat) :
      OutboxEffect world ledger (.deletePoints pointIds)
        { world with points := deletePoints pointIds world.points } ledger

namespace OutboxEffect

variable {world : OutboxWorld F} {ledger : RelayLedger} {request : OutboxCall F}

theorem nothing (world : OutboxWorld F) (ledger : RelayLedger) (request : OutboxCall F) :
    OutboxEffect world ledger request world ledger := .untouched request ledger.broken

theorem withOutbox_self (world : OutboxWorld F) {outbox : Outbox} (same : outbox.rows = world.outbox.rows) :
    world.withOutbox outbox = world := by
  rw [OutboxWorld.withOutbox, Outbox.ext same]

theorem affected_zero {outbox : Outbox} {eventId : Uuid} (none_ : outbox.affected eventId ≠ 1) :
    outbox.affected eventId = 0 := by
  rw [Outbox.affected_eq] at none_ ⊢
  split
  · rename_i some_
    exact absurd (if_pos some_) none_
  · rfl

theorem published_or_untouched (world : OutboxWorld F) (ledger : RelayLedger) (eventId : Uuid)
    (streamId : Str) :
    OutboxEffect world ledger (.setPublished eventId streamId) (world.published eventId streamId).2
      (ledger.marked (.ok (world.outbox.affected eventId))) := by
  by_cases one : world.outbox.affected eventId = 1
  · obtain ⟨item, here, processing⟩ := Outbox.affected_eq_one_iff.mp one
    rw [RelayLedger.marked_one ledger one]
    exact .published streamId here processing
  · have same : (world.published eventId streamId).2 = world :=
      withOutbox_self world (Outbox.modify_inProcessing_eq one)
    rw [RelayLedger.marked_other ledger one, same]
    exact .untouched _ true

theorem failed_or_untouched (world : OutboxWorld F) (ledger : RelayLedger) (eventId : Uuid)
    (errorMessage : Str) (availableAt : Timestamp) :
    OutboxEffect world ledger (.setFailed eventId errorMessage availableAt)
      (world.failed eventId errorMessage availableAt).2
      (ledger.marked (.ok (world.outbox.affected eventId))) := by
  by_cases one : world.outbox.affected eventId = 1
  · obtain ⟨item, here, processing⟩ := Outbox.affected_eq_one_iff.mp one
    have after : (world.failed eventId errorMessage availableAt).2 =
        { world with
          outbox := world.outbox.setFailed eventId errorMessage availableAt
          failures := eventId :: world.failures } := by
      rw [OutboxWorld.failed, one, List.replicate_one, List.singleton_append]
    rw [RelayLedger.marked_one ledger one, after]
    exact .failed errorMessage availableAt here processing
  · have same : (world.failed eventId errorMessage availableAt).2 = world := by
      have rows : world.outbox.setFailed eventId errorMessage availableAt = world.outbox :=
        Outbox.ext (Outbox.modify_inProcessing_eq one)
      rw [OutboxWorld.failed, affected_zero one, List.replicate_zero, List.nil_append, rows]
    rw [RelayLedger.marked_other ledger one, same]
    exact .untouched _ true

/-- Every served call has one of the effects. -/
theorem of_served {weather : Weather} {answer : OutboxAnswer F request} {after : OutboxWorld F}
    (served : serveOutbox weather request world = (answer, after)) (ledger : RelayLedger) :
    OutboxEffect world ledger request after (ledger.after request answer) := by
  obtain ⟨now, refused, storeRefused, order, eventId, complete⟩ := weather
  cases request with
  | hasPending correlationId =>
    cases refused <;> cases served <;> exact nothing world ledger _
  | claim correlationId limit =>
    cases refused with
    | some message =>
      cases served
      exact nothing world ledger _
    | none =>
      cases served
      exact .claimed correlationId limit order now
  | insert event =>
    cases refused with
    | some message =>
      cases served
      exact nothing world ledger _
    | none =>
      cases inserted : world.outbox.insert now event with
      | error error =>
        simp only [serveOutbox, Weather.sql, inserted, Except.map] at served
        cases served
        exact nothing world ledger _
      | ok outbox =>
        simp only [serveOutbox, Weather.sql, inserted, Except.map] at served
        cases served
        obtain ⟨-, fresh, freshKey, rfl⟩ := Outbox.insert_eq_ok.mp inserted
        exact .added rfl fresh freshKey
  | insertIfNew event =>
    cases refused with
    | some message =>
      cases served
      exact nothing world ledger _
    | none =>
      cases inserted : world.outbox.insertIfNew now event with
      | error error =>
        simp only [serveOutbox, Weather.sql, inserted, Except.map] at served
        cases served
        exact nothing world ledger _
      | ok outcome =>
        obtain ⟨rowsAffected, outbox⟩ := outcome
        simp only [serveOutbox, Weather.sql, inserted, Except.map] at served
        cases served
        obtain ⟨-, ⟨rfl, rfl, -⟩ | ⟨rfl, fresh, freshKey, rfl⟩⟩ := Outbox.insertIfNew_eq_ok.mp inserted
        · exact nothing world ledger _
        · exact .added rfl fresh freshKey
  | setPublished eventId streamId =>
    cases refused with
    | some message =>
      cases served
      exact .untouched _ true
    | none =>
      cases served
      exact published_or_untouched world ledger _ _
  | setFailed eventId errorMessage availableAt =>
    cases refused with
    | some message =>
      cases served
      exact .untouched _ true
    | none =>
      cases served
      exact failed_or_untouched world ledger _ _ _
  | statusOf eventId =>
    cases refused <;> cases served <;> exact nothing world ledger _
  | listPublished eventType limit =>
    cases refused <;> cases served <;> exact nothing world ledger _
  | upsertVector eventId pointId vector payload =>
    cases storeRefused with
    | some message =>
      cases served
      exact .untouched _ _
    | none =>
      cases served
      exact .wrote eventId pointId vector payload
  | hasVector pointId =>
    cases storeRefused <;> cases served <;> exact nothing world ledger _
  | listPointIds =>
    cases storeRefused <;> cases served <;> exact nothing world ledger _
  | deletePoints pointIds =>
    cases storeRefused with
    | some message =>
      cases served
      exact nothing world ledger _
    | none =>
      cases served
      exact .deleted pointIds
  | utcNow =>
    cases served
    exact nothing world ledger _
  | newEventId =>
    cases served
    exact nothing world ledger _

/-! ### Events and progress under an effect -/

/-- Rows stay, with their events. -/
theorem event_kept {after : OutboxWorld F} {left : RelayLedger}
    (effect : OutboxEffect world ledger request after left) {row : OutboxRow}
    (member : row ∈ world.outbox.rows) : ∃ next ∈ after.outbox.rows, next.event = row.event := by
  have modified {selects : OutboxRow → Bool} {change : OutboxRow → OutboxRow}
      (keepsEvent : ∀ row, (change row).event = row.event) :
      ∃ next ∈ (world.outbox.modify selects change keepsEvent).rows, next.event = row.event := by
    refine ⟨_, List.mem_map_of_mem member, ?_⟩
    split
    · exact keepsEvent row
    · rfl
  cases effect with
  | untouched => exact ⟨row, member, rfl⟩
  | added asked fresh freshKey => exact ⟨row, List.mem_append_left _ member, rfl⟩
  | claimed =>
    refine modified fun _ => ?_
    rfl
  | published =>
    refine modified fun _ => ?_
    rfl
  | failed =>
    refine modified fun _ => ?_
    rfl
  | wrote => exact ⟨row, member, rfl⟩
  | deleted => exact ⟨row, member, rfl⟩

/-- A row was there before, with its event, or its event was appended by this call. -/
theorem event_source {after : OutboxWorld F} {left : RelayLedger}
    (effect : OutboxEffect world ledger request after left) {row : OutboxRow}
    (member : row ∈ after.outbox.rows) :
    (∃ before ∈ world.outbox.rows, before.event = row.event) ∨
      request.appended? = some row.event ∧ world.outbox.holdsKey row.event.idempotencyKey = false := by
  have modified {selects : OutboxRow → Bool} {change : OutboxRow → OutboxRow}
      (keepsEvent : ∀ row, (change row).event = row.event)
      (inside : row ∈ (world.outbox.modify selects change keepsEvent).rows) :
      ∃ before ∈ world.outbox.rows, before.event = row.event := by
    obtain ⟨before, inRows, same, -⟩ := Outbox.mem_rows_modify keepsEvent inside
    exact ⟨before, inRows, same⟩
  cases effect with
  | untouched => exact .inl ⟨row, member, rfl⟩
  | added asked fresh freshKey =>
    rcases List.mem_append.mp member with old | new
    · exact .inl ⟨row, old, rfl⟩
    · obtain rfl := List.mem_singleton.mp new
      exact .inr ⟨asked, freshKey⟩
  | claimed => exact .inl (modified (fun _ => by rfl) member)
  | published => exact .inl (modified (fun _ => by rfl) member)
  | failed => exact .inl (modified (fun _ => by rfl) member)
  | wrote => exact .inl ⟨row, member, rfl⟩
  | deleted => exact .inl ⟨row, member, rfl⟩

theorem claimed_pending (outbox : Outbox) (order : HashOrder OutboxRow) (now : Timestamp)
    (correlationId : Option Uuid) (limit : Int) :
    ∀ eventId ∈ (outbox.claim order now correlationId limit).1.map fun record => record.event.eventId,
      ∃ item, outbox.progress eventId = some item ∧ item.standing = .pending := by
  intro eventId member
  obtain ⟨record, inRecords, rfl⟩ := List.mem_map.mp member
  obtain ⟨-, rows, -, -⟩ := Outbox.claim_spec outbox order now correlationId limit
  obtain ⟨row, inRows, rfl, may⟩ := rows record inRecords
  refine ⟨row.progress, Outbox.progress_of_mem inRows, ?_⟩
  rw [Outbox.claimable, Bool.and_eq_true, Bool.and_eq_true, decide_eq_true_iff] at may
  rw [OutboxRow.progress, may.1.1]
  rfl

/-- Each event keeps its progress or makes one move; new events start anew. -/
theorem advances {after : OutboxWorld F} {left : RelayLedger}
    (effect : OutboxEffect world ledger request after left) :
    PoolAdvances world.outbox.progress after.outbox.progress := by
  cases effect with
  | untouched => exact .refl _
  | added asked fresh freshKey =>
    rw [OutboxWorld.withOutbox, Outbox.progress_insertRow]
    exact .add (Outbox.progress_eq_none.mpr fresh)
  | claimed correlationId limit order now =>
    rw [OutboxWorld.withOutbox, Outbox.progress_claim]
    exact .claim (claimed_pending _ _ _ _ _)
  | published streamId here processing =>
    rw [OutboxWorld.withOutbox, Outbox.progress_setPublished streamId here processing]
    exact .settle here (Progress.moves_finish processing)
  | failed errorMessage availableAt here processing =>
    rw [Outbox.progress_setFailed errorMessage availableAt here processing]
    exact .settle here (Progress.moves_fail _ processing)
  | wrote => exact .refl _
  | deleted => exact .refl _

end OutboxEffect
end SkillLayer.Infrastructure
