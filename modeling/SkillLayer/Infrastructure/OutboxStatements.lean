import SkillLayer.Infrastructure.Outbox

/-! What the statements do to the rows of the outbox and to the progress of its events. -/

namespace SkillLayer.Infrastructure.Outbox

def progress (outbox : Outbox) (eventId : Uuid) : Option Progress :=
  (outbox.find? eventId).map OutboxRow.progress

variable {outbox after : Outbox} {eventId : Uuid} {row : OutboxRow} {event : OutboxEvent}
  {now : Timestamp}

theorem find?_eq_some : outbox.find? eventId = some row ↔ row ∈ outbox.rows ∧ row.eventId = eventId :=
  Keyed.find?_eq_some

theorem find?_of_mem (member : row ∈ outbox.rows) : outbox.find? row.eventId = some row :=
  find?_eq_some.mpr ⟨member, rfl⟩

theorem progress_of_mem (member : row ∈ outbox.rows) :
    outbox.progress row.eventId = some row.progress := by
  rw [progress, find?_of_mem member, Option.map_some]

theorem progress_eq_some {item : Progress} :
    outbox.progress eventId = some item ↔
      ∃ row ∈ outbox.rows, row.eventId = eventId ∧ row.progress = item := by
  rw [progress, Option.map_eq_some_iff]
  simp only [find?_eq_some, and_assoc]

theorem progress_eq_none : outbox.progress eventId = none ↔ eventId ∉ outbox.table.keys := by
  rw [progress, Option.map_eq_none_iff]
  exact Keyed.find?_eq_none

/-! ### Insertions -/

@[simp] theorem rows_insertRow (fresh : row.eventId ∉ outbox.table.keys)
    (freshKey : outbox.holdsKey row.idempotencyKey = false) :
    (outbox.insertRow row fresh freshKey).rows = outbox.rows ++ [row] := rfl

theorem progress_insertRow (fresh : (event.pendingRow now).eventId ∉ outbox.table.keys)
    (freshKey : outbox.holdsKey (event.pendingRow now).idempotencyKey = false) :
    (outbox.insertRow (event.pendingRow now) fresh freshKey).progress =
      Function.update outbox.progress event.eventId (some Progress.fresh) := by
  funext wanted
  have found : (outbox.insertRow (event.pendingRow now) fresh freshKey).find? wanted =
      if event.eventId = wanted then some (event.pendingRow now) else outbox.find? wanted :=
    Keyed.find?_insert fresh wanted
  by_cases same : wanted = event.eventId
  · subst same
    rw [Function.update_self, progress, found, if_pos rfl]
    rfl
  · rw [Function.update_of_ne same, progress, found, if_neg (Ne.symm same)]
    rfl

/-- An insert goes through exactly when the version is positive and both keys are new. -/
theorem insert_eq_ok :
    outbox.insert now event = .ok after ↔
      event.schemaVersion ≠ 0 ∧ ∃ fresh freshKey,
        after = outbox.insertRow (event.pendingRow now) fresh freshKey := by
  unfold insert
  by_cases version : event.schemaVersion = 0
  · simp [version]
  · rw [if_neg version, and_iff_right version]
    by_cases fresh : (event.pendingRow now).eventId ∉ outbox.table.keys
    · rw [dif_pos fresh]
      split
      · rename_i freshKey
        rw [Except.ok.injEq]
        exact ⟨fun same => ⟨fresh, freshKey, same.symm⟩, fun ⟨_, _, same⟩ => same.symm⟩
      · rename_i taken
        refine iff_of_false (by simp) ?_
        rintro ⟨_, freshKey, -⟩
        rw [taken] at freshKey
        cases freshKey
    · rw [dif_neg fresh]
      exact iff_of_false (by simp) fun ⟨isFresh, _⟩ => fresh isFresh

/-- The tolerant insert adds the row, or finds its key taken and changes nothing. -/
theorem insertIfNew_eq_ok {rowsAffected : Nat} :
    outbox.insertIfNew now event = .ok (rowsAffected, after) ↔
      event.schemaVersion ≠ 0 ∧
        (rowsAffected = 0 ∧ after = outbox ∧ outbox.holdsKey event.idempotencyKey = true ∨
          rowsAffected = 1 ∧ ∃ fresh freshKey,
            after = outbox.insertRow (event.pendingRow now) fresh freshKey) := by
  unfold insertIfNew
  by_cases version : event.schemaVersion = 0
  · simp [version]
  · rw [if_neg version, and_iff_right version]
    split
    · rename_i taken
      rw [Except.ok.injEq, Prod.mk.injEq]
      constructor
      · rintro ⟨rfl, rfl⟩
        exact .inl ⟨rfl, rfl, taken⟩
      · rintro (⟨rfl, rfl, -⟩ | ⟨-, _, freshKey, -⟩)
        · exact ⟨rfl, rfl⟩
        · rw [taken] at freshKey
          cases freshKey
    · rename_i freshKey
      have notTaken : ¬ outbox.holdsKey event.idempotencyKey = true := by
        change ¬ outbox.holdsKey (event.pendingRow now).idempotencyKey = true
        simp [freshKey]
      by_cases fresh : (event.pendingRow now).eventId ∉ outbox.table.keys
      · rw [dif_pos fresh, Except.ok.injEq, Prod.mk.injEq]
        constructor
        · rintro ⟨rfl, rfl⟩
          exact .inr ⟨rfl, fresh, freshKey, rfl⟩
        · rintro (⟨-, -, taken⟩ | ⟨rfl, _, _, rfl⟩)
          · exact absurd taken notTaken
          · exact ⟨rfl, rfl⟩
      · rw [dif_neg fresh]
        refine iff_of_false (by simp) ?_
        rintro (⟨-, -, taken⟩ | ⟨-, isFresh, -⟩)
        · exact notTaken taken
        · exact fresh isFresh

/-! ### Changes of rows -/

section Modify

variable {selects : OutboxRow → Bool} {change : OutboxRow → OutboxRow}
  {keepsEvent : ∀ row, (change row).event = row.event}

theorem rows_modify : (outbox.modify selects change keepsEvent).rows =
    outbox.rows.map fun row => if selects row then change row else row := rfl

theorem find?_modify (wanted : Uuid) :
    (outbox.modify selects change keepsEvent).find? wanted =
      (outbox.find? wanted).map fun row => if selects row then change row else row :=
  Keyed.find?_update outbox.table _ (keepsId keepsEvent) wanted

/-- The rows after a change come from the rows before it, with the same events. -/
theorem mem_rows_modify {row : OutboxRow} (keepsEvent : ∀ row, (change row).event = row.event)
    (member : row ∈ (outbox.modify selects change keepsEvent).rows) :
    ∃ before ∈ outbox.rows, before.event = row.event ∧
      row = if selects before then change before else before := by
  rw [rows_modify, List.mem_map] at member
  obtain ⟨before, inRows, rfl⟩ := member
  refine ⟨before, inRows, ?_, rfl⟩
  split
  · exact (keepsEvent before).symm
  · rfl

end Modify

theorem progress_setProcessing (eventIds : List Uuid) :
    (outbox.setProcessing eventIds).progress = claimKeys eventIds outbox.progress := by
  funext wanted
  rw [progress, setProcessing, find?_modify, claimKeys, progress]
  cases found : outbox.find? wanted with
  | none => simp
  | some row =>
    obtain ⟨-, rfl⟩ := find?_eq_some.mp found
    by_cases member : row.eventId ∈ eventIds
    · simp [member, OutboxRow.progress, Progress.claim, OutboxStatus.standing]
    · simp [member]

/-- A mark affects one row when its event is in processing, and none otherwise. -/
theorem affected_eq : outbox.affected eventId =
    if (outbox.progress eventId).any (fun item => item.standing = .processing) then 1 else 0 := by
  have filtered := Keyed.filter_key outbox.table eventId fun row => row.status = .processing
  change (outbox.table.rows.filter (inProcessing eventId)) = _ at filtered
  rw [affected, rows, filtered, progress, find?]
  cases outbox.table.find? eventId with
  | none => rfl
  | some row => cases status : row.status <;> simp [Option.filter, OutboxRow.progress, OutboxStatus.standing, status]

theorem affected_eq_one_iff : outbox.affected eventId = 1 ↔
    ∃ item, outbox.progress eventId = some item ∧ item.standing = .processing := by
  rw [affected_eq]
  cases outbox.progress eventId with
  | none => simp
  | some item => simp

/-- A mark on an event in processing moves its progress; a mark on another one does
nothing. -/
theorem progress_mark {change : OutboxRow → OutboxRow} {keepsEvent : ∀ row, (change row).event = row.event}
    (next : Progress → Progress)
    (acts : ∀ row, row.status = .processing → (change row).progress = next row.progress) :
    (outbox.modify (inProcessing eventId) change keepsEvent).progress =
      match outbox.progress eventId with
      | some item =>
        if item.standing = .processing then Function.update outbox.progress eventId (some (next item))
        else outbox.progress
      | none => outbox.progress := by
  funext wanted
  rw [progress, find?_modify]
  have untouched (row : OutboxRow) (different : row.eventId ≠ eventId ∨ row.status ≠ .processing) :
      inProcessing eventId row = false := by
    rw [inProcessing, Bool.and_eq_false_iff, decide_eq_false_iff_not, decide_eq_false_iff_not]
    exact different
  have standing (row : OutboxRow) : row.progress.standing = .processing ↔ row.status = .processing := by
    cases status : row.status <;> simp [OutboxRow.progress, OutboxStatus.standing, status]
  by_cases same : wanted = eventId
  · subst same
    rw [progress]
    cases found : outbox.find? wanted with
    | none => simp [progress, found]
    | some row =>
      obtain ⟨-, here⟩ := find?_eq_some.mp found
      by_cases processing : row.status = .processing
      · have selected : inProcessing wanted row = true := by simp [inProcessing, here, processing]
        simp [selected, (standing row).mpr processing, acts row processing]
      · have skipped := untouched row (.inr processing)
        simp [skipped, (standing row).not.mpr processing, progress, found]
  · have elsewhere : (Option.map (fun row => if inProcessing eventId row then change row else row)
        (outbox.find? wanted)) = outbox.find? wanted := by
      cases found : outbox.find? wanted with
      | none => rfl
      | some row =>
        obtain ⟨-, here⟩ := find?_eq_some.mp found
        have skipped := untouched row (.inl fun equal => same (here.symm.trans equal))
        simp [skipped]
    rw [elsewhere]
    change outbox.progress wanted = _
    cases outbox.progress eventId with
    | none => rfl
    | some item =>
      dsimp only
      split
      · rw [Function.update_of_ne same]
      · rfl

theorem progress_setPublished (streamId : Str) {item : Progress}
    (here : outbox.progress eventId = some item) (processing : item.standing = .processing) :
    (outbox.setPublished eventId streamId).progress =
      Function.update outbox.progress eventId (some item.finish) := by
  rw [setPublished, progress_mark Progress.finish fun _ _ => rfl, here]
  exact if_pos processing

theorem progress_failed (row : OutboxRow) (errorMessage : Str) (availableAt : Timestamp) :
    OutboxRow.progress
      { row with
        status := if maxOutboxRetries ≤ row.attempts + 1 then .failed else .pending
        attempts := row.attempts + 1
        lastError := some errorMessage
        availableAt := if maxOutboxRetries ≤ row.attempts + 1 then row.availableAt else availableAt } =
      row.progress.fail maxOutboxRetries := by
  by_cases last : maxOutboxRetries ≤ row.attempts + 1
  · simp [OutboxRow.progress, Progress.fail, OutboxStatus.standing, last]
  · simp [OutboxRow.progress, Progress.fail, OutboxStatus.standing, last]

theorem progress_setFailed (errorMessage : Str) (availableAt : Timestamp) {item : Progress}
    (here : outbox.progress eventId = some item) (processing : item.standing = .processing) :
    (outbox.setFailed eventId errorMessage availableAt).progress =
      Function.update outbox.progress eventId (some (item.fail maxOutboxRetries)) := by
  rw [setFailed, progress_mark (Progress.fail maxOutboxRetries) fun row _ => progress_failed row _ _, here]
  exact if_pos processing

/-- A mark that affects no row changes nothing. -/
theorem modify_inProcessing_eq {change : OutboxRow → OutboxRow}
    {keepsEvent : ∀ row, (change row).event = row.event} (none_ : outbox.affected eventId ≠ 1) :
    (outbox.modify (inProcessing eventId) change keepsEvent).rows = outbox.rows := by
  rw [rows_modify]
  refine (List.map_congr_left fun row member => ?_).trans (List.map_id _)
  have skipped : ¬ inProcessing eventId row = true := by
    intro selected
    obtain ⟨here, processing⟩ := Bool.and_eq_true_iff.mp selected
    refine none_ (affected_eq_one_iff.mpr ⟨row.progress, ?_, ?_⟩)
    · exact of_decide_eq_true here ▸ progress_of_mem member
    · simp [OutboxRow.progress, OutboxStatus.standing, of_decide_eq_true processing]
  rw [if_neg skipped, id_eq]

/-! ### Claims -/

variable {order : HashOrder OutboxRow} {correlationId : Option Uuid} {limit : Int}

theorem mem_claimed (member : row ∈ outbox.claimed order now correlationId limit) :
    row ∈ outbox.rows ∧ claimable now correlationId row = true := by
  have sorted := List.mem_of_mem_take member
  rw [List.mem_insertionSort, (order.perm _).mem_iff, List.mem_filter] at sorted
  exact sorted

theorem nodup_claimed (outbox : Outbox) (order : HashOrder OutboxRow) (now : Timestamp)
    (correlationId : Option Uuid) (limit : Int) :
    ((outbox.claimed order now correlationId limit).map OutboxRow.eventId).Nodup := by
  have filtered : ((outbox.rows.filter (claimable now correlationId)).map OutboxRow.eventId).Nodup :=
    outbox.table.distinct.sublist (List.filter_sublist.map _)
  refine List.Nodup.sublist ((List.take_sublist _ _).map _) ?_
  rw [((List.perm_insertionSort _ _).map _).nodup_iff, ((order.perm _).map _).nodup_iff]
  exact filtered

/-- The claimed records are distinct pending events, and the claim moves exactly these. -/
theorem claim_spec (outbox : Outbox) (order : HashOrder OutboxRow) (now : Timestamp)
    (correlationId : Option Uuid) (limit : Int) :
    let records := (outbox.claim order now correlationId limit).1
    (records.map fun record => record.event.eventId).Nodup ∧
      (∀ record ∈ records, ∃ row ∈ outbox.rows, row.toOutboxRecord = record ∧
        claimable now correlationId row = true) ∧
      (outbox.claim order now correlationId limit).2 =
        outbox.setProcessing ((outbox.claimed order now correlationId limit).map OutboxRow.eventId) ∧
      (records.map fun record => record.event.eventId).Perm
        ((outbox.claimed order now correlationId limit).map OutboxRow.eventId) := by
  have permuted : (((outbox.claim order now correlationId limit).1).map fun record =>
      record.event.eventId).Perm ((outbox.claimed order now correlationId limit).map OutboxRow.eventId) := by
    rw [claim, List.map_map]
    exact (order.perm _).map _
  refine ⟨permuted.nodup_iff.mpr (nodup_claimed _ _ _ _ _), ?_, rfl, permuted⟩
  intro record member
  rw [claim, List.mem_map] at member
  obtain ⟨row, inClaimed, rfl⟩ := member
  obtain ⟨inRows, may⟩ := mem_claimed ((order.perm _).mem_iff.mp inClaimed)
  exact ⟨row, inRows, rfl, may⟩

theorem progress_claim (outbox : Outbox) (order : HashOrder OutboxRow) (now : Timestamp)
    (correlationId : Option Uuid) (limit : Int) :
    (outbox.claim order now correlationId limit).2.progress =
      claimKeys (((outbox.claim order now correlationId limit).1).map fun record => record.event.eventId)
        outbox.progress := by
  obtain ⟨-, -, moved, permuted⟩ := claim_spec outbox order now correlationId limit
  rw [moved, progress_setProcessing]
  funext wanted
  unfold claimKeys
  by_cases member : wanted ∈ (outbox.claimed order now correlationId limit).map OutboxRow.eventId
  · rw [if_pos member, if_pos (permuted.mem_iff.mpr member)]
  · rw [if_neg member, if_neg (permuted.mem_iff.not.mpr member)]

theorem hasPending_eq_false {correlationId : Uuid} (none_ : outbox.hasPending correlationId = false)
    (member : row ∈ outbox.rows) (here : row.event.correlationId = correlationId) :
    row.status = .published ∨ row.status = .failed := by
  have absent := List.any_eq_false.mp none_ row member
  rw [decide_eq_true here, Bool.true_and, Bool.or_eq_true, decide_eq_true_iff, decide_eq_true_iff] at absent
  cases status : row.status with
  | pending => exact absurd (.inl status) absent
  | processing => exact absurd (.inr status) absent
  | published => exact .inl rfl
  | failed => exact .inr rfl

end SkillLayer.Infrastructure.Outbox
