import SkillLayer.Infrastructure.TranscriptQueue

/-! What the statements do to the rows of the transcript queue and to their progress. -/

namespace SkillLayer.Infrastructure

/-- What stays of a row under every statement: its id, its content hash, and what the
extractor is asked for it. -/
def TranscriptRow.capture (row : TranscriptRow) : Uuid × Str × Str × Str × Option Str :=
  (row.id, row.contentHash, row.sessionId, row.content, row.repoPath)

namespace TranscriptTable

variable {queue : TranscriptTable} {id : Uuid} {row : TranscriptRow} {order : HashOrder TranscriptRow}
  {limit : Int} {item : Progress}

theorem id_of_capture {other : TranscriptRow} (same : row.capture = other.capture) : row.id = other.id :=
  congrArg Prod.fst same

theorem same_row {other : TranscriptRow} (member : row ∈ queue.rows) (found : other ∈ queue.rows)
    (same : row.id = other.id) : row = other := Keyed.same_row member found same

theorem progress_of_mem (member : row ∈ queue.rows) : queue.progress row.id = some row.progress :=
  Keyed.progressOf_of_mem member

theorem progress_eq_some :
    queue.progress id = some item ↔ ∃ row ∈ queue.rows, row.id = id ∧ row.progress = item :=
  Keyed.progressOf_eq_some

theorem progress_insertRow (fresh : row.id ∉ queue.table.keys)
    (freshHash : queue.holdsHash row.contentHash = false) :
    (queue.insertRow row fresh freshHash).progress =
      Function.update queue.progress row.id (some row.progress) :=
  Keyed.progressOf_insert fresh

theorem rows_modify (selects : TranscriptRow → Bool) (change : RowChange) :
    (queue.modify selects change).rows =
      queue.rows.map fun row => if selects row then change.apply row else row := rfl

theorem capture_change (selects : TranscriptRow → Bool) (change : RowChange) (row : TranscriptRow) :
    (if selects row then change.apply row else row).capture = row.capture := by
  split <;> rfl

/-- The rows after a change come from the rows before it. -/
theorem mem_rows_modify {selects : TranscriptRow → Bool} {change : RowChange}
    (member : row ∈ (queue.modify selects change).rows) :
    ∃ before ∈ queue.rows, before.capture = row.capture ∧
      row = if selects before then change.apply before else before := by
  obtain ⟨before, inRows, rfl⟩ := List.mem_map.mp member
  exact ⟨before, inRows, (capture_change selects change before).symm, rfl⟩

theorem kept_modify {selects : TranscriptRow → Bool} {change : RowChange} (member : row ∈ queue.rows) :
    ∃ next ∈ (queue.modify selects change).rows, next.capture = row.capture :=
  ⟨_, List.mem_map_of_mem member, capture_change selects change row⟩

/-! ### Claims -/

/-- The claimed rows are distinct pending rows, now in processing. -/
theorem claim_spec (queue : TranscriptTable) (order : HashOrder TranscriptRow) (limit : Int) :
    ((queue.claim order limit).1.map TranscriptRow.id).Nodup ∧
      ∀ row ∈ (queue.claim order limit).1, ∃ source ∈ queue.rows, source.status = .pending ∧
        source.capture = row.capture := by
  have ids : (queue.claim order limit).1.map TranscriptRow.id =
      (order.arrange (queue.claimed order limit)).map TranscriptRow.id := by
    rw [claim, List.map_map]
    rfl
  constructor
  · rw [ids, ((order.perm _).map _).nodup_iff]
    exact Keyed.nodup_batch queue.table order claimable _ _
  · intro row member
    obtain ⟨source, inClaimed, rfl⟩ := List.mem_map.mp member
    obtain ⟨inRows, pending⟩ := Keyed.mem_batch ((order.perm _).mem_iff.mp inClaimed)
    exact ⟨source, inRows, of_decide_eq_true pending, rfl⟩

theorem claim_pending (queue : TranscriptTable) (order : HashOrder TranscriptRow) (limit : Int) :
    ∀ id ∈ (queue.claim order limit).1.map TranscriptRow.id,
      ∃ item, queue.progress id = some item ∧ item.standing = .pending := by
  intro id member
  obtain ⟨row, inClaimed, rfl⟩ := List.mem_map.mp member
  obtain ⟨source, inRows, pending, same⟩ := (claim_spec queue order limit).2 row inClaimed
  refine ⟨source.progress, id_of_capture same ▸ progress_of_mem inRows, ?_⟩
  rw [TranscriptRow.progress, pending]
  rfl

theorem progress_claim (queue : TranscriptTable) (order : HashOrder TranscriptRow) (limit : Int) :
    (queue.claim order limit).2.progress =
      claimKeys ((queue.claim order limit).1.map TranscriptRow.id) queue.progress := by
  refine Keyed.progressOf_claim (keepsId _ _) _ fun row member => ?_
  have ids : row.id ∈ (queue.claim order limit).1.map TranscriptRow.id ↔
      row.id ∈ (queue.claimed order limit).map TranscriptRow.id := by
    rw [claim, List.map_map]
    exact ((order.perm _).map TranscriptRow.id).mem_iff
  by_cases inside : row.id ∈ (queue.claimed order limit).map TranscriptRow.id
  · rw [if_pos (decide_eq_true inside), if_pos (ids.mpr inside)]
    rfl
  · rw [if_neg (by simpa using inside), if_neg (ids.not.mpr inside)]

/-- A pending row is claimed by every claim that is large enough. -/
theorem claimed_of_pending (member : row ∈ queue.rows) (pending : row.status = .pending)
    (large : (queue.rows.length : Int) ≤ limit) : row ∈ queue.claimed order limit :=
  Keyed.mem_batch_of_large member (decide_eq_true pending) (by
    change queue.rows.length ≤ limit.toNat
    omega)

/-! ### Marks -/

theorem progress_mark {change : RowChange} (next : Progress → Progress)
    (acts : ∀ row, (change.apply row).progress = next row.progress)
    (here : queue.progress id = some item) (processing : item.standing = .processing) :
    (queue.modify (inProcessing id) change).progress =
      Function.update queue.progress id (some (next item)) := by
  refine Keyed.progressOf_mark (keepsId _ _) next (fun row _ => ?_) here processing
  have standing : row.progress.standing = .processing ↔ row.status = .processing := by
    cases status : row.status <;> simp [TranscriptRow.progress, TranscriptStatus.standing, status]
  by_cases selected : row.id = id ∧ row.status = .processing
  · rw [if_pos (by simp [inProcessing, selected]), if_pos ⟨selected.1, standing.mpr selected.2⟩, acts]
  · rw [if_neg (by simpa [inProcessing] using selected),
      if_neg fun both => selected ⟨both.1, standing.mp both.2⟩]

theorem progress_markProcessed (here : queue.progress id = some item)
    (processing : item.standing = .processing) :
    (queue.markProcessed id).progress = Function.update queue.progress id (some item.finish) :=
  progress_mark Progress.finish (fun _ => rfl) here processing

theorem progress_markFailed (errorMessage : Str) (maxAttempts : Nat) (here : queue.progress id = some item)
    (processing : item.standing = .processing) :
    (queue.markFailed id errorMessage maxAttempts).progress =
      Function.update queue.progress id (some (item.fail maxAttempts)) := by
  refine progress_mark (Progress.fail maxAttempts) (fun row => ?_) here processing
  by_cases last : maxAttempts ≤ row.attempts + 1
  · simp [TranscriptRow.progress, RowChange.apply, setFailed, Progress.fail, TranscriptStatus.standing, last]
  · simp [TranscriptRow.progress, RowChange.apply, setFailed, Progress.fail, TranscriptStatus.standing, last]

/-! ### Insertions -/

/-- A capture writes a row, or finds its content there and changes nothing. -/
theorem insertIfNew_eq_ok {inserted : Option Uuid} {after : TranscriptTable} :
    queue.insertIfNew row = .ok (inserted, after) ↔
      inserted = none ∧ after = queue ∧ queue.holdsHash row.contentHash = true ∨
        inserted = some row.id ∧ ∃ fresh freshHash, after = queue.insertRow row fresh freshHash := by
  unfold insertIfNew
  split
  · rename_i taken
    rw [Except.ok.injEq, Prod.mk.injEq]
    constructor
    · rintro ⟨rfl, rfl⟩
      exact .inl ⟨rfl, rfl, taken⟩
    · rintro (⟨rfl, rfl, -⟩ | ⟨-, _, freshHash, -⟩)
      · exact ⟨rfl, rfl⟩
      · rw [taken] at freshHash
        cases freshHash
  · rename_i freshHash
    have notTaken : ¬ queue.holdsHash row.contentHash = true := by simp [freshHash]
    by_cases fresh : row.id ∉ queue.table.keys
    · rw [dif_pos fresh, Except.ok.injEq, Prod.mk.injEq]
      constructor
      · rintro ⟨rfl, rfl⟩
        exact .inr ⟨rfl, fresh, freshHash, rfl⟩
      · rintro (⟨-, -, taken⟩ | ⟨rfl, _, _, rfl⟩)
        · exact absurd taken notTaken
        · exact ⟨rfl, rfl⟩
    · rw [dif_neg fresh]
      refine iff_of_false (by simp) ?_
      rintro (⟨-, -, taken⟩ | ⟨-, isFresh, -⟩)
      · exact notTaken taken
      · exact fresh isFresh

end TranscriptTable
end SkillLayer.Infrastructure
