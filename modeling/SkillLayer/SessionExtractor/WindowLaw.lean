import SkillLayer.Packing
import SkillLayer.SessionExtractor.Segmentation

/-! What the windows of a session cover, hold and share. -/

namespace SkillLayer.SessionExtractor

open Domain

variable (events : List SessionEvent) (config : SegmentationConfig)

def tokenWeights : List Nat := events.map estimateTokens

def entryTokens (entry : Fin events.length × Nat) : Nat := estimateTokens (events.get entry.1)

theorem map_entryTokens_indexed : (indexed events).map (entryTokens events) = tokenWeights events := by
  apply List.ext_getElem <;> simp [indexed, entryTokens, tokenWeights]

/-- Once a window is open, events are taken while they fit and no longer. -/
theorem packWindow_fits (rest : List (Fin events.length × Nat)) {collected : List Nat} (opened : collected ≠ [])
    (tokens : Nat) :
    ∃ taken ≤ rest.length, (packWindow events config rest collected tokens).length = collected.length + taken ∧
      (0 < taken → tokens + ((rest.map (entryTokens events)).take taken).sum ≤ config.tokenBudget) ∧
      (taken < rest.length →
        config.tokenBudget < tokens + ((rest.map (entryTokens events)).take (taken + 1)).sum) := by
  induction rest generalizing collected tokens with
  | nil => exact ⟨0, Nat.le_refl _, rfl, fun positive => absurd positive (Nat.lt_irrefl 0),
      fun positive => absurd positive (Nat.lt_irrefl 0)⟩
  | cons entry rest ih =>
    have started : ¬ collected.isEmpty = true := by simpa using opened
    by_cases fits : tokens + estimateTokens (events.get entry.1) ≤ config.tokenBudget
    · obtain ⟨taken, bound, size, within, exceeds⟩ :=
        ih (List.append_ne_nil_of_right_ne_nil collected (List.cons_ne_nil entry.2 []))
          (tokens + estimateTokens (events.get entry.1))
      rw [List.length_append, List.length_singleton] at size
      refine ⟨taken + 1, Nat.succ_le_succ bound, ?_, ?_, ?_⟩
      · rw [packWindow, if_neg started, if_pos fits, size]
        omega
      · intro _
        rw [List.map_cons, List.take_succ_cons, List.sum_cons, ← Nat.add_assoc]
        by_cases further : 0 < taken
        · exact within further
        · obtain rfl : taken = 0 := Nat.eq_zero_of_not_pos further
          simpa [entryTokens] using fits
      · intro more
        rw [List.map_cons, List.take_succ_cons, List.sum_cons, ← Nat.add_assoc]
        exact exceeds (Nat.lt_of_succ_lt_succ more)
    · refine ⟨0, Nat.zero_le _, ?_, fun positive => absurd positive (Nat.lt_irrefl 0), fun _ => ?_⟩
      · rw [packWindow, if_neg started, if_neg fits, Nat.add_zero]
      · simpa [entryTokens] using Nat.not_le.mp fits

theorem weightOf_slice (start length : Nat) :
    weightOf (tokenWeights events) start (start + length) =
      ((((indexed events).drop start).map (entryTokens events)).take length).sum := by
  rw [weightOf, List.drop_take, Nat.add_sub_cancel_left, List.map_drop, map_entryTokens_indexed]

/-- The inner loop packs greedily. -/
theorem packedLength_packed {start : Nat} (inside : start < events.length) :
    Packed (tokenWeights events) config.tokenBudget start (packedLength events config start) := by
  have size : (tokenWeights events).length = events.length := List.length_map _
  have remaining : ((indexed events).drop start).length = events.length - start := by
    rw [List.length_drop, length_indexed]
  cases known : (indexed events).drop start with
  | nil =>
    rw [known, List.length_nil] at remaining
    omega
  | cons entry rest =>
    obtain ⟨taken, bound, packed, within, exceeds⟩ := packWindow_fits events config rest
      (List.cons_ne_nil entry.2 []) (0 + estimateTokens (events.get entry.1))
    have length : packedLength events config start = taken + 1 := by
      rw [packedLength, known, packWindow, if_pos List.isEmpty_nil, List.nil_append, packed, List.length_singleton,
        Nat.add_comm]
    have weight (further : Nat) : weightOf (tokenWeights events) start (start + (further + 1)) =
        0 + estimateTokens (events.get entry.1) + ((rest.map (entryTokens events)).take further).sum := by
      rw [weightOf_slice, known, List.map_cons, List.take_succ_cons, List.sum_cons, Nat.zero_add]
      rfl
    rw [known, List.length_cons] at remaining
    refine ⟨by omega, by omega, ?_, ?_⟩
    · intro several
      rw [length, weight]
      exact within (by omega)
    · intro left
      rw [length, Nat.add_assoc, weight]
      exact exceeds (by omega)

/-- The windows are slices, packed greedily, that move forward, cover everything and share
the overlap. -/
structure WindowLaw (windows : List Episode) (row : List (Nat × Nat)) : Prop where
  sliced : windows = row.map (spanEpisode events)
  packed : ∀ span ∈ row, Packed (tokenWeights events) config.tokenBudget span.1 span.2
  starts : row.Pairwise fun earlier later => earlier.1 < later.1
  ends : row.Pairwise fun earlier later => earlier.1 + earlier.2 ≤ later.1 + later.2
  covered : ∀ position < events.length, ∃ span ∈ row, position ∈ spanPositions span
  shared : row.IsChain fun earlier later =>
    (spanPositions earlier ∩ spanPositions later).card = min config.overlapEvents (earlier.2 - 1)
  single : events ≠ [] → (tokenWeights events).sum ≤ config.tokenBudget → windows.length = 1

theorem length_tokenWeights : (tokenWeights events).length = events.length := List.length_map _

theorem packs_tokenWeights : ∀ start < (tokenWeights events).length,
    Packed (tokenWeights events) config.tokenBudget start (packedLength events config start) := by
  intro start inside
  exact packedLength_packed events config (length_tokenWeights events ▸ inside)

theorem windowSpans_eq : windowSpans events config =
    spans (tokenWeights events).length config.overlapEvents (packedLength events config) 0 := by
  rw [windowSpans, length_tokenWeights]

/-- The law of the windows, for every list of events and every configuration. -/
theorem segmentSession_windowed : ∃ row, WindowLaw events config (segmentSession events config) row := by
  have packs := packs_tokenWeights events config
  refine ⟨windowSpans events config, segmentSession_eq events config, ?_, ?_, ?_, ?_, ?_, ?_⟩
  · intro span member
    exact packed_of_mem packs (windowSpans_eq events config ▸ member)
  · exact spans_increasing 0
  · rw [windowSpans_eq]
    exact spans_ends packs 0
  · intro position inside
    obtain ⟨span, member, bounds⟩ := windowSpans_cover events config position inside
    exact ⟨span, member, mem_spanPositions.mpr bounds⟩
  · rw [windowSpans_eq]
    exact spans_overlap packs 0
  · intro some fits
    rw [segmentSession_eq, List.length_map, windowSpans_eq, spans_single packs fits]
    · rfl
    · rw [length_tokenWeights]
      exact List.length_pos_of_ne_nil some

/-- A session without events has no window, though it fits every budget. -/
theorem emptySession_unwindowed :
    ¬ ∀ events config, (tokenWeights events).sum ≤ config.tokenBudget → (segmentSession events config).length = 1 := by
  intro single
  exact absurd (single [] ⟨0, 0⟩ (Nat.le_refl 0)) (by decide)

/-! ### Redundant windows -/

/-- Every window after the first holds an event that no window before it holds. -/
structure NoRedundantWindow (windows : List Episode) : Prop where
  sliced : windows = (windowSpans events config).map (spanEpisode events)
  introduces : IntroducesPositions (windowSpans events config)

/-- No window is redundant exactly when no step back re-reads more than fits with the next event. -/
theorem segmentSession_noRedundantWindow_iff :
    NoRedundantWindow events config (segmentSession events config) ↔
      StepsBackWithin (tokenWeights events) config.tokenBudget config.overlapEvents := by
  rw [← spans_introduce_iff (packs_tokenWeights events config), ← windowSpans_eq]
  constructor
  · intro law
    exact law.introduces
  · intro introduces
    exact ⟨segmentSession_eq events config, introduces⟩

/-- Windows stay fresh where the overlap and one event more always fit. -/
theorem stepsBackWithin_of_fits
    (fits : ∀ past < events.length,
      weightOf (tokenWeights events) (past - config.overlapEvents) (past + 1) ≤ config.tokenBudget) :
    StepsBackWithin (tokenWeights events) config.tokenBudget config.overlapEvents := by
  intro start length _ _ left
  right
  have further : start + length - config.overlapEvents ≤ start + advance config.overlapEvents length := by
    unfold advance
    split <;> omega
  calc weightOf (tokenWeights events) (start + advance config.overlapEvents length) (start + length + 1)
      ≤ weightOf (tokenWeights events) (start + length - config.overlapEvents) (start + length + 1) :=
        weightOf_le further (Nat.le_refl _)
    _ ≤ config.tokenBudget := fits _ (length_tokenWeights events ▸ left)

def growingSession : List SessionEvent := [.userMessage 0 "a", .userMessage 1 "b", .userMessage 2 "cccccccc"]

/-- The event before the large one gets a window of its own again. -/
theorem growingSession_redundant :
    ¬ NoRedundantWindow growingSession ⟨2, 1⟩ (segmentSession growingSession ⟨2, 1⟩) := by
  rw [segmentSession_noRedundantWindow_iff]
  intro within
  have packed : Packed (tokenWeights growingSession) 2 0 2 :=
    ⟨by decide, by decide, fun _ => by decide, fun _ => by decide⟩
  rcases within 0 2 .first packed (by decide) with fresh | fits
  · exact absurd fresh (by decide)
  · exact absurd fits (by decide)

end SkillLayer.SessionExtractor
