import SkillLayer.Domain.Types
import SkillLayer.Spans

/-! Turn-aware overlapping windows over the event stream, packed greedily under
a token budget. -/

namespace SkillLayer.SessionExtractor

open Domain

structure ArcId where
  value : UInt64
deriving DecidableEq

/-- One window; `eventIndices` are source-line indices, not positions. -/
structure Episode where
  eventIndices : List Nat
  arcId : Option ArcId
deriving DecidableEq

structure SegmentationConfig where
  tokenBudget : Nat
  overlapEvents : Nat
deriving DecidableEq

def estimateTokens (event : SessionEvent) : Nat :=
  let charCount :=
    match event with
    | .userMessage _ content => Str.byteLength content
    | .assistantMessage _ content => Str.byteLength content
    | .toolCall _ _ name inputJson => Str.byteLength name + Str.byteLength inputJson
    | .toolResult _ _ _ _ output => Str.byteLength output
    | .fileEdit _ _ path operation => Str.byteLength path + Str.byteLength operation
    | .metadata _ eventType => Str.byteLength eventType
  max (charCount / 4) 1

/-- The positions of the stream with the source line of each event. -/
def indexed (events : List SessionEvent) : List (Fin events.length × Nat) :=
  (List.finRange events.length).map fun pos => (pos, (events.get pos).index)

/-- The inner loop: the first event always fits, later ones within the budget. -/
def packWindow (events : List SessionEvent) (config : SegmentationConfig) :
    List (Fin events.length × Nat) → List Nat → Nat → List Nat
  | [], windowSourceIndices, _ => windowSourceIndices
  | (pos, sourceIdx) :: rest, windowSourceIndices, windowTokens =>
    let eventTokens := estimateTokens (events.get pos)
    if windowSourceIndices.isEmpty then
      packWindow events config rest (windowSourceIndices ++ [sourceIdx]) (windowTokens + eventTokens)
    else if windowTokens + eventTokens ≤ config.tokenBudget then
      packWindow events config rest (windowSourceIndices ++ [sourceIdx]) (windowTokens + eventTokens)
    else windowSourceIndices

/-- The outer loop from `windowStart` on. -/
def splitIntoOverlapWindows (events : List SessionEvent) (config : SegmentationConfig)
    (windowStart : Nat) : List Episode :=
  if windowStart < (indexed events).length then
    let windowSourceIndices := packWindow events config ((indexed events).drop windowStart) [] 0
    let windowLen := windowSourceIndices.length
    ⟨windowSourceIndices, none⟩ ::
      if (indexed events).length ≤ windowStart + windowLen then []
      else splitIntoOverlapWindows events config (windowStart + advance config.overlapEvents windowLen)
  else []
termination_by (indexed events).length - windowStart
decreasing_by exact Nat.sub_lt_sub_left ‹_› (Nat.lt_add_of_pos_right (advance_pos _ _))

def segmentSession (events : List SessionEvent) (config : SegmentationConfig) : List Episode :=
  if events.isEmpty then [] else splitIntoOverlapWindows events config 0

/-! ### The positions a window packs -/

variable (events : List SessionEvent) (config : SegmentationConfig)

def packedLength (windowStart : Nat) : Nat :=
  (packWindow events config ((indexed events).drop windowStart) [] 0).length

/-- The `(start, length)` spans of positions behind the windows. -/
def windowSpans : List (Nat × Nat) :=
  spans events.length config.overlapEvents (packedLength events config) 0

/-- The events of a span. -/
def spanEvents (span : Nat × Nat) : List SessionEvent := (events.drop span.1).take span.2

def spanEpisode (span : Nat × Nat) : Episode := ⟨(spanEvents events span).map SessionEvent.index, none⟩

theorem length_indexed : (indexed events).length = events.length := by
  simp [indexed]

theorem map_snd_indexed : (indexed events).map Prod.snd = events.map SessionEvent.index := by
  apply List.ext_getElem <;> simp [indexed]

/-- Packing extends the collected indices by those of a prefix of what remains. -/
theorem packWindow_prefix (rest : List (Fin events.length × Nat)) (collected : List Nat)
    (tokens : Nat) :
    ∃ taken ≤ rest.length,
      packWindow events config rest collected tokens = collected ++ (rest.take taken).map Prod.snd ∧
      (collected = [] → rest ≠ [] → 0 < taken) := by
  induction rest generalizing collected tokens with
  | nil => exact ⟨0, Nat.le_refl _, by simp [packWindow], by simp⟩
  | cons entry rest ih =>
    obtain ⟨taken, bound, packed, -⟩ :=
      ih (collected ++ [entry.2]) (tokens + estimateTokens (events.get entry.1))
    have extended : packWindow events config rest (collected ++ [entry.2])
        (tokens + estimateTokens (events.get entry.1)) =
        collected ++ ((entry :: rest).take (taken + 1)).map Prod.snd := by simpa using packed
    by_cases first : collected.isEmpty = true
    · exact ⟨taken + 1, by simpa using bound, by simpa only [packWindow, first, if_true] using extended,
        fun _ _ => Nat.succ_pos _⟩
    · have started : collected ≠ [] := by simpa using first
      by_cases fits : tokens + estimateTokens (events.get entry.1) ≤ config.tokenBudget
      · exact ⟨taken + 1, by simpa using bound,
          by simpa only [packWindow, first, if_false, fits, if_true, Bool.false_eq_true] using extended,
          fun _ _ => Nat.succ_pos _⟩
      · refine ⟨0, Nat.zero_le _, ?_, fun empty => absurd empty started⟩
        rw [packWindow, if_neg first, if_neg fits]
        simp

theorem packedLength_pos {windowStart : Nat} (inside : windowStart < events.length) :
    0 < packedLength events config windowStart := by
  obtain ⟨taken, bound, packed, positive⟩ :=
    packWindow_prefix events config ((indexed events).drop windowStart) [] 0
  have remaining : (indexed events).drop windowStart ≠ [] := by
    simpa [length_indexed] using inside
  have moved := positive rfl remaining
  simp only [List.length_drop] at bound
  simp only [packedLength, packed, List.nil_append, List.length_map, List.length_take,
    List.length_drop]
  omega

theorem packWindow_eq_slice (windowStart : Nat) :
    packWindow events config ((indexed events).drop windowStart) [] 0 =
      ((events.drop windowStart).take (packedLength events config windowStart)).map
        SessionEvent.index := by
  obtain ⟨taken, bound, packed, -⟩ :=
    packWindow_prefix events config ((indexed events).drop windowStart) [] 0
  have size : packedLength events config windowStart = taken := by
    simp only [packedLength, packed, List.nil_append, List.length_map, List.length_take]
    omega
  rw [packed, size, List.nil_append, List.map_take, List.map_drop, map_snd_indexed,
    List.map_take, List.map_drop]

theorem splitIntoOverlapWindows_eq (windowStart : Nat) :
    splitIntoOverlapWindows events config windowStart =
      (spans events.length config.overlapEvents (packedLength events config) windowStart).map
        fun span => ⟨((events.drop span.1).take span.2).map SessionEvent.index, none⟩ := by
  induction windowStart using splitIntoOverlapWindows.induct events config with
  | case1 windowStart more _ _ ih =>
    rw [splitIntoOverlapWindows, spans, if_pos more, if_pos (by simpa [length_indexed] using more)]
    simp only [List.map_cons, length_indexed, ← packWindow_eq_slice]
    congr 1
    change (if events.length ≤ windowStart + packedLength events config windowStart then _ else _) = _
    split
    · rfl
    · exact ih
  | case2 windowStart done =>
    rw [splitIntoOverlapWindows, spans, if_neg done, if_neg (by simpa [length_indexed] using done)]
    rfl

/-- Every window records exactly the source lines of one contiguous span of positions. -/
theorem segmentSession_eq :
    segmentSession events config =
      (windowSpans events config).map fun span =>
        ⟨((events.drop span.1).take span.2).map SessionEvent.index, none⟩ := by
  cases events with
  | nil => simp [segmentSession, windowSpans, spans]
  | cons event rest => exact splitIntoOverlapWindows_eq (event :: rest) config 0

theorem windowSpans_cover (position : Nat) (inside : position < events.length) :
    ∃ span ∈ windowSpans events config, span.1 ≤ position ∧ position < span.1 + span.2 :=
  spans_cover (fun _ start => packedLength_pos events config start) 0 position (Nat.zero_le _) inside

end SkillLayer.SessionExtractor
