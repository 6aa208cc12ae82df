import SkillLayer.SessionExtractor.EventCoverage
import SkillLayer.SessionExtractor.Salience

/-! What the salience gate keeps, and which payloads make it pass over a signal. -/

namespace SkillLayer.SessionExtractor

open Domain

/-! ### The order of the scores -/

/-- A higher score, or the same score at an earlier position. -/
def ScoredEpisode.precedes (left right : ScoredEpisode) : Prop :=
  right.score.score < left.score.score ∨
    right.score.score = left.score.score ∧ left.episodeIndex < right.episodeIndex

instance (left right : ScoredEpisode) : Decidable (left.precedes right) := inferInstanceAs (Decidable (_ ∨ _))

theorem not_rankedBefore {left right : ScoredEpisode} : ¬ rankedBefore left right ↔ right.precedes left := by
  unfold rankedBefore ScoredEpisode.precedes
  rcases lt_trichotomy left.score.score right.score.score with less | same | more
  · simp [less, less.le, less.ne']
  · simp [same]
  · simp [more, more.not_gt, more.ne']

theorem rankedBefore_total (left right : ScoredEpisode) : rankedBefore left right ∨ rankedBefore right left := by
  by_contra neither
  rw [not_or, not_rankedBefore, not_rankedBefore] at neither
  unfold ScoredEpisode.precedes at neither
  obtain ⟨rightFirst | ⟨same, rightFirst⟩, leftFirst | ⟨_, leftFirst⟩⟩ := neither
  · exact lt_asymm leftFirst rightFirst
  · grind
  · grind
  · omega

theorem rankedBefore_trans {left middle right : ScoredEpisode} (first : rankedBefore left middle)
    (second : rankedBefore middle right) : rankedBefore left right := by
  unfold rankedBefore at *
  rcases first with first | ⟨sameFirst, first⟩
  · rcases second with second | ⟨sameSecond, -⟩
    · exact .inl (second.trans first)
    · exact .inl (sameSecond ▸ first)
  · rcases second with second | ⟨sameSecond, second⟩
    · exact .inl (sameFirst ▸ second)
    · exact .inr ⟨sameSecond.trans sameFirst, first.trans second⟩

instance : Std.Total fun left right : ScoredEpisode × Nat => rankedBefore left.1 right.1 :=
  ⟨fun left right => rankedBefore_total left.1 right.1⟩

instance : IsTrans (ScoredEpisode × Nat) fun left right => rankedBefore left.1 right.1 :=
  ⟨fun _ _ _ => rankedBefore_trans⟩

/-! ### What a mode passes -/

/-- The mode keeps this one of the eligible episodes. -/
def passes (eligible : List ScoredEpisode) (mode : GateMode) (item : ScoredEpisode) : Bool :=
  match mode with
  | .threshold minScore => Binary32.atLeast item.score.score minScore
  | .topK k => decide (eligible.countP (fun other => decide (other.precedes item)) < k)

theorem filter_zipIdx {Item : Type} {items : List Item} {atPosition : Nat → Bool} {keeps : Item → Bool}
    (same : ∀ entry ∈ items.zipIdx, atPosition entry.2 = keeps entry.1) :
    (items.zipIdx.filter fun entry => atPosition entry.2).map Prod.fst = items.filter keeps := by
  rw [List.filter_congr same]
  conv_rhs => rw [← List.zipIdx_map_fst 0 items, List.filter_map]
  rfl

/-- Of episodes with different indices, an entry is found by its index. -/
theorem entry_unique {items : List ScoredEpisode} (distinct : (items.map ScoredEpisode.episodeIndex).Nodup)
    {one two : ScoredEpisode × Nat} (inOne : one ∈ items.zipIdx) (inTwo : two ∈ items.zipIdx)
    (same : one.1.episodeIndex = two.1.episodeIndex) : one = two := by
  have first := List.mem_zipIdx_iff_getElem?.mp inOne
  have second := List.mem_zipIdx_iff_getElem?.mp inTwo
  obtain ⟨inside, -⟩ := List.getElem?_eq_some_iff.mp first
  have place : one.2 = two.2 := by
    refine (List.getElem?_inj (by simpa using inside) distinct).mp ?_
    rw [List.getElem?_map, List.getElem?_map, first, second, Option.map_some, Option.map_some, same]
  rw [place, second] at first
  exact Prod.ext (Option.some.inj first).symm place

theorem index_eq_of_rankedBefore {left right : ScoredEpisode} (forward : rankedBefore left right)
    (back : rankedBefore right left) : left.episodeIndex = right.episodeIndex := by
  rcases forward with less | ⟨same, forward⟩
  · rcases back with more | ⟨equal, _⟩
    · exact absurd more less.not_gt
    · exact absurd equal less.ne'
  · rcases back with more | ⟨_, back⟩
    · exact absurd same more.ne'
    · exact Nat.le_antisymm forward back

theorem mem_keptPositions {eligible : List ScoredEpisode} {k : Nat}
    (distinct : (eligible.map ScoredEpisode.episodeIndex).Nodup) {entry : ScoredEpisode × Nat}
    (member : entry ∈ eligible.zipIdx) :
    entry.2 ∈ keptPositions eligible k ↔
      eligible.countP (fun other => decide (other.precedes entry.1)) < k := by
  have antisymmetric (one : ScoredEpisode × Nat) (inOne : one ∈ eligible.zipIdx) (two : ScoredEpisode × Nat)
      (inTwo : two ∈ eligible.zipIdx) (forward : rankedBefore one.1 two.1) (back : rankedBefore two.1 one.1) :
      one = two :=
    entry_unique distinct inOne inTwo (index_eq_of_rankedBefore forward back)
  have positions : (eligible.zipIdx.map Prod.snd).Nodup := by
    rw [List.zipIdx_map_snd]
    exact List.nodup_range'
  have ranked : entry ∈ (eligible.zipIdx.insertionSort fun left right => rankedBefore left.1 right.1).take k ↔
      eligible.zipIdx.countP (fun other => decide (¬ rankedBefore entry.1 other.1)) < k :=
    mem_take_insertionSort_iff (List.Nodup.of_map _ positions) antisymmetric member k
  have counted : eligible.zipIdx.countP (fun other => decide (¬ rankedBefore entry.1 other.1)) =
      eligible.countP fun other => decide (other.precedes entry.1) := by
    conv_rhs => rw [← List.zipIdx_map_fst 0 eligible, List.countP_map]
    apply List.countP_congr
    intro other _
    simp only [Function.comp_apply, decide_eq_true_eq]
    exact not_rankedBefore
  rw [counted] at ranked
  rw [← ranked, keptPositions, List.mem_map]
  constructor
  · intro found
    obtain ⟨other, taken, same⟩ := found
    have inEligible := (List.perm_insertionSort _ _).subset (List.mem_of_mem_take taken)
    rwa [← List.inj_on_of_nodup_map positions inEligible member same]
  · exact fun taken => ⟨entry, taken, rfl⟩

theorem applyGateMode_eq {eligible : List ScoredEpisode} (config : SalienceConfig)
    (distinct : (eligible.map ScoredEpisode.episodeIndex).Nodup) :
    applyGateMode eligible config =
      (eligible.filter (passes eligible config.mode), eligible.filter fun item => !passes eligible config.mode item) := by
  unfold applyGateMode
  cases config.mode with
  | threshold minScore => rfl
  | topK k =>
    dsimp only
    split
    · rename_i empty
      rw [List.isEmpty_iff.mp empty]
      rfl
    · have kept (entry : ScoredEpisode × Nat) (member : entry ∈ eligible.zipIdx) :
          (keptPositions eligible k).contains entry.2 = passes eligible (.topK k) entry.1 := by
        rw [Bool.eq_iff_iff, List.contains_iff_mem, mem_keptPositions distinct member, passes, decide_eq_true_eq]
      rw [filter_zipIdx kept, @filter_zipIdx _ eligible (fun position => !(keptPositions eligible k).contains position)
        (fun item => !passes eligible (.topK k) item) fun entry member => congrArg _ (kept entry member)]

/-! ### The whole gate -/

/-- The episodes that are neither held by a signal nor out of the gate's reach. -/
def eligibleEpisodes (scored : List ScoredEpisode) : List ScoredEpisode :=
  scored.filter fun item => !item.score.hardKeep

def survives (scored : List ScoredEpisode) (mode : GateMode) (item : ScoredEpisode) : Bool :=
  item.score.hardKeep || passes (eligibleEpisodes scored) mode item

def gatedEpisode (config : SalienceConfig) (item : ScoredEpisode) : GatedEpisode :=
  ⟨item.episodeIndex, item.episode, item.score.score, formatGateReason item.score config⟩

theorem indices_scoreEpisodes (events : List SessionEvent) (episodes : List Episode) :
    (scoreEpisodes events episodes).map ScoredEpisode.episodeIndex = List.range' 0 episodes.length := by
  rw [scoreEpisodes, List.map_map, ← List.zipIdx_map_snd 0 episodes]
  rfl

theorem pairwise_indices (events : List SessionEvent) (episodes : List Episode) :
    (scoreEpisodes events episodes).Pairwise fun left right => left.episodeIndex < right.episodeIndex := by
  rw [← List.pairwise_map, indices_scoreEpisodes]
  exact List.pairwise_lt_range'

theorem episodes_scored (events : List SessionEvent) (episodes : List Episode) (keeps : ScoredEpisode → Bool) :
    ((scoreEpisodes events episodes).filter keeps).map ScoredEpisode.episode =
      (episodes.zipIdx.filter fun entry =>
        keeps ⟨entry.2, entry.1, scoreEpisode (windowEvents events entry.1)⟩).map Prod.fst := by
  rw [scoreEpisodes, List.filter_map, List.map_map]
  rfl

/-- The indices that the gate keeps are those of the surviving episodes. -/
theorem mem_keptIndices {scored : List ScoredEpisode} {mode : GateMode}
    (distinct : (scored.map ScoredEpisode.episodeIndex).Nodup) {item : ScoredEpisode} (member : item ∈ scored) :
    item.episodeIndex ∈ (scored.filter fun item => item.score.hardKeep).map ScoredEpisode.episodeIndex ++
        ((eligibleEpisodes scored).filter (passes (eligibleEpisodes scored) mode)).map ScoredEpisode.episodeIndex ↔
      survives scored mode item = true := by
  rw [← List.map_append, List.mem_map]
  constructor
  · intro found
    obtain ⟨other, chosen, same⟩ := found
    have inScored : other ∈ scored ∧ survives scored mode other = true := by
      rcases List.mem_append.mp chosen with held | passed
      · obtain ⟨known, held⟩ := List.mem_filter.mp held
        exact ⟨known, by simp only [survives, held, Bool.true_or]⟩
      · obtain ⟨eligible, passed⟩ := List.mem_filter.mp passed
        exact ⟨List.mem_of_mem_filter eligible, by simp only [survives, passed, Bool.or_true]⟩
    rw [← List.inj_on_of_nodup_map distinct inScored.1 member same]
    exact inScored.2
  · intro kept
    refine ⟨item, List.mem_append.mpr ?_, rfl⟩
    cases held : item.score.hardKeep with
    | true => exact .inl (List.mem_filter.mpr ⟨member, held⟩)
    | false =>
      rw [survives, held, Bool.false_or] at kept
      exact .inr (List.mem_filter.mpr ⟨List.mem_filter.mpr ⟨member, by simp [held]⟩, kept⟩)

/-- The gate splits the scored episodes in two, both in their original order. -/
theorem gateEpisodes_eq (episodes : List Episode) (events : List SessionEvent) (config : SalienceConfig) :
    gateEpisodes episodes events config =
      ⟨((scoreEpisodes events episodes).filter (survives (scoreEpisodes events episodes) config.mode)).map
          ScoredEpisode.episode,
        ((scoreEpisodes events episodes).filter fun item =>
          !survives (scoreEpisodes events episodes) config.mode item).map (gatedEpisode config)⟩ := by
  unfold gateEpisodes
  split
  · rename_i empty
    rw [List.isEmpty_iff.mp empty]
    rfl
  · have increasing := pairwise_indices events episodes
    generalize known : scoreEpisodes events episodes = scored at increasing ⊢
    have distinct : ((eligibleEpisodes scored).map ScoredEpisode.episodeIndex).Nodup := by
      rw [List.Nodup, List.pairwise_map]
      exact (increasing.sublist (List.filter_sublist ..)).imp Nat.ne_of_lt
    dsimp only
    rw [show (scored.filter fun item => !item.score.hardKeep) = eligibleEpisodes scored from rfl,
      applyGateMode_eq config distinct]
    dsimp only
    congr 1
    · rw [← known, episodes_scored, known]
      congr 1
      apply List.filter_congr
      intro entry member
      have inScored : (⟨entry.2, entry.1, scoreEpisode (windowEvents events entry.1)⟩ : ScoredEpisode) ∈ scored :=
        known ▸ List.mem_map_of_mem member
      rw [Bool.eq_iff_iff, List.contains_iff_mem]
      exact mem_keptIndices (List.pairwise_map.mpr (increasing.imp Nat.ne_of_lt)) inScored
    · have rest : ((eligibleEpisodes scored).filter fun item =>
            !passes (eligibleEpisodes scored) config.mode item) =
          scored.filter fun item => !survives scored config.mode item := by
        rw [eligibleEpisodes, List.filter_filter]
        apply List.filter_congr
        intro item _
        rw [survives, Bool.not_or, Bool.and_comm, eligibleEpisodes]
      rw [rest]
      apply List.Pairwise.insertionSort_eq
      rw [List.pairwise_map]
      exact (increasing.sublist (List.filter_sublist ..)).imp Nat.le_of_lt

/-! ### Signals that the gate passes over -/

/-- A resolved error arc or a stated preference. -/
def HoldsSignal (events : List SessionEvent) : Prop :=
  detectResolvedErrorArc events = true ∨ detectStatedPreference events = true

theorem hardKeep_scoreEpisode (events : List SessionEvent) :
    (scoreEpisode events).hardKeep = true ↔ HoldsSignal events := by
  unfold scoreEpisode HoldsSignal
  cases events with
  | nil => simp [detectResolvedErrorArc, resolvesError, detectStatedPreference]
  | cons event rest =>
    rw [if_neg (by simp)]
    dsimp only
    split
    · rename_i arc
      simp [arc]
    · rename_i noArc
      split
      · rename_i preference
        simp [preference]
      · rename_i noPreference
        simp [noArc, noPreference]

variable (events : List SessionEvent) (segmentation : SegmentationConfig)

/-- The events of a span, each replaced by the last event of its source line. -/
def lineEvents (span : Nat × Nat) : List SessionEvent := windowEvents events (spanEpisode events span)

def scoredSpan (position : Nat) (span : Nat × Nat) : ScoredEpisode :=
  ⟨position, spanEpisode events span, scoreEpisode (lineEvents events span)⟩

def scoredSession : List ScoredEpisode := scoreEpisodes events (segmentSession events segmentation)

/-- The gate splits the episodes by signal and mode, and no gated one was packed with a signal. -/
structure GateLaw (config : SalienceConfig) (result : GateResult) : Prop where
  kept : result.kept = ((scoredSession events segmentation).filter
    (survives (scoredSession events segmentation) config.mode)).map ScoredEpisode.episode
  gated : (result.gated.map fun gated => (gated.episodeIndex, gated.episode)) =
    ((scoredSession events segmentation).filter fun item =>
      !survives (scoredSession events segmentation) config.mode item).map fun item => (item.episodeIndex, item.episode)
  spared : ∀ gated ∈ result.gated, ∀ span, (windowSpans events segmentation)[gated.episodeIndex]? = some span →
    ¬ HoldsSignal (spanEvents events span)

variable {events segmentation}

theorem scoredSpan_mem {position : Nat} {span : Nat × Nat}
    (found : (windowSpans events segmentation)[position]? = some span) :
    scoredSpan events position span ∈ scoredSession events segmentation := by
  have episode : (segmentSession events segmentation)[position]? = some (spanEpisode events span) := by
    rw [segmentSession_eq, List.getElem?_map, found]
    rfl
  exact List.mem_map.mpr ⟨(spanEpisode events span, position), List.mem_zipIdx_iff_getElem?.mpr episode, rfl⟩

theorem scoredSession_span {item : ScoredEpisode} (member : item ∈ scoredSession events segmentation) {span : Nat × Nat}
    (found : (windowSpans events segmentation)[item.episodeIndex]? = some span) :
    item = scoredSpan events item.episodeIndex span := by
  have distinct : ((scoredSession events segmentation).map ScoredEpisode.episodeIndex).Nodup := by
    rw [scoredSession, indices_scoreEpisodes]
    exact List.nodup_range'
  exact List.inj_on_of_nodup_map distinct member (scoredSpan_mem found) rfl

/-- The law holds where every span with a signal still has one by its source lines, or passes
by its score. -/
theorem gateLaw_iff (config : SalienceConfig) :
    GateLaw events segmentation config (gateEpisodes (segmentSession events segmentation) events config) ↔
      ∀ position span, (windowSpans events segmentation)[position]? = some span →
        HoldsSignal (spanEvents events span) → HoldsSignal (lineEvents events span) ∨
          passes (eligibleEpisodes (scoredSession events segmentation)) config.mode
            (scoredSpan events position span) = true := by
  have survivor (position : Nat) (span : Nat × Nat) :
      survives (scoredSession events segmentation) config.mode (scoredSpan events position span) = true ↔
        HoldsSignal (lineEvents events span) ∨ passes (eligibleEpisodes (scoredSession events segmentation))
          config.mode (scoredSpan events position span) = true := by
    rw [survives, Bool.or_eq_true, ← hardKeep_scoreEpisode]
    rfl
  have split := gateEpisodes_eq (segmentSession events segmentation) events config
  constructor
  · intro law position span found signal
    rw [← survivor]
    by_contra gone
    have gated : gatedEpisode config (scoredSpan events position span) ∈
        (gateEpisodes (segmentSession events segmentation) events config).gated := by
      rw [split]
      apply List.mem_map_of_mem
      rw [List.mem_filter, Bool.not_eq_true']
      exact ⟨scoredSpan_mem found, Bool.eq_false_iff.mpr gone⟩
    exact law.spared _ gated span found signal
  · intro caught
    refine ⟨by rw [split]; rfl, by rw [split, List.map_map]; rfl, ?_⟩
    intro gated member span found signal
    rw [split] at member
    obtain ⟨item, dropped, rfl⟩ := List.mem_map.mp member
    obtain ⟨inSession, dropped⟩ := List.mem_filter.mp dropped
    have survived := (survivor item.episodeIndex span).mpr (caught item.episodeIndex span found signal)
    rw [← scoredSession_span inSession found] at survived
    rw [show survives (scoreEpisodes events (segmentSession events segmentation)) config.mode item = true from survived]
      at dropped
    cases dropped

/-- A payload whose lines carry at most one event keeps every signal. -/
theorem gateLaw_of_singleEventLines {json : SerdeJson} {payload : Str} (single : SingleEventLines json payload)
    (config : SalienceConfig) :
    GateLaw (parseSessionEvents json payload).events segmentation config
      (gateEpisodes (segmentSession (parseSessionEvents json payload).events segmentation)
        (parseSessionEvents json payload).events config) := by
  have lossless := (noEventLost_iff_singleEventLines json payload segmentation).mpr single
  have distinct := (noEventLost_iff_nodup _ _).mp lossless
  rw [gateLaw_iff]
  intro _ span _ signal
  left
  rw [lineEvents, windowEvents, spanEpisode, spanEvents, windowRefs_span distinct, positions_of_slice]
  exact signal

/-- A line with the results of two tool calls, of which the first failed. -/
def resultsLine : Str :=
  "\x7b\"type\":\"user\",\"message\":\x7b\"content\":[".toList ++
    "\x7b\"type\":\"tool_result\",\"tool_use_id\":\"t1\",\"is_error\":true,\"content\":\"refused\"\x7d," ++
    "\x7b\"type\":\"tool_result\",\"tool_use_id\":\"t2\",\"is_error\":false,\"content\":\"done\"\x7d]\x7d\x7d"

def resultBlock (toolUseId : Str) (isError : Bool) (content : Str) : Value :=
  .object [("type", .string "tool_result"), ("tool_use_id", .string toolUseId), ("is_error", .bool isError),
    ("content", .string content)]

def resultsValue : Value :=
  .object [("type", .string "user"),
    ("message", .object [("content", .array [resultBlock "t1" true "refused", resultBlock "t2" false "done"])])]

def resultsJson : SerdeJson := .onText resultsLine resultsValue []

def repairEvents : List SessionEvent :=
  [.toolResult 0 "t1" true none "refused", .toolResult 0 "t2" false none "done"]

def repairTwice : List SessionEvent :=
  [.toolResult 0 "t2" false none "done", .toolResult 0 "t2" false none "done"]

end SkillLayer.SessionExtractor
