import SkillLayer.SessionExtractor.Skeleton

/-! Where the steps of a skeleton come from, and when a skeleton is a repair. -/

namespace SkillLayer.SessionExtractor

open Domain

variable {json : SerdeJson}

def toolUseId? : SessionEvent → Option Str
  | .toolCall _ toolUseId _ _ => some toolUseId
  | .fileEdit _ toolUseId _ _ => some toolUseId
  | _ => none

/-- The step that one event gives by itself. -/
def stepOf? (json : SerdeJson) : SessionEvent → Option MinedStep
  | .toolCall _ toolUseId name inputJson => some (toolCallStep json toolUseId name inputJson)
  | .fileEdit _ toolUseId path operation => some (fileEditStep toolUseId path operation)
  | _ => none

theorem toolUseId_stepOf (json : SerdeJson) (event : SessionEvent) :
    (stepOf? json event).map MinedStep.toolUseId = toolUseId? event := by
  cases event <;> rfl

theorem toolUseId_of_fileEditId {event : SessionEvent} {toolUseId : Str} (edits : fileEditId? event = some toolUseId) :
    toolUseId? event = some toolUseId := by
  cases event with
  | fileEdit index id path operation => exact edits
  | _ => cases edits

theorem isToolStep_of_toolUseId {event : SessionEvent} {toolUseId : Str} (named : toolUseId? event = some toolUseId) :
    isToolStep event = true := by
  cases event with
  | toolCall index id name inputJson => rfl
  | fileEdit index id path operation => rfl
  | _ => cases named

theorem exists_toolUseId {event : SessionEvent} (step : isToolStep event = true) :
    ∃ toolUseId, toolUseId? event = some toolUseId := by
  cases event with
  | toolCall index id name inputJson => exact ⟨id, rfl⟩
  | fileEdit index id path operation => exact ⟨id, rfl⟩
  | _ => cases step

/-! ### The kept events -/

/-- An edit, or a call whose id has no edit. -/
def eligible (fileEditIds : List Str) (event : SessionEvent) : Bool :=
  match event with
  | .fileEdit .. => true
  | .toolCall _ toolUseId _ _ => decide (toolUseId ∉ fileEditIds)
  | _ => false

theorem isToolStep_of_eligible {fileEditIds : List Str} {event : SessionEvent}
    (kept : eligible fileEditIds event = true) : isToolStep event = true := by
  cases event with
  | toolCall index id name inputJson => rfl
  | fileEdit index id path operation => rfl
  | _ => cases kept

theorem eligible_of_fileEditId {fileEditIds : List Str} {event : SessionEvent} {toolUseId : Str}
    (edits : fileEditId? event = some toolUseId) : eligible fileEditIds event = true := by
  cases event with
  | fileEdit index id path operation => rfl
  | _ => cases edits

/-- A call is eligible only when no event of the source edits a file under its id. -/
theorem fileEditId_of_eligible {fileEditIds : List Str} {event : SessionEvent} {toolUseId : Str}
    (kept : eligible fileEditIds event = true) (named : toolUseId? event = some toolUseId)
    (edited : toolUseId ∈ fileEditIds) : fileEditId? event = some toolUseId := by
  cases event with
  | toolCall index id name inputJson =>
    obtain rfl := Option.some.inj named
    exact absurd edited (of_decide_eq_true kept)
  | fileEdit index id path operation => exact named
  | _ => cases named

theorem eligible_of_unedited {fileEditIds : List Str} {event : SessionEvent} {toolUseId : Str}
    (named : toolUseId? event = some toolUseId) (unedited : toolUseId ∉ fileEditIds) :
    eligible fileEditIds event = true := by
  cases event with
  | toolCall index id name inputJson =>
    obtain rfl := Option.some.inj named
    exact decide_eq_true unedited
  | fileEdit index id path operation => rfl
  | _ => cases named

/-- The emitted steps are those of the eligible events that are first with their id. -/
theorem emitSteps_eq (fileEditIds seenIds : List Str) (events : List SessionEvent) :
    (emitSteps json fileEditIds seenIds events).map some =
      (keepFirsts toolUseId? (seenIds.map some) (events.filter (eligible fileEditIds))).map (stepOf? json) := by
  induction events generalizing seenIds with
  | nil => rfl
  | cons event rest ih =>
    cases event with
    | fileEdit index toolUseId path operation =>
      rw [emitSteps, List.filter_cons_of_pos rfl]
      by_cases seen : toolUseId ∈ seenIds
      · have known : toolUseId? (.fileEdit index toolUseId path operation) ∈ seenIds.map some :=
          List.mem_map_of_mem seen
        rw [if_pos seen, keepFirsts_seen known, ih]
      · have fresh : toolUseId? (.fileEdit index toolUseId path operation) ∉ seenIds.map some := by
          simpa [toolUseId?] using seen
        rw [if_neg seen, keepFirsts_fresh fresh, List.map_cons, ih]
        rfl
    | toolCall index toolUseId name inputJson =>
      rw [emitSteps]
      by_cases edited : toolUseId ∈ fileEditIds
      · rw [if_pos edited, List.filter_cons_of_neg (by simp [eligible, edited]), ih]
      · rw [if_neg edited, List.filter_cons_of_pos (by simp [eligible, edited])]
        by_cases seen : toolUseId ∈ seenIds
        · have known : toolUseId? (.toolCall index toolUseId name inputJson) ∈ seenIds.map some :=
            List.mem_map_of_mem seen
          rw [if_pos seen, keepFirsts_seen known, ih]
        · have fresh : toolUseId? (.toolCall index toolUseId name inputJson) ∉ seenIds.map some := by
            simpa [toolUseId?] using seen
          rw [if_neg seen, keepFirsts_fresh fresh, List.map_cons, ih]
          rfl
    | _ => exact ih seenIds

/-! ### Positions of an arc -/

section Arc

variable (arc : List SessionEvent)

/-- The order of two positions: by source line, and within a line as the events stand. -/
def Before (one two : Fin arc.length) : Prop :=
  arc[one].index < arc[two].index ∨ arc[one].index = arc[two].index ∧ one < two

def orderedPositions : List (Fin arc.length) :=
  ((List.finRange arc.length).filter fun position => isToolStep arc[position]).insertionSort
    fun one two => arc[one].index ≤ arc[two].index

def editedIds : List Str := (orderedEvents arc).filterMap fileEditId?

def stepPositions : List (Fin arc.length) :=
  keepFirsts (fun position => toolUseId? arc[position]) []
    ((orderedPositions arc).filter fun position => eligible (editedIds arc) arc[position])

theorem map_finRange_get : (List.finRange arc.length).map (fun position => arc[position]) = arc :=
  List.map_get_finRange arc

theorem orderedEvents_eq : orderedEvents arc = (orderedPositions arc).map fun position => arc[position] := by
  have sorted := List.map_insertionSort (r := fun one two : Fin arc.length => arc[one].index ≤ arc[two].index)
    (s := fun one two : SessionEvent => one.index ≤ two.index) (fun position => arc[position])
    ((List.finRange arc.length).filter fun position => isToolStep arc[position])
    fun one _ two _ => Iff.rfl
  rw [orderedPositions, sorted, orderedEvents]
  congr 1
  conv_lhs => rw [← map_finRange_get arc]
  rw [List.filter_map]
  rfl

theorem orderedPositions_arranged : (orderedPositions arc).Pairwise (Before arc) := by
  have rising : ((List.finRange arc.length).filter fun position => isToolStep arc[position]).Pairwise (· < ·) :=
    (List.pairwise_lt_finRange arc.length).filter _
  have : Std.Total fun one two : Fin arc.length => arc[one].index ≤ arc[two].index :=
    ⟨fun one two => Nat.le_total _ _⟩
  have : IsTrans (Fin arc.length) fun one two => arc[one].index ≤ arc[two].index :=
    ⟨fun _ _ _ => Nat.le_trans⟩
  refine (pairwise_insertionSort_stable rising).imp ?_
  intro one two both
  rcases Nat.lt_or_eq_of_le both.1 with less | same
  · exact .inl less
  · exact .inr ⟨same, both.2 same.ge⟩

variable {arc}

theorem mem_orderedPositions {position : Fin arc.length} :
    position ∈ orderedPositions arc ↔ isToolStep arc[position] = true := by
  rw [orderedPositions, List.mem_insertionSort, List.mem_filter]
  exact and_iff_right (List.mem_finRange position)

theorem mem_editedIds {toolUseId : Str} :
    toolUseId ∈ editedIds arc ↔ ∃ position : Fin arc.length, fileEditId? arc[position] = some toolUseId := by
  rw [editedIds, orderedEvents_eq, List.mem_filterMap]
  constructor
  · rintro ⟨event, member, edits⟩
    obtain ⟨position, -, rfl⟩ := List.mem_map.mp member
    exact ⟨position, edits⟩
  · rintro ⟨position, edits⟩
    have step := isToolStep_of_toolUseId (toolUseId_of_fileEditId edits)
    exact ⟨_, List.mem_map_of_mem (mem_orderedPositions.mpr step), edits⟩

theorem mem_eligiblePositions {position : Fin arc.length} :
    (position ∈ (orderedPositions arc).filter fun position => eligible (editedIds arc) arc[position]) ↔
      eligible (editedIds arc) arc[position] = true := by
  rw [List.mem_filter, mem_orderedPositions]
  exact and_iff_right_of_imp isToolStep_of_eligible

/-! ### The steps of an arc -/

/-- Steps taken from an arc, with the position of the one event that each is computed from. -/
structure Grounded (json : SerdeJson) (arc : List SessionEvent) (steps : List MinedStep)
    (kept : List (Fin arc.length)) : Prop where
  computed : steps.map some = kept.map fun position => stepOf? json arc[position]
  ordered : kept.Pairwise (Before arc)
  distinct : (steps.map MinedStep.toolUseId).Nodup
  covers : ∀ toolUseId, toolUseId ∈ steps.map MinedStep.toolUseId ↔
    ∃ event ∈ arc, toolUseId? event = some toolUseId
  edited : ∀ position ∈ kept, ∀ other : Fin arc.length, ∀ toolUseId,
    toolUseId? arc[position] = some toolUseId → fileEditId? arc[other] = some toolUseId →
      fileEditId? arc[position] = some toolUseId ∧ (other = position ∨ Before arc position other)
  called : ∀ position ∈ kept, fileEditId? arc[position] = none → ∀ other : Fin arc.length,
    toolUseId? arc[other] = toolUseId? arc[position] → other = position ∨ Before arc position other

theorem stepPositions_eligible {position : Fin arc.length} (kept : position ∈ stepPositions arc) :
    eligible (editedIds arc) arc[position] = true :=
  mem_eligiblePositions.mp ((keepFirsts_sublist _ _).subset kept)

/-- Among the eligible events of an id, the kept one comes first. -/
theorem stepPositions_earliest {position other : Fin arc.length} (kept : position ∈ stepPositions arc)
    (admitted : eligible (editedIds arc) arc[other] = true)
    (same : toolUseId? arc[other] = toolUseId? arc[position]) : other = position ∨ Before arc position other := by
  have arranged := (orderedPositions_arranged arc).filter fun position => eligible (editedIds arc) arc[position]
  exact keepFirsts_earliest arranged kept (mem_eligiblePositions.mpr admitted) same

/-- Every id of the arc has an eligible event: an edit, or else each of its calls. -/
theorem exists_eligible {event : SessionEvent} (member : event ∈ arc) {toolUseId : Str}
    (named : toolUseId? event = some toolUseId) :
    ∃ position : Fin arc.length, eligible (editedIds arc) arc[position] = true ∧
      toolUseId? arc[position] = some toolUseId := by
  by_cases edited : toolUseId ∈ editedIds arc
  · obtain ⟨position, edits⟩ := mem_editedIds.mp edited
    exact ⟨position, eligible_of_fileEditId edits, toolUseId_of_fileEditId edits⟩
  · obtain ⟨position, rfl⟩ := List.mem_iff_get.mp member
    exact ⟨position, eligible_of_unedited named edited, named⟩

theorem mem_ids_stepPositions {toolUseId : Str} :
    some toolUseId ∈ (stepPositions arc).map (fun position => toolUseId? arc[position]) ↔
      ∃ event ∈ arc, toolUseId? event = some toolUseId := by
  rw [stepPositions, mem_keys_keepFirsts]
  constructor
  · rintro ⟨-, inMap⟩
    obtain ⟨position, -, named⟩ := List.mem_map.mp inMap
    exact ⟨arc[position], List.getElem_mem _, named⟩
  · rintro ⟨event, member, named⟩
    obtain ⟨position, admitted, same⟩ := exists_eligible member named
    exact ⟨List.not_mem_nil, List.mem_map.mpr ⟨position, mem_eligiblePositions.mpr admitted, same⟩⟩

theorem buildStepsDeduplicated_eq (json : SerdeJson) (arc : List SessionEvent) :
    (buildStepsDeduplicated json arc).map some =
      (stepPositions arc).map fun position => stepOf? json arc[position] := by
  have steps : (emitSteps json (editedIds arc) [] (orderedEvents arc)).map some = _ := emitSteps_eq _ _ _
  rw [orderedEvents_eq, List.filter_map, List.map_nil, keepFirsts_map, List.map_map, ← orderedEvents_eq] at steps
  exact steps

theorem ids_buildStepsDeduplicated (json : SerdeJson) (arc : List SessionEvent) :
    ((buildStepsDeduplicated json arc).map MinedStep.toolUseId).map some =
      (stepPositions arc).map fun position => toolUseId? arc[position] := by
  have steps := congrArg (List.map (Option.map MinedStep.toolUseId)) (buildStepsDeduplicated_eq json arc)
  rw [List.map_map, List.map_map] at steps
  rw [List.map_map]
  refine steps.trans (List.map_congr_left fun position _ => ?_)
  exact toolUseId_stepOf json arc[position]

theorem buildStepsDeduplicated_grounded (json : SerdeJson) (arc : List SessionEvent) :
    Grounded json arc (buildStepsDeduplicated json arc) (stepPositions arc) where
  computed := buildStepsDeduplicated_eq json arc
  ordered := ((orderedPositions_arranged arc).filter _).sublist (keepFirsts_sublist _ _)
  distinct := by
    have distinct : ((stepPositions arc).map fun position => toolUseId? arc[position]).Nodup :=
      nodup_keys_keepFirsts [] _
    rw [← ids_buildStepsDeduplicated json arc] at distinct
    exact distinct.of_map some
  covers toolUseId := by
    rw [← mem_ids_stepPositions, ← ids_buildStepsDeduplicated json arc]
    exact (List.mem_map_of_injective (Option.some_injective _)).symm
  edited position kept other toolUseId named edits := by
    have inEdits : toolUseId ∈ editedIds arc := mem_editedIds.mpr ⟨other, edits⟩
    refine ⟨fileEditId_of_eligible (stepPositions_eligible kept) named inEdits, ?_⟩
    exact stepPositions_earliest kept (eligible_of_fileEditId edits)
      ((toolUseId_of_fileEditId edits).trans named.symm)
  called position kept calls other same := by
    obtain ⟨toolUseId, named⟩ := exists_toolUseId (isToolStep_of_eligible (stepPositions_eligible kept))
    have unedited : toolUseId ∉ editedIds arc := by
      intro inEdits
      rw [fileEditId_of_eligible (stepPositions_eligible kept) named inEdits] at calls
      cases calls
    exact stepPositions_earliest kept (eligible_of_unedited (same.trans named) unedited) same

end Arc

/-! ### The arc of an episode -/

/-- Where the resolution arc opens: behind the first failing result. -/
structure OpensAt (events before : List SessionEvent) (trigger : SessionEvent) (after : List SessionEvent) :
    Prop where
  split : events = before ++ trigger :: after
  quiet : ∀ event ∈ before, isFailure event = false
  fails : isFailure trigger = true

theorem OpensAt.cons {events before after : List SessionEvent} {trigger event : SessionEvent}
    (opens : OpensAt events before trigger after) (quiet : isFailure event = false) :
    OpensAt (event :: events) (event :: before) trigger after where
  split := by rw [opens.split, List.cons_append]
  quiet := List.forall_mem_cons.mpr ⟨quiet, opens.quiet⟩
  fails := opens.fails

theorem splitAtTrigger_quiet {event : SessionEvent} (quiet : isFailure event = false) (rest : List SessionEvent) :
    splitAtTrigger (event :: rest) = splitAtTrigger rest := by
  cases event with
  | toolResult index toolUseId isError exitCode output => exact if_neg (Bool.eq_false_iff.mp quiet)
  | _ => rfl

theorem splitAtTrigger_fails {event : SessionEvent} (fails : isFailure event = true) (rest : List SessionEvent) :
    ∃ output exitCode, splitAtTrigger (event :: rest) = some (output, exitCode, rest) := by
  cases event with
  | toolResult index toolUseId isError exitCode output => exact ⟨output, exitCode, if_pos fails⟩
  | _ => cases fails

/-- Either nothing fails, or the split is at the first failure. -/
theorem splitAtTrigger_cases (events : List SessionEvent) :
    ((∀ event ∈ events, isFailure event = false) ∧ splitAtTrigger events = none) ∨
      ∃ before trigger after output exitCode, OpensAt events before trigger after ∧
        splitAtTrigger events = some (output, exitCode, after) := by
  induction events with
  | nil => exact .inl ⟨List.forall_mem_nil _, rfl⟩
  | cons event rest ih =>
    cases fails : isFailure event with
    | true =>
      obtain ⟨output, exitCode, found⟩ := splitAtTrigger_fails fails rest
      exact .inr ⟨[], event, rest, output, exitCode, ⟨rfl, List.forall_mem_nil _, fails⟩, found⟩
    | false =>
      rw [splitAtTrigger_quiet fails]
      rcases ih with ⟨quiet, none⟩ | ⟨before, trigger, after, output, exitCode, opens, found⟩
      · exact .inl ⟨List.forall_mem_cons.mpr ⟨fails, quiet⟩, none⟩
      · exact .inr ⟨event :: before, trigger, after, output, exitCode, opens.cons fails, found⟩

def Unsettled (event : SessionEvent) : Prop := isSuccess event = false ∧ isFailure event = false

/-- The end that the scan reports is behind a success that no other result follows. -/
theorem lastSuccessEnd_eq_some {found : Option Nat} {position stop : Nat} {events : List SessionEvent}
    (ends : lastSuccessEnd found position events = some stop) :
    (found = some stop ∧ ∀ event ∈ events, Unsettled event) ∨
      ∃ front closing back, events = front ++ closing :: back ∧ isSuccess closing = true ∧
        (∀ event ∈ back, Unsettled event) ∧ stop = position + front.length + 1 := by
  induction events generalizing found position with
  | nil => exact .inl ⟨ends, List.forall_mem_nil _⟩
  | cons event rest ih =>
    rcases ih ends with ⟨kept, quiet⟩ | ⟨front, closing, back, rfl, succeeds, quiet, rfl⟩
    · cases succeeds : isSuccess event with
      | true =>
        rw [if_pos succeeds] at kept
        exact .inr ⟨[], event, rest, rfl, succeeds, quiet, (Option.some.inj kept).symm⟩
      | false =>
        rw [if_neg (Bool.eq_false_iff.mp succeeds)] at kept
        cases fails : isFailure event with
        | true =>
          rw [if_pos fails] at kept
          cases kept
        | false =>
          rw [if_neg (Bool.eq_false_iff.mp fails)] at kept
          exact .inl ⟨kept, List.forall_mem_cons.mpr ⟨⟨succeeds, fails⟩, quiet⟩⟩
    · refine .inr ⟨event :: front, closing, back, rfl, succeeds, quiet, ?_⟩
      rw [List.length_cons]
      omega

/-- The arc closes at a success that no other result follows, or takes all the remaining events. -/
theorem resolutionEvents_cases (after : List SessionEvent) :
    (∃ front closing back, after = front ++ closing :: back ∧ isSuccess closing = true ∧
      (∀ event ∈ back, Unsettled event) ∧ resolutionEvents after = front ++ [closing]) ∨
        resolutionEvents after = after := by
  unfold resolutionEvents findResolutionArcEnd
  cases ends : lastSuccessEnd none 0 after with
  | none => exact .inr (List.take_length)
  | some stop =>
    rcases lastSuccessEnd_eq_some ends with ⟨none, -⟩ | ⟨front, closing, back, rfl, succeeds, quiet, rfl⟩
    · cases none
    · refine .inl ⟨front, closing, back, rfl, succeeds, quiet, ?_⟩
      rw [Option.getD_some, Nat.zero_add, List.take_length_add_append, List.take_succ_cons, List.take_zero]

theorem resolutionEvents_of_unresolved {after : List SessionEvent}
    (unresolved : ∀ event ∈ after, isSuccess event = false) : resolutionEvents after = after := by
  rcases resolutionEvents_cases after with ⟨front, closing, back, rfl, succeeds, -⟩ | all
  · rw [unresolved closing (by simp)] at succeeds
    cases succeeds
  · exact all

theorem splitAtTrigger_of_opensAt {events before after : List SessionEvent} {trigger : SessionEvent}
    (opens : OpensAt events before trigger after) :
    ∃ output exitCode, splitAtTrigger events = some (output, exitCode, after) := by
  obtain ⟨rfl, quiet, fails⟩ := opens
  induction before with
  | nil => exact splitAtTrigger_fails fails after
  | cons event rest ih =>
    rw [List.cons_append, splitAtTrigger_quiet (quiet event List.mem_cons_self)]
    exact ih fun other member => quiet other (List.mem_cons_of_mem _ member)

/-! ### The mined skeleton -/

def minedSteps (json : SerdeJson) (events : List SessionEvent) : List MinedStep :=
  (mineSkeleton json events).elim [] ProcedureSkeleton.steps

theorem mineSkeleton_quiet {events : List SessionEvent} (none : splitAtTrigger events = none) :
    mineSkeleton json events = Option.none := by
  rw [mineSkeleton, none]

theorem mineSkeleton_of_split {events after : List SessionEvent} {output : Str} {exitCode : Option Int}
    (found : splitAtTrigger events = some (output, exitCode, after)) :
    mineSkeleton json events =
      if (buildStepsDeduplicated json (resolutionEvents after)).isEmpty then none
      else some ⟨buildStepsDeduplicated json (resolutionEvents after), truncateFailureText output 512, exitCode⟩ := by
  rw [mineSkeleton, found]

theorem mineSkeleton_eq_none {events after : List SessionEvent} {output : Str} {exitCode : Option Int}
    (found : splitAtTrigger events = some (output, exitCode, after)) :
    mineSkeleton json events = none ↔ buildStepsDeduplicated json (resolutionEvents after) = [] := by
  rw [mineSkeleton_of_split found]
  cases steps : buildStepsDeduplicated json (resolutionEvents after) <;> simp

theorem minedSteps_of_split {events after : List SessionEvent} {output : Str} {exitCode : Option Int}
    (found : splitAtTrigger events = some (output, exitCode, after)) :
    minedSteps json events = buildStepsDeduplicated json (resolutionEvents after) := by
  rw [minedSteps, mineSkeleton_of_split found]
  cases steps : buildStepsDeduplicated json (resolutionEvents after) <;> rfl

/-- An episode without a failure has no skeleton; the steps of any other are those of the calls and
edits of its arc, one for every id, in source order, an edit before the calls of its id. -/
theorem mineSkeleton_grounded (json : SerdeJson) (events : List SessionEvent) :
    ((∀ event ∈ events, isFailure event = false) ∧ mineSkeleton json events = none) ∨
      ∃ before trigger after, OpensAt events before trigger after ∧
        ∃ kept, Grounded json (resolutionEvents after) (minedSteps json events) kept := by
  rcases splitAtTrigger_cases events with ⟨quiet, none⟩ | ⟨before, trigger, after, output, exitCode, opens, found⟩
  · exact .inl ⟨quiet, mineSkeleton_quiet none⟩
  · refine .inr ⟨before, trigger, after, opens, stepPositions _, ?_⟩
    rw [minedSteps_of_split found]
    exact buildStepsDeduplicated_grounded json _

/-- A failing command, a file read before it is edited, and the command passing again. -/
def repairEpisode : List SessionEvent :=
  [.toolResult 0 "run" true (some 101) "error", .toolCall 1 "edit" "Edit" "{}", .fileEdit 1 "edit" "a.rs" "edit",
    .toolCall 2 "run" "Bash" "{}", .toolResult 3 "run" false (some 0) "ok", .toolCall 4 "later" "Read" "{}"]

example (json : SerdeJson) : (minedSteps json repairEpisode).map MinedStep.toolName = ["edit", "Bash"] := rfl

/-! ### Repairs -/

/-- Some result fails and a later one succeeds. -/
def FailsThenPasses (events : List SessionEvent) : Prop :=
  ∃ before failing after, events = before ++ failing :: after ∧ isFailure failing = true ∧
    ∃ passing ∈ after, isSuccess passing = true

theorem failsThenPasses_iff {events before after : List SessionEvent} {trigger : SessionEvent}
    (opens : OpensAt events before trigger after) :
    FailsThenPasses events ↔ ∃ passing ∈ after, isSuccess passing = true := by
  constructor
  · rintro ⟨front, failing, rest, split, fails, passing, later, succeeds⟩
    refine ⟨passing, ?_, succeeds⟩
    rcases List.append_eq_append_iff.mp (opens.split.symm.trans split) with ⟨more, -, behind⟩ | ⟨more, fewer, ahead⟩
    · cases more with
      | nil =>
        obtain ⟨-, rfl⟩ := List.cons.inj behind
        exact later
      | cons head tail =>
        obtain ⟨-, rfl⟩ := List.cons.inj behind
        exact List.mem_append_right _ (List.mem_cons_of_mem _ later)
    · cases more with
      | nil =>
        obtain ⟨-, rfl⟩ := List.cons.inj ahead
        exact later
      | cons head tail =>
        obtain ⟨rfl, -⟩ := List.cons.inj ahead
        rw [opens.quiet failing (by simp [fewer])] at fails
        cases fails
  · intro passes
    exact ⟨before, trigger, after, opens.split, opens.fails, passes⟩

theorem buildStepsDeduplicated_eq_nil {arc : List SessionEvent} :
    buildStepsDeduplicated json arc = [] ↔ ∀ event ∈ arc, isToolStep event = false := by
  have covers := (buildStepsDeduplicated_grounded json arc).covers
  constructor
  · intro none event member
    by_contra step
    obtain ⟨toolUseId, named⟩ := exists_toolUseId (Bool.eq_true_of_not_eq_false step)
    have used := (covers toolUseId).mpr ⟨event, member, named⟩
    rw [none] at used
    cases used
  · intro idle
    rw [List.eq_nil_iff_forall_not_mem]
    intro step member
    obtain ⟨event, inArc, named⟩ := (covers step.toolUseId).mp (List.mem_map_of_mem member)
    exact Bool.eq_false_iff.mp (idle event inArc) (isToolStep_of_toolUseId named)

/-- What an episode comes to is a repair whenever it is a skeleton, and a fallback otherwise. -/
structure AlwaysRepair (json : SerdeJson) (twoDecimals : Binary32 → Str) (events : List SessionEvent) : Prop where
  mined : ∀ skeleton, mineSkeleton json events = some skeleton → FailsThenPasses events
  mapped : ∀ labeler candidate, mapEpisode json twoDecimals labeler events = .ok (.skeleton candidate) →
    FailsThenPasses events
  otherwise : ¬ FailsThenPasses events → ∀ labeler, ∃ reason,
    mapEpisode json twoDecimals labeler events = .ok (.proseFallback reason)

theorem mapEpisode_of_unmined {events : List SessionEvent} (none : mineSkeleton json events = Option.none)
    (twoDecimals : Binary32 → Str) (labeler : ProcedureSkeleton → Except SkeletonError SkeletonLabel) :
    mapEpisode json twoDecimals labeler events =
      .ok (.proseFallback "no actionable tool arc found in episode events") := by
  rw [mapEpisode, none]

theorem alwaysRepair_iff_mined (twoDecimals : Binary32 → Str) {events : List SessionEvent} :
    AlwaysRepair json twoDecimals events ↔
      (mineSkeleton json events = none ∨ FailsThenPasses events) := by
  constructor
  · intro always
    cases mined : mineSkeleton json events with
    | none => exact .inl rfl
    | some skeleton => exact .inr (always.mined skeleton mined)
  · rintro (none | passes)
    · refine ⟨?_, ?_, ?_⟩
      · intro skeleton mined
        rw [none] at mined
        cases mined
      · intro labeler candidate mapped
        rw [mapEpisode_of_unmined none] at mapped
        cases mapped
      · intro _ labeler
        exact ⟨_, mapEpisode_of_unmined none twoDecimals labeler⟩
    · exact ⟨fun _ _ => passes, fun _ _ _ => passes, fun fails => absurd passes fails⟩

/-- An episode is mapped as documented exactly when behind its first failure, if it has one,
something succeeds or no tool is used. -/
theorem alwaysRepair_iff (json : SerdeJson) (twoDecimals : Binary32 → Str) (events : List SessionEvent) :
    AlwaysRepair json twoDecimals events ↔
      ∀ before trigger after, OpensAt events before trigger after →
        (∃ event ∈ after, isSuccess event = true) ∨ ∀ event ∈ after, isToolStep event = false := by
  rw [alwaysRepair_iff_mined]
  constructor
  · intro documented before trigger after opens
    obtain ⟨output, exitCode, found⟩ := splitAtTrigger_of_opensAt opens
    rcases documented with none | passes
    · by_cases resolved : ∃ event ∈ after, isSuccess event = true
      · exact .inl resolved
      · have unresolved : ∀ event ∈ after, isSuccess event = false := by simpa using resolved
        rw [mineSkeleton_eq_none found, resolutionEvents_of_unresolved unresolved] at none
        exact .inr (buildStepsDeduplicated_eq_nil.mp none)
    · exact .inl ((failsThenPasses_iff opens).mp passes)
  · intro settled
    rcases splitAtTrigger_cases events with ⟨quiet, none⟩ | ⟨before, trigger, after, output, exitCode, opens, found⟩
    · exact .inl (mineSkeleton_quiet none)
    · rcases settled before trigger after opens with passes | idle
      · exact .inr ((failsThenPasses_iff opens).mpr passes)
      · refine .inl ((mineSkeleton_eq_none found).mpr (buildStepsDeduplicated_eq_nil.mpr ?_))
        intro event inArc
        exact idle event (List.mem_of_mem_take inArc)

/-- A failing test run after which a file is read, and no result. -/
def unresolvedEpisode : List SessionEvent :=
  [.toolCall 0 "run" "Bash" "{}", .toolResult 1 "run" true (some 101) "error", .toolCall 2 "read" "Read" "{}"]

theorem unresolvedEpisode_mined :
    ¬ AlwaysRepair ⟨fun _ => .error "expected value", fun _ => []⟩ (fun _ => "0.00") unresolvedEpisode := by
  rw [alwaysRepair_iff_mined]
  rintro (none | passes)
  · cases none
  · obtain ⟨before, failing, after, split, -, passing, later, succeeds⟩ := passes
    have unresolved : ∀ event ∈ unresolvedEpisode, isSuccess event = false := by
      simp [unresolvedEpisode, isSuccess, isPassing]
    have member : passing ∈ unresolvedEpisode := by simp [split, later]
    exact Bool.eq_false_iff.mp (unresolved passing member) succeeds

end SkillLayer.SessionExtractor
