import Mathlib.Data.List.Forall2
import SkillLayer.Maintenance.Placement
import SkillLayer.Maintenance.Promote

/-! What the passes write: a plan that is fixed before the first file is opened, followed in
order up to the first failure. -/

namespace SkillLayer.Maintenance

open Domain
open Infrastructure hiding Timestamp

/-- What holds between the steps of a pass, and what is known where it stops early, with the
files that were still to come. -/
structure PassDiscipline (F Err : Type) where
  ready : Workspace F → Prop
  stops : Err → List CreatedFile → Workspace F → Prop
  append : ∀ error rest more after, stops error rest after → stops error (rest ++ more) after

namespace PassDiscipline

variable {F Err Problem : Type}

/-- Nothing is asked, and a pass may stop anywhere. -/
def loose (F Err : Type) : PassDiscipline F Err := ⟨fun _ => True, fun _ _ _ => True, fun _ _ _ _ _ => trivial⟩

/-- A pass stops only at a file of its plan that is obstructed. -/
def settled (obstructed : Err → CreatedFile → Workspace F → Prop) : PassDiscipline F Err where
  ready _ := True
  stops error rest after := ∃ file later, rest = file :: later ∧ obstructed error file after
  append := by
    rintro error _ more after ⟨file, later, rfl, obstructed⟩
    exact ⟨file, later ++ more, List.cons_append, obstructed⟩

def reported (discipline : PassDiscipline F Problem) (report : Err → Problem) : PassDiscipline F Err where
  ready := discipline.ready
  stops error := discipline.stops (report error)
  append error := discipline.append (report error)

end PassDiscipline

variable {F Err Out : Type} {discipline : PassDiscipline F Err} {plan more : List CreatedFile}

/-- The action creates the files of the plan in order; if it ends well all of them, with a result
as promised. -/
def Follows (discipline : PassDiscipline F Err) (plan : List CreatedFile) (returns : Out → Prop)
    (action : EStateM Err (Workspace F) Out) : Prop :=
  ∀ before, discipline.ready before → Leads action before fun result after =>
    discipline.ready after ∧ ∃ done rest, plan = done ++ rest ∧ Extends before after done ∧
      match result with
      | .ok value => rest = [] ∧ returns value
      | .error error => discipline.stops error rest after

theorem Follows.weaken {returns weaker : Out → Prop} {action : EStateM Err (Workspace F) Out}
    (follows : Follows discipline plan returns action) (implied : ∀ value, returns value → weaker value) :
    Follows discipline plan weaker action := by
  intro before ready
  apply (follows before ready).mono
  rintro result after ⟨stillReady, done, rest, split, extended, ended⟩
  refine ⟨stillReady, done, rest, split, extended, ?_⟩
  cases result with
  | ok value => exact ⟨ended.1, implied value ended.2⟩
  | error error => exact ended

theorem follows_pure {returns : Out → Prop} {value : Out} (promised : returns value) :
    Follows discipline [] returns (pure value) :=
  fun before ready => ⟨ready, [], [], rfl, Extends.refl before, rfl, promised⟩

theorem follows_bind {Value : Type} {returns : Value → Prop} {last : Out → Prop}
    {first : EStateM Err (Workspace F) Value} {second : Value → EStateM Err (Workspace F) Out}
    (leading : Follows discipline plan returns first)
    (trailing : ∀ value, returns value → Follows discipline more last (second value)) :
    Follows discipline (plan ++ more) last (first >>= second) := by
  intro before ready
  rw [leads_bind]
  apply (leading before ready).mono
  rintro result between ⟨readyThen, done, rest, split, extended, ended⟩
  cases result with
  | error error =>
    refine ⟨readyThen, done, rest ++ more, ?_, extended, discipline.append _ _ _ _ ended⟩
    rw [split, List.append_assoc]
  | ok value =>
    obtain ⟨rfl, promised⟩ := ended
    apply (trailing value promised between readyThen).mono
    rintro result after ⟨stillReady, doneThen, rest, splitThen, extendedThen, ended⟩
    refine ⟨stillReady, done ++ doneThen, rest, ?_, extended.trans extendedThen, ended⟩
    rw [split, splitThen, List.append_nil, List.append_assoc]

/-- A decision made before the writing: when it fails, nothing of the plan is done. -/
theorem follows_ofExcept_bind {Value : Type} {returns : Out → Prop} {decision : Except Err Value}
    {next : Value → EStateM Err (Workspace F) Out}
    (decided : ∀ value, decision = .ok value → Follows discipline plan returns (next value))
    (failed : ∀ error, decision = .error error → ∀ after, discipline.stops error plan after) :
    Follows discipline plan returns (ofExcept decision >>= next) := by
  intro before ready
  rw [leads_ofExcept_bind]
  cases decision with
  | ok value => exact decided value rfl before ready
  | error error => exact ⟨ready, [], plan, rfl, Extends.refl before, failed error rfl before⟩

theorem follows_reportAs {Problem : Type} {discipline : PassDiscipline F Problem} {report : Err → Problem}
    {returns : Out → Prop} {action : EStateM Err (Workspace F) Out}
    (follows : Follows (discipline.reported report) plan returns action) :
    Follows discipline plan returns (reportAs report action) := by
  intro before ready
  have leads := follows before ready
  unfold Leads reportAs at *
  cases ran : action before <;> rw [ran] at leads <;> exact leads

/-- A loop follows the plans of its items one after the other. -/
theorem follows_collectEach {Item : Type} {planned : Item → List CreatedFile} {returns : Item → Out → Prop}
    {step : Item → EStateM Err (Workspace F) Out} {items : List Item}
    (each : ∀ item ∈ items, Follows discipline (planned item) (returns item) (step item)) :
    Follows discipline (items.flatMap planned) (List.Forall₂ returns items) (collectEach step items) := by
  induction items with
  | nil => exact follows_pure List.Forall₂.nil
  | cons item rest ih =>
    rw [List.flatMap_cons, collectEach]
    refine follows_bind (each item List.mem_cons_self) fun out promised => ?_
    rw [← List.append_nil (rest.flatMap planned)]
    refine follows_bind (ih fun other member => each other (List.mem_cons_of_mem _ member)) fun outs others => ?_
    exact follows_pure (List.Forall₂.cons promised others)

/-! ### Single placements -/

section Placements

variable {faults : HostFaults F} {scopeFailure : MergeError → Err} {report : Path → Str → Err} {scopeRoot : Path}
  {pendingDirectoryName directoryName body : Str} {recheck : Bool} {render : Except Err Str} {proposed : Proposed}

/-- The directories of a proposal file are there or can be made. -/
def HasSite (pendingDirectoryName : Str) (path : Path) (fs : Fs) : Prop :=
  ∃ scopeRoot directoryName, path = proposalPath scopeRoot pendingDirectoryName directoryName ∧
    ProposalSite scopeRoot pendingDirectoryName directoryName fs

theorem ProposalSite.of_hasSite {fs : Fs}
    (found : HasSite pendingDirectoryName (proposalPath scopeRoot pendingDirectoryName directoryName) fs) :
    ProposalSite scopeRoot pendingDirectoryName directoryName fs := by
  obtain ⟨otherRoot, otherName, same, site⟩ := found
  obtain ⟨rfl, tail⟩ := List.append_inj' same rfl
  simp only [List.cons.injEq] at tail
  rw [tail.2.1]
  exact site

/-- Why a file cannot be placed. -/
def Obstructed (pendingDirectoryName : Str) (report : Path → Str → Err) (error : Err) (file : CreatedFile)
    (workspace : Workspace F) : Prop :=
  ¬ HasSite pendingDirectoryName file.path workspace.fs ∨
    workspace.fs.node file.path ≠ none ∧ error = report file.path "File exists"

theorem follows_placeProposal :
    Follows (PassDiscipline.loose F Err) [⟨proposalPath scopeRoot pendingDirectoryName directoryName, proposed⟩]
      (fun path => path = proposalPath scopeRoot pendingDirectoryName directoryName)
      (placeProposal faults scopeFailure report scopeRoot pendingDirectoryName directoryName recheck render
        proposed) := by
  intro before _
  apply (leads_placeProposal _ _ _ _ _ _ _ _ before).mono
  rintro result after ⟨-, placed⟩
  cases result with
  | ok path => exact ⟨trivial, _, [], (List.append_nil _).symm, placed.2, rfl, placed.1⟩
  | error error =>
    rcases placed with nothing | ⟨made, -⟩
    · exact ⟨trivial, [], _, rfl, nothing, trivial⟩
    · exact ⟨trivial, _, [], (List.append_nil _).symm, made, trivial⟩

theorem follows_placeProposal_settled :
    Follows (PassDiscipline.settled (Obstructed pendingDirectoryName report) : PassDiscipline F Err)
      [⟨proposalPath scopeRoot pendingDirectoryName directoryName, proposed⟩]
      (fun path => path = proposalPath scopeRoot pendingDirectoryName directoryName)
      (placeProposal (HostFaults.none F) scopeFailure report scopeRoot pendingDirectoryName directoryName recheck
        (.ok body) proposed) := by
  intro before _
  apply ((leads_placeProposal _ _ _ _ _ _ _ _ before).and (placeProposal_obstructed before)).mono
  rintro result after ⟨⟨-, placed⟩, obstructed⟩
  cases result with
  | ok path => exact ⟨trivial, _, [], (List.append_nil _).symm, placed.2, rfl, placed.1⟩
  | error error =>
    rcases placed with nothing | ⟨-, broken⟩
    · refine ⟨trivial, [], _, rfl, nothing, _, [], rfl, ?_⟩
      rcases obstructed error rfl with noSite | inPlace
      · exact Or.inl fun found => noSite (ProposalSite.of_hasSite found)
      · exact Or.inr inPlace
    · exact absurd rfl broken

end Placements

/-! ### The plans -/

variable (services : ScopeServices F) (runner : PromotionPassRunner F)

/-- The file of a merge candidate. -/
def plannedMerge (config : MergeConfig F) (skills : List SkillSnapshot) (candidate : MergeCandidate F) :
    List CreatedFile :=
  match candidateSkills skills candidate with
  | .error _ => []
  | .ok (left, right) =>
    match outputRootForScope (resolveScope [left.scope, right.scope]) left right with
    | .error _ => []
    | .ok root =>
      [⟨proposalPath root config.pendingDirectoryName (mergeDirectoryName left right), .merge left right⟩]

def mergePlan (config : MergeConfig F) (skills : List SkillSnapshot) : List CreatedFile :=
  if skills.length < 2 then []
  else
    match findCandidates services.shared config skills with
    | .error _ => []
    | .ok candidates => candidates.flatMap (plannedMerge config skills)

def plannedPromotion (snapshot : SkillSnapshot) (evidence : PromotionEvidence) : CreatedFile :=
  ⟨proposalPath runner.writerConfig.globalScopeRoot runner.writerConfig.pendingDirectoryName
    (proposalDirectoryName snapshot.id), .promotion snapshot evidence⟩

def plannedSnapshot (snapshot : SkillSnapshot) : List CreatedFile :=
  match passesIntrinsicGate services runner snapshot with
  | .ok true => [plannedPromotion runner snapshot .intrinsic]
  | _ => []

def intrinsicPlan : List CreatedFile :=
  (runner.skillSnapshots.filter fun snapshot => snapshot.scope = .project).flatMap
    (plannedSnapshot services runner)

def plannedCluster (cluster : List ProjectSkillRow) : List CreatedFile :=
  if (distinctProjectRoots cluster).length < runner.recurrenceConfig.minDistinctRoots then []
  else
    match cluster with
    | [] => []
    | representative :: _ =>
      [plannedPromotion runner (projectSkillRowToSnapshot representative)
        (.recurrence (distinctProjectRoots cluster).length)]

def recurrencePlan (fetched : Except Str (List ProjectSkillRow)) : List CreatedFile :=
  if !runner.recurrenceConfigured then []
  else
    match fetchProjectSkills fetched with
    | .error _ => []
    | .ok projectSkills =>
      match recurrenceClusters services runner projectSkills with
      | .error _ => []
      | .ok clusters => clusters.flatMap (plannedCluster runner)

def promotionPlan (fetched : Except Str (List ProjectSkillRow)) : List CreatedFile :=
  intrinsicPlan services runner ++ recurrencePlan services runner fetched

/-- The proposal that is returned for a created file. -/
def promotionOf : CreatedFile → Option PromotionProposal
  | ⟨path, .promotion skill evidence⟩ =>
    some ⟨path, [skill.id], [skill.scope], .global, evidence, [skill.sourcePath]⟩
  | _ => none

/-! ### The passes follow their plans -/

/-- The proposals of an item of a loop are those of its planned files. -/
def Returns {Item : Type} (planned : Item → List CreatedFile) (item : Item) (proposals : List PromotionProposal) :
    Prop :=
  proposals = (planned item).filterMap promotionOf

theorem flatten_eq_filterMap {Item : Type} {planned : Item → List CreatedFile} {items : List Item}
    {outs : List (List PromotionProposal)}
    (each : List.Forall₂ (Returns planned) items outs) :
    outs.flatten = (items.flatMap planned).filterMap promotionOf := by
  induction each with
  | nil => rfl
  | cons same _ ih => rw [List.flatten_cons, List.flatMap_cons, List.filterMap_append, ← same, ih]

section PromotionPass

variable {services runner} {faults : HostFaults F} {now : Timestamp} {discipline : PassDiscipline F CronError}
  {fetched : Except Str (List ProjectSkillRow)}

/-- A single promotion is written, or stops as the discipline says. -/
def Promotes (services : ScopeServices F) (faults : HostFaults F) (runner : PromotionPassRunner F)
    (now : Timestamp) (discipline : PassDiscipline F CronError) (snapshot : SkillSnapshot)
    (evidence : PromotionEvidence) : Prop :=
  Follows discipline [plannedPromotion runner snapshot evidence]
    (fun proposal => promotionOf (plannedPromotion runner snapshot evidence) = some proposal)
    (proposePromotion services faults runner now snapshot evidence)

/-- The promotion as the single result of a step. -/
theorem Promotes.single {snapshot : SkillSnapshot} {evidence : PromotionEvidence}
    (promotes : Promotes services faults runner now discipline snapshot evidence) :
    Follows discipline [plannedPromotion runner snapshot evidence]
      (fun proposals => proposals = [plannedPromotion runner snapshot evidence].filterMap promotionOf)
      (do return [← proposePromotion services faults runner now snapshot evidence]) := by
  rw [← List.append_nil [plannedPromotion runner snapshot evidence]]
  refine follows_bind promotes fun proposal same => follows_pure ?_
  rw [List.append_nil, List.filterMap_cons, same]
  rfl

theorem follows_evaluateSnapshot {snapshot : SkillSnapshot}
    (promotes : plannedSnapshot services runner snapshot = [plannedPromotion runner snapshot .intrinsic] →
      Promotes services faults runner now discipline snapshot .intrinsic)
    (undecided : ∀ error, passesIntrinsicGate services runner snapshot = .error error →
      ∀ after, discipline.stops error [] after) :
    Follows discipline (plannedSnapshot services runner snapshot)
      (fun proposals => Returns (plannedSnapshot services runner) snapshot proposals)
      (evaluateSnapshot services faults runner now snapshot) := by
  refine follows_ofExcept_bind ?_ ?_
  · intro passed gate
    cases passed with
    | false =>
      have planned : plannedSnapshot services runner snapshot = [] := by rw [plannedSnapshot, gate]
      unfold Returns
      rw [planned]
      exact follows_pure rfl
    | true =>
      have planned : plannedSnapshot services runner snapshot =
          [plannedPromotion runner snapshot .intrinsic] := by rw [plannedSnapshot, gate]
      unfold Returns
      rw [planned]
      exact (promotes planned).single
  · intro error gate after
    rw [plannedSnapshot, gate]
    exact undecided error gate after

theorem follows_runIntrinsicPass
    (promotes : ∀ snapshot ∈ runner.skillSnapshots,
      plannedSnapshot services runner snapshot = [plannedPromotion runner snapshot .intrinsic] →
      snapshot.scope = .project → Promotes services faults runner now discipline snapshot .intrinsic)
    (undecided : ∀ snapshot ∈ runner.skillSnapshots, snapshot.scope = .project → ∀ error,
      passesIntrinsicGate services runner snapshot = .error error → ∀ after, discipline.stops error [] after) :
    Follows discipline (intrinsicPlan services runner)
      (fun proposals => proposals = (intrinsicPlan services runner).filterMap promotionOf)
      (runIntrinsicPass services faults runner now) := by
  unfold runIntrinsicPass
  have each : Follows discipline (intrinsicPlan services runner)
      (List.Forall₂ (Returns (plannedSnapshot services runner))
        (runner.skillSnapshots.filter fun snapshot => snapshot.scope = .project))
      (collectEach (evaluateSnapshot services faults runner now)
        (runner.skillSnapshots.filter fun snapshot => snapshot.scope = .project)) := by
    refine follows_collectEach fun snapshot member => ?_
    obtain ⟨known, isProject⟩ := List.mem_filter.mp member
    exact follows_evaluateSnapshot (fun planned => promotes snapshot known planned (by simpa using isProject))
      (undecided snapshot known (by simpa using isProject))
  rw [← List.append_nil (intrinsicPlan services runner)]
  refine follows_bind each fun outs returned => follows_pure ?_
  rw [List.append_nil]
  exact flatten_eq_filterMap returned

theorem follows_proposeCluster {cluster : List ProjectSkillRow}
    (promotes : ∀ snapshot evidence, plannedPromotion runner snapshot evidence ∈ plannedCluster runner cluster →
      Promotes services faults runner now discipline snapshot evidence) :
    Follows discipline (plannedCluster runner cluster)
      (fun proposals => Returns (plannedCluster runner) cluster proposals)
      (proposeCluster services faults runner now cluster) := by
  unfold Returns proposeCluster plannedCluster at *
  dsimp only at *
  split
  · exact follows_pure rfl
  · rename_i spans
    rw [if_neg spans] at promotes
    cases cluster with
    | nil => exact follows_pure rfl
    | cons representative others => exact (promotes _ _ (List.mem_singleton_self _)).single

theorem recurrencePlan_off (off : runner.recurrenceConfigured = false) :
    recurrencePlan services runner fetched = [] := by
  rw [recurrencePlan, off]
  rfl

theorem recurrencePlan_unfetched {error : CronError} (failed : fetchProjectSkills fetched = .error error) :
    recurrencePlan services runner fetched = [] := by
  rw [recurrencePlan, failed]
  split <;> rfl

theorem recurrencePlan_unclustered {projectSkills : List ProjectSkillRow} {error : CronError}
    (found : fetchProjectSkills fetched = .ok projectSkills)
    (failed : recurrenceClusters services runner projectSkills = .error error) :
    recurrencePlan services runner fetched = [] := by
  rw [recurrencePlan, found]
  dsimp only
  rw [failed]
  split <;> rfl

theorem recurrencePlan_clusters {projectSkills : List ProjectSkillRow} {clusters : List (List ProjectSkillRow)}
    (configured : runner.recurrenceConfigured = true)
    (found : fetchProjectSkills fetched = .ok projectSkills)
    (built : recurrenceClusters services runner projectSkills = .ok clusters) :
    recurrencePlan services runner fetched = clusters.flatMap (plannedCluster runner) := by
  rw [recurrencePlan, found, configured]
  dsimp only
  rw [built]
  rfl

/-- The answers that the recurrence path needs before it writes. -/
structure Unclustered (services : ScopeServices F) (runner : PromotionPassRunner F)
    (fetched : Except Str (List ProjectSkillRow)) (discipline : PassDiscipline F CronError) : Prop where
  unfetched : ∀ error, runner.recurrenceConfigured = true → fetchProjectSkills fetched = .error error →
    ∀ after, discipline.stops error [] after
  undecided : ∀ projectSkills error, runner.recurrenceConfigured = true →
    fetchProjectSkills fetched = .ok projectSkills →
    recurrenceClusters services runner projectSkills = .error error → ∀ after, discipline.stops error [] after

theorem follows_runRecurrencePass
    (promotes : ∀ snapshot evidence,
      plannedPromotion runner snapshot evidence ∈ recurrencePlan services runner fetched →
      Promotes services faults runner now discipline snapshot evidence)
    (unclustered : Unclustered services runner fetched discipline) :
    Follows discipline (recurrencePlan services runner fetched)
      (fun proposals => proposals = (recurrencePlan services runner fetched).filterMap promotionOf)
      (runRecurrencePass services faults runner now fetched) := by
  unfold runRecurrencePass
  cases configured : runner.recurrenceConfigured with
  | false =>
    rw [recurrencePlan_off configured]
    exact follows_pure rfl
  | true =>
    refine follows_ofExcept_bind (fun projectSkills found => ?_) fun error failed after => ?_
    · refine follows_ofExcept_bind (fun clusters built => ?_) fun error failed after => ?_
      · have planIs := recurrencePlan_clusters configured found built
        rw [planIs] at promotes ⊢
        have each : Follows discipline (clusters.flatMap (plannedCluster runner))
            (List.Forall₂ (Returns (plannedCluster runner)) clusters)
            (collectEach (proposeCluster services faults runner now) clusters) :=
          follows_collectEach fun cluster member => follows_proposeCluster fun snapshot evidence planned =>
            promotes snapshot evidence (List.mem_flatMap.mpr ⟨cluster, member, planned⟩)
        rw [← List.append_nil (clusters.flatMap (plannedCluster runner))]
        refine follows_bind each fun outs returned => follows_pure ?_
        rw [List.append_nil]
        exact flatten_eq_filterMap returned
      · rw [recurrencePlan_unclustered found failed]
        exact unclustered.undecided projectSkills error configured found failed after
    · rw [recurrencePlan_unfetched failed]
      exact unclustered.unfetched error configured failed after

/-- The promotion pass writes the promotions of both paths in order. -/
theorem follows_runPromotionPass
    (promotes : ∀ snapshot evidence,
      plannedPromotion runner snapshot evidence ∈ promotionPlan services runner fetched →
      Promotes services faults runner now discipline snapshot evidence)
    (undecided : ∀ snapshot ∈ runner.skillSnapshots, snapshot.scope = .project → ∀ error,
      passesIntrinsicGate services runner snapshot = .error error → ∀ after, discipline.stops error [] after)
    (unclustered : Unclustered services runner fetched discipline) :
    Follows discipline (promotionPlan services runner fetched)
      (fun proposals => proposals = (promotionPlan services runner fetched).filterMap promotionOf)
      (runPromotionPass services faults runner now fetched) := by
  unfold runPromotionPass promotionPlan
  have intrinsic : Follows discipline (intrinsicPlan services runner)
      (fun proposals => proposals = (intrinsicPlan services runner).filterMap promotionOf)
      (runIntrinsicPass services faults runner now) := by
    refine follows_runIntrinsicPass (fun snapshot known planned isProject => ?_) undecided
    refine promotes _ _ (List.mem_append_left _ (List.mem_flatMap.mpr ⟨snapshot, ?_, ?_⟩))
    · exact List.mem_filter.mpr ⟨known, by simpa using isProject⟩
    · rw [planned]
      exact List.mem_singleton_self _
  refine follows_bind intrinsic fun intrinsicProposals same => ?_
  rw [← List.append_nil (recurrencePlan services runner fetched)]
  refine follows_bind (follows_runRecurrencePass (fun snapshot evidence planned =>
    promotes snapshot evidence (List.mem_append_right _ planned)) unclustered) fun recurrenceProposals sameThen => ?_
  refine follows_pure ?_
  rw [List.append_nil, List.filterMap_append, same, sameThen]

theorem promotes_of_placed {placing : PassDiscipline F PromotionError} {snapshot : SkillSnapshot}
    {evidence : PromotionEvidence}
    (same : discipline.reported (fun error => .promotionPass error.display) = placing)
    (placed : Follows placing [plannedPromotion runner snapshot evidence]
      (fun path => path = (plannedPromotion runner snapshot evidence).path)
      (placeProposal faults .scopeRootInvalid promotionWriteFailure runner.writerConfig.globalScopeRoot
        runner.writerConfig.pendingDirectoryName (proposalDirectoryName snapshot.id) true
        (renderPromotionMarkdown services snapshot evidence now) (.promotion snapshot evidence))) :
    Promotes services faults runner now discipline snapshot evidence := by
  refine follows_reportAs ?_
  rw [same, writePromotionProposal, ← List.append_nil [plannedPromotion runner snapshot evidence]]
  refine follows_bind placed fun path here => follows_pure ?_
  rw [here]
  rfl

/-- Whatever fails, a promotion makes no file but its own. -/
theorem promotes_loose (snapshot : SkillSnapshot) (evidence : PromotionEvidence) :
    Promotes services faults runner now (PassDiscipline.loose F CronError) snapshot evidence :=
  promotes_of_placed rfl follows_placeProposal

theorem follows_promotionPass :
    Follows (PassDiscipline.loose F CronError) (promotionPlan services runner fetched)
      (fun proposals => proposals = (promotionPlan services runner fetched).filterMap promotionOf)
      (runPromotionPass services faults runner now fetched) :=
  follows_runPromotionPass (fun snapshot evidence _ => promotes_loose snapshot evidence)
    (fun _ _ _ _ _ _ => trivial) ⟨fun _ _ _ _ => trivial, fun _ _ _ _ _ _ => trivial⟩

end PromotionPass

/-! ### The merge pass -/

section MergePass

variable {services} {faults : HostFaults F} {now : Timestamp} {config : MergeConfig F} {skills : List SkillSnapshot}

theorem follows_emitAudit (report : Str → Err) (event : MaintenanceAuditEvent F)
    (refused : ∀ error, faults.emit event = some error → ∀ after, discipline.stops (report error) [] after)
    (steady : ∀ workspace audits, discipline.ready workspace → discipline.ready { workspace with audits }) :
    Follows discipline [] (fun _ => True) (emitAudit faults report event) := by
  intro before ready
  unfold Leads emitAudit
  cases answer : faults.emit event with
  | none =>
    refine ⟨steady _ _ ready, [], [], rfl, ?_, rfl, trivial⟩
    exact Extends.of_files (Fs.Gains.refl _) rfl
  | some error => exact ⟨ready, [], [], rfl, Extends.refl before, refused error answer before⟩

/-- A merge candidate is written through its own file, or stops as the discipline says. -/
def Merges (services : ScopeServices F) (faults : HostFaults F) (config : MergeConfig F)
    (skills : List SkillSnapshot) (now : Timestamp) (discipline : PassDiscipline F MergeError)
    (candidate : MergeCandidate F) : Prop :=
  Follows discipline (plannedMerge config skills candidate) (fun _ => True)
    (proposeMerge services.shared faults config skills now candidate)

theorem merges_of_placed {discipline : PassDiscipline F MergeError} {candidate : MergeCandidate F}
    (unresolved : ∀ error after, plannedMerge config skills candidate = [] → discipline.stops error [] after)
    (placed : ∀ left right root, plannedMerge config skills candidate =
        [⟨proposalPath root config.pendingDirectoryName (mergeDirectoryName left right), .merge left right⟩] →
      Follows discipline
        [⟨proposalPath root config.pendingDirectoryName (mergeDirectoryName left right), .merge left right⟩]
        (fun path => path = proposalPath root config.pendingDirectoryName (mergeDirectoryName left right))
        (placeProposal faults id mergeWriteFailure root config.pendingDirectoryName
          (mergeDirectoryName left right) false
          (renderMergeMarkdown services.shared left right (resolveScope [left.scope, right.scope])
            candidate.cosineSimilarity now) (.merge left right)))
    (emitted : ∀ event, Follows discipline [] (fun _ => True)
      (emitAudit faults MergeError.auditEmissionFailure event)) :
    Merges services faults config skills now discipline candidate := by
  unfold Merges proposeMerge
  refine follows_ofExcept_bind ?_ ?_
  · rintro ⟨left, right⟩ looked
    unfold writeMergeProposal
    refine follows_ofExcept_bind ?_ ?_
    · intro root resolved
      have planned : plannedMerge config skills candidate =
          [⟨proposalPath root config.pendingDirectoryName (mergeDirectoryName left right), .merge left right⟩] := by
        rw [plannedMerge, looked]
        dsimp only
        rw [resolved]
      rw [planned]
      change Follows discipline ([_] ++ ([] ++ [])) _ _
      refine follows_bind (placed left right root planned) fun path _ => ?_
      exact follows_bind (emitted _) fun _ _ => follows_pure trivial
    · intro error failed after
      have planned : plannedMerge config skills candidate = [] := by
        rw [plannedMerge, looked]
        dsimp only
        rw [failed]
      rw [planned]
      exact unresolved error after planned
  · intro error failed after
    have planned : plannedMerge config skills candidate = [] := by
      rw [plannedMerge, failed]
    rw [planned]
    exact unresolved error after planned

theorem follows_runMergePass {discipline : PassDiscipline F CronError}
    (merges : ∀ candidates, findCandidates services.shared config skills = .ok candidates →
      ∀ candidate ∈ candidates, Merges services faults config skills now
        (discipline.reported fun error => .mergePass error.display) candidate)
    (unfound : 2 ≤ skills.length → ∀ error, findCandidates services.shared config skills = .error error →
      ∀ after, discipline.stops (.mergePass error.display) [] after) :
    Follows discipline (mergePlan services config skills) (fun _ => True)
      (runMergePass services faults now config skills) := by
  unfold runMergePass mergePlan
  split
  · exact follows_pure trivial
  · rename_i several
    refine follows_reportAs (follows_ofExcept_bind ?_ ?_)
    · intro candidates found
      rw [found]
      exact (follows_collectEach (merges candidates found)).weaken fun _ _ => trivial
    · intro error failed after
      rw [failed]
      exact unfound (Nat.le_of_not_lt several) error failed after

/-- Whatever fails, the merge pass makes no files but those of its candidates. -/
theorem follows_mergePass :
    Follows (PassDiscipline.loose F CronError) (mergePlan services config skills) (fun _ => True)
      (runMergePass services faults now config skills) := by
  refine follows_runMergePass (fun candidates _ candidate _ => ?_) fun _ _ _ _ => trivial
  exact merges_of_placed (fun _ _ _ => trivial) (fun _ _ _ _ => follows_placeProposal)
    fun event => follows_emitAudit _ _ (fun _ _ _ => trivial) fun _ _ _ => trivial

end MergePass

end SkillLayer.Maintenance
