import SkillLayer.Maintenance.Recurrence

/-! Project-local identifiers: the texts that the promotion veto and the demotion scan inspect. -/

namespace SkillLayer.Maintenance

open Infrastructure hiding Timestamp
open Domain (Timestamp)

variable {F : Type}

/-- The token counts as a project-local identifier of the text. -/
def Names (tokens : List Str) (text token : Str) : Prop := token ∈ tokens ∧ token ≠ [] ∧ token <:+: text

theorem containsProjectLocalIdentifier_iff {text : Str} {tokens : List Str} :
    skillTextContainsProjectLocalIdentifier text tokens = true ↔ ∃ token, Names tokens text token := by
  simp [skillTextContainsProjectLocalIdentifier, Names]

theorem mem_dedupNeighbours {texts : List Str} {text : Str} : text ∈ dedupNeighbours texts ↔ text ∈ texts := by
  fun_induction dedupNeighbours texts with
  | case1 first rest ih => simp [ih]
  | case2 first second rest apart ih => simp [ih]
  | case3 texts => rfl

theorem mem_collectProjectLocalIdentifiers {text : Str} {tokens : List Str} {token : Str} :
    token ∈ collectProjectLocalIdentifiers text tokens ↔ Names tokens text token := by
  rw [collectProjectLocalIdentifiers, mem_dedupNeighbours, Str.sorted,
    (List.perm_insertionSort _ _).mem_iff, List.mem_filter]
  simp [Names]

/-! ### Promotion against demotion -/

/-- The same content as a global skill. -/
def SkillSnapshot.asGlobal (snapshot : SkillSnapshot) (sourcePaths : List Str) : GlobalSkillRow :=
  ⟨snapshot.id, snapshot.name, snapshot.description, snapshot.tags, sourcePaths⟩

theorem mem_findings {runner : PromotionPassRunner F} {globalSkills : List GlobalSkillRow} {row : GlobalSkillRow}
    {offending : List Str} :
    (row, offending) ∈ findings runner globalSkills ↔ row ∈ globalSkills ∧
      offending = collectProjectLocalIdentifiers row.semanticText runner.projectIdentifierTokens ∧
      ∃ token, Names runner.projectIdentifierTokens row.semanticText token := by
  have flagged : collectProjectLocalIdentifiers row.semanticText runner.projectIdentifierTokens ≠ [] ↔
      ∃ token, Names runner.projectIdentifierTokens row.semanticText token := by
    simp only [ne_eq, List.eq_nil_iff_forall_not_mem, mem_collectProjectLocalIdentifiers, not_forall, not_not]
  unfold findings
  split
  · rename_i noTokens
    rw [List.isEmpty_iff] at noTokens
    simp [noTokens, Names]
  · rw [← flagged]
    simp only [List.mem_filter, List.mem_map, Prod.mk.injEq, Bool.not_eq_true', List.isEmpty_eq_false_iff]
    constructor
    · rintro ⟨⟨skill, member, rfl, rfl⟩, some⟩
      exact ⟨member, rfl, some⟩
    · rintro ⟨member, rfl, some⟩
      exact ⟨⟨row, member, rfl, rfl⟩, some⟩

/-- The veto on the project skill and the scan of the same skill as a global one agree, and the
scan cites the identifiers that the veto saw. -/
structure Symmetric (runner : PromotionPassRunner F) (snapshot : SkillSnapshot) (row : GlobalSkillRow)
    (globalSkills : List GlobalSkillRow) : Prop where
  agree : skillTextContainsProjectLocalIdentifier snapshot.semanticText runner.projectIdentifierTokens = true ↔
    ∃ offending, (row, offending) ∈ findings runner globalSkills
  cited : ∀ offending, (row, offending) ∈ findings runner globalSkills → ∀ token,
    token ∈ offending ↔ Names runner.projectIdentifierTokens snapshot.semanticText token

theorem row_infix_snapshot (snapshot : SkillSnapshot) (sourcePaths : List Str) :
    (snapshot.asGlobal sourcePaths).semanticText <:+: snapshot.semanticText := by
  refine List.IsPrefix.isInfix ⟨'\n' :: Str.join ['\n'] snapshot.subunits, ?_⟩
  simp [GlobalSkillRow.semanticText, SkillSnapshot.asGlobal, SkillSnapshot.semanticText]

/-- Promotion and demotion agree on a skill exactly when every project-local identifier of its
text is one of its name and description. -/
theorem symmetric_iff (runner : PromotionPassRunner F) (snapshot : SkillSnapshot) (sourcePaths : List Str)
    (others more : List GlobalSkillRow) :
    Symmetric runner snapshot (snapshot.asGlobal sourcePaths)
        (others ++ snapshot.asGlobal sourcePaths :: more) ↔
      ∀ token, Names runner.projectIdentifierTokens snapshot.semanticText token →
        token <:+: snapshot.name ++ '\n' :: snapshot.description := by
  have listed : snapshot.asGlobal sourcePaths ∈ others ++ snapshot.asGlobal sourcePaths :: more := by simp
  have upward {token : Str}
      (named : Names runner.projectIdentifierTokens (snapshot.asGlobal sourcePaths).semanticText token) :
      Names runner.projectIdentifierTokens snapshot.semanticText token :=
    ⟨named.1, named.2.1, named.2.2.trans (row_infix_snapshot snapshot sourcePaths)⟩
  constructor
  · rintro ⟨agree, cited⟩ token named
    obtain ⟨offending, flagged⟩ := agree.mp (containsProjectLocalIdentifier_iff.mpr ⟨token, named⟩)
    have citedToken := (cited offending flagged token).mpr named
    obtain ⟨-, rfl, -⟩ := mem_findings.mp flagged
    exact (mem_collectProjectLocalIdentifiers.mp citedToken).2.2
  · intro inRow
    have same (token : Str) : Names runner.projectIdentifierTokens snapshot.semanticText token ↔
        Names runner.projectIdentifierTokens (snapshot.asGlobal sourcePaths).semanticText token :=
      ⟨fun named => ⟨named.1, named.2.1, inRow token named⟩, upward⟩
    constructor
    · rw [containsProjectLocalIdentifier_iff]
      constructor
      · rintro ⟨token, named⟩
        exact ⟨_, mem_findings.mpr ⟨listed, rfl, token, (same token).mp named⟩⟩
      · rintro ⟨offending, flagged⟩
        obtain ⟨-, -, token, named⟩ := mem_findings.mp flagged
        exact ⟨token, upward named⟩
    · intro offending flagged token
      obtain ⟨-, rfl, -⟩ := mem_findings.mp flagged
      rw [mem_collectProjectLocalIdentifiers, same]

/-- A skill whose only project-local identifier stands in a procedure. -/
def internalProcedure : SkillSnapshot :=
  ⟨"a", "deploy", "ship it", .project, [[], "p", "SKILL.md"], [], ["run acme-deploy"]⟩

/-- The veto holds the skill back, and the scan lets it pass as a global one. -/
theorem internalProcedure_passes_scan :
    skillTextContainsProjectLocalIdentifier internalProcedure.semanticText recurring.projectIdentifierTokens = true ∧
      findings recurring [internalProcedure.asGlobal []] = [] ∧
      ¬ ∀ (runner : PromotionPassRunner Nat) (snapshot : SkillSnapshot) (sourcePaths : List Str)
        (globalSkills : List GlobalSkillRow), snapshot.asGlobal sourcePaths ∈ globalSkills →
          Symmetric runner snapshot (snapshot.asGlobal sourcePaths) globalSkills := by
  have vetoed : skillTextContainsProjectLocalIdentifier internalProcedure.semanticText
      recurring.projectIdentifierTokens = true := by decide
  have unflagged : findings recurring [internalProcedure.asGlobal []] = [] := by decide
  refine ⟨vetoed, unflagged, fun always => ?_⟩
  have symmetric := always recurring internalProcedure [] [internalProcedure.asGlobal []] (List.mem_singleton_self _)
  obtain ⟨offending, flagged⟩ := symmetric.agree.mp vetoed
  rw [unflagged] at flagged
  cases flagged

/-! ### What is promoted -/

section Promoted

variable {services : ScopeServices F} {faults : HostFaults F} {runner : PromotionPassRunner F} {now : Timestamp}
  {fetched : Except Str (List ProjectSkillRow)}

/-- The promoted skills of some files name no project-local identifier. -/
def AllClean (tokens : List Str) (files : List CreatedFile) : Prop :=
  ∀ file ∈ files, ∀ skill evidence, file.proposed = .promotion skill evidence →
    ∀ token, ¬ Names tokens skill.semanticText token

/-- No row that stands for a component of enough projects names a project-local identifier. -/
def RepresentativesClean (services : ScopeServices F) (runner : PromotionPassRunner F)
    (fetched : Except Str (List ProjectSkillRow)) : Prop :=
  runner.recurrenceConfigured = true → ∀ projectSkills, fetched = .ok projectSkills →
    ∀ x, Represents services runner projectSkills x →
      skillTextContainsProjectLocalIdentifier
        (projectSkillRowToSnapshot ((embeddedRows services projectSkills).get x).1).semanticText
        runner.projectIdentifierTokens = false

theorem intrinsicPlan_clean : AllClean runner.projectIdentifierTokens (intrinsicPlan services runner) := by
  rintro file member skill evidence isPromotion token named
  obtain ⟨snapshot, -, planned⟩ := List.mem_flatMap.mp member
  unfold plannedSnapshot at planned
  split at planned
  · rename_i gate
    obtain rfl := List.mem_singleton.mp planned
    obtain ⟨rfl, -⟩ := Proposed.promotion.inj isPromotion
    unfold passesIntrinsicGate at gate
    rw [if_pos (containsProjectLocalIdentifier_iff.mpr ⟨token, named⟩)] at gate
    cases gate
  · cases planned

theorem mem_componentPromotions {projectSkills : List ProjectSkillRow} {file : CreatedFile} :
    file ∈ componentPromotions services runner projectSkills ↔
      ∃ x, Represents services runner projectSkills x ∧
        componentPromotion services runner projectSkills x = file := by
  simp [componentPromotions]

/-- The files of the components are clean exactly when their representatives are. -/
theorem componentPromotions_clean {projectSkills : List ProjectSkillRow} :
    AllClean runner.projectIdentifierTokens (componentPromotions services runner projectSkills) ↔
      ∀ x, Represents services runner projectSkills x →
        skillTextContainsProjectLocalIdentifier
          (projectSkillRowToSnapshot ((embeddedRows services projectSkills).get x).1).semanticText
          runner.projectIdentifierTokens = false := by
  constructor
  · intro clean x represents
    rw [Bool.eq_false_iff]
    intro vetoed
    obtain ⟨token, named⟩ := containsProjectLocalIdentifier_iff.mp vetoed
    exact clean _ (mem_componentPromotions.mpr ⟨x, represents, rfl⟩) _ _ rfl token named
  · intro clean file member skill evidence isPromotion token named
    obtain ⟨x, represents, rfl⟩ := mem_componentPromotions.mp member
    obtain ⟨rfl, -⟩ := Proposed.promotion.inj isPromotion
    have vetoed := containsProjectLocalIdentifier_iff.mpr ⟨token, named⟩
    rw [clean x represents] at vetoed
    cases vetoed

theorem recurrencePlan_clean (clean : RepresentativesClean services runner fetched) :
    AllClean runner.projectIdentifierTokens (recurrencePlan services runner fetched) := by
  intro file member
  cases configured : runner.recurrenceConfigured with
  | false =>
    rw [recurrencePlan_off configured] at member
    cases member
  | true =>
    cases fetched with
    | error error =>
      rw [recurrencePlan_unfetched rfl] at member
      cases member
    | ok projectSkills =>
      cases built : recurrenceClusters services runner projectSkills with
      | error error =>
        rw [recurrencePlan_unclustered rfl built] at member
        cases member
      | ok clusters =>
        exact componentPromotions_clean.mpr (clean configured projectSkills rfl) file
          ((recurrencePlan_perm configured built).subset member)

theorem promotionPlan_clean (clean : RepresentativesClean services runner fetched) :
    AllClean runner.projectIdentifierTokens (promotionPlan services runner fetched) := by
  intro file member
  rcases List.mem_append.mp member with intrinsic | recurrent
  · exact intrinsicPlan_clean file intrinsic
  · exact recurrencePlan_clean clean file recurrent

/-- A pass that ends well has clustered the rows. -/
theorem clusters_of_promoted {projectSkills : List ProjectSkillRow} {before after : Workspace F}
    {proposals : List PromotionProposal} (configured : runner.recurrenceConfigured = true)
    (ran : runPromotionPass services faults runner now (.ok projectSkills) before = .ok proposals after) :
    ∃ clusters, recurrenceClusters services runner projectSkills = .ok clusters := by
  obtain ⟨_, between, -, ran⟩ := bind_eq_ok.mp ran
  obtain ⟨_, _, finished, -⟩ := bind_eq_ok.mp ran
  exact clusters_of_finished configured finished

/-- The promotions of a pass name no project-local identifier when the representatives of the
components do not; and the promotions of a pass that ends well only then. -/
theorem promotions_clean_iff (services : ScopeServices F) (faults : HostFaults F) (runner : PromotionPassRunner F)
    (now : Timestamp) (fetched : Except Str (List ProjectSkillRow)) (before : Workspace F) :
    Leads (runPromotionPass services faults runner now fetched) before fun result after =>
      ∃ written, Extends before after written ∧
        match result with
        | .ok _ => AllClean runner.projectIdentifierTokens written ↔ RepresentativesClean services runner fetched
        | .error _ => RepresentativesClean services runner fetched →
          AllClean runner.projectIdentifierTokens written := by
  refine leads_of_ends ?_ ?_
  · intro proposals after ran
    obtain ⟨-, written, rest, split, extended, rfl, -⟩ := (follows_promotionPass before trivial).of_ok ran
    rw [List.append_nil] at split
    refine ⟨written, extended, ?_, ?_⟩
    · intro clean configured projectSkills found
      subst found
      obtain ⟨clusters, built⟩ := clusters_of_promoted configured ran
      refine componentPromotions_clean.mp fun file member => clean file ?_
      rw [← split]
      exact List.mem_append_right _ ((recurrencePlan_perm configured built).mem_iff.mpr member)
    · intro clean
      rw [← split]
      exact promotionPlan_clean clean
  · intro error after ran
    obtain ⟨-, written, rest, split, extended, -⟩ := (follows_promotionPass before trivial).of_error ran
    refine ⟨written, extended, fun clean file member => promotionPlan_clean clean file ?_⟩
    rw [split]
    exact List.mem_append_left _ member

/-- A skill of two projects that names one of them. -/
def internalSkillOfTwoProjects : List ProjectSkillRow :=
  [⟨"a", "deploy", "via acme", [], ["/p/one/.skills/a/SKILL.md"]⟩,
    ⟨"b", "deploy", "via acme", [], ["/p/two/.skills/b/SKILL.md"]⟩]

def createdBy {Err Value : Type} (result : EStateM.Result Err (Workspace F) Value) : List CreatedFile :=
  (afterwards result).created

/-- The recurrence path promotes a skill that names an identifier of one project. -/
theorem internalSkillOfTwoProjects_promoted :
    createdBy (runPromotionPass agreeing (HostFaults.none Nat) recurring 0 (.ok internalSkillOfTwoProjects)
        globalRootOnly) = [⟨[[], "g", ".skills", "promote--a", "SKILL.md.pending"], .promotion
          ⟨"a", "deploy", "via acme", .project, [[], "p", "one", ".skills", "a", "SKILL.md"], [], []⟩
          (.recurrence 2)⟩] ∧
      ¬ ∀ (services : ScopeServices Nat) (runner : PromotionPassRunner Nat) (rows : List ProjectSkillRow)
        (before : Workspace Nat), before.created = [] →
          AllClean runner.projectIdentifierTokens
            (createdBy (runPromotionPass services (HostFaults.none Nat) runner 0 (.ok rows) before)) := by
  have created : createdBy (runPromotionPass agreeing (HostFaults.none Nat) recurring 0
      (.ok internalSkillOfTwoProjects) globalRootOnly) =
      [⟨[[], "g", ".skills", "promote--a", "SKILL.md.pending"], .promotion
        ⟨"a", "deploy", "via acme", .project, [[], "p", "one", ".skills", "a", "SKILL.md"], [], []⟩
        (.recurrence 2)⟩] := by decide +kernel
  refine ⟨created, fun always => ?_⟩
  have clean := always agreeing recurring internalSkillOfTwoProjects globalRootOnly rfl
  rw [created] at clean
  exact clean _ (List.mem_singleton_self _) _ _ rfl "acme" (by unfold Names; decide)

end Promoted

end SkillLayer.Maintenance
