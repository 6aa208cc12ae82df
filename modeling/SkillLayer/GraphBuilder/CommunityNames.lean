import SkillLayer.Naming
import SkillLayer.GraphBuilder.Communities

/-! Distinct community names: tag labels, cluster labels and the unclustered rest of each
scope under one namespace. -/

namespace SkillLayer.GraphBuilder

open Domain

/-! ### Names of a scope -/

theorem communityName_injective {scope other : ScopeType} {suffix otherSuffix : Str} :
    communityName scope suffix = communityName other otherSuffix ↔
      scope = other ∧ suffix = otherSuffix := by
  constructor
  · intro same
    have initial (scope : ScopeType) (suffix : Str) :
        (communityName scope suffix).head? = (scopePrefixFor scope).head? := by
      cases scope <;> rfl
    have heads : (scopePrefixFor scope).head? = (scopePrefixFor other).head? := by
      rw [← initial scope suffix, same, initial]
    obtain rfl : scope = other := by
      revert heads
      cases scope <;> cases other <;> decide
    exact ⟨rfl, List.append_cancel_left same⟩
  · rintro ⟨rfl, rfl⟩
    rfl

theorem scopeFromDebugStr_debug (scope : ScopeType) : scopeFromDebugStr scope.debug = scope := by
  cases scope <;> decide

theorem debug_injective {scope other : ScopeType} : scope.debug = other.debug ↔ scope = other := by
  constructor
  · intro same
    rw [← scopeFromDebugStr_debug scope, same, scopeFromDebugStr_debug]
  · rintro rfl
    rfl

variable {F : Type} (services : CommunityServices F) (skills : List (BuiltSkill F))

/-! ### The backstop of cluster labels -/

/-- The label of the cluster, its extension by each further term and its extension by
the smallest member id are all used. -/
def BackstopTaken (scope : ScopeType) (cluster : Int × List (BuiltSkill F)) (usedNames : List Str) :
    Prop :=
  let scored := scoreClusterTerms services cluster.2 skills
  let label := communityName scope (clusterCore scored cluster.1)
  label ∈ usedNames ∧ (∀ term ∈ scored.drop 2, label ++ "-" ++ term ∈ usedNames) ∧
    ∀ anchor ∈ (sortedIds cluster.2).head?, label ++ "-" ++ anchor ∈ usedNames

theorem extendLabel_cases (furtherTerms usedNames : List Str) (label : Str) :
    (extendLabel furtherTerms usedNames label = label ∧ label ∈ usedNames ∧
      ∀ term ∈ furtherTerms, label ++ "-" ++ term ∈ usedNames) ∨
    (extendLabel furtherTerms usedNames label ∉ usedNames ∧
      ¬ (label ∈ usedNames ∧ ∀ term ∈ furtherTerms, label ++ "-" ++ term ∈ usedNames)) := by
  unfold extendLabel
  by_cases used : label ∈ usedNames
  · rw [if_pos used]
    cases extension : furtherTerms.find? fun term => label ++ "-" ++ term ∉ usedNames with
    | some term =>
      have free : label ++ "-" ++ term ∉ usedNames := by simpa using List.find?_some extension
      exact .inr ⟨free, fun all => free (all.2 term (List.mem_of_find?_eq_some extension))⟩
    | none => exact .inl ⟨rfl, used, by simpa using extension⟩
  · rw [if_neg used]
    exact .inr ⟨used, fun all => used all.1⟩

theorem anchorLabel_used_iff (anchor : Option Str) (usedNames : List Str) (label : Str) :
    anchorLabel anchor usedNames label ∈ usedNames ↔
      label ∈ usedNames ∧ ∀ smallest ∈ anchor, label ++ "-" ++ smallest ∈ usedNames := by
  unfold anchorLabel
  by_cases used : label ∈ usedNames
  · rw [if_pos used]
    cases anchor with
    | none => simp [used]
    | some smallest => simp [used]
  · rw [if_neg used]
    exact iff_of_false used fun all => used all.1

/-- A derived label repeats a used name exactly when its backstop is taken. -/
theorem derivedLabel_used_iff (scope : ScopeType) (cluster : Int × List (BuiltSkill F))
    (usedNames : List Str) :
    deriveClusterLabel services skills scope cluster.1 cluster.2 usedNames ∈ usedNames ↔
      BackstopTaken services skills scope cluster usedNames := by
  unfold deriveClusterLabel BackstopTaken
  dsimp only
  rw [anchorLabel_used_iff]
  rcases extendLabel_cases ((scoreClusterTerms services cluster.2 skills).drop 2) usedNames
    (communityName scope (clusterCore (scoreClusterTerms services cluster.2 skills) cluster.1)) with
    ⟨same, used, all⟩ | ⟨free, notAll⟩
  · rw [same]
    exact and_congr_right fun _ => ⟨fun anchors => ⟨all, anchors⟩, And.right⟩
  · exact iff_of_false (fun taken => free taken.1) fun taken => notAll ⟨taken.1, taken.2.1⟩

/-- A derived label is a name of the scope that starts like one of a cluster. -/
theorem derivedLabel_eq (scope : ScopeType) (label : Int) (members : List (BuiltSkill F))
    (usedNames : List Str) :
    ∃ rest, deriveClusterLabel services skills scope label members usedNames =
      communityName scope ("cluster-" ++ rest) := by
  have core (scored : List Str) : ∃ rest, clusterCore scored label = "cluster-" ++ rest := by
    unfold clusterCore
    split
    · exact ⟨_, rfl⟩
    · exact ⟨_, rfl⟩
  have extended (furtherTerms : List Str) (base : Str) :
      ∃ more, extendLabel furtherTerms usedNames base = base ++ more := by
    unfold extendLabel
    split
    · split
      · exact ⟨_, List.append_assoc _ _ _⟩
      · exact ⟨[], (List.append_nil _).symm⟩
    · exact ⟨[], (List.append_nil _).symm⟩
  have anchored (anchor : Option Str) (base : Str) :
      ∃ more, anchorLabel anchor usedNames base = base ++ more := by
    unfold anchorLabel
    split
    · split
      · exact ⟨_, List.append_assoc _ _ _⟩
      · exact ⟨[], (List.append_nil _).symm⟩
    · exact ⟨[], (List.append_nil _).symm⟩
  unfold deriveClusterLabel
  obtain ⟨rest, same⟩ := core (scoreClusterTerms services members skills)
  obtain ⟨first, firstSame⟩ := extended ((scoreClusterTerms services members skills).drop 2)
    (communityName scope ("cluster-" ++ rest))
  obtain ⟨second, secondSame⟩ := anchored (sortedIds members).head?
    (communityName scope ("cluster-" ++ rest) ++ first)
  dsimp only
  rw [same, firstSame, secondSame]
  exact ⟨rest ++ (first ++ second), by simp only [communityName, List.append_assoc]⟩

/-! ### The cluster layer -/

abbrev ScopedCluster (F : Type) := ScopeType × Int × List (BuiltSkill F)

/-- The clusters in the order in which they are named. -/
def scopedClusters (plans : List (ScopeClusters F)) : List (ScopedCluster F) :=
  plans.flatMap fun plan => plan.clusters.map fun cluster => (plan.scope, cluster)

def labelCluster (cluster : ScopedCluster F) (usedNames : List Str) : Str :=
  deriveClusterLabel services skills cluster.1 cluster.2.1 cluster.2.2 usedNames

/-- The labels of clusters that are named one after the other. -/
def clusterLabels (clusters : List (ScopedCluster F)) (usedNames : List Str) : List Str :=
  nameEach (labelCluster services skills) clusters usedNames

theorem nameClusters_eq (scope : ScopeType) (clusters : List (Int × List (BuiltSkill F)))
    (usedNames : List Str) :
    let labels := clusterLabels services skills (clusters.map fun cluster => (scope, cluster)) usedNames
    (nameClusters services skills scope clusters usedNames).1.map CommunityAssignment.communityName =
        labels ∧
      (nameClusters services skills scope clusters usedNames).2 = usedNames ++ labels := by
  induction clusters generalizing usedNames with
  | nil => simp [nameClusters, clusterLabels, nameEach]
  | cons cluster rest ih =>
    obtain ⟨names, used⟩ := ih (usedNames ++ [labelCluster services skills (scope, cluster) usedNames])
    constructor
    · simpa [nameClusters, clusterLabels, nameEach, labelCluster] using names
    · simpa [nameClusters, clusterLabels, nameEach, labelCluster] using used

/-- The scopes whose unclustered community is emitted. -/
def noisyScopes (plans : List (ScopeClusters F)) : List ScopeType :=
  (plans.filter fun plan => !plan.noise.isEmpty).map ScopeClusters.scope

theorem names_nameScopes (plans : List (ScopeClusters F)) (usedNames : List Str) :
    ((nameScopes services skills plans usedNames).map CommunityAssignment.communityName).Perm
      (clusterLabels services skills (scopedClusters plans) usedNames ++
        (noisyScopes plans).map fun scope => communityName scope "unclustered") := by
  induction plans generalizing usedNames with
  | nil => simp [nameScopes, scopedClusters, clusterLabels, nameEach, noisyScopes]
  | cons plan rest ih =>
    obtain ⟨names, used⟩ := nameClusters_eq services skills plan.scope plan.clusters usedNames
    have noise : (unclustered plan).map CommunityAssignment.communityName ++
        (noisyScopes rest).map (fun scope => communityName scope "unclustered") =
        (noisyScopes (plan :: rest)).map fun scope => communityName scope "unclustered" := by
      unfold unclustered noisyScopes
      by_cases empty : plan.noise.isEmpty = true
      · simp [empty]
      · simp [empty]
    rw [nameScopes, List.map_append, List.map_append, names, used, ← noise]
    have labels : clusterLabels services skills (scopedClusters (plan :: rest)) usedNames =
        clusterLabels services skills (plan.clusters.map fun cluster => (plan.scope, cluster)) usedNames ++
          clusterLabels services skills (scopedClusters rest) (usedNames ++
            clusterLabels services skills (plan.clusters.map fun cluster => (plan.scope, cluster))
              usedNames) := nameEach_append _ _ _ _
    rw [labels, List.append_assoc, List.append_assoc]
    refine List.Perm.append_left _ ?_
    refine ((ih _).append_left _).trans ?_
    rw [← List.append_assoc, ← List.append_assoc]
    exact List.perm_append_comm.append_right _

/-! ### The scopes of the cluster layer -/

variable (config : HdbscanConfig)

def scopeMembers (scope : ScopeType) : List (BuiltSkill F) :=
  skills.filter fun skill => skill.scopeType = scope

/-- The scope is too small to be clustered or the clusterer calls some skill noise. -/
def LeavesNoise (scope : ScopeType) : Prop :=
  let members := scopeMembers skills scope
  members.length < config.minClusterSize ∨
    ∃ labels, services.hdbscan.cluster config.minClusterSize (members.map BuiltSkill.embedding) =
      .ok labels ∧ -1 ∈ labels

theorem mem_skillsByScope {key : Str} {members : List (BuiltSkill F)}
    (entry : (key, members) ∈ skillsByScope skills) :
    ∃ skill ∈ skills, key = skill.scopeType.debug ∧ members = scopeMembers skills skill.scopeType := by
  have inGroup := (List.perm_insertionSort _ _).subset entry
  obtain ⟨⟨skill, found⟩, rfl⟩ := mem_group.mp inGroup
  obtain ⟨same, inSkills, pair⟩ := List.mem_map.mp found
  obtain ⟨rfl, rfl⟩ := Prod.mk.inj pair
  refine ⟨same, inSkills, rfl, ?_⟩
  simp [scopeMembers, List.filter_map, Function.comp_def, debug_injective]

theorem exists_mem_skillsByScope {skill : BuiltSkill F} (inSkills : skill ∈ skills) :
    (skill.scopeType.debug, scopeMembers skills skill.scopeType) ∈ skillsByScope skills := by
  refine (List.perm_insertionSort _ _).mem_iff.mpr (mem_group.mpr ⟨⟨skill, ?_⟩, ?_⟩)
  · exact List.mem_map.mpr ⟨skill, inSkills, rfl⟩
  · simp [scopeMembers, List.filter_map, Function.comp_def, debug_injective]

/-- A planned scope has noise exactly when its skills leave some. -/
theorem clusterScope_spec {scope : ScopeType} {plan : ScopeClusters F}
    (nonempty : scopeMembers skills scope ≠ [])
    (planned : clusterScope services config scope.debug (scopeMembers skills scope) = .ok plan) :
    plan.scope = scope ∧ (plan.noise ≠ [] ↔ LeavesNoise services skills config scope) := by
  unfold clusterScope at planned
  unfold LeavesNoise
  dsimp only
  generalize scopeMembers skills scope = members at nonempty planned ⊢
  by_cases small : members.length < config.minClusterSize
  · rw [if_pos small] at planned
    cases planned
    exact ⟨scopeFromDebugStr_debug scope, iff_of_true nonempty (.inl small)⟩
  · rw [if_neg small] at planned
    cases clustered : services.hdbscan.cluster config.minClusterSize
        (members.map BuiltSkill.embedding) with
    | error error => simp [clustered] at planned
    | ok labels =>
      simp only [clustered, Except.ok.injEq] at planned
      subst planned
      refine ⟨scopeFromDebugStr_debug scope, ?_⟩
      have sameLength := services.hdbscan.oneLabelEach _ _ _ clustered
      rw [List.length_map] at sameLength
      simp only [or_iff_right small, Except.ok.injEq, exists_eq_left', ne_eq,
        List.flatMap_eq_nil_iff, List.mem_filter, decide_eq_true_eq, and_imp, Prod.forall]
      constructor
      · intro some
        by_contra absent
        refine some fun label values entry same => ?_
        have inGroup := (List.perm_insertionSort _ _).subset entry
        obtain ⟨⟨member, paired⟩, -⟩ := mem_group.mp inGroup
        exact absurd (same ▸ (List.of_mem_zip paired).1) absent
      · intro present none
        obtain ⟨index, inside, same⟩ := List.mem_iff_getElem.mp present
        have paired : (-1, members[index]) ∈ labels.zip members := by
          rw [← same, List.mem_iff_getElem]
          exact ⟨index, by simp [sameLength, sameLength ▸ inside], by simp⟩
        have entry : (-1, ((labels.zip members).filter fun pair => pair.1 = -1).map Prod.snd) ∈
            group (labels.zip members) := mem_group.mpr ⟨⟨_, paired⟩, rfl⟩
        exact values_ne_nil entry
          (none _ _ ((List.perm_insertionSort _ _).mem_iff.mpr entry) rfl)

variable {services skills config}

/-- The plans of a build: one for each scope, with the noise its skills leave. -/
theorem planScopes_spec {plans : List (ScopeClusters F)}
    (planned : planScopes services skills config = .ok plans) :
    (plans.map ScopeClusters.scope).Nodup ∧ ∀ scope, scope ∈ noisyScopes plans ↔
      (∃ skill ∈ skills, skill.scopeType = scope) ∧ LeavesNoise services skills config scope := by
  obtain ⟨finished, rfl⟩ := collect_eq_ok.mp planned
  have one (entry : Str × List (BuiltSkill F)) (inScopes : entry ∈ skillsByScope skills) :
      ∃ skill ∈ skills, ∃ plan, entry = (skill.scopeType.debug, scopeMembers skills skill.scopeType) ∧
        yielded (fun entry => (clusterScope services config entry.1 entry.2).map fun plan => [plan])
          entry = [plan] ∧ plan.scope = skill.scopeType ∧
        (plan.noise ≠ [] ↔ LeavesNoise services skills config skill.scopeType) := by
    obtain ⟨skill, inSkills, sameKey, sameMembers⟩ := mem_skillsByScope skills inScopes
    obtain ⟨more, ran⟩ := finished entry inScopes
    cases attempt : clusterScope services config entry.1 entry.2 with
    | error error => simp [attempt, Except.map] at ran
    | ok plan =>
      have members : scopeMembers skills skill.scopeType ≠ [] :=
        List.ne_nil_of_mem (List.mem_filter.mpr ⟨inSkills, decide_eq_true rfl⟩)
      rw [sameKey, sameMembers] at attempt
      obtain ⟨scope, noise⟩ := clusterScope_spec services skills config members attempt
      refine ⟨skill, inSkills, plan, Prod.ext sameKey sameMembers, ?_, scope, noise⟩
      rw [yielded, sameKey, sameMembers, attempt]
      rfl
  constructor
  · have scopes : ((skillsByScope skills).flatMap (yielded fun entry =>
        (clusterScope services config entry.1 entry.2).map fun plan => [plan])).map
          ScopeClusters.scope = (skillsByScope skills).map fun entry => scopeFromDebugStr entry.1 := by
      rw [List.map_flatMap, List.map_eq_flatMap]
      refine List.flatMap_congr fun entry inScopes => ?_
      obtain ⟨skill, -, plan, sameEntry, same, scope, -⟩ := one entry inScopes
      rw [same, List.map_singleton, scope, sameEntry, scopeFromDebugStr_debug]
    have keys : ((skillsByScope skills).map Prod.fst).Nodup :=
      ((List.perm_insertionSort _ _).map Prod.fst).nodup_iff.mpr (nodup_keys_group _)
    rw [scopes, List.Nodup, List.pairwise_map]
    rw [List.Nodup, List.pairwise_map] at keys
    refine keys.imp_of_mem fun {first second} inFirst inSecond different same => different ?_
    obtain ⟨skill, -, -, sameFirst, -⟩ := one first inFirst
    obtain ⟨other, -, -, sameSecond, -⟩ := one second inSecond
    rw [sameFirst, sameSecond, scopeFromDebugStr_debug, scopeFromDebugStr_debug] at same
    rw [sameFirst, sameSecond, same]
  · intro scope
    simp only [noisyScopes, List.mem_map, List.mem_filter, List.mem_flatMap]
    constructor
    · rintro ⟨plan, ⟨⟨entry, inScopes, inPlans⟩, noisy⟩, rfl⟩
      obtain ⟨skill, inSkills, plan', -, same, sameScope, noise⟩ := one entry inScopes
      rw [same] at inPlans
      obtain rfl := List.mem_singleton.mp inPlans
      rw [sameScope]
      exact ⟨⟨skill, inSkills, rfl⟩, noise.mp (by simpa using noisy)⟩
    · rintro ⟨⟨skill, inSkills, rfl⟩, leaves⟩
      obtain ⟨other, -, plan, sameEntry, same, sameScope, noise⟩ :=
        one _ (exists_mem_skillsByScope skills inSkills)
      have sameType := debug_injective.mp (congrArg Prod.fst sameEntry)
      rw [← sameType] at sameScope noise
      refine ⟨plan, ⟨⟨_, exists_mem_skillsByScope skills inSkills, ?_⟩, ?_⟩, sameScope⟩
      · rw [same]
        exact List.mem_singleton_self _
      · simpa using noise.mpr leaves

/-! ### The tag layer and both layers together -/

variable (services skills config)

/-- The suffix a skill's tag community gets. -/
def tagSuffix (skill : BuiltSkill F) : Str := Str.toAsciiLowercase (firstTag skill)

def tagKeys : List (Str × Str) :=
  (skills.map fun skill => (skill.scopeType.debug, firstTag skill)).dedup

def tagName (key : Str × Str) : Str :=
  communityName (scopeFromDebugStr key.1) (Str.toAsciiLowercase key.2)

theorem names_clusterByFirstTag :
    ((clusterByFirstTag services skills).map CommunityAssignment.communityName).Perm
      ((tagKeys skills).map tagName) := by
  refine ((List.perm_insertionSort _ _).map _).trans ?_
  rw [List.map_map]
  have arranged := services.tagOrder.perm
    (group (skills.map fun skill => ((skill.scopeType.debug, firstTag skill), skill.id)))
  refine (arranged.map _).trans (List.Perm.of_eq ?_)
  have keys : tagKeys skills =
      (group (skills.map fun skill => ((skill.scopeType.debug, firstTag skill), skill.id))).map
        Prod.fst := by
    simp [tagKeys, Function.comp_def]
  rw [keys, List.map_map]
  rfl

theorem mem_tagNames {name : Str} :
    name ∈ (tagKeys skills).map tagName ↔
      ∃ skill ∈ skills, communityName skill.scopeType (tagSuffix skill) = name := by
  simp [tagKeys, tagName, tagSuffix, scopeFromDebugStr_debug]

/-- The tag communities have distinct names exactly when no scope has two first tags that
differ in letter case only. -/
theorem nodup_tagNames_iff :
    ((tagKeys skills).map tagName).Nodup ↔
      ∀ skill ∈ skills, ∀ other ∈ skills, skill.scopeType = other.scopeType →
        tagSuffix skill = tagSuffix other → firstTag skill = firstTag other := by
  unfold tagKeys
  rw [List.nodup_map_iff_inj_on (List.nodup_dedup _)]
  simp only [List.mem_dedup, List.mem_map, forall_exists_index, and_imp,
    forall_apply_eq_imp_iff₂, tagName, scopeFromDebugStr_debug, communityName_injective,
    Prod.mk.injEq, debug_injective]
  exact forall₄_congr fun skill _ other _ =>
    ⟨fun all scope suffix => (all scope suffix).2, fun all scope suffix => ⟨scope, all scope suffix⟩⟩

/-- The clusters of the labelling, in the order in which they are named. -/
def namedClusters : List (ScopedCluster F) :=
  match planScopes services skills config with
  | .ok plans => scopedClusters plans
  | .error _ => []

/-- Nothing makes two communities share a name. -/
structure NamesApart : Prop where
  tags : ∀ skill ∈ skills, ∀ other ∈ skills, skill.scopeType = other.scopeType →
    tagSuffix skill = tagSuffix other → firstTag skill = firstTag other
  unclustered : ∀ skill ∈ skills, tagSuffix skill = "unclustered" →
    ¬ LeavesNoise services skills config skill.scopeType
  labels : ∀ skill ∈ skills, communityName skill.scopeType (tagSuffix skill) ∉
    clusterLabels services skills (namedClusters services skills config) []
  backstops : ∀ earlier cluster later,
    namedClusters services skills config = earlier ++ cluster :: later →
      ¬ BackstopTaken services skills cluster.1 cluster.2 (clusterLabels services skills earlier [])

/-- The assigned communities have pairwise distinct names exactly when nothing makes two
of them share one. -/
theorem nodup_communityNames_iff {communities : List CommunityAssignment}
    (assigned : assignCommunities services skills config = .ok communities) :
    (communities.map CommunityAssignment.communityName).Nodup ↔ NamesApart services skills config := by
  unfold assignCommunities clusterByHdbscan at assigned
  cases blank : skills.find? fun skill => skill.embedding.isEmpty with
  | some skill => simp [blank, Except.map] at assigned
  | none =>
    cases planned : planScopes services skills config with
    | error error => simp [blank, planned, Except.map] at assigned
    | ok plans =>
      simp only [blank, planned, Except.map, Except.ok.injEq] at assigned
      obtain ⟨scopesApart, noisy⟩ := planScopes_spec planned
      have clusters : namedClusters services skills config = scopedClusters plans := by
        rw [namedClusters, planned]
      have names : (communities.map CommunityAssignment.communityName).Perm
          (clusterLabels services skills (scopedClusters plans) [] ++
            (noisyScopes plans).map (fun scope => communityName scope "unclustered") ++
            (tagKeys skills).map tagName) := by
        rw [← assigned]
        refine ((List.perm_insertionSort _ _).map _).trans ?_
        rw [List.map_append]
        exact (names_nameScopes services skills plans []).append (names_clusterByFirstTag services skills)
      have labels : (clusterLabels services skills (scopedClusters plans) []).Nodup ↔
          ∀ earlier cluster later, scopedClusters plans = earlier ++ cluster :: later →
            ¬ BackstopTaken services skills cluster.1 cluster.2
              (clusterLabels services skills earlier []) := by
        have given := nodup_nameEach_iff (labelCluster services skills) (scopedClusters plans) []
        rw [and_iff_right List.nodup_nil] at given
        refine given.trans (forall₄_congr fun earlier cluster later _ => not_congr ?_)
        exact derivedLabel_used_iff services skills cluster.1 cluster.2 _
      have restApart : ((noisyScopes plans).map fun scope => communityName scope "unclustered").Nodup := by
        have scopes : (noisyScopes plans).Nodup := scopesApart.sublist (List.filter_sublist.map _)
        exact scopes.map_on fun first _ second _ same => (communityName_injective.mp same).1
      have labelsApart : ∀ name ∈ clusterLabels services skills (scopedClusters plans) [],
          ∀ rest ∈ (noisyScopes plans).map fun scope => communityName scope "unclustered",
            name ≠ rest := by
        rintro name given rest emitted rfl
        obtain ⟨cluster, -, before, rfl⟩ := mem_nameEach given
        obtain ⟨tail, same⟩ := derivedLabel_eq services skills cluster.1 cluster.2.1 cluster.2.2 before
        obtain ⟨scope, -, unclustered⟩ := List.mem_map.mp emitted
        have suffixes := (communityName_injective.mp (unclustered.trans same)).2
        have heads : some 'u' = some 'c' := congrArg List.head? suffixes
        exact absurd heads (by decide)
      rw [names.nodup_iff, List.nodup_append, List.nodup_append, labels, nodup_tagNames_iff]
      constructor
      · rintro ⟨⟨backstops, -, -⟩, tags, apart⟩
        refine ⟨tags, ?_, ?_, clusters ▸ backstops⟩
        · intro skill inSkills same leaves
          refine apart (communityName skill.scopeType "unclustered") (List.mem_append_right _ ?_) _
            ((mem_tagNames skills).mpr ⟨skill, inSkills, rfl⟩) (by rw [same])
          exact List.mem_map_of_mem ((noisy skill.scopeType).mpr ⟨⟨skill, inSkills, rfl⟩, leaves⟩)
        · intro skill inSkills given
          rw [clusters] at given
          exact apart _ (List.mem_append_left _ given) _
            ((mem_tagNames skills).mpr ⟨skill, inSkills, rfl⟩) rfl
      · rintro ⟨tags, unclustered, labelled, backstops⟩
        rw [clusters] at labelled backstops
        refine ⟨⟨backstops, restApart, labelsApart⟩, tags, ?_⟩
        intro name inClusters other inTags same
        obtain ⟨skill, inSkills, tagged⟩ := (mem_tagNames skills).mp inTags
        rcases List.mem_append.mp inClusters with given | emitted
        · exact labelled skill inSkills (by rw [tagged, ← same]; exact given)
        · obtain ⟨scope, inNoisy, here⟩ := List.mem_map.mp emitted
          obtain ⟨sameScope, suffix⟩ := communityName_injective.mp (here.trans (same.trans tagged.symm))
          exact unclustered skill inSkills suffix.symm (sameScope ▸ ((noisy scope).mp inNoisy).2)

/-! ### Two skills of one scope -/

/-- Services for scopes that are too small to be clustered. -/
def smallScopeServices : CommunityServices Nat where
  isAlphanumeric := Char.isAlphanum
  compareScores _ left right := compare left.1 right.1
  hdbscan :=
    { cluster := fun _ vectors => .ok (vectors.map fun _ => -1)
      oneLabelEach := by
        rintro _ vectors labels ⟨⟩
        exact List.length_map _ }
  termOrder := .unchanged _
  tagOrder := .unchanged _

def taggedSkill (id tag : Str) : BuiltSkill Nat :=
  ⟨id, "project", .project, [[], "repo", id, "SKILL.md"], id, "No description provided", [tag], [], [1]⟩

/-- The default configuration. -/
def defaultHdbscan : HdbscanConfig := ⟨3⟩

theorem differentTags_apart :
    ∃ communities, assignCommunities smallScopeServices
        [taggedSkill "a" "Rust", taggedSkill "b" "docs"] defaultHdbscan = .ok communities ∧
      (communities.map CommunityAssignment.communityName).Nodup := by
  have assigned : assignCommunities smallScopeServices
      [taggedSkill "a" "Rust", taggedSkill "b" "docs"] defaultHdbscan = .ok
      [⟨"project-docs", ["b"], .project, .tag⟩, ⟨"project-rust", ["a"], .project, .tag⟩,
        ⟨"project-unclustered", ["a", "b"], .project, .hdbscan⟩] := by
    decide +kernel
  have clusters : namedClusters smallScopeServices
      [taggedSkill "a" "Rust", taggedSkill "b" "docs"] defaultHdbscan = [] := by
    decide +kernel
  refine ⟨_, assigned, (nodup_communityNames_iff _ _ _ assigned).mpr ⟨?_, ?_, ?_, ?_⟩⟩
  · decide +kernel
  · intro skill member same
    have apart : ∀ skill ∈ [taggedSkill "a" "Rust", taggedSkill "b" "docs"],
        tagSuffix skill ≠ "unclustered" := by decide +kernel
    exact absurd same (apart skill member)
  · intro skill _ given
    rw [clusters] at given
    cases given
  · intro earlier cluster later split
    rw [clusters] at split
    simp at split

/-- Two spellings of one tag share a community name. -/
theorem tagSpellings_collide :
    ∃ communities, assignCommunities smallScopeServices
        [taggedSkill "a" "Rust", taggedSkill "b" "rust"] defaultHdbscan = .ok communities ∧
      ¬ (communities.map CommunityAssignment.communityName).Nodup := by
  refine ⟨[⟨"project-rust", ["a"], .project, .tag⟩, ⟨"project-rust", ["b"], .project, .tag⟩,
    ⟨"project-unclustered", ["a", "b"], .project, .hdbscan⟩], ?_, ?_⟩
  · decide +kernel
  · decide +kernel

end SkillLayer.GraphBuilder
