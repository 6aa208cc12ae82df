import SkillLayer.SortOrder
import SkillLayer.GraphBuilder.CommunityPartition

/-! When the assigned communities are the same for all iteration orders of the hash maps. -/

namespace SkillLayer.GraphBuilder

open Domain

variable {F : Type}

def CommunityServices.withOrders (services : CommunityServices F) (termOrder : HashOrder (Str × List Unit))
    (tagOrder : HashOrder ((Str × Str) × List Str)) : CommunityServices F :=
  { services with termOrder := termOrder, tagOrder := tagOrder }

/-- The scores of terms are finite numbers, so that comparing them is comparing in a linear order. -/
def TotalScores (services : CommunityServices F) : Prop :=
  ∃ (Score : Type) (_ : LinearOrder Score) (score : Nat → Nat × Nat → Score),
    ∀ corpusSize left right, services.compareScores corpusSize left right =
      compare (score corpusSize left) (score corpusSize right)

/-! ### The terms of a cluster -/

section Terms

variable {services : CommunityServices F} {Score : Type} [LinearOrder Score] {score : Nat → Nat × Nat → Score}

theorem rankedBefore_iff (corpusSize : Nat)
    (compared : ∀ corpusSize left right, services.compareScores corpusSize left right =
      compare (score corpusSize left) (score corpusSize right)) (left right : Str × Nat × Nat) :
    rankedBefore services corpusSize left right = true ↔
      score corpusSize right.2 < score corpusSize left.2 ∨
        (score corpusSize left.2 = score corpusSize right.2 ∧ Str.le left.1 right.1 = true) := by
  rw [rankedBefore, compared]
  rcases lt_trichotomy (score corpusSize left.2) (score corpusSize right.2) with less | same | more
  · rw [compare_lt_iff_lt.mpr less]
    refine iff_of_false Bool.false_ne_true ?_
    rintro (greater | ⟨same, _⟩)
    · exact lt_asymm less greater
    · exact less.ne same
  · rw [compare_eq_iff_eq.mpr same]
    exact ⟨fun before => .inr ⟨same, before⟩, fun ranked => (ranked.resolve_left same.not_gt).2⟩
  · rw [compare_gt_iff_gt.mpr more]
    exact iff_of_true rfl (.inl more)

/-- The ranking of terms is a linear order. -/
structure RanksTerms (services : CommunityServices F) (corpusSize : Nat) : Prop where
  total : ∀ left right, rankedBefore services corpusSize left right = true ∨
    rankedBefore services corpusSize right left = true
  trans : ∀ left middle right, rankedBefore services corpusSize left middle = true →
    rankedBefore services corpusSize middle right = true → rankedBefore services corpusSize left right = true
  apart : ∀ left right, rankedBefore services corpusSize left right = true →
    rankedBefore services corpusSize right left = true → left.1 = right.1

theorem ranksTerms (scores : TotalScores services) (corpusSize : Nat) : RanksTerms services corpusSize := by
  obtain ⟨Score, _, score, compared⟩ := scores
  have ranked := rankedBefore_iff corpusSize compared
  refine ⟨fun left right => ?_, fun left middle right first second => ?_, fun left right first second => ?_⟩
  · rw [ranked, ranked]
    rcases lt_trichotomy (score corpusSize left.2) (score corpusSize right.2) with less | same | more
    · exact .inr (.inl less)
    · exact (Str.le_total left.1 right.1).imp (fun before => .inr ⟨same, before⟩)
        fun before => .inr ⟨same.symm, before⟩
    · exact .inl (.inl more)
  · rw [ranked] at first second ⊢
    rcases first with more | ⟨same, before⟩
    · rcases second with again | ⟨equal, _⟩
      · exact .inl (again.trans more)
      · exact .inl (equal ▸ more)
    · rcases second with more | ⟨equal, after⟩
      · exact .inl (same ▸ more)
      · exact .inr ⟨same.trans equal, Str.le_trans before after⟩
  · rw [ranked] at first second
    rcases first with more | ⟨same, before⟩
    · exact (second.elim (lt_asymm more) fun equal => more.ne equal.1).elim
    · exact Str.le_antisymm before (second.resolve_left same.not_lt).2

end Terms

/-- The ranked terms do not depend on the order in which the map gives them. -/
theorem scoreClusterTerms_withOrders {services : CommunityServices F} (scores : TotalScores services)
    (termOrder other : HashOrder (Str × List Unit)) (tagOrder otherTags : HashOrder ((Str × Str) × List Str))
    (members skills : List (BuiltSkill F)) :
    scoreClusterTerms (services.withOrders termOrder tagOrder) members skills =
      scoreClusterTerms (services.withOrders other otherTags) members skills := by
  have ranks := ranksTerms scores skills.length
  have : Std.Total fun left right : Str × Nat × Nat => rankedBefore services skills.length left right = true :=
    ⟨ranks.total⟩
  have : IsTrans (Str × Nat × Nat) fun left right => rankedBefore services skills.length left right = true :=
    ⟨ranks.trans⟩
  let entries := group ((members.flatMap (skillTerms services)).map fun term => (term, ()))
  let scored := fun entry : Str × List Unit =>
    (entry.1, (entry.2.length, documentFrequency services skills entry.1))
  have shuffled : ((termOrder.arrange entries).map scored).Perm ((other.arrange entries).map scored) :=
    ((termOrder.perm entries).trans (other.perm entries).symm).map scored
  have sorted := insertionSort_eq_of_perm (fun left right : Str × Nat × Nat =>
    rankedBefore services skills.length left right = true) shuffled ?_
  · exact congrArg (List.map Prod.fst) sorted
  · intro one first two second before after
    obtain ⟨entry, inFirst, rfl⟩ := List.mem_map.mp first
    obtain ⟨entry', inSecond, rfl⟩ := List.mem_map.mp second
    have same : entry.1 = entry'.1 := ranks.apart _ _ before after
    have equal : entry = entry' := List.inj_on_of_nodup_map (nodup_keys_group _) ((termOrder.perm entries).subset inFirst)
      ((termOrder.perm entries).subset inSecond) same
    rw [equal]

/-! ### The cluster layer -/

section Clusters

variable {services : CommunityServices F} (scores : TotalScores services)
  (termOrder other : HashOrder (Str × List Unit)) (tagOrder otherTags : HashOrder ((Str × Str) × List Str))

include scores

theorem nameClusters_withOrders (skills : List (BuiltSkill F)) (scope : ScopeType)
    (clusters : List (Int × List (BuiltSkill F))) (usedNames : List Str) :
    nameClusters (services.withOrders termOrder tagOrder) skills scope clusters usedNames =
      nameClusters (services.withOrders other otherTags) skills scope clusters usedNames := by
  induction clusters generalizing usedNames with
  | nil => rfl
  | cons cluster rest ih =>
    have label : deriveClusterLabel (services.withOrders termOrder tagOrder) skills scope cluster.1 cluster.2 usedNames =
        deriveClusterLabel (services.withOrders other otherTags) skills scope cluster.1 cluster.2 usedNames := by
      rw [deriveClusterLabel, deriveClusterLabel,
        scoreClusterTerms_withOrders scores termOrder other tagOrder otherTags cluster.2 skills]
    rw [nameClusters, nameClusters, label, ih]

theorem nameScopes_withOrders (skills : List (BuiltSkill F)) (plans : List (ScopeClusters F)) (usedNames : List Str) :
    nameScopes (services.withOrders termOrder tagOrder) skills plans usedNames =
      nameScopes (services.withOrders other otherTags) skills plans usedNames := by
  induction plans generalizing usedNames with
  | nil => rfl
  | cons plan rest ih =>
    rw [nameScopes, nameScopes,
      nameClusters_withOrders scores termOrder other tagOrder otherTags skills plan.scope plan.clusters usedNames, ih]

/-- The cluster layer does not depend on the iteration orders. -/
theorem clusterByHdbscan_withOrders (skills : List (BuiltSkill F)) (config : HdbscanConfig) :
    clusterByHdbscan (services.withOrders termOrder tagOrder) skills config =
      clusterByHdbscan (services.withOrders other otherTags) skills config := by
  have plans : planScopes (services.withOrders termOrder tagOrder) skills config =
      planScopes (services.withOrders other otherTags) skills config := rfl
  have names : nameScopes (services.withOrders termOrder tagOrder) skills =
      nameScopes (services.withOrders other otherTags) skills :=
    funext fun plans => funext fun usedNames =>
      nameScopes_withOrders scores termOrder other tagOrder otherTags skills plans usedNames
  rw [clusterByHdbscan, clusterByHdbscan, plans, names]

end Clusters

/-- Every skill is embedded and the clusterer labels every scope that is large enough. -/
structure Clusterable (services : CommunityServices F) (config : HdbscanConfig) (skills : List (BuiltSkill F)) : Prop where
  embedded : ∀ skill ∈ skills, skill.embedding ≠ []
  labelled : Labels services config skills

theorem clusterByHdbscan_eq_ok {services : CommunityServices F} {config : HdbscanConfig} {skills : List (BuiltSkill F)}
    {communities : List CommunityAssignment} (clustered : clusterByHdbscan services skills config = .ok communities) :
    (∀ skill ∈ skills, skill.embedding ≠ []) ∧
      ∃ plans, planScopes services skills config = .ok plans ∧ communities = nameScopes services skills plans [] := by
  rw [clusterByHdbscan] at clustered
  cases blank : skills.find? fun skill => skill.embedding.isEmpty with
  | some skill =>
    rw [blank] at clustered
    cases clustered
  | none =>
    rw [blank] at clustered
    refine ⟨fun skill member => by simpa using List.find?_eq_none.mp blank skill member, ?_⟩
    cases planned : planScopes services skills config with
    | error error =>
      rw [planned] at clustered
      cases clustered
    | ok plans =>
      rw [planned] at clustered
      exact ⟨plans, rfl, (Except.ok.inj clustered).symm⟩

theorem clusterByHdbscan_ok_iff {services : CommunityServices F} {config : HdbscanConfig} {skills : List (BuiltSkill F)} :
    (∃ communities, clusterByHdbscan services skills config = .ok communities) ↔ Clusterable services config skills := by
  constructor
  · rintro ⟨communities, clustered⟩
    obtain ⟨embedded, plans, planned, -⟩ := clusterByHdbscan_eq_ok clustered
    refine ⟨embedded, fun skill member large => ?_⟩
    obtain ⟨more, ran⟩ := (collect_eq_ok.mp planned).1 _ (exists_mem_skillsByScope skills member)
    dsimp only at ran
    rw [clusterScope, if_neg (Nat.not_lt.mpr large)] at ran
    cases attempt : services.hdbscan.cluster config.minClusterSize
        ((scopeMembers skills skill.scopeType).map BuiltSkill.embedding) with
    | error error =>
      rw [attempt] at ran
      cases ran
    | ok labels => exact ⟨labels, rfl⟩
  · rintro ⟨embedded, labelled⟩
    have noneBlank : (skills.find? fun skill => skill.embedding.isEmpty) = none := by
      rw [List.find?_eq_none]
      intro skill member
      simpa using embedded skill member
    obtain ⟨plans, planned⟩ : ∃ plans, planScopes services skills config = .ok plans := by
      refine ⟨_, collect_eq_ok.mpr ⟨fun entry inScopes => ?_, rfl⟩⟩
      obtain ⟨skill, member, sameKey, sameMembers⟩ := mem_skillsByScope skills inScopes
      obtain ⟨plan, ran⟩ := clusterScope_ok labelled member
      exact ⟨[plan], by rw [sameKey, sameMembers, ran]; rfl⟩
    rw [clusterByHdbscan, noneBlank, planned]
    exact ⟨_, rfl⟩

/-! ### The tag layer -/

def tagCommunity (entry : (Str × Str) × List Str) : CommunityAssignment :=
  ⟨communityName (scopeFromDebugStr entry.1.1) (Str.toAsciiLowercase entry.1.2), Str.sorted entry.2,
    scopeFromDebugStr entry.1.1, .tag⟩

def tagEntries (skills : List (BuiltSkill F)) : List ((Str × Str) × List Str) :=
  group (skills.map fun skill => ((skill.scopeType.debug, firstTag skill), skill.id))

def nameLe (left right : CommunityAssignment) : Prop := Str.le left.communityName right.communityName = true

instance : DecidableRel nameLe := fun _ _ => inferInstanceAs (Decidable (_ = _))

instance : Std.Total nameLe := ⟨fun left right => Str.le_total left.communityName right.communityName⟩

instance : IsTrans CommunityAssignment nameLe := ⟨fun _ _ _ => Str.le_trans⟩

theorem clusterByFirstTag_eq (services : CommunityServices F) (skills : List (BuiltSkill F)) :
    clusterByFirstTag services skills =
      ((services.tagOrder.arrange (tagEntries skills)).map tagCommunity).insertionSort nameLe := rfl

/-- The ids of the skills of a scope that have the skill's first tag. -/
def taggedIds (skills : List (BuiltSkill F)) (skill : BuiltSkill F) : List Str :=
  sortedIds (skills.filter fun other => other.scopeType = skill.scopeType ∧ firstTag other = firstTag skill)

def tagEntry (skills : List (BuiltSkill F)) (skill : BuiltSkill F) : (Str × Str) × List Str :=
  ((skill.scopeType.debug, firstTag skill),
    (skills.filter fun other => other.scopeType = skill.scopeType ∧ firstTag other = firstTag skill).map BuiltSkill.id)

theorem mem_tagEntries {skills : List (BuiltSkill F)} {entry : (Str × Str) × List Str} :
    entry ∈ tagEntries skills ↔ ∃ skill ∈ skills, entry = tagEntry skills skill := by
  obtain ⟨key, ids⟩ := entry
  have pushed (skill : BuiltSkill F) : ((skills.map fun skill => ((skill.scopeType.debug, firstTag skill), skill.id)).filter
      fun pair => pair.1 = (skill.scopeType.debug, firstTag skill)).map Prod.snd = (tagEntry skills skill).2 := by
    rw [List.filter_map, List.map_map, tagEntry]
    refine congrArg (List.map BuiltSkill.id) (List.filter_congr fun other _ => ?_)
    simp [debug_injective]
  rw [tagEntries, mem_group]
  constructor
  · rintro ⟨⟨id, found⟩, rfl⟩
    obtain ⟨skill, member, same⟩ := List.mem_map.mp found
    obtain ⟨rfl, _⟩ := Prod.mk.inj same
    exact ⟨skill, member, by rw [pushed]; rfl⟩
  · rintro ⟨skill, member, same⟩
    obtain ⟨rfl, rfl⟩ := Prod.mk.inj same
    exact ⟨⟨skill.id, List.mem_map.mpr ⟨skill, member, rfl⟩⟩, (pushed skill).symm⟩

theorem tagCommunity_tagEntry (skills : List (BuiltSkill F)) (skill : BuiltSkill F) :
    tagCommunity (tagEntry skills skill) =
      ⟨communityName skill.scopeType (tagSuffix skill), taggedIds skills skill, skill.scopeType, .tag⟩ := by
  rw [tagCommunity, tagEntry]
  dsimp only
  rw [scopeFromDebugStr_debug]
  rfl

/-- First tags of a scope that give one name have the same skills. -/
def SpellingsAgree (skills : List (BuiltSkill F)) : Prop :=
  ∀ skill ∈ skills, ∀ other ∈ skills, skill.scopeType = other.scopeType → tagSuffix skill = tagSuffix other →
    taggedIds skills skill = taggedIds skills other

theorem mem_taggedIds {skills : List (BuiltSkill F)} {skill : BuiltSkill F} {id : Str} :
    id ∈ taggedIds skills skill ↔
      ∃ other ∈ skills, (other.scopeType = skill.scopeType ∧ firstTag other = firstTag skill) ∧ other.id = id := by
  rw [taggedIds, mem_sortedIds]
  constructor
  · rintro ⟨other, member, same⟩
    obtain ⟨inSkills, alike⟩ := List.mem_filter.mp member
    exact ⟨other, inSkills, of_decide_eq_true alike, same⟩
  · rintro ⟨other, inSkills, alike, same⟩
    exact ⟨other, List.mem_filter.mpr ⟨inSkills, decide_eq_true alike⟩, same⟩

/-- Among skills with distinct ids no scope has two spellings of a first tag. -/
theorem spellingsAgree_iff {skills : List (BuiltSkill F)} (distinct : (skills.map BuiltSkill.id).Nodup) :
    SpellingsAgree skills ↔ ∀ skill ∈ skills, ∀ other ∈ skills, skill.scopeType = other.scopeType →
      tagSuffix skill = tagSuffix other → firstTag skill = firstTag other := by
  refine forall₄_congr fun skill member other otherMember => forall₂_congr fun scope _ => ?_
  constructor
  · intro same
    have inside : skill.id ∈ taggedIds skills other := same ▸ mem_taggedIds.mpr ⟨skill, member, ⟨rfl, rfl⟩, rfl⟩
    obtain ⟨found, inSkills, ⟨_, tag⟩, sameId⟩ := mem_taggedIds.mp inside
    rwa [skill_of_id distinct member inSkills sameId.symm]
  · intro tag
    rw [taggedIds, taggedIds, scope, tag]

theorem clusterByFirstTag_withOrders {services : CommunityServices F} {skills : List (BuiltSkill F)}
    (agree : SpellingsAgree skills) (termOrder other : HashOrder (Str × List Unit))
    (tagOrder otherTags : HashOrder ((Str × Str) × List Str)) :
    clusterByFirstTag (services.withOrders termOrder tagOrder) skills =
      clusterByFirstTag (services.withOrders other otherTags) skills := by
  rw [clusterByFirstTag_eq, clusterByFirstTag_eq]
  have shuffled : (tagOrder.arrange (tagEntries skills)).Perm (otherTags.arrange (tagEntries skills)) :=
    (tagOrder.perm _).trans (otherTags.perm _).symm
  refine insertionSort_eq_of_perm nameLe (shuffled.map tagCommunity) fun one first two second before after => ?_
  have names : one.communityName = two.communityName := Str.le_antisymm before after
  obtain ⟨entry, inFirst, rfl⟩ := List.mem_map.mp first
  obtain ⟨entry', inSecond, rfl⟩ := List.mem_map.mp second
  obtain ⟨skill, member, rfl⟩ := mem_tagEntries.mp ((tagOrder.perm _).subset inFirst)
  obtain ⟨other, otherMember, rfl⟩ := mem_tagEntries.mp ((tagOrder.perm _).subset inSecond)
  rw [tagCommunity_tagEntry, tagCommunity_tagEntry] at names ⊢
  obtain ⟨scope, suffix⟩ := communityName_injective.mp names
  rw [scope, suffix, agree skill member other otherMember scope suffix]

/-! ### Both layers -/

/-- The communities are the same list for all iteration orders. -/
def Reproducible (services : CommunityServices F) (config : HdbscanConfig) (skills : List (BuiltSkill F)) : Prop :=
  ∀ termOrder other tagOrder otherTags,
    assignCommunities (services.withOrders termOrder tagOrder) skills config =
      assignCommunities (services.withOrders other otherTags) skills config

def AssignmentLe (left right : CommunityAssignment) : Prop := assignmentLe left right = true

instance : DecidableRel AssignmentLe := fun _ _ => inferInstanceAs (Decidable (_ = _))

theorem assignCommunities_eq {services : CommunityServices F} {config : HdbscanConfig} {skills : List (BuiltSkill F)}
    {clusters : List CommunityAssignment} (clustered : clusterByHdbscan services skills config = .ok clusters) :
    assignCommunities services skills config =
      .ok ((clusters ++ clusterByFirstTag services skills).insertionSort AssignmentLe) := by
  rw [assignCommunities, clustered]
  rfl

/-- The tag communities of a name come in the order in which the map gives them. -/
theorem filter_sorted {services : CommunityServices F} {skills : List (BuiltSkill F)} {clusters : List CommunityAssignment}
    (sources : ∀ community ∈ clusters, community.source = .hdbscan) (name : Str) :
    (((clusters ++ clusterByFirstTag services skills).insertionSort AssignmentLe).filter fun community =>
        community.communityName = name ∧ community.source = .tag) =
      ((services.tagOrder.arrange (tagEntries skills)).map tagCommunity).filter fun community =>
        community.communityName = name ∧ community.source = .tag := by
  have noClusters : (clusters.filter fun community => community.communityName = name ∧ community.source = .tag) = [] := by
    rw [List.filter_eq_nil_iff]
    intro community member
    simp [sources community member]
  rw [filter_insertionSort AssignmentLe, List.filter_append, noClusters, List.nil_append, clusterByFirstTag_eq,
    filter_insertionSort nameLe]
  · intro one two first second
    obtain ⟨sameFirst, _⟩ := of_decide_eq_true first
    obtain ⟨sameSecond, _⟩ := of_decide_eq_true second
    rw [nameLe, sameFirst, sameSecond]
    exact Str.le_refl name
  · intro one two first second
    obtain ⟨sameFirst, tagFirst⟩ := of_decide_eq_true first
    obtain ⟨sameSecond, tagSecond⟩ := of_decide_eq_true second
    rw [AssignmentLe, assignmentLe, sameFirst, sameSecond, if_pos rfl, tagFirst, tagSecond]
    exact Str.le_refl _

theorem clusterSources {services : CommunityServices F} {config : HdbscanConfig} {skills : List (BuiltSkill F)}
    {clusters : List CommunityAssignment} (clustered : clusterByHdbscan services skills config = .ok clusters) :
    ∀ community ∈ clusters, community.source = .hdbscan := by
  obtain ⟨-, plans, -, rfl⟩ := clusterByHdbscan_eq_ok clustered
  exact sources_nameScopes services skills plans []

/-- The assignment is reproducible exactly when the first tags of a scope that give one name have the same skills, or
there is no assignment at all. -/
theorem reproducible_iff {services : CommunityServices F} (scores : TotalScores services) (config : HdbscanConfig)
    (skills : List (BuiltSkill F)) :
    Reproducible services config skills ↔ (Clusterable services config skills → SpellingsAgree skills) := by
  constructor
  · intro same clusterable skill member other otherMember scope suffix
    obtain ⟨clusters, clustered⟩ := clusterByHdbscan_ok_iff.mpr clusterable
    have first (tagOrder : HashOrder ((Str × Str) × List Str)) :
        clusterByHdbscan (services.withOrders services.termOrder tagOrder) skills config = .ok clusters :=
      (clusterByHdbscan_withOrders scores services.termOrder services.termOrder tagOrder services.tagOrder skills
        config).trans clustered
    have equal := same services.termOrder services.termOrder (HashOrder.preferring (tagEntry skills skill))
      (HashOrder.preferring (tagEntry skills other))
    rw [assignCommunities_eq (first _), assignCommunities_eq (first _)] at equal
    have heads := congrArg (List.filter fun community =>
      community.communityName = communityName skill.scopeType (tagSuffix skill) ∧ community.source = .tag)
      (Except.ok.inj equal)
    rw [filter_sorted (clusterSources (first (HashOrder.preferring (tagEntry skills skill)))),
      filter_sorted (clusterSources (first (HashOrder.preferring (tagEntry skills other))))] at heads
    have preferred (chosen : BuiltSkill F) (inSkills : chosen ∈ skills)
        (named : communityName chosen.scopeType (tagSuffix chosen) = communityName skill.scopeType (tagSuffix skill)) :
        ((((HashOrder.preferring (tagEntry skills chosen)).arrange (tagEntries skills)).map tagCommunity).filter
          fun community => community.communityName = communityName skill.scopeType (tagSuffix skill) ∧
            community.source = .tag).head? = some (tagCommunity (tagEntry skills chosen)) := by
      have inEntries : tagEntry skills chosen ∈ tagEntries skills := mem_tagEntries.mpr ⟨chosen, inSkills, rfl⟩
      rw [HashOrder.preferring]
      dsimp only
      rw [if_pos inEntries, List.map_cons, List.filter_cons_of_pos]
      · rfl
      · rw [tagCommunity_tagEntry]
        exact decide_eq_true ⟨named, rfl⟩
    have left := preferred skill member rfl
    have right := preferred other otherMember (by rw [scope, suffix])
    have both := left.symm.trans ((congrArg List.head? heads).trans right)
    rw [tagCommunity_tagEntry, tagCommunity_tagEntry] at both
    exact congrArg CommunityAssignment.skillIds (Option.some.inj both)
  · intro agree termOrder other tagOrder otherTags
    have clusters := clusterByHdbscan_withOrders scores termOrder other tagOrder otherTags skills config
    rw [assignCommunities, assignCommunities, clusters]
    cases clustered : clusterByHdbscan (services.withOrders other otherTags) skills config with
    | error error => rfl
    | ok communities =>
      have clusterable : Clusterable services config skills := by
        refine clusterByHdbscan_ok_iff.mp ⟨communities, ?_⟩
        rw [← clustered]
        exact clusterByHdbscan_withOrders scores services.termOrder other services.tagOrder otherTags skills config
      rw [clusterByFirstTag_withOrders (agree clusterable) termOrder other tagOrder otherTags]

theorem oneTag_reproducible :
    Reproducible smallScopeServices defaultHdbscan [taggedSkill "a" "rust", taggedSkill "b" "rust"] ↔
      (Clusterable smallScopeServices defaultHdbscan [taggedSkill "a" "rust", taggedSkill "b" "rust"] →
        SpellingsAgree [taggedSkill "a" "rust", taggedSkill "b" "rust"]) := by
  have scores : TotalScores smallScopeServices := ⟨Nat, inferInstance, fun _ pair => pair.1, fun _ _ _ => rfl⟩
  exact reproducible_iff scores _ _

/-- Two spellings of one tag come in the order in which the map gives them. -/
theorem tagSpellings_unordered :
    ¬ Reproducible smallScopeServices defaultHdbscan [taggedSkill "a" "Rust", taggedSkill "b" "rust"] := by
  intro same
  have equal := same (HashOrder.unchanged _) (HashOrder.unchanged _) (HashOrder.unchanged _)
    (HashOrder.preferring (("Project", "rust"), ["b"]))
  exact absurd equal (by decide +kernel)

end SkillLayer.GraphBuilder
