import SkillLayer.Blocks
import SkillLayer.Upsert
import SkillLayer.GraphBuilder.CommunityNames

/-! Each layer of communities divides the skills: by the labels of their scopes, and by their first tags. -/

namespace SkillLayer.GraphBuilder

open Domain

/-! ### A layer that divides the skills -/

/-- The communities of a layer: their skill ids and scopes. -/
def layer (source : CommunitySource) (communities : List CommunityAssignment) : List (List Str × ScopeType) :=
  (communities.filter fun community => community.source = source).map fun community =>
    (community.skillIds, community.scope)

variable {F : Type} {skills : List (BuiltSkill F)}

/-- Every skill is in one community, which is one of its scope; no community is empty, lists an id twice or mixes
scopes; and skills of one scope share a community exactly when their keys agree. -/
structure Divides {Key : Type} (skills : List (BuiltSkill F)) (key : BuiltSkill F → Key)
    (communities : List (List Str × ScopeType)) : Prop where
  once : ∀ skill ∈ skills, (communities.countP fun community => skill.id ∈ community.1) = 1
  ownScope : ∀ skill ∈ skills, ∀ community ∈ communities, skill.id ∈ community.1 → community.2 = skill.scopeType
  inhabited : ∀ community ∈ communities, community.1 ≠ []
  distinct : ∀ community ∈ communities, community.1.Nodup
  skillsOnly : ∀ community ∈ communities, ∀ id ∈ community.1, ∃ skill ∈ skills, skill.id = id ∧
    skill.scopeType = community.2
  shared : ∀ skill ∈ skills, ∀ other ∈ skills, skill.scopeType = other.scopeType →
    ((∃ community ∈ communities, skill.id ∈ community.1 ∧ other.id ∈ community.1) ↔ key skill = key other)

theorem Divides.perm {Key : Type} {key : BuiltSkill F → Key} {communities others : List (List Str × ScopeType)}
    (divides : Divides skills key communities) (shuffled : others.Perm communities) : Divides skills key others where
  once skill member := (shuffled.countP_eq _).trans (divides.once skill member)
  ownScope skill member community inside := divides.ownScope skill member community (shuffled.subset inside)
  inhabited community inside := divides.inhabited community (shuffled.subset inside)
  distinct community inside := divides.distinct community (shuffled.subset inside)
  skillsOnly community inside := divides.skillsOnly community (shuffled.subset inside)
  shared skill member other otherMember same := by
    rw [← divides.shared skill member other otherMember same]
    simp only [shuffled.mem_iff]

theorem mem_sortedIds {members : List (BuiltSkill F)} {id : Str} :
    id ∈ sortedIds members ↔ ∃ member ∈ members, member.id = id := by
  rw [sortedIds, Str.sorted, (List.perm_insertionSort _ _).mem_iff, List.mem_map]

theorem skill_of_id (distinct : (skills.map BuiltSkill.id).Nodup) {skill other : BuiltSkill F} (member : skill ∈ skills)
    (otherMember : other ∈ skills) (same : skill.id = other.id) : skill = other :=
  List.inj_on_of_nodup_map distinct member otherMember same

/-- The communities of blocks divide the skills, when the key of a block gives the scope. -/
theorem divides_of_blocks {Key Wide : Type} [DecidableEq Wide] {key : BuiltSkill F → Key} {wide : BuiltSkill F → Wide}
    (scopeOf : Wide → ScopeType) {blocks : List (Wide × List (BuiltSkill F))}
    (distinct : (skills.map BuiltSkill.id).Nodup) (blocksBy : BlocksBy skills wide blocks)
    (ownScope : ∀ skill ∈ skills, scopeOf (wide skill) = skill.scopeType)
    (agree : ∀ skill ∈ skills, ∀ other ∈ skills, skill.scopeType = other.scopeType →
      (wide skill = wide other ↔ key skill = key other)) :
    Divides skills key (blocks.map fun block => (sortedIds block.2, scopeOf block.1)) := by
  have inBlock (block : Wide × List (BuiltSkill F)) (member : block ∈ blocks) (skill : BuiltSkill F)
      (inSkills : skill ∈ skills) : skill.id ∈ sortedIds block.2 ↔ wide skill = block.1 := by
    rw [mem_sortedIds]
    constructor
    · rintro ⟨other, inside, same⟩
      obtain ⟨otherMember, keyed⟩ := (blocksBy.mem_block member).mp inside
      rwa [skill_of_id distinct inSkills otherMember same.symm]
    · exact fun keyed => ⟨skill, (blocksBy.mem_block member).mpr ⟨inSkills, keyed⟩, rfl⟩
  refine ⟨?_, ?_, ?_, ?_, ?_, ?_⟩
  · intro skill member
    rw [List.countP_map, ← blocksBy.countP_eq_one member]
    refine List.countP_congr fun block inside => ?_
    simp only [Function.comp_apply, decide_eq_true_eq, inBlock block inside skill member]
    exact eq_comm
  · intro skill member community inside contains
    obtain ⟨block, here, rfl⟩ := List.mem_map.mp inside
    rw [← ownScope skill member, (inBlock block here skill member).mp contains]
  · intro community inside
    obtain ⟨block, here, rfl⟩ := List.mem_map.mp inside
    obtain ⟨skill, rest, same⟩ := List.exists_cons_of_ne_nil (blocksBy.ne_nil here)
    exact List.ne_nil_of_mem (mem_sortedIds.mpr ⟨skill, same ▸ List.mem_cons_self, rfl⟩)
  · intro community inside
    obtain ⟨block, here, rfl⟩ := List.mem_map.mp inside
    refine (List.perm_insertionSort _ _).nodup_iff.mpr ?_
    rw [blocksBy.members block here]
    exact distinct.sublist (List.filter_sublist.map _)
  · intro community inside id contains
    obtain ⟨block, here, rfl⟩ := List.mem_map.mp inside
    obtain ⟨skill, inside, rfl⟩ := mem_sortedIds.mp contains
    obtain ⟨member, keyed⟩ := (blocksBy.mem_block here).mp inside
    exact ⟨skill, member, rfl, by rw [← ownScope skill member, keyed]⟩
  · intro skill member other otherMember same
    rw [← agree skill member other otherMember same]
    constructor
    · rintro ⟨community, inside, contains, containsOther⟩
      obtain ⟨block, here, rfl⟩ := List.mem_map.mp inside
      exact ((inBlock block here skill member).mp contains).trans
        ((inBlock block here other otherMember).mp containsOther).symm
    · intro keyed
      obtain ⟨block, here, found⟩ := blocksBy.exists_block member
      exact ⟨_, List.mem_map_of_mem here, (inBlock block here skill member).mpr found.symm,
        (inBlock block here other otherMember).mpr (keyed.symm.trans found.symm)⟩

/-! ### The tag layer -/

def body (community : CommunityAssignment) : List Str × ScopeType := (community.skillIds, community.scope)

variable (services : CommunityServices F) (config : HdbscanConfig)

def tagBlocks (skills : List (BuiltSkill F)) : List ((Str × Str) × List (BuiltSkill F)) :=
  group (skills.map fun skill => ((skill.scopeType.debug, firstTag skill), skill))

theorem bodies_clusterByFirstTag (skills : List (BuiltSkill F)) :
    ((clusterByFirstTag services skills).map body).Perm
      ((tagBlocks skills).map fun block => (sortedIds block.2, scopeFromDebugStr block.1.1)) := by
  refine ((List.perm_insertionSort _ _).map _).trans ?_
  rw [List.map_map]
  refine ((services.tagOrder.perm _).map _).trans ?_
  rw [group_map, List.map_map]
  exact List.Perm.refl _

theorem tagLayer_divides (distinct : (skills.map BuiltSkill.id).Nodup) :
    Divides skills firstTag ((clusterByFirstTag services skills).map body) := by
  refine (divides_of_blocks (fun key : Str × Str => scopeFromDebugStr key.1) distinct
    (blocksBy_group skills fun skill => (skill.scopeType.debug, firstTag skill)) ?_ ?_).perm
    (bodies_clusterByFirstTag services skills)
  · exact fun skill _ => scopeFromDebugStr_debug skill.scopeType
  · intro skill _ other _ same
    rw [Prod.mk.injEq, and_iff_right (congrArg ScopeType.debug same)]

/-! ### The cluster layer -/

/-- The labels of the skills of a scope; all of a scope that is too small are noise. -/
def scopeLabels (members : List (BuiltSkill F)) : List Int :=
  if members.length < config.minClusterSize then members.map fun _ => -1
  else
    match services.hdbscan.cluster config.minClusterSize (members.map BuiltSkill.embedding) with
    | .ok labels => labels
    | .error _ => []

/-- The label of a skill among the skills of its scope. -/
def labelOf (skills : List (BuiltSkill F)) (skill : BuiltSkill F) : Int :=
  let members := scopeMembers skills skill.scopeType
  (((members.map BuiltSkill.id).zip (scopeLabels services config members)).lookup skill.id).getD (-1)

/-- The groups of a plan by label; the noise comes last. -/
def planGroups (plan : ScopeClusters F) : List (Int × List (BuiltSkill F)) :=
  plan.clusters ++ if plan.noise.isEmpty then [] else [(-1, plan.noise)]

theorem bodies_nameClusters (skills : List (BuiltSkill F)) (scope : ScopeType)
    (clusters : List (Int × List (BuiltSkill F))) (usedNames : List Str) :
    (nameClusters services skills scope clusters usedNames).1.map body =
      clusters.map fun cluster => (sortedIds cluster.2, scope) := by
  induction clusters generalizing usedNames with
  | nil => rfl
  | cons cluster rest ih =>
    rw [nameClusters, List.map_cons, List.map_cons, ih]
    rfl

theorem bodies_nameScopes (skills : List (BuiltSkill F)) (plans : List (ScopeClusters F)) (usedNames : List Str) :
    (nameScopes services skills plans usedNames).map body =
      plans.flatMap fun plan => (planGroups plan).map fun part => (sortedIds part.2, plan.scope) := by
  induction plans generalizing usedNames with
  | nil => rfl
  | cons plan rest ih =>
    have noise : (unclustered plan).map body =
        (if plan.noise.isEmpty then [] else [((-1 : Int), plan.noise)]).map fun part =>
          (sortedIds part.2, plan.scope) := by
      rw [unclustered]
      split
      · rfl
      · rfl
    rw [nameScopes, List.map_append, List.map_append, ih, bodies_nameClusters, noise, List.flatMap_cons, planGroups,
      List.map_append]

theorem sources_nameScopes (skills : List (BuiltSkill F)) (plans : List (ScopeClusters F)) (usedNames : List Str) :
    ∀ community ∈ nameScopes services skills plans usedNames, community.source = .hdbscan := by
  have clusters (scope : ScopeType) (clusters : List (Int × List (BuiltSkill F))) (usedNames : List Str) :
      ∀ community ∈ (nameClusters services skills scope clusters usedNames).1, community.source = .hdbscan := by
    induction clusters generalizing usedNames with
    | nil => exact List.forall_mem_nil _
    | cons cluster rest ih => exact List.forall_mem_cons.mpr ⟨rfl, ih _⟩
  induction plans generalizing usedNames with
  | nil => exact List.forall_mem_nil _
  | cons plan rest ih =>
    have noise : ∀ community ∈ unclustered plan, community.source = .hdbscan := by
      rw [unclustered]
      split
      · exact List.forall_mem_nil _
      · exact List.forall_mem_singleton.mpr rfl
    exact List.forall_mem_append.mpr ⟨List.forall_mem_append.mpr ⟨clusters _ _ _, noise⟩, ih _⟩

theorem group_constant {Item : Type} {items : List Item} (some : items ≠ []) (label : Int) :
    group (items.map fun item => (label, item)) = [(label, items)] := by
  have keys : ((items.map fun item => (label, item)).map Prod.fst).dedup = [label] := by
    rw [List.map_map]
    have constant : items.map (Prod.fst ∘ fun item => (label, item)) = List.replicate items.length label :=
      List.map_const'
    rw [constant, List.replicate_dedup (by simpa using some)]
  have whole : ((items.map fun item => (label, item)).filter fun pair => pair.1 = label).map Prod.snd = items := by
    simp [List.filter_map, Function.comp_def]
  rw [group, keys, List.map_singleton, whole]

/-- The noise of the sorted groups, as the group of its label. -/
theorem noiseGroup_eq {groups : List (Int × List (BuiltSkill F))} (nodup : (groups.map Prod.fst).Nodup)
    (inhabited : ∀ part ∈ groups, part.2 ≠ []) :
    (if ((groups.filter fun cluster => cluster.1 = -1).flatMap Prod.snd).isEmpty then []
      else [((-1 : Int), (groups.filter fun cluster => cluster.1 = -1).flatMap Prod.snd)]) =
      groups.filter fun cluster => cluster.1 = -1 := by
  have apart : ((groups.filter fun cluster => cluster.1 = -1).map Prod.fst).Nodup :=
    nodup.sublist (List.filter_sublist.map _)
  have label (part : Int × List (BuiltSkill F)) (member : part ∈ groups.filter fun cluster => cluster.1 = -1) :
      part.1 = -1 ∧ part.2 ≠ [] := by
    obtain ⟨inGroups, same⟩ := List.mem_filter.mp member
    exact ⟨of_decide_eq_true same, inhabited part inGroups⟩
  generalize groups.filter (fun cluster => cluster.1 = -1) = noise at apart label
  match noise with
  | [] => rfl
  | [(here, members)] =>
    obtain ⟨rfl, some⟩ := label _ List.mem_cons_self
    rw [List.flatMap_singleton, if_neg (by simpa using some)]
  | first :: second :: rest =>
    have same : first.1 = second.1 := (label first List.mem_cons_self).1.trans
      (label second (List.mem_cons_of_mem _ List.mem_cons_self)).1.symm
    exact absurd (List.mem_cons.mpr (.inl same)) (List.nodup_cons.mp apart).1

/-- The groups of a plan are those of the labels. -/
theorem planGroups_perm {scopeKey : Str} {members : List (BuiltSkill F)} {plan : ScopeClusters F} (some : members ≠ [])
    (planned : clusterScope services config scopeKey members = .ok plan) :
    (planGroups plan).Perm (group ((scopeLabels services config members).zip members)) ∧
      plan.scope = scopeFromDebugStr scopeKey ∧
      (scopeLabels services config members).length = members.length := by
  rw [clusterScope] at planned
  rw [scopeLabels]
  by_cases small : members.length < config.minClusterSize
  · rw [if_pos small] at planned ⊢
    obtain rfl := Except.ok.inj planned
    have paired : (members.map fun _ => (-1 : Int)).zip members = members.map fun member => (-1, member) :=
      List.map_prod_right_eq_zip.symm
    refine ⟨?_, rfl, List.length_map _⟩
    rw [paired, group_constant some, planGroups]
    dsimp only
    rw [if_neg (by simpa using some)]
    exact List.Perm.refl _
  · rw [if_neg small] at planned ⊢
    cases clustered : services.hdbscan.cluster config.minClusterSize (members.map BuiltSkill.embedding) with
    | error error =>
      rw [clustered] at planned
      cases planned
    | ok labels =>
      rw [clustered] at planned
      obtain rfl := Except.ok.inj planned
      have each := services.hdbscan.oneLabelEach _ _ _ clustered
      rw [List.length_map] at each
      refine ⟨?_, rfl, each⟩
      have arranged := List.perm_insertionSort (fun left right : Int × List (BuiltSkill F) => left.1 ≤ right.1)
        (group (labels.zip members))
      rw [planGroups]
      dsimp only
      rw [noiseGroup_eq ((arranged.map Prod.fst).nodup_iff.mpr (nodup_keys_group _))
        fun part member => values_ne_nil (arranged.subset member)]
      refine List.Perm.trans ?_ arranged
      have others : ((group (labels.zip members)).insertionSort fun left right => left.1 ≤ right.1).filter
          (fun cluster => cluster.1 = -1) =
          ((group (labels.zip members)).insertionSort fun left right => left.1 ≤ right.1).filter
            fun cluster => !decide (cluster.1 ≠ -1) := List.filter_congr fun cluster _ => by simp
      rw [others]
      exact List.filter_append_perm _ _

/-- The label of a skill is the one at its place. -/
theorem zip_scopeLabels (distinct : (skills.map BuiltSkill.id).Nodup) {scope : ScopeType}
    (each : (scopeLabels services config (scopeMembers skills scope)).length = (scopeMembers skills scope).length) :
    (scopeLabels services config (scopeMembers skills scope)).zip (scopeMembers skills scope) =
      (scopeMembers skills scope).map fun skill => (labelOf services config skills skill, skill) := by
  refine List.ext_getElem (by simp [each]) fun index inside _ => ?_
  have inMembers : index < (scopeMembers skills scope).length := by simpa [each] using inside
  have inLabels : index < (scopeLabels services config (scopeMembers skills scope)).length := each ▸ inMembers
  have member := (List.mem_filter.mp (List.getElem_mem inMembers)).2
  have ownScope : (scopeMembers skills scope)[index].scopeType = scope := of_decide_eq_true member
  have ids : (((scopeMembers skills scope).map BuiltSkill.id).zip
      (scopeLabels services config (scopeMembers skills scope))).map Prod.fst =
      (scopeMembers skills scope).map BuiltSkill.id := List.map_fst_zip (by simp [each])
  have nodup : (((scopeMembers skills scope).map BuiltSkill.id).zip
      (scopeLabels services config (scopeMembers skills scope))).map Prod.fst |>.Nodup := by
    rw [ids]
    exact distinct.sublist (List.filter_sublist.map _)
  have found : (((scopeMembers skills scope).map BuiltSkill.id).zip
      (scopeLabels services config (scopeMembers skills scope))).lookup (scopeMembers skills scope)[index].id =
      some (scopeLabels services config (scopeMembers skills scope))[index] := by
    refine (lookup_eq_some_iff_mem nodup).mpr (List.mem_iff_getElem.mpr ⟨index, ?_, ?_⟩)
    · simpa [each] using inMembers
    · simp
  have label : labelOf services config skills (scopeMembers skills scope)[index] =
      (scopeLabels services config (scopeMembers skills scope))[index] := by
    rw [labelOf, ownScope, found]
    rfl
  rw [List.getElem_zip, List.getElem_map, label]

def clusterBlocks (skills : List (BuiltSkill F)) : List ((Str × Int) × List (BuiltSkill F)) :=
  (skillsByScope skills).flatMap fun entry =>
    (group (entry.2.map fun skill => (labelOf services config skills skill, skill))).map fun part =>
      ((entry.1, part.1), part.2)

theorem blocksBy_clusterBlocks (skills : List (BuiltSkill F)) :
    BlocksBy skills (fun skill => (skill.scopeType.debug, labelOf services config skills skill))
      (clusterBlocks services config skills) := by
  have outer : BlocksBy skills (fun skill => skill.scopeType.debug) (skillsByScope skills) :=
    (blocksBy_group skills fun skill => skill.scopeType.debug).perm (List.perm_insertionSort _ _)
  exact outer.refine fun entry _ => blocksBy_group entry.2 (labelOf services config skills)

/-- The clusterer labels every scope that is large enough. -/
def Labels (skills : List (BuiltSkill F)) : Prop :=
  ∀ skill ∈ skills, config.minClusterSize ≤ (scopeMembers skills skill.scopeType).length →
    ∃ labels, services.hdbscan.cluster config.minClusterSize
      ((scopeMembers skills skill.scopeType).map BuiltSkill.embedding) = .ok labels

variable {services config}

theorem clusterScope_ok (labelled : Labels services config skills) {skill : BuiltSkill F} (member : skill ∈ skills) :
    ∃ plan, clusterScope services config skill.scopeType.debug (scopeMembers skills skill.scopeType) = .ok plan := by
  rw [clusterScope]
  by_cases small : (scopeMembers skills skill.scopeType).length < config.minClusterSize
  · rw [if_pos small]
    exact ⟨_, rfl⟩
  · obtain ⟨labels, clustered⟩ := labelled skill member (Nat.le_of_not_lt small)
    rw [if_neg small, clustered]
    exact ⟨_, rfl⟩

/-- The plans of the scopes, with their groups. -/
theorem planScopes_ok (distinct : (skills.map BuiltSkill.id).Nodup) (labelled : Labels services config skills) :
    ∃ plans, planScopes services skills config = .ok plans ∧
      (plans.flatMap fun plan => (planGroups plan).map fun part => (sortedIds part.2, plan.scope)).Perm
        ((clusterBlocks services config skills).map fun block => (sortedIds block.2, scopeFromDebugStr block.1.1)) := by
  have one (entry : Str × List (BuiltSkill F)) (inScopes : entry ∈ skillsByScope skills) :
      ∃ plan, (clusterScope services config entry.1 entry.2).map (fun plan => [plan]) = .ok [plan] ∧
        ((planGroups plan).map fun part => (sortedIds part.2, plan.scope)).Perm
          ((group (entry.2.map fun skill => (labelOf services config skills skill, skill))).map fun part =>
            (sortedIds part.2, scopeFromDebugStr entry.1)) := by
    obtain ⟨skill, member, sameKey, sameMembers⟩ := mem_skillsByScope skills inScopes
    obtain ⟨scopeKey, members⟩ := entry
    obtain rfl : scopeKey = skill.scopeType.debug := sameKey
    obtain rfl : members = scopeMembers skills skill.scopeType := sameMembers
    obtain ⟨plan, planned⟩ := clusterScope_ok labelled member
    have some : scopeMembers skills skill.scopeType ≠ [] :=
      List.ne_nil_of_mem (List.mem_filter.mpr ⟨member, decide_eq_true rfl⟩)
    obtain ⟨groups, ownScope, each⟩ := planGroups_perm services config some planned
    refine ⟨plan, by rw [planned]; rfl, ?_⟩
    rw [zip_scopeLabels services config distinct each] at groups
    rw [ownScope]
    exact groups.map _
  refine ⟨(skillsByScope skills).flatMap (yielded fun entry =>
    (clusterScope services config entry.1 entry.2).map fun plan => [plan]), ?_, ?_⟩
  · refine collect_eq_ok.mpr ⟨fun entry inScopes => ?_, rfl⟩
    obtain ⟨plan, planned, _⟩ := one entry inScopes
    exact ⟨[plan], planned⟩
  · rw [List.flatMap_assoc, clusterBlocks, List.map_flatMap]
    refine List.Perm.flatMap_left _ fun entry inScopes => ?_
    obtain ⟨plan, planned, groups⟩ := one entry inScopes
    rw [yielded, planned, List.flatMap_singleton, List.map_map]
    exact groups

/-- The cluster layer consists of the blocks by scope and label. -/
theorem clusterByHdbscan_ok (distinct : (skills.map BuiltSkill.id).Nodup)
    (embedded : ∀ skill ∈ skills, skill.embedding ≠ []) (labelled : Labels services config skills) :
    ∃ communities, clusterByHdbscan services skills config = .ok communities ∧
      (∀ community ∈ communities, community.source = .hdbscan) ∧
      (communities.map body).Perm ((clusterBlocks services config skills).map fun block =>
        (sortedIds block.2, scopeFromDebugStr block.1.1)) := by
  have noneBlank : (skills.find? fun skill => skill.embedding.isEmpty) = none := by
    rw [List.find?_eq_none]
    intro skill member
    simpa using embedded skill member
  obtain ⟨plans, planned, groups⟩ := planScopes_ok distinct labelled
  refine ⟨nameScopes services skills plans [], ?_, sources_nameScopes services skills plans [], ?_⟩
  · rw [clusterByHdbscan, noneBlank, planned]
    rfl
  · rw [bodies_nameScopes]
    exact groups

/-- Each layer divides the skills: the clusters by label, the tag communities by first tag, where a skill without tags
counts as tagged `untagged`. -/
theorem assignCommunities_divides (distinct : (skills.map BuiltSkill.id).Nodup)
    (embedded : ∀ skill ∈ skills, skill.embedding ≠ []) (labelled : Labels services config skills) :
    ∃ communities, assignCommunities services skills config = .ok communities ∧
      Divides skills (labelOf services config skills) (layer .hdbscan communities) ∧
      Divides skills firstTag (layer .tag communities) := by
  obtain ⟨clusters, clustered, sources, bodies⟩ := clusterByHdbscan_ok distinct embedded labelled
  have tagSources : ∀ community ∈ clusterByFirstTag services skills, community.source = .tag := by
    intro community member
    obtain ⟨entry, _, rfl⟩ := List.mem_map.mp ((List.perm_insertionSort _ _).subset member)
    rfl
  refine ⟨_, by rw [assignCommunities, clustered]; rfl, ?_, ?_⟩
  · have only : (layer .hdbscan ((clusters ++ clusterByFirstTag services skills).insertionSort fun left right =>
        assignmentLe left right = true)).Perm (clusters.map body) := by
      refine (((List.perm_insertionSort _ _).filter _).map _).trans ?_
      rw [List.filter_append, List.filter_eq_self.mpr fun community member => by simp [sources community member],
        List.filter_eq_nil_iff.mpr fun community member => by simp [tagSources community member], List.append_nil]
      exact List.Perm.refl _
    refine (divides_of_blocks (fun key : Str × Int => scopeFromDebugStr key.1) distinct
      (blocksBy_clusterBlocks services config skills) ?_ ?_).perm (only.trans bodies)
    · exact fun skill _ => scopeFromDebugStr_debug skill.scopeType
    · intro skill _ other _ same
      rw [Prod.mk.injEq, and_iff_right (congrArg ScopeType.debug same)]
  · have only : (layer .tag ((clusters ++ clusterByFirstTag services skills).insertionSort fun left right =>
        assignmentLe left right = true)).Perm ((clusterByFirstTag services skills).map body) := by
      refine (((List.perm_insertionSort _ _).filter _).map _).trans ?_
      rw [List.filter_append, List.filter_eq_nil_iff.mpr fun community member => by simp [sources community member],
        List.filter_eq_self.mpr fun community member => by simp [tagSources community member], List.nil_append]
      exact List.Perm.refl _
    exact (tagLayer_divides services distinct).perm only

/-! ### Two skills of one scope -/

def untaggedSkill (id : Str) : BuiltSkill Nat := { taggedSkill id [] with tags := [] }

theorem twoTags_divided :
    ∃ communities, assignCommunities smallScopeServices [taggedSkill "a" "rust", untaggedSkill "b"] defaultHdbscan =
        .ok communities ∧
      Divides [taggedSkill "a" "rust", untaggedSkill "b"]
        (labelOf smallScopeServices defaultHdbscan [taggedSkill "a" "rust", untaggedSkill "b"])
        (layer .hdbscan communities) ∧
      Divides [taggedSkill "a" "rust", untaggedSkill "b"] firstTag (layer .tag communities) :=
  assignCommunities_divides (by decide) (by decide) (by
    intro skill _ _
    exact ⟨_, rfl⟩)

/-- A skill with the tag `untagged` shares the tag community of the skills without tags. -/
theorem untaggedTag_shared :
    ∃ communities, assignCommunities smallScopeServices [taggedSkill "a" "untagged", untaggedSkill "b"] defaultHdbscan =
        .ok communities ∧
      ¬ Divides [taggedSkill "a" "untagged", untaggedSkill "b"] (fun skill => skill.tags.head?)
        (layer .tag communities) := by
  refine ⟨[⟨"project-unclustered", ["a", "b"], .project, .hdbscan⟩, ⟨"project-untagged", ["a", "b"], .project, .tag⟩],
    by decide +kernel, fun divides => ?_⟩
  have shared := divides.shared (taggedSkill "a" "untagged") List.mem_cons_self (untaggedSkill "b")
    (List.mem_cons_of_mem _ List.mem_cons_self) rfl
  exact absurd (shared.mp ⟨(["a", "b"], .project), by decide, by decide, by decide⟩) (by decide)

end SkillLayer.GraphBuilder
