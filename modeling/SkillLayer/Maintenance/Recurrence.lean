import SkillLayer.Maintenance.Passes

/-! The recurrence path: clusters are the connected components of the similarity graph, and each
component that spans enough projects is proposed once. -/

namespace SkillLayer.Maintenance

open Infrastructure hiding Timestamp
open Domain (Timestamp)

variable {F : Type} (services : ScopeServices F)

/-- The rows at two positions are similar enough, and the provider takes them for equivalent. -/
def Similar (similarityThreshold : F) (embeddedSkills : List (ProjectSkillRow × List F))
    (i j : Fin embeddedSkills.length) : Prop :=
  services.shared.ops.lt (cosineSimilarityRecurrence services.shared.ops (embeddedSkills.get i).2
      (embeddedSkills.get j).2) similarityThreshold = false ∧
    services.shared.decideEquivalence (embeddedSkills.get i).1.semanticText
      (embeddedSkills.get j).1.semanticText = .ok true

/-- The edges of the similarity graph: the pairs that are compared, and found similar. -/
def Edge (similarityThreshold : F) (embeddedSkills : List (ProjectSkillRow × List F))
    (i j : Fin embeddedSkills.length) : Prop :=
  i < j ∧ Similar services similarityThreshold embeddedSkills i j

/-- The provider answers for every pair that is similar enough. -/
def Answers (similarityThreshold : F) (embeddedSkills : List (ProjectSkillRow × List F)) : Prop :=
  ∀ i j : Fin embeddedSkills.length, i < j →
    services.shared.ops.lt (cosineSimilarityRecurrence services.shared.ops (embeddedSkills.get i).2
      (embeddedSkills.get j).2) similarityThreshold = false →
    ∃ verdict, services.shared.decideEquivalence (embeddedSkills.get i).1.semanticText
      (embeddedSkills.get j).1.semanticText = .ok verdict

def rowsAt (embeddedSkills : List (ProjectSkillRow × List F)) (members : List (Fin embeddedSkills.length)) :
    List ProjectSkillRow :=
  members.map fun i => (embeddedSkills.get i).1

variable {services} {similarityThreshold : F} {embeddedSkills : List (ProjectSkillRow × List F)}

/-! ### Clustering -/

theorem mem_orderedPairs {n : Nat} {i j : Fin n} : (i, j) ∈ orderedPairs n ↔ i < j := by
  simp [orderedPairs]

/-- A pair is joined exactly when it is similar. -/
theorem of_joinPair {parent next : Forest embeddedSkills.length} {i j : Fin embeddedSkills.length}
    (joined : joinPair services similarityThreshold embeddedSkills parent (i, j) = .ok next) :
    (Similar services similarityThreshold embeddedSkills i j ∧ next = parent.union i j) ∨
      (¬ Similar services similarityThreshold embeddedSkills i j ∧ next = parent) := by
  unfold joinPair at joined
  dsimp only at joined
  split at joined
  · rename_i below
    refine Or.inr ⟨fun similar => ?_, (Except.ok.inj joined).symm⟩
    rw [similar.1] at below
    cases below
  · rename_i enough
    split at joined
    · cases joined
    · rename_i equivalent answer
      cases equivalent with
      | true => exact Or.inl ⟨⟨by simpa using enough, answer⟩, (Except.ok.inj joined).symm⟩
      | false =>
        refine Or.inr ⟨fun similar => ?_, (Except.ok.inj joined).symm⟩
        have verdicts := similar.2.symm.trans answer
        cases verdicts

/-- One turn of the loop joins what the pair connects. -/
theorem joinPair_keeps (done : List (Fin embeddedSkills.length × Fin embeddedSkills.length))
    (pair : Fin embeddedSkills.length × Fin embeddedSkills.length)
    (rest : List (Fin embeddedSkills.length × Fin embeddedSkills.length))
    (forest next : Forest embeddedSkills.length)
    (_ : orderedPairs embeddedSkills.length = done ++ pair :: rest)
    (joins : forest.Joins fun v w => (v, w) ∈ done ∧ Similar services similarityThreshold embeddedSkills v w)
    (turn : joinPair services similarityThreshold embeddedSkills forest pair = .ok next) :
    next.Joins fun v w => (v, w) ∈ done ++ [pair] ∧ Similar services similarityThreshold embeddedSkills v w := by
  obtain ⟨i, j⟩ := pair
  rcases of_joinPair turn with ⟨similar, rfl⟩ | ⟨apart, rfl⟩
  · refine (joins.union i j).congr fun v w => ?_
    simp only [List.mem_append, List.mem_singleton, Prod.mk.injEq]
    constructor
    · rintro (⟨seen, pair⟩ | ⟨rfl, rfl⟩)
      · exact ⟨Or.inl seen, pair⟩
      · exact ⟨Or.inr ⟨rfl, rfl⟩, similar⟩
    · rintro ⟨seen | ⟨rfl, rfl⟩, pair⟩
      · exact Or.inl ⟨seen, pair⟩
      · exact Or.inr ⟨rfl, rfl⟩
  · refine joins.congr fun v w => ?_
    simp only [List.mem_append, List.mem_singleton, Prod.mk.injEq]
    constructor
    · rintro ⟨seen, pair⟩
      exact ⟨Or.inl seen, pair⟩
    · rintro ⟨seen | ⟨rfl, rfl⟩, pair⟩
      · exact ⟨seen, pair⟩
      · exact absurd pair apart

/-- The loop has joined the components of the pairs it has seen. -/
theorem joins_of_foldlM {parent : Forest embeddedSkills.length}
    (finished : (orderedPairs embeddedSkills.length).foldlM (joinPair services similarityThreshold embeddedSkills)
      (Forest.singletons embeddedSkills.length) = .ok parent) :
    parent.Joins (Edge services similarityThreshold embeddedSkills) := by
  have joins : parent.Joins fun v w => (v, w) ∈ orderedPairs embeddedSkills.length ∧
      Similar services similarityThreshold embeddedSkills v w := by
    refine foldlM_invariant (fun done (forest : Forest embeddedSkills.length) => forest.Joins fun v w =>
      (v, w) ∈ done ∧ Similar services similarityThreshold embeddedSkills v w) ?_ ?_ finished
    · exact joinPair_keeps
    · exact Forest.singletons_joins.congr fun v w => by simp
  exact joins.congr fun v w => by rw [mem_orderedPairs, Edge]

theorem clusters_perm {clusters : List (List ProjectSkillRow)}
    (built : buildRecurrenceClusters services similarityThreshold embeddedSkills = .ok clusters) :
    clusters.Perm ((Forest.components (Edge services similarityThreshold embeddedSkills)).map
      (rowsAt embeddedSkills)) := by
  unfold buildRecurrenceClusters at built
  cases joined : (orderedPairs embeddedSkills.length).foldlM
      (joinPair services similarityThreshold embeddedSkills) (Forest.singletons embeddedSkills.length) with
  | error error => simp [joined, bind, Except.bind] at built
  | ok parent =>
    rw [joined] at built
    obtain rfl := Except.ok.inj built
    have classes := (Forest.classes_perm (joins_of_foldlM joined)).map (rowsAt embeddedSkills)
    have arranged := ((services.clusterOrder embeddedSkills.length).perm parent.classes).map
      fun entry => rowsAt embeddedSkills entry.2
    rw [List.map_map] at classes
    exact arranged.trans classes

/-- When the provider answers, the clustering ends with the connected components. -/
theorem buildRecurrenceClusters_exact (answers : Answers services similarityThreshold embeddedSkills) :
    ∃ clusters, buildRecurrenceClusters services similarityThreshold embeddedSkills = .ok clusters ∧
      clusters.Perm ((Forest.components (Edge services similarityThreshold embeddedSkills)).map
        (rowsAt embeddedSkills)) := by
  cases built : buildRecurrenceClusters services similarityThreshold embeddedSkills with
  | ok clusters => exact ⟨clusters, rfl, clusters_perm built⟩
  | error error =>
    unfold buildRecurrenceClusters at built
    cases joined : (orderedPairs embeddedSkills.length).foldlM
        (joinPair services similarityThreshold embeddedSkills) (Forest.singletons embeddedSkills.length) with
    | ok parent => simp [joined, bind, Except.bind, pure, Except.pure] at built
    | error problem =>
      obtain ⟨⟨i, j⟩, member, parent, failed⟩ := foldlM_fails joined
      unfold joinPair at failed
      dsimp only at failed
      split at failed
      · cases failed
      · rename_i enough
        obtain ⟨verdict, answer⟩ := answers i j (mem_orderedPairs.mp member) (by simpa using enough)
        rw [answer] at failed
        cases failed

/-! ### Proposals -/

variable (services) (runner : PromotionPassRunner F)

/-- The rows with their embeddings, as far as the service has answered. -/
def embeddedRows (projectSkills : List ProjectSkillRow) : List (ProjectSkillRow × List F) :=
  projectSkills.map fun row => (row, (services.shared.embedText row.semanticText).toOption.getD [])

/-- The similarity graph of the rows that were fetched. -/
def RowEdge (projectSkills : List ProjectSkillRow)
    (i j : Fin (embeddedRows services projectSkills).length) : Prop :=
  Edge services runner.recurrenceConfig.similarityThreshold (embeddedRows services projectSkills) i j

/-- The number of distinct project roots that the component of a row spans. -/
noncomputable def rootsSpanned (projectSkills : List ProjectSkillRow)
    (x : Fin (embeddedRows services projectSkills).length) : Nat :=
  (distinctProjectRoots (rowsAt (embeddedRows services projectSkills)
    (Forest.component (RowEdge services runner projectSkills) x))).length

/-- The row is the lowest of a component that spans enough project roots. -/
def Represents (projectSkills : List ProjectSkillRow) (x : Fin (embeddedRows services projectSkills).length) :
    Prop :=
  Forest.Lowest (RowEdge services runner projectSkills) x ∧
    runner.recurrenceConfig.minDistinctRoots ≤ rootsSpanned services runner projectSkills x

/-- The promotion of a component, through its lowest row. -/
noncomputable def componentPromotion (projectSkills : List ProjectSkillRow)
    (x : Fin (embeddedRows services projectSkills).length) : CreatedFile :=
  plannedPromotion runner (projectSkillRowToSnapshot ((embeddedRows services projectSkills).get x).1)
    (.recurrence (rootsSpanned services runner projectSkills x))

/-- One promotion for each component that spans enough project roots. -/
noncomputable def componentPromotions (projectSkills : List ProjectSkillRow) : List CreatedFile :=
  open Classical in
  ((List.finRange (embeddedRows services projectSkills).length).filter fun x =>
    Represents services runner projectSkills x).map (componentPromotion services runner projectSkills)

variable {services runner} {projectSkills : List ProjectSkillRow}

theorem distinctProjectRoots_length_le {rows all : List ProjectSkillRow} (inside : ∀ row ∈ rows, row ∈ all) :
    (distinctProjectRoots rows).length ≤ (distinctProjectRoots all).length := by
  refine List.Subperm.length_le (List.subperm_of_subset (List.nodup_dedup _) fun root member => ?_)
  rw [distinctProjectRoots, List.mem_dedup, List.mem_filterMap] at member ⊢
  obtain ⟨row, known, key⟩ := member
  exact ⟨row, inside row known, key⟩

theorem fst_embeddedRows (x : Fin (embeddedRows services projectSkills).length) :
    ((embeddedRows services projectSkills).get x).1 ∈ projectSkills := by
  obtain ⟨row, known, same⟩ := List.mem_map.mp (List.get_mem (embeddedRows services projectSkills) x)
  rw [← same]
  exact known

/-- Where too few roots were seen, no component spans enough of them. -/
theorem componentPromotions_few
    (few : (distinctProjectRoots projectSkills).length < runner.recurrenceConfig.minDistinctRoots) :
    componentPromotions services runner projectSkills = [] := by
  rw [componentPromotions, List.map_eq_nil_iff, List.filter_eq_nil_iff]
  rintro x - spans
  have represents : Represents services runner projectSkills x := by simpa using spans
  have enough := represents.2
  have atMost : rootsSpanned services runner projectSkills x ≤ (distinctProjectRoots projectSkills).length := by
    refine distinctProjectRoots_length_le fun row member => ?_
    obtain ⟨y, -, rfl⟩ := List.mem_map.mp member
    exact fst_embeddedRows y
  omega

theorem embeddedRows_of_mapM {embedded : List (ProjectSkillRow × List F)}
    (done : projectSkills.mapM (embedRow services) = .ok embedded) :
    embedded = embeddedRows services projectSkills := by
  induction projectSkills generalizing embedded with
  | nil => exact (Except.ok.inj done).symm
  | cons row rest ih =>
    rw [List.mapM_cons, embedRow] at done
    cases answer : services.shared.embedText row.semanticText with
    | error error => simp [answer, bind, Except.bind] at done
    | ok vector =>
      cases others : rest.mapM (embedRow services) with
      | error error => simp [answer, others, bind, Except.bind] at done
      | ok more =>
        simp only [answer, others, bind, Except.bind, pure, Except.pure] at done
        rw [← Except.ok.inj done, ih others, embeddedRows, embeddedRows, List.map_cons, answer]
        rfl

theorem flatMap_if {Item : Type} {items : List Item} {test : Item → Bool} {file : Item → CreatedFile} :
    (items.flatMap fun item => if test item then [file item] else []) = (items.filter test).map file := by
  induction items with
  | nil => rfl
  | cons item rest ih =>
    rw [List.flatMap_cons, ih]
    cases passes : test item <;> simp [passes]

/-- What the components plan, one after the other. -/
theorem flatMap_plannedCluster :
    ((Forest.components (RowEdge services runner projectSkills)).map
      (rowsAt (embeddedRows services projectSkills))).flatMap (plannedCluster runner) =
        componentPromotions services runner projectSkills := by
  classical
  have each : ∀ x ∈ (List.finRange (embeddedRows services projectSkills).length).filter fun x =>
      Forest.Lowest (RowEdge services runner projectSkills) x,
      plannedCluster runner (rowsAt (embeddedRows services projectSkills)
        (Forest.component (RowEdge services runner projectSkills) x)) =
        if decide (runner.recurrenceConfig.minDistinctRoots ≤ rootsSpanned services runner projectSkills x) = true then
          [componentPromotion services runner projectSkills x] else [] := by
    intro x member
    simp only [List.mem_filter, decide_eq_true_eq] at member
    obtain ⟨others, leads⟩ := Forest.component_head member.2
    by_cases spans : runner.recurrenceConfig.minDistinctRoots ≤ rootsSpanned services runner projectSkills x
    · have enough := not_lt.mpr spans
      rw [rootsSpanned] at enough
      unfold plannedCluster
      rw [if_neg enough, if_pos (decide_eq_true spans), componentPromotion, rootsSpanned, leads]
      rfl
    · have few := not_le.mp spans
      rw [rootsSpanned] at few
      unfold plannedCluster
      rw [if_pos few, if_neg (by simpa using spans)]
  rw [Forest.components, List.flatMap_map, List.flatMap_map, List.flatMap_congr each, flatMap_if,
    List.filter_filter, componentPromotions]
  refine congrArg _ (List.filter_congr fun x _ => ?_)
  rw [Bool.eq_iff_iff, decide_eq_true_iff, Bool.and_eq_true, decide_eq_true_iff, decide_eq_true_iff, and_comm]
  exact Iff.rfl

/-- The plan of the recurrence path, whenever it comes to one. -/
theorem recurrencePlan_perm {clusters : List (List ProjectSkillRow)}
    (configured : runner.recurrenceConfigured = true)
    (built : recurrenceClusters services runner projectSkills = .ok clusters) :
    (recurrencePlan services runner (.ok projectSkills)).Perm
      (componentPromotions services runner projectSkills) := by
  rw [recurrencePlan_clusters configured rfl built]
  unfold recurrenceClusters at built
  split at built
  · rename_i few
    obtain rfl := Except.ok.inj built
    rw [componentPromotions_few few]
    exact List.Perm.refl _
  · cases embedded : projectSkills.mapM (embedRow services) with
    | error error => simp [embedded, bind, Except.bind] at built
    | ok embeddedSkills =>
      obtain rfl := embeddedRows_of_mapM embedded
      rw [embedded] at built
      dsimp only [bind, Except.bind] at built
      split at built
      · cases built
      · rename_i found done
        obtain rfl := Except.ok.inj built
        rw [← flatMap_plannedCluster]
        exact (clusters_perm done).flatMap_right _

/-! ### The pass -/

/-- The services answer for the rows and for their pairs. -/
structure Answered (services : ScopeServices F) (runner : PromotionPassRunner F)
    (projectSkills : List ProjectSkillRow) : Prop where
  embedded : ∀ row ∈ projectSkills, ∃ vector, services.shared.embedText row.semanticText = .ok vector
  verified : Answers services runner.recurrenceConfig.similarityThreshold (embeddedRows services projectSkills)

theorem mapM_of_embedded
    (embedded : ∀ row ∈ projectSkills, ∃ vector, services.shared.embedText row.semanticText = .ok vector) :
    projectSkills.mapM (embedRow services) = .ok (embeddedRows services projectSkills) := by
  induction projectSkills with
  | nil => rfl
  | cons row rest ih =>
    obtain ⟨vector, answer⟩ := embedded row List.mem_cons_self
    rw [List.mapM_cons, embedRow, answer, ih fun other member => embedded other (List.mem_cons_of_mem _ member),
      embeddedRows, embeddedRows, List.map_cons, answer]
    rfl

theorem recurrenceClusters_answered (answered : Answered services runner projectSkills) :
    ∃ clusters, recurrenceClusters services runner projectSkills = .ok clusters := by
  unfold recurrenceClusters
  split
  · exact ⟨[], rfl⟩
  · obtain ⟨clusters, built, -⟩ := buildRecurrenceClusters_exact answered.verified
    rw [mapM_of_embedded answered.embedded]
    dsimp only [bind, Except.bind]
    rw [built]
    exact ⟨clusters, rfl⟩

variable {faults : HostFaults F} {now : Timestamp}

/-- A pass stops only where the writing of one of the given files fails. -/
def failingWrite (services : ScopeServices F) (faults : HostFaults F) (runner : PromotionPassRunner F)
    (now : Timestamp) (files : List CreatedFile) : PassDiscipline F CronError where
  ready _ := True
  stops error _ after := ∃ snapshot evidence before, plannedPromotion runner snapshot evidence ∈ files ∧
    proposePromotion services faults runner now snapshot evidence before = .error error after
  append _ _ _ _ failed := failed

theorem promotes_failingWrite {files : List CreatedFile} {snapshot : SkillSnapshot} {evidence : PromotionEvidence}
    (member : plannedPromotion runner snapshot evidence ∈ files) :
    Promotes services faults runner now (failingWrite services faults runner now files) snapshot evidence := by
  intro before _
  have promotes : Promotes services faults runner now (PassDiscipline.loose F CronError) snapshot evidence :=
    promotes_loose snapshot evidence
  have leads := promotes before trivial
  refine leads_of_ends (fun proposal after ran => leads.of_ok ran) fun error after ran => ?_
  obtain ⟨-, done, rest, split, extended, -⟩ := leads.of_error ran
  exact ⟨trivial, done, rest, split, extended, snapshot, evidence, before, member, ran⟩

theorem clusters_of_finished {before after : Workspace F} {proposals : List PromotionProposal}
    (configured : runner.recurrenceConfigured = true)
    (ran : runRecurrencePass services faults runner now (.ok projectSkills) before = .ok proposals after) :
    ∃ clusters, recurrenceClusters services runner projectSkills = .ok clusters := by
  cases built : recurrenceClusters services runner projectSkills with
  | ok clusters => exact ⟨clusters, rfl⟩
  | error error =>
    rw [runRecurrencePass, configured] at ran
    obtain ⟨rows, _, found, ran⟩ := bind_eq_ok.mp ran
    cases found
    obtain ⟨clusters, _, found, -⟩ := bind_eq_ok.mp ran
    rw [built] at found
    cases found

theorem follows_recurrencePass {fetched : Except Str (List ProjectSkillRow)} :
    Follows (PassDiscipline.loose F CronError) (recurrencePlan services runner fetched)
      (fun proposals => proposals = (recurrencePlan services runner fetched).filterMap promotionOf)
      (runRecurrencePass services faults runner now fetched) :=
  follows_runRecurrencePass (fun snapshot evidence _ => promotes_loose snapshot evidence)
    ⟨fun _ _ _ _ => trivial, fun _ _ _ _ _ _ => trivial⟩

theorem follows_failingWrite (configured : runner.recurrenceConfigured = true)
    (answered : Answered services runner projectSkills) :
    Follows (failingWrite services faults runner now (componentPromotions services runner projectSkills))
      (recurrencePlan services runner (.ok projectSkills))
      (fun proposals => proposals = (recurrencePlan services runner (.ok projectSkills)).filterMap promotionOf)
      (runRecurrencePass services faults runner now (.ok projectSkills)) := by
  obtain ⟨clusters, built⟩ := recurrenceClusters_answered answered
  have perm := recurrencePlan_perm configured built
  refine follows_runRecurrencePass
    (fun snapshot evidence planned => promotes_failingWrite (perm.subset planned)) ⟨?_, ?_⟩
  · intro error _ failed
    cases failed
  · intro rows error _ found failed
    cases found
    rw [built] at failed
    cases failed

/-- The clusters are the connected components of the similarity graph. The pass, when it ends
well, has written one proposal for each component that spans enough project roots, through its
lowest row and with the number of its roots, and no other; and where the services answer, it
ends well unless one of these writes fails. -/
theorem recurrence_exact (services : ScopeServices F) (faults : HostFaults F) (runner : PromotionPassRunner F)
    (now : Timestamp) :
    (∀ (similarityThreshold : F) (embeddedSkills : List (ProjectSkillRow × List F)),
      Answers services similarityThreshold embeddedSkills →
      ∃ clusters, buildRecurrenceClusters services similarityThreshold embeddedSkills = .ok clusters ∧
        clusters.Perm ((Forest.components (Edge services similarityThreshold embeddedSkills)).map
          (rowsAt embeddedSkills))) ∧
    ∀ (projectSkills : List ProjectSkillRow) (before : Workspace F), runner.recurrenceConfigured = true →
      (∀ proposals after,
        runRecurrencePass services faults runner now (.ok projectSkills) before = .ok proposals after →
        ∃ written, written.Perm (componentPromotions services runner projectSkills) ∧
          Extends before after written ∧ proposals = written.filterMap promotionOf) ∧
      (Answered services runner projectSkills → ∀ error after,
        runRecurrencePass services faults runner now (.ok projectSkills) before = .error error after →
        ∃ snapshot evidence between,
          plannedPromotion runner snapshot evidence ∈ componentPromotions services runner projectSkills ∧
          proposePromotion services faults runner now snapshot evidence between = .error error after) := by
  refine ⟨fun _ _ answers => buildRecurrenceClusters_exact answers, ?_⟩
  intro projectSkills before configured
  constructor
  · intro proposals after ran
    obtain ⟨clusters, built⟩ := clusters_of_finished configured ran
    obtain ⟨-, done, rest, split, extended, rfl, returned⟩ := (follows_recurrencePass before trivial).of_ok ran
    rw [List.append_nil] at split
    have perm := recurrencePlan_perm configured built
    rw [split] at perm returned
    exact ⟨done, perm, extended, returned⟩
  · intro answered error after ran
    obtain ⟨_, _, _, _, _, failed⟩ := (follows_failingWrite configured answered before trivial).of_error ran
    exact failed

/-- Whole numbers, with a root that is exact on zero and one. -/
def wholeNumbers : FloatOps Nat where
  zero := 0
  add := (· + ·)
  mul := (· * ·)
  div := (· / ·)
  sqrt := id
  isZero value := value == 0
  lt left right := decide (left < right)
  mul_comm := Nat.mul_comm

/-- Providers that agree with everything, and renderers that write nothing. -/
def agreeing : ScopeServices Nat where
  shared :=
    { ops := wholeNumbers
      ofNat := id
      embedText := fun _ => .ok [1]
      decideEquivalence := fun _ _ => .ok true
      decideGenerality := fun _ => .ok true
      toRfc3339 := fun _ => []
      mergeYaml := fun _ => .ok [] }
  promotionYaml := fun _ => .ok []
  demotionYaml := fun _ => .ok []
  clusterOrder := fun _ => HashOrder.unchanged _

/-- A runner without snapshots that writes below `/g`. -/
def recurring : PromotionPassRunner Nat where
  skillSnapshots := []
  projectIdentifierTokens := ["acme"]
  writerConfig := ⟨[[], "g"], ".skills"⟩
  recurrenceConfigured := true
  recurrenceConfig := ⟨2, 1⟩
  demotionConfigured := false

/-- A workspace with the directory `/g` and nothing else. -/
def globalRootOnly : Workspace Nat where
  fs := ⟨fun path => if path = [[]] ∨ path = [[], "g".toList] then some .directory else none⟩
  audits := []
  created := []

def oneSkillOfTwoProjects : List ProjectSkillRow :=
  [⟨"a", "retry", "again", [], ["/p/one/.skills/a/SKILL.md"]⟩,
    ⟨"b", "retry", "again", [], ["/p/two/.skills/b/SKILL.md"]⟩]

def retryPromotion : PromotionProposal :=
  ⟨[[], "g", ".skills", "promote--a", "SKILL.md.pending"], ["a"], [.project], .global, .recurrence 2,
    [[[], "p", "one", ".skills", "a", "SKILL.md"]]⟩

theorem oneSkillOfTwoProjects_promoted : returned? (runRecurrencePass agreeing (HostFaults.none Nat) recurring 0
    (.ok oneSkillOfTwoProjects) globalRootOnly) = some [retryPromotion] := by decide +kernel

/-- A workspace without anything. -/
def bare : Workspace Nat := ⟨⟨fun _ => none⟩, [], []⟩

theorem oneSkillOfTwoProjects_rootless : returned? (runRecurrencePass agreeing (HostFaults.none Nat) recurring 0
    (.ok oneSkillOfTwoProjects) bare) = none := by decide +kernel

theorem answered_agreeing (rows : List ProjectSkillRow) : Answered agreeing recurring rows :=
  ⟨fun _ _ => ⟨[1], rfl⟩, fun _ _ _ _ => ⟨true, rfl⟩⟩

/-- One skill of two projects is one component, and one promotion with both roots is written; where
the global root is missing, its write fails. -/
theorem recurrence_exact_twoProjects :
    (∃ clusters, buildRecurrenceClusters agreeing 1 (embeddedRows agreeing oneSkillOfTwoProjects) =
        .ok clusters ∧ clusters.Perm ((Forest.components (Edge agreeing 1
          (embeddedRows agreeing oneSkillOfTwoProjects))).map (rowsAt (embeddedRows agreeing oneSkillOfTwoProjects)))) ∧
    (∃ after written, written.Perm (componentPromotions agreeing recurring oneSkillOfTwoProjects) ∧
      Extends globalRootOnly after written ∧ [retryPromotion] = written.filterMap promotionOf) ∧
    ∃ snapshot evidence between error after,
      plannedPromotion recurring snapshot evidence ∈ componentPromotions agreeing recurring oneSkillOfTwoProjects ∧
      proposePromotion agreeing (HostFaults.none Nat) recurring 0 snapshot evidence between = .error error after := by
  obtain ⟨clustering, passes⟩ := recurrence_exact agreeing (HostFaults.none Nat) recurring 0
  have answered := answered_agreeing oneSkillOfTwoProjects
  refine ⟨clustering _ _ answered.verified, ?_, ?_⟩
  · exact ⟨_, (passes _ _ rfl).1 _ _ (of_returned oneSkillOfTwoProjects_promoted)⟩
  · obtain ⟨error, failed⟩ := of_not_returned oneSkillOfTwoProjects_rootless
    obtain ⟨snapshot, evidence, between, stopped⟩ := (passes _ _ rfl).2 answered _ _ failed
    exact ⟨snapshot, evidence, between, error, _, stopped⟩

end SkillLayer.Maintenance
