import Mathlib.Data.List.FinRange
import Mathlib.Logic.Function.Basic
import Mathlib.Logic.Relation
import Mathlib.Order.WellFounded
import SkillLayer.Grouping

/-! Disjoint sets in a parent array, with path halving and links between roots in any order. -/

namespace SkillLayer

/-- The parent of each element, a root being its own. For termination only: a depth that
decreases on the way up. -/
structure Forest (n : Nat) where
  parent : Fin n → Fin n
  depth : Fin n → Nat
  climbs : ∀ x, parent x ≠ x → depth (parent x) < depth x

namespace Forest

variable {n : Nat}

def singletons (n : Nat) : Forest n := ⟨id, fun _ => 0, fun _ other => absurd rfl other⟩

theorem depth_grandparent_lt (forest : Forest n) {x : Fin n} (inner : forest.parent x ≠ x) :
    forest.depth (forest.parent (forest.parent x)) < forest.depth x := by
  have up := forest.climbs x inner
  by_cases root : forest.parent (forest.parent x) = forest.parent x
  · rwa [root]
  · exact (forest.climbs _ root).trans up

/-- Let the element skip its parent. -/
def halve (forest : Forest n) (x : Fin n) : Forest n where
  parent := Function.update forest.parent x (forest.parent (forest.parent x))
  depth := forest.depth
  climbs := by
    intro y inner
    by_cases same : y = x
    · subst same
      rw [Function.update_self] at inner ⊢
      refine forest.depth_grandparent_lt fun root => inner ?_
      rw [root, root]
    · rw [Function.update_of_ne same] at inner ⊢
      exact forest.climbs y inner

theorem parent_halve_self (forest : Forest n) (x : Fin n) :
    (forest.halve x).parent x = forest.parent (forest.parent x) := Function.update_self _ _ _

theorem parent_halve_of_ne (forest : Forest n) {x y : Fin n} (other : y ≠ x) :
    (forest.halve x).parent y = forest.parent y := Function.update_of_ne other _ _

/-- Go up to the root, with the path to it halved on the way, for at most so many turns. -/
def climb : Nat → Forest n → Fin n → Fin n × Forest n
  | 0, forest, x => (x, forest)
  | turns + 1, forest, x =>
    if forest.parent x = x then (x, forest)
    else climb turns (forest.halve x) (forest.parent (forest.parent x))

/-- The root above the element; its depth leaves enough turns to get there. -/
def find (forest : Forest n) (x : Fin n) : Fin n × Forest n := climb (forest.depth x) forest x

/-- The root above the element. -/
def top (forest : Forest n) (x : Fin n) : Fin n :=
  if _ : forest.parent x = x then x else forest.top (forest.parent x)
termination_by forest.depth x
decreasing_by exact forest.climbs x ‹_›

theorem top_root {forest : Forest n} {x : Fin n} (root : forest.parent x = x) : forest.top x = x := by
  rw [top, dif_pos root]

theorem top_parent (forest : Forest n) (x : Fin n) : forest.top (forest.parent x) = forest.top x := by
  by_cases root : forest.parent x = x
  · rw [root]
  · conv_rhs => rw [top, dif_neg root]

theorem parent_top (forest : Forest n) (x : Fin n) : forest.parent (forest.top x) = forest.top x := by
  fun_induction top forest x with
  | case1 x root => exact root
  | case2 x inner ih => exact ih

/-- Halving a path moves no element to another root. -/
theorem top_halve (forest : Forest n) (x y : Fin n) : (forest.halve x).top y = forest.top y := by
  induction depth : forest.depth y using Nat.strong_induction_on generalizing y with
  | _ depth ih =>
    subst depth
    by_cases root : forest.parent y = y
    · rw [top_root root]
      refine top_root ?_
      by_cases same : y = x
      · subst same
        rw [parent_halve_self, root, root]
      · rw [parent_halve_of_ne forest same, root]
    · rw [← top_parent (forest.halve x)]
      by_cases same : y = x
      · subst same
        rw [parent_halve_self, ih _ (forest.depth_grandparent_lt root) _ rfl, top_parent, top_parent]
      · rw [parent_halve_of_ne forest same, ih _ (forest.climbs y root) _ rfl, top_parent]

theorem climb_spec {turns : Nat} {forest : Forest n} {x : Fin n} (enough : forest.depth x ≤ turns) :
    (climb turns forest x).1 = forest.top x ∧ ∀ y, (climb turns forest x).2.top y = forest.top y := by
  induction turns generalizing forest x with
  | zero =>
    have root : forest.parent x = x := by
      by_contra inner
      have up := forest.climbs x inner
      omega
    exact ⟨(top_root root).symm, fun _ => rfl⟩
  | succ turns ih =>
    rw [climb]
    split
    · rename_i root
      exact ⟨(top_root root).symm, fun _ => rfl⟩
    · rename_i inner
      have up := forest.depth_grandparent_lt inner
      have fewer : (forest.halve x).depth (forest.parent (forest.parent x)) ≤ turns := by
        change forest.depth _ ≤ turns
        omega
      obtain ⟨found, kept⟩ := ih fewer
      constructor
      · rw [found, top_halve, top_parent, top_parent]
      · intro y
        rw [kept, top_halve]

theorem find_spec (forest : Forest n) (x : Fin n) :
    (forest.find x).1 = forest.top x ∧ ∀ y, (forest.find x).2.top y = forest.top y :=
  climb_spec (Nat.le_refl _)

theorem parent_find (forest : Forest n) (x : Fin n) :
    (forest.find x).2.parent (forest.find x).1 = (forest.find x).1 := by
  obtain ⟨found, kept⟩ := forest.find_spec x
  have root := parent_top (forest.find x).2 x
  rwa [kept, ← found] at root

/-- Hang one element under a root other than itself. -/
def link (forest : Forest n) (x root : Fin n) (isRoot : forest.parent root = root) (apart : x ≠ root) :
    Forest n where
  parent := Function.update forest.parent x root
  depth y := if y = root then 0 else forest.depth y + 1
  climbs := by
    intro y inner
    by_cases same : y = x
    · subst same
      rw [Function.update_self, if_pos rfl, if_neg apart]
      exact Nat.succ_pos _
    · rw [Function.update_of_ne same] at inner ⊢
      have notRoot : y ≠ root := by
        rintro rfl
        exact inner isRoot
      have up := forest.climbs y inner
      rw [if_neg notRoot]
      split <;> omega

theorem parent_link_self (forest : Forest n) {x root : Fin n} (isRoot : forest.parent root = root)
    (apart : x ≠ root) : (forest.link x root isRoot apart).parent x = root := Function.update_self _ _ _

theorem parent_link_of_ne (forest : Forest n) {x root y : Fin n} (isRoot : forest.parent root = root)
    (apart : x ≠ root) (other : y ≠ x) :
    (forest.link x root isRoot apart).parent y = forest.parent y := Function.update_of_ne other _ _

/-- Linking a root moves its whole tree, and nothing else, to the other root. -/
theorem top_link {forest : Forest n} {x root : Fin n} (xRoot : forest.parent x = x)
    (isRoot : forest.parent root = root) (apart : x ≠ root) (y : Fin n) :
    (forest.link x root isRoot apart).top y = if forest.top y = x then root else forest.top y := by
  have rootStays : (forest.link x root isRoot apart).parent root = root := by
    rw [parent_link_of_ne forest isRoot apart apart.symm, isRoot]
  fun_induction top forest y with
  | case1 y isTop =>
    by_cases same : y = x
    · subst same
      rw [if_pos rfl, ← top_parent, parent_link_self]
      exact top_root rootStays
    · rw [if_neg same]
      refine top_root ?_
      rw [parent_link_of_ne forest isRoot apart same, isTop]
  | case2 y inner ih =>
    have other : y ≠ x := by
      rintro rfl
      exact inner xRoot
    rw [← ih, ← top_parent, parent_link_of_ne forest isRoot apart other]

/-- Join the sets of two elements, the first root under the second. -/
def union (forest : Forest n) (i j : Fin n) : Forest n :=
  let first := forest.find i
  let second := first.2.find j
  if apart : first.1 ≠ second.1 then second.2.link first.1 second.1 (first.2.parent_find j) apart
  else second.2

theorem top_union (forest : Forest n) (i j y : Fin n) :
    (forest.union i j).top y = if forest.top y = forest.top i then forest.top j else forest.top y := by
  obtain ⟨firstFound, firstKept⟩ := forest.find_spec i
  obtain ⟨secondFound, secondKept⟩ := (forest.find i).2.find_spec j
  have kept (z : Fin n) : ((forest.find i).2.find j).2.top z = forest.top z := by
    rw [secondKept, firstKept]
  rw [firstKept] at secondFound
  have iRoot : ((forest.find i).2.find j).2.parent (forest.find i).1 = (forest.find i).1 := by
    have root := parent_top ((forest.find i).2.find j).2 i
    rwa [kept, ← firstFound] at root
  unfold union
  dsimp only
  split
  · rename_i apart
    rw [top_link iRoot, kept, firstFound, secondFound]
  · rename_i same
    rw [not_not, firstFound, secondFound] at same
    rw [kept]
    split
    · rename_i here
      rw [here, same]
    · rfl

/-! ### Components -/

/-- Two elements have the same root exactly when the relation connects them. -/
def Joins (forest : Forest n) (related : Fin n → Fin n → Prop) : Prop :=
  ∀ x y, forest.top x = forest.top y ↔ Relation.EqvGen related x y

theorem eqvGen_top {forest : Forest n} {related : Fin n → Fin n → Prop} {x y : Fin n}
    (closed : ∀ v w, related v w → forest.top v = forest.top w)
    (connected : Relation.EqvGen related x y) : forest.top x = forest.top y := by
  induction connected with
  | rel v w edge => exact closed v w edge
  | refl v => rfl
  | symm v w _ ih => exact ih.symm
  | trans v w z _ _ first second => exact first.trans second

theorem singletons_joins : (singletons n).Joins fun _ _ => False := by
  intro x y
  constructor
  · intro same
    rw [top_root rfl, top_root rfl] at same
    rw [same]
    exact .refl y
  · exact eqvGen_top fun _ _ edge => edge.elim

theorem Joins.union {forest : Forest n} {related : Fin n → Fin n → Prop} (joins : forest.Joins related)
    (i j : Fin n) : (forest.union i j).Joins fun v w => related v w ∨ (v = i ∧ w = j) := by
  have more {v w : Fin n} (connected : Relation.EqvGen related v w) :
      Relation.EqvGen (fun v w => related v w ∨ (v = i ∧ w = j)) v w :=
    connected.mono fun _ _ => Or.inl
  have edge : Relation.EqvGen (fun v w => related v w ∨ (v = i ∧ w = j)) i j :=
    .rel i j (Or.inr ⟨rfl, rfl⟩)
  intro x y
  constructor
  · intro same
    rw [top_union, top_union] at same
    split at same
    · rename_i xWith
      split at same
      · rename_i yWith
        exact more ((joins x y).mp (xWith.trans yWith.symm))
      · exact ((more ((joins x i).mp xWith)).trans _ _ _ edge).trans _ _ _ (more ((joins j y).mp same))
    · split at same
      · rename_i yWith
        exact ((more ((joins x j).mp same)).trans _ _ _ (edge.symm _ _)).trans _ _ _
          (more ((joins i y).mp yWith.symm))
      · exact more ((joins x y).mp same)
  · refine eqvGen_top fun v w connected => ?_
    rw [top_union, top_union]
    rcases connected with old | ⟨rfl, rfl⟩
    · rw [(joins v w).mpr (.rel v w old)]
    · rw [if_pos rfl]
      split <;> rfl

theorem Joins.congr {forest : Forest n} {related other : Fin n → Fin n → Prop}
    (joins : forest.Joins related) (same : ∀ v w, related v w ↔ other v w) : forest.Joins other := by
  obtain rfl : related = other := funext fun v => funext fun w => propext (same v w)
  exact joins

/-- The roots of a list of elements, found one after the other. -/
def roots (forest : Forest n) : List (Fin n) → List (Fin n)
  | [] => []
  | x :: rest => (forest.find x).1 :: (forest.find x).2.roots rest

theorem roots_eq (forest : Forest n) (elements : List (Fin n)) :
    forest.roots elements = elements.map forest.top := by
  induction elements generalizing forest with
  | nil => rfl
  | cons x rest ih =>
    obtain ⟨found, kept⟩ := forest.find_spec x
    rw [roots, ih, List.map_cons, found]
    congr 2
    exact funext kept

/-- The elements under their roots. -/
def classes (forest : Forest n) : List (Fin n × List (Fin n)) :=
  group ((forest.roots (List.finRange n)).zip (List.finRange n))

theorem nodup_keys_classes (forest : Forest n) : (forest.classes.map Prod.fst).Nodup := nodup_keys_group _

theorem classes_eq (forest : Forest n) :
    forest.classes = group ((List.finRange n).map fun x => (forest.top x, x)) := by
  rw [classes, roots_eq, List.map_prod_right_eq_zip]

/-- The elements connected to an element, in order. -/
noncomputable def component (related : Fin n → Fin n → Prop) (x : Fin n) : List (Fin n) :=
  open Classical in (List.finRange n).filter fun y => Relation.EqvGen related x y

/-- No connected element comes before this one. -/
def Lowest (related : Fin n → Fin n → Prop) (x : Fin n) : Prop := ∀ y, Relation.EqvGen related x y → x ≤ y

/-- The connected components, each once, in the order of their lowest elements. -/
noncomputable def components (related : Fin n → Fin n → Prop) : List (List (Fin n)) :=
  open Classical in ((List.finRange n).filter fun x => Lowest related x).map (component related)

theorem mem_component {related : Fin n → Fin n → Prop} {x y : Fin n} :
    y ∈ component related x ↔ Relation.EqvGen related x y := by
  simp [component]

theorem mem_components {related : Fin n → Fin n → Prop} {members : List (Fin n)} :
    members ∈ components related ↔ ∃ x, Lowest related x ∧ component related x = members := by
  simp [components]

theorem component_congr {related : Fin n → Fin n → Prop} {x y : Fin n}
    (connected : Relation.EqvGen related x y) : component related x = component related y := by
  unfold component
  refine List.filter_congr fun z _ => ?_
  rw [decide_eq_decide]
  exact ⟨fun toX => (connected.symm _ _).trans _ _ _ toX, fun toY => connected.trans _ _ _ toY⟩

theorem exists_lowest (related : Fin n → Fin n → Prop) (x : Fin n) :
    ∃ y, Lowest related y ∧ Relation.EqvGen related x y := by
  obtain ⟨y, connected, least⟩ := wellFounded_lt.has_min {y | Relation.EqvGen related x y} ⟨x, .refl x⟩
  refine ⟨y, fun z further => ?_, connected⟩
  exact not_lt.mp (least z (connected.trans _ _ _ further))

theorem nodup_components (related : Fin n → Fin n → Prop) : (components related).Nodup := by
  unfold components
  refine List.Nodup.map_on ?_ ((List.nodup_finRange n).filter _)
  intro x xLowest y yLowest same
  have connected : Relation.EqvGen related x y := by
    rw [← mem_component, same, mem_component]
    exact .refl y
  simp only [List.mem_filter, decide_eq_true_eq] at xLowest yLowest
  exact le_antisymm (xLowest.2 y connected) (yLowest.2 x (connected.symm _ _))

/-- The lowest element leads its component. -/
theorem component_head {related : Fin n → Fin n → Prop} {x : Fin n} (lowest : Lowest related x) :
    ∃ others, component related x = x :: others := by
  have member : x ∈ component related x := mem_component.mpr (.refl x)
  have increasing : (component related x).Pairwise (· < ·) := (List.pairwise_lt_finRange n).filter _
  cases list : component related x with
  | nil => simp [list] at member
  | cons first others =>
    rw [list] at member increasing
    have connected : Relation.EqvGen related x first := by
      rw [← mem_component, list]
      exact List.mem_cons_self
    rcases List.mem_cons.mp member with rfl | later
    · exact ⟨others, rfl⟩
    · have above := (List.pairwise_cons.mp increasing).1 x later
      exact absurd (lowest first connected) (not_le.mpr above)

/-- A class is the component of each of its members. -/
theorem members_of_class {forest : Forest n} {related : Fin n → Fin n → Prop} (joins : forest.Joins related)
    {root : Fin n} {members : List (Fin n)} (entry : (root, members) ∈ forest.classes) {x : Fin n}
    (above : forest.top x = root) : members = component related x := by
  rw [classes_eq] at entry
  obtain ⟨-, rfl⟩ := mem_group.mp entry
  have plain : (Prod.snd ∘ fun y => (forest.top y, y)) = id := rfl
  rw [List.filter_map, List.map_map, plain, List.map_id]
  refine List.filter_congr fun y _ => ?_
  rw [Function.comp_apply, decide_eq_decide, ← joins x y, above]
  exact eq_comm

/-- The classes are the connected components. -/
theorem classes_perm {forest : Forest n} {related : Fin n → Fin n → Prop} (joins : forest.Joins related) :
    (forest.classes.map Prod.snd).Perm (components related) := by
  have root_of {root : Fin n} {members : List (Fin n)} (entry : (root, members) ∈ forest.classes) :
      ∃ x, forest.top x = root := by
    rw [classes_eq] at entry
    obtain ⟨⟨value, pushed⟩, -⟩ := mem_group.mp entry
    obtain ⟨x, -, same⟩ := List.mem_map.mp pushed
    exact ⟨x, (Prod.mk.inj same).1⟩
  refine (List.perm_ext_iff_of_nodup ?_ (nodup_components related)).mpr fun members => ?_
  · refine List.Nodup.map_on ?_ (List.Nodup.of_map Prod.fst (nodup_keys_classes forest))
    rintro ⟨root, members⟩ entry ⟨other, _⟩ otherEntry rfl
    obtain ⟨x, above⟩ := root_of entry
    obtain ⟨y, otherAbove⟩ := root_of otherEntry
    have same := (members_of_class joins entry above).symm.trans (members_of_class joins otherEntry otherAbove)
    have connected : Relation.EqvGen related x y := by
      rw [← mem_component, same, mem_component]
      exact .refl y
    have tops := (joins x y).mpr connected
    rw [above, otherAbove] at tops
    rw [tops]
  · rw [List.mem_map, mem_components]
    constructor
    · rintro ⟨⟨root, members⟩, entry, rfl⟩
      obtain ⟨x, above⟩ := root_of entry
      obtain ⟨y, lowest, connected⟩ := exists_lowest related x
      exact ⟨y, lowest, (component_congr connected).symm.trans (members_of_class joins entry above).symm⟩
    · rintro ⟨x, -, rfl⟩
      have pushed : (forest.top x, x) ∈ (List.finRange n).map fun x => (forest.top x, x) :=
        List.mem_map.mpr ⟨x, List.mem_finRange x, rfl⟩
      obtain ⟨⟨root, members⟩, entry, same⟩ := List.mem_map.mp (mem_keys_group.mpr ⟨x, pushed⟩)
      rw [← classes_eq] at entry
      exact ⟨_, entry, members_of_class joins entry same.symm⟩

end Forest
end SkillLayer
