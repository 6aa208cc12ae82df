import Mathlib.Data.List.Basic
import Mathlib.Data.List.Induction
import Mathlib.Data.List.Nodup
import Mathlib.Order.Lattice

/-! Greedy selection: again and again the first of the best among what remains. -/

namespace SkillLayer

universe u v
variable {Item : Type u} {Score : Type v} [LinearOrder Score]

/-- One step of a scan for the best item; a later one has to be strictly better. -/
def better (value : Item → Score) (best : Option Item × Score) (item : Item) : Option Item × Score :=
  if best.2 < value item then (some item, value item) else best

/-- The first best item, if one is above the floor. -/
def pick (value : Item → Score) (floor : Score) (items : List Item) : Option Item :=
  (items.foldl (better value) (none, floor)).1

variable {value : Item → Score} {floor : Score} {items : List Item}

theorem foldl_better_mem (best : Option Item × Score) {winner : Item}
    (found : (items.foldl (better value) best).1 = some winner) : best.1 = some winner ∨ winner ∈ items := by
  induction items generalizing best with
  | nil => exact .inl found
  | cons item rest ih =>
    rcases ih (better value best item) found with before | later
    · unfold better at before
      split at before
      · exact .inr (Option.some.inj before ▸ List.mem_cons_self)
      · exact .inl before
    · exact .inr (List.mem_cons_of_mem _ later)

theorem pick_mem {winner : Item} (found : pick value floor items = some winner) : winner ∈ items := by
  rcases foldl_better_mem (none, floor) found with before | member
  · cases before
  · exact member

theorem foldl_better_isSome {best : Option Item × Score} (some_ : best.1.isSome = true) :
    (items.foldl (better value) best).1.isSome = true := by
  induction items generalizing best with
  | nil => exact some_
  | cons item rest ih =>
    apply ih
    unfold better
    split
    · rfl
    · exact some_

/-- A scan finds something as soon as one item is above the floor at the start. -/
theorem exists_pick (above : ∀ item ∈ items, floor < value item) (nonempty : items ≠ []) :
    ∃ winner, pick value floor items = some winner := by
  obtain ⟨first, rest, rfl⟩ := List.exists_cons_of_ne_nil nonempty
  rw [← Option.isSome_iff_exists, pick, List.foldl_cons, better,
    if_pos (above first List.mem_cons_self)]
  exact foldl_better_isSome rfl

/-! ### The first best item -/

/-- Strictly above every item before it, and at least as good as every item after it. -/
def FirstBest (value : Item → Score) (items : List Item) (winner : Item) : Prop :=
  ∃ before after, items = before ++ winner :: after ∧ (∀ other ∈ before, value other < value winner) ∧
    ∀ other ∈ after, value other ≤ value winner

theorem FirstBest.mem {winner : Item} (best : FirstBest value items winner) : winner ∈ items := by
  obtain ⟨before, after, rfl, -, -⟩ := best
  exact List.mem_append_right _ List.mem_cons_self

theorem FirstBest.le {winner : Item} (best : FirstBest value items winner) {other : Item} (member : other ∈ items) :
    value other ≤ value winner := by
  obtain ⟨before, after, rfl, below, behind⟩ := best
  rcases List.mem_append.mp member with earlier | here
  · exact (below other earlier).le
  · rcases List.mem_cons.mp here with rfl | later
    · exact le_rfl
    · exact behind other later

theorem firstBest_singleton (item : Item) : FirstBest value [item] item :=
  ⟨[], [], rfl, List.forall_mem_nil _, List.forall_mem_nil _⟩

/-- A later item takes over only when it is strictly better. -/
theorem FirstBest.append_singleton {winner : Item} (best : FirstBest value items winner) (next : Item) :
    FirstBest value (items ++ [next]) (if value winner < value next then next else winner) := by
  split
  · rename_i ahead
    exact ⟨items, [], rfl, fun other member => (best.le member).trans_lt ahead, List.forall_mem_nil _⟩
  · rename_i behind
    obtain ⟨before, after, rfl, below, rest⟩ := best
    refine ⟨before, after ++ [next], by simp, below, ?_⟩
    intro other member
    rcases List.mem_append.mp member with earlier | last
    · exact rest other earlier
    · rw [List.mem_singleton.mp last]
      exact not_lt.mp behind

theorem FirstBest.unique {winner other : Item} (best : FirstBest value items winner)
    (second : FirstBest value items other) : winner = other := by
  have alike : value winner = value other := le_antisymm (second.le best.mem) (best.le second.mem)
  obtain ⟨before, after, whole, below, -⟩ := best
  obtain ⟨before', after', whole', below', -⟩ := second
  rw [whole] at whole'
  rcases List.append_eq_append_iff.mp whole' with ⟨middle, front, back⟩ | ⟨middle, front, back⟩
  · cases middle with
    | nil => exact (List.cons.inj back).1
    | cons first middle =>
      have earlier : winner ∈ before' := by
        rw [front, (List.cons.inj back).1]
        exact List.mem_append_right _ List.mem_cons_self
      exact absurd alike (below' winner earlier).ne
  · cases middle with
    | nil => exact (List.cons.inj back).1.symm
    | cons first middle =>
      have earlier : other ∈ before := by
        rw [front, (List.cons.inj back).1]
        exact List.mem_append_right _ List.mem_cons_self
      exact absurd alike.symm (below other earlier).ne

/-- The first best item, where there is one. -/
def firstBest? (value : Item → Score) (items : List Item) : Option Item :=
  items.foldl (fun best item => some (best.elim item fun winner => if value winner < value item then item else winner))
    none

theorem firstBest?_eq_some_iff {winner : Item} : firstBest? value items = some winner ↔ FirstBest value items winner := by
  have found : items ≠ [] → ∃ best, firstBest? value items = some best ∧ FirstBest value items best := by
    intro nonempty
    induction items using List.reverseRecOn with
    | nil => exact absurd rfl nonempty
    | append_singleton earlier last ih =>
      unfold firstBest? at ih ⊢
      rw [List.foldl_append, List.foldl_cons, List.foldl_nil]
      rcases List.eq_nil_or_concat earlier with rfl | ⟨front, item, rfl⟩
      · exact ⟨last, rfl, firstBest_singleton last⟩
      · obtain ⟨best, scanned, isBest⟩ := ih (by simp)
        rw [scanned]
        exact ⟨_, rfl, isBest.append_singleton last⟩
  constructor
  · intro scanned
    have nonempty : items ≠ [] := by
      rintro rfl
      cases scanned
    obtain ⟨best, same, isBest⟩ := found nonempty
    exact Option.some.inj (same.symm.trans scanned) ▸ isBest
  · intro isBest
    obtain ⟨best, same, alsoBest⟩ := found (List.ne_nil_of_mem isBest.mem)
    rw [same, alsoBest.unique isBest]

/-- What a scan from the floor has found: nothing above it, or the first best item. -/
theorem foldl_better_cases (value : Item → Score) (floor : Score) (items : List Item) :
    (items.foldl (better value) (none, floor) = (none, floor) ∧ ∀ item ∈ items, value item ≤ floor) ∨
      ∃ winner, items.foldl (better value) (none, floor) = (some winner, value winner) ∧
        FirstBest value items winner ∧ floor < value winner := by
  induction items using List.reverseRecOn with
  | nil => exact .inl ⟨rfl, List.forall_mem_nil _⟩
  | append_singleton items last ih =>
    rw [List.foldl_append, List.foldl_cons, List.foldl_nil]
    rcases ih with ⟨nothing, small⟩ | ⟨winner, scanned, best, above⟩
    · rw [nothing, better]
      split
      · rename_i ahead
        refine .inr ⟨last, rfl, ⟨items, [], rfl, ?_, List.forall_mem_nil _⟩, ahead⟩
        exact fun other member => (small other member).trans_lt ahead
      · rename_i behind
        refine .inl ⟨rfl, ?_⟩
        intro item member
        rcases List.mem_append.mp member with earlier | here
        · exact small item earlier
        · rw [List.mem_singleton.mp here]
          exact not_lt.mp behind
    · rw [scanned, better]
      have further := best.append_singleton last
      split
      · rename_i ahead
        rw [if_pos ahead] at further
        exact .inr ⟨last, rfl, further, above.trans ahead⟩
      · rename_i behind
        rw [if_neg behind] at further
        exact .inr ⟨winner, rfl, further, above⟩

/-- The scan finds the first best item when that is above the floor. -/
theorem pick_eq_some_iff {winner : Item} :
    pick value floor items = some winner ↔ FirstBest value items winner ∧ floor < value winner := by
  unfold pick
  rcases foldl_better_cases value floor items with ⟨nothing, small⟩ | ⟨found, scanned, best, above⟩
  · rw [nothing]
    constructor
    · intro impossible
      cases impossible
    · intro ⟨best, above⟩
      exact absurd above (small winner best.mem).not_gt
  · rw [scanned, Option.some.injEq]
    constructor
    · intro same
      exact same ▸ ⟨best, above⟩
    · intro ⟨other, _⟩
      exact best.unique other

theorem pick_eq_none_iff : pick value floor items = none ↔ ∀ item ∈ items, value item ≤ floor := by
  unfold pick
  rcases foldl_better_cases value floor items with ⟨nothing, small⟩ | ⟨found, scanned, best, above⟩
  · rw [nothing]
    exact ⟨fun _ => small, fun _ => rfl⟩
  · rw [scanned]
    constructor
    · intro impossible
      cases impossible
    · intro small
      exact absurd above (small found best.mem).not_gt

/-! ### Selecting -/

variable [DecidableEq Item]

/-- Up to `budget` more items, each of them the best for what was selected before it. -/
def select (value : List Item → Item → Score) (floor : Score) : Nat → List Item → List Item → List Item
  | 0, selected, _ => selected
  | budget + 1, selected, remaining =>
    match pick (value selected) floor remaining with
    | none => selected
    | some winner => select value floor budget (selected ++ [winner]) (remaining.filter fun item => item ≠ winner)

variable {value : List Item → Item → Score} {budget : Nat} {selected remaining : List Item}

/-- Each item stands in the relation to those chosen before it. -/
def EachStep (related : List Item → Item → Prop) (chosen : List Item) : Prop :=
  ∀ step item, chosen[step]? = some item → related (chosen.take step) item

omit [DecidableEq Item] in
theorem eachStep_nil (related : List Item → Item → Prop) : EachStep related [] := by
  intro step item found
  cases found

omit [DecidableEq Item] in
theorem EachStep.append_singleton {related : List Item → Item → Prop} {chosen : List Item} {winner : Item}
    (each : EachStep related chosen) (next : related chosen winner) : EachStep related (chosen ++ [winner]) := by
  intro step item found
  rcases Nat.lt_trichotomy step chosen.length with before | rfl | after
  · rw [List.getElem?_append_left before] at found
    rw [List.take_append_of_le_length before.le]
    exact each step item found
  · rw [List.getElem?_concat_length] at found
    rw [List.take_left, ← Option.some.inj found]
    exact next
  · rw [List.getElem?_eq_none (by rw [List.length_append, List.length_singleton]; omega)] at found
    cases found

/-- A greedy selection: each chosen item is the first best of those still there. -/
structure Greedy (value : List Item → Item → Score) (items chosen : List Item) : Prop where
  distinct : chosen.Nodup
  best : EachStep (fun before => FirstBest (value before) (items.filter fun other => other ∉ before)) chosen

theorem Greedy.subset {items chosen : List Item} (greedy : Greedy value items chosen) : chosen ⊆ items := by
  intro item member
  obtain ⟨step, found⟩ := List.mem_iff_getElem?.mp member
  exact (List.mem_filter.mp (greedy.best step item found).mem).1

theorem Greedy.append_singleton {items chosen : List Item} {winner : Item} (greedy : Greedy value items chosen)
    (next : FirstBest (value chosen) (items.filter fun other => other ∉ chosen) winner) :
    Greedy value items (chosen ++ [winner]) where
  distinct := by
    have fresh := of_decide_eq_true (List.mem_filter.mp next.mem).2
    exact List.nodup_append.mpr ⟨greedy.distinct, by simp, by
      intro one inChosen two inNew same
      rw [List.mem_singleton.mp inNew] at same
      exact fresh (same ▸ inChosen)⟩
  best := greedy.best.append_singleton next

theorem filter_fresh_append (items chosen : List Item) (winner : Item) :
    (items.filter fun item => item ∉ chosen).filter (fun item => item ≠ winner) =
      items.filter fun item => item ∉ chosen ++ [winner] := by
  rw [List.filter_filter]
  refine List.filter_congr fun item _ => ?_
  simp [and_comm, not_or]

/-- What each choice keeps holds of the whole selection. -/
theorem select_induction {holds : List Item → Prop} {items : List Item} (start : holds selected)
    (next : ∀ chosen winner, holds chosen →
      pick (value chosen) floor (items.filter fun item => item ∉ chosen) = some winner → holds (chosen ++ [winner])) :
    holds (select value floor budget selected (items.filter fun item => item ∉ selected)) := by
  induction budget generalizing selected with
  | zero => exact start
  | succ budget ih =>
    unfold select
    split
    · exact start
    · rename_i winner found
      rw [filter_fresh_append]
      exact ih (next selected winner start found)

/-- The selection from the start is greedy, and every choice was above the floor when it was made. -/
theorem greedy_select (value : List Item → Item → Score) (floor : Score) (budget : Nat) (items : List Item) :
    Greedy value items (select value floor budget [] items) ∧
      EachStep (fun before item => floor < value before item) (select value floor budget [] items) := by
  let holds (chosen : List Item) := Greedy value items chosen ∧
    EachStep (fun before item => floor < value before item) chosen
  have ran : holds (select value floor budget [] (items.filter fun item => item ∉ ([] : List Item))) := by
    refine select_induction ⟨⟨List.nodup_nil, eachStep_nil _⟩, eachStep_nil _⟩ ?_
    intro chosen winner ⟨greedy, above⟩ found
    obtain ⟨best, high⟩ := pick_eq_some_iff.mp found
    exact ⟨greedy.append_singleton best, above.append_singleton high⟩
  have whole : (items.filter fun item => item ∉ ([] : List Item)) = items := by simp
  rwa [whole] at ran

theorem prefix_select (value : List Item → Item → Score) (floor : Score) (budget : Nat)
    (selected remaining : List Item) : selected <+: select value floor budget selected remaining := by
  induction budget generalizing selected remaining with
  | zero => exact List.prefix_rfl
  | succ budget ih =>
    unfold select
    split
    · exact List.prefix_rfl
    · exact (List.prefix_append _ _).trans (ih _ _)

/-- A larger budget only adds to the end. -/
theorem select_begins (value : List Item → Item → Score) (floor : Score) {budget larger : Nat} (more : budget ≤ larger)
    (selected remaining : List Item) :
    select value floor budget selected remaining <+: select value floor larger selected remaining := by
  induction budget generalizing larger selected remaining with
  | zero => exact prefix_select ..
  | succ budget ih =>
    obtain ⟨larger, rfl⟩ := Nat.exists_eq_succ_of_ne_zero (Nat.ne_zero_of_lt more)
    unfold select
    split
    · exact List.prefix_rfl
    · exact ih (Nat.le_of_succ_le_succ more) _ _

/-- A selection uses up its budget, or ends when nothing above the floor is left. -/
theorem select_ends (value : List Item → Item → Score) (floor : Score) (budget : Nat) (selected items : List Item) :
    (select value floor budget selected (items.filter fun item => item ∉ selected)).length = selected.length + budget ∨
      (select value floor budget selected (items.filter fun item => item ∉ selected)).length < selected.length + budget ∧
      ∀ item ∈ items, item ∉ select value floor budget selected (items.filter fun item => item ∉ selected) →
        value (select value floor budget selected (items.filter fun item => item ∉ selected)) item ≤ floor := by
  induction budget generalizing selected with
  | zero => exact .inl rfl
  | succ budget ih =>
    unfold select
    split
    · rename_i nothing
      refine .inr ⟨by omega, fun item member fresh => ?_⟩
      exact pick_eq_none_iff.mp nothing item (List.mem_filter.mpr ⟨member, decide_eq_true fresh⟩)
    · rename_i winner found
      have further := ih (selected ++ [winner])
      rw [filter_fresh_append]
      rwa [List.length_append, List.length_singleton, Nat.add_assoc, Nat.add_comm 1 budget] at further

theorem select_ends_from_start (value : List Item → Item → Score) (floor : Score) (budget : Nat) (items : List Item) :
    (select value floor budget [] items).length = budget ∨ (select value floor budget [] items).length < budget ∧
      ∀ item ∈ items, item ∉ select value floor budget [] items →
        value (select value floor budget [] items) item ≤ floor := by
  have ends := select_ends value floor budget [] items
  have whole : (items.filter fun item => item ∉ ([] : List Item)) = items := by simp
  rwa [whole, List.length_nil, Nat.zero_add] at ends

theorem filter_not_mem_take {items : List Item} (distinct : items.Nodup) (step : Nat) :
    (items.filter fun other => other ∉ items.take step) = items.drop step := by
  have apart : (items.take step).Disjoint (items.drop step) := by
    apply List.disjoint_of_nodup_append
    rwa [List.take_append_drop]
  have front : ((items.take step).filter fun other => other ∉ items.take step) = [] :=
    List.filter_eq_nil_iff.mpr fun other member => by simp [member]
  have back : ((items.drop step).filter fun other => other ∉ items.take step) = items.drop step :=
    List.filter_eq_self.mpr fun other member => decide_eq_true fun early => apart early member
  calc (items.filter fun other => other ∉ items.take step)
      = ((items.take step ++ items.drop step).filter fun other => other ∉ items.take step) := by
        rw [List.take_append_drop]
    _ = items.drop step := by rw [List.filter_append, front, back, List.nil_append]

omit [DecidableEq Item] in
theorem FirstBest.eq_head {first winner : Item} {rest : List Item} {value : Item → Score}
    (best : FirstBest value (first :: rest) winner) (falling : ∀ item ∈ rest, value item ≤ value first) :
    winner = first :=
  best.unique ⟨[], rest, rfl, List.forall_mem_nil _, falling⟩

/-- Where every value falls along the list, a greedy selection takes the front of it. -/
theorem Greedy.eq_take {items chosen : List Item} (greedy : Greedy value items chosen) (distinct : items.Nodup)
    (falling : ∀ before, items.Pairwise fun one two => value before two ≤ value before one) :
    chosen = items.take chosen.length := by
  have fronts (step : Nat) (within : step ≤ chosen.length) : chosen.take step = items.take step := by
    induction step with
    | zero => rfl
    | succ step ih =>
      have same := ih (by omega)
      have here : chosen[step]? = some chosen[step] := List.getElem?_eq_getElem (by omega)
      have best := greedy.best step _ here
      rw [same, filter_not_mem_take distinct] at best
      have ordered := (falling (items.take step)).sublist (List.drop_sublist step items)
      cases rest : items.drop step with
      | nil =>
        rw [rest] at best
        exact absurd best.mem List.not_mem_nil
      | cons first tail =>
        rw [rest] at best ordered
        have head : chosen[step] = first := best.eq_head (List.pairwise_cons.mp ordered).1
        rw [List.take_add_one, List.take_add_one, same, here, head, ← List.head?_drop, rest, List.head?_cons]
  have whole := fronts chosen.length le_rfl
  rwa [List.take_length] at whole

theorem mem_select_of_mem {item : Item} (member : item ∈ selected) :
    item ∈ select value floor budget selected remaining := by
  induction budget generalizing selected remaining with
  | zero => exact member
  | succ budget ih =>
    unfold select
    split
    · exact member
    · exact ih (List.mem_append_left _ member)

/-- With budget for all of them and all values above the floor, every item is selected. -/
theorem mem_select_of_room {item : Item} (room : remaining.length ≤ budget)
    (above : ∀ chosen, ∀ other ∈ remaining, floor < value chosen other) (member : item ∈ remaining) :
    item ∈ select value floor budget selected remaining := by
  induction budget generalizing selected remaining with
  | zero =>
    obtain rfl := List.eq_nil_of_length_eq_zero (Nat.le_zero.mp room)
    cases member
  | succ budget ih =>
    obtain ⟨winner, found⟩ := exists_pick (above selected) (List.ne_nil_of_mem member)
    rw [select, found]
    dsimp only
    by_cases same : item = winner
    · exact mem_select_of_mem (List.mem_append_right _ (List.mem_singleton.mpr same))
    · apply ih
      · have fewer : (remaining.filter fun other => other ≠ winner).length < remaining.length :=
          List.length_filter_lt_length_iff_exists.mpr ⟨winner, pick_mem found, by simp⟩
        omega
      · exact fun chosen other inRest => above chosen other (List.mem_of_mem_filter inRest)
      · exact List.mem_filter.mpr ⟨member, decide_eq_true same⟩

end SkillLayer
