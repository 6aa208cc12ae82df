import Mathlib.Data.List.Nodup

/-! The first item of every key, in the order of the items. -/

namespace SkillLayer

universe u v
variable {Item : Type u} {Key : Type v} [DecidableEq Key]

/-- The items whose key is neither among those seen nor that of an earlier item. -/
def keepFirsts (key : Item → Key) (seen : List Key) : List Item → List Item
  | [] => []
  | item :: rest =>
    if key item ∈ seen then keepFirsts key seen rest
    else item :: keepFirsts key (key item :: seen) rest

variable {key : Item → Key}

theorem keepFirsts_seen {seen : List Key} {item : Item} (member : key item ∈ seen) (rest : List Item) :
    keepFirsts key seen (item :: rest) = keepFirsts key seen rest :=
  if_pos member

theorem keepFirsts_fresh {seen : List Key} {item : Item} (fresh : key item ∉ seen) (rest : List Item) :
    keepFirsts key seen (item :: rest) = item :: keepFirsts key (key item :: seen) rest :=
  if_neg fresh

theorem keepFirsts_sublist (seen : List Key) (items : List Item) : (keepFirsts key seen items).Sublist items := by
  induction items generalizing seen with
  | nil => exact List.Sublist.slnil
  | cons item rest ih =>
    by_cases member : key item ∈ seen
    · rw [keepFirsts_seen member]
      exact (ih seen).cons item
    · rw [keepFirsts_fresh member]
      exact (ih _).cons_cons item

theorem mem_keys_keepFirsts {wanted : Key} {seen : List Key} {items : List Item} :
    wanted ∈ (keepFirsts key seen items).map key ↔ wanted ∉ seen ∧ wanted ∈ items.map key := by
  induction items generalizing seen with
  | nil => simp [keepFirsts]
  | cons item rest ih =>
    by_cases member : key item ∈ seen
    · rw [keepFirsts_seen member, ih, List.map_cons, List.mem_cons]
      constructor
      · intro later
        exact ⟨later.1, .inr later.2⟩
      · rintro ⟨fresh, rfl | later⟩
        · exact absurd member fresh
        · exact ⟨fresh, later⟩
    · rw [keepFirsts_fresh member, List.map_cons, List.mem_cons, ih, List.map_cons, List.mem_cons, List.mem_cons]
      by_cases here : wanted = key item
      · simp [here, member]
      · simp [here]

theorem nodup_keys_keepFirsts (seen : List Key) (items : List Item) :
    ((keepFirsts key seen items).map key).Nodup := by
  induction items generalizing seen with
  | nil => exact List.nodup_nil
  | cons item rest ih =>
    by_cases member : key item ∈ seen
    · rw [keepFirsts_seen member]
      exact ih seen
    · rw [keepFirsts_fresh member, List.map_cons, List.nodup_cons]
      refine ⟨?_, ih _⟩
      rw [mem_keys_keepFirsts]
      exact fun later => later.1 List.mem_cons_self

/-- In a list in which earlier items come first, a kept item is the earliest of its key. -/
theorem keepFirsts_earliest {earlier : Item → Item → Prop} {seen : List Key} {items : List Item}
    (arranged : items.Pairwise earlier) {item other : Item} (kept : item ∈ keepFirsts key seen items)
    (member : other ∈ items) (same : key other = key item) : other = item ∨ earlier item other := by
  induction items generalizing seen with
  | nil => cases member
  | cons head rest ih =>
    obtain ⟨ahead, later⟩ := List.pairwise_cons.mp arranged
    by_cases known : key head ∈ seen
    · rw [keepFirsts_seen known] at kept
      rcases List.mem_cons.mp member with rfl | inRest
      · have fresh := (mem_keys_keepFirsts.mp (List.mem_map_of_mem kept)).1
        exact absurd (same ▸ known) fresh
      · exact ih later kept inRest
    · rw [keepFirsts_fresh known] at kept
      rcases List.mem_cons.mp kept with rfl | keptLater
      · rcases List.mem_cons.mp member with rfl | inRest
        · exact .inl rfl
        · exact .inr (ahead other inRest)
      · have fresh := (mem_keys_keepFirsts.mp (List.mem_map_of_mem keptLater)).1
        rcases List.mem_cons.mp member with rfl | inRest
        · exact absurd (List.mem_cons.mpr (.inl same.symm)) fresh
        · exact ih later keptLater inRest

theorem keepFirsts_map {Part : Type*} (part : Part → Item) (seen : List Key) (parts : List Part) :
    keepFirsts key seen (parts.map part) = (keepFirsts (key ∘ part) seen parts).map part := by
  induction parts generalizing seen with
  | nil => rfl
  | cons head rest ih =>
    by_cases member : key (part head) ∈ seen
    · have same : (key ∘ part) head ∈ seen := member
      rw [List.map_cons, keepFirsts_seen member, ih, keepFirsts_seen same]
    · have same : (key ∘ part) head ∉ seen := member
      rw [List.map_cons, keepFirsts_fresh member, ih, keepFirsts_fresh same]
      rfl

end SkillLayer
