import Mathlib.Data.List.Nodup

/-! Names given to items one after the other, each in view of the names used before. -/

namespace SkillLayer

universe u v
variable {Item : Type u} {Name : Type v}

def nameEach (name : Item → List Name → Name) : List Item → List Name → List Name
  | [], _ => []
  | item :: rest, used => name item used :: nameEach name rest (used ++ [name item used])

theorem nameEach_append (name : Item → List Name → Name) (items others : List Item)
    (used : List Name) :
    nameEach name (items ++ others) used =
      nameEach name items used ++ nameEach name others (used ++ nameEach name items used) := by
  induction items generalizing used with
  | nil => simp [nameEach]
  | cons item rest ih => simp [nameEach, ih]

theorem mem_nameEach {name : Item → List Name → Name} {items : List Item} {used : List Name}
    {given : Name} (member : given ∈ nameEach name items used) :
    ∃ item ∈ items, ∃ before, given = name item before := by
  induction items generalizing used with
  | nil => cases member
  | cons item rest ih =>
    rcases List.mem_cons.mp member with rfl | later
    · exact ⟨item, List.mem_cons_self, used, rfl⟩
    · obtain ⟨other, inRest, before, same⟩ := ih later
      exact ⟨other, List.mem_cons_of_mem _ inRest, before, same⟩

/-- The names given are new and distinct exactly when each of them is new when it is given. -/
theorem nodup_nameEach_iff (name : Item → List Name → Name) (items : List Item) (used : List Name) :
    (used ++ nameEach name items used).Nodup ↔ used.Nodup ∧
      ∀ earlier item later, items = earlier ++ item :: later →
        name item (used ++ nameEach name earlier used) ∉ used ++ nameEach name earlier used := by
  induction items generalizing used with
  | nil => simp [nameEach]
  | cons item rest ih =>
    have shifted : used ++ nameEach name (item :: rest) used =
        used ++ [name item used] ++ nameEach name rest (used ++ [name item used]) := by
      simp [nameEach]
    have extended : (used ++ [name item used]).Nodup ↔ used.Nodup ∧ name item used ∉ used := by
      rw [List.nodup_append_comm, List.singleton_append, List.nodup_cons, and_comm]
    rw [shifted, ih, extended, and_assoc]
    refine and_congr_right fun _ => ?_
    constructor
    · rintro ⟨fresh, others⟩ earlier other later split
      cases earlier with
      | nil =>
        obtain ⟨rfl, rfl⟩ := List.cons.inj split
        simpa [nameEach] using fresh
      | cons first earlier =>
        obtain ⟨rfl, rfl⟩ := List.cons.inj split
        simpa [nameEach] using others earlier other later rfl
    · intro all
      refine ⟨by simpa [nameEach] using all [] item rest rfl, ?_⟩
      rintro earlier other later rfl
      simpa [nameEach] using all (item :: earlier) other later rfl

end SkillLayer
