import Mathlib.Data.List.Nodup
import Mathlib.Data.List.Perm.Basic

/-! Items that each stand at one stage, listed in any order. A move changes the stage of one. -/

namespace SkillLayer

variable {Key Stage : Type}

/-- Every known item is listed once, and its stage fits what is on record of it. -/
structure Roster (known : List Key) (entries : List (Key × Stage)) (Fits : Key → Stage → Prop) : Prop where
  distinct : known.Nodup
  placed : (entries.map Prod.fst).Perm known
  fits : ∀ entry ∈ entries, Fits entry.1 entry.2

namespace Roster

variable {known : List Key} {entries moved rest : List (Key × Stage)} {Fits FitsNow : Key → Stage → Prop}
  {key : Key} {old new : Stage}

theorem nodup_keys (roster : Roster known entries Fits) : (entries.map Prod.fst).Nodup :=
  roster.placed.nodup_iff.mpr roster.distinct

theorem fits_of_perm (roster : Roster known entries Fits) (was : entries.Perm ((key, old) :: rest)) :
    Fits key old :=
  roster.fits (key, old) (was.mem_iff.mpr List.mem_cons_self)

/-- One item moves on; the record of the others is as good as before. -/
theorem move (roster : Roster known entries Fits) (was : entries.Perm ((key, old) :: rest))
    (now : moved.Perm ((key, new) :: rest))
    (others : ∀ other, other ≠ key → ∀ stage, Fits other stage → FitsNow other stage) (here : FitsNow key new) :
    Roster known moved FitsNow := by
  have keys : ((key, old) :: rest).map Prod.fst = ((key, new) :: rest).map Prod.fst := rfl
  have apart : key ∉ rest.map Prod.fst := by
    have distinct := (was.map Prod.fst).nodup_iff.mp roster.nodup_keys
    rw [List.map_cons, List.nodup_cons] at distinct
    exact distinct.1
  refine ⟨roster.distinct, (now.map Prod.fst).trans (keys ▸ (was.map Prod.fst).symm.trans roster.placed), ?_⟩
  intro entry member
  rcases List.mem_cons.mp (now.mem_iff.mp member) with rfl | inRest
  · exact here
  · have other : entry.1 ≠ key := fun same => apart (same ▸ List.mem_map_of_mem inRest)
    exact others entry.1 other entry.2 (roster.fits entry (was.mem_iff.mpr (List.mem_cons_of_mem _ inRest)))

/-- A new item is enrolled. -/
theorem enrol (roster : Roster known entries Fits) (fresh : key ∉ known) (now : moved.Perm ((key, new) :: entries))
    (others : ∀ other, other ≠ key → ∀ stage, Fits other stage → FitsNow other stage) (here : FitsNow key new) :
    Roster (key :: known) moved FitsNow := by
  refine ⟨List.nodup_cons.mpr ⟨fresh, roster.distinct⟩, (now.map Prod.fst).trans (roster.placed.cons key), ?_⟩
  intro entry member
  rcases List.mem_cons.mp (now.mem_iff.mp member) with rfl | old
  · exact here
  · have known : entry.1 ∈ known := roster.placed.mem_iff.mp (List.mem_map_of_mem old)
    exact others entry.1 (fun same => fresh (same ▸ known)) entry.2 (roster.fits entry old)

/-- No item moves. -/
theorem relist (roster : Roster known entries Fits) (same : moved.Perm entries) : Roster known moved Fits :=
  ⟨roster.distinct, (same.map Prod.fst).trans roster.placed,
    fun entry member => roster.fits entry (same.mem_iff.mp member)⟩

/-- Every known item stands at some stage that fits. -/
theorem stage_of_known (roster : Roster known entries Fits) (member : key ∈ known) :
    ∃ stage, (key, stage) ∈ entries ∧ Fits key stage := by
  obtain ⟨entry, inEntries, rfl⟩ := List.mem_map.mp (roster.placed.mem_iff.mpr member)
  exact ⟨entry.2, inEntries, roster.fits entry inEntries⟩

theorem known_of_mem (roster : Roster known entries Fits) (member : (key, old) ∈ entries) : key ∈ known :=
  roster.placed.mem_iff.mp (List.mem_map_of_mem member)

variable [DecidableEq Key]

theorem count_eq_one (roster : Roster known entries Fits) (member : key ∈ known) :
    (entries.map Prod.fst).count key = 1 := by
  rw [roster.placed.count_eq]
  exact List.count_eq_one_of_mem roster.distinct member

end Roster

/-! ### Slots -/

variable {Slot Part : Type}

/-- What one slot contributes comes first. -/
theorem filterMap_perm_of_getElem? (part : Slot → Option Part) {slots : List Slot} {position : Nat} {slot : Slot}
    (found : slots[position]? = some slot) :
    (slots.filterMap part).Perm ((part slot).toList ++ (slots.eraseIdx position).filterMap part) := by
  obtain ⟨inside, rfl⟩ := List.getElem?_eq_some_iff.mp found
  have perm := (List.getElem_cons_eraseIdx_perm inside).symm.filterMap part
  rw [List.filterMap_cons] at perm
  cases known : part slots[position] <;> simpa [known] using perm

theorem filterMap_set_perm (part : Slot → Option Part) {slots : List Slot} {position : Nat}
    (inside : position < slots.length) (slot : Slot) :
    ((slots.set position slot).filterMap part).Perm
      ((part slot).toList ++ (slots.eraseIdx position).filterMap part) := by
  have perm := (List.set_perm_cons_eraseIdx inside slot).filterMap part
  rw [List.filterMap_cons] at perm
  cases known : part slot <;> simpa [known] using perm

end SkillLayer
