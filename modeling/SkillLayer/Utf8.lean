import Mathlib.Data.List.Forall2
import SkillLayer.Text

/-! Byte lengths of texts and slices at byte positions. -/

namespace SkillLayer.Str

/-! ### Lengths -/

@[simp] theorem byteLength_nil : byteLength [] = 0 := rfl

theorem foldl_utf8Size (s : Str) (length : Nat) :
    s.foldl (fun length c => length + c.utf8Size) length = length + byteLength s := by
  induction s generalizing length with
  | nil => rfl
  | cons c s ih =>
    rw [byteLength, List.foldl_cons, List.foldl_cons, ih, ih, Nat.zero_add, Nat.add_assoc]

@[simp] theorem byteLength_cons (c : Char) (s : Str) : byteLength (c :: s) = c.utf8Size + byteLength s := by
  rw [byteLength, List.foldl_cons, foldl_utf8Size, Nat.zero_add]

@[simp] theorem byteLength_append (s rest : Str) : byteLength (s ++ rest) = byteLength s + byteLength rest := by
  rw [byteLength, List.foldl_append, foldl_utf8Size]
  rfl

theorem join_cons (sep piece : Str) (pieces : List Str) :
    join sep (piece :: pieces) = piece ++ (if pieces = [] then [] else sep ++ join sep pieces) := by
  cases pieces with
  | nil => simp [join]
  | cons next rest => simp [join, List.intercalate_cons_cons]

/-- Fewer and shorter pieces join to a shorter text. -/
theorem byteLength_join_le (sep : Str) {pieces others : List Str}
    (shorter : List.SublistForall₂ (fun piece other => byteLength piece ≤ byteLength other) pieces others) :
    byteLength (join sep pieces) ≤ byteLength (join sep others) := by
  induction shorter with
  | nil => exact Nat.zero_le _
  | @cons piece other pieces others less rest ih =>
    rw [join_cons, join_cons, byteLength_append, byteLength_append]
    refine Nat.add_le_add less ?_
    by_cases none : pieces = []
    · rw [if_pos none]
      exact Nat.zero_le _
    · have some : others ≠ [] := by
        rintro rfl
        cases rest
        exact none rfl
      rw [if_neg none, if_neg some, byteLength_append, byteLength_append]
      exact Nat.add_le_add_left ih _
  | cons_right rest ih =>
    rename_i other pieces others
    refine ih.trans ?_
    rw [join_cons, byteLength_append]
    by_cases none : others = []
    · rw [none]
      exact Nat.zero_le _
    · rw [if_neg none, byteLength_append]
      omega

theorem sublistForall₂_append {Item : Type} {le : Item → Item → Prop} {items others more rest : List Item}
    (front : List.SublistForall₂ le items others) (back : List.SublistForall₂ le more rest) :
    List.SublistForall₂ le (items ++ more) (others ++ rest) := by
  induction front with
  | @nil others =>
    induction others with
    | nil => exact back
    | cons other others ih => exact ih.cons_right
  | cons less front ih => exact ih.cons less
  | cons_right front ih => exact ih.cons_right

theorem byteLength_join_sublist (sep : Str) {pieces others : List Str} (fewer : pieces.Sublist others) :
    byteLength (join sep pieces) ≤ byteLength (join sep others) :=
  byteLength_join_le sep (List.sublistForall₂_iff.mpr ⟨pieces, List.forall₂_same.mpr fun _ _ => Nat.le_refl _, fewer⟩)

/-! ### Slices -/

/-- `&s[..stop]`, which is nothing when `stop` is inside a character or behind the end. -/
def sliceTo? : Str → Nat → Option Str
  | [], stop => if stop = 0 then some [] else none
  | c :: rest, stop =>
    if stop = 0 then some []
    else if c.utf8Size ≤ stop then (sliceTo? rest (stop - c.utf8Size)).map (c :: ·) else none

theorem sliceTo?_eq_some {s front : Str} {stop : Nat} :
    sliceTo? s stop = some front ↔ front <+: s ∧ byteLength front = stop := by
  induction s generalizing front stop with
  | nil =>
    rw [sliceTo?, List.prefix_nil]
    constructor
    · intro found
      split at found
      · rename_i zero
        obtain rfl := Option.some.inj found
        exact ⟨rfl, zero.symm⟩
      · cases found
    · rintro ⟨rfl, rfl⟩
      rfl
  | cons c rest ih =>
    rw [sliceTo?]
    have wide := c.utf8Size_pos
    constructor
    · intro found
      split at found
      · rename_i zero
        obtain rfl := Option.some.inj found
        exact ⟨List.nil_prefix, zero.symm⟩
      · split at found
        · rename_i fits
          obtain ⟨tail, later, rfl⟩ := Option.map_eq_some_iff.mp found
          obtain ⟨shorter, length⟩ := ih.mp later
          refine ⟨(List.prefix_cons_inj c).mpr shorter, ?_⟩
          rw [byteLength_cons, length]
          omega
        · cases found
    · rintro ⟨shorter, rfl⟩
      cases front with
      | nil => rfl
      | cons head tail =>
        obtain ⟨rfl, later⟩ := List.cons_prefix_cons.mp shorter
        have found := ih.mpr ⟨later, rfl⟩
        rw [byteLength_cons, if_neg (by omega), if_pos (by omega), Nat.add_sub_cancel_left, found]
        rfl

/-- A byte position that a text can be cut at. -/
def IsCharBoundary (s : Str) (stop : Nat) : Prop := ∃ front, front <+: s ∧ byteLength front = stop

theorem sliceTo?_isSome {s : Str} {stop : Nat} : (sliceTo? s stop).isSome = true ↔ IsCharBoundary s stop := by
  rw [Option.isSome_iff_exists]
  simp only [sliceTo?_eq_some]
  exact Iff.rfl

theorem isCharBoundary_byteLength (s : Str) : IsCharBoundary s (byteLength s) := ⟨s, List.prefix_rfl, rfl⟩

theorem utf8Size_toLower (c : Char) : c.toLower.utf8Size = c.utf8Size := by
  rcases toLower_cases c with same | ⟨upper, lower⟩
  · rw [same]
  · have narrow (d : Char) (small : d.toNat ≤ 127) : d.utf8Size = 1 :=
      Char.utf8Size_eq_one_iff.mpr small
    rw [narrow c (by omega), narrow c.toLower (by omega)]

theorem byteLength_toAsciiLowercase (s : Str) : byteLength (toAsciiLowercase s) = byteLength s := by
  induction s with
  | nil => rfl
  | cons c s ih =>
    have lowered : toAsciiLowercase (c :: s) = c.toLower :: toAsciiLowercase s := rfl
    rw [lowered, byteLength_cons, byteLength_cons, ih, utf8Size_toLower]

/-- Lowering letters moves no boundary. -/
theorem isCharBoundary_toAsciiLowercase {s : Str} {stop : Nat} :
    IsCharBoundary (toAsciiLowercase s) stop ↔ IsCharBoundary s stop := by
  constructor
  · rintro ⟨front, shorter, rfl⟩
    obtain ⟨original, begins, rfl⟩ := List.prefix_map_iff.mp shorter
    exact ⟨original, begins, (byteLength_toAsciiLowercase original).symm⟩
  · rintro ⟨front, shorter, rfl⟩
    exact ⟨toAsciiLowercase front, shorter.map _, byteLength_toAsciiLowercase front⟩

end SkillLayer.Str
