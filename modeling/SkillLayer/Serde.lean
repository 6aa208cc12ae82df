import SkillLayer.Json

/-! Derived readers of a JSON document: which members and items they take, and what
stands in for a missing one. -/

namespace SkillLayer

/-- The top level of a document, with its parts unread. -/
inductive Shape (Part : Type) where
  | object (members : List (Str × Part))
  | array (items : List Part)
  | scalar

namespace Shape

variable {Part A : Type}

/-- A named field: at most once, `missing` when it is not there. -/
def field (read : Part → Option A) (missing : Option A) (name : Str) (members : List (Str × Part)) : Option A :=
  match members.filter fun member => member.1 == name with
  | [] => missing
  | [member] => read member.2
  | _ :: _ :: _ => none

/-- A structure of one field, from an object or from the array of its fields. -/
def readSole (read : Part → Option A) (missing : Option A) (name : Str) : Shape Part → Option A
  | .object members => field read missing name members
  | .array [] => missing
  | .array [item] => read item
  | .array _ => none
  | .scalar => none

/-- An object has the field and its part is as required. -/
def HasField (name : Str) (required : Part → Prop) : Shape Part → Prop
  | .object members => ∃ member ∈ members, member.1 = name ∧ required member.2
  | _ => False

/-- The document is read without the field: as an object that lacks it, or as an array. -/
def PassesWithout (read : Part → Option A) (name : Str) : Shape Part → Prop
  | .object members => ∀ member ∈ members, member.1 ≠ name
  | .array [] => True
  | .array [item] => (read item).isSome = true
  | .array _ => False
  | .scalar => False

variable {read : Part → Option A} {name : Str}

theorem field_absent (missing : Option A) {members : List (Str × Part)}
    (absent : ∀ member ∈ members, member.1 ≠ name) : field read missing name members = missing := by
  have none : members.filter (fun member => member.1 == name) = [] := by
    rw [List.filter_eq_nil_iff]
    intro member inMembers
    rw [beq_iff_eq]
    exact absent member inMembers
  rw [field, none]

theorem field_present {missing : Option A} {members : List (Str × Part)} {value : A}
    (present : ∃ member ∈ members, member.1 = name) (found : field read missing name members = some value) :
    ∃ member ∈ members, member.1 = name ∧ read member.2 = some value := by
  unfold field at found
  split at found
  · rename_i none
    obtain ⟨member, inMembers, named⟩ := present
    have kept : member ∈ members.filter fun member => member.1 == name :=
      List.mem_filter.mpr ⟨inMembers, beq_iff_eq.mpr named⟩
    rw [none] at kept
    cases kept
  · rename_i member only
    have kept : member ∈ members.filter fun member => member.1 == name := only ▸ List.mem_singleton_self member
    obtain ⟨inMembers, named⟩ := List.mem_filter.mp kept
    exact ⟨member, inMembers, beq_iff_eq.mp named, found⟩
  · cases found

/-- With a default, a document that passes without the field is read all the same. -/
theorem readSole_of_passesWithout {shape : Shape Part} (default : A) (passes : shape.PassesWithout read name) :
    ∃ value, shape.readSole read (some default) name = some value := by
  cases shape with
  | object members => exact ⟨default, field_absent _ passes⟩
  | array items =>
    cases items with
    | nil => exact ⟨default, rfl⟩
    | cons item rest =>
      cases rest with
      | nil => exact Option.isSome_iff_exists.mp passes
      | cons _ _ => exact passes.elim
  | scalar => exact passes.elim

/-- A document that is read has the field, or passes without it. -/
theorem hasField_of_readSole {shape : Shape Part} {missing : Option A} {value : A} {required : Part → Prop}
    (requires : ∀ part value, read part = some value → required part)
    (found : shape.readSole read missing name = some value) (strict : ¬ shape.PassesWithout read name) :
    shape.HasField name required := by
  cases shape with
  | object members =>
    have present : ∃ member ∈ members, member.1 = name := by
      simpa only [PassesWithout, not_forall, Decidable.not_not, exists_prop] using strict
    obtain ⟨member, inMembers, named, taken⟩ := field_present present found
    exact ⟨member, inMembers, named, requires _ _ taken⟩
  | array items =>
    cases items with
    | nil => exact absurd trivial strict
    | cons item rest =>
      cases rest with
      | nil => exact absurd (Option.isSome_of_eq_some found) strict
      | cons _ _ => cases found
  | scalar => cases found

theorem not_hasField_of_passesWithout {shape : Shape Part} {required : Part → Prop}
    (passes : shape.PassesWithout read name) : ¬ shape.HasField name required := by
  intro has
  cases shape with
  | object members =>
    obtain ⟨member, inMembers, named, _⟩ := has
    exact passes member inMembers named
  | array _ => exact has
  | scalar => exact has

end Shape

/-! ### Structures of several fields -/

/-- A field of a structure as its derived reader takes it: what stands in for it in an object
without it, and in an array that ends before it. -/
structure Slot (Part A : Type) where
  name : Str
  read : Part → Option A
  missing : Option A
  short : Option A

namespace Slot

variable {Part A : Type}

def required (name : Str) (read : Part → Option A) : Slot Part A := ⟨name, read, none, none⟩

def defaulted (name : Str) (read : Part → Option A) (default : A) : Slot Part A := ⟨name, read, some default, some default⟩

end Slot

namespace Shape

variable {Part A : Type}

/-- The next field, and what is left to read. -/
def take (slot : Slot Part A) : Shape Part → Option (A × Shape Part)
  | .object members => (field slot.read slot.missing slot.name members).map fun value => (value, .object members)
  | .array [] => slot.short.map fun value => (value, .array [])
  | .array (item :: items) => (slot.read item).map fun value => (value, .array items)
  | .scalar => none

/-- No item is left over; an object may have other members. -/
def finish : Shape Part → Option Unit
  | .object _ => some ()
  | .array [] => some ()
  | .array (_ :: _) => none
  | .scalar => none

theorem take_object_eq_some {slot : Slot Part A} {members : List (Str × Part)} {value : A} {rest : Shape Part} :
    (Shape.object members).take slot = some (value, rest) ↔
      field slot.read slot.missing slot.name members = some value ∧ rest = .object members := by
  constructor
  · intro taken
    obtain ⟨found, read, same⟩ := Option.map_eq_some_iff.mp taken
    cases same
    exact ⟨read, rfl⟩
  · rintro ⟨read, rfl⟩
    exact Option.map_eq_some_iff.mpr ⟨value, read, rfl⟩

/-- Among members with one name each, the field is what a lookup finds. -/
theorem field_of_nodup (read : Part → Option A) (missing : Option A) (name : Str) {members : List (Str × Part)}
    (distinct : (members.map Prod.fst).Nodup) :
    field read missing name members = (members.lookup name).elim missing read := by
  induction members with
  | nil => rfl
  | cons member members ih =>
    obtain ⟨fresh, rest⟩ := List.nodup_cons.mp distinct
    obtain ⟨key, part⟩ := member
    by_cases same : name = key
    · subst same
      have none : members.filter (fun member => member.1 == name) = [] := by
        rw [List.filter_eq_nil_iff]
        intro other inMembers named
        exact fresh (List.mem_map.mpr ⟨other, inMembers, beq_iff_eq.mp named⟩)
      rw [field, List.filter_cons_of_pos (by rw [beq_iff_eq]), none, List.lookup_cons_self]
      rfl
    · have apart : (name == key) = false := beq_eq_false_iff_ne.mpr same
      have skipped : ¬ (key == name) = true := fun named => same (beq_iff_eq.mp named).symm
      rw [List.lookup_cons, apart, ← ih rest, field, field, List.filter_cons_of_neg (by exact skipped)]

/-- A field that is read without a default is the first member of its name. -/
theorem lookup_of_field {read : Part → Option A} {name : Str} {members : List (Str × Part)} {value : A}
    (found : field read none name members = some value) :
    ∃ part, members.lookup name = some part ∧ read part = some value := by
  unfold field at found
  split at found
  · cases found
  · rename_i member only
    refine ⟨member.2, ?_, found⟩
    clear found
    induction members with
    | nil => cases only
    | cons head members ih =>
      obtain ⟨key, part⟩ := head
      by_cases same : name = key
      · subst same
        rw [List.filter_cons_of_pos (by rw [beq_iff_eq])] at only
        rw [List.lookup_cons_self, ← (List.cons.inj only).1]
      · have apart : (name == key) = false := beq_eq_false_iff_ne.mpr same
        have skipped : ¬ (key == name) = true := fun named => same (beq_iff_eq.mp named).symm
        rw [List.filter_cons_of_neg (by exact skipped)] at only
        rw [List.lookup_cons, apart]
        exact ih only
  · cases found

end Shape

/-- The top level of a value that has been read whole. -/
def Value.shape : Value → Shape Value
  | .object fields => .object fields
  | .array items => .array items
  | _ => .scalar

end SkillLayer
