import Mathlib.Data.List.Infix
import Mathlib.Data.List.Range
import SkillLayer.Backlog

/-! A stream that others append to and remove from, read through a consumer group: what the group
has been given and what it still owes an acknowledgement. -/

namespace SkillLayer

/-- How far a group has read, and what it was given and has not acknowledged. -/
structure ConsumerGroup where
  cursor : Nat
  pending : List Nat
  ascending : pending.Pairwise (· < ·)
  bounded : ∀ id ∈ pending, id < cursor
deriving DecidableEq

/-- Every body that was ever added, under its position; the positions that are gone; the group. -/
structure EventStream (Body : Type) where
  published : List Body
  removed : List Nat
  group : Option ConsumerGroup
deriving DecidableEq

/-- What others do to a stream. -/
inductive StreamEdit (Body : Type) where
  | publish (body : Body)
  | remove (id : Nat)
  | createGroup
  | loseGroup

namespace ConsumerGroup

/-- A new group, which has read nothing. -/
def atStart : ConsumerGroup := ⟨0, [], .nil, fun _ member => nomatch member⟩

/-- Hand over some entries behind the cursor. -/
def deliver (group : ConsumerGroup) (ids : List Nat) (ascending : ids.Pairwise (· < ·))
    (behind : ∀ id ∈ ids, group.cursor ≤ id) : ConsumerGroup where
  cursor := ids.foldl (fun _ id => id + 1) group.cursor
  pending := group.pending ++ ids
  ascending := by
    refine List.pairwise_append.mpr ⟨group.ascending, ascending, fun first member second later => ?_⟩
    exact Nat.lt_of_lt_of_le (group.bounded first member) (behind second later)
  bounded := by
    induction ids using List.reverseRecOn with
    | nil => simpa using group.bounded
    | append_singleton ids last _ =>
      rw [List.foldl_append, List.foldl_cons, List.foldl_nil]
      intro id member
      rw [← List.append_assoc, List.mem_append, List.mem_append, List.mem_singleton] at member
      rcases member with (old | new) | rfl
      · exact Nat.lt_succ_of_lt (Nat.lt_of_lt_of_le (group.bounded id old) (behind last (by simp)))
      · exact Nat.lt_succ_of_lt ((List.pairwise_append.mp ascending).2.2 id new last (by simp))
      · exact Nat.lt_succ_self _

def acknowledge (group : ConsumerGroup) (id : Nat) : ConsumerGroup where
  cursor := group.cursor
  pending := group.pending.filter (· ≠ id)
  ascending := group.ascending.filter _
  bounded := fun other member => group.bounded other (List.mem_filter.mp member).1

end ConsumerGroup

namespace EventStream

variable {Body : Type}

def present (stream : EventStream Body) (id : Nat) : Bool := !stream.removed.contains id

/-- What is found under an id. -/
def entry (stream : EventStream Body) (id : Nat) : Option Body :=
  if stream.present id then stream.published[id]? else none

/-- The entries that a group has not been given, in order. -/
def upcoming (stream : EventStream Body) (group : ConsumerGroup) : List Nat :=
  (List.range stream.published.length).filter fun id => group.cursor ≤ id && stream.present id

theorem ascending_upcoming (stream : EventStream Body) (group : ConsumerGroup) :
    (stream.upcoming group).Pairwise (· < ·) :=
  List.pairwise_lt_range.filter _

theorem behind_upcoming (stream : EventStream Body) (group : ConsumerGroup) :
    ∀ id ∈ stream.upcoming group, group.cursor ≤ id := by
  intro id member
  simp only [upcoming, List.mem_filter, Bool.and_eq_true, decide_eq_true_eq] at member
  exact member.2.1

theorem upcoming_congr (stream : EventStream Body) {group other : ConsumerGroup} (same : group.cursor = other.cursor) :
    stream.upcoming group = stream.upcoming other := by
  rw [upcoming, upcoming, same]

theorem window_isPrefix {Item : Type} (size : Nat) (items : List Item) :
    Backlog.window size items <+: items := by
  unfold Backlog.window
  split
  · exact List.prefix_refl _
  · exact List.take_prefix _ _

/-- The next entries for a group, as many as the size says. -/
def nextFor (stream : EventStream Body) (size : Nat) (group : ConsumerGroup) : List Nat :=
  Backlog.window size (stream.upcoming group)

/-- Give the group its next entries. -/
def readFresh (stream : EventStream Body) (size : Nat) (group : ConsumerGroup) : ConsumerGroup :=
  group.deliver (stream.nextFor size group)
    ((stream.ascending_upcoming group).sublist (window_isPrefix size _).sublist)
    fun id member => stream.behind_upcoming group id ((window_isPrefix size _).subset member)

def withGroup (stream : EventStream Body) (group : ConsumerGroup) : EventStream Body :=
  { stream with group := some group }

/-- Create the group at the start of the stream, unless there is one. -/
def ensureGroup (stream : EventStream Body) : EventStream Body :=
  match stream.group with
  | some _ => stream
  | none => stream.withGroup .atStart

def edit (stream : EventStream Body) : StreamEdit Body → EventStream Body
  | .publish body => { stream with published := stream.published ++ [body] }
  | .remove id => { stream with removed := id :: stream.removed }
  | .createGroup => stream.ensureGroup
  | .loseGroup => { stream with group := none }

def edits (stream : EventStream Body) (changes : List (StreamEdit Body)) : EventStream Body :=
  changes.foldl edit stream

/-- An entry that the group will be given, or was given and has not acknowledged; it may be gone,
or the group may be. -/
def Due (stream : EventStream Body) (id : Nat) : Prop :=
  stream.present id = true → ∀ group, stream.group = some group → id ∈ group.pending ∨ group.cursor ≤ id

theorem ensureGroup_eq (stream : EventStream Body) :
    stream.ensureGroup = stream.withGroup (stream.group.getD .atStart) := by
  obtain ⟨published, removed, group⟩ := stream
  cases group <;> rfl

theorem published_prefix_edit (stream : EventStream Body) (change : StreamEdit Body) :
    stream.published <+: (stream.edit change).published := by
  cases change with
  | publish body => exact List.prefix_append _ _
  | remove id => exact List.prefix_refl _
  | createGroup =>
    rw [edit, ensureGroup_eq]
    exact List.prefix_refl _
  | loseGroup => exact List.prefix_refl _

theorem published_prefix_edits (stream : EventStream Body) (changes : List (StreamEdit Body)) :
    stream.published <+: (stream.edits changes).published := by
  induction changes generalizing stream with
  | nil => exact List.prefix_refl _
  | cons change rest ih => exact (published_prefix_edit stream change).trans (ih _)

theorem Due.ensureGroup {stream : EventStream Body} {id : Nat} (due : stream.Due id) :
    stream.ensureGroup.Due id := by
  rw [ensureGroup_eq]
  intro present group found
  cases found
  cases here : stream.group with
  | none => exact Or.inr (Nat.zero_le id)
  | some group => exact due present group here

theorem Due.edit {stream : EventStream Body} {id : Nat} (due : stream.Due id) (change : StreamEdit Body) :
    (stream.edit change).Due id := by
  cases change with
  | publish body => exact due
  | remove gone =>
    intro present
    apply due
    simp only [EventStream.present, EventStream.edit, List.contains_cons, Bool.not_or, Bool.and_eq_true] at present
    exact present.2
  | createGroup => exact due.ensureGroup
  | loseGroup =>
    intro _ group found
    cases found

theorem Due.edits {stream : EventStream Body} {id : Nat} (due : stream.Due id)
    (changes : List (StreamEdit Body)) : (stream.edits changes).Due id := by
  induction changes generalizing stream with
  | nil => exact due
  | cons change rest ih => exact ih (due.edit change)

theorem cursor_deliver_le {ids : List Nat} {cursor id : Nat} (upTo : cursor ≤ id) (below : ∀ given ∈ ids, given < id) :
    ids.foldl (fun _ given => given + 1) cursor ≤ id := by
  induction ids generalizing cursor with
  | nil => exact upTo
  | cons given rest ih =>
    exact ih (below given List.mem_cons_self) fun later member => below later (List.mem_cons_of_mem _ member)

/-- What a read passes over, it hands over. -/
theorem lt_of_not_mem_nextFor {stream : EventStream Body} {size id : Nat} {group : ConsumerGroup}
    (present : stream.present id = true) (ahead : group.cursor ≤ id) (notGiven : id ∉ stream.nextFor size group)
    {given : Nat} (member : given ∈ stream.nextFor size group) : given < id := by
  obtain ⟨rest, whole⟩ := window_isPrefix size (stream.upcoming group)
  by_cases known : id < stream.published.length
  · have listed : id ∈ stream.upcoming group :=
      List.mem_filter.mpr ⟨List.mem_range.mpr known, by simp [ahead, present]⟩
    have ascending := stream.ascending_upcoming group
    rw [← whole] at listed ascending
    have behind := (List.mem_append.mp listed).resolve_left notGiven
    exact (List.pairwise_append.mp ascending).2.2 given member id behind
  · have listed : given ∈ stream.upcoming group := whole ▸ List.mem_append_left rest member
    have below := List.mem_range.mp (List.mem_filter.mp listed).1
    omega

theorem cursor_le_deliver {ids : List Nat} {cursor : Nat} (ascending : ids.Pairwise (· < ·))
    (behind : ∀ id ∈ ids, cursor ≤ id) :
    cursor ≤ ids.foldl (fun _ given => given + 1) cursor ∧
      ∀ id ∈ ids, id < ids.foldl (fun _ given => given + 1) cursor := by
  induction ids generalizing cursor with
  | nil => exact ⟨Nat.le_refl _, fun id member => nomatch member⟩
  | cons given rest ih =>
    obtain ⟨first, later⟩ := List.pairwise_cons.mp ascending
    obtain ⟨upTo, below⟩ := ih later fun id member => first id member
    refine ⟨Nat.le_trans (Nat.le_succ_of_le (behind given List.mem_cons_self)) upTo, fun id member => ?_⟩
    rcases List.mem_cons.mp member with rfl | next
    · exact upTo
    · exact below id next

/-- A read takes the next entries from those that are to come. -/
theorem upcoming_readFresh (stream : EventStream Body) (size : Nat) (group : ConsumerGroup) :
    stream.upcoming (stream.readFresh size group) =
      (stream.upcoming group).drop (stream.nextFor size group).length := by
  obtain ⟨rest, whole⟩ := window_isPrefix size (stream.upcoming group)
  have split : stream.upcoming group = stream.nextFor size group ++ rest := whole.symm
  have ascending := stream.ascending_upcoming group
  have behind := stream.behind_upcoming group
  rw [split] at ascending behind
  obtain ⟨first, -, apart⟩ := List.pairwise_append.mp ascending
  obtain ⟨upTo, below⟩ := cursor_le_deliver first fun id member => behind id (List.mem_append_left _ member)
  have refined : stream.upcoming (stream.readFresh size group) =
      (stream.upcoming group).filter fun id => (stream.readFresh size group).cursor ≤ id := by
    rw [upcoming, upcoming, List.filter_filter]
    refine List.filter_congr fun id _ => ?_
    by_cases reached : (stream.readFresh size group).cursor ≤ id
    · simp [reached, Nat.le_trans upTo reached]
    · simp [reached]
  have gone : (stream.nextFor size group).filter (fun id => decide ((stream.readFresh size group).cursor ≤ id)) = [] := by
    refine List.filter_eq_nil_iff.mpr fun id member => ?_
    rw [decide_eq_true_eq]
    exact Nat.not_le_of_lt (below id member)
  have kept : rest.filter (fun id => decide ((stream.readFresh size group).cursor ≤ id)) = rest := by
    refine List.filter_eq_self.mpr fun id member => ?_
    rw [decide_eq_true_eq]
    exact cursor_deliver_le (behind id (List.mem_append_right _ member)) fun given handed => apart given handed id member
  rw [refined, split, List.filter_append, gone, kept, List.nil_append, List.drop_left]

theorem Due.readFresh {stream : EventStream Body} {size id : Nat} {group : ConsumerGroup}
    (due : stream.Due id) (here : stream.group = some group) :
    (stream.withGroup (stream.readFresh size group)).Due id := by
  intro present other found
  cases found
  rcases due present group here with pending | ahead
  · exact Or.inl (List.mem_append_left _ pending)
  · by_cases given : id ∈ stream.nextFor size group
    · exact Or.inl (List.mem_append_right _ given)
    · exact Or.inr (cursor_deliver_le ahead fun _ member => lt_of_not_mem_nextFor present ahead given member)

theorem Due.acknowledge {stream : EventStream Body} {id other : Nat} {group : ConsumerGroup}
    (due : stream.Due id) (here : stream.group = some group) (apart : id ≠ other) :
    (stream.withGroup (group.acknowledge other)).Due id := by
  intro present left found
  cases found
  exact (due present group here).imp_left fun pending => List.mem_filter.mpr ⟨pending, by simp [apart]⟩

end EventStream
end SkillLayer
