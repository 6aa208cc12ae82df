import Mathlib.Data.List.Forall2

/-! Loops with an early exit: what they keep, and what they collect. -/

namespace SkillLayer

universe u v w
variable {Item : Type u} {Out : Type v} {Err : Type w}

/-- The successful yield of an element; nothing when it fails. -/
def yielded (step : Item → Except Err (List Out)) (item : Item) : List Out :=
  match step item with
  | .ok out => out
  | .error _ => []

/-- Append the yields in order and stop at the first failure. -/
def collect (step : Item → Except Err (List Out)) (items : List Item) : Except Err (List Out) :=
  items.foldlM (fun out item => do return out ++ (← step item)) []

/-- A loop that finishes has seen every element succeed and collected their yields. -/
theorem collect_eq_ok {step : Item → Except Err (List Out)} {items : List Item} {out : List Out} :
    collect step items = .ok out ↔
      (∀ item ∈ items, ∃ more, step item = .ok more) ∧ out = items.flatMap (yielded step) := by
  have accumulate (items : List Item) (acc : List Out) :
      items.foldlM (fun out item => do return out ++ (← step item)) acc = .ok out ↔
        (∀ item ∈ items, ∃ more, step item = .ok more) ∧
          out = acc ++ items.flatMap (yielded step) := by
    induction items generalizing acc with
    | nil => simp [pure, Except.pure, eq_comm]
    | cons item rest ih =>
      rw [List.foldlM_cons]
      cases result : step item with
      | error error => simp [result, bind, Except.bind]
      | ok more =>
        have continued := ih (acc ++ more)
        simpa [result, bind, Except.bind, pure, Except.pure, yielded] using continued
  rw [collect, accumulate, List.nil_append]

/-- A mapping loop finishes when every step succeeds, with the results in order. -/
theorem mapM_eq_ok {step : Item → Except Err Out} {items : List Item} {outs : List Out} :
    items.mapM step = .ok outs ↔ List.Forall₂ (fun item out => step item = .ok out) items outs := by
  induction items generalizing outs with
  | nil => simp [pure, Except.pure, eq_comm]
  | cons item rest ih =>
    rw [List.mapM_cons, List.forall₂_cons_left_iff]
    cases result : step item with
    | error error => simp [bind, Except.bind]
    | ok out =>
      simp only [← ih, Except.ok.injEq]
      cases rest.mapM step with
      | error error => simp [bind, Except.bind]
      | ok found => simp [bind, Except.bind, pure, Except.pure, eq_comm]

theorem mapM_eq_some {step : Item → Option Out} {items : List Item} {outs : List Out} :
    items.mapM step = some outs ↔ List.Forall₂ (fun item out => step item = some out) items outs := by
  induction items generalizing outs with
  | nil => simp [eq_comm]
  | cons item rest ih =>
    rw [List.mapM_cons, List.forall₂_cons_left_iff]
    cases result : step item with
    | none => simp
    | some out =>
      simp only [← ih, Option.some.injEq]
      cases rest.mapM step with
      | none => simp
      | some found => simp [eq_comm]

theorem exists_mapM_eq_some {step : Item → Option Out} {items : List Item}
    (each : ∀ item ∈ items, (step item).isSome = true) : ∃ outs, items.mapM step = some outs := by
  induction items with
  | nil => exact ⟨[], rfl⟩
  | cons item rest ih =>
    obtain ⟨outs, later⟩ := ih fun other member => each other (List.mem_cons_of_mem _ member)
    obtain ⟨out, result⟩ := Option.isSome_iff_exists.mp (each item List.mem_cons_self)
    exact ⟨out :: outs, mapM_eq_some.mpr (.cons result (mapM_eq_some.mp later))⟩

theorem exists_of_forall₂ {Related : Item → Out → Prop} {items : List Item} {outs : List Out}
    (paired : List.Forall₂ Related items outs) {item : Item} (member : item ∈ items) :
    ∃ out ∈ outs, Related item out := by
  induction paired with
  | nil => cases member
  | @cons first out rest more related _ ih =>
    rcases List.mem_cons.mp member with rfl | later
    · exact ⟨out, List.mem_cons_self, related⟩
    · obtain ⟨found, inside, holds⟩ := ih later
      exact ⟨found, List.mem_cons_of_mem _ inside, holds⟩

/-- What each turn of a loop keeps, knowing the elements before it, holds when the loop has
finished. -/
theorem foldlM_invariant {State : Type v} {step : State → Item → Except Err State}
    (Holds : List Item → State → Prop) {items : List Item} {start final : State}
    (kept : ∀ done item rest state next, items = done ++ item :: rest → Holds done state →
      step state item = .ok next → Holds (done ++ [item]) next)
    (holds : Holds [] start) (finished : items.foldlM step start = .ok final) : Holds items final := by
  have onward (done rest : List Item) (state : State) (whole : items = done ++ rest)
      (holds : Holds done state) (finished : rest.foldlM step state = .ok final) : Holds items final := by
    induction rest generalizing done state with
    | nil =>
      cases finished
      rwa [whole, List.append_nil]
    | cons item rest ih =>
      rw [List.foldlM_cons] at finished
      cases turn : step state item with
      | error error => simp [turn, bind, Except.bind] at finished
      | ok next =>
        rw [turn] at finished
        exact ih (done ++ [item]) next (by simp [whole]) (kept _ _ _ _ _ whole holds turn) finished
  exact onward [] items start rfl holds finished

/-- A loop that fails has failed in one of its turns. -/
theorem foldlM_fails {State : Type v} {step : State → Item → Except Err State} {items : List Item}
    {start : State} {error : Err} (failed : items.foldlM step start = .error error) :
    ∃ item ∈ items, ∃ state, step state item = .error error := by
  induction items generalizing start with
  | nil => cases failed
  | cons item rest ih =>
    rw [List.foldlM_cons] at failed
    cases turn : step start item with
    | error problem =>
      rw [turn] at failed
      cases failed
      exact ⟨item, List.mem_cons_self, start, turn⟩
    | ok next =>
      rw [turn] at failed
      obtain ⟨later, member, state, broken⟩ := ih failed
      exact ⟨later, List.mem_cons_of_mem _ member, state, broken⟩

/-- Two collecting loops stay in step at every prefix exactly when they yield the
same for every element. -/
theorem flatMap_take_congr (items : List Item) (first second : Item → List Out) :
    (∀ count, (items.take count).flatMap first = (items.take count).flatMap second) ↔
      ∀ item ∈ items, first item = second item := by
  constructor
  · intro inStep item member
    obtain ⟨count, inside, rfl⟩ := List.mem_iff_getElem.mp member
    have before := inStep count
    have after := inStep (count + 1)
    rw [List.take_add_one, List.getElem?_eq_getElem inside, List.flatMap_append,
      List.flatMap_append, before] at after
    simpa only [Option.toList_some, List.flatMap_singleton] using List.append_cancel_left after
  · intro same count
    exact List.flatMap_congr fun item member => same item (List.mem_of_mem_take member)

end SkillLayer
