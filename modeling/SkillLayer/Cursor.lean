import Mathlib.Data.List.Basic
import Mathlib.Order.Lattice

/-! A listing page by page, from a cursor on, while the collection changes between the pages. -/

namespace SkillLayer

universe u
variable {Id : Type u} [LinearOrder Id]

/-- What stands at the cursor or after it. -/
def fromCursor (points : List Id) : Option Id → List Id
  | none => points
  | some cursor => points.filter fun point => cursor ≤ point

def cursorPage (limit : Nat) (points : List Id) (cursor : Option Id) : List Id :=
  (fromCursor points cursor).take limit

/-- The first point that the page has no room for. -/
def nextCursor (limit : Nat) (points : List Id) (cursor : Option Id) : Option Id :=
  (fromCursor points cursor)[limit]?

/-- The cursor has gone past the point. -/
def Passed (cursor : Option Id) (point : Id) : Prop := ∃ at_, cursor = some at_ ∧ point < at_

variable {points listed : List Id} {cursor : Option Id} {limit : Nat} {next point : Id} {seen : List (List Id)}

theorem mem_fromCursor : point ∈ fromCursor points cursor ↔ point ∈ points ∧ ¬ Passed cursor point := by
  cases cursor with
  | none => simp [fromCursor, Passed]
  | some at_ => simp [fromCursor, Passed]

theorem sorted_fromCursor (sorted : points.Pairwise (· < ·)) : (fromCursor points cursor).Pairwise (· < ·) := by
  cases cursor with
  | none => exact sorted
  | some at_ => exact sorted.sublist List.filter_sublist

theorem mem_of_mem_cursorPage (member : point ∈ cursorPage limit points cursor) :
    point ∈ points ∧ ¬ Passed cursor point :=
  mem_fromCursor.mp (List.mem_of_mem_take member)

/-- A page ends before the next cursor. -/
theorem lt_nextCursor (sorted : points.Pairwise (· < ·)) (more : nextCursor limit points cursor = some next)
    (member : point ∈ cursorPage limit points cursor) : point < next := by
  have whole : (fromCursor points cursor).Pairwise (· < ·) := sorted_fromCursor sorted
  rw [← List.take_append_drop limit (fromCursor points cursor)] at whole
  refine (List.pairwise_append.mp whole).2.2 point member next ?_
  refine List.mem_of_getElem? (i := 0) ?_
  rw [List.getElem?_drop, Nat.add_zero]
  exact more

/-- The cursor moves on. -/
theorem cursor_lt_next (positive : 0 < limit) (sorted : points.Pairwise (· < ·)) {at_ : Id}
    (more : nextCursor limit points (some at_) = some next) : at_ < next := by
  obtain ⟨within, -⟩ := List.getElem?_eq_some_iff.mp more
  have first : (fromCursor points (some at_))[0] ∈ cursorPage limit points (some at_) := by
    refine List.mem_of_getElem? (i := 0) ?_
    rw [cursorPage, List.getElem?_take_of_lt positive]
    exact List.getElem?_eq_getElem (Nat.zero_lt_of_lt within)
  have ahead := (mem_of_mem_cursorPage first).2
  exact lt_of_le_of_lt (not_lt.mp fun before => ahead ⟨at_, rfl, before⟩) (lt_nextCursor sorted more first)

/-- What the page leaves out does not come before the next cursor. -/
theorem mem_cursorPage (sorted : points.Pairwise (· < ·)) (member : point ∈ points) (ahead : ¬ Passed cursor point)
    (inside : ∀ next, nextCursor limit points cursor = some next → point < next) :
    point ∈ cursorPage limit points cursor := by
  have here : point ∈ fromCursor points cursor := mem_fromCursor.mpr ⟨member, ahead⟩
  rw [← List.take_append_drop limit (fromCursor points cursor)] at here
  rcases List.mem_append.mp here with page | rest
  · exact page
  · have whole : (fromCursor points cursor).Pairwise (· < ·) := sorted_fromCursor sorted
    cases tail : (fromCursor points cursor).drop limit with
    | nil => simp [tail] at rest
    | cons next others =>
      have more : nextCursor limit points cursor = some next := by
        rw [nextCursor, ← List.head?_drop, tail, List.head?_cons]
      have below := inside next more
      rw [← List.take_append_drop limit (fromCursor points cursor), tail] at whole
      rw [tail] at rest
      rcases List.mem_cons.mp rest with rfl | later
      · exact absurd below (lt_irrefl _)
      · have above := (List.pairwise_cons.mp (List.pairwise_append.mp whole).2.1).1 point later
        exact absurd below (not_lt_of_gt above)

/-- A page that is not the last one is full. -/
theorem length_cursorPage (more : nextCursor limit points cursor = some next) :
    (cursorPage limit points cursor).length = limit := by
  have within := (List.getElem?_eq_some_iff.mp more).1
  rw [cursorPage, List.length_take, Nat.min_eq_left (Nat.le_of_lt within)]

/-- What has been listed when the collection was `seen` at the pages so far: points in order, all of them
seen and passed, among them each one that was always there and is passed. -/
structure PageSweep (seen : List (List Id)) (cursor : Option Id) (listed : List Id) : Prop where
  sorted : listed.Pairwise (· < ·)
  passed : ∀ point ∈ listed, Passed cursor point
  found : ∀ point ∈ listed, ∃ points ∈ seen, point ∈ points
  covered : ∀ point, (∀ points ∈ seen, point ∈ points) → Passed cursor point → point ∈ listed

theorem pageSweep_start : PageSweep ([] : List (List Id)) none [] :=
  ⟨.nil, fun _ => nofun, fun _ => nofun, fun _ _ passed => nomatch passed⟩

namespace PageSweep

theorem sorted_page (swept : PageSweep seen cursor listed) (sorted : points.Pairwise (· < ·)) :
    (listed ++ cursorPage limit points cursor).Pairwise (· < ·) := by
  refine List.pairwise_append.mpr ⟨swept.sorted, (sorted_fromCursor sorted).sublist (List.take_sublist _ _), ?_⟩
  intro old member new inPage
  obtain ⟨at_, same, below⟩ := swept.passed old member
  have ahead := (mem_of_mem_cursorPage inPage).2
  exact lt_of_lt_of_le below (not_lt.mp fun before => ahead ⟨at_, same, before⟩)

theorem found_page (swept : PageSweep seen cursor listed) :
    ∀ point ∈ listed ++ cursorPage limit points cursor, ∃ collection ∈ points :: seen, point ∈ collection := by
  intro point member
  rcases List.mem_append.mp member with old | new
  · obtain ⟨collection, among, here⟩ := swept.found point old
    exact ⟨collection, List.mem_cons_of_mem _ among, here⟩
  · exact ⟨points, List.mem_cons_self, (mem_of_mem_cursorPage new).1⟩

/-- A point that was always there is listed, or it comes after the page. -/
theorem covered_page (swept : PageSweep seen cursor listed) (sorted : points.Pairwise (· < ·))
    (always : ∀ collection ∈ points :: seen, point ∈ collection)
    (inside : ∀ next, nextCursor limit points cursor = some next → point < next) :
    point ∈ listed ++ cursorPage limit points cursor := by
  by_cases passed : Passed cursor point
  · refine List.mem_append_left _ (swept.covered point ?_ passed)
    exact fun collection among => always collection (List.mem_cons_of_mem _ among)
  · exact List.mem_append_right _ (mem_cursorPage sorted (always points List.mem_cons_self) passed inside)

theorem go_on (swept : PageSweep seen cursor listed) (sorted : points.Pairwise (· < ·))
    (more : nextCursor limit points cursor = some next) :
    PageSweep (points :: seen) (some next) (listed ++ cursorPage limit points cursor) where
  sorted := swept.sorted_page sorted
  passed := by
    intro point member
    refine ⟨next, rfl, ?_⟩
    rcases List.mem_append.mp member with old | new
    · obtain ⟨at_, same, below⟩ := swept.passed point old
      have ahead := (mem_fromCursor.mp (List.mem_of_getElem? more)).2
      exact lt_of_lt_of_le below (not_lt.mp fun before => ahead ⟨at_, same, before⟩)
    · exact lt_nextCursor sorted more new
  found := swept.found_page
  covered := by
    intro point always passed
    obtain ⟨at_, same, below⟩ := passed
    obtain rfl := Option.some.inj same
    refine swept.covered_page sorted always fun other found => ?_
    obtain rfl := Option.some.inj (more.symm.trans found)
    exact below

end PageSweep
end SkillLayer
