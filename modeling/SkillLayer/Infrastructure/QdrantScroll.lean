import Mathlib.Data.List.Perm.Subperm
import SkillLayer.Cursor
import SkillLayer.Infrastructure.Outbox

/-! The listing of a Qdrant collection: pages of 256 points that the client asks for one by one while
other clients write and delete points. -/

namespace SkillLayer.Infrastructure

/-- A status code with its reason phrase. -/
structure HttpStatus where
  code : Nat
  text : Str

inductive QdrantError where
  | invalidConfiguration (message : Str)
  | connectivity (error : Str)
  | timeout (timeoutMs : Nat)
  | unexpectedStatus (status : HttpStatus)
  | unexpectedResponse (status : Str)

def QdrantError.display : QdrantError → Str
  | .invalidConfiguration message => "invalid qdrant configuration: " ++ message
  | .connectivity error => "qdrant connectivity failure: " ++ error
  | .timeout timeoutMs => ("qdrant request timed out after " : Str) ++ Str.ofNat timeoutMs ++ ("ms" : Str)
  | .unexpectedStatus status => "qdrant endpoint returned unexpected status " ++ status.text
  | .unexpectedResponse status =>
    ("qdrant response status field must be 'ok', got '" : Str) ++ status ++ ("'" : Str)

/-- What comes of a request: none in time, no exchange, or a response with its body, decoded or not. -/
inductive Exchange where
  | timedOut
  | failed (error : Str)
  | answered (status : HttpStatus) (body : Except Str Value)

/-- `send_with_timeout` and then `expect_ok_status` -/
def expectOkStatus (timeoutMs : Nat) : Exchange → Except QdrantError Value
  | .timedOut => .error (.timeout timeoutMs)
  | .failed error => .error (.connectivity error)
  | .answered status body =>
    if status.code ≠ 200 then .error (.unexpectedStatus status)
    else
      match body with
      | .error error => .error (.connectivity error)
      | .ok body =>
        let said := ((body.get? "status").bind Value.asStr?).getD []
        if said ≠ ("ok" : Str) then .error (.unexpectedResponse said) else .ok body

/-- `Number::as_u64` -/
def asU64? (value : Rat) : Option Nat :=
  if value.den = 1 ∧ 0 ≤ value.num ∧ value.num < 2 ^ 64 then some value.num.toNat else none

/-- `str::parse::<u64>` -/
def parseU64? (text : Str) : Option Nat :=
  let digits := (Str.stripPrefix? "+" text).getD text
  let value := Nat.ofDigitChars 10 digits 0
  if digits ≠ [] ∧ digits.all Char.isDigit ∧ value < 2 ^ 64 then some value else none

def pointId? (point : Value) : Option Nat :=
  (point.get? "id").bind fun id =>
    match id with
    | .number number => asU64? number
    | .string text => parseU64? text
    | _ => none

/-! ### The loop of `list_point_ids` -/

/-- An id as the server writes it. -/
def idValue (id : Nat) : Value := .number id

/-- The body of the request for the page from an offset on. -/
def scrollBody (offset : Option Value) : Value :=
  let fields : List (Str × Value) :=
    [("limit", .number 256), ("with_vector", .bool false), ("with_payload", .bool false)]
  .object (fields ++ offset.toList.map fun offset => (("offset" : Str), offset))

def scrollPoints (parsed : Value) : List Value :=
  (((parsed.get? "result").bind fun result => result.get? "points").bind Value.asArray?).getD []

def scrollOffset (parsed : Value) : Option Value :=
  ((parsed.get? "result").bind fun result => result.get? "next_page_offset").filter fun offset =>
    match offset with
    | .null => false
    | _ => true

structure Scroll where
  allPointIds : List Nat
  nextPageOffset : Option Value
  seenOffsets : List Str

def Scroll.start : Scroll := ⟨[], none, []⟩

def repeatedOffset : Str := "qdrant scroll returned a repeated next_page_offset"

/-- A page is taken in: the loop goes on or ends. -/
def Scroll.takePage (json : SerdeJson) (scroll : Scroll) (parsed : Value) :
    Scroll ⊕ Except Str VectorPointListing :=
  let allPointIds := scroll.allPointIds ++ (scrollPoints parsed).filterMap pointId?
  match scrollOffset parsed with
  | none => .inr (.ok ⟨allPointIds, true⟩)
  | some offset =>
    let offsetKey := json.toString offset
    if offsetKey ∈ scroll.seenOffsets then .inr (.error repeatedOffset)
    else .inl ⟨allPointIds, some offset, offsetKey :: scroll.seenOffsets⟩

section Loop

variable (json : SerdeJson) (timeoutMs : Nat) (serve : Nat → Value → Exchange)

/-- The loop from its request of this number on, for at most `fuel` requests; `serve` tells what comes of each. -/
def scrollLoop : Nat → Nat → Scroll → Option (Except Str VectorPointListing)
  | 0, _, _ => none
  | fuel + 1, request, scroll =>
    match expectOkStatus timeoutMs (serve request (scrollBody scroll.nextPageOffset)) with
    | .error error => some (.error error.display)
    | .ok parsed =>
      match scroll.takePage json parsed with
      | .inl scroll => scrollLoop fuel (request + 1) scroll
      | .inr result => some result

def listPointIds (fuel : Nat) : Option (Except Str VectorPointListing) :=
  scrollLoop json timeoutMs serve fuel 0 .start

end Loop

/-! ### A server and its collection -/

/-- Points are served in the order of their ids from the offset on, with the id of the next one; the
collection may be another one at every request. A request may also fail. -/
structure ServesPages (timeoutMs : Nat) (serve : Nat → Value → Exchange) (collection : Nat → List Nat) : Prop where
  sorted : ∀ request, (collection request).Pairwise (· < ·)
  points : ∀ request (offset : Option Nat) parsed,
    expectOkStatus timeoutMs (serve request (scrollBody (offset.map idValue))) = .ok parsed →
    (scrollPoints parsed).map (fun point => point.get? "id") =
      (cursorPage 256 (collection request) offset).map fun id => some (idValue id)
  next : ∀ request (offset : Option Nat) parsed,
    expectOkStatus timeoutMs (serve request (scrollBody (offset.map idValue))) = .ok parsed →
    scrollOffset parsed = (nextCursor 256 (collection request) offset).map idValue

section Sweep

variable {json : SerdeJson} {timeoutMs : Nat} {serve : Nat → Value → Exchange} {collection : Nat → List Nat}

theorem asU64?_natCast {id : Nat} (fits : id < 2 ^ 64) : asU64? (id : Rat) = some id := by
  have inside : (id : Rat).den = 1 ∧ 0 ≤ (id : Rat).num ∧ (id : Rat).num < 2 ^ 64 := by
    rw [Rat.num_natCast]
    exact ⟨Rat.den_natCast id, Int.natCast_nonneg id, by exact_mod_cast fits⟩
  rw [asU64?, if_pos inside, Rat.num_natCast, Int.toNat_natCast]

theorem pointId?_eq_some {point : Value} {id : Nat} (fits : id < 2 ^ 64)
    (read : point.get? "id" = some (idValue id)) : pointId? point = some id := by
  unfold pointId?
  rw [read, Option.bind_some]
  exact asU64?_natCast fits

theorem filterMap_pointId? {points : List Value} {ids : List Nat} (fits : ∀ id ∈ ids, id < 2 ^ 64)
    (listed : points.map (fun point => point.get? "id") = ids.map fun id => some (idValue id)) :
    points.filterMap pointId? = ids := by
  induction points generalizing ids with
  | nil =>
    cases ids with
    | nil => rfl
    | cons id rest => exact absurd listed (by simp)
  | cons point points ih =>
    cases ids with
    | nil => exact absurd listed (by simp)
    | cons id rest =>
      rw [List.map_cons, List.map_cons] at listed
      obtain ⟨first, others⟩ := List.cons.inj listed
      have read := pointId?_eq_some (fits id List.mem_cons_self) first
      rw [List.filterMap_cons_some read, ih (fun other member => fits other (List.mem_cons_of_mem _ member)) others]

/-- Where the loop stands after its pages so far, with the collections they were taken from. -/
structure Scrolling (json : SerdeJson) (seen : List (List Nat)) (offset : Option Nat) (scroll : Scroll) : Prop where
  swept : PageSweep seen offset scroll.allPointIds
  at_ : scroll.nextPageOffset = offset.map idValue
  full : scroll.allPointIds.length = 256 * seen.length
  keys : ∀ key ∈ scroll.seenOffsets, ∃ id : Nat, key = json.toString (idValue id) ∧ ∃ cursor, offset = some cursor ∧
    id ≤ cursor

theorem scrolling_start : Scrolling json [] none .start :=
  ⟨pageSweep_start, rfl, rfl, fun _ => nofun⟩

/-- A page brings the loop to its end with all that was always there, or a page further. -/
theorem Scrolling.takePage {seen : List (List Nat)} {offset : Option Nat} {scroll : Scroll}
    (scrolling : Scrolling json seen offset scroll)
    (prints : ∀ first second : Nat, json.toString (idValue first) = json.toString (idValue second) → first = second)
    {points : List Nat} (sorted : points.Pairwise (· < ·)) (fits : ∀ id ∈ points, id < 2 ^ 64) {parsed : Value}
    (listed : (scrollPoints parsed).map (fun point => point.get? "id") =
      (cursorPage 256 points offset).map fun id => some (idValue id))
    (following : scrollOffset parsed = (nextCursor 256 points offset).map idValue) :
    (nextCursor 256 points offset = none ∧
        scroll.takePage json parsed = .inr (.ok ⟨scroll.allPointIds ++ cursorPage 256 points offset, true⟩)) ∨
      ∃ next further, nextCursor 256 points offset = some next ∧ scroll.takePage json parsed = .inl further ∧
        Scrolling json (points :: seen) (some next) further := by
  have read := filterMap_pointId? (fun id member => fits id (mem_of_mem_cursorPage member).1) listed
  cases more : nextCursor 256 points offset with
  | none =>
    left
    rw [more] at following
    simp only [Scroll.takePage, read, following, Option.map_none, true_and]
  | some next =>
    right
    rw [more] at following
    have fresh : json.toString (idValue next) ∉ scroll.seenOffsets := by
      intro taken
      obtain ⟨id, same, cursor, rfl, below⟩ := scrolling.keys _ taken
      obtain rfl := prints next id same
      exact absurd (cursor_lt_next (by decide) sorted more) (not_lt.mpr below)
    refine ⟨next, ⟨scroll.allPointIds ++ cursorPage 256 points offset, some (idValue next),
      json.toString (idValue next) :: scroll.seenOffsets⟩, rfl, ?_, ?_, rfl, ?_, ?_⟩
    · simp only [Scroll.takePage, read, following, Option.map_some, if_neg fresh]
    · exact scrolling.swept.go_on sorted more
    · rw [List.length_append, scrolling.full, length_cursorPage more, List.length_cons]
      omega
    · refine List.forall_mem_cons.mpr ⟨⟨next, rfl, next, rfl, le_refl _⟩, fun key member => ?_⟩
      obtain ⟨id, same, cursor, rfl, below⟩ := scrolling.keys key member
      exact ⟨id, same, next, rfl, below.trans (cursor_lt_next (by decide) sorted more).le⟩

/-- A run of the loop: it ends by a failed request, or takes in all pages that were served. -/
theorem Scrolling.loop (serves : ServesPages timeoutMs serve collection)
    (prints : ∀ first second : Nat, json.toString (idValue first) = json.toString (idValue second) → first = second)
    (fits : ∀ request, ∀ id ∈ collection request, id < 2 ^ 64) {fuel request : Nat} {seen : List (List Nat)}
    {offset : Option Nat} {scroll : Scroll} (scrolling : Scrolling json seen offset scroll)
    (taken : ∀ points ∈ seen, ∃ earlier < request, points = collection earlier)
    {result : Except Str VectorPointListing} (ended : scrollLoop json timeoutMs serve fuel request scroll = some result) :
    (∃ number body error, result = .error (QdrantError.display error) ∧
        expectOkStatus timeoutMs (serve number body) = .error error) ∨
      ∃ listing, result = .ok listing ∧ listing.isComplete = true ∧ listing.pointIds.Pairwise (· < ·) ∧
        (∀ id ∈ listing.pointIds, ∃ number < request + fuel, id ∈ collection number) ∧
        ∀ id, (∀ number < request + fuel, id ∈ collection number) → id ∈ listing.pointIds := by
  induction fuel generalizing request seen offset scroll with
  | zero => cases ended
  | succ fuel ih =>
    rw [scrollLoop, scrolling.at_] at ended
    cases got : expectOkStatus timeoutMs (serve request (scrollBody (offset.map idValue))) with
    | error error =>
      rw [got] at ended
      exact .inl ⟨request, _, error, (Option.some.inj ended).symm, got⟩
    | ok parsed =>
      rw [got] at ended
      have sorted := serves.sorted request
      rcases scrolling.takePage prints sorted (fits request) (serves.points request offset parsed got)
        (serves.next request offset parsed got) with ⟨last, page⟩ | ⟨next, further, more, page, moved⟩
      · right
        simp only [page] at ended
        refine ⟨_, (Option.some.inj ended).symm, rfl, scrolling.swept.sorted_page sorted, ?_, ?_⟩
        · intro id member
          obtain ⟨points, among, here⟩ := scrolling.swept.found_page id member
          rcases List.mem_cons.mp among with rfl | before
          · exact ⟨request, by omega, here⟩
          · obtain ⟨earlier, below, rfl⟩ := taken points before
            exact ⟨earlier, by omega, here⟩
        · intro id always
          refine scrolling.swept.covered_page sorted ?_ fun next more => by cases last.symm.trans more
          intro points among
          rcases List.mem_cons.mp among with rfl | before
          · exact always request (by omega)
          · obtain ⟨earlier, below, rfl⟩ := taken points before
            exact always earlier (by omega)
      · simp only [page] at ended
        have taken' : ∀ points ∈ collection request :: seen, ∃ earlier < request + 1, points = collection earlier := by
          refine List.forall_mem_cons.mpr ⟨⟨request, Nat.lt_succ_self _, rfl⟩, fun points among => ?_⟩
          obtain ⟨earlier, below, same⟩ := taken points among
          exact ⟨earlier, by omega, same⟩
        have result := ih moved taken' ended
        rwa [Nat.succ_add_eq_add_succ] at result

/-- Full pages of distinct ids below a bound run out. -/
theorem Scrolling.pages_le {seen : List (List Nat)} {offset : Option Nat} {scroll : Scroll} {bound : Nat}
    (scrolling : Scrolling json seen offset scroll) (below : ∀ points ∈ seen, ∀ id ∈ points, id < bound) :
    256 * seen.length ≤ bound := by
  rw [← scrolling.full]
  have distinct : scroll.allPointIds.Nodup := scrolling.swept.sorted.imp fun before => Nat.ne_of_lt before
  have inside : scroll.allPointIds ⊆ List.range bound := by
    intro id member
    obtain ⟨points, among, here⟩ := scrolling.swept.found id member
    exact List.mem_range.mpr (below points among id here)
  have count := (List.subperm_of_subset distinct inside).length_le
  rwa [List.length_range] at count

/-- With fuel for one page more than the ids can fill, the loop comes to its end. -/
theorem Scrolling.ends (serves : ServesPages timeoutMs serve collection)
    (prints : ∀ first second : Nat, json.toString (idValue first) = json.toString (idValue second) → first = second)
    {bound : Nat} (small : bound ≤ 2 ^ 64) (below : ∀ request, ∀ id ∈ collection request, id < bound)
    {fuel request : Nat} {seen : List (List Nat)} {offset : Option Nat} {scroll : Scroll}
    (scrolling : Scrolling json seen offset scroll)
    (taken : ∀ points ∈ seen, ∃ earlier < request, points = collection earlier)
    (enough : bound < 256 * (seen.length + fuel)) :
    ∃ result, scrollLoop json timeoutMs serve fuel request scroll = some result := by
  have belowSeen : ∀ points ∈ seen, ∀ id ∈ points, id < bound := by
    intro points among id member
    obtain ⟨earlier, -, rfl⟩ := taken points among
    exact below earlier id member
  induction fuel generalizing request seen offset scroll with
  | zero =>
    have pages := scrolling.pages_le belowSeen
    omega
  | succ fuel ih =>
    rw [scrollLoop, scrolling.at_]
    cases got : expectOkStatus timeoutMs (serve request (scrollBody (offset.map idValue))) with
    | error error => exact ⟨_, rfl⟩
    | ok parsed =>
      have fits : ∀ id ∈ collection request, id < 2 ^ 64 := fun id member =>
        Nat.lt_of_lt_of_le (below request id member) small
      rcases scrolling.takePage prints (serves.sorted request) fits (serves.points request offset parsed got)
        (serves.next request offset parsed got) with ⟨last, page⟩ | ⟨next, further, more, page, moved⟩
      · simp only [page]
        exact ⟨_, rfl⟩
      · simp only [page]
        refine ih moved ?_ ?_ ?_
        · refine List.forall_mem_cons.mpr ⟨⟨request, Nat.lt_succ_self _, rfl⟩, fun points among => ?_⟩
          obtain ⟨earlier, before, same⟩ := taken points among
          exact ⟨earlier, by omega, same⟩
        · rw [List.length_cons]
          omega
        · exact List.forall_mem_cons.mpr ⟨below request, belowSeen⟩

/-- The listing comes to an end after one page more than the ids can fill. Then a request has failed, or all is listed
that was there at every request, in order and without repetition, and nothing that never was there. -/
theorem listPointIds_sweeps (serves : ServesPages timeoutMs serve collection)
    (prints : ∀ id : Nat, json.toString (idValue id) = Str.ofNat id) {bound : Nat} (small : bound ≤ 2 ^ 64)
    (below : ∀ request, ∀ id ∈ collection request, id < bound) {fuel : Nat} (enough : bound < 256 * fuel) :
    ∃ result, listPointIds json timeoutMs serve fuel = some result ∧
      ((∃ number body error, result = .error (QdrantError.display error) ∧
          expectOkStatus timeoutMs (serve number body) = .error error) ∨
        ∃ listing, result = .ok listing ∧ listing.isComplete = true ∧ listing.pointIds.Pairwise (· < ·) ∧
          (∀ id ∈ listing.pointIds, ∃ number < fuel, id ∈ collection number) ∧
          ∀ id, (∀ number < fuel, id ∈ collection number) → id ∈ listing.pointIds) := by
  have distinct (first second : Nat) (same : json.toString (idValue first) = json.toString (idValue second)) :
      first = second := by
    rw [prints, prints] at same
    exact Str.ofNat_injective same
  have fits (request : Nat) : ∀ id ∈ collection request, id < 2 ^ 64 := fun id member =>
    Nat.lt_of_lt_of_le (below request id member) small
  obtain ⟨result, ended⟩ := Scrolling.ends serves distinct small below scrolling_start (fun _ => nofun)
    (by simpa using enough)
  refine ⟨result, ended, ?_⟩
  have account := Scrolling.loop serves distinct fits scrolling_start (fun _ => nofun) ended
  rwa [Nat.zero_add] at account

end Sweep

/-! ### A server that answers every request -/

/-- The offset that a request asks for. -/
def askedOffset (body : Value) : Option Nat :=
  (body.get? "offset").bind fun offset =>
    match offset with
    | .number offset => some offset.num.toNat
    | _ => none

def scrollAnswer (points : List Nat) (offset : Option Nat) : Value :=
  let fields : List (Str × Value) :=
    [("points", .array ((cursorPage 256 points offset).map fun id => .object [(("id" : Str), idValue id)])),
      ("next_page_offset", ((nextCursor 256 points offset).map idValue).getD .null)]
  .object [(("result" : Str), .object fields), (("status" : Str), .string "ok")]

/-- The collection does not change, and every request is answered. -/
def scrollServer (points : List Nat) (_ : Nat) (body : Value) : Exchange :=
  .answered ⟨200, "200 OK"⟩ (.ok (scrollAnswer points (askedOffset body)))

theorem askedOffset_scrollBody (offset : Option Nat) : askedOffset (scrollBody (offset.map idValue)) = offset := by
  cases offset with
  | none => rfl
  | some id =>
    have number : (id : Rat).num.toNat = id := by rw [Rat.num_natCast, Int.toNat_natCast]
    exact congrArg some number

theorem scrollServer_servesPages {points : List Nat} (sorted : points.Pairwise (· < ·)) (timeoutMs : Nat) :
    ServesPages timeoutMs (scrollServer points) fun _ => points where
  sorted _ := sorted
  points request offset parsed answered := by
    obtain rfl : scrollAnswer points (askedOffset _) = parsed := Except.ok.inj answered
    rw [askedOffset_scrollBody]
    change ((cursorPage 256 points offset).map _).map _ = _
    rw [List.map_map]
    rfl
  next request offset parsed answered := by
    obtain rfl : scrollAnswer points (askedOffset _) = parsed := Except.ok.inj answered
    rw [askedOffset_scrollBody]
    change Option.filter _ (some (((nextCursor 256 points offset).map idValue).getD .null)) = _
    cases nextCursor 256 points offset with
    | none => rfl
    | some next => rfl

/-- Printing of numbers as the JSON library does it. -/
def printsNumbers : SerdeJson where
  fromStr _ := .error []
  toString value :=
    match value with
    | .number number => Str.ofNat number.num.toNat
    | _ => []

theorem listPointIds_sweeps_two :
    ∃ result, listPointIds printsNumbers 500 (scrollServer [3, 5]) 1 = some result ∧
      ((∃ number body error, result = .error (QdrantError.display error) ∧
          expectOkStatus 500 (scrollServer [3, 5] number body) = .error error) ∨
        ∃ listing, result = .ok listing ∧ listing.isComplete = true ∧ listing.pointIds.Pairwise (· < ·) ∧
          (∀ id ∈ listing.pointIds, ∃ number < 1, id ∈ (fun _ => [3, 5]) number) ∧
          ∀ id, (∀ number < 1, id ∈ (fun _ => [3, 5]) number) → id ∈ listing.pointIds) := by
  refine listPointIds_sweeps (scrollServer_servesPages (by simp) 500) (fun id => ?_) (by decide : 6 ≤ 2 ^ 64)
    (by simp) (by decide)
  have number : (id : Rat).num.toNat = id := by rw [Rat.num_natCast, Int.toNat_natCast]
  exact congrArg Str.ofNat number

end SkillLayer.Infrastructure
