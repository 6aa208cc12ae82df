import Mathlib.Logic.Function.Basic
import SkillLayer.Runs

/-! The served graph behind an atomic pointer: swaps and retrievals in any interleaving. -/

namespace SkillLayer.Retrieval

structure GraphSnapshot (Graph : Type) where
  graph : Graph
  version : Int

variable {Graph Content : Type}

def GraphSnapshot.new (graphVersion : Graph → Int) (snapshot : Graph) : GraphSnapshot Graph where
  graph := snapshot
  version := graphVersion snapshot

/-- A swap in one step: whether the incoming snapshot is applied, and what is served then. -/
def GraphSnapshot.swap (current incoming : GraphSnapshot Graph) : Bool × GraphSnapshot Graph :=
  if current.version < incoming.version then (true, incoming) else (false, current)

/-! ### The atomic pointer -/

/-- The allocations, by address, and the address that is stored. No allocation is ever
changed, and an address that a caller holds is not given out again. -/
structure ArcSwap (Content : Type) where
  arcs : List Content
  current : Nat

namespace ArcSwap

def load (cell : ArcSwap Content) : Option Content := cell.arcs[cell.current]?

def allocate (cell : ArcSwap Content) (content : Content) : ArcSwap Content :=
  { cell with arcs := cell.arcs ++ [content] }

/-- The address before; the new one is stored if the old one was the expected one. -/
def compareAndSwap (cell : ArcSwap Content) (expected new : Nat) : Nat × ArcSwap Content :=
  (cell.current, if cell.current = expected then { cell with current := new } else cell)

theorem getElem_allocate {cell : ArcSwap Content} {address : Nat} {content other : Content}
    (found : cell.arcs[address]? = some content) :
    (cell.allocate other).arcs[address]? = some content := by
  obtain ⟨within, -⟩ := List.getElem?_eq_some_iff.mp found
  exact (List.getElem?_append_left within).trans found

end ArcSwap

/-! ### Calls in flight -/

inductive SwapStage where
  | allocated
  | loaded (address : Nat)
  | returned (replaced : Nat) (applied : Bool)

/-- A call of `swap_graph`, with the address of its own snapshot. -/
structure SwapCall where
  incomingVersion : Int
  newSnap : Nat
  stage : SwapStage

/-- The closure of the update: the address to store in place of the one loaded. -/
def SwapCall.replacement (call : SwapCall) (address : Nat) (current : GraphSnapshot Graph) : Nat :=
  if current.version < call.incomingVersion then call.newSnap else address

/-- One round of the update: it returns when the loaded address is still the stored one, and
goes on with the address found otherwise. -/
def SwapCall.round (call : SwapCall) (address : Nat) (current : GraphSnapshot Graph)
    (cell : ArcSwap (GraphSnapshot Graph)) : SwapCall × ArcSwap (GraphSnapshot Graph) :=
  let (previous, after) := cell.compareAndSwap address (call.replacement address current)
  if previous = address then
    ({ call with stage := .returned address (decide (current.version < call.incomingVersion)) }, after)
  else ({ call with stage := .loaded previous }, after)

/-- A call of `retrieve`, with the address that it loaded. For the record of the run only:
what was served when it began, and what it has read through its address. -/
structure RetrieveCall (Graph : Type) where
  loaded : Nat
  begun : GraphSnapshot Graph
  reads : List (GraphSnapshot Graph)

/-- The pointer and all calls. For the record of the run only: the first version and all
that were offered. -/
structure GraphState (Graph : Type) where
  cell : ArcSwap (GraphSnapshot Graph)
  swaps : Nat → Option SwapCall
  retrieves : Nat → Option (RetrieveCall Graph)
  offered : List Int

namespace GraphState

def withSwap (state : GraphState Graph) (id : Nat) (call : SwapCall) : GraphState Graph :=
  { state with swaps := Function.update state.swaps id (some call) }

def withRetrieve (state : GraphState Graph) (id : Nat) (call : RetrieveCall Graph) : GraphState Graph :=
  { state with retrieves := Function.update state.retrieves id (some call) }

def started (graphVersion : Graph → Int) (graph : Graph) : GraphState Graph where
  cell := ⟨[GraphSnapshot.new graphVersion graph], 0⟩
  swaps _ := none
  retrieves _ := none
  offered := [graphVersion graph]

end GraphState

inductive GraphStep (graphVersion : Graph → Int) : GraphState Graph → GraphState Graph → Prop where
  | offer {state : GraphState Graph} (id : Nat) (graph : Graph) (free : state.swaps id = none) :
      GraphStep graphVersion state
        { state.withSwap id ⟨graphVersion graph, state.cell.arcs.length, .allocated⟩ with
          cell := state.cell.allocate (.new graphVersion graph)
          offered := state.offered ++ [graphVersion graph] }
  | load {state : GraphState Graph} (id : Nat) {call : SwapCall} (here : state.swaps id = some call)
      (stage : call.stage = .allocated) :
      GraphStep graphVersion state (state.withSwap id { call with stage := .loaded state.cell.current })
  | round {state : GraphState Graph} (id : Nat) {address : Nat} {call : SwapCall}
      {current : GraphSnapshot Graph} (here : state.swaps id = some call) (stage : call.stage = .loaded address)
      (found : state.cell.arcs[address]? = some current) :
      GraphStep graphVersion state
        { state.withSwap id (call.round address current state.cell).1 with
          cell := (call.round address current state.cell).2 }
  | retrieve {state : GraphState Graph} (id : Nat) {snapshot : GraphSnapshot Graph}
      (free : state.retrieves id = none) (served : state.cell.load = some snapshot) :
      GraphStep graphVersion state (state.withRetrieve id ⟨state.cell.current, snapshot, []⟩)
  | read {state : GraphState Graph} (id : Nat) {call : RetrieveCall Graph}
      {snapshot : GraphSnapshot Graph} (here : state.retrieves id = some call)
      (found : state.cell.arcs[call.loaded]? = some snapshot) :
      GraphStep graphVersion state
        (state.withRetrieve id { call with reads := call.reads ++ [snapshot] })

/-- Any calls in any interleaving, from any first graph. -/
def graphRuns (graphVersion : Graph → Int) : Transitions (GraphState Graph) where
  initial state := ∃ graph, state = .started graphVersion graph
  step := GraphStep graphVersion

/-! ### The invariant -/

/-- A swap knows its own snapshot, holds an address that exists, and when it has returned the
served version is at least its own. -/
structure SwapCall.Sound (cell : ArcSwap (GraphSnapshot Graph)) (served : Int) (call : SwapCall) : Prop where
  own : ∃ snapshot, cell.arcs[call.newSnap]? = some snapshot ∧ snapshot.version = call.incomingVersion
  address : ∀ address, call.stage = .loaded address → address < cell.arcs.length
  reached : ∀ replaced applied, call.stage = .returned replaced applied → call.incomingVersion ≤ served

structure GraphState.Sound (state : GraphState Graph) (served : GraphSnapshot Graph) : Prop where
  serves : state.cell.load = some served
  newest : served.version ∈ state.offered
  swaps : ∀ id call, state.swaps id = some call → call.Sound state.cell served.version
  offered : ∀ version ∈ state.offered, version ≤ served.version ∨
    ∃ id call, state.swaps id = some call ∧ call.incomingVersion = version
  own : ∀ id call, state.swaps id = some call → call.incomingVersion ∈ state.offered
  retrieves : ∀ id call, state.retrieves id = some call →
    state.cell.arcs[call.loaded]? = some call.begun ∧ ∀ read ∈ call.reads, read = call.begun

variable {graphVersion : Graph → Int} {state after later : GraphState Graph} {served own current : GraphSnapshot Graph}
  {call : SwapCall} {cell : ArcSwap (GraphSnapshot Graph)} {address id : Nat}

/-- A round that finds the pointer where it was does an atomic swap. -/
theorem SwapCall.round_won (won : cell.current = address) (served : cell.load = some current)
    (ownFound : cell.arcs[call.newSnap]? = some own) (version : own.version = call.incomingVersion) :
    ∃ cell' : ArcSwap (GraphSnapshot Graph), call.round address current cell =
        ({ call with stage := .returned address (current.swap own).1 }, cell') ∧
      cell'.arcs = cell.arcs ∧ cell'.load = some (current.swap own).2 := by
  refine ⟨{ cell with current := call.replacement address current }, ?_, rfl, ?_⟩
  · simp only [SwapCall.round, ArcSwap.compareAndSwap, won, if_true, GraphSnapshot.swap, version]
    by_cases newer : current.version < call.incomingVersion
    · simp [newer]
    · simp [newer]
  · simp only [ArcSwap.load, SwapCall.replacement, GraphSnapshot.swap, version]
    split
    · exact ownFound
    · exact won ▸ served

/-- A round that finds another address changes nothing but what it has loaded. -/
theorem SwapCall.round_lost (lost : cell.current ≠ address) :
    call.round address current cell = ({ call with stage := .loaded cell.current }, cell) := by
  simp [SwapCall.round, ArcSwap.compareAndSwap, lost]

theorem GraphSnapshot.le_swap (current incoming : GraphSnapshot Graph) :
    current.version ≤ (current.swap incoming).2.version ∧
      incoming.version ≤ (current.swap incoming).2.version := by
  unfold GraphSnapshot.swap
  split <;> constructor <;> simp only <;> omega

theorem GraphSnapshot.swap_choice (current incoming : GraphSnapshot Graph) :
    (current.swap incoming).2 = current ∨ (current.swap incoming).2 = incoming := by
  unfold GraphSnapshot.swap
  split
  · exact .inr rfl
  · exact .inl rfl

theorem SwapCall.Sound.mono {version newer : Int} {other : ArcSwap (GraphSnapshot Graph)}
    (sound : call.Sound cell version) (grown : cell.arcs <+: other.arcs) (le : version ≤ newer) :
    call.Sound other newer := by
  obtain ⟨more, same⟩ := grown
  obtain ⟨snapshot, found, own⟩ := sound.own
  obtain ⟨within, -⟩ := List.getElem?_eq_some_iff.mp found
  refine ⟨⟨snapshot, ?_, own⟩, ?_, ?_⟩
  · rw [← same, List.getElem?_append_left within, found]
  · intro address loaded
    rw [← same, List.length_append]
    exact Nat.lt_add_right _ (sound.address address loaded)
  · intro replaced applied returned
    exact Int.le_trans (sound.reached replaced applied returned) le

/-- What a swap call leaves behind: the other calls are as they were, and its own is sound. -/
theorem GraphState.Sound.withSwap (sound : state.Sound served) {newer : GraphSnapshot Graph}
    (here : state.swaps id = some call) (next : SwapCall) {after : ArcSwap (GraphSnapshot Graph)}
    (version : next.incomingVersion = call.incomingVersion) (own : next.Sound after newer.version)
    (arcs : after.arcs = state.cell.arcs) (serves : after.load = some newer)
    (le : served.version ≤ newer.version) (newest : newer.version ∈ state.offered) :
    GraphState.Sound { state.withSwap id next with cell := after } newer := by
  refine ⟨serves, newest, ?_, ?_, ?_, ?_⟩
  · intro other running found
    by_cases same : other = id
    · subst same
      obtain rfl : next = running := by simpa [GraphState.withSwap] using found
      exact own
    · have before : state.swaps other = some running := by
        simpa [GraphState.withSwap, Function.update_of_ne same] using found
      exact (sound.swaps other running before).mono (arcs ▸ List.prefix_rfl) le
  · intro offered member
    rcases sound.offered offered member with below | ⟨other, running, found, same⟩
    · exact .inl (Int.le_trans below le)
    · by_cases self : other = id
      · subst self
        obtain rfl := Option.some.inj (here.symm.trans found)
        exact .inr ⟨other, next, by simp [GraphState.withSwap], version.trans same⟩
      · exact .inr ⟨other, running, by simpa [GraphState.withSwap, Function.update_of_ne self] using found, same⟩
  · intro other running found
    by_cases same : other = id
    · subst same
      obtain rfl : next = running := by simpa [GraphState.withSwap] using found
      rw [version]
      exact sound.own other call here
    · apply sound.own other running
      simpa [GraphState.withSwap, Function.update_of_ne same] using found
  · intro other running found
    rw [arcs]
    exact sound.retrieves other running found

/-- What a round of a sound state does: an atomic swap that returns, or nothing. -/
theorem GraphState.Sound.round (sound : state.Sound served) (here : state.swaps id = some call)
    (found : state.cell.arcs[address]? = some current) :
    (∃ own cell', current = served ∧ state.cell.arcs[call.newSnap]? = some own ∧
      own.version = call.incomingVersion ∧ call.round address current state.cell =
        ({ call with stage := .returned address (served.swap own).1 }, cell') ∧
      cell'.arcs = state.cell.arcs ∧ cell'.load = some (served.swap own).2) ∨
    call.round address current state.cell =
      ({ call with stage := .loaded state.cell.current }, state.cell) := by
  by_cases won : state.cell.current = address
  · left
    obtain ⟨own, ownFound, version⟩ := (sound.swaps id call here).own
    have same : state.cell.load = some current := by rw [ArcSwap.load, won, found]
    obtain rfl := Option.some.inj (same.symm.trans sound.serves)
    obtain ⟨cell', round, arcs, loads⟩ := call.round_won won same ownFound version
    exact ⟨own, cell', rfl, ownFound, version, round, arcs, loads⟩
  · exact .inr (call.round_lost won)

/-- Every step keeps the state sound and serves a graph that is at least as new. -/
theorem GraphStep.sound (step : GraphStep graphVersion state after) (sound : state.Sound served) :
    ∃ newer, after.Sound newer ∧ served.version ≤ newer.version := by
  have within : state.cell.current < state.cell.arcs.length :=
    (List.getElem?_eq_some_iff.mp sound.serves).1
  cases step with
  | @offer id graph free =>
    refine ⟨served, ⟨ArcSwap.getElem_allocate sound.serves, List.mem_append_left _ sound.newest, ?_, ?_,
      ?_, ?_⟩, Int.le_refl _⟩
    · intro other running found
      by_cases same : other = id
      · subst same
        obtain rfl : _ = running := by simpa [GraphState.withSwap] using found
        exact ⟨⟨.new graphVersion graph, List.getElem?_concat_length, rfl⟩, nofun, nofun⟩
      · have before : state.swaps other = some running := by
          simpa [GraphState.withSwap, Function.update_of_ne same] using found
        exact (sound.swaps other running before).mono (List.prefix_append _ _) (Int.le_refl _)
    · intro version member
      rcases List.mem_append.mp member with old | new
      · rcases sound.offered version old with below | ⟨other, running, found, same⟩
        · exact .inl below
        · have apart : other ≠ id := by
            rintro rfl
            cases free.symm.trans found
          refine .inr ⟨other, running, ?_, same⟩
          simpa [GraphState.withSwap, Function.update_of_ne apart] using found
      · obtain rfl := List.mem_singleton.mp new
        exact .inr ⟨id, ⟨_, state.cell.arcs.length, .allocated⟩, by simp [GraphState.withSwap], rfl⟩
    · intro other running found
      by_cases same : other = id
      · subst same
        obtain rfl : _ = running := by simpa [GraphState.withSwap] using found
        exact List.mem_append_right _ (List.mem_singleton_self _)
      · apply List.mem_append_left
        apply sound.own other running
        simpa [GraphState.withSwap, Function.update_of_ne same] using found
    · intro other running found
      obtain ⟨loaded, reads⟩ := sound.retrieves other running found
      exact ⟨ArcSwap.getElem_allocate loaded, reads⟩
  | @load id call here stage =>
    have before := sound.swaps id call here
    refine ⟨served, ?_, Int.le_refl _⟩
    apply sound.withSwap here { call with stage := .loaded state.cell.current } rfl _ rfl sound.serves
      (Int.le_refl _) sound.newest
    refine ⟨before.own, ?_, nofun⟩
    rintro address ⟨⟩
    exact within
  | @round id address call current here stage found =>
    have before := sound.swaps id call here
    rcases sound.round here found with ⟨own, cell', rfl, ownFound, version, round, arcs, loads⟩ | lost
    · rw [round]
      have newest : (current.swap own).2.version ∈ state.offered := by
        rcases current.swap_choice own with old | new
        · rw [old]
          exact sound.newest
        · rw [new, version]
          exact sound.own id call here
      refine ⟨(current.swap own).2, ?_, (current.le_swap own).1⟩
      apply sound.withSwap here { call with stage := .returned address (current.swap own).1 } rfl _ arcs loads
        (current.le_swap own).1 newest
      refine ⟨⟨own, arcs ▸ ownFound, version⟩, nofun, ?_⟩
      rintro replaced applied ⟨⟩
      exact version ▸ (current.le_swap own).2
    · rw [lost]
      refine ⟨served, ?_, Int.le_refl _⟩
      apply sound.withSwap here { call with stage := .loaded state.cell.current } rfl _ rfl sound.serves
        (Int.le_refl _) sound.newest
      refine ⟨before.own, ?_, nofun⟩
      rintro other ⟨⟩
      exact within
  | @retrieve id snapshot free loads =>
    refine ⟨served, ⟨sound.serves, sound.newest, sound.swaps, sound.offered, sound.own, ?_⟩, Int.le_refl _⟩
    intro other running found
    by_cases same : other = id
    · subst same
      obtain rfl : _ = running := by simpa [GraphState.withRetrieve] using found
      exact ⟨loads, nofun⟩
    · apply sound.retrieves other running
      simpa [GraphState.withRetrieve, Function.update_of_ne same] using found
  | @read id call snapshot here found =>
    refine ⟨served, ⟨sound.serves, sound.newest, sound.swaps, sound.offered, sound.own, ?_⟩, Int.le_refl _⟩
    intro other running foundAfter
    by_cases same : other = id
    · subst same
      obtain rfl : _ = running := by simpa [GraphState.withRetrieve] using foundAfter
      obtain ⟨loaded, reads⟩ := sound.retrieves other call here
      refine ⟨loaded, ?_⟩
      intro read member
      rcases List.mem_append.mp member with old | new
      · exact reads read old
      · obtain rfl := List.mem_singleton.mp new
        exact Option.some.inj (found.symm.trans loaded)
    · apply sound.retrieves other running
      simpa [GraphState.withRetrieve, Function.update_of_ne same] using foundAfter

/-- The step in which a swap returns is an atomic swap with its own snapshot. -/
theorem GraphStep.returns (step : GraphStep graphVersion state after) (sound : state.Sound served)
    (here : state.swaps id = some call) (running : ∀ replaced applied, call.stage ≠ .returned replaced applied)
    {next : SwapCall} {replaced : Nat} {applied : Bool} (then_ : after.swaps id = some next)
    (returned : next.stage = .returned replaced applied) :
    ∃ own : GraphSnapshot Graph, own.version = call.incomingVersion ∧ applied = (served.swap own).1 ∧
      after.cell.load = some (served.swap own).2 := by
  have unchanged (same : after.swaps id = state.swaps id) : False := by
    obtain rfl := Option.some.inj (then_.symm.trans (same.trans here))
    exact running replaced applied returned
  cases step with
  | @offer other graph free =>
    have apart : id ≠ other := by
      rintro rfl
      cases free.symm.trans here
    exact (unchanged (Function.update_of_ne apart _ _)).elim
  | @load other moved moving stage =>
    by_cases same : id = other
    · subst same
      obtain rfl : _ = next := by simpa [GraphState.withSwap] using then_
      cases returned
    · exact (unchanged (Function.update_of_ne same _ _)).elim
  | @round other address moved current moving stage found =>
    by_cases same : id = other
    · subst same
      obtain rfl := Option.some.inj (here.symm.trans moving)
      rcases sound.round here found with ⟨own, cell', rfl, ownFound, version, round, arcs, loads⟩ | lost
      · rw [round] at then_ ⊢
        obtain rfl : _ = next := by simpa [GraphState.withSwap] using then_
        cases returned
        exact ⟨own, version, rfl, loads⟩
      · rw [lost] at then_
        obtain rfl : _ = next := by simpa [GraphState.withSwap] using then_
        cases returned
    · exact (unchanged (Function.update_of_ne same _ _)).elim
  | retrieve other free loads => exact (unchanged rfl).elim
  | read other moving found => exact (unchanged rfl).elim

theorem sound_started (graph : Graph) :
    (GraphState.started graphVersion graph).Sound (.new graphVersion graph) where
  serves := rfl
  newest := List.mem_singleton_self _
  swaps := nofun
  offered _ member := .inl (List.mem_singleton.mp member ▸ Int.le_refl _)
  own := nofun
  retrieves := nofun

theorem sound_reachable (reached : (graphRuns graphVersion).Reachable state) :
    ∃ served, state.Sound served := by
  apply reached.invariant
  · intro state started
    obtain ⟨graph, rfl⟩ := started
    exact ⟨_, sound_started graph⟩
  · intro before after holds step
    obtain ⟨served, sound⟩ := holds
    obtain ⟨newer, soundAfter, -⟩ := GraphStep.sound step sound
    exact ⟨newer, soundAfter⟩

theorem newer_run (sound : state.Sound served)
    (run : Relation.ReflTransGen (graphRuns graphVersion).step state later) :
    ∃ newer, later.Sound newer ∧ served.version ≤ newer.version := by
  induction run with
  | refl => exact ⟨served, sound, Int.le_refl _⟩
  | tail _ step ih =>
    obtain ⟨between, soundBetween, before⟩ := ih
    obtain ⟨newer, soundAfter, after⟩ := GraphStep.sound step soundBetween
    exact ⟨newer, soundAfter, Int.le_trans before after⟩

/-- For any swaps and retrievals in any interleaving: the served version never decreases; a
swap returns whether its version is newer than that of the snapshot it replaces, and then its
own is served; once all swaps have returned the version is the largest of the first and all
that were offered; and whatever a retrieval reads is the snapshot that was served at its begin. -/
theorem swaps_monotone (reached : (graphRuns graphVersion).Reachable state) :
    ∃ served, state.cell.load = some served ∧
      (∀ later, Relation.ReflTransGen (graphRuns graphVersion).step state later →
        ∃ newer, later.cell.load = some newer ∧ served.version ≤ newer.version) ∧
      (∀ after id call next replaced applied, GraphStep graphVersion state after →
        state.swaps id = some call → (∀ replaced applied, call.stage ≠ .returned replaced applied) →
        after.swaps id = some next → next.stage = .returned replaced applied →
        (applied = true ↔ served.version < call.incomingVersion) ∧
          ∃ own : GraphSnapshot Graph, own.version = call.incomingVersion ∧
            after.cell.load = some (if applied then own else served)) ∧
      ((∀ id call, state.swaps id = some call → ∃ replaced applied, call.stage = .returned replaced applied) →
        served.version ∈ state.offered ∧ ∀ version ∈ state.offered, version ≤ served.version) ∧
      ∀ id call, state.retrieves id = some call → ∀ read ∈ call.reads, read = call.begun := by
  obtain ⟨served, sound⟩ := sound_reachable reached
  refine ⟨served, sound.serves, ?_, ?_, ?_, ?_⟩
  · intro later run
    obtain ⟨newer, soundLater, le⟩ := newer_run sound run
    exact ⟨newer, soundLater.serves, le⟩
  · intro after id call next replaced applied step here running then_ returned
    obtain ⟨own, version, rfl, loads⟩ := step.returns sound here running then_ returned
    refine ⟨?_, own, version, ?_⟩
    · by_cases newer : served.version < call.incomingVersion
      · simp [GraphSnapshot.swap, version, newer]
      · simp [GraphSnapshot.swap, version, newer]
    · rw [loads, GraphSnapshot.swap]
      split <;> rfl
  · intro ended
    refine ⟨sound.newest, ?_⟩
    intro version member
    rcases sound.offered version member with below | ⟨id, call, here, rfl⟩
    · exact below
    · obtain ⟨replaced, applied, returned⟩ := ended id call here
      exact (sound.swaps id call here).reached replaced applied returned
  · intro id call here
    exact (sound.retrieves id call here).2

/-- Version 5 is offered while 7 replaces 4, and its first round comes too late. -/
theorem late_swap : ∃ state : GraphState Int, (graphRuns fun version => version).Reachable state ∧
    state.offered = [4, 7, 5] ∧ state.swaps 0 = some ⟨7, 1, .returned 0 true⟩ ∧
    state.swaps 1 = some ⟨5, 2, .returned 1 false⟩ ∧ ∀ other, 1 < other → state.swaps other = none := by
  have start : (graphRuns fun version => version).Reachable (.started (fun version => version) (4 : Int)) :=
    .start ⟨4, rfl⟩
  have offered := (start.next (.offer 0 7 rfl)).next (.offer 1 5 rfl)
  have loaded := (offered.next (.load 0 rfl rfl)).next (.load 1 rfl rfl)
  have first := loaded.next (.round 0 rfl rfl rfl)
  have second := (first.next (.round 1 rfl rfl rfl)).next (.round 1 rfl rfl rfl)
  refine ⟨_, second, rfl, rfl, rfl, ?_⟩
  intro other large
  have notZero : other ≠ 0 := by omega
  have notOne : other ≠ 1 := by omega
  simp [GraphState.withSwap, GraphState.started, Function.update_of_ne, notZero, notOne]

theorem swaps_monotone_late : ∃ (state : GraphState Int) (served : GraphSnapshot Int),
    (graphRuns fun version => version).Reachable state ∧ state.cell.load = some served ∧
    served.version ∈ [4, 7, 5] ∧ ∀ version ∈ [4, 7, 5], version ≤ served.version := by
  obtain ⟨state, reached, offered, first, second, others⟩ := late_swap
  obtain ⟨served, serves, -, -, final, -⟩ := swaps_monotone reached
  refine ⟨state, served, reached, serves, ?_⟩
  rw [← offered]
  apply final
  intro other call here
  by_cases large : 1 < other
  · cases (others other large).symm.trans here
  · obtain rfl | rfl : other = 0 ∨ other = 1 := by omega
    · cases first.symm.trans here
      exact ⟨_, _, rfl⟩
    · cases second.symm.trans here
      exact ⟨_, _, rfl⟩

end SkillLayer.Retrieval
