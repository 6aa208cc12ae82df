import Mathlib.Algebra.Group.Nat.Defs
import Mathlib.Data.List.Basic
import Mathlib.Data.List.Induction

/-! The circuit breaker before the embedding service (the adapters have a copy of their own): its
three operations, what it answers after any trace of them, and its probes under concurrent calls. -/

namespace SkillLayer.Retrieval

inductive CircuitState where
  | closed
  | opened
  | halfOpen
deriving DecidableEq

/-- Instants and durations count in the unit of one clock. -/
structure CircuitBreaker where
  failureThreshold : Nat
  openFor : Nat
  state : CircuitState
  consecutiveFailures : Nat
  openedAt : Option Nat
deriving DecidableEq

namespace CircuitBreaker

def new (failureThreshold openFor : Nat) : CircuitBreaker where
  failureThreshold := max failureThreshold 1
  openFor := openFor
  state := .closed
  consecutiveFailures := 0
  openedAt := none

/-- The time since the breaker opened has reached its cool-down. -/
def readyForHalfOpen (breaker : CircuitBreaker) (now : Nat) : Bool :=
  match breaker.openedAt with
  | some openedAt => breaker.openFor ≤ now - openedAt
  | none => false

def allowRequest (breaker : CircuitBreaker) (now : Nat) : Bool × CircuitBreaker :=
  match breaker.state with
  | .closed => (true, breaker)
  | .halfOpen => (true, breaker)
  | .opened =>
    if breaker.readyForHalfOpen now then (true, { breaker with state := .halfOpen }) else (false, breaker)

def recordSuccess (breaker : CircuitBreaker) : CircuitBreaker :=
  { breaker with state := .closed, consecutiveFailures := 0, openedAt := none }

/-- The counter is a `u32`. -/
def recordFailure (breaker : CircuitBreaker) (now : Nat) : CircuitBreaker :=
  let counted := { breaker with consecutiveFailures := (breaker.consecutiveFailures + 1) % 2 ^ 32 }
  if counted.failureThreshold ≤ counted.consecutiveFailures then
    { counted with state := .opened, openedAt := some now }
  else counted

end CircuitBreaker

/-! ### Traces -/

inductive BreakerCall where
  | allowRequest
  | recordSuccess
  | recordFailure
deriving DecidableEq

/-- Calls with their instants, the latest first. -/
abbrev BreakerTrace := List (Nat × BreakerCall)

def BreakerCall.apply (breaker : CircuitBreaker) (now : Nat) : BreakerCall → CircuitBreaker
  | .allowRequest => (breaker.allowRequest now).2
  | .recordSuccess => breaker.recordSuccess
  | .recordFailure => breaker.recordFailure now

def breakerAfter (start : CircuitBreaker) : BreakerTrace → CircuitBreaker
  | [] => start
  | (now, call) :: past => call.apply (breakerAfter start past) now

/-- The failures since the last success. -/
def failuresSince : BreakerTrace → Nat
  | [] => 0
  | (_, .allowRequest) :: past => failuresSince past
  | (_, .recordSuccess) :: _ => 0
  | (_, .recordFailure) :: past => failuresSince past + 1

def lastFailure : BreakerTrace → Option Nat
  | [] => none
  | (now, .recordFailure) :: _ => some now
  | _ :: past => lastFailure past

/-- No instant of the trace is later than now, and none is later than one recorded after it. -/
def Chronological (now : Nat) (trace : BreakerTrace) : Prop := (now :: trace.map Prod.fst).Pairwise (· ≥ ·)

/-- The fields of the breaker say of the trace what they stand for. -/
structure Agrees (failureThreshold openFor : Nat) (trace : BreakerTrace) (breaker : CircuitBreaker) : Prop where
  threshold : breaker.failureThreshold = max failureThreshold 1
  coolDown : breaker.openFor = openFor
  counter : breaker.consecutiveFailures = failuresSince trace
  closed : breaker.state = .closed ↔ breaker.consecutiveFailures < breaker.failureThreshold
  openedAt : breaker.openedAt = if breaker.state = .closed then none else lastFailure trace

/-- A breaker that is not closed has seen a failure, and one that is half-open has cooled down. -/
structure Opened (openFor now : Nat) (trace : BreakerTrace) (breaker : CircuitBreaker) : Prop where
  failed : breaker.state ≠ .closed → ∃ failure, lastFailure trace = some failure ∧ failure ≤ now
  cooled : breaker.state = .halfOpen → ∀ failure, lastFailure trace = some failure → openFor ≤ now - failure

theorem Chronological.past {now time : Nat} {call : BreakerCall} {past : BreakerTrace}
    (ordered : Chronological now ((time, call) :: past)) : time ≤ now ∧ Chronological time past :=
  ⟨(List.pairwise_cons.mp ordered).1 time List.mem_cons_self, (List.pairwise_cons.mp ordered).2⟩

theorem Opened.later {openFor now later : Nat} {trace : BreakerTrace} {breaker : CircuitBreaker}
    (opened : Opened openFor now trace breaker) (after : now ≤ later) : Opened openFor later trace breaker where
  failed := fun notClosed => by
    obtain ⟨failure, last, before⟩ := opened.failed notClosed
    exact ⟨failure, last, Nat.le_trans before after⟩
  cooled := fun halfOpen failure last => Nat.le_trans (opened.cooled halfOpen failure last) (Nat.sub_le_sub_right after _)

section Traces

variable {failureThreshold openFor now : Nat} {trace : BreakerTrace} {breaker : CircuitBreaker}

theorem agrees_allowRequest (agrees : Agrees failureThreshold openFor trace breaker)
    (opened : Opened openFor now trace breaker) :
    Agrees failureThreshold openFor ((now, .allowRequest) :: trace) (breaker.allowRequest now).2 ∧
      Opened openFor now ((now, .allowRequest) :: trace) (breaker.allowRequest now).2 := by
  have same : Agrees failureThreshold openFor ((now, .allowRequest) :: trace) breaker ∧
      Opened openFor now ((now, .allowRequest) :: trace) breaker :=
    ⟨⟨agrees.threshold, agrees.coolDown, agrees.counter, agrees.closed, agrees.openedAt⟩, opened.failed, opened.cooled⟩
  unfold CircuitBreaker.allowRequest
  split
  · exact same
  · exact same
  · rename_i isOpen
    split
    · rename_i ready
      obtain ⟨failure, last, -⟩ := opened.failed (by rw [isOpen]; exact nofun)
      have since : breaker.openedAt = some failure := by
        rw [agrees.openedAt, isOpen, if_neg nofun, last]
      have notClosed : ¬ breaker.consecutiveFailures < breaker.failureThreshold := by
        rw [← agrees.closed, isOpen]
        exact nofun
      refine ⟨⟨agrees.threshold, agrees.coolDown, agrees.counter, ?_, ?_⟩, ?_, ?_⟩
      · exact ⟨nofun, fun below => absurd below notClosed⟩
      · rw [if_neg nofun, since]
        exact last.symm
      · exact fun _ => opened.failed (by rw [isOpen]; exact nofun)
      · intro _ other found
        rw [show lastFailure trace = some other from found] at last
        cases last
        unfold CircuitBreaker.readyForHalfOpen at ready
        rw [since, agrees.coolDown] at ready
        exact of_decide_eq_true ready
    · exact same

theorem agrees_recordSuccess (threshold : breaker.failureThreshold = max failureThreshold 1)
    (coolDown : breaker.openFor = openFor) :
    Agrees failureThreshold openFor ((now, .recordSuccess) :: trace) breaker.recordSuccess ∧
      Opened openFor now ((now, .recordSuccess) :: trace) breaker.recordSuccess := by
  refine ⟨⟨threshold, coolDown, rfl, ⟨fun _ => ?_, fun _ => rfl⟩, rfl⟩, fun notClosed => absurd rfl notClosed, nofun⟩
  rw [CircuitBreaker.recordSuccess, threshold]
  exact Nat.lt_of_lt_of_le Nat.one_pos (Nat.le_max_right _ _)

theorem agrees_recordFailure (agrees : Agrees failureThreshold openFor trace breaker)
    (few : failuresSince trace + 1 < 2 ^ 32) :
    Agrees failureThreshold openFor ((now, .recordFailure) :: trace) (breaker.recordFailure now) ∧
      Opened openFor now ((now, .recordFailure) :: trace) (breaker.recordFailure now) := by
  have counted : (breaker.consecutiveFailures + 1) % 2 ^ 32 = failuresSince trace + 1 := by
    rw [agrees.counter, Nat.mod_eq_of_lt few]
  unfold CircuitBreaker.recordFailure
  rw [counted]
  dsimp only
  split
  · rename_i reached
    refine ⟨⟨agrees.threshold, agrees.coolDown, rfl,
      ⟨nofun, fun below => absurd reached (Nat.not_le_of_lt below)⟩, rfl⟩,
      fun _ => ⟨now, rfl, Nat.le_refl _⟩, nofun⟩
  · rename_i below
    have fewer := Nat.lt_of_not_le below
    have isClosed : breaker.state = .closed := by
      rw [agrees.closed, agrees.counter]
      exact Nat.lt_of_succ_lt fewer
    refine ⟨⟨agrees.threshold, agrees.coolDown, rfl, ⟨fun _ => fewer, fun _ => isClosed⟩, ?_⟩,
      fun notClosed => absurd isClosed notClosed, fun halfOpen => ?_⟩
    · have never := agrees.openedAt
      rw [if_pos isClosed] at never
      rw [if_pos isClosed]
      exact never
    · rw [show breaker.state = .halfOpen from halfOpen] at isClosed
      cases isClosed

theorem threshold_breakerAfter (trace : BreakerTrace) :
    (breakerAfter (.new failureThreshold openFor) trace).failureThreshold = max failureThreshold 1 ∧
      (breakerAfter (.new failureThreshold openFor) trace).openFor = openFor := by
  induction trace with
  | nil => exact ⟨rfl, rfl⟩
  | cons event past ih =>
    obtain ⟨now, call⟩ := event
    cases call with
    | allowRequest =>
      rw [breakerAfter, BreakerCall.apply, CircuitBreaker.allowRequest]
      split
      · exact ih
      · exact ih
      · split <;> exact ih
    | recordSuccess => exact ih
    | recordFailure =>
      rw [breakerAfter, BreakerCall.apply, CircuitBreaker.recordFailure]
      dsimp only
      split <;> exact ih

/-- While the counter has room, its fields agree with the trace. -/
theorem agrees_breakerAfter (ordered : Chronological now trace) (few : failuresSince trace < 2 ^ 32) :
    Agrees failureThreshold openFor trace (breakerAfter (.new failureThreshold openFor) trace) ∧
      Opened openFor now trace (breakerAfter (.new failureThreshold openFor) trace) := by
  induction trace generalizing now with
  | nil =>
    refine ⟨⟨rfl, rfl, rfl, ⟨fun _ => ?_, fun _ => rfl⟩, rfl⟩, fun notClosed => absurd rfl notClosed, nofun⟩
    exact Nat.lt_of_lt_of_le Nat.one_pos (Nat.le_max_right _ _)
  | cons event past ih =>
    obtain ⟨time, call⟩ := event
    obtain ⟨upTo, before⟩ := ordered.past
    have moved : Agrees failureThreshold openFor ((time, call) :: past)
          (breakerAfter (.new failureThreshold openFor) ((time, call) :: past)) ∧
        Opened openFor time ((time, call) :: past)
          (breakerAfter (.new failureThreshold openFor) ((time, call) :: past)) := by
      cases call with
      | allowRequest =>
        obtain ⟨agrees, opened⟩ := ih before few
        exact agrees_allowRequest agrees opened
      | recordSuccess =>
        obtain ⟨threshold, coolDown⟩ := @threshold_breakerAfter failureThreshold openFor past
        exact agrees_recordSuccess threshold coolDown
      | recordFailure => exact agrees_recordFailure (ih before (Nat.lt_of_succ_lt few)).1 few
    exact ⟨moved.1, moved.2.later upTo⟩

/-- What the breaker should answer: no exactly when enough failures have come since the last success
and the last of them is not a cool-down ago; and its fields agree with the trace. -/
structure TraceLaw (failureThreshold openFor now : Nat) (trace : BreakerTrace) : Prop where
  rejects : ((breakerAfter (.new failureThreshold openFor) trace).allowRequest now).1 = false ↔
    max 1 failureThreshold ≤ failuresSince trace ∧
      ∃ failure, lastFailure trace = some failure ∧ now - failure < openFor
  agrees : Agrees failureThreshold openFor trace (breakerAfter (.new failureThreshold openFor) trace)

/-- The trace law holds while fewer than `2 ^ 32` failures have come since the last success. -/
theorem traceLaw_of_few (ordered : Chronological now trace) (few : failuresSince trace < 2 ^ 32) :
    TraceLaw failureThreshold openFor now trace := by
  obtain ⟨agrees, opened⟩ := @agrees_breakerAfter failureThreshold openFor now trace ordered few
  refine ⟨?_, agrees⟩
  generalize breakerAfter (.new failureThreshold openFor) trace = breaker at agrees opened ⊢
  have enough : breaker.state ≠ .closed ↔ max 1 failureThreshold ≤ failuresSince trace := by
    rw [ne_eq, agrees.closed, agrees.counter, agrees.threshold, Nat.not_lt, Nat.max_comm]
  rw [← enough]
  unfold CircuitBreaker.allowRequest
  cases isState : breaker.state with
  | closed => exact ⟨nofun, fun rejected => absurd rfl rejected.1⟩
  | halfOpen =>
    refine ⟨nofun, fun ⟨_, failure, last, recent⟩ => ?_⟩
    exact absurd recent (Nat.not_lt_of_le (opened.cooled isState failure last))
  | opened =>
    obtain ⟨failure, last, -⟩ := opened.failed (by rw [isState]; exact nofun)
    have since : breaker.openedAt = some failure := by rw [agrees.openedAt, isState, if_neg nofun, last]
    have ready : breaker.readyForHalfOpen now = decide (openFor ≤ now - failure) := by
      rw [CircuitBreaker.readyForHalfOpen, since, agrees.coolDown]
    dsimp only
    rw [ready]
    by_cases cooled : openFor ≤ now - failure
    · rw [decide_eq_true cooled, if_pos rfl]
      refine ⟨nofun, fun ⟨_, other, found, recent⟩ => ?_⟩
      rw [last] at found
      cases found
      exact absurd recent (Nat.not_lt_of_le cooled)
    · rw [decide_eq_false cooled, if_neg Bool.false_ne_true]
      exact ⟨fun _ => ⟨nofun, failure, last, Nat.lt_of_not_le cooled⟩, fun _ => rfl⟩

end Traces

/-- After one failure the breaker rejects calls until it has cooled down. -/
theorem traceLaw_oneFailure :
    TraceLaw 1 10 7 [(5, .recordFailure)] ∧ ((breakerAfter (.new 1 10) [(5, .recordFailure)]).allowRequest 7).1 = false :=
  ⟨traceLaw_of_few (by unfold Chronological; decide) (by decide), by decide⟩

/-! ### The counter overflows -/

theorem failuresSince_replicate (count time : Nat) :
    failuresSince (List.replicate count (time, .recordFailure)) = count := by
  induction count with
  | zero => rfl
  | succ count ih => rw [List.replicate_succ, failuresSince, ih]

/-- A trace with one failure more than the counter can count. -/
def overflowing (count : Nat) : BreakerTrace := (10, .recordFailure) :: List.replicate count (0, .recordFailure)

theorem chronological_overflowing (count : Nat) : Chronological 10 (overflowing count) := by
  unfold Chronological overflowing
  rw [List.map_cons, List.map_replicate]
  refine List.pairwise_cons.mpr ⟨fun time member => ?_, List.pairwise_cons.mpr ⟨fun time member => ?_, ?_⟩⟩
  · rcases List.mem_cons.mp member with rfl | later
    · exact Nat.le_refl _
    · rw [List.eq_of_mem_replicate later]
      exact Nat.zero_le _
  · rw [List.eq_of_mem_replicate member]
    exact Nat.zero_le _
  · exact List.pairwise_replicate.mpr (Or.inr (Nat.le_refl _))

/-- A failure that makes the counter start again does not extend the open period. -/
theorem allows_overflowing {count : Nat} (few : count < 2 ^ 32) (wraps : count + 1 = 2 ^ 32) :
    ((breakerAfter (.new 1 10) (overflowing count)).allowRequest 10).1 = true := by
  have past : Chronological 10 (List.replicate count (0, .recordFailure)) :=
    ((chronological_overflowing count).past).2
  obtain ⟨agrees, -⟩ := @agrees_breakerAfter 1 10 10 _ past (by rw [failuresSince_replicate]; exact few)
  have counter := agrees.counter
  rw [failuresSince_replicate] at counter
  rw [overflowing, breakerAfter, BreakerCall.apply, CircuitBreaker.recordFailure, counter, wraps, Nat.mod_self,
    agrees.threshold]
  have since : (breakerAfter (.new 1 10) (List.replicate count (0, .recordFailure))).openedAt = some 0 := by
    have notClosed : ¬ (breakerAfter (.new 1 10) (List.replicate count (0, .recordFailure))).state = .closed := by
      rw [agrees.closed, counter, agrees.threshold]
      omega
    rw [agrees.openedAt, if_neg notClosed]
    cases count with
    | zero => omega
    | succ count => rfl
  rw [if_neg (show ¬ max 1 1 ≤ 0 by decide), CircuitBreaker.allowRequest]
  dsimp only
  split
  · rfl
  · rfl
  · rw [CircuitBreaker.readyForHalfOpen]
    dsimp only
    rw [since, agrees.coolDown]
    rfl

/-- The trace law fails once `2 ^ 32` failures have come without a success. -/
theorem traceLaw_overflow :
    ¬ ∀ failureThreshold openFor now trace, Chronological now trace → TraceLaw failureThreshold openFor now trace := by
  intro law
  obtain ⟨count, wraps⟩ : ∃ count, count + 1 = 2 ^ 32 := ⟨2 ^ 32 - 1, by omega⟩
  have allowed := allows_overflowing (by omega) wraps
  have rejected := (law 1 10 10 (overflowing count) (chronological_overflowing count)).rejects.mpr
    ⟨by rw [overflowing, failuresSince, failuresSince_replicate]; omega, 10, rfl, by decide⟩
  rw [allowed] at rejected
  cases rejected

/-! ### Concurrent calls -/

/-- The breaker, the clock, and the admitted calls that have not reported yet. -/
structure Callers where
  breaker : CircuitBreaker
  now : Nat
  outstanding : List Nat
  arrived : Nat

/-- Time passes, a call of `retrieve` asks to be admitted, or an admitted one reports its outcome. -/
inductive CallerStep where
  | tick (elapsed : Nat)
  | arrive
  | report (id : Nat) (succeeded : Bool)
deriving DecidableEq

namespace Callers

def start (failureThreshold openFor : Nat) : Callers := ⟨.new failureThreshold openFor, 0, [], 0⟩

def step (callers : Callers) : CallerStep → Callers
  | .tick elapsed => { callers with now := callers.now + elapsed }
  | .arrive =>
    let (allowed, breaker) := callers.breaker.allowRequest callers.now
    { callers with
      breaker := breaker
      outstanding := if allowed then callers.arrived :: callers.outstanding else callers.outstanding
      arrived := callers.arrived + 1 }
  | .report id succeeded =>
    if id ∈ callers.outstanding then
      { callers with
        breaker := if succeeded then callers.breaker.recordSuccess else callers.breaker.recordFailure callers.now
        outstanding := callers.outstanding.erase id }
    else callers

def after (callers : Callers) (steps : List CallerStep) : Callers := steps.foldl step callers

/-- While the breaker is half-open, at most one admitted call has not reported. -/
def Exclusive (callers : Callers) : Prop :=
  callers.breaker.state = .halfOpen → callers.outstanding.length ≤ 1

/-- While a probe is out, a further call is rejected. -/
def RejectsOthers (callers : Callers) : Prop :=
  callers.breaker.state = .halfOpen → callers.outstanding ≠ [] → (callers.breaker.allowRequest callers.now).1 = false

/-- A call that comes now is admitted by a half-open breaker. -/
def AdmitsProbe (callers : Callers) : Prop :=
  callers.breaker.state = .halfOpen ∨
    callers.breaker.state = .opened ∧ callers.breaker.readyForHalfOpen callers.now = true

end Callers

/-- In every state of the run the half-open breaker has one call at most, and every call that comes
while this one is out is rejected. -/
structure ProbesExclusively (callers : Callers) (steps : List CallerStep) : Prop where
  exclusive : ∀ done rest, steps = done ++ rest → (callers.after done).Exclusive
  rejects : ∀ done rest, steps = done ++ .arrive :: rest → (callers.after done).RejectsOthers

section Probes

variable {callers : Callers}

theorem exclusive_report (exclusive : callers.Exclusive) (id : Nat) (succeeded : Bool) :
    (callers.step (.report id succeeded)).Exclusive := by
  unfold Callers.step
  dsimp only
  split
  · intro halfOpen
    have before : callers.breaker.state = .halfOpen := by
      cases succeeded with
      | true => cases halfOpen
      | false =>
        change (callers.breaker.recordFailure callers.now).state = .halfOpen at halfOpen
        unfold CircuitBreaker.recordFailure at halfOpen
        dsimp only at halfOpen
        split at halfOpen
        · cases halfOpen
        · exact halfOpen
    exact Nat.le_trans List.length_erase_le (exclusive before)
  · exact exclusive

/-- A breaker that admits a probe is half-open after it. -/
theorem arrive_probe (admits : callers.AdmitsProbe) :
    (callers.step .arrive).breaker.state = .halfOpen ∧
      (callers.step .arrive).outstanding = callers.arrived :: callers.outstanding := by
  unfold Callers.step CircuitBreaker.allowRequest
  dsimp only
  rcases admits with isState | ⟨isState, ready⟩
  · rw [isState]
    exact ⟨isState, rfl⟩
  · rw [isState]
    dsimp only
    rw [if_pos ready]
    exact ⟨rfl, rfl⟩

/-- Otherwise it stays as it is, closed or open. -/
theorem arrive_other (admitsNot : ¬ callers.AdmitsProbe) :
    (callers.step .arrive).breaker = callers.breaker ∧ callers.breaker.state ≠ .halfOpen := by
  refine ⟨?_, fun halfOpen => admitsNot (Or.inl halfOpen)⟩
  unfold Callers.step CircuitBreaker.allowRequest
  dsimp only
  cases isState : callers.breaker.state with
  | closed => rfl
  | halfOpen => exact absurd (Or.inl isState) admitsNot
  | opened =>
    dsimp only
    rw [if_neg fun ready => admitsNot (Or.inr ⟨isState, ready⟩)]

theorem exclusive_arrive (alone : callers.AdmitsProbe → callers.outstanding = []) :
    (callers.step .arrive).Exclusive := by
  intro halfOpen
  by_cases admits : callers.AdmitsProbe
  · rw [(arrive_probe admits).2, alone admits]
    exact Nat.le_refl 1
  · obtain ⟨same, other⟩ := arrive_other admits
    rw [same] at halfOpen
    exact absurd halfOpen other

/-- A call that a half-open breaker admits beside another one. -/
theorem not_exclusive_arrive (admits : callers.AdmitsProbe) (busy : callers.outstanding ≠ []) :
    ¬ (callers.step .arrive).Exclusive := by
  obtain ⟨halfOpen, outstanding⟩ := arrive_probe admits
  intro exclusive
  have atMost := exclusive halfOpen
  have more := List.length_pos_of_ne_nil busy
  rw [outstanding, List.length_cons] at atMost
  omega

/-- Probing is exclusive in exactly the runs in which no call that a half-open breaker admits comes
while an admitted one is out. -/
theorem probesExclusively_iff (failureThreshold openFor : Nat) (steps : List CallerStep) :
    ProbesExclusively (.start failureThreshold openFor) steps ↔
      ∀ done rest, steps = done ++ .arrive :: rest →
        ((Callers.start failureThreshold openFor).after done).AdmitsProbe →
          ((Callers.start failureThreshold openFor).after done).outstanding = [] := by
  have next (done : List CallerStep) (step : CallerStep) :
      (Callers.start failureThreshold openFor).after (done ++ [step]) =
        ((Callers.start failureThreshold openFor).after done).step step := by
    rw [Callers.after, List.foldl_append]
    rfl
  constructor
  · intro probes done rest whole admits
    by_contra busy
    have exclusive := probes.exclusive (done ++ [.arrive]) rest (by rw [whole]; simp)
    rw [next] at exclusive
    exact not_exclusive_arrive admits busy exclusive
  · intro alone
    refine ⟨fun done rest whole => ?_, fun done rest whole halfOpen busy => ?_⟩
    · induction done using List.reverseRecOn generalizing rest with
      | nil => exact nofun
      | append_singleton done step ih =>
        have here : steps = done ++ step :: rest := by rw [whole]; simp
        have exclusive := ih (step :: rest) here
        rw [next]
        cases step with
        | tick elapsed => exact exclusive
        | arrive => exact exclusive_arrive (alone done rest here)
        | report id succeeded => exact exclusive_report exclusive id succeeded
    · exact absurd (alone done rest whole (Or.inl halfOpen)) busy

end Probes

/-- The breaker opens, cools down, and admits two calls one after the other. -/
theorem probes_notExclusive :
    ¬ ProbesExclusively (.start 1 10) [.arrive, .report 0 false, .tick 10, .arrive, .arrive] := by
  intro probes
  have exclusive := probes.exclusive _ [] (List.append_nil _).symm
  exact absurd (exclusive (by decide)) (by decide)

end SkillLayer.Retrieval
