import SkillLayer.Infrastructure.OutboxSafety

/-! Events that a relay claimed and can no longer let go of. -/

namespace SkillLayer.Infrastructure

variable {F Worker : Type} [DecidableEq Worker] {format : VectorFormat F} {blake3 : Blake3}

/-- A mark statement that failed, or a refused write whose text a failure mark rejects. -/
def Disturbs : (request : OutboxCall F) → OutboxAnswer F request → Prop
  | .setPublished _ _, answer => ∃ error, answer = .error error
  | .setFailed _ _ _, answer => ∃ error, answer = .error error
  | .upsertVector _ _ _ _, answer => ∃ message, answer = .error message ∧ (Str.trim message).isEmpty = true
  | _, _ => False

/-- The delays that a failure mark accepts. -/
def SchedulableDelay (delay : Nat) : Prop := delay < 2 ^ 63

variable (format blake3) in
/-- A step that abandons no claimed event: no mark is refused, no error text is blank, and
a worker that dies holds nothing. -/
def Undisturbed (cluster : OutboxCluster F Worker) : OutboxStep F Worker → Prop
  | .call _ request answer => ¬ Disturbs request answer
  | .crash worker => ((outboxSite format blake3 SchedulableDelay).ledgers cluster worker).held = []
  | _ => True

variable (format blake3) in
def undisturbedRuns (Worker : Type) [DecidableEq Worker] : Transitions (OutboxCluster F Worker) :=
  (outboxSite format blake3 SchedulableDelay).system OutboxWorld.New (Undisturbed format blake3)

/-- Where no program runs, an event that is not settled can be claimed. -/
def NoneStranded (cluster : OutboxCluster F Worker) : Prop :=
  (∀ worker, cluster.threads worker = none) → ∀ row ∈ cluster.world.outbox.rows,
    row.status ≠ .published → row.status ≠ .failed → row.status = .pending

variable (format blake3) in
/-- The invariant without disturbance: what is in processing is held. -/
structure OutboxAttended (world : OutboxWorld F) (ledgers : Worker → RelayLedger) : Prop where
  sound : OutboxSound format blake3 world ledgers
  attended : PoolAttended world.outbox.progress fun worker => (ledgers worker).heldIds
  unbroken : ∀ worker, (ledgers worker).broken = false

section Effect

variable {world after : OutboxWorld F} {ledgers : Worker → RelayLedger} {worker : Worker}
  {request : OutboxCall F} {left : RelayLedger}

theorem attended_effect (attended : PoolAttended world.outbox.progress fun worker => (ledgers worker).heldIds)
    (allowed : (ledgers worker).Allows format blake3 request)
    (effect : OutboxEffect world (ledgers worker) request after left) :
    PoolAttended after.outbox.progress fun other => (Function.update ledgers worker left other).heldIds := by
  rw [heldIds_update]
  have still (same : left.heldIds = (ledgers worker).heldIds) :
      Function.update (fun other => (ledgers other).heldIds) worker left.heldIds =
        fun other => (ledgers other).heldIds := by
    rw [same, Function.update_eq_self]
  cases effect with
  | untouched => rwa [still rfl]
  | added asked fresh freshKey =>
    rw [still rfl, OutboxWorld.withOutbox, Outbox.progress_insertRow]
    exact attended.add
  | claimed correlationId limit order now =>
    rw [OutboxWorld.withOutbox, Outbox.progress_claim]
    have free : (ledgers worker).held = [] := allowed
    exact attended.claim (by rw [RelayLedger.heldIds, free, List.map_nil])
  | published streamId here processing =>
    obtain ⟨record, rest, -, -, held, settled⟩ := head_of_allowed allowed.1
    rw [OutboxWorld.withOutbox, Outbox.progress_setPublished streamId here processing, settled]
    exact attended.settle held (by simp [Progress.finish])
  | failed errorMessage availableAt here processing =>
    obtain ⟨record, rest, -, -, held, settled⟩ := head_of_allowed allowed
    rw [Outbox.progress_setFailed errorMessage availableAt here processing, settled]
    refine attended.settle held ?_
    rw [Progress.fail]
    dsimp only
    split <;> simp
  | wrote => rwa [still rfl]
  | deleted => rwa [still rfl]

omit [DecidableEq Worker] in
/-- A mark of a held event that is not refused changes its row. -/
theorem not_faulty (sound : OutboxSound format blake3 world ledgers)
    (allowed : (ledgers worker).Allows format blake3 request) {weather : Weather}
    {answer : OutboxAnswer F request} (served : serveOutbox weather request world = (answer, after))
    (calm_ : ¬ Disturbs request answer) : ¬ Faulty request answer := by
  have one {eventId : Uuid} (head : (ledgers worker).heldIds.head? = some eventId) :
      world.outbox.affected eventId = 1 := by
    obtain ⟨_, _, -, -, held, -⟩ := head_of_allowed head
    exact Outbox.affected_eq_one_iff.mpr
      (sound.pool.held worker eventId (held ▸ List.mem_cons_self))
  obtain ⟨now, refused, storeRefused, order, newId, complete⟩ := weather
  cases request with
  | setPublished eventId streamId =>
    cases refused with
    | some message =>
      cases served
      exact absurd ⟨_, rfl⟩ calm_
    | none =>
      cases served
      exact not_not.mpr (congrArg Except.ok (one allowed.1))
  | setFailed eventId errorMessage availableAt =>
    cases refused with
    | some message =>
      cases served
      exact absurd ⟨_, rfl⟩ calm_
    | none =>
      cases served
      exact not_not.mpr (congrArg Except.ok (one allowed))
  | upsertVector => exact calm_
  | _ => exact id

theorem OutboxAttended.call (holds : OutboxAttended format blake3 world ledgers)
    (allowed : (ledgers worker).Allows format blake3 request) {weather : Weather}
    {answer : OutboxAnswer F request} (served : serveOutbox weather request world = (answer, after))
    (calm_ : ¬ Disturbs request answer) :
    OutboxAttended format blake3 after
      (Function.update ledgers worker ((ledgers worker).after request answer)) where
  sound := holds.sound.effect allowed (OutboxEffect.of_served served _)
  attended := attended_effect holds.attended allowed (OutboxEffect.of_served served _)
  unbroken := by
    intro other
    by_cases same : other = worker
    · subst same
      rw [Function.update_self, RelayLedger.broken_after _ _ _ (not_faulty holds.sound allowed served calm_)]
      exact holds.unbroken other
    · rw [Function.update_of_ne same]
      exact holds.unbroken other

/-- A worker that holds nothing leaves nothing behind. -/
theorem OutboxAttended.release (holds : OutboxAttended format blake3 world ledgers)
    (free : (ledgers worker).held = []) :
    OutboxAttended format blake3 world (Function.update ledgers worker .idle) where
  sound := holds.sound.release worker
  attended := by
    have same : RelayLedger.idle.heldIds = (ledgers worker).heldIds := by
      rw [RelayLedger.heldIds, RelayLedger.heldIds, free]
      rfl
    rw [heldIds_update, same, Function.update_eq_self]
    exact holds.attended
  unbroken := by
    intro other
    by_cases same : other = worker
    · subst same
      rw [Function.update_self]
      rfl
    · rw [Function.update_of_ne same]
      exact holds.unbroken other

omit [DecidableEq Worker] in
/-- A program that ends without disturbance holds nothing. -/
theorem held_of_ends (holds : OutboxAttended format blake3 world ledgers)
    {outcome : Except OutboxRelayError (Option Unit)}
    (ended : RelayLedger.Ends SchedulableDelay (ledgers worker) outcome) : (ledgers worker).held = [] := by
  match outcome, ended with
  | .ok none, ended => exact ended.1
  | .ok (some _), ended => exact ended
  | .error _, .inl free => exact free
  | .error _, .inr (.inl broken) =>
    rw [holds.unbroken worker] at broken
    cases broken
  | .error _, .inr (.inr ⟨delay, short, long⟩) => exact absurd short (Nat.not_lt.mpr long)

end Effect

variable {cluster after : OutboxCluster F Worker} {event : OutboxStep F Worker}

theorem attended_step
    (governed : Site.Governed (outboxSite format blake3 SchedulableDelay)
      (RelayLedger.Ends SchedulableDelay) (OutboxAttended format blake3) cluster)
    (undisturbed : Undisturbed format blake3 cluster event)
    (step : (outboxSite format blake3 SchedulableDelay).Step cluster event after) :
    Site.Governed (outboxSite format blake3 SchedulableDelay) (RelayLedger.Ends SchedulableDelay)
      (OutboxAttended format blake3) after := by
  refine governed.step (fun body task => OutboxTask.obeys task) ?_ ?_ ?_ step
  · rintro worker request answer world rfl allowed ⟨weather, served⟩
    exact governed.holds.call allowed served undisturbed
  · exact fun worker outcome _ ended => governed.holds.release (held_of_ends governed.holds ended)
  · rintro worker rfl
    exact governed.holds.release undisturbed

/-- In every run in which no mark is refused, no store error is blank and no worker dies
with claimed events, nothing is stranded. -/
theorem noneStranded_of_undisturbed (reached : (undisturbedRuns format blake3 Worker).Reachable cluster) :
    NoneStranded cluster := by
  have governed : Site.Governed (outboxSite format blake3 SchedulableDelay)
      (RelayLedger.Ends SchedulableDelay) (OutboxAttended format blake3) cluster := by
    refine Site.governed_of_reachable (fun _ new => ⟨.start new, fun _ item here _ => ?_, fun _ => rfl⟩)
      (fun _ _ _ governed undisturbed step => attended_step governed undisturbed step) reached
    rw [new.outbox] at here
    cases here
  intro idle row member unpublished unfailed
  cases status : row.status with
  | pending => rfl
  | published => exact absurd status unpublished
  | failed => exact absurd status unfailed
  | processing =>
    obtain ⟨worker, held⟩ := governed.holds.attended _ _ (Outbox.progress_of_mem member)
      (by rw [OutboxRow.progress, status]; rfl)
    have free := Site.ledgers_of_none (outboxSite format blake3 SchedulableDelay) (idle worker)
    dsimp only at held
    rw [free] at held
    cases held

theorem calm_undisturbed (request : OutboxCall F) (world : OutboxWorld F) :
    ¬ Disturbs request (serveOutbox calm request world).1 := by
  cases request with
  | setPublished eventId streamId => exact fun ⟨_, refused⟩ => by cases refused
  | setFailed eventId errorMessage availableAt => exact fun ⟨_, refused⟩ => by cases refused
  | upsertVector eventId pointId vector payload => exact fun ⟨_, refused, _⟩ => by cases refused
  | _ => exact id

theorem undisturbed_relayedWorld :
    (undisturbedRuns rationalFormat samplePointDigest Nat).Reachable (Site.quiet relayedWorld) := by
  have short : SchedulableDelay sampleRelay.retryAfterSeconds := Nat.two_pow_pos 63
  have appended : (undisturbedRuns rationalFormat samplePointDigest Nat).Reachable
      (Site.quiet appendedWorld) :=
    Site.reachable_alone (.start ⟨freshWorld, freshWorld_new, rfl⟩) 0
      (OutboxTask.appendOutboxEvent sampleEvent) (fun _ => serveOutbox calm)
      (fun _ _ _ => ⟨calm, rfl⟩) once_not_again (fun _ => trivial)
      (fun cluster _ request => calm_undisturbed request cluster.world) (fun _ => trivial)
  exact Site.reachable_alone appended 0 (OutboxTask.relayOnce short) (fun _ => serveOutbox calm)
    (fun _ _ _ => ⟨calm, rfl⟩) once_not_again (fun _ => trivial)
    (fun cluster _ request => calm_undisturbed request cluster.world) (fun _ => trivial)

theorem relayedWorld_noneStranded :
    NoneStranded (Site.quiet relayedWorld : OutboxCluster Rat Nat) ∧ relayedWorld.outbox.rows.length = 1 :=
  ⟨noneStranded_of_undisturbed undisturbed_relayedWorld, by decide +kernel⟩

/-! A relay whose mark is refused. -/

/-- The connection is lost when an event is marked as published. -/
def lostMark (request : OutboxCall F) : Weather :=
  match request with
  | .setPublished _ _ => { calm with refused := some "error communicating with database: connection reset" }
  | _ => calm

def strandedWorld : OutboxWorld Rat :=
  ((once (sampleRelay.relayOnce rationalFormat samplePointDigest)).run
    (fun _ request => serveOutbox (lostMark request) request) 0 appendedWorld).world

theorem lostMark_strands : ¬ ∀ cluster : OutboxCluster Rat Nat,
    (outboxRuns rationalFormat samplePointDigest Nat fun _ => True).Reachable cluster →
      NoneStranded cluster := by
  intro always
  have reached : (outboxRuns rationalFormat samplePointDigest Nat fun _ => True).Reachable
      (Site.quiet strandedWorld) :=
    Site.reachable_alone reachable_appendedWorld 0 (OutboxTask.relayOnce trivial)
      (fun _ request => serveOutbox (lostMark request) request)
      (fun _ request _ => ⟨lostMark request, rfl⟩) once_not_again (fun _ => trivial)
      (fun _ _ _ => trivial) (fun _ => trivial)
  have stuck : strandedWorld.outbox.rows.map OutboxRow.status = [.processing] := by decide +kernel
  obtain ⟨row, member, status⟩ := List.mem_map.mp (stuck ▸ List.mem_singleton_self OutboxStatus.processing)
  have pending := always _ reached (fun _ => rfl) row member (by simp [status]) (by simp [status])
  rw [status] at pending
  cases pending

end SkillLayer.Infrastructure
