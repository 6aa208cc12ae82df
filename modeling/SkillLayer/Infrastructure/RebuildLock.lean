import Mathlib.Data.List.Basic
import Mathlib.Logic.Function.Basic
import SkillLayer.Runs
import SkillLayer.Text

/-! The rebuild lock: leases in one table that owners take, renew and give back, and what the owners
believe of them while their calls and the clock interleave. -/

namespace SkillLayer.Infrastructure

/-- A lease of `rebuild_locks`; instants count on one clock. -/
structure RebuildLease where
  ownerId : Nat
  acquiredAt : Nat
  expiresAt : Nat
  updatedAt : Nat
deriving DecidableEq

/-- The table, under the names of the locks. -/
abbrev RebuildLocks := Str → Option RebuildLease

inductive LockError where
  | invalidContract (message : Str)
deriving DecidableEq

/-- The longest lease that `chrono` takes, in microseconds. -/
def maxLease : Nat := 9223372036854775807 * 1000

/-- The end of a lease that is asked for now. -/
def leaseEnd (now leaseDuration : Nat) : Except LockError Nat :=
  if leaseDuration ≤ maxLease then .ok (now + leaseDuration)
  else .error (.invalidContract "source duration value is out of range for the target type")

/-! ### Statements -/

/-- The insert with its conflict clause, and whether it touched the row. -/
def acquireRow (now : Nat) (lockName : Str) (ownerId ends : Nat) (locks : RebuildLocks) : Bool × RebuildLocks :=
  let taken : RebuildLease := ⟨ownerId, now, ends, now⟩
  match locks lockName with
  | none => (true, Function.update locks lockName (some taken))
  | some lease =>
    if lease.expiresAt ≤ now ∨ lease.ownerId = ownerId then (true, Function.update locks lockName (some taken))
    else (false, locks)

def renewRow (now : Nat) (lockName : Str) (ownerId ends : Nat) (locks : RebuildLocks) : Bool × RebuildLocks :=
  match locks lockName with
  | none => (false, locks)
  | some lease =>
    if lease.ownerId = ownerId then
      (true, Function.update locks lockName (some { lease with expiresAt := ends, updatedAt := now }))
    else (false, locks)

def releaseRow (lockName : Str) (ownerId : Nat) (locks : RebuildLocks) : RebuildLocks :=
  match locks lockName with
  | none => locks
  | some lease => if lease.ownerId = ownerId then Function.update locks lockName none else locks

/-! ### Calls in flight -/

/-- A call that has computed the end of its lease and not reached the database. -/
inductive LockRequest where
  | acquire (lockName : Str) (ownerId ends : Nat)
  | renew (lockName : Str) (ownerId ends : Nat)
  | release (lockName : Str) (ownerId : Nat)
deriving DecidableEq

/-- What `try_acquire_lock` does before its statement. -/
def tryAcquireLock (now : Nat) (lockName : Str) (ownerId leaseDuration : Nat) : Except LockError LockRequest :=
  if (Str.trim lockName).isEmpty then .error (.invalidContract "lock_name must not be blank")
  else (leaseEnd now leaseDuration).map fun ends => .acquire lockName ownerId ends

def renewLock (now : Nat) (lockName : Str) (ownerId leaseDuration : Nat) : Except LockError LockRequest :=
  (leaseEnd now leaseDuration).map fun ends => .renew lockName ownerId ends

def releaseLock (lockName : Str) (ownerId : Nat) : LockRequest := .release lockName ownerId

/-- A lease that a call was told it has. -/
structure Grant where
  lockName : Str
  ownerId : Nat
  ends : Nat
deriving DecidableEq

/-- The clock, the table, the calls in flight, and the leases granted since the release of their
owners, the latest first. -/
structure LockWorld where
  now : Nat
  locks : RebuildLocks
  inFlight : List LockRequest
  granted : List Grant

namespace LockWorld

/-- The world when the database has carried out a request. -/
def execute (world : LockWorld) : LockRequest → LockWorld
  | .acquire lockName ownerId ends =>
    let (acquired, locks) := acquireRow world.now lockName ownerId ends world.locks
    { world with
      locks := locks
      granted := if acquired then ⟨lockName, ownerId, ends⟩ :: world.granted else world.granted }
  | .renew lockName ownerId ends =>
    let (renewed, locks) := renewRow world.now lockName ownerId ends world.locks
    { world with
      locks := locks
      granted := if renewed then ⟨lockName, ownerId, ends⟩ :: world.granted else world.granted }
  | .release lockName ownerId =>
    { world with
      locks := releaseRow lockName ownerId world.locks
      granted := world.granted.filter fun grant => ¬ (grant.lockName = lockName ∧ grant.ownerId = ownerId) }

end LockWorld

/-- Time passes, an owner makes a call, or the database carries out a call that is in flight. -/
inductive LockStep : LockWorld → LockWorld → Prop where
  | tick (world : LockWorld) (elapsed : Nat) : LockStep world { world with now := world.now + elapsed }
  | acquire (world : LockWorld) (lockName : Str) (ownerId leaseDuration : Nat) (request : LockRequest)
      (made : tryAcquireLock world.now lockName ownerId leaseDuration = .ok request) :
      LockStep world { world with inFlight := request :: world.inFlight }
  | renew (world : LockWorld) (lockName : Str) (ownerId leaseDuration : Nat) (request : LockRequest)
      (made : renewLock world.now lockName ownerId leaseDuration = .ok request) :
      LockStep world { world with inFlight := request :: world.inFlight }
  | release (world : LockWorld) (lockName : Str) (ownerId : Nat) :
      LockStep world { world with inFlight := releaseLock lockName ownerId :: world.inFlight }
  | execute (world : LockWorld) (request : LockRequest) (member : request ∈ world.inFlight) :
      LockStep world (LockWorld.execute { world with inFlight := world.inFlight.erase request } request)

/-- The rebuild lock, from any table that earlier processes have left. -/
def rebuildLock : Transitions LockWorld where
  initial world := world.inFlight = [] ∧ world.granted = []
  step := LockStep

/-! ### Beliefs -/

namespace LockWorld

/-- What the latest successful call of an owner since its release has told it of a lock. -/
def latestGrant (world : LockWorld) (lockName : Str) (ownerId : Nat) : Option Grant :=
  world.granted.find? fun grant => grant.lockName = lockName ∧ grant.ownerId = ownerId

/-- The owner believes that it holds the lock: the lease of its latest successful call lasts. -/
def Believes (world : LockWorld) (lockName : Str) (ownerId : Nat) : Prop :=
  ∃ grant, world.latestGrant lockName ownerId = some grant ∧ world.now < grant.ends

/-- The lease of some successful call since the owner's release lasts. -/
def BelievesAny (world : LockWorld) (lockName : Str) (ownerId : Nat) : Prop :=
  ∃ grant ∈ world.granted, grant.lockName = lockName ∧ grant.ownerId = ownerId ∧ world.now < grant.ends

/-- A lease that its owner believes in is the one in the table. -/
def Backed (world : LockWorld) : Prop :=
  ∀ lockName ownerId grant, world.latestGrant lockName ownerId = some grant → world.now < grant.ends →
    ∃ lease, world.locks lockName = some lease ∧ lease.ownerId = ownerId ∧ lease.expiresAt = grant.ends

end LockWorld

section Exclusion

variable {world : LockWorld} {lockName : Str} {ownerId ends : Nat}

theorem acquireRow_cases (now : Nat) (lockName : Str) (ownerId ends : Nat) (locks : RebuildLocks) :
    acquireRow now lockName ownerId ends locks = (false, locks) ∨
      acquireRow now lockName ownerId ends locks =
        (true, Function.update locks lockName (some ⟨ownerId, now, ends, now⟩)) ∧
        ∀ lease, locks lockName = some lease → lease.expiresAt ≤ now ∨ lease.ownerId = ownerId := by
  unfold acquireRow
  cases found : locks lockName with
  | none => exact Or.inr ⟨rfl, nofun⟩
  | some lease =>
    dsimp only
    split
    · rename_i free
      refine Or.inr ⟨rfl, fun other same => ?_⟩
      cases same
      exact free
    · exact Or.inl rfl

theorem renewRow_cases (now : Nat) (lockName : Str) (ownerId ends : Nat) (locks : RebuildLocks) :
    renewRow now lockName ownerId ends locks = (false, locks) ∨
      ∃ lease, locks lockName = some lease ∧ lease.ownerId = ownerId ∧
        renewRow now lockName ownerId ends locks =
          (true, Function.update locks lockName (some { lease with expiresAt := ends, updatedAt := now })) := by
  unfold renewRow
  cases found : locks lockName with
  | none => exact Or.inl rfl
  | some lease =>
    dsimp only
    split
    · exact Or.inr ⟨lease, rfl, ‹_›, rfl⟩
    · exact Or.inl rfl

theorem releaseRow_cases (lockName : Str) (ownerId : Nat) (locks : RebuildLocks) :
    releaseRow lockName ownerId locks = locks ∨
      releaseRow lockName ownerId locks = Function.update locks lockName none ∧
        ∃ lease, locks lockName = some lease ∧ lease.ownerId = ownerId := by
  unfold releaseRow
  cases found : locks lockName with
  | none => exact Or.inl rfl
  | some lease =>
    dsimp only
    split
    · exact Or.inr ⟨rfl, lease, rfl, ‹_›⟩
    · exact Or.inl rfl

/-- A granted lease that is written to the table is backed, and so are the others if no other owner
believes in its lock. -/
theorem backed_grant {lease : RebuildLease} (backed : world.Backed) (owner : lease.ownerId = ownerId)
    (expires : lease.expiresAt = ends)
    (free : ∀ other, world.locks lockName = some other → other.expiresAt ≤ world.now ∨ other.ownerId = ownerId) :
    LockWorld.Backed { world with
      locks := Function.update world.locks lockName (some lease)
      granted := ⟨lockName, ownerId, ends⟩ :: world.granted } := by
  intro name someone grant latest lasts
  by_cases here : name = lockName
  · subst here
    by_cases own : someone = ownerId
    · subst own
      have same : some (⟨name, someone, ends⟩ : Grant) = some grant := by
        simpa [LockWorld.latestGrant] using latest
      cases same
      exact ⟨lease, Function.update_self .., owner, expires⟩
    · have before : world.latestGrant name someone = some grant := by
        simpa [LockWorld.latestGrant, Ne.symm own] using latest
      obtain ⟨other, found, theirs, lasting⟩ := backed name someone grant before lasts
      rcases free other found with gone | mine
      · rw [lasting] at gone
        exact absurd lasts (Nat.not_lt_of_le gone)
      · exact absurd (theirs.symm.trans mine) own
  · have before : world.latestGrant name someone = some grant := by
      simpa [LockWorld.latestGrant, Ne.symm here] using latest
    obtain ⟨other, found, theirs⟩ := backed name someone grant before lasts
    exact ⟨other, (Function.update_of_ne here _ _).trans found, theirs⟩

/-- A release forgets the grants of its owner for its lock, and no others. -/
theorem latestGrant_release {name : Str} {someone : Nat} {grant : Grant}
    (latest : (world.execute (.release lockName ownerId)).latestGrant name someone = some grant) :
    ¬ (name = lockName ∧ someone = ownerId) ∧ world.latestGrant name someone = some grant := by
  unfold LockWorld.latestGrant LockWorld.execute at latest
  rw [List.find?_filter] at latest
  have own : grant.lockName = name ∧ grant.ownerId = someone ∧
      ¬ (grant.lockName = lockName ∧ grant.ownerId = ownerId) := by
    have holds := List.find?_some latest
    simp only [decide_eq_true_eq] at holds
    exact ⟨holds.2.1, holds.2.2, holds.1⟩
  obtain ⟨rfl, rfl, other⟩ := own
  refine ⟨other, ?_⟩
  rw [LockWorld.latestGrant, ← latest]
  refine congrArg (fun test => List.find? test world.granted) (funext fun candidate => ?_)
  by_cases same : candidate.lockName = grant.lockName ∧ candidate.ownerId = grant.ownerId
  · simp [same.1, same.2, other]
  · simp [same]

theorem backed_execute (backed : world.Backed) (request : LockRequest) : (world.execute request).Backed := by
  cases request with
  | acquire lockName ownerId ends =>
    rcases acquireRow_cases world.now lockName ownerId ends world.locks with refused | ⟨taken, free⟩
    · simp only [LockWorld.execute, refused]
      exact backed
    · simp only [LockWorld.execute, taken]
      exact backed_grant backed rfl rfl free
  | renew lockName ownerId ends =>
    rcases renewRow_cases world.now lockName ownerId ends world.locks with refused | ⟨lease, found, own, renewed⟩
    · simp only [LockWorld.execute, refused]
      exact backed
    · simp only [LockWorld.execute, renewed]
      refine backed_grant backed own rfl fun other same => ?_
      rw [found] at same
      cases same
      exact Or.inr own
  | release lockName ownerId =>
    intro name someone grant latest lasts
    obtain ⟨other, before⟩ := latestGrant_release latest
    obtain ⟨lease, found, theirs, ends⟩ := backed name someone grant before lasts
    refine ⟨lease, ?_, theirs, ends⟩
    rcases releaseRow_cases lockName ownerId world.locks with same | ⟨released, gone, here, own⟩
    · exact (congrFun same name).trans found
    · have apart : name ≠ lockName := by
        intro same
        subst same
        rw [found] at here
        cases here
        exact other ⟨rfl, theirs.symm.trans own⟩
      exact (congrFun released name).trans ((Function.update_of_ne apart _ _).trans found)

theorem backed_step {after : LockWorld} (backed : world.Backed) (step : LockStep world after) : after.Backed := by
  cases step with
  | tick elapsed =>
    intro name someone grant latest lasts
    exact backed name someone grant latest (Nat.lt_of_le_of_lt (Nat.le_add_right _ _) lasts)
  | acquire => exact backed
  | renew => exact backed
  | release => exact backed
  | execute request member =>
    have still : LockWorld.Backed { world with inFlight := world.inFlight.erase request } := backed
    exact backed_execute still request

theorem backed_of_reachable (reached : rebuildLock.Reachable world) : world.Backed := by
  refine reached.invariant (fun state initial name someone grant latest _ => ?_) fun state after => backed_step
  rw [LockWorld.latestGrant, initial.2] at latest
  cases latest

/-- At most one owner believes in a lock, and a late renewal or release does nothing to the lease of
another owner. -/
theorem lease_exclusive (reached : rebuildLock.Reachable world) :
    (∀ lockName first second, world.Believes lockName first → world.Believes lockName second → first = second) ∧
      ∀ lockName lease ownerId ends, world.locks lockName = some lease → lease.ownerId ≠ ownerId →
        (world.execute (.renew lockName ownerId ends)) = world ∧
          (world.execute (.release lockName ownerId)).locks = world.locks := by
  refine ⟨?_, ?_⟩
  · rintro lockName first second ⟨grant, latest, lasts⟩ ⟨other, otherLatest, otherLasts⟩
    obtain ⟨lease, found, own, -⟩ := backed_of_reachable reached lockName first grant latest lasts
    obtain ⟨same, alsoFound, theirs, -⟩ := backed_of_reachable reached lockName second other otherLatest otherLasts
    rw [found] at alsoFound
    cases alsoFound
    exact own.symm.trans theirs
  · intro lockName lease ownerId ends found apart
    constructor
    · rcases renewRow_cases world.now lockName ownerId ends world.locks with refused | ⟨other, same, own, -⟩
      · simp only [LockWorld.execute, refused]
        rfl
      · rw [found] at same
        cases same
        exact absurd own apart
    · rcases releaseRow_cases lockName ownerId world.locks with same | ⟨-, other, same, own⟩
      · exact same
      · rw [found] at same
        cases same
        exact absurd own apart

end Exclusion

/-! ### A lease that is renewed for less -/

def buildLock : Str := "graph-rebuild"

/-- Owner 1 takes the lock until 100 and renews it at once, until 50. -/
def renewedForLess : LockWorld :=
  ((⟨0, fun _ => none, [], []⟩ : LockWorld).execute (.acquire buildLock 1 100)).execute (.renew buildLock 1 50)

/-- At 60 owner 2 takes the lock. -/
def takenOver : LockWorld := { renewedForLess with now := 60 }.execute (.acquire buildLock 2 160)

theorem reachable_execute {world : LockWorld} (reached : rebuildLock.Reachable world) {request : LockRequest}
    (made : LockStep world { world with inFlight := request :: world.inFlight }) :
    rebuildLock.Reachable (world.execute request) := by
  have executed := (reached.next made).next (LockStep.execute _ request List.mem_cons_self)
  rw [List.erase_cons_head] at executed
  exact executed

theorem reachable_takenOver : rebuildLock.Reachable takenOver := by
  have start : rebuildLock.Reachable ⟨0, fun _ => none, [], []⟩ := .start ⟨rfl, rfl⟩
  have acquired := reachable_execute start (.acquire _ buildLock 1 100 _ rfl)
  have renewed := reachable_execute acquired (.renew _ buildLock 1 50 _ rfl)
  have later := renewed.next (.tick _ 60)
  exact reachable_execute later (.acquire _ buildLock 2 100 _ rfl)

/-- Owner 2 alone believes that it holds the lock, and a renewal by owner 1 does nothing. -/
theorem lease_exclusive_takenOver :
    takenOver.Believes buildLock 2 ∧ (∀ ownerId, takenOver.Believes buildLock ownerId → ownerId = 2) ∧
      takenOver.execute (.renew buildLock 1 200) = takenOver := by
  have holds : takenOver.Believes buildLock 2 := ⟨⟨buildLock, 2, 160⟩, rfl, by decide⟩
  have exclusive := lease_exclusive reachable_takenOver
  exact ⟨holds, fun ownerId believes => exclusive.1 buildLock ownerId 2 believes holds,
    (exclusive.2 buildLock ⟨2, 60, 160, 60⟩ 1 200 rfl (by decide)).1⟩

/-- The lease of the first call lasts until 100, so that two owners believe in the lock at 60. -/
theorem lease_shared :
    ¬ ∀ world, rebuildLock.Reachable world → ∀ lockName first second,
      world.BelievesAny lockName first → world.BelievesAny lockName second → first = second := by
  intro exclusive
  have both := exclusive takenOver reachable_takenOver buildLock 1 2
    ⟨⟨buildLock, 1, 100⟩, by decide, rfl, rfl, by decide⟩ ⟨⟨buildLock, 2, 160⟩, by decide, rfl, rfl, by decide⟩
  cases both

end SkillLayer.Infrastructure
