import Mathlib.Logic.Function.Basic
import Mathlib.Logic.Relation
import Mathlib.Data.List.Nodup

/-! Work items that workers claim, finish or give back, with a bound on the failures of each. -/

namespace SkillLayer

inductive Standing where
  | pending
  | processing
  | done
  | failed
deriving DecidableEq

/-- The moves an item can make: it is claimed, and then finished, given back or given up. -/
inductive Standing.Moves : Standing → Standing → Prop where
  | claim : Moves .pending .processing
  | finish : Moves .processing .done
  | giveBack : Moves .processing .pending
  | giveUp : Moves .processing .failed

structure Progress where
  standing : Standing
  attempts : Nat
deriving DecidableEq

namespace Progress

def fresh : Progress := ⟨.pending, 0⟩

def claim (progress : Progress) : Progress := { progress with standing := .processing }

def finish (progress : Progress) : Progress := { progress with standing := .done }

/-- One failure more; at the limit the item is given up. -/
def fail (limit : Nat) (progress : Progress) : Progress :=
  ⟨if limit ≤ progress.attempts + 1 then .failed else .pending, progress.attempts + 1⟩

/-- The failures stay within the limit, and an item is given up exactly there. -/
structure Within (limit : Nat) (progress : Progress) : Prop where
  bounded : progress.attempts ≤ limit
  failed_iff : progress.standing = .failed ↔ progress.attempts = limit

theorem within_fresh {limit : Nat} (positive : 0 < limit) : fresh.Within limit :=
  ⟨Nat.zero_le _, by simp [fresh, Nat.ne_of_lt positive]⟩

theorem Within.below {limit : Nat} {progress : Progress} (within : progress.Within limit)
    (open_ : progress.standing ≠ .failed) : progress.attempts < limit :=
  Nat.lt_of_le_of_ne within.bounded fun same => open_ (within.failed_iff.mpr same)

theorem Within.claim {limit : Nat} {progress : Progress} (within : progress.Within limit)
    (pending : progress.standing = .pending) : progress.claim.Within limit := by
  have below := within.below (by simp [pending])
  exact ⟨within.bounded, by simp [Progress.claim, Nat.ne_of_lt below]⟩

theorem Within.finish {limit : Nat} {progress : Progress} (within : progress.Within limit)
    (processing : progress.standing = .processing) : progress.finish.Within limit := by
  have below := within.below (by simp [processing])
  exact ⟨within.bounded, by simp [Progress.finish, Nat.ne_of_lt below]⟩

theorem Within.fail {limit : Nat} {progress : Progress} (within : progress.Within limit)
    (processing : progress.standing = .processing) : (progress.fail limit).Within limit := by
  have below := within.below (by simp [processing])
  refine ⟨below, ?_⟩
  by_cases last : limit ≤ progress.attempts + 1
  · simp [Progress.fail, last]
    omega
  · simp [Progress.fail, last]
    omega

theorem moves_finish {progress : Progress} (processing : progress.standing = .processing) :
    progress.standing.Moves progress.finish.standing := by
  rw [processing]
  exact .finish

theorem moves_fail (limit : Nat) {progress : Progress} (processing : progress.standing = .processing) :
    progress.standing.Moves (progress.fail limit).standing := by
  rw [processing, Progress.fail]
  dsimp only
  split
  · exact .giveUp
  · exact .giveBack

/-- How often the item can still be claimed. -/
def claimsLeft (limit : Nat) (progress : Progress) : Nat :=
  match progress.standing with
  | .pending => limit - progress.attempts - 1 + 1
  | .processing => limit - progress.attempts - 1
  | .done => 0
  | .failed => 0

theorem claimsLeft_claim (limit : Nat) {progress : Progress} (pending : progress.standing = .pending) :
    (progress.claim).claimsLeft limit + 1 = progress.claimsLeft limit := by
  simp [claimsLeft, Progress.claim, pending]

theorem claimsLeft_finish (limit : Nat) (progress : Progress) :
    progress.finish.claimsLeft limit ≤ progress.claimsLeft limit :=
  Nat.zero_le _

theorem claimsLeft_fail {limit : Nat} {progress : Progress}
    (processing : progress.standing = .processing) :
    (progress.fail limit).claimsLeft limit ≤ progress.claimsLeft limit := by
  by_cases last : limit ≤ progress.attempts + 1
  · simp [claimsLeft, Progress.fail, last]
  · simp [claimsLeft, Progress.fail, last, processing]
    omega

/-! ### Totals over rows -/

section Total

variable {Row : Type} (weight : Row → Nat)

def total (rows : List Row) : Nat := rows.foldr (fun row rest => weight row + rest) 0

variable {weight}

theorem total_map_le {change : Row → Row} {rows : List Row}
    (le : ∀ row ∈ rows, weight (change row) ≤ weight row) :
    total weight (rows.map change) ≤ total weight rows := by
  induction rows with
  | nil => exact Nat.le_refl _
  | cons row rest ih =>
    have first := le row List.mem_cons_self
    have others := ih fun other member => le other (List.mem_cons_of_mem _ member)
    exact Nat.add_le_add first others

theorem total_map_lt {change : Row → Row} {rows : List Row}
    (le : ∀ row ∈ rows, weight (change row) ≤ weight row) {row : Row} (member : row ∈ rows)
    (lt : weight (change row) < weight row) : total weight (rows.map change) < total weight rows := by
  induction rows with
  | nil => cases member
  | cons first rest ih =>
    have rest_le (other : Row) (inRest : other ∈ rest) := le other (List.mem_cons_of_mem _ inRest)
    rcases List.mem_cons.mp member with rfl | inRest
    · exact Nat.add_lt_add_of_lt_of_le lt (total_map_le rest_le)
    · exact Nat.add_lt_add_of_le_of_lt (le first List.mem_cons_self) (ih rest_le inRest)

end Total

/-! ### An item that is tried again until it is settled -/

/-- One claim and its outcome, which depends on the failures before. -/
def attempt (limit : Nat) (succeeds : Nat → Bool) (progress : Progress) : Progress :=
  if succeeds progress.attempts then progress.claim.finish else progress.claim.fail limit

/-- Some attempt on a pending item that may still be made succeeds. -/
def Winnable (limit : Nat) (succeeds : Nat → Bool) (progress : Progress) : Prop :=
  ∃ n, progress.attempts ≤ n ∧ (n = progress.attempts ∨ n < limit) ∧ succeeds n = true

/-- Attempts on an item, each made while it is pending. -/
def Attempted (limit : Nat) (succeeds : Nat → Bool) : Progress → Progress → Prop :=
  Relation.ReflTransGen fun before after =>
    before.standing = .pending ∧ after = before.attempt limit succeeds

/-- An item that was pending and is now settled is done exactly when some attempt that
could be made succeeds. -/
theorem Attempted.done_iff {limit : Nat} {succeeds : Nat → Bool} {before after : Progress}
    (attempted : Attempted limit succeeds before after) (pending : before.standing = .pending)
    (settled : after.standing = .done ∨ after.standing = .failed) :
    after.standing = .done ↔ before.Winnable limit succeeds := by
  induction attempted using Relation.ReflTransGen.head_induction_on with
  | refl => simp [pending] at settled
  | @head before next step rest ih =>
    obtain ⟨-, rfl⟩ := step
    by_cases success : succeeds before.attempts = true
    · have next_ : before.attempt limit succeeds = before.claim.finish := by rw [attempt, if_pos success]
      rw [next_] at rest
      have stays : after = before.claim.finish := by
        rcases rest.cases_head with same | ⟨_, ⟨stillPending, -⟩, -⟩
        · exact same.symm
        · cases stillPending
      exact iff_of_true (stays ▸ rfl) ⟨before.attempts, Nat.le_refl _, .inl rfl, success⟩
    · have next_ : before.attempt limit succeeds = before.claim.fail limit := by rw [attempt, if_neg success]
      rw [next_] at rest ih
      by_cases last : limit ≤ before.attempts + 1
      · have failed : (before.claim.fail limit).standing = .failed := by
          simp [Progress.fail, Progress.claim, last]
        have stays : after = before.claim.fail limit := by
          rcases rest.cases_head with same | ⟨_, ⟨stillPending, -⟩, -⟩
          · exact same.symm
          · rw [failed] at stillPending
            cases stillPending
        refine iff_of_false (by simp [stays, failed]) ?_
        rintro ⟨n, from_, within, succeeds_⟩
        obtain rfl : n = before.attempts := by omega
        exact success succeeds_
      · rw [ih (by simp [Progress.fail, Progress.claim, last])]
        have attempts : (before.claim.fail limit).attempts = before.attempts + 1 := rfl
        constructor
        · rintro ⟨n, from_, within, succeeds_⟩
          exact ⟨n, by omega, .inr (by omega), succeeds_⟩
        · rintro ⟨n, from_, within, succeeds_⟩
          have different : n ≠ before.attempts := fun same => success (same ▸ succeeds_)
          exact ⟨n, by omega, .inr (by omega), succeeds_⟩

end Progress

/-! ### Items and their holders -/

variable {Key Worker : Type} [DecidableEq Key] [DecidableEq Worker]

/-- Held items are being processed, each by one worker; failures stay within the limit. -/
structure PoolSound (limit : Nat) (progress : Key → Option Progress) (holds : Worker → List Key) :
    Prop where
  within : ∀ key item, progress key = some item → item.Within limit
  held : ∀ worker, ∀ key ∈ holds worker, ∃ item, progress key = some item ∧ item.standing = .processing
  once : ∀ worker, (holds worker).Nodup
  apart : ∀ worker other, worker ≠ other → (holds worker).Disjoint (holds other)

/-- Every item in processing is held. -/
def PoolAttended (progress : Key → Option Progress) (holds : Worker → List Key) : Prop :=
  ∀ key item, progress key = some item → item.standing = .processing → ∃ worker, key ∈ holds worker

/-- The items under the keys are claimed. -/
def claimKeys (keys : List Key) (progress : Key → Option Progress) (key : Key) : Option Progress :=
  if key ∈ keys then (progress key).map Progress.claim else progress key

namespace PoolSound

variable {limit : Nat} {progress : Key → Option Progress} {holds : Worker → List Key}

omit [DecidableEq Key] [DecidableEq Worker] in
theorem processing_of_held (sound : PoolSound limit progress holds) {worker : Worker} {key : Key}
    {item : Progress} (held : key ∈ holds worker) (here : progress key = some item) :
    item.standing = .processing := by
  obtain ⟨other, found, processing⟩ := sound.held worker key held
  rw [here] at found
  cases found
  exact processing

omit [DecidableEq Worker] in
theorem add (sound : PoolSound limit progress holds) {key : Key} (fresh : progress key = none)
    (positive : 0 < limit) :
    PoolSound limit (Function.update progress key (some Progress.fresh)) holds where
  within := by
    intro other item found
    by_cases same : other = key
    · subst same
      rw [Function.update_self] at found
      cases found
      exact Progress.within_fresh positive
    · rw [Function.update_of_ne same] at found
      exact sound.within other item found
  held := by
    intro worker other member
    obtain ⟨item, found, processing⟩ := sound.held worker other member
    have different : other ≠ key := by
      rintro rfl
      rw [fresh] at found
      cases found
    exact ⟨item, by rw [Function.update_of_ne different, found], processing⟩
  once := sound.once
  apart := sound.apart

theorem claim (sound : PoolSound limit progress holds) {worker : Worker} {keys : List Key}
    (distinct : keys.Nodup)
    (pending : ∀ key ∈ keys, ∃ item, progress key = some item ∧ item.standing = .pending) :
    PoolSound limit (claimKeys keys progress) (Function.update holds worker keys) where
  within := by
    intro key item found
    unfold claimKeys at found
    split at found
    · rename_i member
      obtain ⟨before, here, waits⟩ := pending key member
      rw [here] at found
      cases found
      exact (sound.within key before here).claim waits
    · exact sound.within key item found
  held := by
    intro other key member
    unfold claimKeys
    by_cases same : other = worker
    · subst same
      rw [Function.update_self] at member
      obtain ⟨before, here, -⟩ := pending key member
      exact ⟨before.claim, by rw [if_pos member, here, Option.map_some], rfl⟩
    · rw [Function.update_of_ne same] at member
      obtain ⟨item, found, processing⟩ := sound.held other key member
      have outside : key ∉ keys := by
        intro inside
        obtain ⟨before, here, waits⟩ := pending key inside
        rw [here] at found
        cases found
        rw [waits] at processing
        cases processing
      exact ⟨item, by rw [if_neg outside, found], processing⟩
  once := by
    intro other
    by_cases same : other = worker
    · subst same
      rwa [Function.update_self]
    · rw [Function.update_of_ne same]
      exact sound.once other
  apart := by
    have fresh (other : Worker) : (holds other).Disjoint keys := by
      intro key held inside
      obtain ⟨before, here, waits⟩ := pending key inside
      rw [sound.processing_of_held held here] at waits
      cases waits
    intro first second different
    by_cases firstSame : first = worker
    · subst firstSame
      rw [Function.update_self, Function.update_of_ne (Ne.symm different)]
      exact fun key inside held => fresh second held inside
    · rw [Function.update_of_ne firstSame]
      by_cases secondSame : second = worker
      · subst secondSame
        rw [Function.update_self]
        exact fresh first
      · rw [Function.update_of_ne secondSame]
        exact sound.apart first second different

theorem settle (sound : PoolSound limit progress holds) {worker : Worker} {key : Key} {rest : List Key}
    {item next : Progress} (head : holds worker = key :: rest) (here : progress key = some item)
    (settled : next = item.finish ∨ next = item.fail limit) :
    PoolSound limit (Function.update progress key (some next)) (Function.update holds worker rest) where
  within := by
    have processing := sound.processing_of_held (head ▸ List.mem_cons_self) here
    intro other now found
    by_cases same : other = key
    · subst same
      rw [Function.update_self] at found
      cases found
      have within := sound.within other item here
      rcases settled with rfl | rfl
      · exact within.finish processing
      · exact within.fail processing
    · rw [Function.update_of_ne same] at found
      exact sound.within other now found
  held := by
    have distinct := sound.once worker
    rw [head, List.nodup_cons] at distinct
    intro other member inside
    have different : member ≠ key ∧ ∃ now, progress member = some now ∧ now.standing = .processing := by
      by_cases same : other = worker
      · subst same
        rw [Function.update_self] at inside
        exact ⟨fun equal => distinct.1 (equal ▸ inside),
          sound.held other member (head ▸ List.mem_cons_of_mem _ inside)⟩
      · rw [Function.update_of_ne same] at inside
        refine ⟨?_, sound.held other member inside⟩
        rintro rfl
        exact sound.apart other worker same inside (head ▸ List.mem_cons_self)
    obtain ⟨now, found, processing⟩ := different.2
    exact ⟨now, by rw [Function.update_of_ne different.1, found], processing⟩
  once := by
    intro other
    by_cases same : other = worker
    · subst same
      have distinct := sound.once other
      rw [head] at distinct
      rw [Function.update_self]
      exact distinct.of_cons
    · rw [Function.update_of_ne same]
      exact sound.once other
  apart := by
    have smaller (other : Worker) : Function.update holds worker rest other ⊆ holds other := by
      by_cases same : other = worker
      · subst same
        rw [Function.update_self, head]
        exact List.subset_cons_self _ _
      · rw [Function.update_of_ne same]
        exact List.Subset.refl _
    intro first second different key inFirst inSecond
    exact sound.apart first second different (smaller first inFirst) (smaller second inSecond)

omit [DecidableEq Key] in
theorem drop (sound : PoolSound limit progress holds) (worker : Worker) :
    PoolSound limit progress (Function.update holds worker []) := by
  have smaller (other : Worker) : (Function.update holds worker [] other).Sublist (holds other) := by
    by_cases same : other = worker
    · subst same
      rw [Function.update_self]
      exact List.nil_sublist _
    · rw [Function.update_of_ne same]
  exact
    { within := sound.within
      held := fun other key member => sound.held other key ((smaller other).subset member)
      once := fun other => (sound.once other).sublist (smaller other)
      apart := fun first second different key inFirst inSecond =>
        sound.apart first second different ((smaller first).subset inFirst)
          ((smaller second).subset inSecond) }

end PoolSound

namespace PoolAttended

variable {limit : Nat} {progress : Key → Option Progress} {holds : Worker → List Key}

omit [DecidableEq Worker] in
theorem add (attended : PoolAttended progress holds) {key : Key} :
    PoolAttended (Function.update progress key (some Progress.fresh)) holds := by
  intro other item found processing
  by_cases same : other = key
  · subst same
    rw [Function.update_self] at found
    cases found
    cases processing
  · rw [Function.update_of_ne same] at found
    exact attended other item found processing

theorem claim (attended : PoolAttended progress holds) {worker : Worker} {keys : List Key}
    (free : holds worker = []) :
    PoolAttended (claimKeys keys progress) (Function.update holds worker keys) := by
  intro key item found processing
  unfold claimKeys at found
  split at found
  · rename_i member
    exact ⟨worker, by rwa [Function.update_self]⟩
  · obtain ⟨holder, member⟩ := attended key item found processing
    have different : holder ≠ worker := by
      rintro rfl
      rw [free] at member
      cases member
    exact ⟨holder, by rwa [Function.update_of_ne different]⟩

theorem settle (attended : PoolAttended progress holds) {worker : Worker} {key : Key} {rest : List Key}
    {next : Progress} (head : holds worker = key :: rest) (settled : next.standing ≠ .processing) :
    PoolAttended (Function.update progress key (some next)) (Function.update holds worker rest) := by
  intro other item found processing
  by_cases same : other = key
  · subst same
    rw [Function.update_self] at found
    cases found
    exact absurd processing settled
  · rw [Function.update_of_ne same] at found
    obtain ⟨holder, member⟩ := attended other item found processing
    by_cases here : holder = worker
    · subst here
      rw [head] at member
      exact ⟨holder, by rw [Function.update_self]; exact (List.mem_cons.mp member).resolve_left same⟩
    · exact ⟨holder, by rwa [Function.update_of_ne here]⟩

end PoolAttended

/-! ### How a pool moves -/

/-- Items stay, each as it was or one move further, and the items that come are fresh. -/
structure PoolAdvances (before after : Key → Option Progress) : Prop where
  moved : ∀ key item, before key = some item →
    ∃ next, after key = some next ∧ (next = item ∨ item.standing.Moves next.standing)
  come : ∀ key item, before key = none → after key = some item → item = .fresh

namespace PoolAdvances

variable {progress : Key → Option Progress}

omit [DecidableEq Key] in
theorem refl (progress : Key → Option Progress) : PoolAdvances progress progress where
  moved _ item here := ⟨item, here, .inl rfl⟩
  come key item absent here := by
    rw [absent] at here
    cases here

theorem add {key : Key} (fresh : progress key = none) :
    PoolAdvances progress (Function.update progress key (some Progress.fresh)) where
  moved := by
    intro other item here
    have different : other ≠ key := by
      rintro rfl
      rw [fresh] at here
      cases here
    exact ⟨item, by rw [Function.update_of_ne different, here], .inl rfl⟩
  come := by
    intro other item absent here
    by_cases same : other = key
    · subst same
      rw [Function.update_self] at here
      cases here
      rfl
    · rw [Function.update_of_ne same, absent] at here
      cases here

theorem claim {keys : List Key}
    (pending : ∀ key ∈ keys, ∃ item, progress key = some item ∧ item.standing = .pending) :
    PoolAdvances progress (claimKeys keys progress) where
  moved := by
    intro key item here
    unfold claimKeys
    by_cases member : key ∈ keys
    · obtain ⟨found, same, waits⟩ := pending key member
      rw [here] at same
      cases same
      refine ⟨item.claim, by rw [if_pos member, here, Option.map_some], .inr ?_⟩
      rw [waits]
      exact .claim
    · exact ⟨item, by rw [if_neg member, here], .inl rfl⟩
  come := by
    intro key item absent here
    unfold claimKeys at here
    simp [absent] at here

theorem settle {key : Key} {item next : Progress} (here : progress key = some item)
    (moves : item.standing.Moves next.standing) :
    PoolAdvances progress (Function.update progress key (some next)) where
  moved := by
    intro other found same
    by_cases equal : other = key
    · subst equal
      rw [here] at same
      cases same
      exact ⟨next, Function.update_self _ _ _, .inr moves⟩
    · exact ⟨found, by rw [Function.update_of_ne equal, same], .inl rfl⟩
  come := by
    intro other found absent inside
    by_cases equal : other = key
    · subst equal
      rw [here] at absent
      cases absent
    · rw [Function.update_of_ne equal, absent] at inside
      cases inside

end PoolAdvances
end SkillLayer
