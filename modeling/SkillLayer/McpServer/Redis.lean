import SkillLayer.Glob
import SkillLayer.McpServer.SessionMaps

/-! What Redis holds and answers: alone, and to threads whose calls may fail and whose keys
may expire at any time. -/

namespace SkillLayer.McpServer

structure Keyspace where
  entries : List (Str × Str)
deriving DecidableEq

namespace Keyspace

def empty : Keyspace := ⟨[]⟩

def get (keyspace : Keyspace) (key : Str) : Option Str := keyspace.entries.lookup key

def delete (keyspace : Keyspace) (gone : Str → Bool) : Keyspace where
  entries := keyspace.entries.filter fun entry => !gone entry.1

def write (keyspace : Keyspace) (key value : Str) : Keyspace where
  entries := (key, value) :: keyspace.entries

/-- The keys that match a pattern. -/
def scan (keyspace : Keyspace) (pattern : Str) : List Str :=
  (keyspace.entries.map Prod.fst).filter (globMatches .plain pattern)

variable {keyspace : Keyspace} {key other value : Str} {gone : Str → Bool}

@[simp] theorem get_empty : empty.get key = none := rfl

@[simp] theorem get_write : (keyspace.write key value).get other =
    if other = key then some value else keyspace.get other := by
  simp only [get, write, List.lookup_cons]
  by_cases same : other = key
  · simp [same]
  · simp [beq_eq_false_iff_ne.mpr same, same]

@[simp] theorem get_delete : (keyspace.delete gone).get key = if gone key then none else keyspace.get key := by
  unfold get delete
  induction keyspace.entries with
  | nil => simp
  | cons entry entries ih =>
    obtain ⟨entryKey, entryValue⟩ := entry
    by_cases same : key = entryKey
    · subst same
      by_cases dropped : gone key
      · simpa [List.filter_cons, dropped] using ih
      · simp [dropped]
    · have different : (key == entryKey) = false := beq_eq_false_iff_ne.mpr same
      by_cases dropped : gone entryKey
      · simpa [List.filter_cons, dropped, List.lookup_cons, different] using ih
      · simpa [List.filter_cons, dropped, List.lookup_cons, different] using ih

theorem isSome_get : (keyspace.get key).isSome ↔ key ∈ keyspace.entries.map Prod.fst := by
  unfold get
  induction keyspace.entries with
  | nil => exact ⟨nofun, nofun⟩
  | cons entry entries ih =>
    obtain ⟨entryKey, entryValue⟩ := entry
    rw [List.map_cons, List.mem_cons, ← ih, List.lookup_cons]
    by_cases same : key = entryKey
    · simp [same]
    · simp [beq_eq_false_iff_ne.mpr same, same]

theorem mem_scan {pattern : Str} : key ∈ keyspace.scan pattern ↔
    (keyspace.get key).isSome ∧ globMatches .plain pattern key = true := by
  rw [scan, List.mem_filter, isSome_get]

end Keyspace

/-! ### Redis alone -/

/-- What becomes of a call: it is served, it fails without effect, or its answer is lost. -/
inductive Fate where
  | served
  | refused
  | lost
deriving DecidableEq

/-- The effect of a call that arrives. -/
def Keyspace.after : RedisCall → Keyspace → Keyspace
  | .setEx key value _, keyspace => keyspace.write key value
  | .del keys, keyspace => keyspace.delete fun key => keys.contains key
  | _, keyspace => keyspace

def Keyspace.answer : (request : RedisCall) → Keyspace → RedisAnswer request
  | .get key, keyspace => .ok (keyspace.get key)
  | .setEx _ _ _, _ => .ok ()
  | .scanBegin _, _ => .ok ()
  | .scanEnd pattern, keyspace => .ok (keyspace.scan pattern)
  | .del _, _ => .ok ()

def redisFailure (error : Str) : (request : RedisCall) → RedisAnswer request
  | .get _ => .error error
  | .setEx _ _ _ => .error error
  | .scanBegin _ => .error error
  | .scanEnd _ => .error error
  | .del _ => .error error

def serveRedis (fate : Fate) (request : RedisCall) (keyspace : Keyspace) : RedisAnswer request × Keyspace :=
  match fate with
  | .served => (keyspace.answer request, keyspace.after request)
  | .refused => (redisFailure "connection refused" request, keyspace)
  | .lost => (redisFailure "connection lost" request, keyspace.after request)

/-! ### Redis among threads -/

/-- The keys, and for the record of the scans only, which keys have been there since the scan
of a thread began. -/
structure RedisState where
  keyspace : Keyspace
  steady : Nat → Str → Prop

namespace RedisState

def empty : RedisState := ⟨.empty, fun _ _ => False⟩

def delete (redis : RedisState) (gone : Str → Bool) : RedisState where
  keyspace := redis.keyspace.delete gone
  steady id key := redis.steady id key ∧ gone key = false

def write (redis : RedisState) (key value : Str) : RedisState :=
  { redis with keyspace := redis.keyspace.write key value }

def observe (redis : RedisState) (id : Nat) : RedisState :=
  { redis with
    steady := Function.update redis.steady id fun key => (redis.keyspace.get key).isSome }

@[simp] theorem keyspace_delete (redis : RedisState) (gone : Str → Bool) :
    (redis.delete gone).keyspace = redis.keyspace.delete gone := rfl

@[simp] theorem keyspace_write (redis : RedisState) (key value : Str) :
    (redis.write key value).keyspace = redis.keyspace.write key value := rfl

@[simp] theorem keyspace_observe (redis : RedisState) (id : Nat) :
    (redis.observe id).keyspace = redis.keyspace := rfl

theorem steady_observe (redis : RedisState) (id : Nat) :
    (redis.observe id).steady id = fun key => (redis.keyspace.get key).isSome = true := Function.update_self ..

@[simp] theorem delete_none (redis : RedisState) : (redis.delete fun _ => false) = redis := by
  obtain ⟨⟨entries⟩, steady⟩ := redis
  simp [delete, Keyspace.delete]

end RedisState

/-- The answers of Redis to a thread. Before each call any keys may have expired; a call that
fails may have had its effect; and a scan returns matching keys, among them all those that
have been there since it began. -/
def RedisAnswers (id : Nat) : (request : RedisCall) → RedisState → RedisAnswer request → RedisState → Prop
  | .get key, before, answer, after => ∃ gone, after = before.delete gone ∧
    ((∃ error, answer = .error error) ∨ answer = .ok (after.keyspace.get key))
  | .setEx key value _, before, answer, after => ∃ gone, after = (before.delete gone).write key value ∨
    (after = before.delete gone ∧ ∃ error, answer = .error error)
  | .scanBegin _, before, _, after => ∃ gone, after = (before.delete gone).observe id
  | .scanEnd pattern, before, answer, after => ∃ gone, after = before.delete gone ∧
    ∀ keys, answer = .ok keys → (∀ key ∈ keys, globMatches .plain pattern key = true) ∧
      ∀ key, after.steady id key → globMatches .plain pattern key = true → key ∈ keys
  | .del keys, before, answer, after => ∃ gone, after = (before.delete gone).delete (fun key => keys.contains key) ∨
    (after = before.delete gone ∧ ∃ error, answer = .error error)

section Answers

variable {id : Nat} {key : Str}

theorem get_delete_some {keyspace : Keyspace} {gone : Str → Bool} {text : Str}
    (present : (keyspace.delete gone).get key = some text) : keyspace.get key = some text := by
  rw [Keyspace.get_delete] at present
  split at present
  · cases present
  · exact present

theorem get_answers {request : RedisCall} {before after : RedisState} {answer : RedisAnswer request}
    (answered : RedisAnswers id request before answer after) {text : Str}
    (present : after.keyspace.get key = some text) :
    before.keyspace.get key = some text ∨ ∃ ttlSecs, request = .setEx key text ttlSecs := by
  cases request with
  | get other =>
    obtain ⟨gone, rfl, -⟩ := answered
    exact .inl (get_delete_some present)
  | setEx other value ttlSecs =>
    obtain ⟨gone, rfl | ⟨rfl, -⟩⟩ := answered
    · rw [RedisState.keyspace_write, Keyspace.get_write] at present
      split at present
      · rename_i same
        subst same
        cases present
        exact .inr ⟨ttlSecs, rfl⟩
      · exact .inl (get_delete_some present)
    · exact .inl (get_delete_some present)
  | scanBegin pattern =>
    obtain ⟨gone, rfl⟩ := answered
    exact .inl (get_delete_some present)
  | scanEnd pattern =>
    obtain ⟨gone, rfl, -⟩ := answered
    exact .inl (get_delete_some present)
  | del keys =>
    obtain ⟨gone, rfl | ⟨rfl, -⟩⟩ := answered
    · exact .inl (get_delete_some (get_delete_some present))
    · exact .inl (get_delete_some present)

/-- A key that is still there and was not written is as steady as it was, but for a scan that
begins anew. -/
theorem steady_answers {request : RedisCall} {before after : RedisState} {answer : RedisAnswer request}
    (answered : RedisAnswers id request before answer after) {other : Nat}
    (unwritten : ∀ value ttlSecs, request ≠ .setEx key value ttlSecs)
    (scan : ∀ pattern, request = .scanBegin pattern → other ≠ id) (steady : before.steady other key)
    (present : (after.keyspace.get key).isSome) : after.steady other key := by
  have kept {gone : Str → Bool} {keyspace : Keyspace} (there : ((keyspace.delete gone).get key).isSome) :
      gone key = false ∧ (keyspace.get key).isSome := by
    rw [Keyspace.get_delete] at there
    split at there
    · cases there
    · rename_i stays
      exact ⟨Bool.eq_false_iff.mpr stays, there⟩
  cases request with
  | get text =>
    obtain ⟨gone, rfl, -⟩ := answered
    exact ⟨steady, (kept present).1⟩
  | setEx text value ttlSecs =>
    obtain ⟨gone, rfl | ⟨rfl, -⟩⟩ := answered
    · have other : key ≠ text := by
        rintro rfl
        exact unwritten value ttlSecs rfl
      rw [RedisState.keyspace_write, Keyspace.get_write, if_neg other] at present
      exact ⟨steady, (kept present).1⟩
    · exact ⟨steady, (kept present).1⟩
  | scanBegin pattern =>
    obtain ⟨gone, rfl⟩ := answered
    have same : (((before.delete gone).observe id).steady other) = (before.delete gone).steady other :=
      Function.update_of_ne (scan pattern rfl) ..
    rw [same]
    exact ⟨steady, (kept present).1⟩
  | scanEnd pattern =>
    obtain ⟨gone, rfl, -⟩ := answered
    exact ⟨steady, (kept present).1⟩
  | del keys =>
    obtain ⟨gone, rfl | ⟨rfl, -⟩⟩ := answered
    · obtain ⟨unlisted, there⟩ := kept present
      exact ⟨⟨steady, (kept there).1⟩, unlisted⟩
    · exact ⟨steady, (kept present).1⟩

end Answers

end SkillLayer.McpServer
