import Mathlib.Logic.Equiv.List
import SkillLayer.Glob
import SkillLayer.McpServer.SessionMaps

/-! The suppression state: which sessions have been served for a repository, and at which
version of the graph. -/

namespace SkillLayer.McpServer

structure SuppressionEntry where
  suppressed : Bool
  graphVersion : Int
  scopesConsidered : List Str
deriving DecidableEq

instance : Encodable SuppressionEntry :=
  Encodable.ofLeftInjection (fun entry => (entry.suppressed, entry.graphVersion, entry.scopesConsidered))
    (fun (suppressed, graphVersion, scopesConsidered) => some ⟨suppressed, graphVersion, scopesConsidered⟩)
    fun _ => rfl

/-! ### Keys -/

def localKey (sessionId repoPath : Str) : Str := Str.trim sessionId ++ "::" ++ Str.trim repoPath

def redisKey (keyPrefix sessionId repoPath : Str) : Str :=
  keyPrefix ++ "suppression:" ++ Str.trim sessionId ++ "::" ++ Str.trim repoPath

def escapeRedisGlob : Str → Str
  | [] => []
  | c :: rest => if isGlobSpecial c then '\\' :: c :: escapeRedisGlob rest else c :: escapeRedisGlob rest

def suppressionPattern (keyPrefix sessionId : Str) : Str :=
  keyPrefix ++ "suppression:" ++ escapeRedisGlob (Str.trim sessionId) ++ "::*"

theorem redisKey_eq (keyPrefix sessionId repoPath : Str) :
    redisKey keyPrefix sessionId repoPath = keyPrefix ++ "suppression:" ++ localKey sessionId repoPath := by
  simp [redisKey, localKey]

/-- The keys that begin as those of the session do. -/
def Own (session key : Str) : Prop := ∃ rest, key = session ++ "::" ++ rest

theorem own_localKey {session sessionId : Str} (same : Str.trim sessionId = session) (repoPath : Str) :
    Own session (localKey sessionId repoPath) := ⟨Str.trim repoPath, by rw [← same, localKey]⟩

/-! ### The functions -/

section Functions

variable {Call Err : Type} {Answer : Call → Type}
  (maps : (request : MapCall SuppressionEntry) → Program Call Answer Err (MapAnswer SuppressionEntry request))
  (redis : (request : RedisCall) → Program Call Answer Err (RedisAnswer request))
  (layer : RedisLayer SuppressionEntry) (keyPrefix : Str)

/-- The entry in the local map, or else the one in Redis, which is then written back. -/
def readThrough (sessionId repoPath : Str) : Program Call Answer Err (Option SuppressionEntry) := do
  let key := localKey sessionId repoPath
  match ← maps (.get key) with
  | some entry => return some entry
  | none =>
    match ← tryRedisGet redis layer (redisKey keyPrefix sessionId repoPath) with
    | some redisEntry => do
      recordLocal maps sessionId key redisEntry
      return some redisEntry
    | none => return none

def SuppressionEntry.suppresses (graphVersion : Int) (entry : SuppressionEntry) : Bool :=
  entry.suppressed && entry.graphVersion == graphVersion

def isSuppressed (sessionId repoPath : Str) (graphVersion : Int) : Program Call Answer Err Bool := do
  let found ← readThrough maps redis layer keyPrefix sessionId repoPath
  return found.any (SuppressionEntry.suppresses graphVersion)

def suppressedVersion (sessionId repoPath : Str) : Program Call Answer Err (Option Int) := do
  let found ← readThrough maps redis layer keyPrefix sessionId repoPath
  return found.map SuppressionEntry.graphVersion

def suppressedScopes (sessionId repoPath : Str) : Program Call Answer Err (Option (List Str)) := do
  let found ← readThrough maps redis layer keyPrefix sessionId repoPath
  return found.map SuppressionEntry.scopesConsidered

def markHealthy (sessionId repoPath : Str) (graphVersion : Int) (scopesConsidered : List Str) :
    Program Call Answer Err Unit := do
  let entry : SuppressionEntry := ⟨true, graphVersion, scopesConsidered⟩
  recordLocal maps sessionId (localKey sessionId repoPath) entry
  tryRedisSetex redis layer (redisKey keyPrefix sessionId repoPath) entry

/-- The local removal, and after it the deletion in the background. -/
def clearSuppression (sessionId : Str) : Program Call Answer Err Unit :=
  clearBoth maps redis layer sessionId (suppressionPattern keyPrefix sessionId)

end Functions

/-! ### Which keys a clear deletes -/

theorem head_and_tail {c : Char} {text literal : Str} {holds : Str → Prop} :
    (text.head? = some c ∧ ∃ rest, text.tail = literal ++ rest ∧ holds rest) ↔
      ∃ rest, text = c :: literal ++ rest ∧ holds rest := by
  cases text with
  | nil => simp
  | cons d text =>
    constructor
    · intro both
      obtain ⟨same, rest, tail, held⟩ := both
      obtain rfl := Option.some.inj same
      exact ⟨rest, congrArg (d :: ·) tail, held⟩
    · intro whole
      obtain ⟨rest, same, held⟩ := whole
      obtain ⟨rfl, rfl⟩ := List.cons.inj same
      exact ⟨rfl, rest, rfl, held⟩

theorem globMatches_append {literal : Str} (plain : ∀ c ∈ literal, isGlobSpecial c = false)
    (pattern text : Str) :
    globMatches .plain (literal ++ pattern) text = true ↔
      ∃ rest, text = literal ++ rest ∧ globMatches .plain pattern rest = true := by
  induction literal generalizing text with
  | nil => simp
  | cons c literal ih =>
    rw [List.cons_append, globMatches_literal (plain c List.mem_cons_self), Bool.and_eq_true, beq_iff_eq,
      ih fun c member => plain c (List.mem_cons_of_mem _ member), head_and_tail]

theorem globMatches_escape (raw pattern text : Str) :
    globMatches .plain (escapeRedisGlob raw ++ pattern) text = true ↔
      ∃ rest, text = raw ++ rest ∧ globMatches .plain pattern rest = true := by
  induction raw generalizing text with
  | nil => simp [escapeRedisGlob]
  | cons c raw ih =>
    have matched : globMatches .plain (escapeRedisGlob (c :: raw) ++ pattern) text =
        (text.head? == some c && globMatches .plain (escapeRedisGlob raw ++ pattern) text.tail) := by
      rw [escapeRedisGlob]
      split
      · exact globMatches_escaped c _ text
      · rename_i literal
        exact globMatches_literal (Bool.eq_false_iff.mpr literal) _ text
    rw [matched, Bool.and_eq_true, beq_iff_eq, ih, head_and_tail]

/-- With a plain prefix, a clear deletes exactly the keys that begin as those of the session. -/
theorem matches_suppressionPattern {keyPrefix : Str} (plain : ∀ c ∈ keyPrefix, isGlobSpecial c = false)
    (sessionId key : Str) :
    globMatches .plain (suppressionPattern keyPrefix sessionId) key = true ↔
      ∃ rest, key = keyPrefix ++ "suppression:" ++ Str.trim sessionId ++ "::" ++ rest := by
  have literal : ∀ c ∈ keyPrefix ++ "suppression:".toList, isGlobSpecial c = false := by
    intro c member
    rcases List.mem_append.mp member with inPrefix | inName
    · exact plain c inPrefix
    · have named : ∀ c ∈ "suppression:".toList, isGlobSpecial c = false := plain_of_all (by decide +kernel)
      exact named c inName
  have separator : ∀ c ∈ "::".toList, isGlobSpecial c = false := plain_of_all (by decide +kernel)
  have split : suppressionPattern keyPrefix sessionId = (keyPrefix ++ "suppression:") ++
      (escapeRedisGlob (Str.trim sessionId) ++ ("::" ++ ['*'])) := by
    simp [suppressionPattern]
  rw [split, globMatches_append literal]
  simp only [globMatches_escape, globMatches_append separator, globMatches_star, and_true]
  constructor
  · intro matched
    obtain ⟨_, rfl, _, rfl, rest, rfl⟩ := matched
    exact ⟨rest, by simp⟩
  · intro begins
    obtain ⟨rest, rfl⟩ := begins
    exact ⟨Str.trim sessionId ++ "::" ++ rest, by simp, "::" ++ rest, by simp, rest, rfl⟩

end SkillLayer.McpServer
