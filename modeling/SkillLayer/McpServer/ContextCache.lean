import Mathlib.Data.Char
import Mathlib.Data.List.Lex
import Mathlib.Data.List.Sort
import SkillLayer.McpServer.SuppressionState

/-! The cache of compiled contexts, by session, prompt and configured scopes. -/

namespace SkillLayer.McpServer

inductive CompileContextStatus where
  | ok
  | noMatch
  | degraded
  | duplicateSuppressed
deriving DecidableEq

structure CachedContext where
  status : CompileContextStatus
  reasonCode : Option Str
  additionalContext : Option Str
  scopesConsidered : List Str
  graphVersion : Int
  health : List (Str × Str)
deriving DecidableEq

instance : Encodable CompileContextStatus :=
  Encodable.ofLeftInjection (fun status => (status.ctorIdx : Nat))
    (fun
      | 0 => some .ok
      | 1 => some .noMatch
      | 2 => some .degraded
      | _ => some .duplicateSuppressed) fun status => by cases status <;> rfl

instance : Encodable CachedContext :=
  Encodable.ofLeftInjection
    (fun entry => (entry.status, entry.reasonCode, entry.additionalContext, entry.scopesConsidered,
      entry.graphVersion, entry.health))
    (fun (status, reasonCode, additionalContext, scopesConsidered, graphVersion, health) =>
      some ⟨status, reasonCode, additionalContext, scopesConsidered, graphVersion, health⟩) fun _ => rfl

/-! ### Keys -/

def hexDigit (half : Nat) : Char := Nat.digitChar half

def toHex (bytes : List UInt8) : Str :=
  bytes.flatMap fun byte => [hexDigit (byte.toNat / 16), hexDigit (byte.toNat % 16)]

def promptHash (blake3 : List UInt8 → List UInt8) (prompt : Str) : Str :=
  (toHex (blake3 (Str.utf8 prompt))).take 16

def scopeFingerprint (configuredScopes : List Str) : Str :=
  Str.join "," (configuredScopes.insertionSort fun one two => one ≤ two)

/-- The digest function and the namespace of the keys. -/
structure CacheNames where
  blake3 : List UInt8 → List UInt8
  keyPrefix : Str

def cacheKey (names : CacheNames) (sessionId prompt : Str) (configuredScopes : List Str) : Str :=
  names.keyPrefix ++ "cache:" ++ Str.trim sessionId ++ ":" ++ promptHash names.blake3 prompt ++ ":" ++
    scopeFingerprint configuredScopes

def cachePattern (keyPrefix sessionId : Str) : Str :=
  keyPrefix ++ "cache:" ++ escapeRedisGlob (Str.trim sessionId) ++ ":*"

/-! ### The functions -/

section Functions

variable {Call Err : Type} {Answer : Call → Type}
  (maps : (request : MapCall CachedContext) → Program Call Answer Err (MapAnswer CachedContext request))
  (redis : (request : RedisCall) → Program Call Answer Err (RedisAnswer request))
  (layer : RedisLayer CachedContext) (names : CacheNames)

/-- The lookup in Redis, and the write-back of an entry of the wanted version. -/
def getShared (sessionId key : Str) (graphVersion : Int) : Program Call Answer Err (Option CachedContext) := do
  match ← tryRedisGet redis layer key with
  | some redisEntry =>
    if redisEntry.graphVersion = graphVersion then do
      recordLocal maps sessionId key redisEntry
      return some redisEntry
    else return none
  | none => return none

def getCached (sessionId prompt : Str) (configuredScopes : List Str) (graphVersion : Int) :
    Program Call Answer Err (Option CachedContext) := do
  let key := cacheKey names sessionId prompt configuredScopes
  match ← maps (.get key) with
  | some entry =>
    if entry.graphVersion = graphVersion then return some entry
    else getShared maps redis layer sessionId key graphVersion
  | none => getShared maps redis layer sessionId key graphVersion

def setCached (sessionId prompt : Str) (configuredScopes : List Str) (entry : CachedContext) :
    Program Call Answer Err Unit := do
  let key := cacheKey names sessionId prompt configuredScopes
  recordLocal maps sessionId key entry
  tryRedisSetex redis layer key entry

def clearCache (sessionId : Str) : Program Call Answer Err Unit :=
  clearBoth maps redis layer sessionId (cachePattern names.keyPrefix sessionId)

end Functions

/-! ### What the keys and patterns tell apart -/

theorem matches_cachePattern {keyPrefix : Str} (plain : ∀ c ∈ keyPrefix, isGlobSpecial c = false)
    (sessionId key : Str) :
    globMatches .plain (cachePattern keyPrefix sessionId) key = true ↔
      ∃ rest, key = keyPrefix ++ "cache:" ++ Str.trim sessionId ++ ":" ++ rest := by
  have literal : ∀ c ∈ keyPrefix ++ "cache:".toList, isGlobSpecial c = false := by
    intro c member
    rcases List.mem_append.mp member with inPrefix | inName
    · exact plain c inPrefix
    · have named : ∀ c ∈ "cache:".toList, isGlobSpecial c = false := plain_of_all (by decide +kernel)
      exact named c inName
  have separator : ∀ c ∈ ":".toList, isGlobSpecial c = false := plain_of_all (by decide +kernel)
  have split : cachePattern keyPrefix sessionId = (keyPrefix ++ "cache:") ++
      (escapeRedisGlob (Str.trim sessionId) ++ (":" ++ ['*'])) := by
    simp [cachePattern]
  rw [split, globMatches_append literal]
  simp only [globMatches_escape, globMatches_append separator, globMatches_star, and_true]
  constructor
  · intro matched
    obtain ⟨_, rfl, _, rfl, rest, rfl⟩ := matched
    exact ⟨rest, by simp⟩
  · intro begins
    obtain ⟨rest, rfl⟩ := begins
    exact ⟨Str.trim sessionId ++ ":" ++ rest, by simp, ":" ++ rest, by simp, rest, rfl⟩

end SkillLayer.McpServer
