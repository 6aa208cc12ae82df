import SkillLayer.McpServer.SessionIsolation

/-! Sessions with ids that are apart do not see each other: the calls of one may be left out of
any sequence. -/

namespace SkillLayer.McpServer

/-! ### What an operation does -/

section Kinds

variable (stores : Stores) (session : Str)

/-- What an operation for a session is: calls on one key of its own, a local clear, or a deletion. -/
inductive OperationKind : Operation → Prop where
  | state {operation : Operation} {key : Str} (own : Own session key)
    (only : (operation.program stores).Calls (StateCall stores.names.keyPrefix session key)) : OperationKind operation
  | context {operation : Operation} {key : Str} (own : OwnContext stores.names.keyPrefix session key)
    (only : (operation.program stores).Calls (ContextCall session key)) : OperationKind operation
  | clearState {sessionId : Str} (same : Str.trim sessionId = session) : OperationKind (.clearState sessionId)
  | clearContexts {sessionId : Str} (same : Str.trim sessionId = session) : OperationKind (.clearContexts sessionId)
  | deleteState {sessionId : Str} (same : Str.trim sessionId = session) : OperationKind (.deleteState sessionId)
  | deleteContexts {sessionId : Str} (same : Str.trim sessionId = session) : OperationKind (.deleteContexts sessionId)

variable {session}

theorem own_cacheKey {sessionId : Str} (same : Str.trim sessionId = session) (names : CacheNames) (prompt : Str)
    (configuredScopes : List Str) :
    OwnContext names.keyPrefix session (cacheKey names sessionId prompt configuredScopes) :=
  ⟨promptHash names.blake3 prompt ++ ":" ++ scopeFingerprint configuredScopes, by simp [cacheKey, same]⟩

theorem operationKind {operation : Operation} (named : operation.session? = some session) :
    OperationKind stores session operation := by
  cases operation with
  | isSuppressed sessionId repoPath version =>
    obtain rfl := Option.some.inj named
    refine .state (own_localKey rfl repoPath) (Program.Calls.bind (Program.Calls.bind calls_readThrough ?_) ?_)
    · exact fun _ => trivial
    · exact fun _ => trivial
  | graphVersion sessionId repoPath =>
    obtain rfl := Option.some.inj named
    refine .state (own_localKey rfl repoPath) (Program.Calls.bind (Program.Calls.bind calls_readThrough ?_) ?_)
    · exact fun _ => trivial
    · exact fun _ => trivial
  | scopesConsidered sessionId repoPath =>
    obtain rfl := Option.some.inj named
    refine .state (own_localKey rfl repoPath) (Program.Calls.bind (Program.Calls.bind calls_readThrough ?_) ?_)
    · exact fun _ => trivial
    · exact fun _ => trivial
  | markHealthy sessionId repoPath version scopes =>
    obtain rfl := Option.some.inj named
    exact .state (own_localKey rfl repoPath) (calls_markHealthy.bind fun _ => trivial)
  | get sessionId prompt configuredScopes version =>
    obtain rfl := Option.some.inj named
    exact .context (own_cacheKey rfl _ _ _) (calls_getCached.bind fun _ => trivial)
  | set sessionId prompt configuredScopes entry =>
    obtain rfl := Option.some.inj named
    exact .context (own_cacheKey rfl _ _ _) (calls_setCached.bind fun _ => trivial)
  | clearState sessionId => exact .clearState (Option.some.inj named)
  | deleteState sessionId => exact .deleteState (Option.some.inj named)
  | clearContexts sessionId => exact .clearContexts (Option.some.inj named)
  | deleteContexts sessionId => exact .deleteContexts (Option.some.inj named)
  | expire gone => cases named

end Kinds

/-! ### One move -/

section Moves

variable {stores : Stores} {hidden seen session sessionId : Str} {fates : Nat → Fate} {operation : Operation}
  {one two world : StoreWorld}

/-- The run of an operation on its own; keys do not expire in it. -/
theorem run_of_session (named : operation.session? = some session) :
    (Move.mk operation fates).run stores world = (operation.program stores).run (serveStores fates) 0 world := by
  cases operation with
  | expire gone => cases named
  | _ => rfl

theorem run_clearState : ∃ later maps, (Move.mk (.clearState sessionId) fates).run stores world =
      ⟨.ok .done, later, { world with suppression := maps }⟩ ∧
    ClearedMaps (Str.trim sessionId) world.suppression maps := by
  obtain ⟨later, maps, ran, cleared⟩ := run_clearStored (asks_state fates) sessionId 0 world
  exact ⟨later, maps, Program.run_bind_eq_ok.mpr ⟨_, _, _, ran, rfl⟩, cleared⟩

theorem run_clearContexts : ∃ later maps, (Move.mk (.clearContexts sessionId) fates).run stores world =
      ⟨.ok .done, later, { world with cache := maps }⟩ ∧
    ClearedMaps (Str.trim sessionId) world.cache maps := by
  obtain ⟨later, maps, ran, cleared⟩ := run_clearStored (asks_contexts fates) sessionId 0 world
  exact ⟨later, maps, Program.run_bind_eq_ok.mpr ⟨_, _, _, ran, rfl⟩, cleared⟩

/-- The keys that a deletion takes, if there is a client and its calls come through. -/
def deletes (client : Bool) (fates : Nat → Fate) (pattern key : Str) : Bool :=
  client && (swept fates 0 && globMatches .plain pattern key)

theorem run_deletion (client : Bool) (pattern : Str) : ∃ later keyspace,
    (do if client then scanAndDelPattern askKeys pattern
        return OperationResult.done : StoreProgram OperationResult).run (serveStores fates) 0 world =
      ⟨.ok .done, later, { world with keyspace := keyspace }⟩ ∧
    ∀ key, keyspace.get key = if deletes client fates pattern key then none else world.keyspace.get key := by
  cases client with
  | false => exact ⟨0, world.keyspace, rfl, fun key => rfl⟩
  | true =>
    obtain ⟨later, keyspace, ran, left⟩ := run_scanAndDel fates pattern 0 world
    exact ⟨later, keyspace, Program.run_bind_eq_ok.mpr ⟨_, _, _, ran, rfl⟩, left⟩

variable (fates) in
theorem stateCalls_alike {key : Str} (only : (operation.program stores).Calls
      (StateCall stores.names.keyPrefix session key)) (own : Own seen key) (distinct : session ≠ hidden)
    (alike : StoresAlike stores.names.keyPrefix hidden seen one two) :
    ((operation.program stores).run (serveStores fates) 0 one).Alike
      (fun _ => StoresAlike stores.names.keyPrefix hidden seen)
      ((operation.program stores).run (serveStores fates) 0 two) :=
  only.run_alike (StoresAlike stores.names.keyPrefix hidden seen)
    (fun _ _ _ _ alike call => call.alike own distinct alike) alike

variable (fates) in
theorem contextCalls_alike {key : Str} (only : (operation.program stores).Calls (ContextCall session key))
    (own : OwnContext stores.names.keyPrefix seen key) (distinct : session ≠ hidden)
    (alike : StoresAlike stores.names.keyPrefix hidden seen one two) :
    ((operation.program stores).run (serveStores fates) 0 one).Alike
      (fun _ => StoresAlike stores.names.keyPrefix hidden seen)
      ((operation.program stores).run (serveStores fates) 0 two) :=
  only.run_alike (StoresAlike stores.names.keyPrefix hidden seen)
    (fun _ _ _ _ alike call => call.alike own distinct alike) alike

theorem stateCalls_other {key : Str} (only : (operation.program stores).Calls
      (StateCall stores.names.keyPrefix session key)) (other : ¬Own seen key)
    (alike : StoresAlike stores.names.keyPrefix hidden seen one two) : StoresAlike stores.names.keyPrefix hidden seen
      ((operation.program stores).run (serveStores fates) 0 one).world two :=
  only.run (fun world => StoresAlike stores.names.keyPrefix hidden seen world two)
    (fun _ _ _ alike call => call.other other alike) alike

theorem contextCalls_other {key : Str} (only : (operation.program stores).Calls (ContextCall session key))
    (named : ∃ rest, key = stores.names.keyPrefix ++ "cache:" ++ rest)
    (other : ¬OwnContext stores.names.keyPrefix seen key)
    (alike : StoresAlike stores.names.keyPrefix hidden seen one two) : StoresAlike stores.names.keyPrefix hidden seen
      ((operation.program stores).run (serveStores fates) 0 one).world two :=
  only.run (fun world => StoresAlike stores.names.keyPrefix hidden seen world two)
    (fun _ _ _ alike call => call.other named other alike) alike

theorem OwnContext.named {keyPrefix key : Str} (own : OwnContext keyPrefix session key) :
    ∃ rest, key = keyPrefix ++ "cache:" ++ rest := by
  obtain ⟨rest, rfl⟩ := own
  exact ⟨session ++ ":" ++ rest, by simp⟩

theorem Apart.redis {keyPrefix key : Str} (apart : Apart hidden seen) (own : OwnRedis keyPrefix hidden key) :
    ¬OwnRedis keyPrefix seen key := by
  rcases own with ⟨text, own, rfl⟩ | own
  · exact fun others => apart.own own (ownRedis_state.mp others)
  · obtain ⟨rest, rfl⟩ := own.named
    exact fun others => apart.context own (ownRedis_context.mp others)

/-- With a plain prefix, a deletion for a session takes only keys that begin as those of the session. -/
theorem own_of_deletes {client : Bool} {keyPrefix pattern key : Str}
    (matching : globMatches .plain pattern key = true → OwnRedis keyPrefix hidden key) (apart : Apart hidden seen)
    (own : OwnRedis keyPrefix seen key) : deletes client fates pattern key = false := by
  cases matched : globMatches .plain pattern key with
  | true => exact absurd own (apart.redis (matching matched))
  | false => simp [deletes, matched]

/-- Keys that the same deletion takes from two worlds stay alike. -/
theorem StoresAlike.delete {keyPrefix : Str} (alike : StoresAlike keyPrefix hidden seen one two) {gone : Str → Bool}
    {left right : Keyspace} (first : ∀ key, left.get key = if gone key then none else one.keyspace.get key)
    (second : ∀ key, right.get key = if gone key then none else two.keyspace.get key) :
    StoresAlike keyPrefix hidden seen { one with keyspace := left } { two with keyspace := right } where
  suppression := alike.suppression
  cache := alike.cache
  keys key own := by rw [first, second, alike.keys key own]

/-- A move of a hidden session changes nothing that another one sees, if their ids are apart. -/
theorem StoresAlike.hidden_move (plain : ∀ c ∈ stores.names.keyPrefix, isGlobSpecial c = false)
    (apart : Apart hidden seen) (named : operation.session? = some hidden)
    (alike : StoresAlike stores.names.keyPrefix hidden seen one two) :
    StoresAlike stores.names.keyPrefix hidden seen ((Move.mk operation fates).run stores one).world two := by
  have kept {keyspace : Keyspace} {gone : Str → Bool} (foreign : ∀ key, OwnRedis stores.names.keyPrefix seen key →
        gone key = false) (left : ∀ key, keyspace.get key = if gone key then none else one.keyspace.get key) :
      StoresAlike stores.names.keyPrefix hidden seen { one with keyspace := keyspace } two := by
    refine ⟨alike.suppression, alike.cache, fun key own => ?_⟩
    rw [left, foreign key own, if_neg Bool.false_ne_true, alike.keys key own]
  cases operationKind stores named with
  | state own only =>
    rw [run_of_session named]
    exact stateCalls_other only (apart.own own) alike
  | context own only =>
    rw [run_of_session named]
    exact contextCalls_other only own.named (apart.context own) alike
  | clearState same =>
    obtain ⟨later, maps, ran, cleared⟩ := run_clearState
    rw [ran]
    exact ⟨alike.suppression.clear_hidden (same ▸ cleared), alike.cache, alike.keys⟩
  | clearContexts same =>
    obtain ⟨later, maps, ran, cleared⟩ := run_clearContexts
    rw [ran]
    exact ⟨alike.suppression, alike.cache.clear_hidden (same ▸ cleared), alike.keys⟩
  | @deleteState sessionId same =>
    obtain ⟨later, keyspace, ran, left⟩ := run_deletion stores.state.redisClient
      (suppressionPattern stores.names.keyPrefix sessionId)
    rw [run_of_session named, Operation.program, ran]
    refine kept (fun key own => own_of_deletes ?_ apart own) left
    intro matched
    obtain ⟨rest, rfl⟩ := (matches_suppressionPattern plain sessionId key).mp matched
    exact .inl ⟨hidden ++ "::" ++ rest, ⟨rest, rfl⟩, by simp [same]⟩
  | @deleteContexts sessionId same =>
    obtain ⟨later, keyspace, ran, left⟩ := run_deletion stores.cache.redisClient
      (cachePattern stores.names.keyPrefix sessionId)
    rw [run_of_session named, Operation.program, ran]
    refine kept (fun key own => own_of_deletes ?_ apart own) left
    intro matched
    obtain ⟨rest, rfl⟩ := (matches_cachePattern plain sessionId key).mp matched
    exact .inr ⟨rest, by simp [same]⟩

/-- A move of any other session, in worlds that are alike, leaves them alike; and what it returns to the
session that is seen is the same. -/
theorem StoresAlike.visible_move (distinct : session ≠ hidden) (named : operation.session? = some session)
    (alike : StoresAlike stores.names.keyPrefix hidden seen one two) :
    StoresAlike stores.names.keyPrefix hidden seen ((Move.mk operation fates).run stores one).world
        ((Move.mk operation fates).run stores two).world ∧
      (session = seen → ((Move.mk operation fates).run stores one).outcome =
        ((Move.mk operation fates).run stores two).outcome) := by
  cases operationKind stores named with
  | @state _ key own only =>
    rw [run_of_session named, run_of_session named]
    by_cases shared : Own seen key
    · have ran := stateCalls_alike fates only shared distinct alike
      exact ⟨ran.world, fun _ => ran.outcome⟩
    · refine ⟨?_, fun same => absurd (same ▸ own) shared⟩
      exact (stateCalls_other only shared (stateCalls_other only shared alike).symm).symm
  | @context _ key own only =>
    rw [run_of_session named, run_of_session named]
    by_cases shared : OwnContext stores.names.keyPrefix seen key
    · have ran := contextCalls_alike fates only shared distinct alike
      exact ⟨ran.world, fun _ => ran.outcome⟩
    · refine ⟨?_, fun same => absurd (same ▸ own) shared⟩
      exact (contextCalls_other only own.named shared (contextCalls_other only own.named shared alike).symm).symm
  | clearState same =>
    obtain ⟨later, maps, ran, cleared⟩ := run_clearState
    obtain ⟨last, others, again, clearedToo⟩ := run_clearState
    rw [ran, again]
    exact ⟨⟨alike.suppression.clear cleared clearedToo, alike.cache, alike.keys⟩, fun _ => rfl⟩
  | clearContexts same =>
    obtain ⟨later, maps, ran, cleared⟩ := run_clearContexts
    obtain ⟨last, others, again, clearedToo⟩ := run_clearContexts
    rw [ran, again]
    exact ⟨⟨alike.suppression, alike.cache.clear cleared clearedToo, alike.keys⟩, fun _ => rfl⟩
  | deleteState same =>
    obtain ⟨later, left, ran, first⟩ := run_deletion stores.state.redisClient _
    obtain ⟨last, right, again, second⟩ := run_deletion stores.state.redisClient _
    rw [run_of_session named, run_of_session named, Operation.program, ran, again]
    exact ⟨alike.delete first second, fun _ => rfl⟩
  | deleteContexts same =>
    obtain ⟨later, left, ran, first⟩ := run_deletion stores.cache.redisClient _
    obtain ⟨last, right, again, second⟩ := run_deletion stores.cache.redisClient _
    rw [run_of_session named, run_of_session named, Operation.program, ran, again]
    exact ⟨alike.delete first second, fun _ => rfl⟩

end Moves

/-! ### Sequences -/

def StoreWorld.empty : StoreWorld := ⟨.empty, .empty, .empty⟩

section Sequences

variable {stores : Stores} {hidden seen : Str} {one two : StoreWorld}

theorem alike_empty : StoresAlike stores.names.keyPrefix hidden seen .empty .empty where
  suppression := ⟨fun _ _ => rfl, fun _ _ _ => Iff.rfl, fun _ _ => List.not_mem_nil⟩
  cache := ⟨fun _ _ => rfl, fun _ _ _ => Iff.rfl, fun _ _ => List.not_mem_nil⟩
  keys _ _ := rfl

theorem StoresAlike.expire {gone : Str → Bool} {fates : Nat → Fate}
    (alike : StoresAlike stores.names.keyPrefix hidden seen one two) :
    StoresAlike stores.names.keyPrefix hidden seen ((Move.mk (.expire gone) fates).run stores one).world
      ((Move.mk (.expire gone) fates).run stores two).world :=
  alike.delete (fun _ => Keyspace.get_delete) fun _ => Keyspace.get_delete

/-- From worlds that are alike, a sequence with the moves of a hidden session and one without them lead to
worlds that are alike, with the same results on the way. -/
theorem StoresAlike.play (plain : ∀ c ∈ stores.names.keyPrefix, isGlobSpecial c = false) (apart : Apart hidden seen)
    (moves : List Move) (alike : StoresAlike stores.names.keyPrefix hidden seen one two) :
    resultsOf stores seen moves one = resultsOf stores seen (without hidden moves) two ∧
      StoresAlike stores.names.keyPrefix hidden seen (play stores moves one)
        (play stores (without hidden moves) two) := by
  induction moves generalizing one two with
  | nil => exact ⟨rfl, alike⟩
  | cons move moves ih =>
    obtain ⟨operation, fates⟩ := move
    by_cases foreign : operation.session? = some hidden
    · have left : without hidden (⟨operation, fates⟩ :: moves) = without hidden moves := by
        simp [without, foreign]
      have unseen : operation.session? ≠ some seen := by
        rw [foreign]
        exact fun same => apart.distinct (Option.some.inj same)
      rw [left, resultsOf, if_neg unseen]
      exact ih (alike.hidden_move plain apart foreign)
    · have kept : without hidden (⟨operation, fates⟩ :: moves) = ⟨operation, fates⟩ :: without hidden moves := by
        simp [without, foreign]
      rw [kept]
      have moved : StoresAlike stores.names.keyPrefix hidden seen ((Move.mk operation fates).run stores one).world
            ((Move.mk operation fates).run stores two).world ∧
          (operation.session? = some seen → ((Move.mk operation fates).run stores one).outcome =
            ((Move.mk operation fates).run stores two).outcome) := by
        cases named : operation.session? with
        | some session =>
          obtain ⟨after, same⟩ := alike.visible_move (fun same => foreign (named.trans (congrArg some same))) named
          exact ⟨after, fun mine => same (Option.some.inj mine)⟩
        | none =>
          cases operation with
          | expire gone => exact ⟨alike.expire, nofun⟩
          | _ => cases named
      obtain ⟨results, after⟩ := ih moved.1
      refine ⟨?_, after⟩
      unfold resultsOf
      split
      · rename_i mine
        rw [moved.2 mine, results]
      · exact results

end Sequences

/-- Two sessions whose ids are apart are isolated: leaving out all moves of the one changes neither what the
other is answered nor what there is of it, in the maps and in Redis. -/
theorem sessions_isolated (stores : Stores) (plain : ∀ c ∈ stores.names.keyPrefix, isGlobSpecial c = false)
    {session other : Str} (apart : Apart session other) (moves : List Move) :
    resultsOf stores other moves .empty = resultsOf stores other (without session moves) .empty ∧
      StoresAlike stores.names.keyPrefix session other (play stores moves .empty)
        (play stores (without session moves) .empty) :=
  alike_empty.play plain apart moves

/-! ### Runs -/

/-- The digest of the empty prompt. -/
def emptyDigest : List UInt8 :=
  [0xaf, 0x13, 0x49, 0xb9, 0xf5, 0xf9, 0xa1, 0xa6, 0xa0, 0x40, 0x4d, 0xea, 0x36, 0xdc, 0xc9, 0x49,
    0x9b, 0xcb, 0x25, 0xc9, 0xad, 0xc1, 0x12, 0xb7, 0xcc, 0x9a, 0x93, 0xca, 0xe4, 0x1f, 0x32, 0x62]

def sharedStores (keyPrefix : Str) : Stores where
  state := ⟨true, 3600, unaryJson _⟩
  cache := ⟨true, 600, unaryJson _⟩
  names := ⟨fun _ => emptyDigest, keyPrefix⟩

def served (operation : Operation) : Move := ⟨operation, fun _ => .served⟩

def clearedNeighbour : List Move :=
  [served (.markHealthy "b".toList "r".toList 1 []), served (.markHealthy "a".toList "r".toList 1 []),
    served (.clearState "a".toList), served (.isSuppressed "b".toList "r".toList 1)]

theorem sessions_isolated_cleared :
    resultsOf (sharedStores []) "b".toList clearedNeighbour .empty =
      resultsOf (sharedStores []) "b".toList (without "a".toList clearedNeighbour) .empty := by
  have plain : ∀ c ∈ (sharedStores []).names.keyPrefix, isGlobSpecial c = false := List.forall_mem_nil _
  have apart : Apart "a".toList "b".toList := ⟨by decide, by decide, by decide⟩
  exact (sessions_isolated (sharedStores []) plain apart clearedNeighbour).1

def aliasedLookup : List Move :=
  [served (.markHealthy "a".toList "b::r".toList 1 []), served (.isSuppressed "a::b".toList "r".toList 1)]

def longerCached : List Move :=
  [served (.set "a:b".toList [] [] ⟨.ok, none, none, [], 1, []⟩), served (.deleteContexts "a".toList)]

def namedInPath : List Move :=
  [served (.markHealthy "b".toList "suppression:a::r".toList 1 []), served (.deleteState "a".toList)]

/-- One session finds what another one has left under the same key; a deletion takes what is cached for a longer
id; and a pattern in the namespace of the keys matches a name in a path. -/
theorem sessions_mixed :
    (resultsOf (sharedStores []) "a::b".toList aliasedLookup .empty = [.ok (.suppressed true)] ∧
      resultsOf (sharedStores []) "a::b".toList (without "a".toList aliasedLookup) .empty = [.ok (.suppressed false)]) ∧
    ((play (sharedStores []) longerCached .empty).keyspace.get
        (cacheKey (sharedStores []).names "a:b".toList [] []) = none ∧
      ((play (sharedStores []) (without "a".toList longerCached) .empty).keyspace.get
        (cacheKey (sharedStores []).names "a:b".toList [] [])).isSome = true) ∧
    ((play (sharedStores ['*']) namedInPath .empty).keyspace.get
        (redisKey ['*'] "b".toList "suppression:a::r".toList) = none ∧
      ((play (sharedStores ['*']) (without "a".toList namedInPath) .empty).keyspace.get
        (redisKey ['*'] "b".toList "suppression:a::r".toList)).isSome = true) := by
  exact ⟨⟨rfl, rfl⟩, ⟨rfl, rfl⟩, ⟨rfl, rfl⟩⟩

end SkillLayer.McpServer
