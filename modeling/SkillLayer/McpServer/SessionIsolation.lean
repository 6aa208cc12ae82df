import SkillLayer.McpServer.ContextCache
import SkillLayer.McpServer.Redis

/-! What one session sees of another: the stores under any calls one after the other, with and
without the calls of a session. -/

namespace SkillLayer.McpServer

/-! ### Ids at the boundary -/

def isSessionIdChar (c : Char) : Bool := c.isAlphanum || c == '_' || c == '-'

/-- The ids that a request may carry; the messages quote them in the form `debug` gives. -/
def validateSessionId (debug : Str → Str) (sessionId : Str) : Except Str Unit :=
  if "::".toList <:+: sessionId then
    .error ("session_id must not contain '::' (separator collision risk): " ++ debug sessionId)
  else if sessionId.all isSessionIdChar then .ok ()
  else .error ("session_id must contain only [A-Za-z0-9_-]: " ++ debug sessionId)

/-- Neither id begins with the other and a separator. -/
structure Apart (session other : Str) : Prop where
  distinct : session ≠ other
  before : ¬session ++ [':'] <+: other
  after : ¬other ++ [':'] <+: session

theorem apart_of_validated {debug : Str → Str} {session other : Str} (one : validateSessionId debug session = .ok ())
    (two : validateSessionId debug other = .ok ()) (distinct : Str.trim session ≠ Str.trim other) :
    Apart (Str.trim session) (Str.trim other) := by
  have plain {id : Str} (valid : validateSessionId debug id = .ok ()) : ':' ∉ Str.trim id := by
    unfold validateSessionId at valid
    split at valid
    · cases valid
    · split at valid
      · rename_i all
        intro member
        have allowed := List.all_eq_true.mp all ':' (Str.mem_of_mem_trim member)
        exact absurd allowed (by decide)
      · cases valid
  refine ⟨distinct, fun begins => plain two (begins.subset ?_), fun begins => plain one (begins.subset ?_)⟩
  · exact List.mem_append_right _ (List.mem_singleton_self _)
  · exact List.mem_append_right _ (List.mem_singleton_self _)

/-! ### The stores and their calls -/

inductive StoreCall where
  | suppression (request : MapCall SuppressionEntry)
  | cache (request : MapCall CachedContext)
  | redis (request : RedisCall)

@[reducible] def StoreAnswer : StoreCall → Type
  | .suppression request => MapAnswer SuppressionEntry request
  | .cache request => MapAnswer CachedContext request
  | .redis request => RedisAnswer request

structure StoreWorld where
  suppression : SessionMaps SuppressionEntry
  cache : SessionMaps CachedContext
  keyspace : Keyspace

def serveStores (fates : Nat → Fate) (calls : Nat) : (request : StoreCall) → StoreWorld →
    StoreAnswer request × StoreWorld
  | .suppression request, world =>
    ((serveMaps request world.suppression).1, { world with suppression := (serveMaps request world.suppression).2 })
  | .cache request, world => ((serveMaps request world.cache).1, { world with cache := (serveMaps request world.cache).2 })
  | .redis request, world => ((serveRedis (fates calls) request world.keyspace).1,
    { world with keyspace := (serveRedis (fates calls) request world.keyspace).2 })

structure Stores where
  state : RedisLayer SuppressionEntry
  cache : RedisLayer CachedContext
  names : CacheNames

abbrev StoreProgram := Program StoreCall StoreAnswer Empty

def askState (request : MapCall SuppressionEntry) : StoreProgram (MapAnswer SuppressionEntry request) :=
  Program.ask (StoreCall.suppression request)

def askContexts (request : MapCall CachedContext) : StoreProgram (MapAnswer CachedContext request) :=
  Program.ask (StoreCall.cache request)

def askKeys (request : RedisCall) : StoreProgram (RedisAnswer request) := Program.ask (StoreCall.redis request)

/-- The calls of the two stores. A clear removes local entries and leaves a deletion behind,
which may come at any later time; and keys may expire. -/
inductive Operation where
  | isSuppressed (sessionId repoPath : Str) (graphVersion : Int)
  | graphVersion (sessionId repoPath : Str)
  | scopesConsidered (sessionId repoPath : Str)
  | markHealthy (sessionId repoPath : Str) (graphVersion : Int) (scopesConsidered : List Str)
  | get (sessionId prompt : Str) (configuredScopes : List Str) (graphVersion : Int)
  | set (sessionId prompt : Str) (configuredScopes : List Str) (entry : CachedContext)
  | clearState (sessionId : Str)
  | deleteState (sessionId : Str)
  | clearContexts (sessionId : Str)
  | deleteContexts (sessionId : Str)
  | expire (gone : Str → Bool)

inductive OperationResult where
  | suppressed (answer : Bool)
  | version (found : Option Int)
  | scopes (found : Option (List Str))
  | context (found : Option CachedContext)
  | done

namespace Operation

/-- The session that an operation is for. -/
def session? : Operation → Option Str
  | .isSuppressed sessionId _ _ => some (Str.trim sessionId)
  | .graphVersion sessionId _ => some (Str.trim sessionId)
  | .scopesConsidered sessionId _ => some (Str.trim sessionId)
  | .markHealthy sessionId _ _ _ => some (Str.trim sessionId)
  | .get sessionId _ _ _ => some (Str.trim sessionId)
  | .set sessionId _ _ _ => some (Str.trim sessionId)
  | .clearState sessionId => some (Str.trim sessionId)
  | .deleteState sessionId => some (Str.trim sessionId)
  | .clearContexts sessionId => some (Str.trim sessionId)
  | .deleteContexts sessionId => some (Str.trim sessionId)
  | .expire _ => none

variable (stores : Stores)

def program : Operation → StoreProgram OperationResult
  | .isSuppressed sessionId repoPath version => do
    let answer ← McpServer.isSuppressed askState askKeys stores.state stores.names.keyPrefix sessionId repoPath version
    return .suppressed answer
  | .graphVersion sessionId repoPath => do
    let found ← suppressedVersion askState askKeys stores.state stores.names.keyPrefix sessionId repoPath
    return .version found
  | .scopesConsidered sessionId repoPath => do
    let found ← suppressedScopes askState askKeys stores.state stores.names.keyPrefix sessionId repoPath
    return .scopes found
  | .markHealthy sessionId repoPath version scopes => do
    McpServer.markHealthy askState askKeys stores.state stores.names.keyPrefix sessionId repoPath version scopes
    return .done
  | .get sessionId prompt configuredScopes version => do
    let found ← getCached askContexts askKeys stores.cache stores.names sessionId prompt configuredScopes version
    return .context found
  | .set sessionId prompt configuredScopes entry => do
    setCached askContexts askKeys stores.cache stores.names sessionId prompt configuredScopes entry
    return .done
  | .clearState sessionId => do
    clearLocal askState sessionId
    return .done
  | .deleteState sessionId => do
    if stores.state.redisClient then
      scanAndDelPattern askKeys (suppressionPattern stores.names.keyPrefix sessionId)
    return .done
  | .clearContexts sessionId => do
    clearLocal askContexts sessionId
    return .done
  | .deleteContexts sessionId => do
    if stores.cache.redisClient then scanAndDelPattern askKeys (cachePattern stores.names.keyPrefix sessionId)
    return .done
  | .expire _ => return .done

end Operation

/-! ### Sequences -/

/-- An operation, with the fate of each of its Redis calls. -/
structure Move where
  operation : Operation
  fates : Nat → Fate

section Play

variable (stores : Stores)

/-- The world that a move leaves, and what it returns. -/
def Move.run (move : Move) (world : StoreWorld) : Finished Empty OperationResult StoreWorld :=
  match move.operation with
  | .expire gone => ⟨.ok .done, 0, { world with keyspace := world.keyspace.delete gone }⟩
  | operation => (operation.program stores).run (serveStores move.fates) 0 world

def play : List Move → StoreWorld → StoreWorld
  | [], world => world
  | move :: moves, world => play moves (move.run stores world).world

/-- What the operations of a session return, in order. -/
def resultsOf (session : Str) : List Move → StoreWorld → List (Except Empty OperationResult)
  | [], _ => []
  | move :: moves, world =>
    if move.operation.session? = some session then
      (move.run stores world).outcome :: resultsOf session moves (move.run stores world).world
    else resultsOf session moves (move.run stores world).world

end Play

/-- The moves that are not for the session. -/
def without (session : Str) (moves : List Move) : List Move :=
  moves.filter fun move => move.operation.session? ≠ some session

/-! ### Worlds that agree on what is of a session -/

/-- The keys of the cache, and all keys in Redis, that begin as those of the session do. -/
def OwnContext (keyPrefix session key : Str) : Prop := ∃ rest, key = keyPrefix ++ "cache:" ++ session ++ ":" ++ rest

def OwnRedis (keyPrefix session key : Str) : Prop :=
  (∃ local', Own session local' ∧ key = keyPrefix ++ "suppression:" ++ local') ∨ OwnContext keyPrefix session key

section Alike

variable {Entry : Type}

/-- Maps that agree on some keys, none of which the index lists for a hidden session. -/
structure MapsAlike (hidden : Str) (mine : Str → Prop) (one two : SessionMaps Entry) : Prop where
  inner : ∀ key, mine key → one.inner key = two.inner key
  indexed : ∀ session key, mine key → (key ∈ one.indexed session ↔ key ∈ two.indexed session)
  apart : ∀ key, mine key → key ∉ one.indexed hidden

structure StoresAlike (keyPrefix hidden seen : Str) (one two : StoreWorld) : Prop where
  suppression : MapsAlike hidden (Own seen) one.suppression two.suppression
  cache : MapsAlike hidden (OwnContext keyPrefix seen) one.cache two.cache
  keys : ∀ key, OwnRedis keyPrefix seen key → one.keyspace.get key = two.keyspace.get key

variable {hidden session key : Str} {mine : Str → Prop} {one two : SessionMaps Entry} {entry : Entry}

theorem MapsAlike.symm (alike : MapsAlike hidden mine one two) : MapsAlike hidden mine two one where
  inner key own := (alike.inner key own).symm
  indexed session key own := (alike.indexed session key own).symm
  apart key own listed := alike.apart key own ((alike.indexed hidden key own).mpr listed)

theorem MapsAlike.insert (alike : MapsAlike hidden mine one two) :
    MapsAlike hidden mine (one.insert key entry) (two.insert key entry) where
  inner other own := by
    rw [SessionMaps.inner_insert, SessionMaps.inner_insert]
    by_cases same : other = key
    · rw [same, Function.update_self, Function.update_self]
    · rw [Function.update_of_ne same, Function.update_of_ne same, alike.inner other own]
  indexed := alike.indexed
  apart := alike.apart

theorem MapsAlike.index (alike : MapsAlike hidden mine one two) (distinct : session ≠ hidden) :
    MapsAlike hidden mine (one.index session key) (two.index session key) where
  inner := alike.inner
  indexed other otherKey own := by
    rw [SessionMaps.mem_indexed_index, SessionMaps.mem_indexed_index, alike.indexed other otherKey own]
  apart otherKey own listed := by
    rcases SessionMaps.mem_indexed_index.mp listed with ⟨same, -⟩ | listed
    · exact distinct same.symm
    · exact alike.apart otherKey own listed

theorem MapsAlike.insert_other (alike : MapsAlike hidden mine one two) (other : ¬mine key) :
    MapsAlike hidden mine (one.insert key entry) two where
  inner otherKey own := by
    have different : otherKey ≠ key := by
      rintro rfl
      exact other own
    rw [SessionMaps.inner_insert, Function.update_of_ne different, alike.inner otherKey own]
  indexed := alike.indexed
  apart := alike.apart

theorem MapsAlike.index_other (alike : MapsAlike hidden mine one two) (other : ¬mine key) :
    MapsAlike hidden mine (one.index session key) two where
  inner := alike.inner
  indexed otherSession otherKey own := by
    rw [SessionMaps.mem_indexed_index, ← alike.indexed otherSession otherKey own]
    constructor
    · intro listed
      rcases listed with ⟨-, rfl⟩ | listed
      · exact absurd own other
      · exact listed
    · exact .inr
  apart otherKey own listed := by
    rcases SessionMaps.mem_indexed_index.mp listed with ⟨-, rfl⟩ | listed
    · exact other own
    · exact alike.apart otherKey own listed

/-- What a local clear leaves. -/
structure ClearedMaps (session : Str) (before after : SessionMaps Entry) : Prop where
  inner : ∀ key, after.inner key = if key ∈ before.indexed session then none else before.inner key
  indexed : ∀ other key, key ∈ after.indexed other ↔ other ≠ session ∧ key ∈ before.indexed other

theorem MapsAlike.clear (alike : MapsAlike hidden mine one two) {left right : SessionMaps Entry}
    (first : ClearedMaps session one left) (second : ClearedMaps session two right) :
    MapsAlike hidden mine left right where
  inner key own := by
    rw [first.inner, second.inner, alike.inner key own]
    simp only [alike.indexed session key own]
  indexed other key own := by rw [first.indexed, second.indexed, alike.indexed other key own]
  apart key own listed := alike.apart key own ((first.indexed hidden key).mp listed).2

theorem MapsAlike.clear_hidden (alike : MapsAlike hidden mine one two) {left : SessionMaps Entry}
    (cleared : ClearedMaps hidden one left) : MapsAlike hidden mine left two where
  inner key own := by rw [cleared.inner, if_neg (alike.apart key own), alike.inner key own]
  indexed other key own := by
    rw [cleared.indexed, ← alike.indexed other key own]
    refine ⟨And.right, fun listed => ⟨?_, listed⟩⟩
    rintro rfl
    exact alike.apart key own listed
  apart key own listed := alike.apart key own ((cleared.indexed hidden key).mp listed).2

theorem StoresAlike.symm {keyPrefix seen : Str} {one two : StoreWorld} (alike : StoresAlike keyPrefix hidden seen one two) :
    StoresAlike keyPrefix hidden seen two one :=
  ⟨alike.suppression.symm, alike.cache.symm, fun key own => (alike.keys key own).symm⟩

end Alike

/-! ### Keys of sessions that are apart -/

theorem Apart.disjoint {session other key : Str} (apart : Apart session other) (own : session ++ [':'] <+: key) :
    ¬other ++ [':'] <+: key := by
  intro others
  rcases List.prefix_or_prefix_of_prefix own others with begins | begins
  · rcases List.prefix_concat_iff.mp begins with same | within
    · exact apart.distinct (List.append_inj' same rfl).1
    · exact apart.before within
  · rcases List.prefix_concat_iff.mp begins with same | within
    · exact apart.distinct (List.append_inj' same rfl).1.symm
    · exact apart.after within

theorem Apart.own {session other key : Str} (apart : Apart session other) (own : Own session key) : ¬Own other key := by
  intro others
  obtain ⟨rest, rfl⟩ := own
  obtain ⟨more, same⟩ := others
  refine apart.disjoint (?_ : session ++ [':'] <+: session ++ "::" ++ rest) ?_
  · exact ⟨':' :: rest, by simp⟩
  · rw [same]
    exact ⟨':' :: more, by simp⟩

theorem Apart.context {keyPrefix session other key : Str} (apart : Apart session other)
    (own : OwnContext keyPrefix session key) : ¬OwnContext keyPrefix other key := by
  intro others
  obtain ⟨rest, rfl⟩ := own
  obtain ⟨more, same⟩ := others
  simp only [List.append_assoc] at same
  have same := List.append_cancel_left (List.append_cancel_left same)
  refine apart.disjoint (?_ : session ++ [':'] <+: session ++ (":".toList ++ rest)) ?_
  · exact ⟨rest, by simp⟩
  · rw [same]
    exact ⟨more, by simp⟩

theorem suppression_ne_cache {keyPrefix key rest : Str} :
    keyPrefix ++ "suppression:" ++ key ≠ keyPrefix ++ "cache:" ++ rest := by
  intro same
  simp only [List.append_assoc] at same
  exact absurd (List.cons.inj (List.append_cancel_left same)).1 (by decide)

theorem ownRedis_state {keyPrefix session key : Str} :
    OwnRedis keyPrefix session (keyPrefix ++ "suppression:" ++ key) ↔ Own session key := by
  constructor
  · intro own
    rcases own with ⟨other, own, same⟩ | ⟨rest, same⟩
    · exact List.append_cancel_left same ▸ own
    · simp at same
  · exact fun own => .inl ⟨key, own, rfl⟩

theorem ownRedis_context {keyPrefix session key : Str} :
    OwnRedis keyPrefix session (keyPrefix ++ "cache:" ++ key) ↔
      OwnContext keyPrefix session (keyPrefix ++ "cache:" ++ key) := by
  constructor
  · intro own
    rcases own with ⟨other, -, same⟩ | own
    · exact absurd same.symm suppression_ne_cache
    · exact own
  · exact .inr

/-! ### The calls of an operation -/

/-- The calls on one key of the suppression state, for a session. -/
inductive StateCall (keyPrefix session key : Str) : StoreCall → Prop where
  | get : StateCall keyPrefix session key (.suppression (.get key))
  | insert (entry : SuppressionEntry) : StateCall keyPrefix session key (.suppression (.insert key entry))
  | index : StateCall keyPrefix session key (.suppression (.index session key))
  | fetch : StateCall keyPrefix session key (.redis (.get (keyPrefix ++ "suppression:" ++ key)))
  | save (value : Str) (ttlSecs : Nat) :
    StateCall keyPrefix session key (.redis (.setEx (keyPrefix ++ "suppression:" ++ key) value ttlSecs))

/-- The calls on one key of the cache, for a session. -/
inductive ContextCall (session key : Str) : StoreCall → Prop where
  | get : ContextCall session key (.cache (.get key))
  | insert (entry : CachedContext) : ContextCall session key (.cache (.insert key entry))
  | index : ContextCall session key (.cache (.index session key))
  | fetch : ContextCall session key (.redis (.get key))
  | save (value : Str) (ttlSecs : Nat) : ContextCall session key (.redis (.setEx key value ttlSecs))

section Calls

variable {layer : RedisLayer SuppressionEntry} {contexts : RedisLayer CachedContext} {names : CacheNames}
  {keyPrefix sessionId repoPath prompt : Str} {configuredScopes : List Str}

theorem calls_readThrough : (readThrough askState askKeys layer keyPrefix sessionId repoPath).Calls
    (StateCall keyPrefix (Str.trim sessionId) (localKey sessionId repoPath)) := by
  simp only [readThrough, askState, Program.ask_bind]
  refine ⟨.get, fun entry => ?_⟩
  cases entry with
  | some entry => trivial
  | none =>
    apply Program.Calls.bind
    · unfold tryRedisGet
      split
      · rw [redisKey_eq]
        refine ⟨.fetch, fun answer => ?_⟩
        match answer with
        | .error error => trivial
        | .ok none => trivial
        | .ok (some json) => trivial
      · trivial
    · intro found
      cases found with
      | none => trivial
      | some entry => exact ⟨.insert entry, fun _ => ⟨.index, fun _ => trivial⟩⟩

theorem calls_markHealthy {graphVersion : Int} {scopesConsidered : List Str} :
    (markHealthy askState askKeys layer keyPrefix sessionId repoPath graphVersion scopesConsidered).Calls
      (StateCall keyPrefix (Str.trim sessionId) (localKey sessionId repoPath)) := by
  refine ⟨.insert _, fun _ => ⟨.index, fun _ => ?_⟩⟩
  unfold tryRedisSetex
  split
  · rw [redisKey_eq]
    exact ⟨.save _ _, fun _ => trivial⟩
  · trivial

theorem calls_getCached {graphVersion : Int} :
    (getCached askContexts askKeys contexts names sessionId prompt configuredScopes graphVersion).Calls
      (ContextCall (Str.trim sessionId) (cacheKey names sessionId prompt configuredScopes)) := by
  have shared : (getShared askContexts askKeys contexts sessionId (cacheKey names sessionId prompt configuredScopes)
      graphVersion).Calls (ContextCall (Str.trim sessionId) (cacheKey names sessionId prompt configuredScopes)) := by
    apply Program.Calls.bind
    · unfold tryRedisGet
      split
      · refine ⟨.fetch, fun answer => ?_⟩
        match answer with
        | .error error => trivial
        | .ok none => trivial
        | .ok (some json) => trivial
      · trivial
    · intro found
      cases found with
      | none => trivial
      | some entry =>
        dsimp only
        split
        · exact ⟨.insert entry, fun _ => ⟨.index, fun _ => trivial⟩⟩
        · trivial
  simp only [getCached, askContexts, Program.ask_bind]
  refine ⟨.get, fun entry => ?_⟩
  cases entry with
  | none => exact shared
  | some entry =>
    dsimp only
    split
    · trivial
    · exact shared

theorem calls_setCached {entry : CachedContext} :
    (setCached askContexts askKeys contexts names sessionId prompt configuredScopes entry).Calls
      (ContextCall (Str.trim sessionId) (cacheKey names sessionId prompt configuredScopes)) := by
  refine ⟨.insert entry, fun _ => ⟨.index, fun _ => ?_⟩⟩
  unfold tryRedisSetex
  split
  · exact ⟨.save _ _, fun _ => trivial⟩
  · trivial

end Calls

section Served

variable {keyPrefix hidden seen session key : Str} {request : StoreCall} {fates : Nat → Fate} {calls : Nat}
  {one two : StoreWorld}

/-- A write of one key to Redis, which may fail, leaves alike what was alike. -/
theorem keys_setEx {left right : Keyspace} {fate : Fate} {written value : Str} {ttlSecs : Nat}
    (same : left.get key = right.get key) :
    (serveRedis fate (.setEx written value ttlSecs) left).2.get key =
      (serveRedis fate (.setEx written value ttlSecs) right).2.get key := by
  cases fate with
  | refused => exact same
  | served | lost =>
    change (left.write written value).get key = (right.write written value).get key
    rw [Keyspace.get_write, Keyspace.get_write, same]

theorem keys_setEx_other {left : Keyspace} {fate : Fate} {written value : Str} {ttlSecs : Nat} (other : key ≠ written) :
    (serveRedis fate (.setEx written value ttlSecs) left).2.get key = left.get key := by
  cases fate with
  | refused => rfl
  | served | lost =>
    change (left.write written value).get key = left.get key
    rw [Keyspace.get_write, if_neg other]

theorem answer_get {left right : Keyspace} {fate : Fate} (same : left.get key = right.get key) :
    (serveRedis fate (.get key) left).1 = (serveRedis fate (.get key) right).1 := by
  cases fate with
  | served => exact congrArg Except.ok same
  | refused | lost => rfl

theorem keyspace_get {left : Keyspace} {fate : Fate} : (serveRedis fate (.get key) left).2 = left := by
  cases fate <;> rfl

theorem StateCall.alike (call : StateCall keyPrefix session key request) (own : Own seen key)
    (distinct : session ≠ hidden) (alike : StoresAlike keyPrefix hidden seen one two) :
    (serveStores fates calls request one).1 = (serveStores fates calls request two).1 ∧
      StoresAlike keyPrefix hidden seen (serveStores fates calls request one).2
        (serveStores fates calls request two).2 := by
  have shared := alike.keys _ (ownRedis_state.mpr own)
  cases call with
  | get => exact ⟨alike.suppression.inner key own, alike⟩
  | insert entry => exact ⟨rfl, alike.suppression.insert, alike.cache, alike.keys⟩
  | index => exact ⟨rfl, alike.suppression.index distinct, alike.cache, alike.keys⟩
  | fetch =>
    refine ⟨answer_get shared, alike.suppression, alike.cache, fun other own => ?_⟩
    simp only [serveStores, keyspace_get]
    exact alike.keys other own
  | save value ttlSecs =>
    refine ⟨?_, alike.suppression, alike.cache, fun other own => keys_setEx (alike.keys other own)⟩
    simp only [serveStores, serveRedis]
    split <;> rfl

theorem StateCall.other (call : StateCall keyPrefix session key request) (other : ¬Own seen key)
    (alike : StoresAlike keyPrefix hidden seen one two) :
    StoresAlike keyPrefix hidden seen (serveStores fates calls request one).2 two := by
  cases call with
  | get => exact alike
  | insert entry => exact ⟨alike.suppression.insert_other other, alike.cache, alike.keys⟩
  | index => exact ⟨alike.suppression.index_other other, alike.cache, alike.keys⟩
  | fetch =>
    refine ⟨alike.suppression, alike.cache, fun otherKey own => ?_⟩
    simp only [serveStores, keyspace_get]
    exact alike.keys otherKey own
  | save value ttlSecs =>
    refine ⟨alike.suppression, alike.cache, fun otherKey own => ?_⟩
    have different : otherKey ≠ keyPrefix ++ "suppression:" ++ key := by
      rintro rfl
      exact other (ownRedis_state.mp own)
    exact (keys_setEx_other different).trans (alike.keys otherKey own)

theorem ContextCall.alike (call : ContextCall session key request) (own : OwnContext keyPrefix seen key)
    (distinct : session ≠ hidden) (alike : StoresAlike keyPrefix hidden seen one two) :
    (serveStores fates calls request one).1 = (serveStores fates calls request two).1 ∧
      StoresAlike keyPrefix hidden seen (serveStores fates calls request one).2
        (serveStores fates calls request two).2 := by
  cases call with
  | get => exact ⟨alike.cache.inner key own, alike⟩
  | insert entry => exact ⟨rfl, alike.suppression, alike.cache.insert, alike.keys⟩
  | index => exact ⟨rfl, alike.suppression, alike.cache.index distinct, alike.keys⟩
  | fetch =>
    refine ⟨answer_get (alike.keys key (.inr own)), alike.suppression, alike.cache, fun other own => ?_⟩
    simp only [serveStores, keyspace_get]
    exact alike.keys other own
  | save value ttlSecs =>
    refine ⟨?_, alike.suppression, alike.cache, fun other own => keys_setEx (alike.keys other own)⟩
    simp only [serveStores, serveRedis]
    split <;> rfl

theorem ContextCall.other (call : ContextCall session key request) (named : ∃ rest, key = keyPrefix ++ "cache:" ++ rest)
    (other : ¬OwnContext keyPrefix seen key) (alike : StoresAlike keyPrefix hidden seen one two) :
    StoresAlike keyPrefix hidden seen (serveStores fates calls request one).2 two := by
  cases call with
  | get => exact alike
  | insert entry => exact ⟨alike.suppression, alike.cache.insert_other other, alike.keys⟩
  | index => exact ⟨alike.suppression, alike.cache.index_other other, alike.keys⟩
  | fetch =>
    refine ⟨alike.suppression, alike.cache, fun otherKey own => ?_⟩
    simp only [serveStores, keyspace_get]
    exact alike.keys otherKey own
  | save value ttlSecs =>
    refine ⟨alike.suppression, alike.cache, fun otherKey own => ?_⟩
    have different : otherKey ≠ key := by
      rintro rfl
      obtain ⟨rest, rfl⟩ := named
      exact other (ownRedis_context.mp own)
    exact (keys_setEx_other different).trans (alike.keys otherKey own)

end Served

/-! ### Clears and deletions -/

section Clears

variable {Entry : Type} {ask : (request : MapCall Entry) → StoreProgram (MapAnswer Entry request)}
  {read : StoreWorld → SessionMaps Entry} {write : StoreWorld → SessionMaps Entry → StoreWorld}
  {fates : Nat → Fate}

theorem inner_removed (keys : List Str) (maps : SessionMaps Entry) (key : Str) :
    (keys.foldl SessionMaps.remove maps).inner key = if key ∈ keys then none else maps.inner key := by
  induction keys generalizing maps with
  | nil => rfl
  | cons first keys ih =>
    rw [List.foldl_cons, ih, SessionMaps.inner_remove]
    by_cases later : key ∈ keys
    · rw [if_pos later, if_pos (List.mem_cons_of_mem _ later)]
    · rw [if_neg later]
      by_cases same : key = first
      · rw [same, Function.update_self, if_pos List.mem_cons_self]
      · rw [Function.update_of_ne same, if_neg (List.not_mem_cons_of_ne_of_not_mem same later)]

theorem indexed_removed (keys : List Str) (maps : SessionMaps Entry) (session : Str) :
    (keys.foldl SessionMaps.remove maps).indexed session = maps.indexed session := by
  induction keys generalizing maps with
  | nil => rfl
  | cons first keys ih => rw [List.foldl_cons, ih, SessionMaps.indexed_remove]

/-- The calls of one of the two maps, on its place in the world. -/
structure Asks (fates : Nat → Fate) (ask : (request : MapCall Entry) → StoreProgram (MapAnswer Entry request))
    (read : StoreWorld → SessionMaps Entry) (write : StoreWorld → SessionMaps Entry → StoreWorld) : Prop where
  run : ∀ request calls world, (ask request).run (serveStores fates) calls world =
    ⟨.ok (serveMaps request (read world)).1, calls + 1, write world (serveMaps request (read world)).2⟩
  read_write : ∀ world maps, read (write world maps) = maps
  write_write : ∀ world maps more, write (write world maps) more = write world more
  write_read : ∀ world, write world (read world) = world

variable (fates) in
theorem asks_state : Asks fates askState StoreWorld.suppression fun world maps => { world with suppression := maps } :=
  ⟨fun _ _ _ => rfl, fun _ _ => rfl, fun _ _ _ => rfl, fun _ => rfl⟩

variable (fates) in
theorem asks_contexts : Asks fates askContexts StoreWorld.cache fun world maps => { world with cache := maps } :=
  ⟨fun _ _ _ => rfl, fun _ _ => rfl, fun _ _ _ => rfl, fun _ => rfl⟩

theorem run_evictStored (asks : Asks fates ask read write) (keys : List Str) (calls : Nat) (world : StoreWorld) :
    ∃ later, (evict ask keys).run (serveStores fates) calls world =
      ⟨.ok (), later, write world (keys.foldl SessionMaps.remove (read world))⟩ := by
  induction keys generalizing calls world with
  | nil =>
    refine ⟨calls, ?_⟩
    rw [List.foldl_nil, asks.write_read]
    rfl
  | cons key keys ih =>
    obtain ⟨later, rest⟩ := ih (calls + 1) (write world ((read world).remove key))
    refine ⟨later, ?_⟩
    rw [evict, Program.run_bind, asks.run]
    refine rest.trans ?_
    rw [asks.write_write, asks.read_write, List.foldl_cons]

theorem run_clearStored (asks : Asks fates ask read write) (sessionId : Str) (calls : Nat) (world : StoreWorld) :
    ∃ later maps, (clearLocal ask sessionId).run (serveStores fates) calls world = ⟨.ok (), later, write world maps⟩ ∧
      ClearedMaps (Str.trim sessionId) (read world) maps := by
  have unindexed (keys : List Str) (all : (read world).indexed (Str.trim sessionId) = keys) :
      ClearedMaps (Str.trim sessionId) (read world)
        (keys.foldl SessionMaps.remove ((read world).unindex (Str.trim sessionId))) := by
    constructor
    · intro key
      rw [inner_removed, all, SessionMaps.inner_unindex]
    · intro other key
      rw [indexed_removed, SessionMaps.mem_indexed_unindex]
  rw [clearLocal, Program.run_bind, asks.run]
  dsimp only [serveMaps]
  cases listed : (read world).sessionIndex (Str.trim sessionId) with
  | none =>
    refine ⟨calls + 1, _, rfl, unindexed [] ?_⟩
    rw [SessionMaps.indexed, listed]
    rfl
  | some keys =>
    obtain ⟨later, rest⟩ := run_evictStored asks keys (calls + 1) (write world ((read world).unindex (Str.trim sessionId)))
    refine ⟨later, _, rest.trans ?_, unindexed keys ?_⟩
    · rw [asks.write_write, asks.read_write]
    · rw [SessionMaps.indexed, listed]
      rfl

/-- The scan and the deletion after it were both carried out. -/
def swept (fates : Nat → Fate) (calls : Nat) : Bool :=
  fates calls == .served && fates (calls + 1) == .served && fates (calls + 2) != .refused

variable (fates) in
/-- A deletion takes the matching keys, or none. -/
theorem run_scanAndDel (pattern : Str) (calls : Nat) (world : StoreWorld) :
    ∃ later keyspace, (scanAndDelPattern askKeys pattern).run (serveStores fates) calls world =
        ⟨.ok (), later, { world with keyspace := keyspace }⟩ ∧
      ∀ key, keyspace.get key =
        if swept fates calls && globMatches .plain pattern key then none else world.keyspace.get key := by
  have kept (unswept : swept fates calls = false) (key : Str) : world.keyspace.get key =
      if swept fates calls && globMatches .plain pattern key then none else world.keyspace.get key := by
    rw [unswept]
    rfl
  simp only [scanAndDelPattern, askKeys, Program.ask_bind, Program.run_call, serveStores]
  cases begun : fates calls with
  | refused | lost => exact ⟨calls + 1, world.keyspace, rfl, kept (by simp [swept, begun])⟩
  | served =>
    simp only [serveRedis, Keyspace.answer, Keyspace.after, Program.run_call, serveStores]
    cases listed : fates (calls + 1) with
    | refused | lost => exact ⟨calls + 1 + 1, world.keyspace, rfl, kept (by simp [swept, listed])⟩
    | served =>
      dsimp only
      have matching (key : Str) : globMatches .plain pattern key = true →
          key ∉ world.keyspace.scan pattern → world.keyspace.get key = none := by
        intro matched unlisted
        by_contra present
        exact unlisted (Keyspace.mem_scan.mpr ⟨Option.isSome_iff_ne_none.mpr present, matched⟩)
      split
      · rename_i empty
        refine ⟨calls + 1 + 1, world.keyspace, rfl, fun key => ?_⟩
        split
        · rename_i gone
          apply matching key (Bool.and_eq_true _ _ ▸ gone).2
          rw [List.isEmpty_iff.mp empty]
          exact List.not_mem_nil
        · rfl
      · simp only [Program.run_call, serveStores]
        cases deleted : fates (calls + 1 + 1) with
        | refused => exact ⟨calls + 1 + 1 + 1, world.keyspace, rfl, kept (by simp [swept, deleted])⟩
        | served | lost =>
          refine ⟨calls + 1 + 1 + 1, _, rfl, fun key => ?_⟩
          have all : swept fates calls = true := by simp [swept, begun, listed, deleted]
          rw [all, Bool.true_and]
          simp only [serveRedis, Keyspace.after, Keyspace.get_delete, List.contains_iff_mem]
          by_cases matched : globMatches .plain pattern key = true
          · rw [if_pos matched]
            split
            · rfl
            · rename_i unlisted
              exact matching key matched unlisted
          · rw [if_neg matched, if_neg]
            intro scanned
            exact matched (Keyspace.mem_scan.mp scanned).2

end Clears

end SkillLayer.McpServer
