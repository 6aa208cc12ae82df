import SkillLayer.McpServer.Server

/-! How far a call of the server has come, and which calls it may make next. -/

namespace SkillLayer.McpServer

open Retrieval

variable {engine : SearchEngine}

namespace CompileContextRequest

def key (request : CompileContextRequest) : Str := localKey request.sessionId request.repoPath

def session (request : CompileContextRequest) : Str := Str.trim request.sessionId

end CompileContextRequest

namespace CompileContextTool

variable (tool : CompileContextTool engine) (request : CompileContextRequest)

def sharedKey : Str := redisKey tool.names.keyPrefix request.sessionId request.repoPath

def contextKey : Str := cacheKey tool.names request.sessionId request.prompt tool.configuredScopes

end CompileContextTool

/-- The suppression entry of an outcome. -/
def markOf (outcome : RetrievalOutcome engine) : SuppressionEntry :=
  ⟨true, outcome.graphVersion, outcome.scopesConsidered⟩

/-- What an answer of Redis is read as. -/
def readEntry {Entry : Type} (json : EntryJson Entry) : Except Str (Option Str) → Option Entry
  | .ok (some text) => json.fromStr text
  | _ => none

inductive ServerLedger (engine : SearchEngine) where
  | asking (request : CompileContextRequest)
  | looking (request : CompileContextRequest) (version : Int)
  | restoring (request : CompileContextRequest) (entry : SuppressionEntry) (next : ServerLedger engine)
  | restored (request : CompileContextRequest) (next : ServerLedger engine)
  | suppressed (request : CompileContextRequest) (version : Int)
  | searching (request : CompileContextRequest) (version : Int)
  | sharing (request : CompileContextRequest) (version : Int) (entry : CachedContext)
  | found (request : CompileContextRequest) (version : Int) (entry : CachedContext)
  | retrieved (request : CompileContextRequest) (outcome : RetrievalOutcome engine)
  | inserted (request : CompileContextRequest) (outcome : RetrievalOutcome engine)
  | marked (request : CompileContextRequest) (outcome : RetrievalOutcome engine)
  | clearing (sessionId : Str)
  | evicting (sessionId : Str) (keys : List Str)
  | uncaching
  | swapping

namespace ServerLedger

def opening : ServerTask engine → ServerLedger engine
  | .compile request => .asking request
  | .clearState sessionId => .clearing sessionId
  | .clearContexts _ => .uncaching
  | .swap _ => .swapping

/-- Past a suppression entry. -/
def past (request : CompileContextRequest) (version : Int) (entry : SuppressionEntry) : ServerLedger engine :=
  if entry.suppresses version then .suppressed request version else .searching request version

/-- Past an entry of Redis, if it was read as one. -/
def restore (request : CompileContextRequest) (found : Option SuppressionEntry)
    (past : SuppressionEntry → ServerLedger engine) (missed : ServerLedger engine) : ServerLedger engine :=
  match found with
  | some entry => .restoring request entry (past entry)
  | none => missed

/-- Past a context of Redis, if it was read as one of the version. -/
def share (request : CompileContextRequest) (version : Int) : Option CachedContext → ServerLedger engine
  | some entry => if entry.graphVersion = version then .sharing request version entry else .searching request version
  | none => .searching request version

end ServerLedger

variable (tool : CompileContextTool engine)

/-- The calls of each stage. -/
inductive ServerLedger.Allows : ServerLedger engine → ServerCall engine → Prop where
  | ask {request : CompileContextRequest} : Allows (.asking request) .currentGraphVersion
  | look {request : CompileContextRequest} {version : Int} :
      Allows (.looking request version) (.suppression (.get request.key))
  | lookShared {request : CompileContextRequest} {version : Int} (client : tool.state.redisClient = true) :
      Allows (.looking request version) (.redis (.get (tool.sharedKey request)))
  | lookAgain {request : CompileContextRequest} {version : Int} :
      Allows (.suppressed request version) (.suppression (.get request.key))
  | lookSharedAgain {request : CompileContextRequest} {version : Int} (client : tool.state.redisClient = true) :
      Allows (.suppressed request version) (.redis (.get (tool.sharedKey request)))
  | timeSuppressed {request : CompileContextRequest} {version : Int} :
      Allows (.suppressed request version) .elapsedMillis
  | restore {request : CompileContextRequest} {entry : SuppressionEntry} {next : ServerLedger engine} :
      Allows (.restoring request entry next) (.suppression (.insert request.key entry))
  | indexRestored {request : CompileContextRequest} {next : ServerLedger engine} :
      Allows (.restored request next) (.suppression (.index request.session request.key))
  | search {request : CompileContextRequest} {version : Int} :
      Allows (.searching request version) (.cache (.get (tool.contextKey request)))
  | searchShared {request : CompileContextRequest} {version : Int} (client : tool.cache.redisClient = true) :
      Allows (.searching request version) (.redis (.get (tool.contextKey request)))
  | retrieve {request : CompileContextRequest} {version : Int} :
      Allows (.searching request version) (.retrieve request.prompt (some request.repoPath))
  | share {request : CompileContextRequest} {version : Int} {entry : CachedContext} :
      Allows (.sharing request version entry) (.cache (.insert (tool.contextKey request) entry))
  | indexFound {request : CompileContextRequest} {version : Int} {entry : CachedContext} :
      Allows (.found request version entry) (.cache (.index request.session (tool.contextKey request)))
  | timeFound {request : CompileContextRequest} {version : Int} {entry : CachedContext} :
      Allows (.found request version entry) .elapsedMillis
  | mark {request : CompileContextRequest} {outcome : RetrievalOutcome engine}
      (healthy : outcome.isDegraded = false) :
      Allows (.retrieved request outcome) (.suppression (.insert request.key (markOf outcome)))
  | indexMarked {request : CompileContextRequest} {outcome : RetrievalOutcome engine} :
      Allows (.inserted request outcome) (.suppression (.index request.session request.key))
  | shareMark {request : CompileContextRequest} {outcome : RetrievalOutcome engine} {ttlSecs : Nat}
      (client : tool.state.redisClient = true) :
      Allows (.marked request outcome)
        (.redis (.setEx (tool.sharedKey request) (tool.state.json.toString (markOf outcome)) ttlSecs))
  | cache {request : CompileContextRequest} {outcome : RetrievalOutcome engine} :
      Allows (.marked request outcome)
        (.cache (.insert (tool.contextKey request) (tool.contextOf request outcome)))
  | indexCached {request : CompileContextRequest} {outcome : RetrievalOutcome engine} :
      Allows (.marked request outcome) (.cache (.index request.session (tool.contextKey request)))
  | shareContext {request : CompileContextRequest} {outcome : RetrievalOutcome engine} {ttlSecs : Nat}
      (client : tool.cache.redisClient = true) :
      Allows (.marked request outcome)
        (.redis (.setEx (tool.contextKey request) (tool.cache.json.toString (tool.contextOf request outcome))
          ttlSecs))
  | unindex {sessionId : Str} : Allows (.clearing sessionId) (.suppression (.unindex (Str.trim sessionId)))
  | evict {sessionId key : Str} {keys : List Str} :
      Allows (.evicting sessionId (key :: keys)) (.suppression (.remove key))
  | scanState {sessionId pattern : Str} (client : tool.state.redisClient = true) :
      Allows (.evicting sessionId []) (.redis (.scanBegin pattern))
  | scannedState {sessionId pattern : Str} (client : tool.state.redisClient = true) :
      Allows (.evicting sessionId []) (.redis (.scanEnd pattern))
  | delState {sessionId : Str} {keys : List Str} (client : tool.state.redisClient = true) :
      Allows (.evicting sessionId []) (.redis (.del keys))
  | unindexContexts {session : Str} : Allows .uncaching (.cache (.unindex session))
  | evictContext {key : Str} : Allows .uncaching (.cache (.remove key))
  | scanContexts {pattern : Str} (client : tool.cache.redisClient = true) :
      Allows .uncaching (.redis (.scanBegin pattern))
  | scannedContexts {pattern : Str} (client : tool.cache.redisClient = true) :
      Allows .uncaching (.redis (.scanEnd pattern))
  | delContexts {keys : List Str} (client : tool.cache.redisClient = true) :
      Allows .uncaching (.redis (.del keys))
  | swap {incoming : GraphSnapshot engine.Graph} : Allows .swapping (.swapGraph incoming)

/-- The stage after an answer. -/
def ServerLedger.after : ServerLedger engine → (request : ServerCall engine) → ServerAnswer engine request →
    ServerLedger engine
  | .asking request, .currentGraphVersion, version =>
    if request.trigger = some .compact then .searching request version else .looking request version
  | .looking request version, .suppression (.get _), some entry => .past request version entry
  | .looking request version, .suppression (.get _), none =>
    if tool.state.redisClient then .looking request version else .searching request version
  | .looking request version, .redis (.get _), answer =>
    .restore request (readEntry tool.state.json answer) (.past request version) (.searching request version)
  | .suppressed request version, .redis (.get _), answer =>
    .restore request (readEntry tool.state.json answer) (fun _ => .suppressed request version)
      (.suppressed request version)
  | .restoring request _ next, .suppression (.insert _ _), _ => .restored request next
  | .restored _ next, .suppression (.index _ _), _ => next
  | .searching request version, .cache (.get _), some entry =>
    if entry.graphVersion = version then .found request version entry else .searching request version
  | .searching request version, .redis (.get _), answer =>
    .share request version (readEntry tool.cache.json answer)
  | .searching request _, .retrieve _ _, outcome => .retrieved request outcome
  | .sharing request version entry, .cache (.insert _ _), _ => .found request version entry
  | .retrieved request outcome, .suppression (.insert _ _), _ => .inserted request outcome
  | .inserted request outcome, .suppression (.index _ _), _ => .marked request outcome
  | .clearing sessionId, .suppression (.unindex _), keys => .evicting sessionId (keys.getD [])
  | .evicting sessionId keys, .suppression (.remove _), _ => .evicting sessionId keys.tail
  | ledger, _, _ => ledger

def serverDiscipline : Discipline (ServerCall engine) (ServerAnswer engine) (ServerLedger engine) where
  allows := ServerLedger.Allows tool
  after := ServerLedger.after tool

/-- Which results fit the last stage of a task. -/
inductive Ended : ServerTask engine → ServerLedger engine → ServerResult engine → Prop where
  | suppressed {request : CompileContextRequest} {version : Int} {response : CompileContextResponse}
      (status : response.status = .duplicateSuppressed) :
      Ended (.compile request) (.suppressed request version) (.compiled response none)
  | found {request : CompileContextRequest} {version : Int} {entry : CachedContext} (latencyMs : Nat) :
      Ended (.compile request) (.found request version entry)
        (.compiled (CompileContextTool.cachedResponse entry latencyMs) none)
  | degraded {request : CompileContextRequest} {outcome : RetrievalOutcome engine}
      (degraded : outcome.isDegraded = true) :
      Ended (.compile request) (.retrieved request outcome)
        (.compiled (tool.responseOf request outcome) (some outcome))
  | marked {request : CompileContextRequest} {outcome : RetrievalOutcome engine}
      (healthy : outcome.isDegraded = false) :
      Ended (.compile request) (.marked request outcome)
        (.compiled (tool.responseOf request outcome) (some outcome))
  | cleared {sessionId : Str} : Ended (.clearState sessionId) (.evicting sessionId []) .cleared
  | uncached {sessionId : Str} : Ended (.clearContexts sessionId) .uncaching .cleared
  | swapped {incoming : GraphSnapshot engine.Graph} {applied : Bool} :
      Ended (.swap incoming) .swapping (.swapped applied)

/-! ### The programs keep to it -/

variable {tool} {request : CompileContextRequest} {version : Int} {outcome : RetrievalOutcome engine}

theorem readEntry_none {Entry : Type} {json : EntryJson Entry} {answer : Except Str (Option Str)}
    (missing : ∀ text, answer ≠ .ok (some text)) : readEntry json answer = none := by
  unfold readEntry
  split
  · rename_i text
    exact absurd rfl (missing text)
  · rfl

/-- A read of Redis takes a ledger to what its answer is read as. -/
theorem obeys_tryRedisGet {Entry : Type} {layer : RedisLayer Entry} {key : Str} (ledger : ServerLedger engine)
    (next : Option Entry → ServerLedger engine) (absent : layer.redisClient = false → ledger = next none)
    (allowed : layer.redisClient = true → ledger.Allows tool (.redis (.get key)))
    (after : layer.redisClient = true → ∀ answer,
      ledger.after tool (.redis (.get key)) answer = next (readEntry layer.json answer)) :
    (tryRedisGet askRedis layer key : ServerProgram engine _).Obeys (serverDiscipline tool)
      (fun left outcome => ∃ found, outcome = .ok found ∧ left = next found) ledger := by
  unfold tryRedisGet askRedis
  split
  · rename_i client
    simp only [Program.ask_bind]
    refine ⟨allowed client, fun answer => ?_⟩
    have moved : (serverDiscipline tool).after ledger (.redis (.get key)) answer =
      next (readEntry layer.json answer) := after client answer
    rw [moved]
    dsimp only
    split
    · rename_i text
      exact ⟨_, rfl, rfl⟩
    · rename_i missing
      exact ⟨none, rfl, by rw [readEntry_none missing]⟩
  · rename_i client
    exact ⟨none, rfl, absent (Bool.eq_false_iff.mpr client)⟩

theorem obeys_restore {entry : SuppressionEntry} {next : ServerLedger engine} :
    (recordLocal askSuppression request.sessionId request.key entry : ServerProgram engine Unit).Obeys
      (serverDiscipline tool) (fun left outcome => outcome = .ok () ∧ left = next)
      (.restoring request entry next) :=
  ⟨.restore, fun _ => ⟨.indexRestored, fun _ => ⟨rfl, rfl⟩⟩⟩

/-- A lookup from a stage that a found entry takes to one, and a missing one to another. -/
theorem obeys_readThrough (ledger missed : ServerLedger engine) (past : SuppressionEntry → ServerLedger engine)
    (get : ledger.Allows tool (.suppression (.get request.key)))
    (hit : ∀ entry : SuppressionEntry, ledger.after tool (.suppression (.get request.key)) (some entry) = past entry)
    (absent : tool.state.redisClient = false →
      ledger.after tool (.suppression (.get request.key)) none = missed)
    (present : tool.state.redisClient = true →
      ledger.after tool (.suppression (.get request.key)) none = ledger)
    (allowed : tool.state.redisClient = true → ledger.Allows tool (.redis (.get (tool.sharedKey request))))
    (shared : ∀ answer, ledger.after tool (.redis (.get (tool.sharedKey request))) answer =
      .restore request (readEntry tool.state.json answer) past missed) :
    (readThrough askSuppression askRedis tool.state tool.names.keyPrefix request.sessionId request.repoPath :
      ServerProgram engine _).Obeys (serverDiscipline tool)
      (fun left outcome => ∃ found : Option SuppressionEntry, outcome = .ok found ∧
        left = found.elim missed past) ledger := by
  unfold readThrough
  simp only [askSuppression, Program.ask_bind]
  refine ⟨get, fun answer => ?_⟩
  cases answer with
  | some entry => exact ⟨some entry, rfl, hit entry⟩
  | none =>
    have read : (tryRedisGet askRedis tool.state (tool.sharedKey request) : ServerProgram engine _).Obeys
        (serverDiscipline tool)
        (fun left outcome => ∃ found, outcome = .ok found ∧ left = .restore request found past missed)
        (ledger.after tool (.suppression (.get request.key)) none) := by
      cases client : tool.state.redisClient with
      | false =>
        rw [absent client]
        apply obeys_tryRedisGet missed _ fun _ => rfl
        · intro other
          cases client.symm.trans other
        · intro other
          cases client.symm.trans other
      | true =>
        rw [present client]
        apply obeys_tryRedisGet ledger _ _ allowed fun _ => shared
        intro other
        cases client.symm.trans other
    apply Program.Obeys.bind
    apply read.mono
    intro left outcome found
    obtain ⟨found, rfl, rfl⟩ := found
    cases found with
    | none => exact ⟨none, rfl, rfl⟩
    | some entry =>
      apply Program.Obeys.bind
      apply obeys_restore.mono
      intro left outcome restored
      obtain ⟨rfl, rfl⟩ := restored
      exact ⟨some entry, rfl, rfl⟩

theorem obeys_looking : (isSuppressed askSuppression askRedis tool.state tool.names.keyPrefix request.sessionId
    request.repoPath version : ServerProgram engine _).Obeys (serverDiscipline tool)
    (fun left outcome => (outcome = .ok true ∧ left = .suppressed request version) ∨
      (outcome = .ok false ∧ left = .searching request version)) (.looking request version) := by
  apply Program.Obeys.bind
  apply (obeys_readThrough (.looking request version) (.searching request version)
    (.past request version) .look (fun _ => rfl) _ _ .lookShared (fun _ => rfl)).mono
  · intro left outcome ended
    obtain ⟨found, rfl, rfl⟩ := ended
    cases found with
    | none => exact .inr ⟨rfl, rfl⟩
    | some entry =>
      cases matched : entry.suppresses version with
      | true => exact .inl ⟨congrArg Except.ok matched, by simp [ServerLedger.past, matched]⟩
      | false => exact .inr ⟨congrArg Except.ok matched, by simp [ServerLedger.past, matched]⟩
  · intro absent
    simp [ServerLedger.after, absent]
  · intro present
    simp [ServerLedger.after, present]

/-- A further lookup of a suppressed request. -/
theorem obeys_suppressed {Value : Type} {read : Option SuppressionEntry → Value} :
    (readThrough askSuppression askRedis tool.state tool.names.keyPrefix request.sessionId request.repoPath >>=
      fun found => return read found : ServerProgram engine Value).Obeys (serverDiscipline tool)
    (fun left outcome => ∃ value, outcome = .ok value ∧ left = .suppressed request version)
    (.suppressed request version) := by
  apply Program.Obeys.bind
  apply (obeys_readThrough (.suppressed request version) (.suppressed request version)
    (fun _ => .suppressed request version) .lookAgain (fun _ => rfl) (fun _ => rfl) (fun _ => rfl)
    .lookSharedAgain (fun _ => rfl)).mono
  intro left outcome ended
  obtain ⟨found, rfl, rfl⟩ := ended
  refine ⟨read found, rfl, ?_⟩
  cases found <;> rfl

theorem obeys_answerSuppressed : (tool.answerSuppressed request version).Obeys (serverDiscipline tool)
    (fun left outcome => ∃ response, outcome = .ok response ∧ response.status = .duplicateSuppressed ∧
      left = .suppressed request version) (.suppressed request version) := by
  apply Program.Obeys.bind
  apply obeys_suppressed.mono
  intro left outcome ended
  obtain ⟨graphVersion, rfl, rfl⟩ := ended
  apply Program.Obeys.bind
  apply obeys_suppressed.mono
  intro left outcome ended
  obtain ⟨scopes, rfl, rfl⟩ := ended
  exact ⟨.timeSuppressed, fun latencyMs => ⟨_, rfl, rfl, rfl⟩⟩

theorem obeys_getShared : (getShared askCache askRedis tool.cache request.sessionId (tool.contextKey request)
    version : ServerProgram engine _).Obeys (serverDiscipline tool)
    (fun left outcome => ∃ found : Option CachedContext, outcome = .ok found ∧
      left = found.elim (.searching request version) (.found request version))
    (.searching request version) := by
  apply Program.Obeys.bind
  apply (obeys_tryRedisGet (.searching request version) (.share request version) (fun _ => rfl)
    .searchShared (fun _ _ => rfl)).mono
  intro left outcome ended
  obtain ⟨found, rfl, rfl⟩ := ended
  cases found with
  | none => exact ⟨none, rfl, rfl⟩
  | some entry =>
    by_cases wanted : entry.graphVersion = version
    · simp only [ServerLedger.share, wanted, if_true]
      apply Program.Obeys.bind
      exact ⟨.share, fun _ => ⟨.indexFound, fun _ => ⟨some entry, rfl, rfl⟩⟩⟩
    · simp only [ServerLedger.share, wanted, if_false]
      exact ⟨none, rfl, rfl⟩

theorem obeys_tryCache : (tool.tryCache request version).Obeys (serverDiscipline tool)
    (fun left outcome => (outcome = .ok none ∧ left = .searching request version) ∨
      ∃ entry latencyMs, outcome = .ok (some (CompileContextTool.cachedResponse entry latencyMs)) ∧
        left = .found request version entry) (.searching request version) := by
  have cached : (getCached askCache askRedis tool.cache tool.names request.sessionId request.prompt
      tool.configuredScopes version : ServerProgram engine _).Obeys (serverDiscipline tool)
      (fun left outcome => ∃ found : Option CachedContext, outcome = .ok found ∧
        left = found.elim (.searching request version) (.found request version))
      (.searching request version) := by
    simp only [getCached, askCache, Program.ask_bind]
    refine ⟨.search, fun answer => ?_⟩
    cases answer with
    | none => exact obeys_getShared
    | some entry =>
      by_cases wanted : entry.graphVersion = version
      · simp [ServerLedger.after, serverDiscipline, wanted]
      · simp only [ServerLedger.after, serverDiscipline, wanted, if_false]
        exact obeys_getShared
  apply Program.Obeys.bind
  apply cached.mono
  intro left outcome ended
  obtain ⟨found, rfl, rfl⟩ := ended
  cases found with
  | none => exact .inl ⟨rfl, rfl⟩
  | some entry => exact ⟨.timeFound, fun latencyMs => .inr ⟨entry, latencyMs, rfl, rfl⟩⟩

/-- A write to Redis that a stage allows leaves it as it is. -/
theorem obeys_tryRedisSetex {Entry : Type} {layer : RedisLayer Entry} {key : Str} {entry : Entry}
    (ledger : ServerLedger engine)
    (allowed : layer.redisClient = true →
      ledger.Allows tool (.redis (.setEx key (layer.json.toString entry) layer.ttlSecs)))
    (stays : ∀ answer, ledger.after tool (.redis (.setEx key (layer.json.toString entry) layer.ttlSecs)) answer =
      ledger) :
    (tryRedisSetex askRedis layer key entry : ServerProgram engine Unit).Obeys (serverDiscipline tool)
      (fun left outcome => outcome = .ok () ∧ left = ledger) ledger := by
  unfold tryRedisSetex
  split
  · rename_i client
    exact ⟨allowed client, fun answer => ⟨rfl, stays answer⟩⟩
  · exact ⟨rfl, rfl⟩

theorem obeys_markAndCache (healthy : outcome.isDegraded = false) :
    (tool.markAndCache request outcome (tool.contextOf request outcome)).Obeys (serverDiscipline tool)
      (fun left result => result = .ok () ∧ left = .marked request outcome) (.retrieved request outcome) := by
  apply Program.Obeys.bind
  refine ⟨.mark healthy, fun _ => ⟨.indexMarked, fun _ => ?_⟩⟩
  apply (obeys_tryRedisSetex (.marked request outcome) .shareMark (fun _ => rfl)).mono
  intro left result ended
  obtain ⟨rfl, rfl⟩ := ended
  refine ⟨.cache, fun _ => ⟨.indexCached, fun _ => ?_⟩⟩
  exact obeys_tryRedisSetex (.marked request outcome) .shareContext (fun _ => rfl)

theorem obeys_retrieveAndHandle : (tool.retrieveAndHandle request).Obeys (serverDiscipline tool)
    (fun left result => ∃ response outcome, result = .ok (response, outcome) ∧
      Ended tool (.compile request) left (.compiled response outcome)) (.searching request version) := by
  simp only [CompileContextTool.retrieveAndHandle, Program.ask_bind]
  refine ⟨.retrieve, fun answer => ?_⟩
  have stage : (serverDiscipline tool).after (.searching request version)
      (.retrieve request.prompt (some request.repoPath)) answer = .retrieved request answer := rfl
  rw [stage]
  generalize (answer : RetrievalOutcome engine) = outcome
  apply Program.Obeys.bind
  rw [CompileContextTool.handleRetrievalResult_eq]
  split
  · rename_i degraded
    exact ⟨_, _, rfl, .degraded degraded⟩
  · rename_i healthy
    apply Program.Obeys.bind
    apply (obeys_markAndCache (Bool.eq_false_iff.mpr healthy)).mono
    intro left result ended
    obtain ⟨rfl, rfl⟩ := ended
    exact ⟨_, _, rfl, .marked (Bool.eq_false_iff.mpr healthy)⟩

theorem obeys_invoke : (tool.invokeAndCaptureOutcome request).Obeys (serverDiscipline tool)
    (fun left result => ∃ response outcome, result = .ok (response, outcome) ∧
      Ended tool (.compile request) left (.compiled response outcome)) (.asking request) := by
  simp only [CompileContextTool.invokeAndCaptureOutcome, Program.ask_bind]
  refine ⟨.ask, fun version => ?_⟩
  by_cases compact : request.trigger = some .compact
  · have stage : (serverDiscipline tool).after (.asking request) .currentGraphVersion version =
        .searching request version := if_pos compact
    rw [stage]
    dsimp only
    rw [if_pos compact]
    exact obeys_retrieveAndHandle
  · have stage : (serverDiscipline tool).after (.asking request) .currentGraphVersion version =
        .looking request version := if_neg compact
    rw [stage]
    dsimp only
    rw [if_neg compact]
    apply Program.Obeys.bind
    apply Program.Obeys.bind
    apply obeys_looking.mono
    intro left result ended
    rcases ended with ⟨rfl, rfl⟩ | ⟨rfl, rfl⟩
    · apply Program.Obeys.bind
      apply obeys_answerSuppressed.mono
      intro left result ended
      obtain ⟨response, rfl, status, rfl⟩ := ended
      exact ⟨_, _, rfl, .suppressed status⟩
    · apply obeys_tryCache.mono
      intro left result ended
      rcases ended with ⟨rfl, rfl⟩ | ⟨entry, latencyMs, rfl, rfl⟩
      · exact obeys_retrieveAndHandle
      · exact ⟨_, _, rfl, .found latencyMs⟩

/-! ### Clears -/

theorem obeys_scanAndDelPattern {pattern : Str} {ledger : ServerLedger engine}
    (begins : ledger.Allows tool (.redis (.scanBegin pattern)))
    (scans : ledger.Allows tool (.redis (.scanEnd pattern)))
    (deletes : ∀ keys, ledger.Allows tool (.redis (.del keys)))
    (stays : ∀ request answer, ledger.after tool (.redis request) answer = ledger) :
    (scanAndDelPattern askRedis pattern : ServerProgram engine Unit).Obeys (serverDiscipline tool)
      (fun left outcome => outcome = .ok () ∧ left = ledger) ledger := by
  have stays (request : RedisCall) (answer : RedisAnswer request) :
      (serverDiscipline tool).after ledger (.redis request) answer = ledger := stays request answer
  simp only [scanAndDelPattern, askRedis, Program.ask_bind]
  refine ⟨begins, fun answer => ?_⟩
  rw [stays]
  cases answer with
  | error error => exact ⟨rfl, rfl⟩
  | ok _ =>
    refine ⟨scans, fun answer => ?_⟩
    rw [stays]
    cases answer with
    | error error => exact ⟨rfl, rfl⟩
    | ok keys =>
      dsimp only
      split
      · exact ⟨rfl, rfl⟩
      · exact ⟨deletes keys, fun answer => ⟨rfl, stays (.del keys) answer⟩⟩

theorem obeys_evictState {sessionId : Str} {keys : List Str} :
    (evict askSuppression keys : ServerProgram engine Unit).Obeys (serverDiscipline tool)
      (fun left outcome => outcome = .ok () ∧ left = .evicting sessionId []) (.evicting sessionId keys) := by
  induction keys with
  | nil => exact ⟨rfl, rfl⟩
  | cons key keys ih => exact ⟨.evict, fun _ => ih⟩

theorem obeys_evictContexts {keys : List Str} :
    (evict askCache keys : ServerProgram engine Unit).Obeys (serverDiscipline tool)
      (fun left outcome => outcome = .ok () ∧ left = .uncaching) .uncaching := by
  induction keys with
  | nil => exact ⟨rfl, rfl⟩
  | cons key keys ih => exact ⟨.evictContext, fun _ => ih⟩

theorem obeys_clearSuppression {sessionId : Str} :
    (clearSuppression askSuppression askRedis tool.state tool.names.keyPrefix sessionId :
      ServerProgram engine Unit).Obeys (serverDiscipline tool)
      (fun left outcome => outcome = .ok () ∧ left = .evicting sessionId []) (.clearing sessionId) := by
  have evicted : (clearLocal askSuppression sessionId : ServerProgram engine Unit).Obeys (serverDiscipline tool)
      (fun left outcome => outcome = .ok () ∧ left = .evicting sessionId []) (.clearing sessionId) := by
    refine ⟨.unindex, fun keys => ?_⟩
    cases keys with
    | none => exact ⟨rfl, rfl⟩
    | some keys => exact obeys_evictState
  apply Program.Obeys.bind
  apply evicted.mono
  intro left outcome ended
  obtain ⟨rfl, rfl⟩ := ended
  dsimp only
  split
  · rename_i client
    apply obeys_scanAndDelPattern (.scanState client) (.scannedState client) fun _ => .delState client
    intro request answer
    cases request <;> rfl
  · exact ⟨rfl, rfl⟩

theorem obeys_clearCache {sessionId : Str} :
    (clearCache askCache askRedis tool.cache tool.names sessionId : ServerProgram engine Unit).Obeys
      (serverDiscipline tool) (fun left outcome => outcome = .ok () ∧ left = .uncaching) .uncaching := by
  have evicted : (clearLocal askCache sessionId : ServerProgram engine Unit).Obeys (serverDiscipline tool)
      (fun left outcome => outcome = .ok () ∧ left = .uncaching) .uncaching := by
    refine ⟨.unindexContexts, fun keys => ?_⟩
    cases keys with
    | none => exact ⟨rfl, rfl⟩
    | some keys => exact obeys_evictContexts
  apply Program.Obeys.bind
  apply evicted.mono
  intro left outcome ended
  obtain ⟨rfl, rfl⟩ := ended
  dsimp only
  split
  · rename_i client
    apply obeys_scanAndDelPattern (.scanContexts client) (.scannedContexts client) fun _ => .delContexts client
    intro request answer
    cases request <;> rfl
  · exact ⟨rfl, rfl⟩

theorem obeys_task (task : ServerTask engine) : (task.program tool).Obeys (serverDiscipline tool)
    (fun left outcome => ∃ result, outcome = .ok result ∧ Ended tool task left result)
    (ServerLedger.opening task) := by
  cases task with
  | compile request =>
    apply Program.Obeys.bind
    apply obeys_invoke.mono
    intro left result ended
    obtain ⟨response, outcome, rfl, ended⟩ := ended
    exact ⟨_, rfl, ended⟩
  | clearState sessionId =>
    apply Program.Obeys.bind
    apply obeys_clearSuppression.mono
    intro left result ended
    obtain ⟨rfl, rfl⟩ := ended
    exact ⟨_, rfl, .cleared⟩
  | clearContexts sessionId =>
    apply Program.Obeys.bind
    apply obeys_clearCache.mono
    intro left result ended
    obtain ⟨rfl, rfl⟩ := ended
    exact ⟨_, rfl, .uncached⟩
  | swap incoming => exact ⟨.swap, fun applied => ⟨_, rfl, .swapped⟩⟩

end SkillLayer.McpServer
