import SkillLayer.Threads
import SkillLayer.McpServer.Redis
import SkillLayer.McpServer.SuppressionState

/-! Lookups, records and clears of the suppression state as threads over the local maps and
Redis, and what each of them may do next. -/

namespace SkillLayer.McpServer

/-! ### Calls and tasks -/

inductive SuppressionCall where
  | maps (request : MapCall SuppressionEntry)
  | redis (request : RedisCall)

@[reducible] def SuppressionAnswer : SuppressionCall → Type
  | .maps request => MapAnswer SuppressionEntry request
  | .redis request => RedisAnswer request

structure SuppressionWorld where
  maps : SessionMaps SuppressionEntry
  redis : RedisState

def SuppressionAnswers (id : Nat) : (call : SuppressionCall) → SuppressionWorld → SuppressionAnswer call →
    SuppressionWorld → Prop
  | .maps request, before, answer, after => ∃ maps, MapAnswers request before.maps answer maps ∧
    after = { before with maps := maps }
  | .redis request, before, answer, after => ∃ redis, RedisAnswers id request before.redis answer redis ∧
    after = { before with redis := redis }

inductive SuppressionTask where
  | lookup (sessionId repoPath : Str)
  | record (sessionId repoPath : Str) (graphVersion : Int) (scopesConsidered : List Str)
  | clear (sessionId : Str)

inductive SuppressionResult where
  | found (entry : Option SuppressionEntry)
  | recorded
  | cleared

abbrev SuppressionProgram := Program SuppressionCall SuppressionAnswer Empty

abbrev SuppressionMoment := Moment SuppressionTask SuppressionCall SuppressionAnswer SuppressionResult

abbrev SuppressionPool := Pool SuppressionTask SuppressionCall SuppressionAnswer SuppressionResult SuppressionWorld

def askMaps (request : MapCall SuppressionEntry) : SuppressionProgram (MapAnswer SuppressionEntry request) :=
  Program.ask (SuppressionCall.maps request)

def askStore (request : RedisCall) : SuppressionProgram (RedisAnswer request) :=
  Program.ask (SuppressionCall.redis request)

section Threads

variable (layer : RedisLayer SuppressionEntry) (keyPrefix : Str)

def SuppressionTask.program : SuppressionTask → SuppressionProgram SuppressionResult
  | .lookup sessionId repoPath => do
    let entry ← readThrough askMaps askStore layer keyPrefix sessionId repoPath
    return .found entry
  | .record sessionId repoPath graphVersion scopesConsidered => do
    markHealthy askMaps askStore layer keyPrefix sessionId repoPath graphVersion scopesConsidered
    return .recorded
  | .clear sessionId => do
    clearSuppression askMaps askStore layer keyPrefix sessionId
    return .cleared

/-- A started server, over whatever Redis holds; each session is cleared at most once. -/
def suppressionThreads :
    Threads SuppressionTask SuppressionCall SuppressionAnswer SuppressionResult SuppressionWorld where
  initial world := world.maps = .empty
  program := SuppressionTask.program layer keyPrefix
  mayStart pool
    | .clear sessionId => ∀ id other, .started id (.clear other) ∈ pool.trace → Str.trim other ≠ Str.trim sessionId
    | _ => True
  answers := SuppressionAnswers

end Threads

/-! ### What a thread has still to do -/

/-- An entry in hand is that of a record, or one that a lookup has fetched. -/
inductive SuppressionStage where
  | unstarted
  | looking (sessionId repoPath : Str)
  | missed (sessionId repoPath : Str)
  | nothing
  | found
  | bringing (recording : Bool) (sessionId repoPath : Str)
  | inserted (recording : Bool) (sessionId repoPath : Str)
  | saving (sessionId repoPath : Str)
  | saved
  | clearing (sessionId : Str)
  | evicting (sessionId : Str) (keys : List Str)
  | listing (sessionId : Str)
  | deleting (sessionId : Str) (keys : List Str)
  | swept (sessionId : Str)
  | abandoned (sessionId : Str)

namespace SuppressionStage

variable (layer : RedisLayer SuppressionEntry) (keyPrefix : Str)

def opening : SuppressionTask → SuppressionStage
  | .lookup sessionId repoPath => .looking sessionId repoPath
  | .record sessionId repoPath _ _ => .bringing true sessionId repoPath
  | .clear sessionId => .clearing sessionId

/-- After the index the entry of a record is saved, and that of a lookup is returned. -/
def indexed (recording : Bool) (sessionId repoPath : Str) : SuppressionStage :=
  if recording then .saving sessionId repoPath else .found

/-- What Redis answered to a lookup, when it can be read. -/
def fetched : Except Str (Option Str) → Option SuppressionEntry
  | .ok (some json) => layer.json.fromStr json
  | _ => none

/-- The calls that a thread may make at a stage. -/
inductive Allows : SuppressionStage → SuppressionCall → Prop where
  | look (sessionId repoPath : Str) :
    Allows (.looking sessionId repoPath) (.maps (.get (localKey sessionId repoPath)))
  | fetch (sessionId repoPath : Str) (client : layer.redisClient = true) :
    Allows (.missed sessionId repoPath) (.redis (.get (redisKey keyPrefix sessionId repoPath)))
  | insert (recording : Bool) (sessionId repoPath : Str) (entry : SuppressionEntry) :
    Allows (.bringing recording sessionId repoPath) (.maps (.insert (localKey sessionId repoPath) entry))
  | index (recording : Bool) (sessionId repoPath : Str) :
    Allows (.inserted recording sessionId repoPath)
      (.maps (.index (Str.trim sessionId) (localKey sessionId repoPath)))
  | save (sessionId repoPath value : Str) (ttlSecs : Nat) :
    Allows (.saving sessionId repoPath) (.redis (.setEx (redisKey keyPrefix sessionId repoPath) value ttlSecs))
  | unindex (sessionId : Str) : Allows (.clearing sessionId) (.maps (.unindex (Str.trim sessionId)))
  | evict (sessionId key : Str) (keys : List Str) : Allows (.evicting sessionId (key :: keys)) (.maps (.remove key))
  | scan (sessionId : Str) :
    Allows (.evicting sessionId []) (.redis (.scanBegin (suppressionPattern keyPrefix sessionId)))
  | list (sessionId : Str) :
    Allows (.listing sessionId) (.redis (.scanEnd (suppressionPattern keyPrefix sessionId)))
  | delete (sessionId : Str) (keys : List Str) : Allows (.deleting sessionId keys) (.redis (.del keys))

def discipline : Discipline SuppressionCall SuppressionAnswer SuppressionStage where
  allows := Allows layer keyPrefix
  after
    | .looking sessionId repoPath, .maps (.get _), entry =>
      match entry with
      | some _ => .found
      | none => .missed sessionId repoPath
    | .missed sessionId repoPath, .redis (.get _), answer =>
      match fetched layer answer with
      | some _ => .bringing false sessionId repoPath
      | none => .nothing
    | .bringing recording sessionId repoPath, .maps (.insert _ _), _ => .inserted recording sessionId repoPath
    | .inserted recording sessionId repoPath, .maps (.index _ _), _ => indexed recording sessionId repoPath
    | .saving _ _, .redis (.setEx _ _ _), _ => .saved
    | .clearing sessionId, .maps (.unindex _), keys => .evicting sessionId (keys.getD [])
    | .evicting sessionId keys, .maps (.remove _), _ => .evicting sessionId keys.tail
    | .evicting sessionId _, .redis (.scanBegin _), answer =>
      match answer with
      | .ok _ => .listing sessionId
      | .error _ => .abandoned sessionId
    | .listing sessionId, .redis (.scanEnd _), answer =>
      match answer with
      | .ok keys => .deleting sessionId keys
      | .error _ => .abandoned sessionId
    | .deleting sessionId _, .redis (.del _), answer =>
      match answer with
      | .ok _ => .swept sessionId
      | .error _ => .abandoned sessionId
    | stage, _, _ => stage

/-- A clear at its end: without a client it has only the local keys to remove. -/
def Swept (sessionId : Str) (stage : SuppressionStage) : Prop :=
  (stage = .evicting sessionId [] ∧ layer.redisClient = false) ∨ stage = .deleting sessionId [] ∨
    stage = .swept sessionId ∨ stage = .abandoned sessionId

/-- The stage in which a task returns. -/
def ends : SuppressionTask → SuppressionStage → SuppressionResult → Prop
  | .lookup sessionId repoPath, stage, result =>
    (stage = .found ∧ ∃ entry, result = .found (some entry)) ∨
      ((stage = .nothing ∨ (stage = .missed sessionId repoPath ∧ layer.redisClient = false)) ∧ result = .found none)
  | .record sessionId repoPath _ _, stage, result =>
    (stage = .saved ∨ (stage = .saving sessionId repoPath ∧ layer.redisClient = false)) ∧ result = .recorded
  | .clear sessionId, stage, result => Swept layer sessionId stage ∧ result = .cleared

end SuppressionStage

/-! ### The programs keep to it -/

section Obeys

open SuppressionStage

variable {layer : RedisLayer SuppressionEntry} {keyPrefix sessionId repoPath : Str}

theorem obeys_evicting {keys : List Str} :
    (evict askMaps keys).Obeys (discipline layer keyPrefix)
      (fun stage outcome => outcome = .ok () ∧ stage = .evicting sessionId []) (.evicting sessionId keys) := by
  induction keys with
  | nil => exact ⟨rfl, rfl⟩
  | cons key keys ih => exact ⟨.evict sessionId key keys, fun _ => ih⟩

theorem obeys_scanAndDel :
    (scanAndDelPattern askStore (suppressionPattern keyPrefix sessionId)).Obeys (discipline layer keyPrefix)
      (fun stage outcome => outcome = .ok () ∧ Swept layer sessionId stage) (.evicting sessionId []) := by
  refine ⟨.scan sessionId, fun begun => ?_⟩
  cases begun with
  | error error => exact ⟨rfl, .inr (.inr (.inr rfl))⟩
  | ok _ =>
    refine ⟨.list sessionId, fun listed => ?_⟩
    cases listed with
    | error error => exact ⟨rfl, .inr (.inr (.inr rfl))⟩
    | ok keys =>
      cases keys with
      | nil => exact ⟨rfl, .inr (.inl rfl)⟩
      | cons key keys =>
        refine ⟨.delete sessionId (key :: keys), fun deleted => ?_⟩
        cases deleted with
        | error error => exact ⟨rfl, .inr (.inr (.inr rfl))⟩
        | ok _ => exact ⟨rfl, .inr (.inr (.inl rfl))⟩

theorem obeys_lookup : (SuppressionTask.program layer keyPrefix (.lookup sessionId repoPath)).Obeys
    (discipline layer keyPrefix)
    (fun stage outcome => ∃ result, outcome = .ok result ∧ ends layer (.lookup sessionId repoPath) stage result)
    (.looking sessionId repoPath) := by
  refine ⟨.look sessionId repoPath, fun entry => ?_⟩
  cases entry with
  | some entry => exact ⟨.found (some entry), rfl, .inl ⟨rfl, entry, rfl⟩⟩
  | none =>
    by_cases client : layer.redisClient = true
    · simp only [tryRedisGet, client, if_true, askStore, Program.ask_bind]
      refine ⟨.fetch sessionId repoPath client, fun answer => ?_⟩
      match answer with
      | .error error => exact ⟨.found none, rfl, .inr ⟨.inl rfl, rfl⟩⟩
      | .ok none => exact ⟨.found none, rfl, .inr ⟨.inl rfl, rfl⟩⟩
      | .ok (some json) =>
        simp only [discipline, fetched]
        cases layer.json.fromStr json with
        | none => exact ⟨.found none, rfl, .inr ⟨.inl rfl, rfl⟩⟩
        | some entry =>
          exact ⟨.insert false sessionId repoPath entry, fun _ => ⟨.index false sessionId repoPath,
            fun _ => ⟨.found (some entry), rfl, .inl ⟨rfl, entry, rfl⟩⟩⟩⟩
    · simp only [tryRedisGet, client]
      exact ⟨.found none, rfl, .inr ⟨.inr ⟨rfl, Bool.eq_false_iff.mpr client⟩, rfl⟩⟩

theorem obeys_record {graphVersion : Int} {scopesConsidered : List Str} :
    (SuppressionTask.program layer keyPrefix (.record sessionId repoPath graphVersion scopesConsidered)).Obeys
    (discipline layer keyPrefix)
    (fun stage outcome => ∃ result, outcome = .ok result ∧
      ends layer (.record sessionId repoPath graphVersion scopesConsidered) stage result)
    (.bringing true sessionId repoPath) := by
  refine ⟨.insert true sessionId repoPath _, fun _ => ⟨.index true sessionId repoPath, fun _ => ?_⟩⟩
  by_cases client : layer.redisClient = true
  · simp only [tryRedisSetex, client, if_true, askStore, Program.ask_bind]
    exact ⟨.save sessionId repoPath _ _, fun _ => ⟨.recorded, rfl, .inl rfl, rfl⟩⟩
  · simp only [tryRedisSetex, client]
    exact ⟨.recorded, rfl, .inr ⟨rfl, Bool.eq_false_iff.mpr client⟩, rfl⟩

theorem obeys_clear : (SuppressionTask.program layer keyPrefix (.clear sessionId)).Obeys
    (discipline layer keyPrefix)
    (fun stage outcome => ∃ result, outcome = .ok result ∧ ends layer (.clear sessionId) stage result)
    (.clearing sessionId) := by
  have evicted : (clearLocal askMaps sessionId).Obeys (discipline layer keyPrefix)
      (fun stage outcome => outcome = .ok () ∧ stage = .evicting sessionId []) (.clearing sessionId) := by
    refine ⟨.unindex sessionId, fun keys => ?_⟩
    cases keys with
    | none => exact ⟨rfl, rfl⟩
    | some keys => exact obeys_evicting
  apply Program.Obeys.bind
  apply Program.Obeys.bind
  apply evicted.mono
  intro stage outcome ended
  obtain ⟨rfl, rfl⟩ := ended
  dsimp only
  split
  · apply obeys_scanAndDel.mono
    intro stage outcome ended
    obtain ⟨rfl, swept⟩ := ended
    exact ⟨.cleared, rfl, swept, rfl⟩
  · rename_i client
    exact ⟨.cleared, rfl, .inl ⟨rfl, Bool.eq_false_iff.mpr client⟩, rfl⟩

theorem obeys_suppression (task : SuppressionTask) : (task.program layer keyPrefix).Obeys
    (discipline layer keyPrefix)
    (fun stage outcome => ∃ result, outcome = .ok result ∧ ends layer task stage result) (opening task) := by
  cases task with
  | lookup sessionId repoPath => exact obeys_lookup
  | record sessionId repoPath graphVersion scopesConsidered => exact obeys_record
  | clear sessionId => exact obeys_clear

end Obeys
end SkillLayer.McpServer
