import SkillLayer.McpServer.Protocol

/-! What `tools/list` says about the arguments of a tool, beside what `tools/call` takes. -/

namespace SkillLayer.McpServer

open Infrastructure (ExtractSessionRequest)

/-! ### Schemas of flat objects -/

namespace Schema

def properties (schema : Value) : List (Str × Value) :=
  match schema.get? "properties" with
  | some (.object members) => members
  | _ => []

def declaredType (property : Value) : Option Str := (property.get? "type").bind Value.asStr?

def requiredNames (schema : Value) : List Str := (((schema.get? "required").bind Value.asArray?).getD []).filterMap Value.asStr?

/-- The properties whose values are strings. -/
def stringNames (schema : Value) : List Str :=
  ((properties schema).filter fun property => declaredType property.2 == some "string".toList).map Prod.fst

end Schema

inductive OfType : Str → Value → Prop
  | string (text : Str) : OfType "string" (.string text)
  | integer (whole : Int) : OfType "integer" (.number whole)

/-- The required names are there, and each declared property that is there has its type. -/
structure Conforms (schema : Value) (members : List (Str × Value)) : Prop where
  required : ∀ name ∈ Schema.requiredNames schema, ∃ value, members.lookup name = some value
  typed : ∀ property ∈ Schema.properties schema, ∀ value type, members.lookup property.1 = some value →
    Schema.declaredType property.2 = some type → OfType type value

/-- What a schema does not say: a session id is valid, an inline transcript is within the limit in
bytes, and a limit is a count. -/
structure Acceptable (serde : RequestSerde) (debug : Str → Str) (schema : Value) (members : List (Str × Value)) : Prop where
  session : ∀ text, "session_id".toList ∈ Schema.stringNames schema →
    members.lookup "session_id".toList = some (.string text) → validateSessionId debug text = .ok ()
  inline : ∀ text, "transcript_inline".toList ∈ Schema.stringNames schema →
    members.lookup "transcript_inline".toList = some (.string text) → Str.byteLength text ≤ mcpBodyLimitBytes
  limit : ∀ value, members.lookup "limit".toList = some value → ∃ count, serde.usize? value = some count

/-- What a client reads from the reply to `tools/list`: names and schemas. -/
def advertised (listing : JsonRpcResponse) : List (Str × Value) :=
  (((listing.result.bind fun payload => payload.get? "tools").bind Value.asArray?).getD []).filterMap fun entry =>
    ((entry.get? "name").bind Value.asStr?).bind fun name => (entry.get? "inputSchema").map fun schema => (name, schema)

/-! ### Calls read back -/

namespace ToolCall

def tool : ToolCall → Str
  | .compileContext _ => "compile_context"
  | .findSkill _ => "find_skill"
  | .extractSession _ => "extract_session"
  | .rebuildGraph => "rebuild_graph"
  | .rebuildGraphStatus _ => "rebuild_graph_status"
  | .inspectSkill _ => "inspect_skill"
  | .listCommunities => "list_communities"

/-- The texts of a request under the names of its fields. -/
def texts : ToolCall → List (Str × Option Str)
  | .compileContext request =>
    [("prompt", some request.prompt), ("session_id", some request.sessionId), ("repo_path", some request.repoPath)]
  | .findSkill request => [("prompt", some request.prompt)]
  | .extractSession request =>
    [("transcript_ref", some request.transcriptRef), ("transcript_inline", request.transcriptInline),
      ("session_id", some request.sessionId), ("repo_path", request.repoPath)]
  | .rebuildGraph => []
  | .rebuildGraphStatus jobId => [("job_id", some jobId)]
  | .inspectSkill skillId => [("skill_id", some skillId)]
  | .listCommunities => []

def argument? (call : ToolCall) (name : Str) : Option Value := ((call.texts.lookup name).join).map .string

end ToolCall

/-! ### Readers over conforming objects -/

section Conforming

variable {serde : RequestSerde} {debug : Str → Str} {id : Option Value} {members : List (Str × Value)}
variable {ps : List (Str × Value)} {required : List Str} {name : Str} {schema : Value}

theorem requiredNames_objectSchema : Schema.requiredNames (objectSchema ps required) = required := by
  have kept : (required.map Value.string).filterMap Value.asStr? = required := by
    rw [List.filterMap_map]
    exact List.filterMap_some
  exact kept

/-- A declared string that is there is a string. -/
theorem Conforms.string {description : Value} {value : Value} (conforms : Conforms (objectSchema ps required) members)
    (declared : (name, description) ∈ ps) (string : Schema.declaredType description = some "string".toList)
    (found : members.lookup name = some value) : ∃ text, value = .string text := by
  have typed := conforms.typed (name, description) declared value _ found string
  generalize spelled : "string".toList = type at typed
  cases typed with
  | string text => exact ⟨text, rfl⟩
  | integer whole => cases spelled

theorem Conforms.text {description : Value} (conforms : Conforms (objectSchema ps required) members) (name : Str)
    (needed : name ∈ required) (declared : (name, description) ∈ ps)
    (string : Schema.declaredType description = some "string".toList) : ∃ text, members.lookup name = some (.string text) := by
  obtain ⟨value, found⟩ := conforms.required name (requiredNames_objectSchema.symm ▸ needed)
  obtain ⟨text, rfl⟩ := conforms.string declared string found
  exact ⟨text, found⟩

/-- An optional string is absent, or there as a string. -/
theorem Conforms.optional {description : Value} (conforms : Conforms (objectSchema ps required) members) (name : Str)
    (declared : (name, description) ∈ ps) (string : Schema.declaredType description = some "string".toList) :
    ∃ text : Option Str, members.lookup name = text.map .string := by
  cases found : members.lookup name with
  | none => exact ⟨none, rfl⟩
  | some value =>
    obtain ⟨text, rfl⟩ := conforms.string declared string found
    exact ⟨some text, rfl⟩

theorem take_text (distinct : (members.map Prod.fst).Nodup) {text : Str}
    (found : members.lookup name = some (.string text)) :
    (Shape.object members).take (.required name Value.asStr?) = some (text, .object members) := by
  rw [Shape.take, Slot.required, Shape.field_of_nodup _ _ _ distinct, found]
  rfl

theorem take_optional (distinct : (members.map Prod.fst).Nodup) {text : Option Str}
    (found : members.lookup name = text.map .string) :
    (Shape.object members).take (.defaulted name (orNull Value.asStr?) none) = some (text, .object members) := by
  rw [Shape.take, Slot.defaulted, Shape.field_of_nodup _ _ _ distinct, found]
  cases text with
  | none => rfl
  | some text => rfl

theorem take_trigger (distinct : (members.map Prod.fst).Nodup) {text : Option Str}
    (found : members.lookup name = text.map .string) :
    ∃ trigger, (Shape.object members).take (.defaulted name (orNull TriggerKind.read) none) =
      some (trigger, .object members) := by
  rw [Shape.take, Slot.defaulted, Shape.field_of_nodup _ _ _ distinct, found]
  cases text with
  | none => exact ⟨none, rfl⟩
  | some text => exact ⟨_, rfl⟩

theorem orNull_of_read {A : Type} {read : Value → Option A} {value : Value} {inner : A} (found : read value = some inner) :
    ∃ result, orNull read value = some result := by
  unfold orNull
  split
  · exact ⟨none, rfl⟩
  · exact ⟨some inner, by rw [found]; rfl⟩

theorem take_limit (distinct : (members.map Prod.fst).Nodup)
    (counted : ∀ value, members.lookup name = some value → ∃ count, serde.usize? value = some count) :
    ∃ limit, (Shape.object members).take ⟨name, orNull serde.usize?, some none, none⟩ = some (limit, .object members) := by
  rw [Shape.take, Shape.field_of_nodup _ _ _ distinct]
  cases found : members.lookup name with
  | none => exact ⟨none, rfl⟩
  | some value =>
    obtain ⟨count, counts⟩ := counted value found
    obtain ⟨limit, read⟩ := orNull_of_read counts
    exact ⟨limit, congrArg (Option.map fun value => (value, Shape.object members)) read⟩

/-! ### Each tool -/

/-- A tool is called with what the object says, and replies with its answer. -/
def Reaches (tool : Str) (schema : Value) (id : Option Value) (members : List (Str × Value)) (program : ToolProgram) : Prop :=
  ∃ call : ToolCall, program = .call call (fun answer => .done (toolReply id answer)) ∧ call.tool = tool ∧
    ∀ name ∈ Schema.stringNames schema, name ≠ "trigger".toList → call.argument? name = members.lookup name

theorem invokeTypedTool_reads {Request : Type} {arguments : Value} {toolName requestName : Str}
    {read : Value → Option Request} {invoke : Request → ToolCall} {request : Request} (found : read arguments = some request) :
    invokeTypedTool serde id arguments toolName requestName read invoke =
      .call (invoke request) fun answer => .done (toolReply id answer) := by
  rw [invokeTypedTool, found]

theorem sessionIdRefusal_of_valid {sessionId : Str} (listed : members.lookup "session_id".toList = some (.string sessionId))
    (valid : validateSessionId debug sessionId = .ok ()) : sessionIdRefusal? debug (.object members) = none := by
  have found : ((Value.object members).get? "session_id").bind Value.asStr? = some sessionId := by
    rw [Value.get?, listed, Option.bind_some, Value.asStr?]
  unfold sessionIdRefusal?
  rw [found]
  simp only [valid]

theorem compileContext_reaches (distinct : (members.map Prod.fst).Nodup) (conforms : Conforms compileContextSchema members)
    (acceptable : Acceptable serde debug compileContextSchema members) :
    Reaches "compile_context" compileContextSchema id members (callCompileContext serde debug id (.object members)) := by
  obtain ⟨prompt, promptFound⟩ := conforms.text "prompt" (.head _) (.head _) rfl
  obtain ⟨sessionId, idFound⟩ := conforms.text "session_id" (.tail _ (.head _)) (.tail _ (.head _)) rfl
  obtain ⟨repoPath, pathFound⟩ :=
    conforms.text "repo_path" (.tail _ (.tail _ (.head _))) (.tail _ (.tail _ (.head _))) rfl
  obtain ⟨text, triggerFound⟩ := conforms.optional "trigger" (.tail _ (.tail _ (.tail _ (.head _)))) rfl
  obtain ⟨trigger, triggerTaken⟩ := take_trigger distinct triggerFound
  have valid := acceptable.session sessionId (.tail _ (.head _)) idFound
  have read : readCompileContextRequest (.object members) = some ⟨prompt, sessionId, repoPath, trigger⟩ := by
    refine Option.bind_eq_some_iff.mpr ⟨_, take_text distinct promptFound, ?_⟩
    refine Option.bind_eq_some_iff.mpr ⟨_, take_text distinct idFound, ?_⟩
    refine Option.bind_eq_some_iff.mpr ⟨_, take_text distinct pathFound, ?_⟩
    exact Option.bind_eq_some_iff.mpr ⟨_, triggerTaken, rfl⟩
  refine ⟨.compileContext ⟨prompt, sessionId, repoPath, trigger⟩, ?_, rfl, ?_⟩
  · rw [callCompileContext, sessionIdRefusal_of_valid idFound valid]
    exact invokeTypedTool_reads read
  · intro name declared other
    have among : name ∈ ["prompt".toList, "session_id".toList, "repo_path".toList, "trigger".toList] := declared
    simp only [List.mem_cons, List.not_mem_nil, or_false] at among
    obtain rfl | rfl | rfl | rfl := among
    · exact promptFound.symm
    · exact idFound.symm
    · exact pathFound.symm
    · exact absurd rfl other

theorem findSkill_reaches (distinct : (members.map Prod.fst).Nodup) (conforms : Conforms findSkillSchema members)
    (acceptable : Acceptable serde debug findSkillSchema members) :
    Reaches "find_skill" findSkillSchema id members (callFindSkill serde id (.object members)) := by
  obtain ⟨prompt, promptFound⟩ := conforms.text "prompt" (.head _) (.head _) rfl
  obtain ⟨limit, limitTaken⟩ := take_limit distinct acceptable.limit
  have read : readFindSkillRequest serde (.object members) = some ⟨prompt, limit⟩ := by
    refine Option.bind_eq_some_iff.mpr ⟨_, take_text distinct promptFound, ?_⟩
    exact Option.bind_eq_some_iff.mpr ⟨_, limitTaken, rfl⟩
  refine ⟨.findSkill ⟨prompt, limit⟩, invokeTypedTool_reads read, rfl, ?_⟩
  intro name declared _
  have among : name ∈ ["prompt".toList] := declared
  rw [List.mem_singleton.mp among]
  exact promptFound.symm

theorem extractSession_reaches (distinct : (members.map Prod.fst).Nodup) (conforms : Conforms extractSessionSchema members)
    (acceptable : Acceptable serde debug extractSessionSchema members) :
    Reaches "extract_session" extractSessionSchema id members (callExtractSession serde debug id (.object members)) := by
  obtain ⟨transcriptRef, refFound⟩ := conforms.text "transcript_ref" (.head _) (.head _) rfl
  obtain ⟨sessionId, idFound⟩ := conforms.text "session_id" (.tail _ (.head _)) (.tail _ (.head _)) rfl
  obtain ⟨inline, inlineFound⟩ := conforms.optional "transcript_inline" (.tail _ (.tail _ (.head _))) rfl
  obtain ⟨repoPath, pathFound⟩ := conforms.optional "repo_path" (.tail _ (.tail _ (.tail _ (.head _)))) rfl
  have valid := acceptable.session sessionId (.tail _ (.head _)) idFound
  have small : oversizeInline (.object members) = false := by
    rw [oversizeInline, Value.get?, inlineFound]
    cases inline with
    | none => rfl
    | some text =>
      have within := acceptable.inline text (.tail _ (.tail _ (.head _))) inlineFound
      exact decide_eq_false (Nat.not_lt.mpr within)
  have read : readExtractSessionRequest (.object members) = some ⟨transcriptRef, inline, sessionId, repoPath⟩ := by
    refine Option.bind_eq_some_iff.mpr ⟨_, take_text distinct refFound, ?_⟩
    refine Option.bind_eq_some_iff.mpr ⟨_, take_optional distinct inlineFound, ?_⟩
    refine Option.bind_eq_some_iff.mpr ⟨_, take_text distinct idFound, ?_⟩
    exact Option.bind_eq_some_iff.mpr ⟨_, take_optional distinct pathFound, rfl⟩
  refine ⟨.extractSession ⟨transcriptRef, inline, sessionId, repoPath⟩, ?_, rfl, ?_⟩
  · rw [callExtractSession, sessionIdRefusal_of_valid idFound valid]
    simp only [small]
    exact invokeTypedTool_reads read
  · intro name declared _
    have among : name ∈ ["transcript_ref".toList, "session_id".toList, "transcript_inline".toList, "repo_path".toList] :=
      declared
    simp only [List.mem_cons, List.not_mem_nil, or_false] at among
    obtain rfl | rfl | rfl | rfl := among
    · exact refFound.symm
    · exact idFound.symm
    · exact inlineFound.symm
    · exact pathFound.symm

/-- The tools that take one text. -/
theorem soleText_reaches {tool requestName field description : Str} {invoke : Str → ToolCall}
    (distinct : (members.map Prod.fst).Nodup)
    (conforms : Conforms (objectSchema [(field, property "string" description)] [field]) members)
    (named : ∀ text, (invoke text).tool = tool) (read : ∀ text, (invoke text).argument? field = some (.string text)) :
    Reaches tool (objectSchema [(field, property "string" description)] [field]) id members
      (invokeTypedTool serde id (.object members) tool requestName (readSoleText field) invoke) := by
  obtain ⟨text, found⟩ := conforms.text field (.head _) (.head _) rfl
  have taken : readSoleText field (.object members) = some text :=
    Option.bind_eq_some_iff.mpr ⟨_, take_text distinct found, rfl⟩
  refine ⟨invoke text, invokeTypedTool_reads taken, named text, ?_⟩
  intro name declared _
  have among : name ∈ [field] := declared
  rw [List.mem_singleton.mp among, read, found]

/-- The tools that take nothing. -/
theorem nothing_reaches (serde : RequestSerde) {tool : Str} (requestName : Str) {call : ToolCall} (named : call.tool = tool) :
    Reaches tool (objectSchema [] []) id members
      (invokeTypedTool serde id (.object members) tool requestName readNothing fun _ => call) := by
  have read : readNothing (.object members) = some () := rfl
  refine ⟨call, invokeTypedTool_reads read, named, ?_⟩
  intro name declared
  have among : name ∈ ([] : List Str) := declared
  cases among

/-! ### What is refused -/

/-- No tool is called: the reply is invalid params, or the result for an oversize transcript. -/
def Refuses (tool : Str) (id : Option Value) (program : ToolProgram) : Prop :=
  ∃ response, program = .done response ∧ ((∃ message, response = .refused id (-32602) message) ∨
    response = .ok id payloadTooLarge ∧ tool = "extract_session".toList)

theorem refuses_params {tool message : Str} : Refuses tool id (.done (.refused id (-32602) message)) :=
  ⟨_, rfl, .inl ⟨message, rfl⟩⟩

theorem invokeTypedTool_refuses {Request : Type} {arguments : Value} {tool toolName requestName : Str}
    {read : Value → Option Request} {invoke : Request → ToolCall} (unread : ∀ request, read arguments ≠ some request) :
    Refuses tool id (invokeTypedTool serde id arguments toolName requestName read invoke) := by
  unfold invokeTypedTool
  split
  · exact refuses_params
  · rename_i request found
    exact absurd found (unread request)

/-- A required name is not there as a string. -/
def Lacks (schema : Value) (members : List (Str × Value)) : Prop :=
  ∃ name ∈ Schema.requiredNames schema, ∀ text, members.lookup name ≠ some (.string text)

theorem compileContext_refuses (lacks : Lacks compileContextSchema members) :
    Refuses "compile_context" id (callCompileContext serde debug id (.object members)) := by
  unfold callCompileContext
  split
  · exact refuses_params
  · refine invokeTypedTool_refuses fun request read => ?_
    obtain ⟨prompt, sessionId, repoPath⟩ := readCompileContextRequest_object read
    obtain ⟨name, needed, missing⟩ := lacks
    have among : name ∈ ["prompt".toList, "session_id".toList, "repo_path".toList] := needed
    simp only [List.mem_cons, List.not_mem_nil, or_false] at among
    obtain rfl | rfl | rfl := among
    · exact missing _ prompt
    · exact missing _ sessionId
    · exact missing _ repoPath

theorem findSkill_refuses (lacks : Lacks findSkillSchema members) :
    Refuses "find_skill" id (callFindSkill serde id (.object members)) := by
  refine invokeTypedTool_refuses fun request read => ?_
  obtain ⟨name, needed, missing⟩ := lacks
  have among : name ∈ ["prompt".toList] := needed
  rw [List.mem_singleton.mp among] at missing
  exact missing _ (readFindSkillRequest_object read)

theorem extractSession_refuses (lacks : Lacks extractSessionSchema members) :
    Refuses "extract_session" id (callExtractSession serde debug id (.object members)) := by
  unfold callExtractSession
  split
  · exact refuses_params
  split
  · exact ⟨_, rfl, .inr ⟨rfl, rfl⟩⟩
  · refine invokeTypedTool_refuses fun request read => ?_
    obtain ⟨transcriptRef, sessionId⟩ := readExtractSessionRequest_object read
    obtain ⟨name, needed, missing⟩ := lacks
    have among : name ∈ ["transcript_ref".toList, "session_id".toList] := needed
    simp only [List.mem_cons, List.not_mem_nil, or_false] at among
    obtain rfl | rfl := among
    · exact missing _ transcriptRef
    · exact missing _ sessionId

theorem soleText_refuses {tool requestName field description : Str} {invoke : Str → ToolCall}
    (lacks : Lacks (objectSchema [(field, property "string" description)] [field]) members) :
    Refuses tool id (invokeTypedTool serde id (.object members) tool requestName (readSoleText field) invoke) := by
  refine invokeTypedTool_refuses fun text read => ?_
  obtain ⟨name, needed, missing⟩ := lacks
  rw [requiredNames_objectSchema] at needed
  rw [List.mem_singleton.mp needed] at missing
  exact missing _ (readSoleText_object read)

theorem nothing_lacks : ¬ Lacks (objectSchema [] []) members := by
  rintro ⟨name, needed, -⟩
  rw [requiredNames_objectSchema] at needed
  cases needed

/-! ### The listing and the calls -/

/-- A listed tool keeps to its schema: conforming arguments reach it as they are, an object that
lacks a required string does not, and neither does a call without arguments. -/
structure Honoured (serde : RequestSerde) (debug : Str → Str) (id : Option Value) (members : List (Str × Value))
    (name : Str) (schema : Value) (handler : Option Value → Value → ToolProgram) : Prop where
  reaches : Conforms schema members → Acceptable serde debug schema members →
    Reaches name schema id members (handler id (.object members))
  refuses : Lacks schema members → Refuses name id (handler id (.object members))
  bare : ∃ message, handler id .null = .done (.refused id (-32602) message)

theorem registered_honoured {tool : RegisteredTool} (registered : tool ∈ registeredTools serde debug) (id : Option Value)
    (distinct : (members.map Prod.fst).Nodup) :
    Honoured serde debug id members tool.descriptor.name tool.descriptor.inputSchema tool.handler := by
  simp only [registeredTools, List.mem_cons, List.not_mem_nil, or_false] at registered
  obtain rfl | rfl | rfl | rfl | rfl | rfl | rfl := registered
  · exact ⟨compileContext_reaches distinct, compileContext_refuses, _, rfl⟩
  · exact ⟨findSkill_reaches distinct, findSkill_refuses, _, rfl⟩
  · exact ⟨extractSession_reaches distinct, extractSession_refuses, _, rfl⟩
  · refine ⟨fun _ _ => ?_, fun lacks => absurd lacks nothing_lacks, _, rfl⟩
    exact nothing_reaches serde "RebuildGraphRequest" rfl
  · exact ⟨fun conforms _ => soleText_reaches distinct conforms (fun _ => rfl) (fun _ => rfl), soleText_refuses, _, rfl⟩
  · exact ⟨fun conforms _ => soleText_reaches distinct conforms (fun _ => rfl) (fun _ => rfl), soleText_refuses, _, rfl⟩
  · refine ⟨fun _ _ => ?_, fun lacks => absurd lacks nothing_lacks, _, rfl⟩
    exact nothing_reaches serde "ListCommunitiesRequest" rfl

/-- A call by a registered name goes to the handler of that name. -/
theorem handleJsonRpc_registered {tool : RegisteredTool} (registered : tool ∈ registeredTools serde debug) {params arguments : Value}
    (read : readToolCallParams params = some (tool.descriptor.name, arguments)) (id : Option Value) :
    handleJsonRpc serde debug ⟨"2.0", id, "tools/call", params⟩ = tool.handler id arguments := by
  have chosen : (registeredTools serde debug).find? (fun other => other.descriptor.name == tool.descriptor.name) = some tool := by
    simp only [registeredTools, List.mem_cons, List.not_mem_nil, or_false] at registered
    obtain rfl | rfl | rfl | rfl | rfl | rfl | rfl := registered
    all_goals rfl
  have dispatched : handleJsonRpc serde debug ⟨"2.0", id, "tools/call", params⟩ = handleToolCall serde debug id params := rfl
  rw [dispatched, handleToolCall, read]
  simp only [chosen]

theorem advertised_listing {listing : JsonRpcResponse} {listId : Option Value} {params : Value}
    (listed : handleJsonRpc serde debug ⟨"2.0", listId, "tools/list", params⟩ = .done listing) :
    advertised listing = (registeredTools serde debug).map fun tool => (tool.descriptor.name, tool.descriptor.inputSchema) := by
  cases listed
  rfl

end Conforming

/-- What `tools/list` says of a tool, `tools/call` keeps: arguments that conform to the listed schema
and pass the checks beside it reach that tool, once, and as they are; an object that lacks a required
string is refused before any tool; and a call that leaves its arguments out is refused by every
tool, also by those that require none. -/
theorem listed_tools_honoured (serde : RequestSerde) (debug : Str → Str) {listing : JsonRpcResponse} {listId : Option Value}
    {params schema : Value} {name : Str} {members : List (Str × Value)} (id : Option Value)
    (listed : handleJsonRpc serde debug ⟨"2.0", listId, "tools/list", params⟩ = .done listing)
    (entry : (name, schema) ∈ advertised listing) (distinct : (members.map Prod.fst).Nodup) :
    (Conforms schema members → Acceptable serde debug schema members →
      Reaches name schema id members (handleJsonRpc serde debug (callRequest id name (.object members)))) ∧
    (Lacks schema members → Refuses name id (handleJsonRpc serde debug (callRequest id name (.object members)))) ∧
    ∃ message, handleJsonRpc serde debug ⟨"2.0", id, "tools/call", .object [("name", .string name)]⟩ =
      .done (.refused id (-32602) message) := by
  rw [advertised_listing listed] at entry
  obtain ⟨tool, registered, same⟩ := List.mem_map.mp entry
  cases same
  have honoured := registered_honoured registered id distinct
  have called : handleJsonRpc serde debug (callRequest id tool.descriptor.name (.object members)) =
      tool.handler id (.object members) :=
    handleJsonRpc_registered registered (readToolCallParams_callRequest id tool.descriptor.name (.object members)) id
  have bare : readToolCallParams (.object [("name", .string tool.descriptor.name)]) = some (tool.descriptor.name, .null) := rfl
  refine ⟨fun conforms acceptable => ?_, fun lacks => ?_, ?_⟩
  · rw [called]
    exact honoured.reaches conforms acceptable
  · rw [called]
    exact honoured.refuses lacks
  · rw [handleJsonRpc_registered registered bare]
    exact honoured.bare

theorem listed_tools_honoured_sample :
    Reaches "inspect_skill" inspectSkillSchema none [("skill_id", .string "s")]
      (handleJsonRpc sampleSerde (fun text => text)
        (callRequest none "inspect_skill" (.object [("skill_id", .string "s")]))) := by
  have conforms : Conforms inspectSkillSchema [("skill_id", .string "s")] := by
    refine ⟨?_, ?_⟩
    · intro name needed
      have among : name ∈ ["skill_id".toList] := needed
      rw [List.mem_singleton.mp among]
      exact ⟨_, rfl⟩
    · intro declared member value type found typed
      have only : declared = ("skill_id".toList, property "string" "Stable identifier of the skill to inspect") :=
        List.mem_singleton.mp member
      subst only
      cases found
      cases typed
      exact .string _
  have acceptable : Acceptable sampleSerde (fun text => text) inspectSkillSchema [("skill_id", .string "s")] := by
    refine ⟨fun text member _ => ?_, fun text member _ => ?_, fun value found => ?_⟩
    · have among : "session_id".toList ∈ ["skill_id".toList] := member
      exact absurd among (by decide)
    · have among : "transcript_inline".toList ∈ ["skill_id".toList] := member
      exact absurd among (by decide)
    · cases found
  have listed : handleJsonRpc sampleSerde (fun text => text) ⟨"2.0", none, "tools/list", .null⟩ =
      .done (.ok none (toolsListPayload sampleSerde fun text => text)) := rfl
  have entry : ("inspect_skill".toList, inspectSkillSchema) ∈
      advertised (.ok none (toolsListPayload sampleSerde fun text => text)) :=
    .tail _ (.tail _ (.tail _ (.tail _ (.tail _ (.head _)))))
  have distinct : (([("skill_id".toList, Value.string "s")] : List (Str × Value)).map Prod.fst).Nodup :=
    List.nodup_singleton _
  exact (listed_tools_honoured sampleSerde (fun text => text) none listed entry distinct).1
    conforms acceptable

end SkillLayer.McpServer
