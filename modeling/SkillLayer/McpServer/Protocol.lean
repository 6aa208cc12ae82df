import SkillLayer.Infrastructure.TranscriptQueue
import SkillLayer.McpServer.CompileContext
import SkillLayer.McpServer.SessionIsolation
import SkillLayer.Serde

/-! The JSON-RPC boundary: the registered tools, the readers of their arguments, and which
session ids get through it. -/

namespace SkillLayer.McpServer

open Infrastructure (ExtractSessionRequest)

/-! ### Requests of the tools -/

/-- What the boundary takes from the JSON library: a number read as `usize`, and the text with
which a reader refuses a value for a structure. -/
structure RequestSerde where
  usize? : Value → Option Nat
  refusal : Str → Value → Str

structure FindSkillRequest where
  prompt : Str
  limit : Option Nat
deriving DecidableEq

/-- An `Option`: null, or what is inside. -/
def orNull {A : Type} (read : Value → Option A) : Value → Option (Option A)
  | .null => some none
  | value => (read value).map some

/-- A unit variant is a string, or an object with the variant as its one key and null as its
value; any other name is taken for `other`. -/
def TriggerKind.read : Value → Option TriggerKind
  | .string name => some (if name = "compact".toList then .compact else .other)
  | .object [(name, .null)] => some (if name = "compact".toList then .compact else .other)
  | _ => none

def readCompileContextRequest (arguments : Value) : Option CompileContextRequest :=
  (arguments.shape.take (.required "prompt" Value.asStr?)).bind fun (prompt, rest) =>
  (rest.take (.required "session_id" Value.asStr?)).bind fun (sessionId, rest) =>
  (rest.take (.required "repo_path" Value.asStr?)).bind fun (repoPath, rest) =>
  (rest.take (.defaulted "trigger" (orNull TriggerKind.read) none)).bind fun (trigger, rest) =>
  rest.finish.map fun _ => ⟨prompt, sessionId, repoPath, trigger⟩

/-- `limit` has no default of its own: an object may leave it out, an array may not. -/
def readFindSkillRequest (serde : RequestSerde) (arguments : Value) : Option FindSkillRequest :=
  (arguments.shape.take (.required "prompt" Value.asStr?)).bind fun (prompt, rest) =>
  (rest.take ⟨"limit", orNull serde.usize?, some none, none⟩).bind fun (limit, rest) =>
  rest.finish.map fun _ => ⟨prompt, limit⟩

def readExtractSessionRequest (arguments : Value) : Option ExtractSessionRequest :=
  (arguments.shape.take (.required "transcript_ref" Value.asStr?)).bind fun (transcriptRef, rest) =>
  (rest.take (.defaulted "transcript_inline" (orNull Value.asStr?) none)).bind fun (transcriptInline, rest) =>
  (rest.take (.required "session_id" Value.asStr?)).bind fun (sessionId, rest) =>
  (rest.take (.defaulted "repo_path" (orNull Value.asStr?) none)).bind fun (repoPath, rest) =>
  rest.finish.map fun _ => ⟨transcriptRef, transcriptInline, sessionId, repoPath⟩

/-- The requests with one text, and with nothing: `job_id`, `skill_id`, none. -/
def readSoleText (name : Str) (arguments : Value) : Option Str :=
  (arguments.shape.take (.required name Value.asStr?)).bind fun (text, rest) => rest.finish.map fun _ => text

def readNothing (arguments : Value) : Option Unit := arguments.shape.finish

/-! ### Calls and replies -/

inductive ToolCall where
  | compileContext (request : CompileContextRequest)
  | findSkill (request : FindSkillRequest)
  | extractSession (request : ExtractSessionRequest)
  | rebuildGraph
  | rebuildGraphStatus (jobId : Str)
  | inspectSkill (skillId : Str)
  | listCommunities
deriving DecidableEq

/-- The session id that a tool is given. -/
def ToolCall.sessionId? : ToolCall → Option Str
  | .compileContext request => some request.sessionId
  | .extractSession request => some request.sessionId
  | _ => none

structure JsonRpcRequest where
  jsonrpc : Str
  id : Option Value
  method : Str
  params : Value

structure JsonRpcError where
  code : Int
  message : Str

structure JsonRpcResponse where
  jsonrpc : Str
  id : Option Value
  result : Option Value
  error : Option JsonRpcError

namespace JsonRpcResponse

def ok (id : Option Value) (result : Value) : JsonRpcResponse := ⟨"2.0", id, some result, none⟩

def refused (id : Option Value) (code : Int) (message : Str) : JsonRpcResponse := ⟨"2.0", id, none, some ⟨code, message⟩⟩

end JsonRpcResponse

/-- A tool answers with its response as JSON, unless that cannot be written. -/
abbrev ToolProgram := Program ToolCall (fun _ => Except Str Value) Empty JsonRpcResponse

/-- The reply to a request whose tool has answered. -/
def toolReply (id : Option Value) : Except Str Value → JsonRpcResponse
  | .ok result => .ok id result
  | .error error => .refused id (-32603) ("internal error: ".toList ++ error)

section Boundary

variable (serde : RequestSerde) (debug : Str → Str)

def invokeTypedTool {Request : Type} (id : Option Value) (arguments : Value) (toolName requestName : Str)
    (read : Value → Option Request) (invoke : Request → ToolCall) : ToolProgram :=
  match read arguments with
  | none =>
    .done (.refused id (-32602) ("invalid ".toList ++ toolName ++ " arguments: ".toList ++ serde.refusal requestName arguments))
  | some request => .call (invoke request) fun answer => .done (toolReply id answer)

/-- The check that stands before the reader: it looks for a string under `session_id`, which only
an object can have. -/
def sessionIdRefusal? (arguments : Value) : Option Str :=
  match (arguments.get? "session_id").bind Value.asStr? with
  | none => none
  | some sessionId =>
    match validateSessionId debug sessionId with
    | .ok () => none
    | .error reason => some ("invalid params: ".toList ++ reason)

def mcpBodyLimitBytes : Nat := 4 * 1024 * 1024

def callCompileContext (id : Option Value) (arguments : Value) : ToolProgram :=
  match sessionIdRefusal? debug arguments with
  | some message => .done (.refused id (-32602) message)
  | none =>
    invokeTypedTool serde id arguments "compile_context" "CompileContextRequest" readCompileContextRequest .compileContext

def callFindSkill (id : Option Value) (arguments : Value) : ToolProgram :=
  invokeTypedTool serde id arguments "find_skill" "FindSkillRequest" (readFindSkillRequest serde) .findSkill

/-- The reply to an inline transcript over the limit: a result, not an error. -/
def payloadTooLarge : Value :=
  .object [("status", .string "failed"), ("reason_code", .string "payload_too_large"), ("job_id", .null), ("provider", .null)]

/-- The arguments carry an inline transcript over the limit, in bytes. -/
def oversizeInline (arguments : Value) : Bool :=
  match (arguments.get? "transcript_inline").bind Value.asStr? with
  | none => false
  | some inline => mcpBodyLimitBytes < Str.byteLength inline

def callExtractSession (id : Option Value) (arguments : Value) : ToolProgram :=
  match sessionIdRefusal? debug arguments with
  | some message => .done (.refused id (-32602) message)
  | none =>
    if oversizeInline arguments then .done (.ok id payloadTooLarge)
    else
      invokeTypedTool serde id arguments "extract_session" "ExtractSessionRequest" readExtractSessionRequest .extractSession

def callRebuildGraph (id : Option Value) (arguments : Value) : ToolProgram :=
  invokeTypedTool serde id arguments "rebuild_graph" "RebuildGraphRequest" readNothing fun _ => .rebuildGraph

def callRebuildGraphStatus (id : Option Value) (arguments : Value) : ToolProgram :=
  invokeTypedTool serde id arguments "rebuild_graph_status" "RebuildGraphStatusRequest" (readSoleText "job_id")
    .rebuildGraphStatus

def callInspectSkill (id : Option Value) (arguments : Value) : ToolProgram :=
  invokeTypedTool serde id arguments "inspect_skill" "InspectSkillRequest" (readSoleText "skill_id") .inspectSkill

def callListCommunities (id : Option Value) (arguments : Value) : ToolProgram :=
  invokeTypedTool serde id arguments "list_communities" "ListCommunitiesRequest" readNothing fun _ => .listCommunities

end Boundary

/-! ### The registry -/

structure ToolDescriptor where
  name : Str
  description : Str
  requiredArguments : List Str
  inputSchema : Value

structure RegisteredTool where
  descriptor : ToolDescriptor
  handler : Option Value → Value → ToolProgram

section Registry

def property (type description : Str) : Value := .object [("type", .string type), ("description", .string description)]

def boundedProperty (type : Str) (maxLength : Nat) (description : Str) : Value :=
  .object [("type", .string type), ("maxLength", .number maxLength), ("description", .string description)]

def objectSchema (properties : List (Str × Value)) (required : List Str) : Value :=
  .object [("type", .string "object"), ("properties", .object properties), ("required", .array (required.map .string))]

def compileContextSchema : Value :=
  objectSchema
    [("prompt", property "string" "Natural-language description of the task to compile skills for"),
      ("session_id", property "string" "Identifier for the current agent session"),
      ("repo_path", property "string" "Absolute path to the current repository root"),
      ("trigger", boundedProperty "string" 64
        "Lifecycle event that caused this call (e.g. 'compact'). 'compact' bypasses session suppression for post-compaction re-injection. Unknown values are treated as ordinary calls.")]
    ["prompt", "session_id", "repo_path"]

def findSkillSchema : Value :=
  objectSchema
    [("prompt", property "string" "Natural-language query to match against the skill graph"),
      ("limit", property "integer" "Maximum number of skills to return (default 5)")]
    ["prompt"]

def extractSessionSchema : Value :=
  objectSchema
    [("transcript_ref", property "string" "Path to the session transcript file to extract from"),
      ("session_id", property "string" "Identifier for the source session"),
      ("transcript_inline", boundedProperty "string" mcpBodyLimitBytes
        "Inline transcript content, used instead of loading from file. Max 4 MiB; use transcript_ref for larger transcripts."),
      ("repo_path", property "string" "Absolute path to the repository root for scoping drafts")]
    ["transcript_ref", "session_id"]

def rebuildGraphStatusSchema : Value :=
  objectSchema [("job_id", property "string" "The rebuild job identifier returned by rebuild_graph")] ["job_id"]

def inspectSkillSchema : Value :=
  objectSchema [("skill_id", property "string" "Stable identifier of the skill to inspect")] ["skill_id"]

def registeredTools (serde : RequestSerde) (debug : Str → Str) : List RegisteredTool :=
  [⟨⟨"compile_context", "Compile task-relevant context for the current session",
      ["prompt", "session_id", "repo_path"], compileContextSchema⟩, callCompileContext serde debug⟩,
    ⟨⟨"find_skill", "Find top matching skills from the retrieval graph", ["prompt"], findSkillSchema⟩, callFindSkill serde⟩,
    ⟨⟨"extract_session", "Queue session transcript extraction into .pending drafts",
      ["transcript_ref", "session_id"], extractSessionSchema⟩, callExtractSession serde debug⟩,
    ⟨⟨"rebuild_graph", "Trigger a full graph rebuild via the graph-builder workflow", [], objectSchema [] []⟩,
      callRebuildGraph serde⟩,
    ⟨⟨"rebuild_graph_status", "Read lifecycle and result fields for a queued rebuild job", ["job_id"],
      rebuildGraphStatusSchema⟩, callRebuildGraphStatus serde⟩,
    ⟨⟨"inspect_skill", "Inspect skill neighborhood, subunits, and community context", ["skill_id"], inspectSkillSchema⟩,
      callInspectSkill serde⟩,
    ⟨⟨"list_communities", "List graph communities with member counts", [], objectSchema [] []⟩, callListCommunities serde⟩]

def ToolDescriptor.toValue (descriptor : ToolDescriptor) : Value :=
  .object [("name", .string descriptor.name), ("description", .string descriptor.description),
    ("inputSchema", descriptor.inputSchema)]

variable (serde : RequestSerde) (debug : Str → Str)

def toolsListPayload : Value :=
  .object [("tools", .array ((registeredTools serde debug).map fun tool => tool.descriptor.toValue))]

def readToolCallParams (params : Value) : Option (Str × Value) :=
  (params.shape.take (.required "name" Value.asStr?)).bind fun (name, rest) =>
  (rest.take (.defaulted "arguments" some Value.null)).bind fun (arguments, rest) =>
  rest.finish.map fun _ => (name, arguments)

def handleToolCall (id : Option Value) (params : Value) : ToolProgram :=
  match readToolCallParams params with
  | none => .done (.refused id (-32602) ("invalid params: ".toList ++ serde.refusal "ToolCallParams" params))
  | some (name, arguments) =>
    match (registeredTools serde debug).find? fun tool => tool.descriptor.name == name with
    | none => .done (.refused id (-32601) "tool not found")
    | some tool => tool.handler id arguments

def handleJsonRpc (request : JsonRpcRequest) : ToolProgram :=
  if request.jsonrpc ≠ "2.0".toList then .done (.refused request.id (-32600) "invalid request")
  else if request.method = "tools/list".toList then .done (.ok request.id (toolsListPayload serde debug))
  else if request.method = "tools/call".toList then handleToolCall serde debug request.id request.params
  else .done (.refused request.id (-32601) "method not found")

end Registry

/-! ### Requests one after the other -/

/-- The calls that a program makes, and its reply. -/
def converse (answer : ToolCall → Except Str Value) : ToolProgram → List ToolCall × JsonRpcResponse
  | .done response => ([], response)
  | .fail never => nomatch never
  | .call call next => (call :: (converse answer (next (answer call))).1, (converse answer (next (answer call))).2)

section Serving

variable (serde : RequestSerde) (debug : Str → Str) (answers : Nat → ToolCall → Except Str Value)

/-- The calls and replies of requests that are served one after the other. -/
def serveRequests : Nat → List JsonRpcRequest → List ToolCall × List JsonRpcResponse
  | _, [] => ([], [])
  | turn, request :: requests =>
    let served := converse (answers turn) (handleJsonRpc serde debug request)
    let rest := serveRequests (turn + 1) requests
    (served.1 ++ rest.1, served.2 :: rest.2)

end Serving

namespace JsonRpcRequest

/-- The arguments of the tool call are no array. -/
def ByName (request : JsonRpcRequest) : Prop :=
  ∀ name arguments, readToolCallParams request.params = some (name, arguments) → arguments.asArray? = none

end JsonRpcRequest

/-- The version, and either a result or an error. -/
structure JsonRpcResponse.WellFormed (response : JsonRpcResponse) : Prop where
  version : response.jsonrpc = "2.0".toList
  exclusive : response.result.isSome = !response.error.isSome

theorem JsonRpcResponse.ok_wellFormed (id : Option Value) (result : Value) : (ok id result).WellFormed := ⟨rfl, rfl⟩

theorem JsonRpcResponse.refused_wellFormed (id : Option Value) (code : Int) (message : Str) :
    (refused id code message).WellFormed := ⟨rfl, rfl⟩

/-! ### One request -/

section Handlers

variable {serde : RequestSerde} {debug : Str → Str} {id : Option Value} {arguments : Value} {call : ToolCall}
variable {next : Except Str Value → ToolProgram} {tool : RegisteredTool}

/-- What a handler does with a request: it replies, or makes one call and replies to its answer. -/
def Proper (id : Option Value) (checked : ToolCall → Prop) (program : ToolProgram) : Prop :=
  (∃ response, program = .done response ∧ response.id = id ∧ response.WellFormed) ∨
    ∃ call, checked call ∧ program = .call call fun answer => .done (toolReply id answer)

theorem Proper.done {checked : ToolCall → Prop} {response : JsonRpcResponse} (echoed : response.id = id)
    (formed : response.WellFormed) : Proper id checked (.done response) :=
  .inl ⟨response, rfl, echoed, formed⟩

theorem invokeTypedTool_proper {Request : Type} {toolName requestName : Str} {read : Value → Option Request}
    {invoke : Request → ToolCall} {checked : ToolCall → Prop}
    (allowed : ∀ request, read arguments = some request → checked (invoke request)) :
    Proper id checked (invokeTypedTool serde id arguments toolName requestName read invoke) := by
  unfold invokeTypedTool
  split
  · exact .done rfl (JsonRpcResponse.refused_wellFormed _ _ _)
  · rename_i request found
    exact .inr ⟨invoke request, allowed request found, rfl⟩

theorem take_required_object {name text : Str} {members : List (Str × Value)} {rest : Shape Value}
    (taken : (Shape.object members).take (.required name Value.asStr?) = some (text, rest)) :
    members.lookup name = some (.string text) ∧ rest = .object members := by
  obtain ⟨found, same⟩ := Shape.take_object_eq_some.mp taken
  obtain ⟨part, listed, read⟩ := Shape.lookup_of_field found
  refine ⟨?_, same⟩
  cases part with
  | string inner =>
    cases read
    exact listed
  | _ => cases read

/-- What an object that is read has under the names that must be there. -/
theorem readCompileContextRequest_object {members : List (Str × Value)} {request : CompileContextRequest}
    (read : readCompileContextRequest (.object members) = some request) :
    members.lookup "prompt".toList = some (.string request.prompt) ∧
      members.lookup "session_id".toList = some (.string request.sessionId) ∧
      members.lookup "repo_path".toList = some (.string request.repoPath) := by
  obtain ⟨⟨prompt, left⟩, takenPrompt, read⟩ := Option.bind_eq_some_iff.mp read
  obtain ⟨listedPrompt, rfl⟩ := take_required_object takenPrompt
  obtain ⟨⟨sessionId, left⟩, takenId, read⟩ := Option.bind_eq_some_iff.mp read
  obtain ⟨listedId, rfl⟩ := take_required_object takenId
  obtain ⟨⟨repoPath, left⟩, takenPath, read⟩ := Option.bind_eq_some_iff.mp read
  obtain ⟨listedPath, rfl⟩ := take_required_object takenPath
  obtain ⟨⟨trigger, left⟩, -, read⟩ := Option.bind_eq_some_iff.mp read
  obtain ⟨-, -, rfl⟩ := Option.map_eq_some_iff.mp read
  exact ⟨listedPrompt, listedId, listedPath⟩

theorem readFindSkillRequest_object {members : List (Str × Value)} {request : FindSkillRequest}
    (read : readFindSkillRequest serde (.object members) = some request) :
    members.lookup "prompt".toList = some (.string request.prompt) := by
  obtain ⟨⟨prompt, left⟩, taken, read⟩ := Option.bind_eq_some_iff.mp read
  obtain ⟨listed, rfl⟩ := take_required_object taken
  obtain ⟨⟨limit, left⟩, -, read⟩ := Option.bind_eq_some_iff.mp read
  obtain ⟨-, -, rfl⟩ := Option.map_eq_some_iff.mp read
  exact listed

theorem readExtractSessionRequest_object {members : List (Str × Value)} {request : ExtractSessionRequest}
    (read : readExtractSessionRequest (.object members) = some request) :
    members.lookup "transcript_ref".toList = some (.string request.transcriptRef) ∧
      members.lookup "session_id".toList = some (.string request.sessionId) := by
  obtain ⟨⟨transcriptRef, left⟩, takenRef, read⟩ := Option.bind_eq_some_iff.mp read
  obtain ⟨listedRef, rfl⟩ := take_required_object takenRef
  obtain ⟨⟨transcriptInline, left⟩, takenInline, read⟩ := Option.bind_eq_some_iff.mp read
  obtain ⟨-, rfl⟩ := Shape.take_object_eq_some.mp takenInline
  obtain ⟨⟨sessionId, left⟩, takenId, read⟩ := Option.bind_eq_some_iff.mp read
  obtain ⟨listedId, rfl⟩ := take_required_object takenId
  obtain ⟨⟨repoPath, left⟩, -, read⟩ := Option.bind_eq_some_iff.mp read
  obtain ⟨-, -, rfl⟩ := Option.map_eq_some_iff.mp read
  exact ⟨listedRef, listedId⟩

theorem readSoleText_object {members : List (Str × Value)} {name text : Str}
    (read : readSoleText name (.object members) = some text) : members.lookup name = some (.string text) := by
  obtain ⟨⟨found, left⟩, taken, read⟩ := Option.bind_eq_some_iff.mp read
  obtain ⟨listed, rfl⟩ := take_required_object taken
  obtain ⟨-, -, rfl⟩ := Option.map_eq_some_iff.mp read
  exact listed

/-- A structure that is not read from an array is read from an object. -/
theorem object_of_take {A : Type} {slot : Slot Value A} {found : A × Shape Value} (named : arguments.asArray? = none)
    (taken : arguments.shape.take slot = some found) : ∃ members, arguments = .object members := by
  cases arguments with
  | object members => exact ⟨members, rfl⟩
  | array items => cases named
  | _ => cases taken

/-- Where the check lets arguments through, the string under `session_id` is valid. -/
theorem validated_of_sessionIdRefusal {members : List (Str × Value)} {sessionId : Str}
    (passed : sessionIdRefusal? debug (.object members) = none)
    (listed : members.lookup "session_id".toList = some (.string sessionId)) :
    validateSessionId debug sessionId = .ok () := by
  have found : ((Value.object members).get? "session_id").bind Value.asStr? = some sessionId := by
    rw [Value.get?, listed, Option.bind_some, Value.asStr?]
  unfold sessionIdRefusal? at passed
  rw [found] at passed
  cases valid : validateSessionId debug sessionId with
  | ok _ => rfl
  | error reason =>
    simp only [valid] at passed
    cases passed

/-- Every session id that the tool is given is valid. -/
def Validated (debug : Str → Str) (call : ToolCall) : Prop :=
  ∀ sessionId, call.sessionId? = some sessionId → validateSessionId debug sessionId = .ok ()

theorem validated_of_none (without : call.sessionId? = none) : Validated debug call := by
  intro sessionId given
  rw [without] at given
  cases given

theorem callCompileContext_proper :
    Proper id (fun call => arguments.asArray? = none → Validated debug call)
      (callCompileContext serde debug id arguments) := by
  unfold callCompileContext
  split
  · exact .done rfl (JsonRpcResponse.refused_wellFormed _ _ _)
  · rename_i passed
    refine invokeTypedTool_proper ?_
    intro request read named sessionId given
    cases given
    obtain ⟨found, taken, -⟩ := Option.bind_eq_some_iff.mp read
    obtain ⟨members, rfl⟩ := object_of_take named taken
    exact validated_of_sessionIdRefusal passed (readCompileContextRequest_object read).2.1

theorem callExtractSession_proper :
    Proper id (fun call => arguments.asArray? = none → Validated debug call)
      (callExtractSession serde debug id arguments) := by
  unfold callExtractSession
  split
  · exact .done rfl (JsonRpcResponse.refused_wellFormed _ _ _)
  · rename_i passed
    split
    · exact .done rfl (JsonRpcResponse.ok_wellFormed _ _)
    · refine invokeTypedTool_proper ?_
      intro request read named sessionId given
      cases given
      obtain ⟨found, taken, -⟩ := Option.bind_eq_some_iff.mp read
      obtain ⟨members, rfl⟩ := object_of_take named taken
      exact validated_of_sessionIdRefusal passed (readExtractSessionRequest_object read).2

/-- Whatever the tool: it is called at most once, and not with an unchecked session id, unless
its arguments are an array. -/
theorem handler_proper (registered : tool ∈ registeredTools serde debug) :
    Proper id (fun call => arguments.asArray? = none → Validated debug call) (tool.handler id arguments) := by
  have plain {Request : Type} {toolName requestName : Str} {read : Value → Option Request} {invoke : Request → ToolCall}
      (without : ∀ request, (invoke request).sessionId? = none) :
      Proper id (fun call => arguments.asArray? = none → Validated debug call)
        (invokeTypedTool serde id arguments toolName requestName read invoke) :=
    invokeTypedTool_proper fun request _ _ => validated_of_none (without request)
  simp only [registeredTools, List.mem_cons, List.not_mem_nil, or_false] at registered
  obtain rfl | rfl | rfl | rfl | rfl | rfl | rfl := registered
  · exact callCompileContext_proper
  · exact plain fun _ => rfl
  · exact callExtractSession_proper
  · exact plain fun _ => rfl
  · exact plain fun _ => rfl
  · exact plain fun _ => rfl
  · exact plain fun _ => rfl

/-- One request of any kind. -/
theorem handleJsonRpc_proper (request : JsonRpcRequest) :
    Proper request.id (fun call => request.ByName → Validated debug call) (handleJsonRpc serde debug request) := by
  have refused (code : Int) (message : Str) :
      Proper request.id (fun call => request.ByName → Validated debug call) (.done (.refused request.id code message)) :=
    .done rfl (JsonRpcResponse.refused_wellFormed _ _ _)
  unfold handleJsonRpc
  split
  · exact refused _ _
  split
  · exact .done rfl (JsonRpcResponse.ok_wellFormed _ _)
  split
  · unfold handleToolCall
    split
    · exact refused _ _
    · rename_i name arguments found
      split
      · exact refused _ _
      · rename_i tool chosen
        have proper : Proper request.id (fun call => arguments.asArray? = none → Validated debug call)
            (tool.handler request.id arguments) := handler_proper (List.mem_of_find?_eq_some chosen)
        obtain ⟨response, same, echoed, formed⟩ | ⟨call, checked, same⟩ := proper
        · exact .inl ⟨response, same, echoed, formed⟩
        · exact .inr ⟨call, fun byName => checked (byName name arguments found), same⟩
  · exact refused _ _

end Handlers

/-! ### Many requests -/

section Served

variable {serde : RequestSerde} {debug : Str → Str} {answers : Nat → ToolCall → Except Str Value}

theorem toolReply_wellFormed (id : Option Value) (answer : Except Str Value) :
    (toolReply id answer).id = id ∧ (toolReply id answer).WellFormed := by
  cases answer with
  | ok result => exact ⟨rfl, JsonRpcResponse.ok_wellFormed _ _⟩
  | error error => exact ⟨rfl, JsonRpcResponse.refused_wellFormed _ _ _⟩

/-- What serving one request comes to. -/
theorem converse_of_proper {id : Option Value} {checked : ToolCall → Prop} {program : ToolProgram}
    (proper : Proper id checked program) (answer : ToolCall → Except Str Value) :
    (converse answer program).2.id = id ∧ (converse answer program).2.WellFormed ∧
      (converse answer program).1.length ≤ 1 ∧ ∀ call ∈ (converse answer program).1, checked call := by
  obtain ⟨response, rfl, echoed, formed⟩ | ⟨call, allowed, rfl⟩ := proper
  · exact ⟨echoed, formed, Nat.zero_le _, fun call never => absurd never List.not_mem_nil⟩
  · obtain ⟨echoed, formed⟩ := toolReply_wellFormed id (answer call)
    refine ⟨echoed, formed, Nat.le_refl 1, ?_⟩
    intro other member
    rw [List.mem_singleton.mp member]
    exact allowed

/-- Every request gets one reply, under its own id; there are no more calls than requests, and
the session ids of calls by name are valid. -/
structure Served (debug : Str → Str) (requests : List JsonRpcRequest) (calls : List ToolCall)
    (replies : List JsonRpcResponse) : Prop where
  echoed : replies.map JsonRpcResponse.id = requests.map JsonRpcRequest.id
  formed : ∀ reply ∈ replies, reply.WellFormed
  bounded : calls.length ≤ requests.length
  validated : (∀ request ∈ requests, request.ByName) → ∀ call ∈ calls, Validated debug call

theorem served_cons {request : JsonRpcRequest} {requests : List JsonRpcRequest} {calls : List ToolCall}
    {replies : List JsonRpcResponse} (served : Served debug requests calls replies)
    (answer : ToolCall → Except Str Value) :
    Served debug (request :: requests) ((converse answer (handleJsonRpc serde debug request)).1 ++ calls)
      ((converse answer (handleJsonRpc serde debug request)).2 :: replies) := by
  obtain ⟨echoed, formed, once, checked⟩ := converse_of_proper (@handleJsonRpc_proper serde debug request) answer
  refine ⟨?_, ?_, ?_, ?_⟩
  · rw [List.map_cons, List.map_cons, echoed, served.echoed]
  · intro reply member
    obtain rfl | later := List.mem_cons.mp member
    · exact formed
    · exact served.formed reply later
  · have rest := served.bounded
    rw [List.length_append, List.length_cons]
    omega
  · intro named call member
    obtain first | later := List.mem_append.mp member
    · exact checked call first (named request List.mem_cons_self)
    · exact served.validated (fun other inRest => named other (List.mem_cons_of_mem _ inRest)) call later

theorem serveRequests_served (turn : Nat) (requests : List JsonRpcRequest) :
    Served debug requests (serveRequests serde debug answers turn requests).1
      (serveRequests serde debug answers turn requests).2 := by
  induction requests generalizing turn with
  | nil => exact ⟨rfl, fun _ never => absurd never List.not_mem_nil, Nat.le_refl 0, fun _ _ never => absurd never List.not_mem_nil⟩
  | cons request requests ih => exact served_cons (ih (turn + 1)) (answers turn)

/-- A call of a tool with its arguments. -/
def callRequest (id : Option Value) (name : Str) (arguments : Value) : JsonRpcRequest :=
  ⟨"2.0", id, "tools/call", .object [("name", .string name), ("arguments", arguments)]⟩

theorem readToolCallParams_callRequest (id : Option Value) (name : Str) (arguments : Value) :
    readToolCallParams (callRequest id name arguments).params = some (name, arguments) := rfl

theorem callRequest_byName (id : Option Value) (name : Str) (members : List (Str × Value)) :
    (callRequest id name (.object members)).ByName := by
  intro found arguments read
  rw [readToolCallParams_callRequest] at read
  cases read
  rfl

/-- Arguments by position are read, and nothing looks at the session id among them. -/
theorem compileContext_positional (id : Option Value) (prompt sessionId repoPath : Str) :
    handleJsonRpc serde debug
        (callRequest id "compile_context" (.array [.string prompt, .string sessionId, .string repoPath])) =
      .call (.compileContext ⟨prompt, sessionId, repoPath, none⟩) fun answer => .done (toolReply id answer) := rfl

theorem extractSession_positional (id : Option Value) (transcriptRef sessionId : Str) :
    handleJsonRpc serde debug
        (callRequest id "extract_session" (.array [.string transcriptRef, .null, .string sessionId])) =
      .call (.extractSession ⟨transcriptRef, none, sessionId, none⟩) fun answer => .done (toolReply id answer) := rfl

end Served

def sampleSerde : RequestSerde := ⟨fun _ => none, fun _ _ => "invalid type"⟩

/-- A call of `compile_context` by name. -/
def compileRequest (id prompt sessionId repoPath : Str) : JsonRpcRequest :=
  callRequest (some (.string id)) "compile_context"
    (.object [("prompt", .string prompt), ("session_id", .string sessionId), ("repo_path", .string repoPath)])

end SkillLayer.McpServer
