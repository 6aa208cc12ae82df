import SkillLayer.Collect
import SkillLayer.Domain.Types
import SkillLayer.Json

/-! The two transcript parsers: the flat `speaker: content` view and the rich
stream of typed session events. -/

namespace SkillLayer.SessionExtractor

open Domain

inductive TranscriptError where
  | invalidRoot (message : Str)
  | invalidReference (message : Str)
  | readFailure (path message : Str)
  | invalidPayload (message : Str)
deriving DecidableEq

/-! ### Field extraction shared by both parsers -/

def extractSpeaker (value : Value) : Option Str :=
  let named := ((value.get? "speaker").bind Value.asStr?).or
    (((value.get? "role").bind Value.asStr?).or
      ((value.pointer? ["message", "role"]).bind Value.asStr?))
  (named.map Str.trim).filter fun speaker => !speaker.isEmpty

/-- The trimmed non-blank `text` fields of an array of content parts. -/
def partTexts (parts : List Value) : List Str :=
  (parts.filterMap fun part => ((part.get? "text").bind Value.asStr?).map Str.trim).filter
    fun text => !text.isEmpty

def parseContentValue (value : Value) : Option Str :=
  match value with
  | .string content => if (Str.trim content).isEmpty then none else some (Str.trim content)
  | .array parts =>
    let stitched := Str.join " " (partTexts parts)
    if stitched.isEmpty then none else some stitched
  | _ => none

def extractContent (value : Value) : Option Str :=
  match (value.get? "content").bind parseContentValue with
  | some content => some content
  | none => (value.pointer? ["message", "content"]).bind parseContentValue

/-! ### Content blocks -/

/-- `str::parse::<i32>`: an optional sign, at least one digit, within range. -/
def parseI32 (text : Str) : Option Int :=
  let (negative, digits) :=
    match text with
    | '-' :: digits => (true, digits)
    | '+' :: digits => (false, digits)
    | digits => (false, digits)
  if digits.isEmpty || !digits.all Char.isDigit then none
  else
    let magnitude : Int := digits.foldl (fun value c => value * 10 + (c.toNat - '0'.toNat)) 0
    let number := if negative then -magnitude else magnitude
    if -2147483648 ≤ number ∧ number ≤ 2147483647 then some number else none

def extractExitCodeFromOutput (output : Str) : Option Int :=
  match Str.stripPrefix? "Exit code " output with
  | none => none
  | some rest => parseI32 (Str.trim ((Str.splitOn '\n' rest).headD []))

def parseToolResultBlock (block : Value) (lineIndex : Nat) : SessionEvent :=
  let toolUseId := ((block.get? "tool_use_id").bind Value.asStr?).getD []
  let isError := ((block.get? "is_error").bind Value.asBool?).getD false
  let output := ((block.get? "content").bind Value.asStr?).getD []
  .toolResult lineIndex toolUseId isError (extractExitCodeFromOutput output) output

/-- File-editing tools carry a target path and yield two events. -/
def isFileEditingTool (name : Str) : Bool :=
  name == "Write".toList || name == "Edit".toList || name == "MultiEdit".toList

def toolName (block : Value) : Str := ((block.get? "name").bind Value.asStr?).getD "unknown"

def parseToolUseBlock (json : SerdeJson) (block : Value) (lineIndex : Nat) : List SessionEvent :=
  let toolUseId := ((block.get? "id").bind Value.asStr?).getD []
  let name := toolName block
  let inputJson := ((block.get? "input").map json.toString).getD "{}"
  let call := SessionEvent.toolCall lineIndex toolUseId name inputJson
  if isFileEditingTool name then
    let path := ((block.pointer? ["input", "file_path"]).bind Value.asStr?).getD []
    [.fileEdit lineIndex toolUseId path name, call]
  else [call]

/-! ### The rich event stream -/

structure ParsedEvents where
  events : List SessionEvent
  malformedCount : Nat
deriving DecidableEq

def ParsedEvents.append (parsed more : ParsedEvents) : ParsedEvents :=
  ⟨parsed.events ++ more.events, parsed.malformedCount + more.malformedCount⟩

def eventType (value : Value) : Str := ((value.get? "type").bind Value.asStr?).getD "unknown"

def blockType (block : Value) : Str := ((block.get? "type").bind Value.asStr?).getD []

def messageContent (value : Value) : Option Value := value.pointer? ["message", "content"]

/-- Any speaker other than `user` is recorded as the assistant. -/
def messageEvent (lineIndex : Nat) (speaker content : Str) : SessionEvent :=
  if speaker = "user".toList then .userMessage lineIndex content
  else .assistantMessage lineIndex content

/-- The fallback for lines that carry a speaker and content at known fields. -/
def spokenEvent (value : Value) (lineIndex : Nat) : List SessionEvent :=
  match extractSpeaker value with
  | none => []
  | some speaker =>
    match extractContent value with
    | none => []
    | some content => [messageEvent lineIndex speaker content]

def unparseableText (lineIndex : Nat) : Str :=
  "[unparseable line " ++ Str.ofNat (lineIndex + 1) ++ "]".toList

def unexpectedContentText (lineIndex : Nat) : Str :=
  "[unexpected content shape on line " ++ Str.ofNat (lineIndex + 1) ++ "]".toList

def userBlockEvents (block : Value) (lineIndex : Nat) : List SessionEvent :=
  if blockType block = "tool_result".toList then [parseToolResultBlock block lineIndex] else []

def parseUserLine (value : Value) (lineIndex : Nat) : ParsedEvents :=
  match messageContent value with
  | some (.string text) =>
    let trimmedText := Str.trim text
    if trimmedText.isEmpty then ⟨[], 0⟩ else ⟨[.userMessage lineIndex trimmedText], 0⟩
  | some (.array blocks) => ⟨blocks.flatMap fun block => userBlockEvents block lineIndex, 0⟩
  | none => ⟨spokenEvent value lineIndex, 0⟩
  | some _ => ⟨[.userMessage lineIndex (unexpectedContentText lineIndex)], 1⟩

def blockText (block : Value) : Str :=
  Str.trim (((block.get? "text").bind Value.asStr?).getD [])

def assistantBlockEvents (json : SerdeJson) (block : Value) (lineIndex : Nat) : List SessionEvent :=
  if blockType block = "text".toList then
    if (blockText block).isEmpty then [] else [.assistantMessage lineIndex (blockText block)]
  else if blockType block = "tool_use".toList then parseToolUseBlock json block lineIndex
  else []

def parseAssistantLine (json : SerdeJson) (value : Value) (lineIndex : Nat) : ParsedEvents :=
  match (messageContent value).bind Value.asArray? with
  | some blocks => ⟨blocks.flatMap fun block => assistantBlockEvents json block lineIndex, 0⟩
  | none =>
    match extractContent value with
    | some content => ⟨[.assistantMessage lineIndex content], 0⟩
    | none => ⟨[], 0⟩

def parseMessageLine (value : Value) (lineIndex : Nat) : ParsedEvents :=
  ⟨spokenEvent value lineIndex, 0⟩

def parseOtherLine (value : Value) (lineIndex : Nat) : ParsedEvents :=
  match extractSpeaker value, extractContent value with
  | some speaker, some content => ⟨[messageEvent lineIndex speaker content], 0⟩
  | _, _ => ⟨[.metadata lineIndex (eventType value)], 0⟩

def parseValue (json : SerdeJson) (value : Value) (lineIndex : Nat) : ParsedEvents :=
  if eventType value = "user".toList then parseUserLine value lineIndex
  else if eventType value = "assistant".toList then parseAssistantLine json value lineIndex
  else if eventType value = "message".toList then parseMessageLine value lineIndex
  else parseOtherLine value lineIndex

/-- One iteration of the line loop. -/
def parseLine (json : SerdeJson) (line : Str) (lineIndex : Nat) : ParsedEvents :=
  let trimmed := Str.trim line
  if trimmed.isEmpty then ⟨[], 0⟩
  else
    match json.fromStr trimmed with
    | .error _ => ⟨[.userMessage lineIndex (unparseableText lineIndex)], 1⟩
    | .ok value => parseValue json value lineIndex

def parseSessionEvents (json : SerdeJson) (jsonlPayload : Str) : ParsedEvents :=
  (Str.lines jsonlPayload).zipIdx.foldl
    (fun parsed (line, lineIndex) => parsed.append (parseLine json line lineIndex)) ⟨[], 0⟩

/-- The loop only appends, so the events are those of the lines in order. -/
theorem parseSessionEvents_events (json : SerdeJson) (payload : Str) :
    (parseSessionEvents json payload).events =
      (Str.lines payload).zipIdx.flatMap fun entry => (parseLine json entry.1 entry.2).events := by
  have accumulate (entries : List (Str × Nat)) (parsed : ParsedEvents) :
      (entries.foldl (fun parsed (line, lineIndex) =>
        parsed.append (parseLine json line lineIndex)) parsed).events =
        parsed.events ++ entries.flatMap fun entry => (parseLine json entry.1 entry.2).events := by
    induction entries generalizing parsed with
    | nil => simp
    | cons entry rest ih =>
      rw [List.foldl_cons, ih]
      simp [ParsedEvents.append]
  exact accumulate _ ⟨[], 0⟩

/-! ### The flat view -/

/-- One iteration of the flat loop: the entry pushed by a line, if any. -/
def flatLine (json : SerdeJson) (line : Str) (lineIndex : Nat) :
    Except TranscriptError (List TranscriptEntry) :=
  let trimmed := Str.trim line
  if trimmed.isEmpty then .ok []
  else
    match json.fromStr trimmed with
    | .error error =>
      .error (.invalidPayload
        ("line " ++ Str.ofNat (lineIndex + 1) ++ " is not valid JSON: ".toList ++ error))
    | .ok value =>
      match extractSpeaker value with
      | none => .ok []
      | some speaker =>
        match extractContent value with
        | none => .ok []
        | some content => .ok [⟨speaker, content⟩]

def flatEntries (json : SerdeJson) (lines : List (Str × Nat)) :
    Except TranscriptError (List TranscriptEntry) :=
  collect (fun entry => flatLine json entry.1 entry.2) lines

def parseClaudeJsonl (json : SerdeJson) (sessionId jsonlPayload : Str) :
    Except TranscriptError SessionTranscript := do
  let parsedSessionId ←
    (DomainId.parse sessionId).mapError fun error => .invalidPayload error.display
  let entries ← flatEntries json (Str.lines jsonlPayload).zipIdx
  if entries.isEmpty then
    throw (.invalidPayload "transcript contains no conversational entries")
  return ⟨parsedSessionId, entries⟩

end SkillLayer.SessionExtractor
