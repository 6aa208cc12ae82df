import SkillLayer.SessionExtractor.Transcripts

/-! Agreement of the flat view derived from events with the flat parser. -/

namespace SkillLayer.SessionExtractor

open Domain

/-- The entries derived from the parsed events are those of the flat parser,
whenever the flat parser accepts the payload. -/
def FlatViewAgrees (json : SerdeJson) (sessionId payload : Str) : Prop :=
  ∀ transcript, parseClaudeJsonl json sessionId payload = .ok transcript →
    (eventsToTranscript transcript.sessionId (parseSessionEvents json payload).events).entries =
      transcript.entries

/-! ### Line shapes on which the two parsers agree -/

/-- The flat parser skips the line: no speaker or no text. -/
def Silent (value : Value) : Prop := extractSpeaker value = none ∨ extractContent value = none

/-- The flat parser reads this speaker and this text from the line. -/
def Speaks (value : Value) (speaker content : Str) : Prop :=
  extractSpeaker value = some speaker ∧ extractContent value = some content

/-- A speaker that the typed events can express. -/
def KnownSpeaker (speaker : Str) : Prop := speaker = "user".toList ∨ speaker = "assistant".toList

def SpokenByKnown (value : Value) : Prop :=
  ∀ speaker content, Speaks value speaker content → KnownSpeaker speaker

/-- The non-blank `text` blocks of an assistant line. -/
def assistantTexts (blocks : List Value) : List Str :=
  (blocks.filter fun block => blockType block == "text".toList && !(blockText block).isEmpty).map
    blockText

/-- A string speaks as the user; an array of results is silent; anything else
must match the placeholder that the event parser writes. -/
def AgreeingUser (value : Value) (lineIndex : Nat) : Prop :=
  match messageContent value with
  | some (.string text) =>
    if Str.trim text = [] then Silent value else Speaks value "user" (Str.trim text)
  | some (.array _) => Silent value
  | none => SpokenByKnown value
  | some _ => Speaks value "user" (unexpectedContentText lineIndex)

/-- At most one text block, and the same one for both parsers. -/
def AgreeingAssistant (value : Value) : Prop :=
  match (messageContent value).bind Value.asArray? with
  | some blocks =>
    match assistantTexts blocks with
    | [] => Silent value
    | [text] => Speaks value "assistant" text
    | _ => False
  | none => ∀ content, extractContent value = some content → Speaks value "assistant" content

def AgreeingValue (value : Value) (lineIndex : Nat) : Prop :=
  if eventType value = "user".toList then AgreeingUser value lineIndex
  else if eventType value = "assistant".toList then AgreeingAssistant value
  else SpokenByKnown value

def AgreeingLines (json : SerdeJson) (payload : Str) : Prop :=
  ∀ entry ∈ (Str.lines payload).zipIdx, ∀ value,
    Str.trim entry.1 ≠ [] → json.fromStr (Str.trim entry.1) = .ok value →
      AgreeingValue value entry.2

/-! ### One line -/

def flatOfValue (value : Value) : List TranscriptEntry :=
  match extractSpeaker value with
  | none => []
  | some speaker =>
    match extractContent value with
    | none => []
    | some content => [⟨speaker, content⟩]

def entriesOf (events : List SessionEvent) : List TranscriptEntry :=
  events.filterMap SessionEvent.asTranscriptEntry?

theorem flatOfValue_eq_nil (value : Value) : flatOfValue value = [] ↔ Silent value := by
  unfold flatOfValue Silent
  cases extractSpeaker value <;> cases extractContent value <;> simp

theorem flatOfValue_eq_singleton (value : Value) (speaker content : Str) :
    flatOfValue value = [⟨speaker, content⟩] ↔ Speaks value speaker content := by
  unfold flatOfValue Speaks
  cases extractSpeaker value <;> cases extractContent value <;> simp

theorem length_flatOfValue_le (value : Value) : (flatOfValue value).length ≤ 1 := by
  unfold flatOfValue
  cases extractSpeaker value <;> cases extractContent value <;> simp

theorem entriesOf_messageEvent (lineIndex : Nat) (speaker content : Str) :
    entriesOf [messageEvent lineIndex speaker content] = [⟨speaker, content⟩] ↔
      KnownSpeaker speaker := by
  unfold messageEvent KnownSpeaker entriesOf
  by_cases user : speaker = "user".toList
  · rw [if_pos user]
    exact iff_of_true (by rw [user]; rfl) (.inl user)
  · rw [if_neg user]
    constructor
    · intro same
      injection same with same
      injection same with same
      exact .inr same.symm
    · rintro (same | same)
      · exact absurd same user
      · rw [same]
        rfl

theorem spokenEvent_agrees (value : Value) (lineIndex : Nat) :
    entriesOf (spokenEvent value lineIndex) = flatOfValue value ↔ SpokenByKnown value := by
  unfold spokenEvent flatOfValue SpokenByKnown Speaks
  cases speaks : extractSpeaker value with
  | none => simp [entriesOf]
  | some speaker =>
    cases content : extractContent value with
    | none => simp [entriesOf]
    | some text => simpa using entriesOf_messageEvent lineIndex speaker text

theorem parseOtherLine_agrees (value : Value) (lineIndex : Nat) :
    entriesOf (parseOtherLine value lineIndex).events = flatOfValue value ↔
      SpokenByKnown value := by
  unfold parseOtherLine flatOfValue SpokenByKnown Speaks
  cases speaks : extractSpeaker value with
  | none => simp [entriesOf, SessionEvent.asTranscriptEntry?]
  | some speaker =>
    cases content : extractContent value with
    | none => simp [entriesOf, SessionEvent.asTranscriptEntry?]
    | some text => simpa using entriesOf_messageEvent lineIndex speaker text

theorem entriesOf_userBlocks (blocks : List Value) (lineIndex : Nat) :
    entriesOf (blocks.flatMap fun block => userBlockEvents block lineIndex) = [] := by
  unfold entriesOf
  rw [List.filterMap_eq_nil_iff]
  intro event member
  obtain ⟨block, _, inBlock⟩ := List.mem_flatMap.mp member
  unfold userBlockEvents at inBlock
  split at inBlock
  · simp only [List.mem_singleton] at inBlock
    subst event
    rfl
  · cases inBlock

theorem silent_agrees (value : Value) : [] = flatOfValue value ↔ Silent value :=
  eq_comm.trans (flatOfValue_eq_nil value)

theorem singleton_agrees (value : Value) (speaker content : Str) :
    [⟨speaker, content⟩] = flatOfValue value ↔ Speaks value speaker content :=
  eq_comm.trans (flatOfValue_eq_singleton value speaker content)

theorem parseUserLine_agrees (value : Value) (lineIndex : Nat) :
    entriesOf (parseUserLine value lineIndex).events = flatOfValue value ↔
      AgreeingUser value lineIndex := by
  have placeholder := singleton_agrees value "user" (unexpectedContentText lineIndex)
  unfold parseUserLine AgreeingUser
  cases content : messageContent value with
  | none => exact spokenEvent_agrees value lineIndex
  | some found =>
    cases found with
    | string text =>
      by_cases blank : Str.trim text = []
      · simp only [blank, List.isEmpty_nil, if_true]
        exact silent_agrees value
      · simp only [List.isEmpty_iff, blank, if_false]
        exact singleton_agrees value "user" (Str.trim text)
    | array blocks =>
      simp only [entriesOf_userBlocks]
      exact silent_agrees value
    | null => exact placeholder
    | bool flag => exact placeholder
    | number number => exact placeholder
    | object fields => exact placeholder

theorem entriesOf_toolUse (json : SerdeJson) (block : Value) (lineIndex : Nat) :
    entriesOf (parseToolUseBlock json block lineIndex) = [] := by
  unfold parseToolUseBlock
  dsimp only
  split <;> rfl

theorem entriesOf_assistantBlock (json : SerdeJson) (block : Value) (lineIndex : Nat) :
    entriesOf (assistantBlockEvents json block lineIndex) =
      (assistantTexts [block]).map fun text => ⟨"assistant", text⟩ := by
  unfold assistantBlockEvents assistantTexts
  rw [List.filter_singleton]
  by_cases text : blockType block = "text".toList
  · rw [if_pos text, beq_iff_eq.mpr text, Bool.true_and]
    by_cases blank : (blockText block).isEmpty = true
    · rw [if_pos blank, blank]
      rfl
    · rw [if_neg blank, Bool.not_eq_true _ |>.mp blank]
      rfl
  · rw [if_neg text, beq_eq_false_iff_ne.mpr text, Bool.false_and]
    split
    · exact entriesOf_toolUse json block lineIndex
    · rfl

theorem entriesOf_assistantBlocks (json : SerdeJson) (blocks : List Value) (lineIndex : Nat) :
    entriesOf (blocks.flatMap fun block => assistantBlockEvents json block lineIndex) =
      (assistantTexts blocks).map fun text => ⟨"assistant", text⟩ := by
  induction blocks with
  | nil => rfl
  | cons block rest ih =>
    have tail : assistantTexts (block :: rest) = assistantTexts [block] ++ assistantTexts rest := by
      simp only [assistantTexts, ← List.map_append, ← List.filter_append, List.singleton_append]
    rw [tail, List.map_append, ← entriesOf_assistantBlock json block lineIndex, ← ih,
      List.flatMap_cons, entriesOf, List.filterMap_append]
    rfl

theorem parseAssistantLine_agrees (json : SerdeJson) (value : Value) (lineIndex : Nat) :
    entriesOf (parseAssistantLine json value lineIndex).events = flatOfValue value ↔
      AgreeingAssistant value := by
  unfold parseAssistantLine AgreeingAssistant
  cases (messageContent value).bind Value.asArray? with
  | some blocks =>
    simp only [entriesOf_assistantBlocks]
    match assistantTexts blocks with
    | [] => exact silent_agrees value
    | [text] => exact singleton_agrees value "assistant" text
    | first :: second :: others =>
      refine iff_of_false ?_ id
      intro same
      have bound := length_flatOfValue_le value
      rw [← same] at bound
      simp at bound
  | none =>
    cases content : extractContent value with
    | none =>
      have silent := (silent_agrees value).mpr (.inr content)
      simpa [entriesOf] using silent
    | some text =>
      simp only [Option.some.injEq, forall_eq']
      exact singleton_agrees value "assistant" text

theorem parseValue_agrees (json : SerdeJson) (value : Value) (lineIndex : Nat) :
    entriesOf (parseValue json value lineIndex).events = flatOfValue value ↔
      AgreeingValue value lineIndex := by
  unfold parseValue AgreeingValue
  split
  · exact parseUserLine_agrees value lineIndex
  · split
    · exact parseAssistantLine_agrees json value lineIndex
    · split
      · exact spokenEvent_agrees value lineIndex
      · exact parseOtherLine_agrees value lineIndex

/-- On a line that the flat loop survives, both loops push the same entries
exactly when the line has an agreeing shape. -/
theorem line_agrees {json : SerdeJson} {line : Str} {lineIndex : Nat}
    (survives : ∃ entries, flatLine json line lineIndex = .ok entries) :
    entriesOf (parseLine json line lineIndex).events =
        yielded (fun entry : Str × Nat => flatLine json entry.1 entry.2) (line, lineIndex) ↔
      ∀ value, Str.trim line ≠ [] → json.fromStr (Str.trim line) = .ok value →
        AgreeingValue value lineIndex := by
  obtain ⟨entries, survives⟩ := survives
  have flat : yielded (fun entry : Str × Nat => flatLine json entry.1 entry.2) (line, lineIndex) =
      entries := by simp [yielded, survives]
  rw [flat]
  unfold flatLine at survives
  unfold parseLine
  by_cases blank : Str.trim line = []
  · simp only [blank, List.isEmpty_nil, if_true, Except.ok.injEq] at survives
    simp [blank, ← survives, entriesOf]
  · cases parsed : json.fromStr (Str.trim line) with
    | error error => simp [blank, parsed] at survives
    | ok value =>
      have pushed : flatOfValue value = entries := by
        simp only [List.isEmpty_iff, blank, if_false, parsed] at survives
        unfold flatOfValue
        cases speaks : extractSpeaker value with
        | none => simpa [speaks] using survives
        | some speaker =>
          cases content : extractContent value with
          | none => simpa [speaks, content] using survives
          | some text => simpa [speaks, content] using survives
      have only : (∀ found, Str.trim line ≠ [] → Except.ok (ε := Str) value = .ok found →
          AgreeingValue found lineIndex) ↔ AgreeingValue value lineIndex :=
        ⟨fun every => every value blank rfl, fun agreeing found _ same => by cases same; exact agreeing⟩
      rw [only, ← pushed, if_neg (mt List.isEmpty_iff.mp blank)]
      simpa only [parsed] using parseValue_agrees json value lineIndex

/-! ### Whole payloads -/

theorem entries_of_parseClaudeJsonl {json : SerdeJson} {sessionId payload : Str}
    {transcript : SessionTranscript} (parsed : parseClaudeJsonl json sessionId payload = .ok transcript) :
    flatEntries json (Str.lines payload).zipIdx = .ok transcript.entries := by
  unfold parseClaudeJsonl at parsed
  cases identified : (DomainId.parse sessionId).mapError
      fun error => TranscriptError.invalidPayload error.display with
  | error error => simp [identified, bind, Except.bind] at parsed
  | ok parsedSessionId =>
    cases collected : flatEntries json (Str.lines payload).zipIdx with
    | error error => simp [identified, collected, bind, Except.bind] at parsed
    | ok entries =>
      by_cases empty : entries.isEmpty = true
      · simp [identified, collected, empty, bind, Except.bind, throw, throwThe,
          MonadExceptOf.throw] at parsed
      · simp only [identified, collected, empty, bind, Except.bind, pure, Except.pure,
          Except.ok.injEq, Bool.false_eq_true, if_false] at parsed
        rw [← parsed]

/-- The entries of the first `count` lines as the event loop and the flat loop
have collected them. -/
def eventEntriesAfter (json : SerdeJson) (payload : Str) (count : Nat) : List TranscriptEntry :=
  ((Str.lines payload).zipIdx.take count).flatMap fun entry =>
    entriesOf (parseLine json entry.1 entry.2).events

def flatEntriesAfter (json : SerdeJson) (payload : Str) (count : Nat) : List TranscriptEntry :=
  ((Str.lines payload).zipIdx.take count).flatMap
    (yielded fun entry => flatLine json entry.1 entry.2)

theorem agreeingLines_iff {json : SerdeJson} {payload : Str} {entries : List TranscriptEntry}
    (collected : flatEntries json (Str.lines payload).zipIdx = .ok entries) :
    AgreeingLines json payload ↔
      ∀ count, eventEntriesAfter json payload count = flatEntriesAfter json payload count := by
  have survives := (collect_eq_ok.mp collected).1
  unfold eventEntriesAfter flatEntriesAfter AgreeingLines
  rw [flatMap_take_congr]
  constructor
  · intro agreeing entry member
    exact (line_agrees (survives entry member)).mpr (agreeing entry member)
  · intro inStep entry member
    exact (line_agrees (survives entry member)).mp (inStep entry member)

theorem entries_eventsToTranscript (json : SerdeJson) (sessionId : DomainId) (payload : Str) :
    (eventsToTranscript sessionId (parseSessionEvents json payload).events).entries =
      eventEntriesAfter json payload (Str.lines payload).length := by
  unfold eventsToTranscript eventEntriesAfter entriesOf
  rw [parseSessionEvents_events, List.filterMap_flatMap,
    List.take_of_length_le (by rw [List.length_zipIdx])]

theorem entries_flatEntries {json : SerdeJson} {payload : Str} {entries : List TranscriptEntry}
    (collected : flatEntries json (Str.lines payload).zipIdx = .ok entries) :
    entries = flatEntriesAfter json payload (Str.lines payload).length := by
  unfold flatEntriesAfter
  rw [List.take_of_length_le (by rw [List.length_zipIdx])]
  exact (collect_eq_ok.mp collected).2

/-- Agreeing lines make the derived view equal to the flat one, and on an accepted
payload they are exactly what keeps the two loops in step after every line. -/
theorem flatViewAgrees_of_agreeingLines (json : SerdeJson) (sessionId payload : Str) :
    (AgreeingLines json payload → FlatViewAgrees json sessionId payload) ∧
      ∀ transcript, parseClaudeJsonl json sessionId payload = .ok transcript →
        (AgreeingLines json payload ↔
          ∀ count, eventEntriesAfter json payload count = flatEntriesAfter json payload count) := by
  constructor
  · intro agreeing transcript parsed
    have collected := entries_of_parseClaudeJsonl parsed
    rw [entries_eventsToTranscript, entries_flatEntries collected]
    exact (agreeingLines_iff collected).mp agreeing _
  · intro transcript parsed
    exact agreeingLines_iff (entries_of_parseClaudeJsonl parsed)

def greetingLine : Str := "\x7b\"role\":\"user\",\"content\":\"hi\"\x7d"

def greetingValue : Value := .object [("role", .string "user"), ("content", .string "hi")]

def greetingJson : SerdeJson := .onText greetingLine greetingValue []

theorem greeting_agrees : FlatViewAgrees greetingJson "s" greetingLine ∧
    ∀ count, eventEntriesAfter greetingJson greetingLine count =
      flatEntriesAfter greetingJson greetingLine count := by
  have agreeing : AgreeingLines greetingJson greetingLine := by
    have lines : (Str.lines greetingLine).zipIdx = [(greetingLine, 0)] := by decide +kernel
    have trimmed : Str.trim greetingLine = greetingLine := by decide +kernel
    intro entry member value _ parsed
    rw [lines, List.mem_singleton] at member
    rw [member, trimmed] at parsed
    have read := SerdeJson.fromStr_onText greetingLine greetingValue []
    obtain rfl := Except.ok.inj (read.symm.trans parsed)
    rw [AgreeingValue, if_neg (by decide), if_neg (by decide)]
    rintro speaker content ⟨spoken, -⟩
    left
    have named : extractSpeaker greetingValue = some "user".toList := by decide +kernel
    exact (Option.some.inj (named.symm.trans spoken)).symm
  have result := flatViewAgrees_of_agreeingLines greetingJson "s" greetingLine
  exact ⟨result.1 agreeing,
    (result.2 ⟨⟨"s"⟩, [⟨"user", "hi"⟩]⟩ (by decide +kernel)).mp agreeing⟩

/-- An assistant line with two text blocks: the flat parser joins them. -/
def twoBlockLine : Str :=
  "\x7b\"type\":\"assistant\",\"role\":\"assistant\",\"message\":\x7b\"content\":[".toList ++
    "\x7b\"type\":\"text\",\"text\":\"a\"\x7d,\x7b\"type\":\"text\",\"text\":\"b\"\x7d]\x7d\x7d".toList

def twoBlockValue : Value :=
  .object [("type", .string "assistant"), ("role", .string "assistant"),
    ("message", .object [("content", .array
      [.object [("type", .string "text"), ("text", .string "a")],
        .object [("type", .string "text"), ("text", .string "b")]])])]

def twoBlockJson : SerdeJson := .onText twoBlockLine twoBlockValue []

/-- Two text blocks of one assistant line are two entries after the event parser. -/
theorem twoBlockLine_diverges : ¬ FlatViewAgrees twoBlockJson "s" twoBlockLine := by
  intro agrees
  have same := agrees ⟨⟨"s"⟩, [⟨"assistant", "a b"⟩]⟩ (by decide +kernel)
  revert same
  decide +kernel

end SkillLayer.SessionExtractor
