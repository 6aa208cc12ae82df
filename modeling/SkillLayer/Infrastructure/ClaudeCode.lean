import SkillLayer.Domain.Types
import SkillLayer.Serde

/-! The command-line provider: the success envelope on its output, the text inside, and
the candidates decoded from it. -/

namespace SkillLayer.Infrastructure

open Domain

/-- The JSON library as far as the provider calls it: texts and values are refused or read, and
a list of candidates is only ever read from an array. -/
structure CliJson where
  fromStr : Str → Option Value
  /-- The top level of a text that is one JSON document. -/
  shape : Str → Option (Shape Str)
  readString : Str → Option Str
  readBool : Str → Option Bool
  readCandidates : Str → Option (List ExtractedSkillCandidate)
  /-- The value at the start of a text, whatever follows. -/
  firstValue : Str → Option Value
  candidatesOfValue : Value → Option (List ExtractedSkillCandidate)
  envelopeError : Str → Str
  bodyError : Value → Str
  readCandidates_array : ∀ text found, readCandidates text = some found → ∃ items, shape text = some (.array items)
  candidatesOfValue_array : ∀ value found, candidatesOfValue value = some found → ∃ items, value = .array items

structure ClaudeCliEnvelope where
  envelopeType : Str
  subtype : Str
  isError : Bool
  result : Str

variable (json : CliJson)

/-- The derived reader of the envelope, on a line that was found to be an object. -/
def ClaudeCliEnvelope.read (line : Str) : Option ClaudeCliEnvelope :=
  match json.shape line with
  | some (.object members) => do
    let envelopeType ← Shape.field json.readString none "type" members
    let subtype ← Shape.field json.readString (some []) "subtype" members
    let isError ← Shape.field json.readBool (some false) "is_error" members
    let result ← Shape.field json.readString (some []) "result" members
    some ⟨envelopeType, subtype, isError, result⟩
  | _ => none

/-- `CandidatesBody`, whose field has a default. -/
def readCandidatesBody {Part : Type} (read : Part → Option (List ExtractedSkillCandidate)) (shape : Shape Part) :
    Option (List ExtractedSkillCandidate) :=
  shape.readSole read (some []) "candidates"

/-- `StructuredExtraction` of the other text provider, whose field is required. -/
def readStructuredExtraction {Part : Type} (read : Part → Option (List ExtractedSkillCandidate))
    (shape : Shape Part) : Option (List ExtractedSkillCandidate) :=
  shape.readSole read none "candidates"

/-- The other provider refuses an object without candidates. -/
theorem readStructuredExtraction_absent {Part : Type} (read : Part → Option (List ExtractedSkillCandidate))
    {members : List (Str × Part)} (absent : ∀ member ∈ members, member.1 ≠ "candidates".toList) :
    readStructuredExtraction read (.object members) = none :=
  Shape.field_absent none absent

def stripSuffix? (pattern s : Str) : Option Str :=
  if pattern.isSuffixOf s then some (s.take (s.length - pattern.length)) else none

def stripMarkdownFences (s : Str) : Str :=
  let trimmed := Str.trim s
  let unfenced := ["```json".toList, "```".toList].findSome? fun fence =>
    (Str.stripPrefix? fence trimmed).bind (stripSuffix? "```")
  match unfenced with
  | some beforeClose => Str.trim beforeClose
  | none => trimmed

def isResultLine (line : Str) : Bool :=
  ((json.fromStr line).bind fun value => (value.get? "type").bind Value.asStr?) == some "result".toList

def extractResultText (rawStdout : Str) : Except ExtractionError Str :=
  match ((Str.lines rawStdout).filter fun line => !Str.isBlank line).find? (isResultLine json) with
  | none => .error (.providerUnavailable "claude CLI produced no output")
  | some envelopeJson =>
    match ClaudeCliEnvelope.read json envelopeJson with
    | none => .error (.unexpected ("failed to parse claude CLI output envelope: ".toList ++
        json.envelopeError envelopeJson ++ "; raw=".toList ++ envelopeJson))
    | some envelope =>
      if envelope.isError || envelope.subtype != "success".toList then
        let detail := "type=".toList ++ envelope.envelopeType ++ ", subtype=".toList ++ envelope.subtype ++
          if envelope.result.isEmpty then [] else ", result=".toList ++ envelope.result
        .error (.providerUnavailable ("claude CLI returned a non-success envelope: ".toList ++ detail))
      else .ok (stripMarkdownFences envelope.result)

/-- The fast path: the whole text is the body. -/
def bodyOfText (stripped : Str) : Option (List ExtractedSkillCandidate) :=
  (json.shape stripped).bind (readCandidatesBody json.readCandidates)

/-- The value from the first opening brace on. -/
def firstObject (stripped : Str) : Option Value :=
  match stripped.dropWhile (· != '\x7b') with
  | [] => none
  | text => json.firstValue text

/-- The parser past the envelope. -/
def parseCandidates (stripped : Str) : Except ExtractionError (List ExtractedSkillCandidate) :=
  match bodyOfText json stripped with
  | some candidates => .ok candidates
  | none =>
    match firstObject json stripped with
    | none => .error (.unexpected ("no JSON value found in claude CLI result: ".toList ++ stripped))
    | some value =>
      match readCandidatesBody json.candidatesOfValue value.shape with
      | some candidates => .ok candidates
      | none => .error (.unexpected ("failed to parse candidates body from claude CLI result: ".toList ++
          json.bodyError value ++ "; raw=".toList ++ stripped))

def parseCliOutput (rawStdout : Str) : Except ExtractionError (List ExtractedSkillCandidate) :=
  (extractResultText json rawStdout).bind (parseCandidates json)

/-! ### Answers of another shape -/

/-- What is decoded of a result text: all of it, or the first value in it. -/
inductive Decoded where
  | text (shape : Shape Str)
  | value (read : Value)

def ReadsArray (part : Str) : Prop := ∃ items, json.shape part = some (.array items)

def IsArray (part : Value) : Prop := ∃ items, part = .array items

/-- The decoded document is an object with an array of candidates. -/
def HasCandidates : Decoded → Prop
  | .text shape => shape.HasField "candidates" (ReadsArray json)
  | .value read => read.shape.HasField "candidates" IsArray

def decoded (stripped : Str) : Option Decoded :=
  match bodyOfText json stripped with
  | some _ => (json.shape stripped).map .text
  | none => (firstObject json stripped).map .value

/-- A list of candidates only ever comes from a document that has one. -/
def RefusesOtherShapes (rawStdout : Str) : Prop :=
  ∀ stripped candidates, extractResultText json rawStdout = .ok stripped →
    parseCliOutput json rawStdout = .ok candidates →
      ∃ document, decoded json stripped = some document ∧ HasCandidates json document

/-- The text, or else the first value in it, passes without candidates. -/
def PassesWithoutCandidates (stripped : Str) : Prop :=
  (∃ shape, json.shape stripped = some shape ∧ shape.PassesWithout json.readCandidates "candidates") ∨
    bodyOfText json stripped = none ∧ ∃ value, firstObject json stripped = some value ∧
      value.shape.PassesWithout json.candidatesOfValue "candidates"

variable {json}

theorem parseCliOutput_of_extracted {rawStdout stripped : Str}
    (extracted : extractResultText json rawStdout = .ok stripped) :
    parseCliOutput json rawStdout = parseCandidates json stripped := by
  rw [parseCliOutput, extracted]
  rfl

theorem parseCandidates_text {stripped : Str} {candidates : List ExtractedSkillCandidate}
    (body : bodyOfText json stripped = some candidates) : parseCandidates json stripped = .ok candidates := by
  simp only [parseCandidates, body]

theorem parseCandidates_value {stripped : Str} (noBody : bodyOfText json stripped = none)
    {candidates : List ExtractedSkillCandidate} :
    parseCandidates json stripped = .ok candidates ↔
      ∃ value, firstObject json stripped = some value ∧
        readCandidatesBody json.candidatesOfValue value.shape = some candidates := by
  simp only [parseCandidates, noBody]
  cases firstObject json stripped with
  | none => simp
  | some value =>
    cases taken : readCandidatesBody json.candidatesOfValue value.shape with
    | none => simp [taken]
    | some found => simp [taken]

/-- The parser refuses every other shape exactly when the result text does not pass without
candidates. -/
theorem parseCliOutput_refuses_iff (rawStdout : Str) :
    RefusesOtherShapes json rawStdout ↔
      ∀ stripped, extractResultText json rawStdout = .ok stripped → ¬ PassesWithoutCandidates json stripped := by
  constructor
  · intro refuses stripped extracted passes
    rcases passes with ⟨shape, read, without⟩ | ⟨noBody, value, found, without⟩
    · obtain ⟨candidates, taken⟩ := Shape.readSole_of_passesWithout [] without
      have body : bodyOfText json stripped = some candidates := by
        rw [bodyOfText, read]
        exact taken
      obtain ⟨document, same, has⟩ := refuses stripped candidates extracted
        ((parseCliOutput_of_extracted extracted).trans (parseCandidates_text body))
      rw [decoded, body, read] at same
      obtain rfl := Option.some.inj same
      have field : shape.HasField "candidates" (ReadsArray json) := has
      exact Shape.not_hasField_of_passesWithout without field
    · obtain ⟨candidates, taken⟩ := Shape.readSole_of_passesWithout [] without
      have parsed := (parseCandidates_value noBody).mpr ⟨value, found, taken⟩
      obtain ⟨document, same, has⟩ := refuses stripped candidates extracted
        ((parseCliOutput_of_extracted extracted).trans parsed)
      rw [decoded, noBody, found] at same
      obtain rfl := Option.some.inj same
      have field : value.shape.HasField "candidates" IsArray := has
      exact Shape.not_hasField_of_passesWithout without field
  · intro strict stripped candidates extracted parsed
    have never := strict stripped extracted
    rw [parseCliOutput_of_extracted extracted] at parsed
    cases body : bodyOfText json stripped with
    | some found =>
      obtain ⟨shape, read, taken⟩ := Option.bind_eq_some_iff.mp body
      refine ⟨.text shape, by rw [decoded, body, read]; rfl, ?_⟩
      exact Shape.hasField_of_readSole json.readCandidates_array taken
        fun without => never (.inl ⟨shape, read, without⟩)
    | none =>
      obtain ⟨value, found, taken⟩ := (parseCandidates_value body).mp parsed
      refine ⟨.value value, by rw [decoded, body, found]; rfl, ?_⟩
      exact Shape.hasField_of_readSole json.candidatesOfValue_array taken
        fun without => never (.inr ⟨body, value, found, without⟩)

/-! ### A reply of thoughts -/

def thoughtsText : Str := "\x7b\"thought1\":\"hm\"\x7d"

def thoughtsLine : Str :=
  "\x7b\"type\":\"result\",\"subtype\":\"success\",\"is_error\":false,".toList ++
    "\"result\":\"\x7b\\\"thought1\\\":\\\"hm\\\"\x7d\"\x7d"

/-- The texts between the quotes of `thoughtsLine`, in their JSON form. -/
def thoughtsMembers : List (Str × Str) :=
  [("type", "\"result\""), ("subtype", "\"success\""), ("is_error", "false"),
    ("result", "\"\x7b\\\"thought1\\\":\\\"hm\\\"\x7d\"")]

def thoughtsJson : CliJson where
  fromStr text :=
    if text == thoughtsLine then
      some (.object [("type", .string "result"), ("subtype", .string "success"), ("is_error", .bool false),
        ("result", .string thoughtsText)])
    else none
  shape text :=
    if text == thoughtsLine then some (.object thoughtsMembers)
    else if text == thoughtsText then some (.object [("thought1", "\"hm\"")])
    else none
  readString text :=
    if text == "\"result\"".toList then some "result"
    else if text == "\"success\"".toList then some "success"
    else if text == "\"\x7b\\\"thought1\\\":\\\"hm\\\"\x7d\"".toList then some thoughtsText
    else none
  readBool text := if text == "false".toList then some false else none
  readCandidates _ := none
  firstValue text := if text == thoughtsText then some (.object [("thought1", .string "hm")]) else none
  candidatesOfValue _ := none
  envelopeError _ := "expected value"
  bodyError _ := "expected value"
  readCandidates_array _ _ found := by cases found
  candidatesOfValue_array _ _ found := by cases found

/-- The thoughts are read as an empty list of candidates. -/
theorem thoughts_readAsEmpty : parseCliOutput thoughtsJson thoughtsLine = .ok [] ∧
    ¬ RefusesOtherShapes thoughtsJson thoughtsLine := by
  have extracted : extractResultText thoughtsJson thoughtsLine = .ok thoughtsText := by decide +kernel
  have without : (Shape.object [("thought1".toList, "\"hm\"".toList)]).PassesWithout thoughtsJson.readCandidates
      "candidates" := by
    intro member same
    rw [List.mem_singleton.mp same]
    decide
  have read : thoughtsJson.shape thoughtsText = some (.object [("thought1", "\"hm\"")]) := rfl
  have body : bodyOfText thoughtsJson thoughtsText = some [] := by
    rw [bodyOfText, read, Option.bind_some, readCandidatesBody, Shape.readSole]
    exact Shape.field_absent (some []) without
  constructor
  · exact (parseCliOutput_of_extracted extracted).trans (parseCandidates_text body)
  · rw [parseCliOutput_refuses_iff]
    intro strict
    exact strict thoughtsText extracted (.inl ⟨_, read, without⟩)

end SkillLayer.Infrastructure
