import SkillLayer.SessionExtractor.EventCoverage

/-! What the rich parser makes of each line of a payload, and of payloads put together. -/

namespace SkillLayer.SessionExtractor

open Domain

/-! ### Lines -/

/-- What a line holds for the JSON reader; blank lines are not read. -/
def readLine (json : SerdeJson) (line : Str) : Option (Except Str Value) :=
  if (Str.trim line).isEmpty then none else some (json.fromStr (Str.trim line))

def isInvalid (json : SerdeJson) (line : Str) : Bool :=
  match readLine json line with
  | some (.error _) => true
  | _ => false

/-- A user line whose content is neither a text nor a list of blocks. -/
def hasUnexpectedContent (value : Value) : Bool :=
  eventType value == "user".toList &&
    match messageContent value with
    | some (.string _) => false
    | some (.array _) => false
    | none => false
    | some _ => true

def isUnexpected (json : SerdeJson) (line : Str) : Bool :=
  match readLine json line with
  | some (.ok value) => hasUnexpectedContent value
  | _ => false

def isMalformed (json : SerdeJson) (line : Str) : Bool := isInvalid json line || isUnexpected json line

def atLine (lineIndex : Nat) : SessionEvent → SessionEvent
  | .userMessage _ content => .userMessage lineIndex content
  | .assistantMessage _ content => .assistantMessage lineIndex content
  | .toolCall _ toolUseId name inputJson => .toolCall lineIndex toolUseId name inputJson
  | .toolResult _ toolUseId isError exitCode output => .toolResult lineIndex toolUseId isError exitCode output
  | .fileEdit _ toolUseId path operation => .fileEdit lineIndex toolUseId path operation
  | .metadata _ eventType => .metadata lineIndex eventType

/-! ### Events that do not tell their line -/

/-- The events are the same at every line, but for their index. -/
def Uniform (events : Nat → List SessionEvent) : Prop :=
  ∀ lineIndex other, events other = (events lineIndex).map (atLine other)

theorem uniform_nil : Uniform fun _ => [] := fun _ _ => rfl

theorem uniform_singleton {event : Nat → SessionEvent}
    (moves : ∀ lineIndex other, event other = atLine other (event lineIndex)) :
    Uniform fun lineIndex => [event lineIndex] := by
  intro lineIndex other
  rw [List.map_singleton, ← moves]

theorem uniform_flatMap {Block : Type} {blocks : List Block} {events : Block → Nat → List SessionEvent}
    (each : ∀ block, Uniform (events block)) :
    Uniform fun lineIndex => blocks.flatMap fun block => events block lineIndex := by
  intro lineIndex other
  rw [List.map_flatMap]
  exact List.flatMap_congr fun block _ => each block lineIndex other

theorem uniform_messageEvent (speaker content : Str) :
    Uniform fun lineIndex => [messageEvent lineIndex speaker content] := by
  apply uniform_singleton
  intro lineIndex other
  unfold messageEvent
  split <;> rfl

theorem uniform_spokenEvent (value : Value) : Uniform (spokenEvent value) := by
  unfold spokenEvent
  split
  · exact uniform_nil
  · split
    · exact uniform_nil
    · exact uniform_messageEvent _ _

theorem uniform_userBlockEvents (block : Value) : Uniform (userBlockEvents block) := by
  unfold userBlockEvents
  split
  · exact uniform_singleton fun _ _ => rfl
  · exact uniform_nil

theorem uniform_parseToolUseBlock (json : SerdeJson) (block : Value) : Uniform (parseToolUseBlock json block) := by
  intro lineIndex other
  unfold parseToolUseBlock
  dsimp only
  split <;> rfl

theorem uniform_assistantBlockEvents (json : SerdeJson) (block : Value) : Uniform (assistantBlockEvents json block) := by
  unfold assistantBlockEvents
  split
  · split
    · exact uniform_nil
    · exact uniform_singleton fun _ _ => rfl
  · split
    · exact uniform_parseToolUseBlock json block
    · exact uniform_nil

/-- A line that counts as well formed and does not tell its number. -/
structure Regular (parsed : Nat → ParsedEvents) : Prop where
  counted : ∀ lineIndex, (parsed lineIndex).malformedCount = 0
  uniform : Uniform fun lineIndex => (parsed lineIndex).events

theorem regular_of_uniform {events : Nat → List SessionEvent} (uniform : Uniform events) :
    Regular fun lineIndex => ⟨events lineIndex, 0⟩ :=
  ⟨fun _ => rfl, uniform⟩

theorem parseUserLine_regular {value : Value} (user : eventType value = "user".toList)
    (expected : hasUnexpectedContent value = false) : Regular (parseUserLine value) := by
  unfold parseUserLine
  cases found : messageContent value with
  | none => exact regular_of_uniform (uniform_spokenEvent value)
  | some content =>
    cases content with
    | string text =>
      dsimp only
      split
      · exact regular_of_uniform uniform_nil
      · exact regular_of_uniform (uniform_singleton fun _ _ => rfl)
    | array blocks => exact regular_of_uniform (uniform_flatMap uniform_userBlockEvents)
    | _ => simp [hasUnexpectedContent, user, found] at expected

theorem parseAssistantLine_regular (json : SerdeJson) (value : Value) : Regular (parseAssistantLine json value) := by
  unfold parseAssistantLine
  split
  · exact regular_of_uniform (uniform_flatMap (uniform_assistantBlockEvents json))
  · split
    · exact regular_of_uniform (uniform_singleton fun _ _ => rfl)
    · exact regular_of_uniform uniform_nil

theorem parseOtherLine_regular (value : Value) : Regular (parseOtherLine value) := by
  unfold parseOtherLine
  split
  · exact regular_of_uniform (uniform_messageEvent _ _)
  · exact regular_of_uniform (uniform_singleton fun _ _ => rfl)

theorem parseValue_regular (json : SerdeJson) {value : Value} (expected : hasUnexpectedContent value = false) :
    Regular (parseValue json value) := by
  unfold parseValue
  split
  · rename_i user
    exact parseUserLine_regular user expected
  · split
    · exact parseAssistantLine_regular json value
    · split
      · exact regular_of_uniform (uniform_spokenEvent value)
      · exact parseOtherLine_regular value

theorem parseValue_unexpected (json : SerdeJson) {value : Value} (unexpected : hasUnexpectedContent value = true)
    (lineIndex : Nat) :
    parseValue json value lineIndex = ⟨[.userMessage lineIndex (unexpectedContentText lineIndex)], 1⟩ := by
  have user : eventType value = "user".toList := beq_iff_eq.mp ((Bool.and_eq_true _ _).mp unexpected).1
  rw [parseValue, if_pos user, parseUserLine]
  cases found : messageContent value with
  | none => simp [hasUnexpectedContent, found] at unexpected
  | some content =>
    cases content with
    | string text => simp [hasUnexpectedContent, found] at unexpected
    | array blocks => simp [hasUnexpectedContent, found] at unexpected
    | _ => rfl

/-! ### The account of one line -/

/-- What a line gives: nothing, one placeholder that is counted, or events that do not tell the line. -/
structure LineAccount (json : SerdeJson) (line : Str) (lineIndex : Nat) : Prop where
  placed : ∀ event ∈ (parseLine json line lineIndex).events, event.index = lineIndex
  blank : readLine json line = none → parseLine json line lineIndex = ⟨[], 0⟩
  invalid : isInvalid json line = true →
    parseLine json line lineIndex = ⟨[.userMessage lineIndex (unparseableText lineIndex)], 1⟩
  unexpected : isUnexpected json line = true →
    parseLine json line lineIndex = ⟨[.userMessage lineIndex (unexpectedContentText lineIndex)], 1⟩
  regular : isMalformed json line = false → (parseLine json line lineIndex).malformedCount = 0 ∧
    ∀ other, (parseLine json line other).events = (parseLine json line lineIndex).events.map (atLine other)

theorem parseLine_eq (json : SerdeJson) (line : Str) (lineIndex : Nat) :
    parseLine json line lineIndex =
      match readLine json line with
      | none => ⟨[], 0⟩
      | some (.error _) => ⟨[.userMessage lineIndex (unparseableText lineIndex)], 1⟩
      | some (.ok value) => parseValue json value lineIndex := by
  unfold parseLine readLine
  dsimp only
  split
  · rfl
  · cases json.fromStr (Str.trim line) <;> rfl

theorem lineAccount (json : SerdeJson) (line : Str) (lineIndex : Nat) : LineAccount json line lineIndex where
  placed := index_of_parseLine
  blank blank := by rw [parseLine_eq, blank]
  invalid invalid := by
    rw [parseLine_eq]
    unfold isInvalid at invalid
    split at invalid
    · rename_i read
      rw [read]
    · cases invalid
  unexpected unexpected := by
    rw [parseLine_eq]
    unfold isUnexpected at unexpected
    split at unexpected
    · rename_i read
      rw [read]
      exact parseValue_unexpected json unexpected lineIndex
    · cases unexpected
  regular wellFormed := by
    obtain ⟨valid, expected⟩ := (Bool.or_eq_false_iff).mp wellFormed
    simp only [parseLine_eq]
    cases read : readLine json line with
    | none => exact ⟨rfl, fun _ => rfl⟩
    | some answer =>
      cases answer with
      | error error => simp [isInvalid, read] at valid
      | ok value =>
        have plain : hasUnexpectedContent value = false := by simpa [isUnexpected, read] using expected
        have regular := parseValue_regular json plain
        exact ⟨regular.counted lineIndex, regular.uniform lineIndex⟩

theorem parseLine_malformedCount (json : SerdeJson) (line : Str) (lineIndex : Nat) :
    (parseLine json line lineIndex).malformedCount = if isMalformed json line then 1 else 0 := by
  have account := lineAccount json line lineIndex
  split
  · rename_i malformed
    rcases (Bool.or_eq_true _ _).mp malformed with invalid | unexpected
    · rw [account.invalid invalid]
    · rw [account.unexpected unexpected]
  · rename_i wellFormed
    exact (account.regular (Bool.eq_false_iff.mpr wellFormed)).1

/-! ### The account of a payload -/

/-- The events that stand for a line that could not be read. -/
def placeholders (json : SerdeJson) (payload : Str) : List SessionEvent :=
  ((Str.lines payload).zipIdx.filter fun entry => isMalformed json entry.1).flatMap fun entry =>
    (parseLine json entry.1 entry.2).events

/-- The events of a line of a later payload: behind `offset` more lines, a placeholder telling its new number. -/
def shiftedLine (json : SerdeJson) (offset : Nat) (entry : Str × Nat) : List SessionEvent :=
  if isInvalid json entry.1 then [.userMessage (offset + entry.2) (unparseableText (offset + entry.2))]
  else if isUnexpected json entry.1 then [.userMessage (offset + entry.2) (unexpectedContentText (offset + entry.2))]
  else (parseLine json entry.1 entry.2).events.map fun event => atLine (offset + event.index) event

def shifted (json : SerdeJson) (offset : Nat) (payload : Str) : ParsedEvents :=
  ⟨(Str.lines payload).zipIdx.flatMap (shiftedLine json offset), (parseSessionEvents json payload).malformedCount⟩

/-- A payload that ends between lines. -/
def EndsLine (payload : Str) : Prop := payload = [] ∨ payload.getLast? = some '\n'

theorem shiftedLine_eq (json : SerdeJson) (offset : Nat) (line : Str) (lineIndex : Nat) :
    shiftedLine json offset (line, lineIndex) = (parseLine json line (offset + lineIndex)).events := by
  have account := lineAccount json line (offset + lineIndex)
  unfold shiftedLine
  split
  · rename_i invalid
    rw [account.invalid invalid]
  · split
    · rename_i unexpected
      rw [account.unexpected unexpected]
    · rename_i valid expected
      have wellFormed : isMalformed json line = false := by
        simp [isMalformed, Bool.eq_false_iff.mpr valid, Bool.eq_false_iff.mpr expected]
      rw [((lineAccount json line lineIndex).regular wellFormed).2 (offset + lineIndex)]
      refine List.map_congr_left fun event member => ?_
      rw [index_of_parseLine event member]

theorem parseSessionEvents_malformedCount (json : SerdeJson) (payload : Str) :
    (parseSessionEvents json payload).malformedCount = (Str.lines payload).countP (isMalformed json) := by
  have accumulate (entries : List (Str × Nat)) (parsed : ParsedEvents) :
      (entries.foldl (fun parsed entry => parsed.append (parseLine json entry.1 entry.2)) parsed).malformedCount =
        parsed.malformedCount + (entries.map Prod.fst).countP (isMalformed json) := by
    induction entries generalizing parsed with
    | nil => rfl
    | cons entry rest ih =>
      have counted : (parsed.append (parseLine json entry.1 entry.2)).malformedCount =
          parsed.malformedCount + if isMalformed json entry.1 then 1 else 0 :=
        congrArg (parsed.malformedCount + ·) (parseLine_malformedCount json entry.1 entry.2)
      rw [List.foldl_cons, ih, counted, List.map_cons, List.countP_cons]
      omega
  have counted := accumulate (Str.lines payload).zipIdx ⟨[], 0⟩
  rw [List.zipIdx_map_fst, Nat.zero_add] at counted
  exact counted

theorem length_placeholders (json : SerdeJson) (payload : Str) :
    (placeholders json payload).length = (Str.lines payload).countP (isMalformed json) := by
  have each (entries : List (Str × Nat)) :
      ((entries.filter fun entry => isMalformed json entry.1).flatMap fun entry =>
        (parseLine json entry.1 entry.2).events).length = (entries.map Prod.fst).countP (isMalformed json) := by
    induction entries with
    | nil => rfl
    | cons entry rest ih =>
      rw [List.map_cons, List.countP_cons]
      cases malformed : isMalformed json entry.1 with
      | false => rw [List.filter_cons_of_neg (by simp [malformed]), ih, if_neg (by simp), Nat.add_zero]
      | true =>
        have account := lineAccount json entry.1 entry.2
        have single : (parseLine json entry.1 entry.2).events.length = 1 := by
          rcases (Bool.or_eq_true _ _).mp malformed with invalid | unexpected
          · rw [account.invalid invalid]
            rfl
          · rw [account.unexpected unexpected]
            rfl
        rw [List.filter_cons_of_pos (by simp [malformed]), List.flatMap_cons, List.length_append, ih, single, if_pos rfl,
          Nat.add_comm]
  rw [placeholders, each, List.zipIdx_map_fst]

theorem lines_append_of_endsLine {payload : Str} (ends : EndsLine payload) (rest : Str) :
    Str.lines (payload ++ rest) = Str.lines payload ++ Str.lines rest := by
  rcases ends with rfl | last
  · rfl
  · obtain ⟨front, rfl⟩ := List.getLast?_eq_some_iff.mp last
    rw [← Str.lines_append, List.append_assoc, List.singleton_append]

/-- Behind a payload that ends between lines the next one is parsed as it is alone, at later lines. -/
theorem parseSessionEvents_append {payload : Str} (ends : EndsLine payload) (json : SerdeJson) (rest : Str) :
    parseSessionEvents json (payload ++ rest) =
      (parseSessionEvents json payload).append (shifted json (Str.lines payload).length rest) := by
  have events : (parseSessionEvents json (payload ++ rest)).events =
      (parseSessionEvents json payload).events ++ (shifted json (Str.lines payload).length rest).events := by
    have later : ((Str.lines rest).zipIdx (Str.lines payload).length).flatMap
        (fun entry => (parseLine json entry.1 entry.2).events) = (shifted json (Str.lines payload).length rest).events := by
      rw [List.zipIdx_eq_map_add, List.flatMap_map]
      refine List.flatMap_congr fun entry _ => ?_
      exact (shiftedLine_eq json _ entry.1 entry.2).symm
    rw [parseSessionEvents_events, parseSessionEvents_events, lines_append_of_endsLine ends, List.zipIdx_append,
      List.flatMap_append, Nat.zero_add, later]
  have counted : (parseSessionEvents json (payload ++ rest)).malformedCount =
      (parseSessionEvents json payload).malformedCount + (parseSessionEvents json rest).malformedCount := by
    simp only [parseSessionEvents_malformedCount, lines_append_of_endsLine ends, List.countP_append]
  cases parsed : parseSessionEvents json (payload ++ rest) with
  | mk found count =>
    rw [parsed] at events counted
    dsimp only at events counted
    rw [events, counted]
    rfl

theorem indices_ordered (json : SerdeJson) (payload : Str) :
    ((parseSessionEvents json payload).events.map SessionEvent.index).Pairwise (· ≤ ·) := by
  have rising : (Str.lines payload).zipIdx.Pairwise fun first second => first.2 < second.2 := by
    apply List.pairwise_map.mp
    rw [List.zipIdx_map_snd]
    exact List.pairwise_lt_range'
  rw [parseSessionEvents_events, List.map_flatMap, List.pairwise_flatMap]
  constructor
  · intro entry _
    rw [map_index_parseLine]
    exact List.pairwise_replicate.mpr (.inr (Nat.le_refl _))
  · refine rising.imp ?_
    intro first second less one inFirst two inSecond
    rw [map_index_parseLine] at inFirst inSecond
    rw [List.eq_of_mem_replicate inFirst, List.eq_of_mem_replicate inSecond]
    exact Nat.le_of_lt less

/-- The books of the parser. -/
structure Accounted (json : SerdeJson) (payload : Str) : Prop where
  ordered : ((parseSessionEvents json payload).events.map SessionEvent.index).Pairwise (· ≤ ·)
  byLine : (parseSessionEvents json payload).events =
    (Str.lines payload).zipIdx.flatMap fun entry => (parseLine json entry.1 entry.2).events
  lines : ∀ entry ∈ (Str.lines payload).zipIdx, LineAccount json entry.1 entry.2
  counted : (parseSessionEvents json payload).malformedCount = (placeholders json payload).length
  appended : EndsLine payload → ∀ rest, parseSessionEvents json (payload ++ rest) =
    (parseSessionEvents json payload).append (shifted json (Str.lines payload).length rest)

theorem parseSessionEvents_accounted (json : SerdeJson) (payload : Str) : Accounted json payload where
  ordered := indices_ordered json payload
  byLine := parseSessionEvents_events json payload
  lines entry _ := lineAccount json entry.1 entry.2
  counted := by rw [parseSessionEvents_malformedCount, length_placeholders]
  appended ends rest := parseSessionEvents_append ends json rest

/-- A reader that accepts no text. -/
def rejectingJson : SerdeJson := ⟨fun _ => .error "expected value", fun _ => []⟩

/-- The placeholder of the line `x` tells the line's number in the payload that it is parsed in. -/
theorem placeholder_renumbered : ¬ ∀ json payload rest, EndsLine payload →
    (parseSessionEvents json (payload ++ rest)).events =
      (parseSessionEvents json payload).events ++ (parseSessionEvents json rest).events.map fun event =>
        atLine ((Str.lines payload).length + event.index) event := by
  intro concatenates
  have second := concatenates rejectingJson ['\n'] ['x'] (.inr rfl)
  exact absurd second (by decide)

end SkillLayer.SessionExtractor
