import SkillLayer.SessionExtractor.MapStep
import SkillLayer.SessionExtractor.Transcripts

/-! Composition of the parser, the windower and the lookup: which payloads keep
every parsed event on its way to the map step. -/

namespace SkillLayer.SessionExtractor

open Domain

/-- Every position of the stream is resolved by some window, and each window
resolves to the contiguous slice that was packed into it. -/
structure NoEventLost (events : List SessionEvent) (config : SegmentationConfig) : Prop where
  reached : ∀ pos : Fin events.length,
    ∃ window ∈ segmentSession events config, pos ∈ windowRefs events window
  sliced : List.Forall₂
    (fun window span => windowEvents events window = (events.drop span.1).take span.2)
    (segmentSession events config) (windowSpans events config)

/-! ### Coverage of an arbitrary event stream -/

theorem positions_of_slice (events : List SessionEvent) (start length : Nat) :
    (((List.finRange events.length).drop start).take length).map events.get =
      (events.drop start).take length := by
  rw [List.map_take, List.map_drop]
  congr 2
  apply List.ext_getElem <;> simp

theorem windowRefs_span {events : List SessionEvent}
    (nodup : (events.map SessionEvent.index).Nodup) (span : Nat × Nat) :
    windowRefs events ⟨((events.drop span.1).take span.2).map SessionEvent.index, none⟩ =
      ((List.finRange events.length).drop span.1).take span.2 := by
  rw [← positions_of_slice, List.map_map]
  exact windowRefs_of_nodup nodup _

/-- A stream survives resolution exactly when no two events share a source line. -/
theorem noEventLost_iff_nodup (events : List SessionEvent) (config : SegmentationConfig) :
    NoEventLost events config ↔ (events.map SessionEvent.index).Nodup := by
  constructor
  · intro kept
    have resolves (pos : Fin events.length) :
        eventByIndex events (events.get pos).index = some pos := by
      obtain ⟨window, _, member⟩ := kept.reached pos
      obtain ⟨index, _, found⟩ := List.mem_filterMap.mp member
      rw [index_of_eventByIndex found]
      exact found
    have distinct : Function.Injective fun pos => (events.get pos).index := by
      intro first second same
      have found := resolves first
      rw [show (events.get first).index = (events.get second).index from same,
        resolves second] at found
      exact (Option.some.inj found).symm
    have listed : events.map SessionEvent.index =
        (List.finRange events.length).map fun pos => (events.get pos).index := by
      apply List.ext_getElem <;> simp
    rw [listed]
    exact (List.nodup_finRange _).map distinct
  · intro nodup
    constructor
    · intro pos
      obtain ⟨span, member, after, before⟩ := windowSpans_cover events config pos.1 pos.2
      rw [segmentSession_eq]
      refine ⟨_, List.mem_map.mpr ⟨span, member, rfl⟩, ?_⟩
      rw [windowRefs_span nodup]
      apply List.mem_iff_getElem.mpr
      refine ⟨pos.1 - span.1, ?_, ?_⟩
      · simp only [List.length_take, List.length_drop, List.length_finRange]
        omega
      · simp only [List.getElem_take, List.getElem_drop, List.getElem_finRange]
        apply Fin.ext
        simp only [Fin.val_cast]
        omega
    · rw [segmentSession_eq, List.forall₂_map_left_iff, List.forall₂_same]
      intro span _
      rw [windowEvents, windowRefs_span nodup, positions_of_slice]

/-! ### Source lines of the parsed stream -/

theorem index_of_spokenEvent {value : Value} {lineIndex : Nat} :
    ∀ event ∈ spokenEvent value lineIndex, event.index = lineIndex := by
  intro event member
  unfold spokenEvent at member
  split at member
  · cases member
  · split at member
    · cases member
    · simp only [List.mem_singleton] at member
      subst event
      unfold messageEvent
      split <;> rfl

theorem index_of_parseToolUseBlock {json : SerdeJson} {block : Value} {lineIndex : Nat} :
    ∀ event ∈ parseToolUseBlock json block lineIndex, event.index = lineIndex := by
  intro event member
  unfold parseToolUseBlock at member
  dsimp only at member
  split at member
  · rcases List.mem_cons.mp member with rfl | call
    · rfl
    · simp only [List.mem_singleton] at call
      subst event
      rfl
  · simp only [List.mem_singleton] at member
    subst event
    rfl

theorem index_of_assistantBlockEvents {json : SerdeJson} {block : Value} {lineIndex : Nat} :
    ∀ event ∈ assistantBlockEvents json block lineIndex, event.index = lineIndex := by
  intro event member
  unfold assistantBlockEvents at member
  split at member
  · split at member
    · cases member
    · simp only [List.mem_singleton] at member
      subst event
      rfl
  · split at member
    · exact index_of_parseToolUseBlock event member
    · cases member

theorem index_of_parseValue {json : SerdeJson} {value : Value} {lineIndex : Nat} :
    ∀ event ∈ (parseValue json value lineIndex).events, event.index = lineIndex := by
  intro event member
  unfold parseValue at member
  split at member
  · unfold parseUserLine at member
    split at member
    · dsimp only at member
      split at member
      · cases member
      · simp only [List.mem_singleton] at member
        subst event
        rfl
    · obtain ⟨block, _, inBlock⟩ := List.mem_flatMap.mp member
      unfold userBlockEvents at inBlock
      split at inBlock
      · simp only [List.mem_singleton] at inBlock
        subst event
        rfl
      · cases inBlock
    · exact index_of_spokenEvent event member
    · simp only [List.mem_singleton] at member
      subst event
      rfl
  · split at member
    · unfold parseAssistantLine at member
      split at member
      · obtain ⟨block, _, inBlock⟩ := List.mem_flatMap.mp member
        exact index_of_assistantBlockEvents event inBlock
      · split at member
        · simp only [List.mem_singleton] at member
          subst event
          rfl
        · cases member
    · split at member
      · exact index_of_spokenEvent event member
      · unfold parseOtherLine at member
        split at member
        · simp only [List.mem_singleton] at member
          subst event
          unfold messageEvent
          split <;> rfl
        · simp only [List.mem_singleton] at member
          subst event
          rfl

/-- Every event carries the source line that it was parsed from. -/
theorem index_of_parseLine {json : SerdeJson} {line : Str} {lineIndex : Nat} :
    ∀ event ∈ (parseLine json line lineIndex).events, event.index = lineIndex := by
  intro event member
  unfold parseLine at member
  dsimp only at member
  split at member
  · cases member
  · split at member
    · simp only [List.mem_singleton] at member
      subst event
      rfl
    · exact index_of_parseValue event member

theorem map_index_parseLine (json : SerdeJson) (line : Str) (lineIndex : Nat) :
    (parseLine json line lineIndex).events.map SessionEvent.index =
      List.replicate (parseLine json line lineIndex).events.length lineIndex := by
  rw [List.eq_replicate_iff]
  refine ⟨by simp, ?_⟩
  intro index member
  obtain ⟨event, inLine, rfl⟩ := List.mem_map.mp member
  exact index_of_parseLine event inLine

theorem pairwise_zipIdx (lines : List Str) (start : Nat) :
    (lines.zipIdx start).Pairwise fun first second => first.2 ≠ second.2 := by
  have indices : ((lines.zipIdx start).map Prod.snd).Nodup := by
    rw [List.zipIdx_map_snd]
    exact List.nodup_range'
  exact List.pairwise_map.mp indices

/-- Source lines repeat exactly when one line yields several events. -/
theorem nodup_parsed_iff (json : SerdeJson) (payload : Str) :
    ((parseSessionEvents json payload).events.map SessionEvent.index).Nodup ↔
      ∀ entry ∈ (Str.lines payload).zipIdx, (parseLine json entry.1 entry.2).events.length ≤ 1 := by
  rw [parseSessionEvents_events, List.map_flatMap, List.nodup_flatMap]
  constructor
  · rintro ⟨each, -⟩ entry member
    have nodup := each entry member
    rw [map_index_parseLine, List.nodup_replicate] at nodup
    exact nodup
  · intro short
    refine ⟨?_, ?_⟩
    · intro entry member
      rw [map_index_parseLine, List.nodup_replicate]
      exact short entry member
    · apply (pairwise_zipIdx (Str.lines payload) 0).imp
      intro first second different
      simp only [Function.onFun, map_index_parseLine]
      intro index inFirst inSecond
      exact different ((List.eq_of_mem_replicate inFirst).symm.trans
        (List.eq_of_mem_replicate inSecond))

/-! ### Lines that carry at most one event -/

/-- How many events one content block of an assistant line stands for. -/
def assistantBlockCount (block : Value) : Nat :=
  if blockType block = "text".toList then if (blockText block).isEmpty then 0 else 1
  else if blockType block = "tool_use".toList then if isFileEditingTool (toolName block) then 2 else 1
  else 0

def assistantBlocksCount : List Value → Nat
  | [] => 0
  | block :: blocks => assistantBlockCount block + assistantBlocksCount blocks

/-- The JSON shape of a line that carries at most one event: no user line with
two tool results, no assistant line with two texts or tool calls or one file edit. -/
def SingleEvent (value : Value) : Prop :=
  if eventType value = "user".toList then
    ∀ blocks, messageContent value = some (.array blocks) →
      (blocks.filter fun block => blockType block = "tool_result".toList).length ≤ 1
  else if eventType value = "assistant".toList then
    ∀ blocks, messageContent value = some (.array blocks) →
      assistantBlocksCount blocks ≤ 1
  else True

def SingleEventLines (json : SerdeJson) (payload : Str) : Prop :=
  ∀ line ∈ Str.lines payload, ∀ value,
    Str.trim line ≠ [] → json.fromStr (Str.trim line) = .ok value → SingleEvent value

theorem length_assistantBlockEvents (json : SerdeJson) (block : Value) (lineIndex : Nat) :
    (assistantBlockEvents json block lineIndex).length = assistantBlockCount block := by
  unfold assistantBlockEvents assistantBlockCount parseToolUseBlock
  dsimp only
  split
  · split <;> rfl
  · split
    · split <;> rfl
    · rfl

theorem length_assistantBlocks (json : SerdeJson) (blocks : List Value) (lineIndex : Nat) :
    (blocks.flatMap fun block => assistantBlockEvents json block lineIndex).length =
      assistantBlocksCount blocks := by
  induction blocks with
  | nil => rfl
  | cons block rest ih =>
    rw [List.flatMap_cons, List.length_append, length_assistantBlockEvents, ih, assistantBlocksCount]

theorem length_userBlocks (blocks : List Value) (lineIndex : Nat) :
    (blocks.flatMap fun block => userBlockEvents block lineIndex).length =
      (blocks.filter fun block => blockType block = "tool_result".toList).length := by
  induction blocks with
  | nil => rfl
  | cons block rest ih =>
    rw [List.flatMap_cons, List.length_append, ih, userBlockEvents, List.filter_cons]
    by_cases result : blockType block = "tool_result".toList
    · rw [if_pos result, if_pos (decide_eq_true result), List.length_singleton, List.length_cons,
        Nat.add_comm]
    · rw [if_neg result, if_neg (by simpa only [decide_eq_true_eq] using result), List.length_nil,
        Nat.zero_add]

theorem length_spokenEvent_le (value : Value) (lineIndex : Nat) :
    (spokenEvent value lineIndex).length ≤ 1 := by
  unfold spokenEvent
  split
  · exact Nat.zero_le _
  · split <;> simp

theorem length_parseUserLine_le (value : Value) (lineIndex : Nat) :
    (parseUserLine value lineIndex).events.length ≤ 1 ↔
      ∀ blocks, messageContent value = some (.array blocks) →
        (blocks.filter fun block => blockType block = "tool_result".toList).length ≤ 1 := by
  unfold parseUserLine
  split
  · rename_i text content
    dsimp only
    split <;> simp [content]
  · rename_i blocks content
    simp only [length_userBlocks, content, Option.some.injEq, Value.array.injEq]
    constructor
    · rintro short _ rfl
      exact short
    · intro short
      exact short blocks rfl
  · rename_i content
    simp [content, length_spokenEvent_le]
  · rename_i other notText notBlocks content
    simp only [List.length_singleton, Nat.le_refl, true_iff]
    intro blocks same
    exact absurd (Option.some.inj (content.symm.trans same)) (notBlocks blocks)

theorem length_parseAssistantLine_le (json : SerdeJson) (value : Value) (lineIndex : Nat) :
    (parseAssistantLine json value lineIndex).events.length ≤ 1 ↔
      ∀ blocks, messageContent value = some (.array blocks) →
        assistantBlocksCount blocks ≤ 1 := by
  have asArray (content : Value) (blocks : List Value) :
      content.asArray? = some blocks ↔ content = .array blocks := by
    cases content <;> simp [Value.asArray?]
  unfold parseAssistantLine
  split
  · rename_i blocks found
    obtain ⟨content, present, array⟩ := Option.bind_eq_some_iff.mp found
    rw [asArray] at array
    subst content
    simp only [length_assistantBlocks, present, Option.some.injEq, Value.array.injEq]
    constructor
    · rintro short _ rfl
      exact short
    · intro short
      exact short blocks rfl
  · rename_i missing
    have noBlocks (blocks : List Value) : messageContent value ≠ some (.array blocks) := by
      intro present
      simp [present, Value.asArray?] at missing
    split <;> simp [noBlocks]

theorem length_parseOtherLine_le (value : Value) (lineIndex : Nat) :
    (parseOtherLine value lineIndex).events.length ≤ 1 := by
  unfold parseOtherLine
  split <;> simp

theorem length_parseValue_le (json : SerdeJson) (value : Value) (lineIndex : Nat) :
    (parseValue json value lineIndex).events.length ≤ 1 ↔ SingleEvent value := by
  unfold parseValue SingleEvent
  split
  · exact length_parseUserLine_le value lineIndex
  · split
    · exact length_parseAssistantLine_le json value lineIndex
    · split
      · simp [parseMessageLine, length_spokenEvent_le]
      · simp [length_parseOtherLine_le]

theorem length_parseLine_le (json : SerdeJson) (line : Str) (lineIndex : Nat) :
    (parseLine json line lineIndex).events.length ≤ 1 ↔
      ∀ value, Str.trim line ≠ [] → json.fromStr (Str.trim line) = .ok value →
        SingleEvent value := by
  unfold parseLine
  dsimp only
  split
  · rename_i blank
    simp_all
  · rename_i visible
    have nonempty : Str.trim line ≠ [] := by simpa using visible
    split
    · rename_i error failed
      simp [failed]
    · rename_i value parsed
      simp [length_parseValue_le, parsed, nonempty]

/-- No parsed event is lost before the map step exactly when every line of the
payload carries at most one event; the window configuration does not matter. -/
theorem noEventLost_iff_singleEventLines (json : SerdeJson) (payload : Str)
    (config : SegmentationConfig) :
    NoEventLost (parseSessionEvents json payload).events config ↔
      SingleEventLines json payload := by
  rw [noEventLost_iff_nodup, nodup_parsed_iff]
  simp only [length_parseLine_le]
  constructor
  · intro single line member
    obtain ⟨lineIndex, inside, rfl⟩ := List.mem_iff_getElem.mp member
    exact single ((Str.lines payload)[lineIndex], lineIndex)
      (List.mem_zipIdx_iff_getElem?.mpr (List.getElem?_eq_getElem inside))
  · intro single entry member
    exact single entry.1 (List.fst_mem_of_mem_zipIdx member)

/-- A line on which the assistant writes one file: a `FileEdit` and a `ToolCall`. -/
def writeLine : Str :=
  "\x7b\"type\":\"assistant\",\"message\":\x7b\"content\":[" ++
    "\x7b\"type\":\"tool_use\",\"id\":\"t1\",\"name\":\"Write\",\"input\":\x7b\"file_path\":\"a.rs\"\x7d\x7d]\x7d\x7d".toList

def writeInput : Value := .object [("file_path", .string "a.rs")]

def writeValue : Value :=
  .object [("type", .string "assistant"),
    ("message", .object [("content", .array [.object [("type", .string "tool_use"),
      ("id", .string "t1"), ("name", .string "Write"), ("input", writeInput)]])])]

def writeJson : SerdeJson := .onText writeLine writeValue "\x7b\"file_path\":\"a.rs\"\x7d"

/-- The `FileEdit` of a single `Write` call never reaches the map step. -/
theorem fileEdit_lost :
    ¬ NoEventLost (parseSessionEvents writeJson writeLine).events ⟨8192, 3⟩ := by
  rw [noEventLost_iff_nodup]
  have parsed : (parseSessionEvents writeJson writeLine).events.map SessionEvent.index = [0, 0] := by
    decide +kernel
  simp [parsed]

end SkillLayer.SessionExtractor
