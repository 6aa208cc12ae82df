import SkillLayer.SessionExtractor.Salience

/-! The two detectors of stated preferences, one for the gate and one for the preamble. -/

namespace SkillLayer.SessionExtractor

open Domain

/-- The phrase stands in the text with something visible after it on the same line. -/
def Continues (phrase lowered : Str) : Prop :=
  ∃ before after, lowered = before ++ phrase ++ after ∧ Str.isBlank (after.takeWhile (· != '\n')) = false

/-- What the phrases have in common: they open visibly, close with a space and end no sentence. -/
def isSignal (phrase : Str) : Bool :=
  phrase.head?.any (!Str.isWhitespace ·) && phrase.getLast?.any Str.isWhitespace && phrase.all (!isSentenceEnd ·)

theorem isSignal_preferenceSignalPhrases : preferenceSignalPhrases.all isSignal = true := by decide

/-! ### Lowercase sentences -/

theorem isSentenceEnd_toLower (c : Char) : isSentenceEnd c.toLower = isSentenceEnd c := by
  rcases Str.toLower_cases c with same | ⟨upper, lower⟩
  · rw [same]
  · have other {mark : Char} (outside : mark.toNat < 65) : (c == mark) = false ∧ (c.toLower == mark) = false := by
      constructor
      · rw [beq_eq_false_iff_ne]
        rintro rfl
        omega
      · rw [beq_eq_false_iff_ne]
        intro same
        rw [same] at lower
        omega
    have dot := @other '.' (by decide)
    have bang := @other '!' (by decide)
    have question := @other '?' (by decide)
    have newline := @other '\n' (by decide)
    simp only [isSentenceEnd, dot, bang, question, newline]

theorem sentencesFrom_toAsciiLowercase (slice text : Str) :
    sentencesFrom (Str.toAsciiLowercase slice) (Str.toAsciiLowercase text) =
      (sentencesFrom slice text).map Str.toAsciiLowercase := by
  induction text generalizing slice with
  | nil =>
    simp only [Str.toAsciiLowercase, List.map_nil, sentencesFrom]
    rw [← Str.toAsciiLowercase, Str.isBlank_toAsciiLowercase]
    split <;> rfl
  | cons c rest ih =>
    have extended : Str.toAsciiLowercase slice ++ [c.toLower] = Str.toAsciiLowercase (slice ++ [c]) := by
      simp [Str.toAsciiLowercase]
    rw [show Str.toAsciiLowercase (c :: rest) = c.toLower :: Str.toAsciiLowercase rest from rfl, sentencesFrom,
      sentencesFrom, isSentenceEnd_toLower, extended, Str.isBlank_toAsciiLowercase]
    split
    · have restarted : sentencesFrom [] (Str.toAsciiLowercase rest) = (sentencesFrom [] rest).map Str.toAsciiLowercase :=
        ih []
      split
      · exact restarted
      · rw [restarted, List.map_cons]
    · exact ih (slice ++ [c])

theorem detectPreference_isSome (sentence : Str) :
    (detectPreference sentence).isSome =
      containsAny preferenceSignalPhrases (Str.trim (Str.toAsciiLowercase sentence)) := by
  rw [Str.trim_toAsciiLowercase, detectPreference]
  dsimp only
  split
  · rename_i empty
    rw [List.isEmpty_iff.mp empty]
    decide
  · split
    · rename_i found
      rw [found]
      rfl
    · rename_i absent
      rw [Bool.eq_false_iff.mpr absent]
      rfl

theorem detectPreferencesInUserTurn_ne_nil (content : Str) :
    detectPreferencesInUserTurn content ≠ [] ↔
      ∃ sentence ∈ sentencesFrom [] (Str.toAsciiLowercase content),
        containsAny preferenceSignalPhrases (Str.trim sentence) = true := by
  have lowered := sentencesFrom_toAsciiLowercase [] content
  rw [show Str.toAsciiLowercase [] = [] from rfl] at lowered
  rw [detectPreferencesInUserTurn, splitIntoSentences, Ne, List.filterMap_eq_nil_iff, lowered]
  simp only [List.mem_map, exists_exists_and_eq_and, ← detectPreference_isSome, not_forall, exists_prop,
    ← Ne.eq_def, Option.ne_none_iff_isSome]

/-! ### Sentences and lines -/

variable {phrase : Str}

theorem ne_newline {c : Char} (within : isSentenceEnd c = false) : (c != '\n') = true := by
  rw [bne_iff_ne]
  rintro rfl
  cases within

theorem takeWhile_line {tail : Str} (line : ∀ c ∈ tail, isSentenceEnd c = false) :
    tail.takeWhile (· != '\n') = tail := by
  induction tail with
  | nil => rfl
  | cons c tail ih =>
    have other := ne_newline (line c List.mem_cons_self)
    rw [List.takeWhile_cons, other, if_pos rfl, ih fun d member => line d (List.mem_cons_of_mem c member)]

/-- A line goes on to something visible exactly when the sentence does: all sentence ends but
the newline are visible themselves. -/
theorem isBlank_takeWhile {c : Char} (ends : isSentenceEnd c = true) {tail : Str} (rest : Str)
    (line : ∀ d ∈ tail, isSentenceEnd d = false) :
    Str.isBlank ((tail ++ c :: rest).takeWhile (· != '\n')) = Str.isBlank (tail ++ [c]) := by
  rw [List.takeWhile_append_of_pos fun d member => ne_newline (line d member)]
  by_cases newline : c = '\n'
  · subst newline
    simp [Str.isBlank, Str.isWhitespace]
  · have visible : Str.isWhitespace c = false := by
      simp only [isSentenceEnd, Bool.or_eq_true, beq_iff_eq, newline, or_false] at ends
      rcases ends with (rfl | rfl) | rfl <;> decide
    simp [Str.isBlank, newline, visible]

/-- Some sentence shows the phrase exactly when the phrase continues on its line. -/
theorem sentencesFrom_shows (signal : isSignal phrase = true) (slice text : Str)
    (line : ∀ c ∈ slice, isSentenceEnd c = false) :
    (∃ sentence ∈ sentencesFrom slice text, phrase <:+: Str.trim sentence) ↔ Continues phrase (slice ++ text) := by
  simp only [isSignal, Bool.and_eq_true] at signal
  obtain ⟨⟨opens, closes⟩, whole⟩ := signal
  have trimmed := Str.infix_trim_iff opens closes
  have blank {sentence : Str} (isBlank : Str.isBlank sentence = true) : ¬ phrase <:+: Str.trim sentence := by
    intro occurs
    rw [(Str.trim_eq_nil sentence).mpr isBlank, List.infix_nil] at occurs
    rw [occurs] at opens
    cases opens
  have only (sentence : Str) : (∃ kept ∈ (if Str.isBlank sentence then [] else [sentence]), phrase <:+: Str.trim kept) ↔
      phrase <:+: Str.trim sentence := by
    split
    · rename_i isBlank
      simp [blank isBlank]
    · simp
  induction text generalizing slice with
  | nil =>
    rw [sentencesFrom, only, trimmed, List.append_nil]
    constructor
    · intro occurs
      obtain ⟨before, after, rfl, visible⟩ := occurs
      exact ⟨before, after, rfl, by rwa [takeWhile_line fun c member => line c (List.mem_append_right _ member)]⟩
    · intro continues
      obtain ⟨before, after, rfl, visible⟩ := continues
      rw [takeWhile_line fun c member => line c (List.mem_append_right _ member)] at visible
      exact ⟨before, after, rfl, visible⟩
  | cons c rest ih =>
    by_cases ends : isSentenceEnd c = true
    · have free : c ∉ phrase := by
        intro member
        have inside := List.all_eq_true.mp whole c member
        rw [ends] at inside
        cases inside
      have sentences : (∃ sentence ∈ sentencesFrom slice (c :: rest), phrase <:+: Str.trim sentence) ↔
          phrase <:+: Str.trim (slice ++ [c]) ∨ Continues phrase rest := by
        have later : (∃ sentence ∈ sentencesFrom [] rest, phrase <:+: Str.trim sentence) ↔ Continues phrase rest :=
          ih [] (List.forall_mem_nil _)
        rw [← later, ← only (slice ++ [c]), sentencesFrom, if_pos ends]
        split <;> simp
      rw [sentences, trimmed]
      constructor
      · intro shown
        rcases shown with here | later
        · obtain ⟨before, after, split, visible⟩ := here
          rcases Str.occurs_beside free split.symm with ⟨tail, rfl, rfl⟩ | ⟨head, _, beyond⟩
          · refine ⟨before, tail ++ c :: rest, by simp, ?_⟩
            rwa [isBlank_takeWhile ends rest fun d member => line d (List.mem_append_right _ member)]
          · have empty := congrArg List.length beyond
            cases phrase with
            | nil => cases opens
            | cons _ _ =>
              simp only [List.length_nil, List.length_append, List.length_cons] at empty
              omega
        · obtain ⟨before, after, rfl, visible⟩ := later
          exact ⟨slice ++ c :: before, after, by simp, visible⟩
      · intro continues
        obtain ⟨before, after, split, visible⟩ := continues
        rcases Str.occurs_beside free split.symm with ⟨tail, rfl, rfl⟩ | ⟨head, _, rfl⟩
        · left
          rw [isBlank_takeWhile ends rest fun d member => line d (List.mem_append_right _ member)] at visible
          exact ⟨before, tail ++ [c], by simp, visible⟩
        · exact .inr ⟨head, after, rfl, visible⟩
    · have longer : ∀ d ∈ slice ++ [c], isSentenceEnd d = false := by
        intro d member
        rcases List.mem_append.mp member with inSlice | same
        · exact line d inSlice
        · rw [List.mem_singleton.mp same]
          exact Bool.eq_false_iff.mpr ends
      have later := ih (slice ++ [c]) longer
      rw [List.append_assoc, List.singleton_append] at later
      rw [sentencesFrom, if_neg ends]
      exact later

/-! ### The two detectors -/

theorem containsAny_iff {phrases : List Str} {text : Str} :
    containsAny phrases text = true ↔ ∃ phrase ∈ phrases, phrase <:+: text := by
  simp only [containsAny, List.any_eq_true, decide_eq_true_eq]

/-- The preamble finds a preference where a phrase goes on. -/
theorem detectPreferencesInUserTurn_iff (content : Str) :
    detectPreferencesInUserTurn content ≠ [] ↔
      ∃ phrase ∈ preferenceSignalPhrases, Continues phrase (Str.toAsciiLowercase content) := by
  have shows (phrase : Str) (member : phrase ∈ preferenceSignalPhrases) :
      (∃ sentence ∈ sentencesFrom [] (Str.toAsciiLowercase content), phrase <:+: Str.trim sentence) ↔
        Continues phrase (Str.toAsciiLowercase content) :=
    sentencesFrom_shows (List.all_eq_true.mp isSignal_preferenceSignalPhrases phrase member) [] _ (List.forall_mem_nil _)
  rw [detectPreferencesInUserTurn_ne_nil]
  constructor
  · intro found
    obtain ⟨sentence, inSentences, contains⟩ := found
    obtain ⟨phrase, member, occurs⟩ := containsAny_iff.mp contains
    exact ⟨phrase, member, (shows phrase member).mp ⟨sentence, inSentences, occurs⟩⟩
  · intro continues
    obtain ⟨phrase, member, continues⟩ := continues
    obtain ⟨sentence, inSentences, occurs⟩ := (shows phrase member).mpr continues
    exact ⟨sentence, inSentences, containsAny_iff.mpr ⟨phrase, member, occurs⟩⟩

theorem detectStatedPreference_message (index : Nat) (content : Str) :
    detectStatedPreference [.userMessage index content] =
      containsAny Salience.preferenceSignalPhrases (Str.toAsciiLowercase content) := by
  rw [detectStatedPreference, List.any_cons, List.any_nil, Bool.or_false]

/-- The miner has one phrase more. -/
theorem preferenceSignalPhrases_split :
    preferenceSignalPhrases.all (fun phrase =>
      Salience.preferenceSignalPhrases.contains phrase || phrase == "use ".toList) = true := by decide

/-- The detectors agree on a message exactly when one of its phrases goes on and a `use` that
goes on is not alone. -/
theorem detectors_agree_iff (index : Nat) (content : Str) :
    (detectStatedPreference [.userMessage index content] = true ↔ detectPreferencesInUserTurn content ≠ []) ↔
      (containsAny Salience.preferenceSignalPhrases (Str.toAsciiLowercase content) = true →
        ∃ phrase ∈ preferenceSignalPhrases, Continues phrase (Str.toAsciiLowercase content)) ∧
      (Continues "use " (Str.toAsciiLowercase content) →
        containsAny Salience.preferenceSignalPhrases (Str.toAsciiLowercase content) = true) := by
  rw [detectStatedPreference_message, detectPreferencesInUserTurn_iff]
  constructor
  · intro agree
    exact ⟨agree.mp, fun useContinues => agree.mpr ⟨"use ", by decide, useContinues⟩⟩
  · intro condition
    refine ⟨condition.1, fun continues => ?_⟩
    obtain ⟨phrase, member, continues⟩ := continues
    have known := List.all_eq_true.mp preferenceSignalPhrases_split phrase member
    rw [Bool.or_eq_true, List.contains_iff_mem, beq_iff_eq] at known
    rcases known with shared | rfl
    · obtain ⟨before, after, split, _⟩ := continues
      exact containsAny_iff.mpr ⟨phrase, shared, before, after, split.symm⟩
    · exact condition.2 continues

/-- The gate does not know the phrase that the preamble mines here. -/
theorem useTabs_disagree : ¬ ∀ index content,
    (detectStatedPreference [.userMessage index content] = true ↔ detectPreferencesInUserTurn content ≠ []) := by
  intro agree
  have mined : detectPreferencesInUserTurn "use tabs" ≠ [] := by decide
  have unstated : detectStatedPreference [.userMessage 0 "use tabs"] = false := by decide
  exact Bool.false_ne_true (unstated ▸ (agree 0 "use tabs").mpr mined)

end SkillLayer.SessionExtractor
