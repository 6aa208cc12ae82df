import SkillLayer.Firsts
import SkillLayer.Slugs
import SkillLayer.Utf8
import SkillLayer.SessionExtractor.PreambleBuild
import SkillLayer.SessionExtractor.Synthesis

/-! The skill candidates made of stated preferences, and the directories they would be written to. -/

namespace SkillLayer.SessionExtractor

open Domain

/-! ### Candidates -/

def PreferenceGenerality.asStr : PreferenceGenerality → Str
  | .general => "general"
  | .uncertain => "uncertain"

def statementWords (rawStatement : Str) : List Str :=
  (rawStatement.splitOnP Str.isWhitespace).filter fun word => !word.isEmpty

def endsName (c : Char) : Bool := c == '.' || c == '!' || c == '?' || c == ','

def derivePreferenceName (rawStatement : Str) : Str :=
  (Str.join [' '] ((statementWords rawStatement).take 8)).rdropWhile endsName ++ " (preference)"

def preferenceToSkillCandidate (preference : DetectedPreference) : ExtractedSkillCandidate where
  name := derivePreferenceName preference.rawStatement
  description := "Standing user preference: " ++ Str.trim preference.rawStatement
  tags := ["preference", "convention"]
  procedures := []
  conventions := [Str.trim preference.rawStatement]
  assets := []
  generality := some preference.generality.asStr
  generalityRationale := some
    "Detected as a standing user directive; generality inferred from scope signals.".toList

def MinedPreamble.preferenceSkillCandidates (preamble : MinedPreamble) : List ExtractedSkillCandidate :=
  preamble.preferences.map preferenceToSkillCandidate

/-! ### Slugs -/

theorem slugifySkillName_eq (name : Str) :
    slugifySkillName name =
      if (Str.join ['-'] (Str.runs name)).isEmpty then "session-extracted-skill".toList
      else Str.join ['-'] (Str.runs name) :=
  rfl

/-- The runs of letters and digits in the first eight words. -/
def firstRuns (rawStatement : Str) : List Str := ((statementWords rawStatement).take 8).flatMap Str.runs

theorem runs_derivePreferenceName (rawStatement : Str) :
    Str.runs (derivePreferenceName rawStatement) = firstRuns rawStatement ++ ["preference".toList] := by
  have separates (c : Char) (ends : endsName c = true) : c.toLower.isAlphanum = false := by
    simp only [endsName, Bool.or_eq_true, beq_iff_eq] at ends
    rcases ends with ((rfl | rfl) | rfl) | rfl <;> rfl
  have tail : (" (preference)" : Str) = ' ' :: "(preference)".toList := rfl
  rw [derivePreferenceName, tail, Str.runs_append rfl, Str.runs_rdropWhile separates, Str.runs_join rfl]
  rfl

/-- Two names have one slug exactly when their statements begin with the same runs. -/
theorem slug_eq_iff (one two : Str) :
    slugifySkillName (derivePreferenceName one) = slugifySkillName (derivePreferenceName two) ↔
      firstRuns one = firstRuns two := by
  have visible (rawStatement : Str) : Str.runs (derivePreferenceName rawStatement) ≠ [] := by
    simp [runs_derivePreferenceName]
  have slug (rawStatement : Str) : slugifySkillName (derivePreferenceName rawStatement) =
      Str.join ['-'] (Str.runs (derivePreferenceName rawStatement)) := by
    rw [slugifySkillName_eq, if_neg]
    simpa using Str.join_runs_ne_nil (visible rawStatement)
  rw [slug, slug, Str.join_runs_inj (visible one) (visible two), runs_derivePreferenceName,
    runs_derivePreferenceName, List.append_left_inj]

/-! ### The stated preferences -/

def preferencesOf : SessionEvent → List DetectedPreference
  | .userMessage _ content => detectPreferencesInUserTurn content
  | _ => []

def normalisedStatement (preference : DetectedPreference) : Str :=
  Str.toAsciiLowercase (Str.trim preference.rawStatement)

/-- The preferences that the user states, each in its first wording. -/
def statedPreferences (events : List SessionEvent) : List DetectedPreference :=
  keepFirsts normalisedStatement [] (events.flatMap preferencesOf)

theorem keepUnseen_eq (seen : List Str) (preferences : List DetectedPreference) :
    keepUnseen seen preferences = keepFirsts normalisedStatement seen preferences := by
  induction preferences generalizing seen with
  | nil => rfl
  | cons preference rest ih =>
    rw [keepUnseen, ih, ih]
    by_cases known : normalisedStatement preference ∈ seen
    · rw [keepFirsts_seen known]
      exact if_pos known
    · rw [keepFirsts_fresh known]
      exact if_neg known

theorem preferences_mineEvent (json : SerdeJson) (mined : MinedSignals) (event : SessionEvent) :
    (mineEvent json mined event).preferences = mined.preferences ++ preferencesOf event := by
  cases event with
  | toolCall index toolUseId name inputJson =>
    rw [mineEvent]
    split <;> simp [preferencesOf]
  | _ => simp [mineEvent, preferencesOf]

theorem preferences_foldl_mineEvent (json : SerdeJson) (events : List SessionEvent) (mined : MinedSignals) :
    (events.foldl (mineEvent json) mined).preferences = mined.preferences ++ events.flatMap preferencesOf := by
  induction events generalizing mined with
  | nil => simp
  | cons event rest ih =>
    rw [List.foldl_cons, ih, preferences_mineEvent, List.append_assoc, List.flatMap_cons]

theorem preferences_mineDraftDeterministic (json : SerdeJson) (events : List SessionEvent) :
    (mineDraftDeterministic json events).preferences = statedPreferences events := by
  rw [mineDraftDeterministic, deduplicatePreferences, preferences_foldl_mineEvent, keepUnseen_eq]
  rfl

theorem nodup_statedPreferences (events : List SessionEvent) : (statedPreferences events).Nodup :=
  (nodup_keys_keepFirsts [] _).of_map _

/-! ### Writing them -/

/-- The candidates have directories of their own, and a batch of them is not refused for a clash. -/
structure Writable (candidates : List ExtractedSkillCandidate) : Prop where
  distinct : (candidates.map fun candidate => slugifySkillName candidate.name).Nodup
  accepted : ∀ (writer : PendingDraftWriter) fs root sessionId providerName message,
    writer.buildWritePlans fs root ⟨sessionId, candidates, providerName⟩ providerName ≠
      .error (.batchValidation message)

theorem render_ne_batchValidation (writer : PendingDraftWriter) (sessionId : DomainId) (providerName : Str)
    (candidate : ExtractedSkillCandidate) (index : Nat) (message : Str) :
    writer.render sessionId providerName candidate index ≠ .error (.batchValidation message) := by
  intro failed
  simp only [PendingDraftWriter.render, renderPendingMarkdown, serializeFrontmatter] at failed
  cases yaml : writer.format.toYaml (draftFrontmatter writer.format (writer.now index) candidate
      sessionId.value providerName) with
  | error error =>
    rw [yaml] at failed
    cases failed
  | ok serialized =>
    rw [yaml] at failed
    cases failed

/-- Planning refuses no candidate for a clash when the paths are distinct and none is taken. -/
theorem planDrafts_ne_batchValidation (writer : PendingDraftWriter) (fs : Fs) (root : Path) (sessionId : DomainId)
    (providerName message : Str) {taken : List Path} {entries : List (ExtractedSkillCandidate × Nat)}
    (distinct : (entries.map fun entry => pendingPath root entry.1).Nodup)
    (free : ∀ entry ∈ entries, pendingPath root entry.1 ∉ taken) :
    writer.planDrafts fs root sessionId providerName taken entries ≠ .error (.batchValidation message) := by
  induction entries generalizing taken with
  | nil =>
    intro failed
    cases failed
  | cons entry rest ih =>
    obtain ⟨candidate, index⟩ := entry
    obtain ⟨apart, later⟩ := List.nodup_cons.mp distinct
    have fresh := free (candidate, index) List.mem_cons_self
    rw [PendingDraftWriter.planDrafts, PendingDraftWriter.planDraft, if_neg fresh]
    split
    · intro failed
      cases failed
    · cases rendered : writer.render sessionId providerName candidate index with
      | error error =>
        intro failed
        have same : error = .batchValidation message := Except.error.inj failed
        exact render_ne_batchValidation writer sessionId providerName candidate index message (same ▸ rendered)
      | ok markdown =>
        have remaining : writer.planDrafts fs root sessionId providerName
            ((writer.writePlan fs root candidate index markdown).pendingPath :: taken) rest ≠
              .error (.batchValidation message) := by
          apply ih later
          intro other member
          rw [List.mem_cons, not_or]
          refine ⟨fun clash => ?_, free other (List.mem_cons_of_mem _ member)⟩
          exact apart (List.mem_map.mpr ⟨other, member, clash⟩)
        intro failed
        cases tail : writer.planDrafts fs root sessionId providerName
            ((writer.writePlan fs root candidate index markdown).pendingPath :: taken) rest with
        | error error =>
          simp only [tail, bind, Except.bind] at failed
          exact remaining (tail.trans failed)
        | ok plans =>
          simp only [tail, bind, Except.bind] at failed
          cases failed

theorem writable_iff (candidates : List ExtractedSkillCandidate) :
    Writable candidates ↔ (candidates.map fun candidate => slugifySkillName candidate.name).Nodup := by
  constructor
  · intro writable
    exact writable.distinct
  · intro distinct
    refine ⟨distinct, fun writer fs root sessionId providerName message => ?_⟩
    apply planDrafts_ne_batchValidation
    · rw [← slugs_zipIdx candidates 0] at distinct
      rw [List.Nodup, List.pairwise_map] at distinct ⊢
      exact distinct.imp fun apart clash => apart (pendingPath_inj.mp clash)
    · exact fun _ _ => List.not_mem_nil

/-- Candidates of preferences are writable exactly when no two of the preferences begin with the same runs. -/
theorem writable_preferences_iff {preferences : List DetectedPreference} (distinct : preferences.Nodup) :
    Writable (preferences.map preferenceToSkillCandidate) ↔
      ∀ one ∈ preferences, ∀ two ∈ preferences,
        firstRuns one.rawStatement = firstRuns two.rawStatement → one = two := by
  have named : (preferences.map preferenceToSkillCandidate).map (fun candidate => slugifySkillName candidate.name) =
      preferences.map fun preference => slugifySkillName (derivePreferenceName preference.rawStatement) := by
    rw [List.map_map]
    rfl
  rw [writable_iff, named, List.nodup_map_iff_inj_on distinct]
  simp only [slug_eq_iff]

/-! ### The token cap -/

def bareFacts (facts : ProjectFacts) : ProjectFacts := (facts.withPaths []).withConventions []

theorem eq_bareFacts {kept facts : ProjectFacts}
    (named : kept.repoName = facts.repoName ∧ kept.primaryLanguage = facts.primaryLanguage)
    (noPaths : kept.salientPaths = []) (noConventions : kept.statedConventions = []) : kept = bareFacts facts := by
  obtain ⟨repoName, primaryLanguage, salientPaths, statedConventions⟩ := kept
  obtain ⟨rfl, rfl⟩ := named
  obtain rfl : salientPaths = [] := noPaths
  obtain rfl : statedConventions = [] := noConventions
  rfl

theorem factLines_bareFacts (facts : ProjectFacts) : (factLines (bareFacts facts)).Sublist (factLines facts) := by
  simp only [factLines, bareFacts, ProjectFacts.withPaths, ProjectFacts.withConventions, List.isEmpty_nil,
    List.map_nil, List.append_assoc]
  exact (List.Sublist.refl _).append ((List.Sublist.refl _).append (List.nil_sublist _))

def NoLonger (text other : Str) : Prop := Str.byteLength text ≤ Str.byteLength other

theorem factSection_bareFacts (facts : ProjectFacts) :
    List.SublistForall₂ NoLonger (factSection (bareFacts facts)) (factSection facts) := by
  have fewer := factLines_bareFacts facts
  rw [factSection, factSection]
  split
  · exact .nil
  · rename_i some
    have others : ¬ (factLines facts).isEmpty = true := by
      rw [List.isEmpty_iff] at some ⊢
      exact fun none => some (List.eq_nil_of_sublist_nil (none ▸ fewer))
    rw [if_neg others]
    refine .cons ?_ .nil
    rw [NoLonger, Str.byteLength_append, Str.byteLength_append]
    exact Nat.add_le_add_left (Str.byteLength_join_sublist _ fewer) _

theorem preferenceSection_sublist {preferences others : List DetectedPreference} (fewer : preferences.Sublist others) :
    List.SublistForall₂ NoLonger (preferenceSection preferences) (preferenceSection others) := by
  rw [preferenceSection, preferenceSection]
  split
  · exact .nil
  · rename_i some
    have rest : ¬ others.isEmpty = true := by
      rw [List.isEmpty_iff] at some ⊢
      exact fun none => some (List.eq_nil_of_sublist_nil (none ▸ fewer))
    rw [if_neg rest]
    refine .cons ?_ .nil
    rw [NoLonger, Str.byteLength_append, Str.byteLength_append]
    exact Nat.add_le_add_left (Str.byteLength_join_sublist _ (fewer.map _)) _

theorem approximateTokenCount_le {text other : Str} (shorter : NoLonger text other) :
    approximateTokenCount text ≤ approximateTokenCount other :=
  Nat.div_le_div_right (Nat.add_le_add_right shorter 3)

/-- Fewer preferences with the bare facts take no more tokens. -/
theorem draftTokens_bareFacts {preferences others : List DetectedPreference} (fewer : preferences.Sublist others)
    (facts : ProjectFacts) : draftTokens ⟨preferences, bareFacts facts⟩ ≤ draftTokens ⟨others, facts⟩ :=
  approximateTokenCount_le (Str.byteLength_join_le _
    (Str.sublistForall₂_append (factSection_bareFacts facts) (preferenceSection_sublist fewer)))

/-- What is kept either fits or is nothing. -/
theorem enforceTokenCapAndBuild_fits (draft : PreambleDraft) :
    (enforceTokenCapAndBuild draft).preferences = [] ∨
      draftTokens ⟨(enforceTokenCapAndBuild draft).preferences, (enforceTokenCapAndBuild draft).facts⟩ ≤
        preambleHardTokenCap := by
  induction draft using enforceTokenCapAndBuild.induct with
  | case1 draft fits =>
    rw [enforceTokenCapAndBuild, if_pos fits]
    exact .inr fits
  | case2 draft exceeds some ih =>
    rw [enforceTokenCapAndBuild, if_neg exceeds, if_pos some]
    exact ih
  | case3 draft exceeds none some ih =>
    rw [enforceTokenCapAndBuild, if_neg exceeds, if_neg none, if_pos some]
    exact ih
  | case4 draft exceeds noPath noConvention some ih =>
    rw [enforceTokenCapAndBuild, if_neg exceeds, if_neg noPath, if_neg noConvention, if_pos some]
    exact ih
  | case5 draft exceeds noPath noConvention none =>
    rw [enforceTokenCapAndBuild, if_neg exceeds, if_neg noPath, if_neg noConvention, if_neg none]
    exact .inl (not_not.mp none)

/-- No two of the preferences begin with the same runs of letters and digits. -/
def BeginApart (preferences : List DetectedPreference) : Prop :=
  ∀ one ∈ preferences, ∀ two ∈ preferences, firstRuns one.rawStatement = firstRuns two.rawStatement → one = two

theorem BeginApart.sublist {preferences others : List DetectedPreference} (apart : BeginApart others)
    (fewer : preferences.Sublist others) : BeginApart preferences :=
  fun one inOne two inTwo => apart one (fewer.subset inOne) two (fewer.subset inTwo)

/-- So many of the stated preferences fit into the preamble when it has no paths and conventions. -/
def Fits (json : SerdeJson) (events : List SessionEvent) (count : Nat) : Prop :=
  draftTokens ⟨(statedPreferences events).take count, bareFacts (mineDraftDeterministic json events).facts⟩ ≤
    preambleHardTokenCap

/-- The cap keeps the longest beginning of the stated preferences that fits. -/
theorem prefix_of_fits {json : SerdeJson} {events : List SessionEvent} {count : Nat} (fits : Fits json events count) :
    ((statedPreferences events).take count).Sublist
      (enforceTokenCapAndBuild (mineDraftDeterministic json events)).preferences := by
  have capped := enforceTokenCapAndBuild_capped (mineDraftDeterministic json events)
  have stated := preferences_mineDraftDeterministic json events
  generalize enforceTokenCapAndBuild (mineDraftDeterministic json events) = preamble at capped
  by_cases all : preamble.preferences = (mineDraftDeterministic json events).preferences
  · rw [all, stated]
    exact List.take_sublist _ _
  · have kept := capped.preferences
    have exceeds := capped.preferenceNeeded all
    obtain ⟨noPaths, noConventions⟩ := capped.preferencesLast all
    have bare := eq_bareFacts capped.named noPaths noConventions
    rw [stated] at kept exceeds
    rw [bare] at exceeds
    have few : count ≤ preamble.preferences.length := by
      by_contra many
      have more : ((statedPreferences events).take (preamble.preferences.length + 1)).Sublist
          ((statedPreferences events).take count) := List.take_sublist_take_left (by omega)
      have fewer := draftTokens_bareFacts more (bareFacts (mineDraftDeterministic json events).facts)
      exact absurd (fewer.trans fits) (Nat.not_le.mpr exceeds)
    rw [List.prefix_iff_eq_take.mp kept]
    exact List.take_sublist_take_left few

theorem exists_fits (json : SerdeJson) (events : List SessionEvent) :
    (enforceTokenCapAndBuild (mineDraftDeterministic json events)).preferences = [] ∨
      ∃ count, Fits json events count ∧
        (enforceTokenCapAndBuild (mineDraftDeterministic json events)).preferences =
          (statedPreferences events).take count := by
  have capped := enforceTokenCapAndBuild_capped (mineDraftDeterministic json events)
  rcases enforceTokenCapAndBuild_fits (mineDraftDeterministic json events) with none | fits
  · exact .inl none
  · generalize enforceTokenCapAndBuild (mineDraftDeterministic json events) = preamble at capped fits
    have kept := capped.preferences
    rw [preferences_mineDraftDeterministic] at kept
    have same := List.prefix_iff_eq_take.mp kept
    refine .inr ⟨preamble.preferences.length, ?_, same⟩
    have bare : bareFacts preamble.facts = bareFacts (mineDraftDeterministic json events).facts := by
      simp only [bareFacts, ProjectFacts.withPaths, ProjectFacts.withConventions, capped.named]
    rw [Fits, ← same, ← bare]
    exact (draftTokens_bareFacts (List.Sublist.refl _) preamble.facts).trans fits

/-- The candidates of a session's preferences can be written exactly when no two of the stated preferences
that fit into its preamble begin with the same runs of letters and digits. -/
theorem minedPreferences_writable_iff (json : SerdeJson) (events : List SessionEvent) :
    (∀ preamble, minePreamble json events none = .ok preamble → Writable preamble.preferenceSkillCandidates) ↔
      ∀ count, Fits json events count → BeginApart ((statedPreferences events).take count) := by
  have mined : minePreamble json events none = .ok (enforceTokenCapAndBuild (mineDraftDeterministic json events)) := rfl
  have distinct : (enforceTokenCapAndBuild (mineDraftDeterministic json events)).preferences.Nodup := by
    have capped := enforceTokenCapAndBuild_capped (mineDraftDeterministic json events)
    refine (nodup_statedPreferences events).sublist (List.IsPrefix.sublist ?_)
    rw [← preferences_mineDraftDeterministic json]
    exact capped.preferences
  have writable := writable_preferences_iff distinct
  constructor
  · intro written count fits
    exact BeginApart.sublist (writable.mp (written _ mined)) (prefix_of_fits fits)
  · intro apart preamble found
    obtain rfl := Except.ok.inj (mined.symm.trans found)
    refine writable.mpr ?_
    rcases exists_fits json events with none | ⟨count, fits, same⟩
    · rw [none]
      exact fun one member => absurd member List.not_mem_nil
    · rw [same]
      exact apart count fits

/-- One preference stated twice, the second time with an exclamation mark. -/
def tabsTwice : List SessionEvent := [.userMessage 0 "Always use tabs", .userMessage 1 "Always use tabs!"]

theorem tabsTwice_unwritable :
    ∃ preamble, minePreamble ⟨fun _ => .error "expected value", fun _ => []⟩ tabsTwice none = .ok preamble ∧
      ¬ Writable preamble.preferenceSkillCandidates := by
  have draft : mineDraftDeterministic ⟨fun _ => .error "expected value", fun _ => []⟩ tabsTwice =
      ⟨[⟨"Always use tabs", .general⟩, ⟨"Always use tabs!", .general⟩], ⟨none, none, [], []⟩⟩ := rfl
  refine ⟨_, rfl, fun writable => ?_⟩
  have slugs := (writable_iff _).mp writable
  rw [draft, enforceTokenCapAndBuild, if_pos (by decide)] at slugs
  exact absurd slugs (by decide)

end SkillLayer.SessionExtractor
