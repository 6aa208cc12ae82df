import SkillLayer.Collect
import SkillLayer.Serde
import SkillLayer.Utf8
import SkillLayer.SessionExtractor.Preamble

/-! The model's answer to the normalisation prompt, read back as preferences. -/

namespace SkillLayer.SessionExtractor

/-- The JSON library as far as the response is concerned. -/
structure ResponseJson where
  /-- The top level of a text that is one JSON document. -/
  shape : Str → Option (Shape Str)
  readStrings : Str → Option (List Str)
  error : Str → Str

variable (json : ResponseJson)

/-- `NormalisationResponse`, whose one field has a default. -/
def readNormalisationResponse (rawJson : Str) : Option (List Str) :=
  (json.shape rawJson).bind fun shape => shape.readSole json.readStrings (some []) "preferences"

/-- The closure of the search: whether a statement holds the first 30 bytes of the answer. Nothing when
the slice panics. -/
def recognises (raw : Str) (orig : DetectedPreference) : Option Bool :=
  (Str.sliceTo? (Str.toAsciiLowercase raw) (min (Str.byteLength raw) 30)).map fun slice =>
    decide (slice <:+: Str.toAsciiLowercase orig.rawStatement)

def findOriginal (raw : Str) : List DetectedPreference → Option (Option DetectedPreference)
  | [] => some none
  | orig :: rest =>
    match recognises raw orig with
    | none => none
    | some true => some (some orig)
    | some false => findOriginal raw rest

def normalisePreference (originalDraft : PreambleDraft) (raw : Str) : Option DetectedPreference :=
  (findOriginal raw originalDraft.preferences).map fun found =>
    ⟨Str.trim raw, (found.map DetectedPreference.generality).getD .uncertain⟩

/-- The answer as preferences, an error for one that is not read, nothing when the function panics. -/
def parseNormalizationResponse (rawJson : Str) (originalDraft : PreambleDraft) :
    Option (Except NormalizationError (List DetectedPreference)) :=
  match readNormalisationResponse json rawJson with
  | none => some (.error (.parseFailure
      ("preamble normalizer response was not valid JSON \x7bpreferences:[...]\x7d: ".toList ++ json.error rawJson)))
  | some preferences =>
    ((preferences.filter fun raw => !(Str.trim raw).isEmpty).mapM (normalisePreference originalDraft)).map .ok

variable {json}

/-! ### The search -/

/-- The slice that is searched for can be taken. -/
def Sliceable (raw : Str) : Prop := Str.byteLength raw ≤ 30 ∨ Str.IsCharBoundary raw 30

theorem recognises_isSome (raw : Str) (orig : DetectedPreference) : (recognises raw orig).isSome = true ↔ Sliceable raw := by
  rw [recognises, Option.isSome_map, Str.sliceTo?_isSome, Str.isCharBoundary_toAsciiLowercase, Sliceable]
  rcases Nat.le_total (Str.byteLength raw) 30 with short | long
  · rw [Nat.min_eq_left short]
    exact iff_of_true (Str.isCharBoundary_byteLength raw) (.inl short)
  · rw [Nat.min_eq_right long]
    constructor
    · exact .inr
    · rintro (short | boundary)
      · have exact_ : Str.byteLength raw = 30 := Nat.le_antisymm short long
        rw [← exact_]
        exact Str.isCharBoundary_byteLength raw
      · exact boundary

theorem findOriginal_isSome_iff (raw : Str) (preferences : List DetectedPreference) :
    (findOriginal raw preferences).isSome = true ↔ preferences = [] ∨ Sliceable raw := by
  induction preferences with
  | nil => exact iff_of_true rfl (.inl rfl)
  | cons orig rest ih =>
    have sliced := recognises_isSome raw orig
    rw [findOriginal]
    cases recognised : recognises raw orig with
    | none =>
      rw [recognised] at sliced
      simp at sliced
      simp [sliced]
    | some holds =>
      rw [recognised] at sliced
      have sliceable : Sliceable raw := sliced.mp rfl
      cases holds with
      | true => exact iff_of_true rfl (.inr sliceable)
      | false => exact iff_of_true (ih.mpr (.inr sliceable)) (.inr sliceable)

/-! ### The answer -/

theorem normalisePreference_isSome_iff (originalDraft : PreambleDraft) (raw : Str) :
    (normalisePreference originalDraft raw).isSome = true ↔ originalDraft.preferences = [] ∨ Sliceable raw := by
  rw [normalisePreference, Option.isSome_map, findOriginal_isSome_iff]

theorem rawStatement_normalisePreference {originalDraft : PreambleDraft} {raw : Str} {preference : DetectedPreference}
    (normalised : normalisePreference originalDraft raw = some preference) :
    preference.rawStatement = Str.trim raw := by
  obtain ⟨found, -, rfl⟩ := Option.map_eq_some_iff.mp normalised
  rfl

theorem statements_of_normalised {originalDraft : PreambleDraft} {strings : List Str}
    {preferences : List DetectedPreference}
    (paired : List.Forall₂ (fun raw preference => normalisePreference originalDraft raw = some preference)
      strings preferences) : preferences.map DetectedPreference.rawStatement = strings.map Str.trim := by
  induction paired with
  | nil => rfl
  | cons normalised rest ih => rw [List.map_cons, List.map_cons, ih, rawStatement_normalisePreference normalised]

def nonBlank (strings : List Str) : List Str := strings.filter fun raw => !(Str.trim raw).isEmpty

/-- The function returns, and of a response that is read it returns the non-blank strings, trimmed. -/
structure NormalisesTotally (json : ResponseJson) (rawJson : Str) (originalDraft : PreambleDraft) : Prop where
  returns : (parseNormalizationResponse json rawJson originalDraft).isSome = true
  faithful : ∀ strings, readNormalisationResponse json rawJson = some strings →
    ∃ preferences, parseNormalizationResponse json rawJson originalDraft = some (.ok preferences) ∧
      preferences.map DetectedPreference.rawStatement = (nonBlank strings).map Str.trim

/-- An object with one list of strings under the field's name is read as that list. -/
theorem readNormalisationResponse_object {rawJson part : Str} {members : List (Str × Str)} {strings : List Str}
    (object : json.shape rawJson = some (.object members))
    (sole : members.filter (fun member => member.1 == "preferences".toList) = [("preferences".toList, part)])
    (list : json.readStrings part = some strings) : readNormalisationResponse json rawJson = some strings := by
  rw [readNormalisationResponse, object, Option.bind_some, Shape.readSole, Shape.field, sole]
  exact list

theorem parseNormalizationResponse_unread {rawJson : Str} (unread : readNormalisationResponse json rawJson = none)
    (originalDraft : PreambleDraft) : (parseNormalizationResponse json rawJson originalDraft).isSome = true := by
  rw [parseNormalizationResponse, unread]
  rfl

theorem parseNormalizationResponse_read {rawJson : Str} {strings : List Str}
    (read : readNormalisationResponse json rawJson = some strings) (originalDraft : PreambleDraft) :
    parseNormalizationResponse json rawJson originalDraft =
      ((nonBlank strings).mapM (normalisePreference originalDraft)).map .ok := by
  rw [parseNormalizationResponse, read]
  rfl

/-- Normalisation is total exactly when the draft has no preferences, or the first 30 bytes of each non-blank
string of the response can be cut off. -/
theorem normalisesTotally_iff (json : ResponseJson) (rawJson : Str) (originalDraft : PreambleDraft) :
    NormalisesTotally json rawJson originalDraft ↔
      originalDraft.preferences = [] ∨ ∀ strings, readNormalisationResponse json rawJson = some strings →
        ∀ raw ∈ nonBlank strings, Sliceable raw := by
  constructor
  · intro total
    by_cases none : originalDraft.preferences = []
    · exact .inl none
    · refine .inr fun strings read raw member => ?_
      have returned := total.returns
      rw [parseNormalizationResponse_read read, Option.isSome_map, Option.isSome_iff_exists] at returned
      obtain ⟨preferences, normalised⟩ := returned
      obtain ⟨preference, -, found⟩ := exists_of_forall₂ (mapM_eq_some.mp normalised) member
      have sliceable := (normalisePreference_isSome_iff originalDraft raw).mp (Option.isSome_of_eq_some found)
      exact sliceable.resolve_left none
  · intro cuttable
    have answered (strings : List Str) (read : readNormalisationResponse json rawJson = some strings) :
        ∃ preferences, (nonBlank strings).mapM (normalisePreference originalDraft) = some preferences := by
      apply exists_mapM_eq_some
      intro raw member
      exact (normalisePreference_isSome_iff originalDraft raw).mpr (cuttable.imp id fun all => all strings read raw member)
    constructor
    · cases read : readNormalisationResponse json rawJson with
      | none => exact parseNormalizationResponse_unread read originalDraft
      | some strings =>
        obtain ⟨preferences, normalised⟩ := answered strings read
        rw [parseNormalizationResponse_read read, normalised]
        rfl
    · intro strings read
      obtain ⟨preferences, normalised⟩ := answered strings read
      refine ⟨preferences, ?_, statements_of_normalised (mapM_eq_some.mp normalised)⟩
      rw [parseNormalizationResponse_read read, normalised]
      rfl

/-- Twenty-nine letters and one that takes two bytes. -/
def accentedAnswer : Str := List.replicate 29 'a' ++ ['é']

/-- A reader of the object whose one field is the list of that string. -/
def accentedJson : ResponseJson where
  shape _ := some (.object [("preferences".toList, [])])
  readStrings _ := some [accentedAnswer]
  error _ := []

theorem accentedAnswer_panics : ∃ originalDraft,
    parseNormalizationResponse accentedJson [] originalDraft = none ∧
      ¬ ∀ json rawJson originalDraft, NormalisesTotally json rawJson originalDraft := by
  have panics : parseNormalizationResponse accentedJson [] ⟨[⟨['a'], .general⟩], ⟨none, none, [], []⟩⟩ = none := by
    decide
  refine ⟨_, panics, fun total => ?_⟩
  have returns := (total accentedJson [] ⟨[⟨['a'], .general⟩], ⟨none, none, [], []⟩⟩).returns
  rw [panics] at returns
  cases returns

end SkillLayer.SessionExtractor
