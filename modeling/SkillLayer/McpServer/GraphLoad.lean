import SkillLayer.Dealing
import SkillLayer.Infrastructure.OllamaEmbeddings
import SkillLayer.Infrastructure.Usage
import SkillLayer.McpServer.Reload
import SkillLayer.Retrieval.ScopeSearch

/-! The graph loader in full: two batches of embeddings, the second one handed out skill by skill. -/

namespace SkillLayer.McpServer

open Domain Infrastructure
open Retrieval (Embedding SeededSkill)

/-- What the loader reads: both queries, the provider, the usage table, the formula of
the prior, the file system and the process environment. -/
structure LoaderServices where
  currentGraphVersion : Except Str Int
  listSkills : Except Str (List PersistedGraphSkillRecord)
  embedBatch : List Str → Except Str (List Embedding)
  recentUsage : List Str → Int → Except Str (List SkillUsageSummary)
  usagePrior : Nat → Nat → Rat
  uuidText : Uuid → Str
  canonicalize : Str → Option Str
  skillGlobalPaths : Option Str
  skillProjectRoot : Option Str
  currentDir : Option Str

inductive LoadError where
  | failed (message : Str)
  /-- The `expect` on the stream of subunit vectors. -/
  | exhausted

variable (services : LoaderServices)

/-! ### Texts and batches -/

def skillText (record : PersistedGraphSkillRecord) : Str :=
  record.name ++ " " ++ record.description ++ " " ++ Str.join " " record.tags

def subunitText (subunit : PersistedGraphSubunitRecord) : Str := subunit.title ++ " " ++ subunit.content

def subunitTexts (skills : List PersistedGraphSkillRecord) : List Str :=
  skills.flatMap fun record => record.subunits.map subunitText

/-- A batch is good when it answers with one vector for each text. -/
def checkedBatch (texts : List Str) (mismatch : Nat → Str) : Except LoadError (List Embedding) :=
  match services.embedBatch texts with
  | .error message => .error (.failed message)
  | .ok vectors => if vectors.length ≠ texts.length then .error (.failed (mismatch vectors.length)) else .ok vectors

def skillMismatch (skills : List PersistedGraphSkillRecord) (vectors : Nat) : Str :=
  "embed_batch returned " ++ Str.ofNat vectors ++ " vectors for " ++ Str.ofNat skills.length ++ " skills"

def subunitMismatch (texts : List Str) (vectors : Nat) : Str :=
  "embed_batch returned " ++ Str.ofNat vectors ++ " subunit vectors for " ++ Str.ofNat texts.length ++ " subunit texts"

/-- The vectors of the subunits of each skill, and what the iterator still holds after the last one. -/
def perSkillSubunitEmbeddings (skills : List PersistedGraphSkillRecord) :
    Except LoadError (List (List Embedding) × List Embedding) :=
  let texts := subunitTexts skills
  if texts.isEmpty then .ok (skills.map fun _ => [], [])
  else
    match checkedBatch services texts (subunitMismatch texts) with
    | .error error => .error error
    | .ok flat =>
      match dealGroups (skills.map fun record => record.subunits.length) flat with
      | none => .error .exhausted
      | some dealt => .ok dealt

/-! ### Assembling the snapshot -/

def subunitKindFromDb (raw : Str) : SubunitType :=
  if raw = "procedure" then .procedure
  else if raw = "convention" then .convention
  else if raw = "asset" then .asset
  else if raw = "evidence" then .evidence
  else if raw = "summary" then .summary
  else .procedure

def scopePathsFromEnv (raw : Option Str) : List Str :=
  match raw with
  | none => []
  | some raw =>
    let entries := (raw.splitOnP fun c => c == ':' || c == ';').map Str.trim
    (entries.filter fun entry => !entry.isEmpty).filterMap services.canonicalize

def globalScopePaths : List Str := scopePathsFromEnv services services.skillGlobalPaths

def projectScopePaths : List Str :=
  let declared := (services.skillProjectRoot.map Str.trim).filter fun raw => !raw.isEmpty
  ((declared.or services.currentDir).bind services.canonicalize).toList

/-- Scope, scope id and the paths of a skill without its own. -/
def scopeOf (column : Str) : ScopeType × Str × List Str :=
  if column = "global" then (.global, "global", globalScopePaths services)
  else if column = "team" then (.team, "team", [])
  else (.project, "project", projectScopePaths services)

def sourcePathsOf (record : PersistedGraphSkillRecord) : List Str :=
  if record.sourcePaths.isEmpty then (scopeOf services record.scope).2.2
  else record.sourcePaths.map fun raw => (services.canonicalize raw).getD raw

/-- The window of the retirement defaults. -/
def scoringWindowDays : Int := 90

def usageBySkill (skills : List PersistedGraphSkillRecord) : List SkillUsageSummary :=
  match services.recentUsage (skills.map fun record => services.uuidText record.skillId) scoringWindowDays with
  | .ok summaries => summaries
  | .error _ => []

/-- Collected into a map, so the last summary of an id counts. -/
def priorOf (summaries : List SkillUsageSummary) (skillId : Str) : Rat :=
  match summaries.reverse.find? fun summary => summary.skillId = skillId with
  | some summary => services.usagePrior summary.totalCount (summary.ageDays.getD (2 ^ 32 - 1))
  | none => services.usagePrior 0 0

def primaryCommunityId (record : PersistedGraphSkillRecord) : Option DomainId :=
  (((record.communityIds.map services.uuidText).insertionSort fun left right => Str.le left right).head?).map
    DomainId.mk

def seededSkill (record : PersistedGraphSkillRecord) : Skill where
  id := ⟨services.uuidText record.skillId⟩
  name := record.name
  description := record.description
  scope := (scopeOf services record.scope).1
  status := .ready
  lifecycle := .active
  tags := record.tags
  subunitIds := record.subunits.map fun subunit => ⟨services.uuidText subunit.subunitId⟩
  communityId := primaryCommunityId services record

def seededSubunit (skillId : DomainId) (subunit : PersistedGraphSubunitRecord) : Subunit where
  id := ⟨services.uuidText subunit.subunitId⟩
  skillId := skillId
  kind := subunitKindFromDb subunit.kind
  title := subunit.title
  content := subunit.content
  lifecycle := .active

def seeded (summaries : List SkillUsageSummary) (record : PersistedGraphSkillRecord) (embedding : Embedding)
    (subunitEmbeddings : List Embedding) : SeededSkill where
  skill := seededSkill services record
  scopeId := (scopeOf services record.scope).2.1
  sourcePaths := sourcePathsOf services record
  embedding := embedding
  subunits := record.subunits.map (seededSubunit services ⟨services.uuidText record.skillId⟩)
  subunitEmbeddings := subunitEmbeddings
  prior := priorOf services summaries (services.uuidText record.skillId)
  communityBoost := if record.communityIds.isEmpty then 0 else 1 / 5

/-- The mean of the skills whose primary community it is; the first one gives the dimension. -/
def communityCentroid (skills : List SeededSkill) (communityId : Str) : Option Embedding :=
  let members := (skills.filter fun member =>
    member.skill.communityId = some ⟨communityId⟩ ∧ member.embedding ≠ []).map SeededSkill.embedding
  members.head?.map fun first =>
    let counted := members.filter fun vector => vector.length = first.length
    let sums := counted.foldl (List.zipWith fun total value => total + value) (List.replicate first.length 0)
    sums.map fun total => total / counted.length

def assemble (skills : List PersistedGraphSkillRecord) (embeddings : List Embedding)
    (groups : List (List Embedding)) : List SeededSkill :=
  ((skills.zip embeddings).zip groups).map fun entry =>
    seeded services (usageBySkill services skills) entry.1.1 entry.1.2 entry.2

def buildGraphFromPg : Except LoadError Retrieval.RetrievalSnapshot :=
  match services.currentGraphVersion with
  | .error error => .error (.failed ("failed to read graph_version from graph_state: " ++ error))
  | .ok graphVersion =>
    match services.listSkills with
    | .error error => .error (.failed ("failed to list skills from PG: " ++ error))
    | .ok listed =>
      if listed.isEmpty then .ok ⟨graphVersion, [], fun _ => none⟩
      else
        let skills := if maxSkillsToLoad < listed.length then listed.take maxSkillsToLoad else listed
        match checkedBatch services (skills.map skillText) (skillMismatch skills) with
        | .error error => .error error
        | .ok embeddings =>
          match perSkillSubunitEmbeddings services skills with
          | .error error => .error error
          | .ok (groups, _) =>
            let seededSkills := assemble services skills embeddings groups
            .ok ⟨graphVersion, seededSkills, communityCentroid seededSkills⟩

/-! ### Which vector a subunit gets -/

/-- The provider answered this text with this vector, both at one position of a batch. -/
def AnsweredWith (text : Str) (vector : Embedding) : Prop :=
  ∃ (texts : List Str) (vectors : List Embedding) (position : Nat), services.embedBatch texts = .ok vectors ∧
    texts[position]? = some text ∧ vectors[position]? = some vector

theorem checkedBatch_ne_exhausted (services : LoaderServices) (texts : List Str) (mismatch : Nat → Str) :
    checkedBatch services texts mismatch ≠ .error .exhausted := by
  unfold checkedBatch
  split
  · simp
  · split <;> simp

variable {services}

theorem checkedBatch_eq_ok {texts : List Str} {mismatch : Nat → Str} {vectors : List Embedding}
    (checked : checkedBatch services texts mismatch = .ok vectors) :
    services.embedBatch texts = .ok vectors ∧ vectors.length = texts.length := by
  unfold checkedBatch at checked
  cases answer : services.embedBatch texts with
  | error message => simp [answer] at checked
  | ok answered =>
    simp only [answer] at checked
    split at checked
    · cases checked
    · rename_i sized
      obtain rfl := Except.ok.inj checked
      exact ⟨rfl, Decidable.not_not.mp sized⟩

theorem checkedBatch_answered {texts : List Str} {mismatch : Nat → Str} {vectors : List Embedding}
    (checked : checkedBatch services texts mismatch = .ok vectors) :
    List.Forall₂ (AnsweredWith services) texts vectors := by
  obtain ⟨answer, sized⟩ := checkedBatch_eq_ok checked
  refine List.forall₂_iff_get.mpr ⟨sized.symm, fun position inTexts inVectors => ?_⟩
  exact ⟨texts, vectors, position, answer, by simp [inTexts], by simp [inVectors]⟩

/-- A vector for each subunit of each skill, in order, and the iterator used up. -/
structure LinedUp (services : LoaderServices) (skills : List PersistedGraphSkillRecord)
    (groups : List (List Embedding)) (undealt : List Embedding) : Prop where
  usedUp : undealt = []
  dealtInOrder : groups.flatten = [] ∨ services.embedBatch (subunitTexts skills) = .ok groups.flatten
  each : List.Forall₂ (fun record group =>
    List.Forall₂ (AnsweredWith services) (record.subunits.map subunitText) group) skills groups

theorem subunitTexts_eq_flatten (skills : List PersistedGraphSkillRecord) :
    subunitTexts skills = (skills.map fun record => record.subunits.map subunitText).flatten := List.flatMap_def ..

/-- The hand-out of a full batch neither runs dry nor keeps anything back. -/
theorem linedUp_of_checkedBatch {skills : List PersistedGraphSkillRecord} {mismatch : Nat → Str}
    {flat : List Embedding} (checked : checkedBatch services (subunitTexts skills) mismatch = .ok flat) :
    ∃ groups, dealGroups (skills.map fun record => record.subunits.length) flat = some (groups, []) ∧
      LinedUp services skills groups [] := by
  obtain ⟨answer, sized⟩ := checkedBatch_eq_ok checked
  have total : flat.length = (skills.map fun record => record.subunits.length).sum := by
    rw [sized, subunitTexts, List.length_flatMap]
    simp
  obtain ⟨groups, sizes, rfl⟩ := exists_groups _ total
  have dealt := dealGroups_flatten groups []
  rw [sizes, List.append_nil] at dealt
  have answered := checkedBatch_answered checked
  rw [subunitTexts_eq_flatten] at answered
  have shaped : groups.map List.length =
      (skills.map fun record => record.subunits.map subunitText).map List.length := by
    rw [sizes, List.map_map]
    exact List.map_congr_left fun record _ => by simp
  have grouped := forall₂_of_flatten shaped answered
  rw [List.forall₂_map_left_iff] at grouped
  exact ⟨groups, dealt, rfl, .inr answer, grouped⟩

theorem linedUp_of_no_texts {skills : List PersistedGraphSkillRecord} (without : subunitTexts skills = []) :
    LinedUp services skills (skills.map fun _ => []) [] where
  usedUp := rfl
  dealtInOrder := .inl (by simp)
  each := by
    rw [List.forall₂_map_right_iff, List.forall₂_same]
    intro record member
    rw [List.flatMap_eq_nil_iff.mp without record member]
    exact .nil

theorem perSkillSubunitEmbeddings_ne_exhausted (services : LoaderServices) (skills : List PersistedGraphSkillRecord) :
    perSkillSubunitEmbeddings services skills ≠ .error .exhausted := by
  unfold perSkillSubunitEmbeddings
  dsimp only
  split
  · simp
  · cases checked : checkedBatch services (subunitTexts skills) (subunitMismatch (subunitTexts skills)) with
    | error error =>
      have other := checkedBatch_ne_exhausted services (subunitTexts skills) (subunitMismatch (subunitTexts skills))
      rw [checked] at other
      intro same
      exact other (congrArg Except.error (Except.error.inj same))
    | ok flat =>
      obtain ⟨groups, dealt, -⟩ := linedUp_of_checkedBatch checked
      simp [dealt]

theorem perSkillSubunitEmbeddings_linedUp {skills : List PersistedGraphSkillRecord} {groups : List (List Embedding)}
    {undealt : List Embedding} (ran : perSkillSubunitEmbeddings services skills = .ok (groups, undealt)) :
    LinedUp services skills groups undealt := by
  unfold perSkillSubunitEmbeddings at ran
  dsimp only at ran
  split at ran
  · rename_i empty
    cases ran
    exact linedUp_of_no_texts (List.isEmpty_iff.mp empty)
  · cases checked : checkedBatch services (subunitTexts skills) (subunitMismatch (subunitTexts skills)) with
    | error error => simp [checked] at ran
    | ok flat =>
      obtain ⟨dealtGroups, dealt, linedUp⟩ := linedUp_of_checkedBatch checked
      simp only [checked, dealt] at ran
      cases ran
      exact linedUp

/-- Each subunit of a loaded skill stands beside the vector its own text was answered with. -/
def Aligned (services : LoaderServices) (skill : SeededSkill) : Prop :=
  List.Forall₂ (fun subunit vector => AnsweredWith services (subunit.title ++ " " ++ subunit.content) vector)
    skill.subunits skill.subunitEmbeddings

/-- A loaded skill as its record has it, with its vectors in place. -/
structure SeededFrom (services : LoaderServices) (record : PersistedGraphSkillRecord) (skill : SeededSkill) : Prop where
  itself : skill.skill = seededSkill services record
  subunits : skill.subunits = record.subunits.map (seededSubunit services skill.skill.id)
  aligned : Aligned services skill

theorem aligned_seeded {summaries : List SkillUsageSummary} {record : PersistedGraphSkillRecord}
    {embedding : Embedding} {group : List Embedding}
    (own : List.Forall₂ (AnsweredWith services) (record.subunits.map subunitText) group) :
    Aligned services (seeded services summaries record embedding group) := by
  unfold Aligned seeded
  rw [List.forall₂_map_left_iff] at own ⊢
  exact own

/-- The zips of the assembly drop no skill and keep each group with its own. -/
theorem assembled_each {summaries : List SkillUsageSummary} {skills : List PersistedGraphSkillRecord}
    {embeddings : List Embedding} {groups : List (List Embedding)} (sized : embeddings.length = skills.length)
    (each : List.Forall₂ (fun record group =>
      List.Forall₂ (AnsweredWith services) (record.subunits.map subunitText) group) skills groups) :
    List.Forall₂ (SeededFrom services) skills
      (((skills.zip embeddings).zip groups).map fun entry => seeded services summaries entry.1.1 entry.1.2 entry.2) := by
  induction each generalizing embeddings with
  | nil => simp
  | cons own later ih =>
    cases embeddings with
    | nil => cases sized
    | cons embedding embeddings =>
      simp only [List.zip_cons_cons, List.map_cons]
      exact .cons ⟨rfl, rfl, aligned_seeded own⟩ (ih (Nat.succ.inj sized))

/-- A graph that loads holds the listed skills up to the cap, each with its vectors in place. -/
theorem buildGraphFromPg_loaded {snapshot : Retrieval.RetrievalSnapshot}
    (loaded : buildGraphFromPg services = .ok snapshot) :
    ∃ listed, services.listSkills = .ok listed ∧
      List.Forall₂ (SeededFrom services) (listed.take maxSkillsToLoad) snapshot.skills := by
  unfold buildGraphFromPg at loaded
  cases version : services.currentGraphVersion with
  | error error => simp [version] at loaded
  | ok graphVersion =>
    cases listing : services.listSkills with
    | error error => simp [version, listing] at loaded
    | ok listed =>
      have capped : (if maxSkillsToLoad < listed.length then listed.take maxSkillsToLoad else listed) =
          listed.take maxSkillsToLoad := by
        split
        · rfl
        · rename_i within
          rw [List.take_of_length_le (Nat.le_of_not_lt within)]
      simp only [version, listing, capped] at loaded
      refine ⟨listed, rfl, ?_⟩
      split at loaded
      · rename_i empty
        cases loaded
        simp [List.isEmpty_iff.mp empty]
      · generalize listed.take maxSkillsToLoad = skills at loaded
        cases batch : checkedBatch services (skills.map skillText) (skillMismatch skills) with
        | error error => simp [batch] at loaded
        | ok embeddings =>
          cases dealing : perSkillSubunitEmbeddings services skills with
          | error error => simp [batch, dealing] at loaded
          | ok dealt =>
            simp only [batch, dealing] at loaded
            cases loaded
            have sized := (checkedBatch_eq_ok batch).2
            rw [List.length_map] at sized
            exact assembled_each sized (perSkillSubunitEmbeddings_linedUp dealing).each

theorem buildGraphFromPg_ne_exhausted : buildGraphFromPg services ≠ .error .exhausted := by
  unfold buildGraphFromPg
  cases services.currentGraphVersion with
  | error error => simp
  | ok graphVersion =>
    cases services.listSkills with
    | error error => simp
    | ok listed =>
      dsimp only
      generalize (if maxSkillsToLoad < listed.length then listed.take maxSkillsToLoad else listed) = skills
      split
      · simp
      · have firstBatch := checkedBatch_ne_exhausted services (skills.map skillText) (skillMismatch skills)
        have secondBatch := perSkillSubunitEmbeddings_ne_exhausted services skills
        cases batch : checkedBatch services (skills.map skillText) (skillMismatch skills) with
        | error error =>
          rw [batch] at firstBatch
          exact fun same => firstBatch (congrArg Except.error (Except.error.inj same))
        | ok embeddings =>
          cases dealing : perSkillSubunitEmbeddings services skills with
          | error error =>
            rw [dealing] at secondBatch
            exact fun same => secondBatch (congrArg Except.error (Except.error.inj same))
          | ok dealt => simp

/-- Every subunit gets the vector of its own text, and the stream of vectors comes out even. -/
theorem buildGraphFromPg_linedUp (services : LoaderServices) :
    (∀ skills, perSkillSubunitEmbeddings services skills ≠ .error .exhausted ∧
      ∀ groups undealt, perSkillSubunitEmbeddings services skills = .ok (groups, undealt) →
        LinedUp services skills groups undealt) ∧
    buildGraphFromPg services ≠ .error .exhausted ∧
    ∀ snapshot, buildGraphFromPg services = .ok snapshot → ∃ listed, services.listSkills = .ok listed ∧
      List.Forall₂ (SeededFrom services) (listed.take maxSkillsToLoad) snapshot.skills := by
  refine ⟨fun skills => ⟨perSkillSubunitEmbeddings_ne_exhausted services skills, ?_⟩, buildGraphFromPg_ne_exhausted, ?_⟩
  · intro groups undealt ran
    exact perSkillSubunitEmbeddings_linedUp ran
  · intro snapshot loaded
    exact buildGraphFromPg_loaded loaded

theorem ids_of_seeded {records : List PersistedGraphSkillRecord} {skills : List SeededSkill}
    (made : List.Forall₂ (SeededFrom services) records skills) :
    skills.map (fun skill => skill.skill.id) = records.map fun record => ⟨services.uuidText record.skillId⟩ := by
  induction made with
  | nil => rfl
  | cons here later ih => rw [List.map_cons, List.map_cons, ih, here.itself, seededSkill]

/-- The ids of a loaded graph are distinct, as the keys of the table are. -/
theorem nodup_ids_of_loaded {snapshot : Retrieval.RetrievalSnapshot} {listed : List PersistedGraphSkillRecord}
    (loaded : buildGraphFromPg services = .ok snapshot) (listing : services.listSkills = .ok listed)
    (keys : (listed.map PersistedGraphSkillRecord.skillId).Nodup) (readable : Function.Injective services.uuidText) :
    (snapshot.skills.map fun skill => skill.skill.id).Nodup := by
  obtain ⟨known, alsoListed, seeded⟩ := buildGraphFromPg_loaded loaded
  obtain rfl := Except.ok.inj (listing.symm.trans alsoListed)
  rw [ids_of_seeded seeded]
  have texts : Function.Injective fun id : Uuid => DomainId.mk (services.uuidText id) :=
    fun one two same => readable (congrArg DomainId.value same)
  have front := (keys.sublist ((List.take_sublist maxSkillsToLoad listed).map _)).map texts
  rwa [List.map_map] at front

def sampleRecord (skillId : Uuid) (subunits : List PersistedGraphSubunitRecord) : PersistedGraphSkillRecord :=
  ⟨skillId, "tips", "Tips", "global", [], ["/skills/tips"], [], subunits⟩

/-- A skill of two subunits, one without any, and one of a single subunit. -/
def sampleRecords : List PersistedGraphSkillRecord :=
  [sampleRecord [1] [⟨[4], "procedure", "a", "b"⟩, ⟨[5], "evidence", "cc", "d"⟩], sampleRecord [2] [],
    sampleRecord [3] [⟨[6], "summary", "eee", "f"⟩]]

/-- A provider that answers with the length of each text. -/
def sampleServices : LoaderServices where
  currentGraphVersion := .ok 7
  listSkills := .ok sampleRecords
  embedBatch texts := .ok (texts.map fun text => [(text.length : Rat)])
  recentUsage _ _ := .ok []
  usagePrior _ _ := 0
  uuidText id := id.map fun byte => Char.ofNat (48 + byte.toNat)
  canonicalize path := some path
  skillGlobalPaths := none
  skillProjectRoot := none
  currentDir := none

theorem sampleRecords_linedUp : LinedUp sampleServices sampleRecords [[[3], [4]], [], [[5]]] [] :=
  ((buildGraphFromPg_linedUp sampleServices).1 sampleRecords).2 _ _ rfl

/-! ### The provider of the server -/

/-- `embed_batch` of the provider, run on the jobs of each batch. -/
def ollamaBatch (ended : List Str → List EndedJob) (texts : List Str) : Except Str (List Embedding) :=
  (embedBatch (ended texts) texts).mapError Retrieval.EmbeddingError.display

/-- An answer of this provider is the embedding of the text, whatever the order in which the jobs ended. -/
theorem AnsweredWith.of_ollama {ended : List Str → List EndedJob}
    {endpoint : List Str → Nat → Str → EndpointAnswer} {text : Str} {vector : Embedding}
    (jobs : ∀ texts, JobsOf (endpoint texts) texts (ended texts)) (provider : services.embedBatch = ollamaBatch ended)
    (answered : AnsweredWith services text vector) :
    ∃ texts position, embed (endpoint texts position) text = .ok vector := by
  obtain ⟨texts, vectors, position, answer, inTexts, inVectors⟩ := answered
  rw [provider] at answer
  have batch : embedBatch (ended texts) texts = .ok vectors := by
    unfold ollamaBatch at answer
    cases ran : embedBatch (ended texts) texts with
    | error error => simp [ran, Except.mapError] at answer
    | ok found => simpa [ran, Except.mapError] using answer
  exact ⟨texts, position, (embedBatch_answers (jobs texts) batch).2 position text vector inTexts inVectors⟩

/-- Loaded through this provider, the vector of each subunit is the embedding of its text. -/
theorem Aligned.of_ollama {ended : List Str → List EndedJob} {endpoint : List Str → Nat → Str → EndpointAnswer}
    {skill : SeededSkill} (jobs : ∀ texts, JobsOf (endpoint texts) texts (ended texts))
    (provider : services.embedBatch = ollamaBatch ended) (aligned : Aligned services skill) :
    List.Forall₂ (fun subunit vector => ∃ texts position,
      embed (endpoint texts position) (subunit.title ++ " " ++ subunit.content) = .ok vector)
      skill.subunits skill.subunitEmbeddings := by
  refine List.Forall₂.imp ?_ aligned
  intro subunit vector answered
  exact answered.of_ollama jobs provider

end SkillLayer.McpServer
