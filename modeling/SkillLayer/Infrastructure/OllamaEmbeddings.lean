import SkillLayer.Collect
import SkillLayer.Retrieval.CosineRank
import SkillLayer.Retrieval.Orchestrator

/-! The embedding provider: one job a text, and an answer in the order of the texts. -/

namespace SkillLayer

def Retrieval.EmbeddingError.display : Retrieval.EmbeddingError → Str
  | .providerUnavailable message => "embedding provider unavailable: " ++ message
  | .invalidInput message => "embedding input is invalid: " ++ message
  | .timeout timeoutMs => "embedding request timed out after " ++ Str.ofNat timeoutMs ++ "ms"
  | .unexpected message => "embedding failure: " ++ message

namespace Infrastructure

open Retrieval (Embedding EmbeddingError)

def maxEmbedInputChars : Nat := 4000

def capToEmbedWindow (text : Str) : Str :=
  if text.length ≤ maxEmbedInputChars then text else text.take maxEmbedInputChars

/-- How the endpoint ends a request. -/
inductive EndpointAnswer where
  | unreachable (message : Str)
  | status (line : Str)
  | malformed (message : Str)
  | body (embedding : Embedding)

def embed (endpoint : Str → EndpointAnswer) (text : Str) : Except EmbeddingError Embedding :=
  if (Str.trim text).isEmpty then .error (.invalidInput "text input must not be blank")
  else
    match endpoint (capToEmbedWindow text) with
    | .unreachable message => .error (.providerUnavailable message)
    | .status line => .error (.providerUnavailable ("ollama embedding endpoint returned " ++ line))
    | .malformed message => .error (.unexpected message)
    | .body embedding =>
      if embedding.isEmpty then .error (.unexpected "ollama embedding response returned an empty vector")
      else .ok embedding

/-- A job that ended: the position of its text, and its result unless the task itself failed. -/
structure EndedJob where
  index : Nat
  result : Except Str (Except EmbeddingError Embedding)

/-- Take the jobs as they end; the first failure ends the batch. -/
def collectJobs : List EndedJob → List (Option Embedding) → Except EmbeddingError (List (Option Embedding))
  | [], ordered => .ok ordered
  | ⟨index, result⟩ :: ended, ordered =>
    match result with
    | .error message => .error (.unexpected ("embedding batch task failed: " ++ message))
    | .ok (.error error) => .error error
    | .ok (.ok vector) => collectJobs ended (ordered.set index (some vector))

def presentEntry : Option Embedding → Except EmbeddingError Embedding
  | some vector => .ok vector
  | none => .error (.unexpected "embedding batch result was missing an entry")

def embedBatch (ended : List EndedJob) (texts : List Str) : Except EmbeddingError (List Embedding) :=
  if texts.isEmpty then .error (.invalidInput "batch input must contain at least one text")
  else
    match collectJobs ended (List.replicate texts.length none) with
    | .error error => .error error
    | .ok ordered => ordered.mapM presentEntry

/-- Each job that ends is the job of one of the texts; the endpoint may answer every job
in its own way. -/
def JobsOf (endpoint : Nat → Str → EndpointAnswer) (texts : List Str) (ended : List EndedJob) : Prop :=
  ∀ job ∈ ended, ∃ text, texts[job.index]? = some text ∧
    ∀ result, job.result = .ok result → result = embed (endpoint job.index) text

/-- A filled slot holds the embedding of the text at its position. -/
def Filled (endpoint : Nat → Str → EndpointAnswer) (texts : List Str) (ordered : List (Option Embedding)) : Prop :=
  ordered.length = texts.length ∧ ∀ index vector, ordered[index]? = some (some vector) →
    ∃ text, texts[index]? = some text ∧ embed (endpoint index) text = .ok vector

variable {endpoint : Nat → Str → EndpointAnswer} {texts : List Str}

theorem filled_empty : Filled endpoint texts (List.replicate texts.length none) := by
  refine ⟨List.length_replicate, ?_⟩
  intro index vector found
  have empty := List.eq_of_mem_replicate (List.mem_of_getElem? found)
  cases empty

theorem Filled.set {ordered : List (Option Embedding)} {position : Nat} {text : Str} {vector : Embedding}
    (filled : Filled endpoint texts ordered) (here : texts[position]? = some text)
    (embedded : embed (endpoint position) text = .ok vector) :
    Filled endpoint texts (ordered.set position (some vector)) := by
  refine ⟨by rw [List.length_set, filled.1], ?_⟩
  intro index other found
  rw [List.getElem?_set] at found
  split at found
  · rename_i same
    subst same
    split at found
    · obtain rfl := Option.some.inj (Option.some.inj found)
      exact ⟨text, here, embedded⟩
    · cases found
  · exact filled.2 index other found

/-- Whatever the order in which the jobs end, no vector lands in the slot of another text. -/
theorem collectJobs_filled {ended : List EndedJob} {ordered final : List (Option Embedding)}
    (jobs : JobsOf endpoint texts ended) (filled : Filled endpoint texts ordered)
    (ran : collectJobs ended ordered = .ok final) : Filled endpoint texts final := by
  induction ended generalizing ordered with
  | nil =>
    obtain rfl := Except.ok.inj ran
    exact filled
  | cons job ended ih =>
    obtain ⟨text, here, computed⟩ := jobs job List.mem_cons_self
    have others : JobsOf endpoint texts ended := fun other member => jobs other (List.mem_cons_of_mem _ member)
    obtain ⟨index, result⟩ := job
    cases result with
    | error message => simp [collectJobs] at ran
    | ok result =>
      cases result with
      | error error => simp [collectJobs] at ran
      | ok vector => exact ih others (filled.set here (computed _ rfl).symm) ran

theorem eq_map_some_of_present {ordered : List (Option Embedding)} {vectors : List Embedding}
    (present : ordered.mapM presentEntry = .ok vectors) : ordered = vectors.map some := by
  have slots := mapM_eq_ok.mp present
  clear present
  induction slots with
  | nil => rfl
  | cons here later ih =>
    rename_i slot vector ordered vectors
    cases slot with
    | none => cases here
    | some held => rw [Except.ok.inj here, ih, List.map_cons]

/-- A batch that answers has embedded every text at its own position. -/
theorem embedBatch_answers {ended : List EndedJob} {vectors : List Embedding} (jobs : JobsOf endpoint texts ended)
    (answered : embedBatch ended texts = .ok vectors) :
    vectors.length = texts.length ∧ ∀ index text vector, texts[index]? = some text →
      vectors[index]? = some vector → embed (endpoint index) text = .ok vector := by
  unfold embedBatch at answered
  split at answered
  · cases answered
  · cases collected : collectJobs ended (List.replicate texts.length none) with
    | error error => simp [collected] at answered
    | ok ordered =>
      simp only [collected] at answered
      obtain ⟨sized, slots⟩ := collectJobs_filled jobs filled_empty collected
      obtain rfl := eq_map_some_of_present answered
      refine ⟨by rw [← sized, List.length_map], ?_⟩
      intro index text vector inTexts inVectors
      obtain ⟨own, ownText, embedded⟩ := slots index vector (by rw [List.getElem?_map, inVectors, Option.map_some])
      rw [inTexts] at ownText
      rw [Option.some.inj ownText, embedded]

end Infrastructure

end SkillLayer
