import SkillLayer.Infrastructure.OutboxRelay
import SkillLayer.Infrastructure.TranscriptStatements
import SkillLayer.Json
import SkillLayer.Maintenance.TranscriptDrain
import SkillLayer.Threads

/-! The endpoint that capture hooks post transcripts to: who gets in, and what a reply says
about the queue while other posts and the drains go on. -/

namespace SkillLayer.McpServer

open Infrastructure Maintenance

/-! ### The shared secret -/

/-- The loop runs over all pairs, whatever it has seen. -/
def constantTimeBytesEqual (a b : List UInt8) : Bool :=
  if a.length ≠ b.length then false
  else (a.zip b).foldl (fun diff pair => diff ||| (pair.1 ^^^ pair.2)) 0 == 0

theorem foldl_diff_eq_zero (pairs : List (UInt8 × UInt8)) (diff : UInt8) :
    pairs.foldl (fun diff pair => diff ||| (pair.1 ^^^ pair.2)) diff = 0 ↔
      diff = 0 ∧ ∀ pair ∈ pairs, pair.1 = pair.2 := by
  induction pairs generalizing diff with
  | nil => simp
  | cons pair pairs ih =>
    rw [List.foldl_cons, ih, UInt8.or_eq_zero_iff, UInt8.xor_eq_zero_iff, List.forall_mem_cons, and_assoc]

theorem eq_of_zip {a b : List UInt8} (lengths : a.length = b.length) (pairs : ∀ pair ∈ a.zip b, pair.1 = pair.2) : a = b := by
  induction a generalizing b with
  | nil => exact (List.eq_nil_of_length_eq_zero lengths.symm).symm
  | cons x a ih =>
    cases b with
    | nil => cases lengths
    | cons y b =>
      rw [List.zip_cons_cons, List.forall_mem_cons] at pairs
      have same : x = y := pairs.1
      rw [same, ih (Nat.succ.inj lengths) pairs.2]

theorem constantTimeBytesEqual_iff {a b : List UInt8} : constantTimeBytesEqual a b = true ↔ a = b := by
  unfold constantTimeBytesEqual
  constructor
  · intro equal
    by_cases lengths : a.length = b.length
    · rw [if_neg (not_not.mpr lengths), beq_iff_eq, foldl_diff_eq_zero] at equal
      exact eq_of_zip lengths equal.2
    · rw [if_pos lengths] at equal
      cases equal
  · rintro rfl
    rw [if_neg (not_not.mpr rfl), beq_iff_eq, foldl_diff_eq_zero]
    refine ⟨rfl, ?_⟩
    intro pair member
    rw [List.zip_eq_zipWith, List.zipWith_self] at member
    obtain ⟨byte, -, rfl⟩ := List.mem_map.mp member
    rfl

/-- `TRANSCRIPT_INGEST_SECRET`, trimmed; a blank one counts as unset. -/
def ingestSecretFrom (environment : Option Str) : Option Str := (environment.map Str.trim).filter fun value => !value.isEmpty

abbrev HeaderMap := List (Str × List UInt8)

/-- The bytes that `HeaderValue::to_str` takes. -/
def isVisibleAscii (byte : UInt8) : Bool := (32 ≤ byte && byte < 127) || byte == 9

structure IngestReply where
  status : Nat
  body : Value

def unauthorizedReply : IngestReply :=
  ⟨401, .object [("status", .string "unauthorized"), ("reason_code", .string "ingest_secret_mismatch")]⟩

/-- The bytes under `x-ingest-secret`; none when the header is missing or not text. -/
def providedSecret (headers : HeaderMap) : List UInt8 :=
  match headers.lookup "x-ingest-secret".toList with
  | none => []
  | some value => if value.all isVisibleAscii then value else []

def checkIngestSecret (configured : Option Str) (headers : HeaderMap) : Except IngestReply Unit :=
  match configured with
  | none => .ok ()
  | some expected =>
    if constantTimeBytesEqual (providedSecret headers) (Str.utf8 expected) then .ok () else .error unauthorizedReply

/-- The request has the secret, if there is one. -/
def Authorized (configured : Option Str) (headers : HeaderMap) : Prop :=
  ∀ expected, configured = some expected →
    headers.lookup "x-ingest-secret".toList = some (Str.utf8 expected)

theorem utf8_ne_nil {text : Str} (some : text ≠ []) : Str.utf8 text ≠ [] := by
  cases text with
  | nil => exact absurd rfl some
  | cons c rest =>
    intro empty
    have lengths := congrArg List.length empty
    rw [Str.utf8, List.flatMap_cons, List.length_append, String.length_utf8EncodeChar] at lengths
    have positive := c.utf8Size_pos
    rw [List.length_nil] at lengths
    omega

theorem authorized_of_checkIngestSecret {environment : Option Str} {headers : HeaderMap}
    (checked : checkIngestSecret (ingestSecretFrom environment) headers = .ok ()) :
    Authorized (ingestSecretFrom environment) headers := by
  intro expected configured
  rw [configured, checkIngestSecret] at checked
  have equal : constantTimeBytesEqual (providedSecret headers) (Str.utf8 expected) = true := by
    by_contra apart
    rw [if_neg apart] at checked
    cases checked
  rw [constantTimeBytesEqual_iff] at equal
  have filled : expected ≠ [] := by
    have kept := (Option.filter_eq_some_iff.mp configured).2
    rintro rfl
    cases kept
  unfold providedSecret at equal
  split at equal
  · exact absurd equal.symm (utf8_ne_nil filled)
  · rename_i value found
    split at equal
    · rw [found, equal]
    · exact absurd equal.symm (utf8_ne_nil filled)

/-! ### The endpoint -/

structure TranscriptIngestHttpRequest where
  sessionId : Str
  repoPath : Option Str
  source : Str
  content : Str

inductive TranscriptIngestOutcome where
  | accepted (outcome : EnqueueOutcome)
  | invalidContract (error : TranscriptQueueError)
  | persistenceError (error : TranscriptQueueError)
  | unavailable

def TranscriptQueueError.reasonCode : TranscriptQueueError → Str
  | .emptyContent => "transcript_content_empty"
  | .contentTooLarge _ _ => "transcript_content_too_large"
  | .invalidContract _ => "transcript_ingest_invalid_contract"
  | .persistence _ => "transcript_queue_persistence_failed"

/-- The server of the endpoint: its environment, whether a queue is wired, the content hash. -/
structure IngestServer where
  environment : Option Str
  transcriptIngest : Bool
  hash : List UInt8 → Str

abbrev IngestProgram := Program TranscriptCall TranscriptAnswer Empty

/-- The outcome of an enqueue, as the server tells bad contracts from a failing database. -/
def ingestOutcome : Except TranscriptQueueError EnqueueOutcome → TranscriptIngestOutcome
  | .ok outcome => .accepted outcome
  | .error .emptyContent => .invalidContract .emptyContent
  | .error (.contentTooLarge limit actual) => .invalidContract (.contentTooLarge limit actual)
  | .error (.invalidContract message) => .invalidContract (.invalidContract message)
  | .error (.persistence error) => .persistenceError (.persistence error)

def ingestTranscript (server : IngestServer) (request : TranscriptIngestHttpRequest) :
    IngestProgram TranscriptIngestOutcome :=
  if server.transcriptIngest = false then .done .unavailable
  else
    match TranscriptSource.parse request.source with
    | .error error => .done (.invalidContract error)
    | .ok source =>
      (enqueue server.hash ⟨request.sessionId, request.repoPath, source, request.content⟩).outcome >>=
        fun outcome => .done (ingestOutcome outcome)

def enqueuedReply (id : Uuid) (contentHash : Str) : IngestReply :=
  ⟨202, .object [("status", .string "enqueued"), ("id", .string (Uuid.display id)), ("content_hash", .string contentHash)]⟩

def duplicateReply (contentHash : Str) : IngestReply :=
  ⟨200, .object [("status", .string "duplicate"), ("content_hash", .string contentHash)]⟩

def ingestReply : TranscriptIngestOutcome → IngestReply
  | .accepted (.enqueued id contentHash) => enqueuedReply id contentHash
  | .accepted (.duplicate contentHash) => duplicateReply contentHash
  | .invalidContract error =>
    ⟨match error with
      | .contentTooLarge _ _ => 413
      | _ => 400,
      .object [("status", .string "rejected"), ("reason_code", .string (TranscriptQueueError.reasonCode error)),
        ("detail", .string error.display)]⟩
  | .persistenceError error =>
    ⟨503, .object [("status", .string "error"), ("reason_code", .string (TranscriptQueueError.reasonCode error))]⟩
  | .unavailable =>
    ⟨503, .object [("status", .string "unavailable"), ("reason_code", .string "transcript_ingest_not_configured")]⟩

def ingestTranscriptHandler (server : IngestServer) (headers : HeaderMap) (request : TranscriptIngestHttpRequest) :
    IngestProgram IngestReply :=
  match checkIngestSecret (ingestSecretFrom server.environment) headers with
  | .error rejection => .done rejection
  | .ok () => ingestTranscript server request >>= fun outcome => .done (ingestReply outcome)

/-! ### Posts and drains at once -/

inductive IngestTask where
  | post (headers : HeaderMap) (request : TranscriptIngestHttpRequest)
  | drain (drain : TranscriptQueueDrain)

inductive IngestResult where
  | replied (reply : IngestReply)
  | drained (outcome : Except TranscriptDrainError TranscriptDrainReport)

def ingestProgram (server : IngestServer) : IngestTask → IngestProgram IngestResult
  | .post headers request => ingestTranscriptHandler server headers request >>= fun reply => .done (.replied reply)
  | .drain drain => (drain.drainOnce.outcome : IngestProgram _) >>= fun outcome => .done (.drained outcome)

/-- A statement may take effect although its connection is lost before the answer. -/
def Unheard (world : TranscriptWorld) : (request : TranscriptCall) → TranscriptAnswer request → TranscriptWorld → Prop
  | .insertIfNew id request contentHash repoPath, answer, after => ∃ weather message,
    answer = .error (.refused message) ∧
      after = (serveTranscripts weather (.insertIfNew id request contentHash repoPath) world).2
  | .claim limit, answer, after => ∃ weather message,
    answer = .error (.refused message) ∧ after = (serveTranscripts weather (.claim limit) world).2
  | .markProcessed id, answer, after => ∃ weather message,
    answer = .error (.refused message) ∧ after = (serveTranscripts weather (.markProcessed id) world).2
  | .markFailed id errorMessage maxAttempts, answer, after => ∃ weather message,
    answer = .error (.refused message) ∧
      after = (serveTranscripts weather (.markFailed id errorMessage maxAttempts) world).2
  | _, _, _ => False

def ingestThreads (server : IngestServer) :
    Threads IngestTask TranscriptCall TranscriptAnswer IngestResult TranscriptWorld where
  initial world := world.queue.rows = []
  program := ingestProgram server
  mayStart _ _ := True
  answers _ request world answer after :=
    (∃ weather, serveTranscripts weather request world = (answer, after)) ∨ Unheard world request answer after

end SkillLayer.McpServer
