import SkillLayer.Text

/-! Values shared by the crates: identifiers, scopes, transcripts and the typed
session events they are derived from. -/

namespace SkillLayer.Domain

structure DomainId where
  value : Str
deriving DecidableEq

inductive DomainError where
  | invalidIdentifier (message : Str)
deriving DecidableEq

def DomainError.display : DomainError → Str
  | .invalidIdentifier message => "invalid identifier: " ++ message

def DomainId.parse (raw : Str) : Except DomainError DomainId :=
  let trimmed := Str.trim raw
  if trimmed.isEmpty then .error (.invalidIdentifier "identifier cannot be blank")
  else if trimmed.any Str.isWhitespace then
    .error (.invalidIdentifier "identifier cannot contain whitespace")
  else .ok ⟨trimmed⟩

inductive ScopeType where
  | project
  | global
  | team
deriving DecidableEq

/-- The derived `Debug` text of a scope. -/
def ScopeType.debug : ScopeType → Str
  | .project => "Project"
  | .global => "Global"
  | .team => "Team"

inductive SubunitType where
  | procedure
  | convention
  | asset
  | evidence
  | summary
deriving DecidableEq

/-- The derived `Debug` text of a subunit kind. -/
def SubunitType.debug : SubunitType → Str
  | .procedure => "Procedure"
  | .convention => "Convention"
  | .asset => "Asset"
  | .evidence => "Evidence"
  | .summary => "Summary"

inductive LifecycleStatus where
  | draft
  | active
  | retired
  | rejected
  | deleted
deriving DecidableEq

inductive SkillStatus where
  | draft
  | ready
  | deprecated
  | retired
deriving DecidableEq

structure Skill where
  id : DomainId
  name : Str
  description : Str
  scope : ScopeType
  status : SkillStatus
  lifecycle : LifecycleStatus
  tags : List Str
  subunitIds : List DomainId
  communityId : Option DomainId
deriving DecidableEq

structure Subunit where
  id : DomainId
  skillId : DomainId
  kind : SubunitType
  title : Str
  content : Str
  lifecycle : LifecycleStatus
deriving DecidableEq

structure TranscriptEntry where
  speaker : Str
  content : Str
deriving DecidableEq

structure SessionTranscript where
  sessionId : DomainId
  entries : List TranscriptEntry
deriving DecidableEq

inductive SessionEvent where
  | userMessage (index : Nat) (content : Str)
  | assistantMessage (index : Nat) (content : Str)
  | toolCall (index : Nat) (toolUseId name inputJson : Str)
  | toolResult (index : Nat) (toolUseId : Str) (isError : Bool) (exitCode : Option Int) (output : Str)
  | fileEdit (index : Nat) (toolUseId path operation : Str)
  | metadata (index : Nat) (eventType : Str)
deriving DecidableEq

namespace SessionEvent

/-- The zero-based source line that produced the event. -/
def index : SessionEvent → Nat
  | .userMessage index _ => index
  | .assistantMessage index _ => index
  | .toolCall index _ _ _ => index
  | .toolResult index _ _ _ _ => index
  | .fileEdit index _ _ _ => index
  | .metadata index _ => index

def asTranscriptEntry? : SessionEvent → Option TranscriptEntry
  | .userMessage _ content => some ⟨"user", content⟩
  | .assistantMessage _ content => some ⟨"assistant", content⟩
  | _ => none

end SessionEvent

def eventsToTranscript (sessionId : DomainId) (events : List SessionEvent) : SessionTranscript :=
  ⟨sessionId, events.filterMap SessionEvent.asTranscriptEntry?⟩

structure ExtractedSkillCandidate where
  name : Str
  description : Str
  tags : List Str
  procedures : List Str
  conventions : List Str
  assets : List Str
  generality : Option Str
  generalityRationale : Option Str
deriving DecidableEq

structure ExtractionResult where
  sourceSessionId : DomainId
  candidates : List ExtractedSkillCandidate
  provider : Str
deriving DecidableEq

inductive ExtractionError where
  | providerUnavailable (message : Str)
  | invalidTranscript (message : Str)
  | timeout (timeoutMs : Nat)
  | unexpected (message : Str)
deriving DecidableEq

/-- Canonical lifecycle file names of a skill directory. -/
def activeSkillFileName : Str := "SKILL.md"
def pendingSkillFileName : Str := "SKILL.md.pending"
def rejectedSkillFileName : Str := "SKILL.md.rejected"
def retiredSkillFileName : Str := "SKILL.md.retired"

end SkillLayer.Domain
