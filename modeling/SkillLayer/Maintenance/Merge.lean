import SkillLayer.Collect
import SkillLayer.Infrastructure.Similarity
import SkillLayer.Maintenance.Workspace

/-! The merge pass: near duplicates across scopes become pending proposals. -/

namespace SkillLayer.Maintenance

open Domain
open Infrastructure (FloatOps CosineSums cosineSimilarity)

inductive MergeError where
  | embeddingDimensionMismatch (leftDimension rightDimension : Nat)
  | zeroMagnitudeEmbedding
  | candidateEmbedding (message : Str)
  | semanticVerification (message : Str)
  | skillNotFound (skillId : Str)
  | outputRootResolution
  | invalidPendingDirectoryName (name : Str)
  | invalidScopeRoot (path message : Str)
  | writePathOutsideScopeRoot (path scopeRoot : Str)
  | frontmatterSerialization (message : Str)
  | writeFailure (path message : Str)
  | auditEmissionFailure (message : Str)
deriving DecidableEq

def MergeError.display : MergeError → Str
  | .embeddingDimensionMismatch leftDimension rightDimension =>
    "embedding dimension mismatch: left=".toList ++ Str.ofNat leftDimension ++ ", right=".toList ++
      Str.ofNat rightDimension
  | .zeroMagnitudeEmbedding => "cannot compare zero-magnitude embedding vectors"
  | .candidateEmbedding message => "candidate embedding failed: " ++ message
  | .semanticVerification message => "semantic verification failed: " ++ message
  | .skillNotFound skillId => "skill lookup failed for `".toList ++ skillId ++ ['`']
  | .outputRootResolution => "cannot resolve output root for merged proposal"
  | .invalidPendingDirectoryName name => "invalid pending directory name `".toList ++ name ++ ['`']
  | .invalidScopeRoot path message => "scope root `".toList ++ path ++ "` is invalid: ".toList ++ message
  | .writePathOutsideScopeRoot path scopeRoot =>
    "write path `".toList ++ path ++ "` resolves outside scope root `".toList ++ scopeRoot ++ ['`']
  | .frontmatterSerialization message => "failed to serialize merge proposal frontmatter: " ++ message
  | .writeFailure path message => "failed writing merge proposal `".toList ++ path ++ "`: ".toList ++ message
  | .auditEmissionFailure message => "failed emitting merge proposal audit event: " ++ message

structure MergeProposalFrontmatter (F : Type) where
  name : Str
  description : Str
  tags : List Str
  origin : Str
  canonicalScope : Str
  mergedFromScopes : List Str
  mergedFrom : List Str
  similarity : F
  createdAt : Str
  warningAt : Str
  expiresAt : Str
deriving DecidableEq

/-- The answers of the providers to the passes, and the library calls of the renderers. -/
structure PassServices (F : Type) where
  ops : FloatOps F
  ofNat : Nat → F
  embedText : Str → Except Str (List F)
  decideEquivalence : Str → Str → Except Str Bool
  decideGenerality : Str → Except Str Bool
  toRfc3339 : Timestamp → Str
  mergeYaml : MergeProposalFrontmatter F → Except Str Str

structure MergeConfig (F : Type) where
  mergeCandidateThreshold : F
  tokenOverlapPrefilterThreshold : F
  pendingDirectoryName : Str

structure MergeCandidate (F : Type) where
  leftSkillId : Str
  rightSkillId : Str
  cosineSimilarity : F
deriving DecidableEq

structure MergeProposal where
  pendingPath : Path
  canonicalScope : ScopeType
  mergedFromScopes : List ScopeType
  mergedFromPaths : List Path
deriving DecidableEq

/-! ### Names and roots -/

/-- Runs of letters and digits, joined by dashes; a name without any gets the placeholder. -/
def slugifyOr (placeholder value : Str) : Str :=
  let normalized := (Str.toAsciiLowercase value).map fun character =>
    if character.isAlphanum then character else '-'
  let slug := Str.join ['-'] ((Str.splitOn '-' normalized).filter fun segment => !segment.isEmpty)
  if slug.isEmpty then placeholder else slug

def slugify (value : Str) : Str := slugifyOr "merged-skill" value

def mergeDirectoryName (left right : SkillSnapshot) : Str :=
  slugify (left.name ++ ['-'] ++ right.name) ++ "--".toList ++ slugify left.id ++ "--".toList ++
    slugify right.id

/-- The preference for the project scope, then for the global one. -/
def resolveScope (scopes : List ScopeType) : ScopeType :=
  if .project ∈ scopes then .project else .global

def outputRootForScope (canonicalScope : ScopeType) (left right : SkillSnapshot) : Except MergeError Path :=
  match ([left, right].find? fun skill => skill.scope = canonicalScope) with
  | none => .error .outputRootResolution
  | some skill =>
    if skill.sourcePath = [] ∨ skill.sourcePath = [[]] then .error .outputRootResolution
    else .ok skill.sourcePath.parent

def canonicalizeScopeRoot (fs : Fs) (scopeRoot : Path) : Except MergeError Path :=
  if scopeRoot.head? ≠ some [] then
    .error (.invalidScopeRoot scopeRoot.display "scope root must be absolute")
  else
    match canonicalize fs scopeRoot with
    | .error error => .error (.invalidScopeRoot scopeRoot.display error)
    | .ok canonicalScopeRoot =>
      if fs.node canonicalScopeRoot ≠ some .directory then
        .error (.invalidScopeRoot canonicalScopeRoot.display "scope root must resolve to a directory")
      else .ok canonicalScopeRoot

/-- The name as a single normal component; a trailing separator or dot adds none. -/
def validatePendingDirectoryName (pendingDirectoryName : Str) : Except MergeError Str :=
  match Str.splitOn '/' pendingDirectoryName with
  | [] => .error (.invalidPendingDirectoryName pendingDirectoryName)
  | first :: rest =>
    if first = [] ∨ first = ['.'] ∨ first = "..".toList ∨ ∃ segment ∈ rest, segment ≠ [] ∧ segment ≠ ['.'] then
      .error (.invalidPendingDirectoryName pendingDirectoryName)
    else .ok first

def ensurePathIsWithinScopeRoot (candidatePath canonicalScopeRoot : Path) : Except MergeError Unit :=
  if candidatePath.startsWith canonicalScopeRoot then .ok ()
  else .error (.writePathOutsideScopeRoot candidatePath.display canonicalScopeRoot.display)

/-! ### Rendering -/

def sortedUniqueScopes (scopes : List ScopeType) : List ScopeType :=
  [ScopeType.project, .global, .team].filter fun scope => scope ∈ scopes

def scopeToString : ScopeType → Str
  | .project => "project"
  | .global => "global"
  | .team => "team"

/-- The frontmatter between its fences and the body, each line closed. -/
def frontmatterBlock (serialized : Str) : Str :=
  let yaml := (Str.stripPrefix? "---\n" serialized).getD serialized
  "---\n".toList ++ (if yaml.getLast? = some '\n' then yaml else yaml ++ ['\n']) ++ "---\n\n".toList

variable {F : Type} (services : PassServices F)

def mergeFrontmatter (left right : SkillSnapshot) (canonicalScope : ScopeType) (similarity : F)
    (now : Timestamp) : MergeProposalFrontmatter F where
  name := left.name ++ " + ".toList ++ right.name
  description := left.description ++ ['\n'] ++ right.description
  tags := Str.sorted (left.tags ++ right.tags).dedup
  origin := "merge_proposal"
  canonicalScope := scopeToString canonicalScope
  mergedFromScopes := (sortedUniqueScopes [left.scope, right.scope]).map scopeToString
  mergedFrom := [left.sourcePath.display, right.sourcePath.display]
  similarity := similarity
  createdAt := services.toRfc3339 now
  warningAt := services.toRfc3339 (pendingDefaultWarningAt now)
  expiresAt := services.toRfc3339 (pendingDefaultExpiresAt now)

def renderMergeMarkdown (left right : SkillSnapshot) (canonicalScope : ScopeType) (similarity : F)
    (now : Timestamp) : Except MergeError Str := do
  let frontmatter := mergeFrontmatter services left right canonicalScope similarity now
  match services.mergeYaml frontmatter with
  | .error error => .error (.frontmatterSerialization error)
  | .ok serialized =>
    return frontmatterBlock serialized ++ "# ".toList ++ frontmatter.name ++ "\n\n".toList ++
      frontmatter.description ++ "\n\n".toList ++ "## Procedures\n".toList ++
      (left.subunits ++ right.subunits).flatMap fun subunit => "- ".toList ++ subunit ++ ['\n']

/-! ### Candidates -/

def splitWhitespace (text : Str) : List Str :=
  (text.splitOnP Str.isWhitespace).filter fun word => !word.isEmpty

def maxTokensPerSubunit : Nat := 100
def maxTotalDigestTokens : Nat := 1500

/-- The digest of the subunits, each cut to its first words, up to the total cap. -/
def digestParts : Nat → List Str → List Str
  | _, [] => []
  | digestTokensUsed, subunit :: rest =>
    let cappedWords := (splitWhitespace subunit).take maxTokensPerSubunit
    if maxTotalDigestTokens < digestTokensUsed + cappedWords.length then
      let remaining := maxTotalDigestTokens - digestTokensUsed
      if remaining = 0 then [] else [Str.join [' '] (cappedWords.take remaining)]
    else Str.join [' '] cappedWords :: digestParts (digestTokensUsed + cappedWords.length) rest

def bodyInclusiveMergeText (skill : SkillSnapshot) : Str :=
  skill.name ++ [' '] ++ skill.description ++ [' '] ++ Str.join [' '] skill.tags ++ ['\n'] ++
    Str.join ['\n'] (digestParts 0 skill.subunits)

def jaccardTokenOverlap (leftText rightText : Str) : Option F :=
  if Str.isBlank leftText || Str.isBlank rightText then none
  else
    let leftTokens := (splitWhitespace leftText).dedup
    let rightTokens := (splitWhitespace rightText).dedup
    if leftTokens.isEmpty || rightTokens.isEmpty then none
    else
      let intersection := (leftTokens.filter fun token => token ∈ rightTokens).length
      let union := (leftTokens ++ rightTokens).dedup.length
      some (services.ops.div (services.ofNat intersection) (services.ofNat union))

/-- The verifier of the live pass: a cheap filter on shared words, then the provider. -/
def areEquivalent (config : MergeConfig F) (left right : SkillSnapshot) : Except MergeError Bool :=
  match jaccardTokenOverlap services left.semanticText right.semanticText with
  | none => .ok false
  | some overlap =>
    if services.ops.lt overlap config.tokenOverlapPrefilterThreshold then .ok false
    else
      match services.decideEquivalence left.semanticText right.semanticText with
      | .error error =>
        .error (.semanticVerification ("LLM equivalence provider failed for pair (".toList ++ left.id ++
          ", ".toList ++ right.id ++ "): ".toList ++ error))
      | .ok equivalent => .ok equivalent

/-- The value stored last under an id. -/
def lookupLast {Value : Type} (entries : List (Str × Value)) (id : Str) : Option Value :=
  ((entries.filter fun entry => entry.1 = id).map Prod.snd).getLast?

def embedCandidate (skill : SkillSnapshot) : Except MergeError (Str × List F) :=
  match services.embedText (bodyInclusiveMergeText skill) with
  | .error error => .error (.candidateEmbedding error)
  | .ok vector => .ok (skill.id, vector)

def mergeSimilarity (left right : List F) : Except MergeError F :=
  match cosineSimilarity services.ops left right with
  | .error (.dimensionMismatch leftDimension rightDimension) =>
    .error (.embeddingDimensionMismatch leftDimension rightDimension)
  | .error .zeroMagnitude => .error .zeroMagnitudeEmbedding
  | .ok similarity => .ok similarity

/-- One pair of the two loops over the skills; ids are compared as texts. -/
def visitPair (config : MergeConfig F) (vectors : List (Str × List F))
    (pair : SkillSnapshot × SkillSnapshot) : Except MergeError (List (MergeCandidate F)) := do
  let (left, right) := pair
  if Str.le right.id left.id then return []
  if left.scope = right.scope then return []
  let similarity ← mergeSimilarity services ((lookupLast vectors left.id).getD [])
    ((lookupLast vectors right.id).getD [])
  if services.ops.lt similarity config.mergeCandidateThreshold then return []
  if !(← areEquivalent services config left right) then return []
  return [⟨left.id, right.id, similarity⟩]

def findCandidates (config : MergeConfig F) (skills : List SkillSnapshot) :
    Except MergeError (List (MergeCandidate F)) := do
  let vectors ← skills.mapM (embedCandidate services)
  collect (visitPair services config vectors) (skills ×ˢ skills)

/-! ### Writing proposals -/

variable (faults : HostFaults F)

/-- Only promotion and demotion resolve and check the proposal directory itself once more. -/
def recheckProposalRoot {Err : Type} (scopeFailure : MergeError → Err) (report : Path → Str → Err)
    (recheck : Bool) (proposalRoot canonicalScopeRoot : Path) : EStateM Err (Workspace F) PUnit :=
  if recheck then do
    let canonicalProposalRoot ← ofExcept ((canonicalize (← get).fs proposalRoot).mapError (report proposalRoot))
    ofExcept ((ensurePathIsWithinScopeRoot canonicalProposalRoot canonicalScopeRoot).mapError scopeFailure)
  else pure ⟨⟩

/-- The directory of a proposal, below the pending directory of a scope root. -/
def openProposalRoot {Err : Type} (scopeFailure : MergeError → Err) (report : Path → Str → Err)
    (scopeRoot : Path) (pendingDirectoryName directoryName : Str) (recheck : Bool) :
    EStateM Err (Workspace F) Path := do
  let canonicalScopeRoot ← ofExcept ((canonicalizeScopeRoot (← get).fs scopeRoot).mapError scopeFailure)
  let directory ← ofExcept ((validatePendingDirectoryName pendingDirectoryName).mapError scopeFailure)
  let pendingRoot := canonicalScopeRoot ++ [directory]
  onFiles (report pendingRoot) (Fs.createDirAll faults.refusals pendingRoot)
  let canonicalPendingRoot ← ofExcept ((canonicalize (← get).fs pendingRoot).mapError (report pendingRoot))
  ofExcept ((ensurePathIsWithinScopeRoot canonicalPendingRoot canonicalScopeRoot).mapError scopeFailure)
  let proposalRoot := canonicalPendingRoot ++ [directoryName]
  onFiles (report proposalRoot) (Fs.createDirAll faults.refusals proposalRoot)
  recheckProposalRoot scopeFailure report recheck proposalRoot canonicalScopeRoot
  return proposalRoot

/-- The pending file of a proposal, in a directory of its own. -/
def placeProposal {Err : Type} (scopeFailure : MergeError → Err) (report : Path → Str → Err)
    (scopeRoot : Path) (pendingDirectoryName directoryName : Str) (recheck : Bool)
    (render : Except Err Str) (proposed : Proposed) : EStateM Err (Workspace F) Path := do
  let proposalRoot ← openProposalRoot faults scopeFailure report scopeRoot pendingDirectoryName directoryName recheck
  let pendingPath := proposalRoot ++ [pendingSkillFileName]
  let pendingBody ← ofExcept render
  writeNew faults report pendingPath pendingBody proposed
  return pendingPath

def mergeAuditEvent (left right : SkillSnapshot) (similarity : F) (now : Timestamp)
    (proposal : MergeProposal) : MaintenanceAuditEvent F :=
  let mergedFromSkillIds := Str.sorted [left.id, right.id]
  .mergeProposalWritten
    { correlationId := "maintenance.merge_proposal:".toList ++ Str.join [':'] mergedFromSkillIds
      happenedAt := now
      proposalPath := proposal.pendingPath
      canonicalScope := proposal.canonicalScope
      mergedFromSkillIds := mergedFromSkillIds
      mergedFromScopes := proposal.mergedFromScopes
      mergedFromPaths := proposal.mergedFromPaths
      similarity := similarity }

def mergeWriteFailure (path : Path) (error : Str) : MergeError := .writeFailure path.display error

def writeMergeProposal (config : MergeConfig F) (left right : SkillSnapshot) (similarity : F)
    (now : Timestamp) : EStateM MergeError (Workspace F) MergeProposal := do
  let mergedScopes := [left.scope, right.scope]
  let canonicalScope := resolveScope mergedScopes
  let targetRoot ← ofExcept (outputRootForScope canonicalScope left right)
  let pendingPath ← placeProposal faults id mergeWriteFailure targetRoot config.pendingDirectoryName
    (mergeDirectoryName left right) false
    (renderMergeMarkdown services left right canonicalScope similarity now) (.merge left right)
  let proposal : MergeProposal :=
    ⟨pendingPath, canonicalScope, sortedUniqueScopes mergedScopes, [left.sourcePath, right.sourcePath]⟩
  emitAudit faults .auditEmissionFailure (mergeAuditEvent left right similarity now proposal)
  return proposal

/-- The skills of a candidate, looked up by id. -/
def candidateSkills (skills : List SkillSnapshot) (candidate : MergeCandidate F) :
    Except MergeError (SkillSnapshot × SkillSnapshot) := do
  let byId := skills.map fun skill => (skill.id, skill)
  match lookupLast byId candidate.leftSkillId with
  | none => .error (.skillNotFound candidate.leftSkillId)
  | some left =>
    match lookupLast byId candidate.rightSkillId with
    | none => .error (.skillNotFound candidate.rightSkillId)
    | some right => return (left, right)

def proposeMerge (config : MergeConfig F) (skills : List SkillSnapshot) (now : Timestamp)
    (candidate : MergeCandidate F) : EStateM MergeError (Workspace F) MergeProposal := do
  let (left, right) ← ofExcept (candidateSkills skills candidate)
  writeMergeProposal services faults config left right candidate.cosineSimilarity now

def proposeMerges (config : MergeConfig F) (skills : List SkillSnapshot) (now : Timestamp) :
    EStateM MergeError (Workspace F) (List MergeProposal) := do
  let candidates ← ofExcept (findCandidates services config skills)
  collectEach (proposeMerge services faults config skills now) candidates

end SkillLayer.Maintenance
