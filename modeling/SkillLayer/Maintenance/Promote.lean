import SkillLayer.Infrastructure.ScopeStores
import SkillLayer.Maintenance.Merge
import SkillLayer.UnionFind

/-! The promotion pass, on the intrinsic and on the recurrence path, and the demotion scan. -/

namespace SkillLayer.Maintenance

open Domain
open Infrastructure hiding Timestamp

inductive PromotionError where
  | scopeRootInvalid (problem : MergeError)
  | frontmatterSerialization (message : Str)
  | writeFailure (path message : Str)
deriving DecidableEq

def PromotionError.display : PromotionError → Str
  | .scopeRootInvalid problem => "global scope root problem: ".toList ++ problem.display
  | .frontmatterSerialization message => "failed serializing promotion frontmatter: " ++ message
  | .writeFailure path message =>
    "failed writing promotion proposal `".toList ++ path ++ "`: ".toList ++ message

inductive CronError where
  | mergePass (message : Str)
  | retirementPass (message : Str)
  | promotionPass (message : Str)
deriving DecidableEq

structure PromotionProposal where
  pendingPath : Path
  skillIds : List Str
  fromScopes : List ScopeType
  toScope : ScopeType
  evidence : PromotionEvidence
  sourcePaths : List Path
deriving DecidableEq

structure DemotionProposal where
  pendingPath : Path
  skillId : Str
  fromScope : ScopeType
  toScope : ScopeType
  offendingIdentifiers : List Str
deriving DecidableEq

/-! ### Project-local identifiers -/

/-- The veto: some token that is not empty appears in the text. -/
def skillTextContainsProjectLocalIdentifier (skillText : Str) (projectIdentifierTokens : List Str) : Bool :=
  projectIdentifierTokens.any fun token => !token.isEmpty && decide (token <:+: skillText)

/-- One of each run of equal neighbours. -/
def dedupNeighbours : List Str → List Str
  | first :: second :: rest =>
    if first = second then dedupNeighbours (second :: rest) else first :: dedupNeighbours (second :: rest)
  | texts => texts

def collectProjectLocalIdentifiers (skillText : Str) (projectIdentifierTokens : List Str) : List Str :=
  dedupNeighbours (Str.sorted (projectIdentifierTokens.filter fun token =>
    !token.isEmpty && decide (token <:+: skillText)))

/-! ### Rendering -/

structure PromotionProposalFrontmatter where
  name : Str
  description : Str
  tags : List Str
  origin : Str
  toScope : Str
  fromScope : Str
  fromPath : Str
  evidence : Str
  createdAt : Str
  warningAt : Str
  expiresAt : Str
deriving DecidableEq

structure DemotionProposalFrontmatter where
  name : Str
  description : Str
  origin : Str
  fromScope : Str
  toScope : Str
  fromPath : Str
  offendingIdentifiers : List Str
  createdAt : Str
  warningAt : Str
  expiresAt : Str

/-- The services of the scope passes; the clusters of a map come in any order. -/
structure ScopeServices (F : Type) where
  shared : PassServices F
  promotionYaml : PromotionProposalFrontmatter → Except Str Str
  demotionYaml : DemotionProposalFrontmatter → Except Str Str
  clusterOrder : ∀ n, HashOrder (Fin n × List (Fin n))

variable {F : Type} (services : ScopeServices F)

def promotionFrontmatter (snapshot : SkillSnapshot) (evidence : PromotionEvidence) (now : Timestamp) :
    PromotionProposalFrontmatter where
  name := snapshot.name
  description := snapshot.description
  tags := Str.sorted snapshot.tags
  origin := "promotion_proposal"
  toScope := "global"
  fromScope := scopeToString snapshot.scope
  fromPath := snapshot.sourcePath.display
  evidence := match evidence with
    | .intrinsic => "intrinsic"
    | .recurrence _ => "recurrence"
  createdAt := services.shared.toRfc3339 now
  warningAt := services.shared.toRfc3339 (pendingDefaultWarningAt now)
  expiresAt := services.shared.toRfc3339 (pendingDefaultExpiresAt now)

def renderPromotionMarkdown (snapshot : SkillSnapshot) (evidence : PromotionEvidence) (now : Timestamp) :
    Except PromotionError Str :=
  match services.promotionYaml (promotionFrontmatter services snapshot evidence now) with
  | .error error => .error (.frontmatterSerialization error)
  | .ok serialized =>
    .ok (frontmatterBlock serialized ++ "# ".toList ++ snapshot.name ++ "\n\n".toList ++
      snapshot.description ++ "\n\n".toList ++
      if snapshot.subunits.isEmpty then []
      else "## Procedures\n".toList ++ snapshot.subunits.flatMap fun subunit => "- ".toList ++ subunit ++ ['\n'])

def demotionFrontmatter (skill : GlobalSkillRow) (offendingIdentifiers : List Str) (now : Timestamp) :
    DemotionProposalFrontmatter where
  name := skill.name
  description := skill.description
  origin := "demotion_proposal"
  fromScope := "global"
  toScope := "project"
  fromPath := skill.sourcePaths.head?.getD []
  offendingIdentifiers := offendingIdentifiers
  createdAt := services.shared.toRfc3339 now
  warningAt := services.shared.toRfc3339 (pendingDefaultWarningAt now)
  expiresAt := services.shared.toRfc3339 (pendingDefaultExpiresAt now)

def renderDemotionMarkdown (skill : GlobalSkillRow) (offendingIdentifiers : List Str) (now : Timestamp) :
    Except PromotionError Str :=
  match services.demotionYaml (demotionFrontmatter services skill offendingIdentifiers now) with
  | .error error => .error (.frontmatterSerialization error)
  | .ok serialized =>
    .ok (frontmatterBlock serialized ++ "# ".toList ++ skill.name ++ "\n\n".toList ++ skill.description ++
      "\n\n".toList ++ "## Demotion Evidence\n\n".toList ++
      "This global skill references the following project-local identifiers, ".toList ++
      "which indicate it is mis-scoped:\n\n".toList ++
      offendingIdentifiers.flatMap fun identifier => "- `".toList ++ identifier ++ "`\n".toList)

/-! ### Writing proposals -/

variable (faults : HostFaults F)

structure PromotionWriterConfig where
  globalScopeRoot : Path
  pendingDirectoryName : Str

def proposalDirectoryName (skillId : Str) : Str :=
  "promote--".toList ++ slugifyOr "promoted-skill" skillId

def demotionDirectoryName (skillId : Str) : Str :=
  "demote--".toList ++ slugifyOr "promoted-skill" skillId

def promotionWriteFailure (path : Path) (error : Str) : PromotionError := .writeFailure path.display error

def writePromotionProposal (config : PromotionWriterConfig) (snapshot : SkillSnapshot)
    (evidence : PromotionEvidence) (now : Timestamp) :
    EStateM PromotionError (Workspace F) PromotionProposal := do
  let pendingPath ← placeProposal faults .scopeRootInvalid promotionWriteFailure config.globalScopeRoot
    config.pendingDirectoryName (proposalDirectoryName snapshot.id) true
    (renderPromotionMarkdown services snapshot evidence now) (.promotion snapshot evidence)
  return ⟨pendingPath, [snapshot.id], [snapshot.scope], .global, evidence, [snapshot.sourcePath]⟩

def writeDemotionProposal (config : PromotionWriterConfig) (skill : GlobalSkillRow)
    (offendingIdentifiers : List Str) (now : Timestamp) :
    EStateM PromotionError (Workspace F) DemotionProposal := do
  let pendingPath ← placeProposal faults .scopeRootInvalid promotionWriteFailure config.globalScopeRoot
    config.pendingDirectoryName (demotionDirectoryName skill.id) true
    (renderDemotionMarkdown services skill offendingIdentifiers now) (.demotion skill.id offendingIdentifiers)
  return ⟨pendingPath, skill.id, .global, .project, offendingIdentifiers⟩

/-- The failures of an action, in the terms of its caller. -/
def reportAs {Err Problem Out : Type} (report : Err → Problem) (action : EStateM Err (Workspace F) Out) :
    EStateM Problem (Workspace F) Out := fun workspace =>
  match action workspace with
  | .ok value after => .ok value after
  | .error error after => .error (report error) after

/-! ### The intrinsic path -/

structure RecurrenceConfig (F : Type) where
  minDistinctRoots : Nat
  similarityThreshold : F

/-- The runner of the scope passes; the store, the embedding service and the verifier of the
recurrence path are configured together or the path is off. -/
structure PromotionPassRunner (F : Type) where
  skillSnapshots : List SkillSnapshot
  projectIdentifierTokens : List Str
  writerConfig : PromotionWriterConfig
  recurrenceConfigured : Bool
  recurrenceConfig : RecurrenceConfig F
  demotionConfigured : Bool

variable (runner : PromotionPassRunner F) (now : Timestamp)

/-- The identifier veto, then the vote of the provider. -/
def passesIntrinsicGate (snapshot : SkillSnapshot) : Except CronError Bool :=
  if skillTextContainsProjectLocalIdentifier snapshot.semanticText runner.projectIdentifierTokens then .ok false
  else
    match services.shared.decideGenerality snapshot.semanticText with
    | .error error =>
      .error (.promotionPass ("generality verifier failed for skill `".toList ++ snapshot.id ++
        "`: ".toList ++ error))
    | .ok general => .ok general

def proposePromotion (snapshot : SkillSnapshot) (evidence : PromotionEvidence) :
    EStateM CronError (Workspace F) PromotionProposal :=
  reportAs (fun error => .promotionPass error.display)
    (writePromotionProposal services faults runner.writerConfig snapshot evidence now)

def evaluateSnapshot (snapshot : SkillSnapshot) : EStateM CronError (Workspace F) (List PromotionProposal) := do
  match ← ofExcept (passesIntrinsicGate services runner snapshot) with
  | false => return []
  | true => return [← proposePromotion services faults runner now snapshot .intrinsic]

def runIntrinsicPass : EStateM CronError (Workspace F) (List PromotionProposal) := do
  let projectCandidates := runner.skillSnapshots.filter fun snapshot => snapshot.scope = .project
  let proposals ← collectEach (evaluateSnapshot services faults runner now) projectCandidates
  return proposals.flatten

/-! ### The recurrence path -/

/-- Zero for vectors that cannot be compared. -/
def cosineSimilarityRecurrence (ops : FloatOps F) (left right : List F) : F :=
  if left.length ≠ right.length then ops.zero
  else
    let sums := (left.zip right).foldl (CosineSums.add ops) ⟨ops.zero, ops.zero, ops.zero⟩
    if ops.isZero sums.leftNorm || ops.isZero sums.rightNorm then ops.zero
    else ops.div sums.dotProduct (ops.mul (ops.sqrt sums.leftNorm) (ops.sqrt sums.rightNorm))

/-- One turn of the two loops over the pairs of rows. -/
def joinPair (similarityThreshold : F) (embeddedSkills : List (ProjectSkillRow × List F))
    (parent : Forest embeddedSkills.length) (pair : Fin embeddedSkills.length × Fin embeddedSkills.length) :
    Except Str (Forest embeddedSkills.length) :=
  let (rowI, embI) := embeddedSkills.get pair.1
  let (rowJ, embJ) := embeddedSkills.get pair.2
  let similarity := cosineSimilarityRecurrence services.shared.ops embI embJ
  if services.shared.ops.lt similarity similarityThreshold then .ok parent
  else
    match services.shared.decideEquivalence rowI.semanticText rowJ.semanticText with
    | .error error =>
      .error ("equivalence verifier failed for skills `".toList ++ rowI.id ++ "` and `".toList ++ rowJ.id ++
        "`: ".toList ++ error)
    | .ok equivalent => .ok (if equivalent then parent.union pair.1 pair.2 else parent)

/-- The pairs of positions, the first before the second. -/
def orderedPairs (n : Nat) : List (Fin n × Fin n) :=
  (List.finRange n).flatMap fun i => ((List.finRange n).filter fun j => i < j).map fun j => (i, j)

def buildRecurrenceClusters (similarityThreshold : F) (embeddedSkills : List (ProjectSkillRow × List F)) :
    Except Str (List (List ProjectSkillRow)) := do
  let parent ← (orderedPairs embeddedSkills.length).foldlM (joinPair services similarityThreshold embeddedSkills)
    (Forest.singletons embeddedSkills.length)
  let clusterMap := (services.clusterOrder embeddedSkills.length).arrange parent.classes
  return clusterMap.map fun entry => entry.2.map fun i => (embeddedSkills.get i).1

def projectSkillRowToSnapshot (row : ProjectSkillRow) : SkillSnapshot where
  id := row.id
  name := row.name
  description := row.description
  scope := .project
  sourcePath := match row.sourcePaths.head? with
    | some text => Str.splitOn '/' text
    | none => ["SKILL.md"]
  tags := row.tags
  subunits := []

/-- The distinct project roots of some rows, those without a root left out. -/
def distinctProjectRoots (rows : List ProjectSkillRow) : List Str :=
  (rows.filterMap ProjectSkillRow.projectRootKey).dedup

def embedRow (row : ProjectSkillRow) : Except CronError (ProjectSkillRow × List F) :=
  match services.shared.embedText row.semanticText with
  | .error error =>
    .error (.promotionPass ("recurrence pass: embedding failed for skill `".toList ++ row.id ++
      "` [reason_code=promotion_recurrence_embedding_error]: ".toList ++ error))
  | .ok embedding => .ok (row, embedding)

/-- A cluster that spans enough roots is proposed through its first row. -/
def proposeCluster (cluster : List ProjectSkillRow) :
    EStateM CronError (Workspace F) (List PromotionProposal) :=
  let clusterRootCount := (distinctProjectRoots cluster).length
  if clusterRootCount < runner.recurrenceConfig.minDistinctRoots then return []
  else
    match cluster with
    | [] => return []
    | representative :: _ =>
      return [← proposePromotion services faults runner now (projectSkillRowToSnapshot representative)
        (.recurrence clusterRootCount)]

/-- The clusters of the rows of all projects, unless too few roots were seen. -/
def recurrenceClusters (projectSkills : List ProjectSkillRow) : Except CronError (List (List ProjectSkillRow)) := do
  if (distinctProjectRoots projectSkills).length < runner.recurrenceConfig.minDistinctRoots then return []
  let embeddedSkills ← projectSkills.mapM (embedRow services)
  match buildRecurrenceClusters services runner.recurrenceConfig.similarityThreshold embeddedSkills with
  | .error error =>
    .error (.promotionPass
      ("recurrence pass: clustering failed [reason_code=promotion_recurrence_cluster_error]: ".toList ++ error))
  | .ok clusters => return clusters

def fetchProjectSkills (fetched : Except Str (List ProjectSkillRow)) : Except CronError (List ProjectSkillRow) :=
  match fetched with
  | .error error =>
    .error (.promotionPass
      ("recurrence pass: PG store query failed [reason_code=promotion_recurrence_db_error]: ".toList ++ error))
  | .ok projectSkills => .ok projectSkills

def runRecurrencePass (fetched : Except Str (List ProjectSkillRow)) :
    EStateM CronError (Workspace F) (List PromotionProposal) :=
  if !runner.recurrenceConfigured then return []
  else do
    let projectSkills ← ofExcept (fetchProjectSkills fetched)
    let clusters ← ofExcept (recurrenceClusters services runner projectSkills)
    let proposals ← collectEach (proposeCluster services faults runner now) clusters
    return proposals.flatten

def runPromotionPass (fetched : Except Str (List ProjectSkillRow)) :
    EStateM CronError (Workspace F) (List PromotionProposal) := do
  let intrinsicProposals ← runIntrinsicPass services faults runner now
  let recurrenceProposals ← runRecurrencePass services faults runner now fetched
  return intrinsicProposals ++ recurrenceProposals

/-! ### The demotion scan -/

/-- The global skills that are flagged, with the identifiers found in them. -/
def findings (globalSkills : List GlobalSkillRow) : List (GlobalSkillRow × List Str) :=
  if runner.projectIdentifierTokens.isEmpty then []
  else
    (globalSkills.map fun skill =>
      (skill, collectProjectLocalIdentifiers skill.semanticText runner.projectIdentifierTokens)).filter
        fun finding => !finding.2.isEmpty

def proposeDemotion (finding : GlobalSkillRow × List Str) : EStateM CronError (Workspace F) DemotionProposal :=
  reportAs (fun error => .promotionPass ("demotion pass: failed writing proposal for skill `".toList ++
      finding.1.id ++ "` [reason_code=scope_demotion_write_failed]: ".toList ++ error.display))
    (writeDemotionProposal services faults runner.writerConfig finding.1 finding.2 now)

def scanDemotions (fetched : Except Str (List GlobalSkillRow)) :
    EStateM CronError (Workspace F) (List DemotionProposal) :=
  if !runner.demotionConfigured || runner.projectIdentifierTokens.isEmpty then return []
  else
    match fetched with
    | .error error => throw (.promotionPass
        ("demotion pass: PG store query failed [reason_code=scope_demotion_db_error]: ".toList ++ error))
    | .ok globalSkills => collectEach (proposeDemotion services faults runner now) (findings runner globalSkills)

/-- The merge pass, as the scheduler runs it. -/
def runMergePass (config : MergeConfig F) (skills : List SkillSnapshot) :
    EStateM CronError (Workspace F) (List MergeProposal) :=
  if skills.length < 2 then return []
  else reportAs (fun error => .mergePass error.display) (proposeMerges services.shared faults config skills now)

end SkillLayer.Maintenance
