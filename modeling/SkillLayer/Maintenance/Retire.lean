import SkillLayer.Infrastructure.Usage
import SkillLayer.Maintenance.Placement
import SkillLayer.Maintenance.Promote
import SkillLayer.Maintenance.Snapshots

/-! The retirement pass: markers beside skills that are used too little, each with an audit
event. -/

namespace SkillLayer.Maintenance

open Domain
open Infrastructure (SkillUsageSummary microsPerDay)

inductive RetirementError where
  | invalidActiveSkillPath (path : Str)
  | retiredPathOutsideSkillRoot (path skillRoot : Str)
  | retiredMarkerWriteFailure (path message : Str)
  | auditEmissionFailure (message : Str)
deriving DecidableEq

def RetirementError.display : RetirementError → Str
  | .invalidActiveSkillPath path =>
    "skill `".toList ++ path ++ "` is not an active skill file and cannot be retired".toList
  | .retiredPathOutsideSkillRoot path skillRoot =>
    "retired path `".toList ++ path ++ "` resolves outside active skill root `".toList ++ skillRoot ++ ['`']
  | .retiredMarkerWriteFailure path message =>
    "failed creating retired marker `".toList ++ path ++ "`: ".toList ++ message
  | .auditEmissionFailure message => "failed emitting retirement proposal audit event: " ++ message

structure UsageSample where
  skillId : Str
  usedAt : Infrastructure.Timestamp
  usageCount : Nat
deriving DecidableEq

structure RetirementProposal (F : Type) where
  skillId : Str
  retiredPath : Path
  usageScorePerMonth : F

structure RetirementConfig (F : Type) where
  scoreThresholdPerMonth : F
  scoringWindowDays : Int

/-- The arithmetic of the scores, with its texts. -/
structure ScoreOps (F : Type) where
  ofInt : Int → F
  add : F → F → F
  sub : F → F → F
  mul : F → F → F
  div : F → F → F
  max : F → F → F
  le : F → F → Bool
  showFixed : F → Str
  toRfc3339 : Timestamp → Str

variable {F : Type} (ops : ScoreOps F) (faults : HostFaults F)

/-! ### Scores and paths -/

/-- The instants of the usage store count microseconds. -/
def micros (instant : Timestamp) : Infrastructure.Timestamp := instant * 1000000

/-- One sample for a skill that has ever been used, seen from an instant of the store. -/
def usageSampleAt (instant : Infrastructure.Timestamp) (summary : SkillUsageSummary) : Option UsageSample :=
  if summary.totalCount = 0 then none
  else some ⟨summary.skillId, summary.lastUsedAt.getD instant, summary.windowedCount⟩

def usageSampleOf (now : Timestamp) (summary : SkillUsageSummary) : Option UsageSample :=
  usageSampleAt (micros now) summary

def usageWeight (instant : Infrastructure.Timestamp) (scoringWindowDays : Int) (sample : UsageSample) : F :=
  let ageDays := ops.ofInt (Max.max ((instant - sample.usedAt).tdiv microsPerDay) 0)
  let recencyWeight := ops.sub (ops.ofInt 1) (ops.div ageDays (ops.ofInt scoringWindowDays))
  ops.mul (ops.ofInt sample.usageCount) (ops.max recencyWeight (ops.ofInt 0))

/-- The score at an instant of the store. -/
def usageScoreAt (usageSamples : List UsageSample) (instant : Infrastructure.Timestamp)
    (scoringWindowDays : Int) : F :=
  let windowStart := instant - scoringWindowDays * microsPerDay
  let recent := usageSamples.filter fun sample => windowStart ≤ sample.usedAt
  let weightedUsage := (recent.map (usageWeight ops instant scoringWindowDays)).foldl ops.add (ops.ofInt 0)
  let months := ops.max (ops.div (ops.ofInt scoringWindowDays) (ops.ofInt 30)) (ops.ofInt 1)
  ops.div weightedUsage months

def calculateUsageScorePerMonth (usageSamples : List UsageSample) (now : Timestamp) (scoringWindowDays : Int) : F :=
  usageScoreAt ops usageSamples (micros now) scoringWindowDays

def canonicalActiveSkillRoot (fs : Fs) (activePath : Path) : Except RetirementError Path :=
  if activePath = [] ∨ activePath = [[]] then .error (.invalidActiveSkillPath activePath.display)
  else if activePath.parent.head? ≠ some [] then
    .error (.invalidActiveSkillPath (activePath.display ++ " (parent must be absolute)".toList))
  else
    match canonicalize fs activePath.parent with
    | .error error => .error (.invalidActiveSkillPath
        (activePath.display ++ " (cannot canonicalize parent: ".toList ++ error ++ [')']))
    | .ok canonicalParent =>
      if fs.node canonicalParent ≠ some .directory then .error (.invalidActiveSkillPath
        (activePath.display ++ " (parent must resolve to directory)".toList))
      else .ok canonicalParent

def ensurePathIsWithinSkillRoot (candidatePath canonicalSkillRoot : Path) : Except RetirementError Unit :=
  if candidatePath.startsWith canonicalSkillRoot then .ok ()
  else .error (.retiredPathOutsideSkillRoot candidatePath.display canonicalSkillRoot.display)

def retiredPathForActiveSkill (fs : Fs) (activePath : Path) : Except RetirementError Path := do
  if (activePath.fileName.map Str.toAsciiLowercase) ≠ some (Str.toAsciiLowercase activeSkillFileName) then
    .error (.invalidActiveSkillPath activePath.display)
  let canonicalSkillRoot ← canonicalActiveSkillRoot fs activePath
  let retiredPath := canonicalSkillRoot ++ [retiredSkillFileName]
  -- A marker that exists resolves to itself: no path is a symbolic link.
  if fs.exists? retiredPath then ensurePathIsWithinSkillRoot retiredPath canonicalSkillRoot
  return retiredPath

def renderRetiredMarker (skillId : Str) (usageScorePerMonth : F) (now : Timestamp) : Str :=
  "---\norigin: retirement_proposal\nskill_id: ".toList ++ skillId ++ "\nusage_score_per_month: ".toList ++
    ops.showFixed usageScorePerMonth ++ "\nproposed_at: ".toList ++ ops.toRfc3339 now ++
    "\nstatus: proposed\n---\n".toList

/-! ### The pass -/

def markerWriteFailure (path : Path) (error : Str) : RetirementError :=
  .retiredMarkerWriteFailure path.display error

def retirementAuditEvent (skill : SkillSnapshot) (now : Timestamp) (proposal : RetirementProposal F) :
    MaintenanceAuditEvent F :=
  .retirementProposalWritten
    { correlationId := "maintenance.retirement_proposal:".toList ++ skill.id
      happenedAt := now
      skillId := proposal.skillId
      sourcePath := skill.sourcePath
      proposalPath := proposal.retiredPath
      usageScorePerMonth := proposal.usageScorePerMonth }

variable (config : RetirementConfig F) (usageSamples : List UsageSample) (now : Timestamp)

/-- The score of a skill that has ever been used and is used too little now. -/
def staleScore? (skill : SkillSnapshot) : Option F :=
  let samples := usageSamples.filter fun sample => sample.skillId = skill.id
  if samples.isEmpty then none
  else
    let usageScore := calculateUsageScorePerMonth ops samples now config.scoringWindowDays
    if ops.le config.scoreThresholdPerMonth usageScore then none else some usageScore

def proposeRetirement (skill : SkillSnapshot) :
    EStateM RetirementError (Workspace F) (List (RetirementProposal F)) :=
  match staleScore? ops config usageSamples now skill with
  | none => return []
  | some usageScore => do
    let retiredPath ← ofExcept (retiredPathForActiveSkill (← get).fs skill.sourcePath)
    let markerBody := renderRetiredMarker ops skill.id usageScore now
    writeNew faults markerWriteFailure retiredPath markerBody (.retirement skill)
    let proposal : RetirementProposal F := ⟨skill.id, retiredPath, usageScore⟩
    emitAudit faults .auditEmissionFailure (retirementAuditEvent skill now proposal)
    return [proposal]

/-- The retirement pass, as the scheduler runs it, over the loaded skills and their usage. -/
def runRetirementPass (skills : List SkillSnapshot) (fetched : Except Str (List SkillUsageSummary)) :
    EStateM CronError (Workspace F) (List (RetirementProposal F)) :=
  if skills.isEmpty then return []
  else
    match fetched with
    | .error error => throw (.retirementPass ("usage query failed: ".toList ++ error))
    | .ok summaries => do
      let proposals ← reportAs (fun error => .retirementPass error.display)
        (collectEach (proposeRetirement ops faults config (summaries.filterMap (usageSampleOf now)) now) skills)
      return proposals.flatten

/-! ### What it writes -/

variable {ops faults config usageSamples now}

theorem of_retiredPath {fs : Fs} {skill : SkillSnapshot} {path : Path}
    (resolved : retiredPathForActiveSkill fs skill.sourcePath = .ok path) : path = markerPath skill := by
  unfold retiredPathForActiveSkill at resolved
  split at resolved
  · cases resolved
  · cases rooted : canonicalActiveSkillRoot fs skill.sourcePath with
    | error error => simp [rooted, bind, Except.bind] at resolved
    | ok root =>
      have here : root = skill.sourcePath.parent := by
        unfold canonicalActiveSkillRoot at rooted
        split at rooted
        · cases rooted
        · split at rooted
          · cases rooted
          · split at rooted
            · cases rooted
            · rename_i found
              split at rooted
              · cases rooted
              · rw [← Except.ok.inj rooted, of_canonicalize found]
      simp only [rooted, bind, Except.bind] at resolved
      split at resolved
      · split at resolved
        · cases resolved
        · rw [← Except.ok.inj resolved, here, markerPath]
      · rw [← Except.ok.inj resolved, here, markerPath]

end SkillLayer.Maintenance
