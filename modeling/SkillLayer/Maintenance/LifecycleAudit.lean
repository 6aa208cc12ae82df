import SkillLayer.Maintenance.AuditTrail

/-! Runs of the maintenance worker: whether every marker and merge proposal is audited by the time
of the next run that ends well. -/

namespace SkillLayer.Maintenance

open Infrastructure hiding Timestamp
open Domain (Timestamp)

/-- What one run of the scheduler is given. -/
structure MaintenanceRun (F : Type) where
  faults : HostFaults F
  services : ScopeServices F
  scores : ScoreOps F
  loader : SnapshotLoader F
  scopeRoots : List Path
  now : Timestamp
  mergeConfig : MergeConfig F
  mergeWalk : Traversal
  retirementConfig : RetirementConfig F
  retirementWalk : Traversal
  recentUsage : List Str → Except Str (List SkillUsageSummary)
  runner : PromotionPassRunner F
  projectRows : Except Str (List ProjectSkillRow)
  globalRows : Except Str (List GlobalSkillRow)

structure MaintenancePassOutcome (F : Type) where
  mergeProposals : List MergeProposal
  retirementProposals : List (RetirementProposal F)
  promotionProposals : List PromotionProposal
  demotionProposals : List DemotionProposal

namespace MaintenanceRun

variable {F : Type} (run : MaintenanceRun F)

/-! ### One run -/

/-- The skills that a walk over the files loads. -/
def skillSnapshots (walk : Traversal) (fs : Fs) : Except Str (List SkillSnapshot) :=
  loadSkillSnapshots run.loader run.scopeRoots (walk.listing fs)

def liveMergePass : EStateM CronError (Workspace F) (List MergeProposal) := do
  let skills ← ofExcept ((run.skillSnapshots run.mergeWalk (← get).fs).mapError .mergePass)
  runMergePass run.services run.faults run.now run.mergeConfig skills

def usageOf (skills : List SkillSnapshot) : Except Str (List SkillUsageSummary) :=
  run.recentUsage (skills.map SkillSnapshot.id)

def liveRetirementPass : EStateM CronError (Workspace F) (List (RetirementProposal F)) := do
  let skills ← ofExcept ((run.skillSnapshots run.retirementWalk (← get).fs).mapError .retirementPass)
  runRetirementPass run.scores run.faults run.retirementConfig run.now skills (run.usageOf skills)

/-- A tick that is due: the four passes, the first failure ending the run. -/
def tick : EStateM CronError (Workspace F) (MaintenancePassOutcome F) := do
  let mergeProposals ← run.liveMergePass
  let retirementProposals ← run.liveRetirementPass
  let promotionProposals ← runPromotionPass run.services run.faults run.runner run.now run.projectRows
  let demotionProposals ← scanDemotions run.services run.faults run.runner run.now run.globalRows
  return ⟨mergeProposals, retirementProposals, promotionProposals, demotionProposals⟩

/-- The merge proposals that qualify where the merge pass starts. -/
def mergeChanges (fs : Fs) : List (AuditedFile F) :=
  match run.skillSnapshots run.mergeWalk fs with
  | .error _ => []
  | .ok skills => auditedMerges run.services run.now run.mergeConfig skills

/-- The markers that qualify where the retirement pass starts. -/
def retirementChanges (fs : Fs) : List (AuditedFile F) :=
  match run.skillSnapshots run.retirementWalk fs with
  | .error _ => []
  | .ok skills => auditedRetirements run.scores run.now run.retirementConfig skills (run.usageOf skills)

/-- Each pass starts where the files it can create are written whole and their events taken. -/
structure SoundFrom (before : Workspace F) : Prop where
  merges : Sound run.faults (run.mergeChanges before.fs) before.fs
  retirements : ∀ proposals between, run.liveMergePass before = .ok proposals between →
    Sound run.faults (run.retirementChanges between.fs) between.fs

theorem Audits.from_start {Err Out : Type} {faults : HostFaults F} {plan : List (AuditedFile F)}
    {action : EStateM Err (Workspace F) Out} (audits : Audits faults plan action) {before : Workspace F}
    (sound : Sound faults plan before.fs) (audited : Audited before) :
    Leads action before fun _ after => Audited after :=
  (audits before.fs before (fun _ _ there => there) sound audited).mono fun _ _ ended => ended.2.1

variable {run} {before : Workspace F}

theorem leads_liveMergePass (sound : Sound run.faults (run.mergeChanges before.fs) before.fs)
    (audited : Audited before) : Leads run.liveMergePass before fun _ after => Audited after := by
  unfold liveMergePass
  rw [leads_get_bind, leads_ofExcept_bind]
  unfold mergeChanges at sound
  cases loaded : run.skillSnapshots run.mergeWalk before.fs with
  | error error => exact audited
  | ok skills =>
    rw [loaded] at sound
    exact Audits.from_start audits_runMergePass sound audited

theorem leads_liveRetirementPass (sound : Sound run.faults (run.retirementChanges before.fs) before.fs)
    (audited : Audited before) : Leads run.liveRetirementPass before fun _ after => Audited after := by
  unfold liveRetirementPass
  rw [leads_get_bind, leads_ofExcept_bind]
  unfold retirementChanges at sound
  cases loaded : run.skillSnapshots run.retirementWalk before.fs with
  | error error => exact audited
  | ok skills =>
    rw [loaded] at sound
    exact Audits.from_start audits_runRetirementPass sound audited

/-- A run that starts sound leaves every event recorded, however it ends. -/
theorem leads_tick (sound : run.SoundFrom before) (audited : Audited before) :
    Leads run.tick before fun _ after => Audited after := by
  unfold tick
  rw [leads_bind]
  refine leads_of_ends (fun mergeProposals between ran => ?_) fun error between ran =>
    (leads_liveMergePass sound.merges audited).of_error ran
  have merged := (leads_liveMergePass sound.merges audited).of_ok ran
  dsimp only
  rw [leads_bind]
  apply (leads_liveRetirementPass (sound.retirements _ _ ran) merged).mono
  intro result retired auditedThen
  cases result with
  | error error => exact auditedThen
  | ok retirementProposals =>
  dsimp only
  rw [leads_bind]
  apply (Audits.from_start audits_runPromotionPass (trivial : Sound run.faults [] retired.fs) auditedThen).mono
  intro result promoted auditedThen
  cases result with
  | error error => exact auditedThen
  | ok promotionProposals =>
  dsimp only
  rw [leads_bind]
  apply (Audits.from_start audits_scanDemotions (trivial : Sound run.faults [] promoted.fs) auditedThen).mono
  intro result scanned auditedThen
  cases result with
  | error error => exact auditedThen
  | ok demotionProposals => exact auditedThen

end MaintenanceRun

/-! ### Many runs -/

/-- The worker runs, or something else changes the files. -/
inductive MaintenanceStep (F : Type) where
  | maintain (run : MaintenanceRun F)
  | edit (change : Fs → Fs)

namespace MaintenanceStep

variable {F : Type}

def perform : MaintenanceStep F → Workspace F → Workspace F
  | maintain run, before => afterwards (run.tick before)
  | edit change, before => { before with fs := change before.fs }

/-- A maintenance run that ends well. -/
def EndsWell : MaintenanceStep F → Workspace F → Prop
  | maintain run, before => ∃ outcome after, run.tick before = .ok outcome after
  | edit _, _ => False

def SoundFrom : MaintenanceStep F → Workspace F → Prop
  | maintain run, before => run.SoundFrom before
  | edit _, _ => True

/-- Every created marker and merge proposal that is still on disk has its event. -/
def Accounted (workspace : Workspace F) : Prop :=
  ∀ file ∈ workspace.created, ∀ change, file.change? = some change → workspace.fs.node file.path ≠ none →
    ∃ event ∈ workspace.audits, event.change = change

/-- After every maintenance run that ends well, all markers and merge proposals on disk are
accounted for, whichever run has created them. -/
def LifecycleAudited : List (MaintenanceStep F) → Workspace F → Prop
  | [], _ => True
  | step :: rest, before =>
    (step.EndsWell before → Accounted (step.perform before)) ∧ LifecycleAudited rest (step.perform before)

/-- Every run starts sound. -/
def AllSound : List (MaintenanceStep F) → Workspace F → Prop
  | [], _ => True
  | step :: rest, before => step.SoundFrom before ∧ AllSound rest (step.perform before)

def performAll (steps : List (MaintenanceStep F)) (start : Workspace F) : Workspace F :=
  steps.foldl (fun workspace step => step.perform workspace) start

theorem Audited.accounted {workspace : Workspace F} (audited : Audited workspace) : Accounted workspace := by
  intro file member change changed _
  have recorded : change ∈ workspace.audits.map MaintenanceAuditEvent.change := by
    rw [audited, List.mem_filterMap]
    exact ⟨file, member, changed⟩
  exact List.mem_map.mp recorded

theorem audited_perform {step : MaintenanceStep F} {before : Workspace F} (sound : step.SoundFrom before)
    (audited : Audited before) : Audited (step.perform before) := by
  cases step with
  | maintain run => exact (MaintenanceRun.leads_tick sound audited).afterwards
  | edit change => exact audited

/-- Where every run starts sound, the recorded events are at all times those of the markers and
merge proposals that were created, and nothing on disk is unaccounted for. -/
theorem lifecycle_audited (steps : List (MaintenanceStep F)) (start : Workspace F) (audited : Audited start)
    (sound : AllSound steps start) : LifecycleAudited steps start ∧ Audited (performAll steps start) := by
  induction steps generalizing start with
  | nil => exact ⟨trivial, audited⟩
  | cons step rest ih =>
    have auditedThen := audited_perform sound.1 audited
    obtain ⟨later, atEnd⟩ := ih (step.perform start) auditedThen sound.2
    exact ⟨⟨fun _ => Audited.accounted auditedThen, later⟩, atEnd⟩

/-! ### A marker without an event -/

/-- Whole numbers for the scores, with the texts of zero. -/
def wholeScores : ScoreOps Nat where
  ofInt := Int.toNat
  add := (· + ·)
  sub := (· - ·)
  mul := (· * ·)
  div := (· / ·)
  max := Max.max
  le left right := decide (left ≤ right)
  showFixed _ := "0.000"
  toRfc3339 _ := "1970-01-01T00:00:00+00:00"

/-- The files of one skill, and no events. -/
def oneSkill : Workspace Nat := ⟨oneSkillFs, [], []⟩

/-- A run in which every skill has been used once, long ago. -/
def staleRun (faults : HostFaults Nat) : MaintenanceRun Nat where
  faults := faults
  services := agreeing
  scores := wholeScores
  loader := sampleLoader
  scopeRoots := [[[], "repo"]]
  now := 0
  mergeConfig := ⟨1, 1, ".skills"⟩
  mergeWalk := skillWalk
  retirementConfig := ⟨1, 90⟩
  retirementWalk := skillWalk
  recentUsage ids := .ok (ids.map fun id => ⟨id, 1, 0, some (-100 * microsPerDay), some 100⟩)
  runner := recurring
  projectRows := .ok []
  globalRows := .ok []

/-- No audit event is taken. -/
def silentSink : HostFaults Nat := { HostFaults.none Nat with emit := fun _ => some "audit persistence failed" }

def failedRun : MaintenanceStep Nat := .maintain (staleRun silentSink)
def goodRun : MaintenanceStep Nat := .maintain (staleRun (HostFaults.none Nat))

/-- Some marker or merge proposal is on disk. -/
def hasChange (workspace : Workspace Nat) : Bool :=
  workspace.created.any fun file => file.change?.isSome && workspace.fs.exists? file.path

theorem not_accounted {workspace : Workspace Nat} (changed : hasChange workspace = true)
    (silent : workspace.audits.isEmpty = true) : ¬ Accounted workspace := by
  intro accounted
  obtain ⟨file, member, found⟩ := List.any_eq_true.mp changed
  obtain ⟨isChange, there⟩ := Bool.and_eq_true_iff.mp found
  obtain ⟨change, changes⟩ := Option.isSome_iff_exists.mp isChange
  have present : workspace.fs.node file.path ≠ none := Option.isSome_iff_ne_none.mp there
  obtain ⟨event, recorded, -⟩ := accounted file member change changes present
  rw [List.isEmpty_iff.mp silent] at recorded
  cases recorded

theorem endsWell_of_returned {run : MaintenanceRun F} {before : Workspace F}
    (finished : (returned? (run.tick before)).isSome = true) : (maintain run).EndsWell before := by
  obtain ⟨outcome, ended⟩ := Option.isSome_iff_exists.mp finished
  exact ⟨outcome, _, of_returned ended⟩

/-- The sink refuses the event of a marker that is already written; the next run ends well without
loading the skill again, and the marker stays without an event. -/
theorem marker_without_event :
    ((failedRun.perform oneSkill).fs.isFile markerOfSkill = true ∧
      (failedRun.perform oneSkill).audits.isEmpty = true ∧
      goodRun.EndsWell (failedRun.perform oneSkill) ∧
      (goodRun.perform (failedRun.perform oneSkill)).fs.isFile markerOfSkill = true ∧
      (goodRun.perform (failedRun.perform oneSkill)).audits.isEmpty = true) ∧
    ¬ ∀ (steps : List (MaintenanceStep Nat)) (start : Workspace Nat), Audited start →
      LifecycleAudited steps start := by
  have written : (failedRun.perform oneSkill).fs.isFile markerOfSkill = true := by decide +kernel
  have refused : (failedRun.perform oneSkill).audits.isEmpty = true := by decide +kernel
  have finished : (returned? ((staleRun (HostFaults.none Nat)).tick (failedRun.perform oneSkill))).isSome = true := by
    decide +kernel
  have stands : (goodRun.perform (failedRun.perform oneSkill)).fs.isFile markerOfSkill = true := by decide +kernel
  have silent : (goodRun.perform (failedRun.perform oneSkill)).audits.isEmpty = true := by decide +kernel
  have changed : hasChange (goodRun.perform (failedRun.perform oneSkill)) = true := by decide +kernel
  have good : goodRun.EndsWell (failedRun.perform oneSkill) := endsWell_of_returned finished
  refine ⟨⟨written, refused, good, stands, silent⟩, fun always => ?_⟩
  exact not_accounted changed silent ((always [failedRun, goodRun] oneSkill rfl).2.1 good)

/-- On a host without faults every run starts sound. -/
theorem sound_of_faultless {plan : List (AuditedFile F)} {fs : Fs} : Sound (HostFaults.none F) plan fs := by
  induction plan with
  | nil => exact trivial
  | cons entry rest ih => exact fun _ => ⟨⟨rfl, rfl⟩, ih⟩

theorem lifecycle_audited_oneSkill :
    LifecycleAudited [goodRun, goodRun] oneSkill ∧ Audited (performAll [goodRun, goodRun] oneSkill) := by
  refine lifecycle_audited [goodRun, goodRun] oneSkill rfl ⟨?_, ?_, trivial⟩
  · exact ⟨sound_of_faultless, fun _ _ _ => sound_of_faultless⟩
  · exact ⟨sound_of_faultless, fun _ _ _ => sound_of_faultless⟩

end MaintenanceStep
end SkillLayer.Maintenance
