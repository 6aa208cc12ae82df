import SkillLayer.Maintenance.Recurrence
import SkillLayer.Maintenance.Snapshots

/-! Promotion on current data: the skills that a pass proposes, against the files and the rows at
the time of the pass. -/

namespace SkillLayer.Maintenance

open Infrastructure hiding Timestamp
open Domain (Timestamp)

/-! ### The runner -/

/-- Common directory names that are not specific to a project. -/
def skipComponents : List Str :=
  ["home", "root", "tmp", "var", "usr", "opt", "etc", "srv", "data", "workspace", "work", "projects",
    "repos", "src", "code"]

def isIdentifierToken (component : Str) : Bool :=
  component ≠ ['.'] && component ≠ "..".toList && decide (2 < (Str.utf8 component).length) &&
    !skipComponents.contains (Str.toAsciiLowercase component)

def buildProjectIdentifierTokens (scopeRoots : List Path) : List Str :=
  (scopeRoots.filter fun root => !isGlobalRoot root).flatMap fun root => root.filter isIdentifierToken

variable {F : Type}

/-- The runner that the worker builds once, when it starts. -/
def buildPromotionRunner (loader : SnapshotLoader F) (scopeRoots : List Path) (recurrenceConfig : RecurrenceConfig F)
    (walk : Traversal) (fs : Fs) : Except Str (PromotionPassRunner F) :=
  match scopeRoots.find? isGlobalRoot with
  | none => .error ("no global scope root found in GRAPH_BUILDER_GLOBAL_ROOT — ".toList ++
      "promotion pass requires a global root to write proposals".toList)
  | some globalScopeRoot =>
    match loadSkillSnapshots loader scopeRoots (walk.listing fs) with
    | .error error => .error ("promotion runner: failed to load skill snapshots: ".toList ++ error)
    | .ok skillSnapshots => .ok
      { skillSnapshots := skillSnapshots
        projectIdentifierTokens := buildProjectIdentifierTokens scopeRoots
        writerConfig := ⟨globalScopeRoot, ".skills"⟩
        recurrenceConfigured := true
        recurrenceConfig := recurrenceConfig
        demotionConfigured := true }

/-! ### Current data -/

variable (loader : SnapshotLoader F) (scopeRoots : List Path)

/-- The skill is on disk with this content, and no marker retires it. -/
def CurrentOnDisk (fs : Fs) (skill : SkillSnapshot) : Prop :=
  (∃ scope text, OnDisk loader scopeRoots fs skill scope text) ∧ fs.node (markerPath skill) = none

/-- The skill is a live row of the skills table with this content. -/
def CurrentRow (uuidText : Uuid → Str) (db : Database) (skill : SkillSnapshot) : Prop :=
  ∃ row ∈ fetchAllProjectSkills uuidText db, skill = projectSkillRowToSnapshot row

/-- Each path of the promotion pass, with the data that it is about. -/
def Current (uuidText : Uuid → Str) (fs : Fs) (db : Database) (file : CreatedFile) : Prop :=
  match file.proposed with
  | .promotion skill .intrinsic => CurrentOnDisk loader scopeRoots fs skill
  | .promotion skill (.recurrence _) => CurrentRow uuidText db skill
  | _ => True

/-- A loaded snapshot is current as long as the files stay as they were. -/
theorem currentOnDisk_loaded {walk : Traversal} {fs : Fs} {skills : List SkillSnapshot}
    (loaded : loadSkillSnapshots loader scopeRoots (walk.listing fs) = .ok skills) (complete : walk.Complete fs)
    {skill : SkillSnapshot} (member : skill ∈ skills) : CurrentOnDisk loader scopeRoots fs skill :=
  ⟨(of_loaded loaded member).1, (of_loaded loaded member).2 complete⟩

/-- Only the file of a skill and its marker decide whether it is current. -/
theorem CurrentOnDisk.congr {loader : SnapshotLoader F} {scopeRoots : List Path} {fs other : Fs}
    {skill : SkillSnapshot} (current : CurrentOnDisk loader scopeRoots fs skill)
    (file : other.node skill.sourcePath = fs.node skill.sourcePath)
    (marker : other.node (markerPath skill) = fs.node (markerPath skill)) :
    CurrentOnDisk loader scopeRoots other skill := by
  obtain ⟨⟨scope, text, onDisk⟩, unmarked⟩ := current
  exact ⟨⟨scope, text, { onDisk with present := file.trans onDisk.present }⟩, marker.trans unmarked⟩

/-! ### One pass -/

section Pass

variable (services : ScopeServices F) (runner : PromotionPassRunner F)

/-- Up to the first skill on which the provider fails or whose file is in place, every skill that
passes the gate is current. -/
def FreshFrom (fs : Fs) : List SkillSnapshot → Prop
  | [] => True
  | snapshot :: rest =>
    match passesIntrinsicGate services runner snapshot with
    | .error _ => True
    | .ok false => FreshFrom fs rest
    | .ok true => fs.node (plannedPromotion runner snapshot .intrinsic).path = none →
        CurrentOnDisk loader scopeRoots fs snapshot ∧ FreshFrom fs rest

/-- The project skills of the runner are fresh where the pass starts. -/
def SnapshotsFresh (fs : Fs) : Prop :=
  FreshFrom loader scopeRoots services runner fs
    (runner.skillSnapshots.filter fun snapshot => snapshot.scope = .project)

variable {loader scopeRoots services runner} {faults : HostFaults F} {now : Timestamp}

theorem freshFrom_of_current {fs : Fs} {snapshots : List SkillSnapshot}
    (current : ∀ snapshot ∈ snapshots, CurrentOnDisk loader scopeRoots fs snapshot) :
    FreshFrom loader scopeRoots services runner fs snapshots := by
  induction snapshots with
  | nil => exact trivial
  | cons snapshot rest ih =>
    have later := ih fun other member => current other (List.mem_cons_of_mem _ member)
    unfold FreshFrom
    cases passesIntrinsicGate services runner snapshot with
    | error error => exact trivial
    | ok passed =>
      cases passed with
      | false => exact later
      | true => exact fun _ => ⟨current snapshot List.mem_cons_self, later⟩

/-- As long as nobody touches the project skills that were loaded at the start, they are fresh. -/
theorem snapshotsFresh_of_untouched {recurrenceConfig : RecurrenceConfig F} {walk : Traversal} {bootFs fs : Fs}
    (booted : buildPromotionRunner loader scopeRoots recurrenceConfig walk bootFs = .ok runner)
    (complete : walk.Complete bootFs)
    (untouched : ∀ skill ∈ runner.skillSnapshots, skill.scope = .project →
      fs.node skill.sourcePath = bootFs.node skill.sourcePath ∧
        fs.node (markerPath skill) = bootFs.node (markerPath skill)) :
    SnapshotsFresh loader scopeRoots services runner fs := by
  refine freshFrom_of_current fun skill member => ?_
  obtain ⟨known, isProject⟩ := List.mem_filter.mp member
  obtain ⟨file, marker⟩ := untouched skill known (by simpa using isProject)
  unfold buildPromotionRunner at booted
  split at booted
  · cases booted
  · split at booted
    · cases booted
    · rename_i loaded
      obtain rfl := Except.ok.inj booted
      exact (currentOnDisk_loaded loader scopeRoots loaded complete known).congr file marker

/-- What one snapshot adds: nothing, or its own proposal. -/
theorem leads_evaluateSnapshot (snapshot : SkillSnapshot) (before : Workspace F) :
    Leads (evaluateSnapshot services faults runner now snapshot) before fun result after =>
      match passesIntrinsicGate services runner snapshot with
      | .error _ => Extends before after [] ∧ ∀ out, result ≠ .ok out
      | .ok false => Extends before after []
      | .ok true => Extends before after [plannedPromotion runner snapshot .intrinsic] ∨
          (Extends before after [] ∧ ∀ out, result ≠ .ok out) := by
  unfold evaluateSnapshot
  rw [leads_ofExcept_bind]
  cases gate : passesIntrinsicGate services runner snapshot with
  | error error => exact ⟨Extends.refl before, fun _ impossible => nomatch impossible⟩
  | ok passed =>
    cases passed with
    | false => exact Extends.refl before
    | true =>
      have promotes : Promotes services faults runner now (PassDiscipline.loose F CronError) snapshot .intrinsic :=
        promotes_loose snapshot .intrinsic
      apply (promotes.single before trivial).mono
      rintro result after ⟨-, done, rest, split, extended, ended⟩
      cases done with
      | nil =>
        refine Or.inr ⟨extended, ?_⟩
        rintro out rfl
        rw [ended.1] at split
        cases split
      | cons first others =>
        obtain ⟨rfl, nothing⟩ := List.cons.inj split
        rw [(List.append_eq_nil_iff.mp nothing.symm).1] at extended
        exact Or.inl extended

/-- The loop over the snapshots proposes only current ones. -/
theorem leads_intrinsic {snapshots : List SkillSnapshot} {start : Fs} {before : Workspace F}
    {uuidText : Uuid → Str} {db : Database}
    (kept : ∀ path node, start.node path = some node → before.fs.node path = some node)
    (fresh : FreshFrom loader scopeRoots services runner start snapshots) :
    Leads (collectEach (evaluateSnapshot services faults runner now) snapshots) before fun _ after =>
      ∃ new, Extends before after new ∧ ∀ file ∈ new, Current loader scopeRoots uuidText start db file := by
  have none : ∀ file ∈ ([] : List CreatedFile), Current loader scopeRoots uuidText start db file :=
    fun _ member => absurd member List.not_mem_nil
  induction snapshots generalizing before with
  | nil => exact ⟨[], Extends.refl before, none⟩
  | cons snapshot rest ih =>
    have goOn (between : Workspace F) (new : List CreatedFile) (extended : Extends before between new)
        (current : ∀ file ∈ new, Current loader scopeRoots uuidText start db file)
        (later : FreshFrom loader scopeRoots services runner start rest) (out : List PromotionProposal) :
        Leads (do
          let more ← collectEach (evaluateSnapshot services faults runner now) rest
          return out :: more) between fun _ after => ∃ new, Extends before after new ∧
            ∀ file ∈ new, Current loader scopeRoots uuidText start db file := by
      rw [leads_bind]
      apply (ih (fun path node there => extended.grown _ _ (kept path node there)) later).mono
      rintro result after ⟨more, extendedThen, currentThen⟩
      have all : ∃ new, Extends before after new ∧ ∀ file ∈ new, Current loader scopeRoots uuidText start db file :=
        ⟨new ++ more, extended.trans extendedThen, fun file member =>
          (List.mem_append.mp member).elim (current file) (currentThen file)⟩
      cases result <;> exact all
    unfold FreshFrom at fresh
    rw [collectEach, leads_bind]
    apply (leads_evaluateSnapshot snapshot before).mono
    intro result between added
    cases gate : passesIntrinsicGate services runner snapshot with
    | error error =>
      rw [gate] at added
      cases result with
      | ok out => exact absurd rfl (added.2 out)
      | error error => exact ⟨[], added.1, none⟩
    | ok passed =>
      rw [gate] at added fresh
      cases passed with
      | false =>
        cases result with
        | ok out => exact goOn between [] added none fresh out
        | error error => exact ⟨[], added, none⟩
      | true =>
        rcases added with extended | ⟨extended, stopped⟩
        · have missing := extended.fresh _ (List.mem_singleton_self _)
          have absent : start.node (plannedPromotion runner snapshot .intrinsic).path = Option.none := by
            cases there : start.node (plannedPromotion runner snapshot .intrinsic).path with
            | none => rfl
            | some node => exact absurd (kept _ _ there) (by simp [missing])
          have current : ∀ file ∈ [plannedPromotion runner snapshot .intrinsic],
              Current loader scopeRoots uuidText start db file := by
            intro file member
            rw [List.mem_singleton.mp member]
            exact (fresh absent).1
          cases result with
          | ok out => exact goOn between _ extended current (fresh absent).2 out
          | error error => exact ⟨_, extended, current⟩
        · cases result with
          | ok out => exact absurd rfl (stopped out)
          | error error => exact ⟨[], extended, none⟩

/-- The recurrence path proposes rows that it was given. -/
theorem of_recurrencePlan {projectSkills : List ProjectSkillRow} {file : CreatedFile}
    (planned : file ∈ recurrencePlan services runner (.ok projectSkills)) :
    ∃ row ∈ projectSkills, ∃ count,
      file = plannedPromotion runner (projectSkillRowToSnapshot row) (.recurrence count) := by
  cases configured : runner.recurrenceConfigured with
  | false =>
    rw [recurrencePlan_off configured] at planned
    cases planned
  | true =>
    cases built : recurrenceClusters services runner projectSkills with
    | error error =>
      rw [recurrencePlan_unclustered rfl built] at planned
      cases planned
    | ok clusters =>
      have inComponents := (recurrencePlan_perm configured built).subset planned
      rw [componentPromotions, List.mem_map] at inComponents
      obtain ⟨x, -, rfl⟩ := inComponents
      exact ⟨_, fst_embeddedRows x, _, rfl⟩

/-- The files that a pass adds are proposals of current skills. -/
def AddsCurrent (loader : SnapshotLoader F) (scopeRoots : List Path) (uuidText : Uuid → Str) (db : Database)
    (before after : Workspace F) : Prop :=
  ∃ new, Extends before after new ∧ ∀ file ∈ new, Current loader scopeRoots uuidText before.fs db file

theorem leads_runIntrinsicPass {before : Workspace F} {uuidText : Uuid → Str} {db : Database}
    (fresh : SnapshotsFresh loader scopeRoots services runner before.fs) :
    Leads (runIntrinsicPass services faults runner now) before fun _ after =>
      AddsCurrent loader scopeRoots uuidText db before after := by
  unfold runIntrinsicPass
  rw [leads_bind]
  apply (leads_intrinsic (fun _ _ there => there) fresh).mono
  intro result after added
  cases result <;> exact added

/-- What the recurrence path adds, when it is given the rows of the moment or none. -/
theorem leads_runRecurrencePass {before between : Workspace F} {uuidText : Uuid → Str} {db : Database}
    {fetched : Except Str (List ProjectSkillRow)}
    (rows : ∀ projectSkills, fetched = .ok projectSkills → projectSkills = fetchAllProjectSkills uuidText db)
    (added : AddsCurrent loader scopeRoots uuidText db before between) :
    Leads (runRecurrencePass services faults runner now fetched) between fun _ after =>
      AddsCurrent loader scopeRoots uuidText db before after := by
  obtain ⟨new, extended, current⟩ := added
  apply (follows_recurrencePass between trivial).mono
  rintro result after ⟨-, done, rest, split, extendedThen, -⟩
  refine ⟨new ++ done, extended.trans extendedThen, fun file member => ?_⟩
  rcases List.mem_append.mp member with early | late
  · exact current file early
  · have planned : file ∈ recurrencePlan services runner fetched := by
      rw [split]
      exact List.mem_append_left _ late
    cases fetched with
    | error error =>
      rw [recurrencePlan_unfetched rfl] at planned
      cases planned
    | ok projectSkills =>
      obtain ⟨row, known, count, rfl⟩ := of_recurrencePlan planned
      rw [rows projectSkills rfl] at known
      exact ⟨row, known, rfl⟩

theorem leads_runPromotionPass {before : Workspace F} {uuidText : Uuid → Str} {db : Database}
    {fetched : Except Str (List ProjectSkillRow)}
    (fresh : SnapshotsFresh loader scopeRoots services runner before.fs)
    (rows : ∀ projectSkills, fetched = .ok projectSkills → projectSkills = fetchAllProjectSkills uuidText db) :
    Leads (runPromotionPass services faults runner now fetched) before fun _ after =>
      AddsCurrent loader scopeRoots uuidText db before after := by
  unfold runPromotionPass
  rw [leads_bind]
  apply (leads_runIntrinsicPass fresh).mono
  intro result between added
  cases result with
  | error error => exact added
  | ok intrinsicProposals =>
    dsimp only
    rw [leads_bind]
    apply (leads_runRecurrencePass rows added).mono
    intro result after addedThen
    cases result <;> exact addedThen

end Pass

/-! ### The life of the process -/

/-- The files with the proposals, and the database. -/
structure PromotionWorld (F : Type) where
  workspace : Workspace F
  db : Database

/-- Anything may happen to the files and to the database between two passes; a pass reads the
rows of the moment, unless the query fails. -/
inductive PromotionStep (F : Type) where
  | edit (change : PromotionWorld F → PromotionWorld F)
  | pass (faults : HostFaults F) (services : ScopeServices F) (now : Timestamp) (outage : Option Str)

/-- A process that works with its loader, its scope roots and the runner it has built. -/
structure PromotionProcess (F : Type) where
  loader : SnapshotLoader F
  scopeRoots : List Path
  runner : PromotionPassRunner F

namespace PromotionProcess

variable (process : PromotionProcess F)

def fetchProjectRows (db : Database) (outage : Option Str) : Except Str (List ProjectSkillRow) :=
  match outage with
  | some error => .error error
  | none => .ok (fetchAllProjectSkills process.loader.uuidText db)

def runPass (faults : HostFaults F) (services : ScopeServices F) (now : Timestamp) (outage : Option Str)
    (before : PromotionWorld F) : Workspace F :=
  afterwards (runPromotionPass services faults process.runner now (process.fetchProjectRows before.db outage)
    before.workspace)

def perform : PromotionStep F → PromotionWorld F → PromotionWorld F
  | .edit change, before => change before
  | .pass faults services now outage, before =>
    { before with workspace := process.runPass faults services now outage before }

/-- Every pass of a run works on current data. -/
def WorksOnCurrentData : List (PromotionStep F) → PromotionWorld F → Prop
  | [], _ => True
  | step :: rest, before =>
    (match step with
      | .edit _ => True
      | .pass .. => AddsCurrent process.loader process.scopeRoots process.loader.uuidText before.db
          before.workspace (process.perform step before).workspace) ∧
      WorksOnCurrentData rest (process.perform step before)

/-- At every pass of a run, the snapshots of the runner are fresh. -/
def AllFresh : List (PromotionStep F) → PromotionWorld F → Prop
  | [], _ => True
  | step :: rest, before =>
    (match step with
      | .edit _ => True
      | .pass _ services _ _ =>
        SnapshotsFresh process.loader process.scopeRoots services process.runner before.workspace.fs) ∧
      AllFresh rest (process.perform step before)

variable {process}

theorem addsCurrent_runPass {faults : HostFaults F} {services : ScopeServices F} {now : Timestamp}
    {outage : Option Str} {before : PromotionWorld F}
    (fresh : SnapshotsFresh process.loader process.scopeRoots services process.runner before.workspace.fs) :
    AddsCurrent process.loader process.scopeRoots process.loader.uuidText before.db before.workspace
      (process.runPass faults services now outage before) := by
  refine Leads.afterwards (leads_runPromotionPass fresh fun projectSkills answered => ?_)
  cases outage with
  | some error => cases answered
  | none => exact (Except.ok.inj answered).symm

/-- In every run whose passes find the snapshots of the runner fresh, each pass proposes only
skills that exist, are not retired and have the proposed content. -/
theorem works_on_current_data (process : PromotionProcess F) (steps : List (PromotionStep F))
    (start : PromotionWorld F) (fresh : process.AllFresh steps start) : process.WorksOnCurrentData steps start := by
  induction steps generalizing start with
  | nil => exact trivial
  | cons step rest ih =>
    obtain ⟨here, later⟩ := fresh
    refine ⟨?_, ih (process.perform step start) later⟩
    cases step with
    | edit change => exact trivial
    | pass faults services now outage => exact addsCurrent_runPass here

/-! ### A skill that is retired after the start -/

def scopeRootsOfSkill : List Path := [[[], "repo"], [[], "global"]]

def loadedSkill : SkillSnapshot :=
  ⟨"c88fdb95-fe23-4377-8b37-c3e90aef7a4f", "Tips", "No description provided", .project, fileOfSkill, [], []⟩

/-- The process that starts while the skill is in use. -/
def processOfSkill : PromotionProcess Nat where
  loader := sampleLoader
  scopeRoots := scopeRootsOfSkill
  runner :=
    { skillSnapshots := [loadedSkill]
      projectIdentifierTokens := ["repo"]
      writerConfig := ⟨[[], "global"], ".skills"⟩
      recurrenceConfigured := true
      recurrenceConfig := ⟨2, 1⟩
      demotionConfigured := true }

theorem processOfSkill_booted :
    buildPromotionRunner sampleLoader scopeRootsOfSkill ⟨2, 1⟩ skillWalk oneSkillFs = .ok processOfSkill.runner := by
  have loaded : loadSkillSnapshots sampleLoader scopeRootsOfSkill (skillWalk.listing oneSkillFs) =
      .ok [loadedSkill] := by decide +kernel
  have globalRoot : scopeRootsOfSkill.find? isGlobalRoot = some [[], "global"] := by decide
  have tokens : buildProjectIdentifierTokens scopeRootsOfSkill = ["repo"] := by decide
  rw [buildPromotionRunner, loaded, globalRoot, tokens]
  rfl

def retireSkill : PromotionStep Nat := .edit fun before =>
  { before with workspace :=
    { before.workspace with fs := before.workspace.fs.put markerOfSkill (some (.file "---\nstatus: proposed\n---\n")) } }

def smoothPass : PromotionStep Nat := .pass (HostFaults.none Nat) agreeing 0 none

def promotionStart : PromotionWorld Nat := ⟨⟨oneSkillFs, [], []⟩, freshDatabase⟩

def promotionOfSkill : CreatedFile :=
  ⟨[[], "global", ".skills", "promote--c88fdb95-fe23-4377-8b37-c3e90aef7a4f", "SKILL.md.pending"],
    .promotion loadedSkill .intrinsic⟩

/-- The skill is retired while the process is alive, and the next pass proposes to promote it. -/
theorem retired_skill_promoted :
    ¬ processOfSkill.WorksOnCurrentData [retireSkill, smoothPass] promotionStart ∧
    ¬ ∀ (process : PromotionProcess Nat) (recurrenceConfig : RecurrenceConfig Nat) (walk : Traversal)
      (steps : List (PromotionStep Nat)) (start : PromotionWorld Nat), walk.Complete start.workspace.fs →
      buildPromotionRunner process.loader process.scopeRoots recurrenceConfig walk start.workspace.fs =
        .ok process.runner → process.WorksOnCurrentData steps start := by
  have outdated : ¬ processOfSkill.WorksOnCurrentData [retireSkill, smoothPass] promotionStart := by
    rintro ⟨-, ⟨new, extended, current⟩, -⟩
    have created : (processOfSkill.perform smoothPass
        (processOfSkill.perform retireSkill promotionStart)).workspace.created = [promotionOfSkill] := by
      decide +kernel
    have recorded := extended.recorded
    rw [created] at recorded
    obtain rfl : [promotionOfSkill] = new := recorded
    have unmarked := (current promotionOfSkill (List.mem_singleton_self _)).2
    have marked : ((processOfSkill.perform retireSkill promotionStart).workspace.fs.node
        (markerPath loadedSkill)).isSome = true := by decide +kernel
    rw [unmarked] at marked
    cases marked
  refine ⟨outdated, fun always => outdated ?_⟩
  exact always processOfSkill _ skillWalk _ promotionStart skillWalk_complete processOfSkill_booted

theorem untouched_skill_promoted : processOfSkill.WorksOnCurrentData [smoothPass] promotionStart :=
  works_on_current_data processOfSkill [smoothPass] promotionStart
    ⟨snapshotsFresh_of_untouched processOfSkill_booted skillWalk_complete fun _ _ _ => ⟨rfl, rfl⟩, trivial⟩

end PromotionProcess
end SkillLayer.Maintenance
