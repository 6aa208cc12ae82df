import SkillLayer.GraphBuilder.WatcherRecovery

/-! The loop of cycles and rebuilds: when the persisted graph is up to date with the files that were scanned. -/

namespace SkillLayer.GraphBuilder

open Domain

/-- Whether the steps of a rebuild succeed: building the graph, persisting it, draining the outbox, the version. -/
structure RebuildAnswers where
  built : Bool
  persisted : Bool
  drained : Bool
  bumped : Bool

/-- The rebuild comes as far as persisting its graph. -/
def RebuildAnswers.persists (answers : RebuildAnswers) : Bool := answers.built && answers.persisted

structure LoopInput where
  cycle : CycleInput
  rebuild : RebuildAnswers

/-- `persisted` is the file tree that the last persisted graph was built from. -/
structure LoopState where
  watcher : SkillWatcher
  recovery : WatcherRecovery
  persisted : Option FileTree

/-- A cycle ends with an error, without changes or with a rebuild. -/
inductive CycleOutcome where
  | failed
  | unchanged
  | rebuilt
deriving DecidableEq

section Loop

variable (hash : List UInt8 → Str)

/-- One cycle; the watcher has moved on before the rebuild is tried. -/
def runCycle (input : LoopInput) (state : LoopState) : CycleOutcome × LoopState :=
  match collectCycleChanges hash input.cycle state.watcher state.recovery with
  | .error _ => (.failed, state)
  | .ok (report, recovery) =>
    if report.allChanges.isEmpty then (.unchanged, ⟨report.watcher, recovery, state.persisted⟩)
    else if !input.rebuild.persists then (.failed, ⟨report.watcher, recovery, state.persisted⟩)
    else if input.rebuild.drained && input.rebuild.bumped then
      (.rebuilt, ⟨report.watcher, recovery, some input.cycle.tree⟩)
    else (.failed, ⟨report.watcher, recovery, some input.cycle.tree⟩)

/-- The outcomes of the cycles and the states after them. -/
def runLoop : List LoopInput → LoopState → List (CycleOutcome × LoopState)
  | [], _ => []
  | input :: rest, state => runCycle hash input state :: runLoop rest (runCycle hash input state).2

/-- The fingerprints of the files of the persisted graph; without a graph there are no files. -/
def graphSnapshot (state : LoopState) : Except WatcherError SkillSnapshot :=
  match state.persisted with
  | none => .ok SkillSnapshot.empty
  | some tree => buildSnapshot hash state.watcher.scopes tree

end Loop

/-! ### One cycle -/

section Cycle

variable {hash : List UInt8 → Str}

/-- What a cycle can do: nothing, or advance the watcher and persist a graph of the scanned files or not. -/
theorem runCycle_cases (input : LoopInput) (state : LoopState) :
    (∃ error, buildSnapshot hash state.watcher.scopes input.cycle.tree = .error error ∧
      runCycle hash input state = (.failed, state)) ∨
    ∃ snapshot recovery, buildSnapshot hash state.watcher.scopes input.cycle.tree = .ok snapshot ∧
      ((diffSkillSnapshots input.cycle.watched state.watcher.scopes state.watcher.currentSnapshot snapshot = [] ∧
        runCycle hash input state = (.unchanged,
          ⟨⟨state.watcher.scopes, state.watcher.currentSnapshot, snapshot⟩, recovery, state.persisted⟩)) ∨
      ∃ outcome, outcome ≠ .unchanged ∧ runCycle hash input state = (outcome,
        ⟨⟨state.watcher.scopes, state.watcher.currentSnapshot, snapshot⟩, recovery,
          if input.rebuild.persists then some input.cycle.tree else state.persisted⟩)) := by
  rw [runCycle]
  cases scanned : buildSnapshot hash state.watcher.scopes input.cycle.tree with
  | error error =>
    rw [collectCycleChanges_failed state.recovery scanned]
    exact .inl ⟨error, rfl, rfl⟩
  | ok snapshot =>
    rw [collectCycleChanges_scanned state.recovery scanned]
    refine .inr ⟨snapshot,
      (state.recovery.reconcile (scannedReport input.cycle state.watcher state.recovery snapshot).discovered).2, rfl, ?_⟩
    dsimp only
    split
    · rename_i nothing
      exact .inl ⟨(List.append_eq_nil_iff.mp (List.isEmpty_iff.mp nothing)).1, rfl⟩
    · right
      cases persists : input.rebuild.persists with
      | false => exact ⟨.failed, CycleOutcome.noConfusion, rfl⟩
      | true =>
        cases input.rebuild.drained && input.rebuild.bumped with
        | true => exact ⟨.rebuilt, CycleOutcome.noConfusion, rfl⟩
        | false => exact ⟨.failed, CycleOutcome.noConfusion, rfl⟩

/-- The snapshots of the watcher hold files below its roots. -/
def Scanned (state : LoopState) : Prop := Covered state.watcher.scopes state.watcher.currentSnapshot

theorem Scanned.runCycle {state : LoopState} (scanned : Scanned state) (input : LoopInput) :
    Scanned (runCycle hash input state).2 := by
  rcases runCycle_cases input state with ⟨_, _, ran⟩ | ⟨snapshot, _, found, ⟨_, ran⟩ | ⟨_, _, ran⟩⟩
  · rw [ran]
    exact scanned
  · rw [ran]
    exact buildSnapshot_covered found
  · rw [ran]
    exact buildSnapshot_covered found

/-- The same paths with the same contents. -/
def SameContents (one two : SkillSnapshot) : Prop := ∀ path, ¬ Differs one two path

theorem SameContents.refl (snapshot : SkillSnapshot) : SameContents snapshot snapshot := fun _ differs => differs rfl

theorem SameContents.trans {one two three : SkillSnapshot} (first : SameContents one two) (second : SameContents two three) :
    SameContents one three :=
  fun path differs => differs ((not_not.mp (first path)).trans (not_not.mp (second path)))

/-- Snapshots without changes between them have the same contents. -/
theorem sameContents_of_diff {orders : DiffOrders} {scopes : List ScopeRoot} {previous current : SkillSnapshot}
    (coveredPrevious : Covered scopes previous) (coveredCurrent : Covered scopes current)
    (nothing : diffSkillSnapshots orders scopes previous current = []) : SameContents previous current := by
  obtain ⟨accounted, changes, _, balanced⟩ :=
    diffSkillSnapshots_accounted previous current orders coveredPrevious coveredCurrent
  rw [nothing, List.map_eq_nil_iff] at changes
  subst changes
  intro path differs
  exact absurd (balanced.symm.subset (mem_touched_or_removed.mpr differs)) List.not_mem_nil

/-- The same paths with the same contents and modification times. -/
def SameFingerprints (one two : SkillSnapshot) : Prop := ∀ path, one.get? path = two.get? path

/-- No file has another modification time without another content. -/
def Untouched (watcher : SkillWatcher) : Prop :=
  ∀ path before after, watcher.previousSnapshot.get? path = some before → watcher.currentSnapshot.get? path = some after →
    before.contentHash = after.contentHash → before = after

theorem Untouched.sameFingerprints {watcher : SkillWatcher} (untouched : Untouched watcher)
    (same : SameContents watcher.previousSnapshot watcher.currentSnapshot) :
    SameFingerprints watcher.previousSnapshot watcher.currentSnapshot := by
  intro path
  have hashes := not_not.mp (same path)
  cases before : watcher.previousSnapshot.get? path with
  | none =>
    rw [before] at hashes
    exact (Option.map_eq_none_iff.mp hashes.symm).symm
  | some fingerprint =>
    cases after : watcher.currentSnapshot.get? path with
    | none =>
      rw [before, after] at hashes
      cases hashes
    | some other =>
      rw [before, after] at hashes
      rw [untouched path fingerprint other before after (Option.some.inj hashes)]

end Cycle

/-! ### Runs -/

/-- Graph and watcher agree. -/
def UpToDate (hash : List UInt8 → Str) (same : SkillSnapshot → SkillSnapshot → Prop) (state : LoopState) : Prop :=
  ∃ snapshot, graphSnapshot hash state = .ok snapshot ∧ same snapshot state.watcher.currentSnapshot

/-- A relation that the cycles without changes and the rebuilds keep up. -/
structure KeptUp (same : SkillSnapshot → SkillSnapshot → Prop) : Prop where
  refl : ∀ snapshot, same snapshot snapshot
  trans : ∀ one two three, same one two → same two three → same one three

theorem UpToDate.runCycle {hash : List UInt8 → Str} {same : SkillSnapshot → SkillSnapshot → Prop} (kept : KeptUp same)
    {state : LoopState} (upToDate : UpToDate hash same state) {input : LoopInput}
    (persists : input.rebuild.persists = true)
    (quiet : (runCycle hash input state).1 = .unchanged → same (runCycle hash input state).2.watcher.previousSnapshot
      (runCycle hash input state).2.watcher.currentSnapshot) :
    UpToDate hash same (runCycle hash input state).2 := by
  rcases runCycle_cases input state with ⟨_, _, ran⟩ | ⟨snapshot, _, found, ⟨_, ran⟩ | ⟨_, _, ran⟩⟩
  · rw [ran]
    exact upToDate
  · rw [ran] at quiet ⊢
    obtain ⟨built, ofGraph, agrees⟩ := upToDate
    exact ⟨built, ofGraph, kept.trans _ _ _ agrees (quiet rfl)⟩
  · rw [ran, if_pos persists]
    exact ⟨snapshot, found, kept.refl snapshot⟩

theorem upToDate_runLoop {hash : List UInt8 → Str} {same : SkillSnapshot → SkillSnapshot → Prop} (kept : KeptUp same)
    {inputs : List LoopInput} (persists : ∀ input ∈ inputs, input.rebuild.persists = true) {state : LoopState}
    (upToDate : UpToDate hash same state)
    (quiet : ∀ step ∈ runLoop hash inputs state, step.1 = .unchanged →
      same step.2.watcher.previousSnapshot step.2.watcher.currentSnapshot) :
    ∀ step ∈ runLoop hash inputs state, UpToDate hash same step.2 := by
  induction inputs generalizing state with
  | nil => exact List.forall_mem_nil _
  | cons input rest ih =>
    obtain ⟨here, later⟩ := List.forall_mem_cons.mp persists
    rw [runLoop] at quiet ⊢
    obtain ⟨first, others⟩ := List.forall_mem_cons.mp quiet
    have next := upToDate.runCycle kept here first
    exact List.forall_mem_cons.mpr ⟨next, ih later next others⟩

/-- A cycle without changes has scanned what the cycle before it had. -/
theorem sameContents_runLoop (hash : List UInt8 → Str) (inputs : List LoopInput) {state : LoopState}
    (scanned : Scanned state) :
    ∀ step ∈ runLoop hash inputs state, step.1 = .unchanged →
      SameContents step.2.watcher.previousSnapshot step.2.watcher.currentSnapshot := by
  induction inputs generalizing state with
  | nil => exact List.forall_mem_nil _
  | cons input rest ih =>
    refine List.forall_mem_cons.mpr ⟨fun unchanged => ?_, ih (scanned.runCycle input)⟩
    rcases runCycle_cases input state with ⟨_, _, ran⟩ | ⟨snapshot, _, found, ⟨nothing, ran⟩ | ⟨_, changed, ran⟩⟩
    · rw [ran] at unchanged
      cases unchanged
    · rw [ran]
      exact sameContents_of_diff scanned (buildSnapshot_covered found) nothing
    · rw [ran] at unchanged
      exact absurd unchanged changed

/-- In a run whose rebuilds all persist their graphs, a cycle without changes leaves a graph that was built from the
files the watcher has seen. -/
theorem upToDate_of_persists (hash : List UInt8 → Str) {scopes : List ScopeRoot} {tree : FileTree} {watcher : SkillWatcher}
    {window : Nat} {recovery : WatcherRecovery} (created : SkillWatcher.new scopes tree = .ok watcher)
    (fresh : WatcherRecovery.withGenerationWindow window = some recovery) {inputs : List LoopInput}
    (persists : ∀ input ∈ inputs, input.rebuild.persists = true) :
    ∀ step ∈ runLoop hash inputs ⟨watcher, recovery, none⟩, step.1 = .unchanged →
      UpToDate hash SameContents step.2 ∧
        ((∀ step ∈ runLoop hash inputs ⟨watcher, recovery, none⟩, Untouched step.2.watcher) →
          UpToDate hash SameFingerprints step.2) := by
  obtain ⟨_, quiet⟩ := quiet_start created fresh
  have nothing : watcher.currentSnapshot = SkillSnapshot.empty := quiet.nothing
  have scanned : Scanned ⟨watcher, recovery, none⟩ := by
    rw [Scanned, nothing]
    exact List.forall_mem_nil _
  have start {same : SkillSnapshot → SkillSnapshot → Prop} (kept : KeptUp same) :
      UpToDate hash same ⟨watcher, recovery, none⟩ := by
    refine ⟨SkillSnapshot.empty, rfl, ?_⟩
    rw [nothing]
    exact kept.refl _
  have contents : KeptUp SameContents := ⟨SameContents.refl, fun _ _ _ => SameContents.trans⟩
  have fingerprints : KeptUp SameFingerprints :=
    ⟨fun _ _ => rfl, fun _ _ _ first second path => (first path).trans (second path)⟩
  have unchanged := sameContents_runLoop hash inputs scanned
  intro step member _
  refine ⟨upToDate_runLoop contents persists (start contents) unchanged step member, fun untouched => ?_⟩
  refine upToDate_runLoop fingerprints persists (start fingerprints) (fun other inRun still => ?_) step member
  exact (untouched other inRun).sameFingerprints (unchanged other inRun still)

/-! ### A rebuild that fails -/

def succeeding : RebuildAnswers := ⟨true, true, true, true⟩

def failing : RebuildAnswers := ⟨false, true, true, true⟩

theorem oneRebuild_upToDate :
    ∃ step ∈ runLoop sampleDigest [⟨tipsCycle [1], succeeding⟩, ⟨tipsCycle [1], succeeding⟩]
        ⟨tipsWatcher, ⟨[], 0, 64⟩, none⟩,
      step.1 = .unchanged ∧ UpToDate sampleDigest SameContents step.2 := by
  have created : SkillWatcher.new [repoScope] bareTree = .ok tipsWatcher := rfl
  have fresh : WatcherRecovery.withGenerationWindow 64 = some ⟨[], 0, 64⟩ := rfl
  have second := List.mem_of_getElem? (i := 1) (l := runLoop sampleDigest
    [⟨tipsCycle [1], succeeding⟩, ⟨tipsCycle [1], succeeding⟩] ⟨tipsWatcher, ⟨[], 0, 64⟩, none⟩) rfl
  exact ⟨_, second, rfl, (upToDate_of_persists sampleDigest created fresh (by decide) _ second rfl).1⟩

/-- After an edit whose rebuild fails the next cycle finds no change, with the old graph in place. -/
theorem failedRebuild_lost :
    ∃ step ∈ runLoop sampleDigest [⟨tipsCycle [1], succeeding⟩, ⟨tipsCycle [2], failing⟩, ⟨tipsCycle [2], succeeding⟩]
        ⟨tipsWatcher, ⟨[], 0, 64⟩, none⟩,
      step.1 = .unchanged ∧ ¬ UpToDate sampleDigest SameContents step.2 := by
  refine ⟨_, List.mem_of_getElem? (i := 2) rfl, rfl, ?_⟩
  rintro ⟨built, ofGraph, same⟩
  have old : built = snapshotWith tipsPath ⟨"a", 1⟩ := (Except.ok.inj ofGraph).symm
  subst old
  have differs : Differs (snapshotWith tipsPath ⟨"a", 1⟩) (snapshotWith tipsPath ⟨"b", 1⟩) tipsPath := by
    rw [Differs]
    decide
  exact same tipsPath differs

end SkillLayer.GraphBuilder
