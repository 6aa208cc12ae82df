import SkillLayer.GraphBuilder.ScopeAttribution

/-! The recovery of missed changes by their keys, and what the cycles of the graph builder report. -/

namespace SkillLayer.GraphBuilder

open Domain

structure WatcherRecovery where
  lastSeenGenerationByKey : List (Str × Nat)
  currentGeneration : Nat
  maxGenerationWindow : Nat

/-- A window of zero is refused by an assertion. -/
def WatcherRecovery.withGenerationWindow (maxGenerationWindow : Nat) : Option WatcherRecovery :=
  if 0 < maxGenerationWindow then some ⟨[], 0, maxGenerationWindow⟩ else none

/-- The saturating successor of a 64-bit generation. -/
def nextGeneration (generation : Nat) : Nat := min (generation + 1) 18446744073709551615

/-- The changes whose keys had not been seen, and the map in which all keys have been seen now. -/
def observe (generation : Nat) :
    List SkillFileChange → List (Str × Nat) → List SkillFileChange × List (Str × Nat)
  | [], seen => ([], seen)
  | change :: rest, seen =>
    let observed := observe generation rest (upsert change.idempotencyKey generation (fun _ => generation) seen)
    (if change.idempotencyKey ∈ seen.map Prod.fst then observed.1 else change :: observed.1, observed.2)

def WatcherRecovery.evictStaleGenerations (recovery : WatcherRecovery) : WatcherRecovery :=
  let oldestGenerationToKeep := recovery.currentGeneration - (recovery.maxGenerationWindow - 1)
  { recovery with
    lastSeenGenerationByKey := recovery.lastSeenGenerationByKey.filter fun entry => oldestGenerationToKeep ≤ entry.2 }

/-- What is recovered of the discovered changes. -/
def WatcherRecovery.reconcile (recovery : WatcherRecovery) (discovered : List SkillFileChange) :
    List SkillFileChange × WatcherRecovery :=
  let activeGeneration := nextGeneration recovery.currentGeneration
  let observed := observe activeGeneration discovered recovery.lastSeenGenerationByKey
  (observed.1, WatcherRecovery.evictStaleGenerations
    { recovery with lastSeenGenerationByKey := observed.2, currentGeneration := activeGeneration })

structure SkillWatcher where
  scopes : List ScopeRoot
  previousSnapshot : SkillSnapshot
  currentSnapshot : SkillSnapshot

/-- Every scope root has to exist. -/
def SkillWatcher.new (scopes : List ScopeRoot) (tree : FileTree) : Except WatcherError SkillWatcher :=
  match scopes.find? fun scope => !tree.exists? scope.root with
  | some scope => .error (.missingScopeRoot scope.root.display)
  | none => .ok ⟨scopes, SkillSnapshot.empty, SkillSnapshot.empty⟩

section Cycles

variable (hash : List UInt8 → Str)

def SkillWatcher.collectFileChanges (orders : DiffOrders) (tree : FileTree) (watcher : SkillWatcher) :
    Except WatcherError (List SkillFileChange × SkillWatcher) :=
  match buildSnapshot hash watcher.scopes tree with
  | .error error => .error error
  | .ok discovered =>
    .ok (diffSkillSnapshots orders watcher.scopes watcher.currentSnapshot discovered,
      { watcher with previousSnapshot := watcher.currentSnapshot, currentSnapshot := discovered })

/-- The file tree at a cycle, and the iteration orders of its two differences. -/
structure CycleInput where
  tree : FileTree
  watched : DiffOrders
  recovered : DiffOrders

/-- What a cycle has seen: the watched changes, those that the recovery discovers and those that it recovers. -/
structure CycleReport where
  watcher : SkillWatcher
  watched : List SkillFileChange
  discovered : List SkillFileChange
  recovered : List SkillFileChange

/-- The changes that a rebuild is run for. -/
def CycleReport.allChanges (report : CycleReport) : List SkillFileChange := report.watched ++ report.recovered

/-- The changes of one cycle; the rebuild that follows touches neither the watcher nor the recovery. -/
def collectCycleChanges (input : CycleInput) (watcher : SkillWatcher) (recovery : WatcherRecovery) :
    Except WatcherError (CycleReport × WatcherRecovery) :=
  match watcher.collectFileChanges hash input.watched input.tree with
  | .error error => .error error
  | .ok (firstScan, next) =>
    let discovered := diffSkillSnapshots input.recovered next.scopes next.previousSnapshot next.currentSnapshot
    let reconciled := recovery.reconcile discovered
    .ok (⟨next, firstScan, discovered, reconciled.1⟩, reconciled.2)

/-- The reports of the cycles; a cycle whose scan fails changes nothing. -/
def runCycles : List CycleInput → SkillWatcher → WatcherRecovery → List CycleReport
  | [], _, _ => []
  | input :: rest, watcher, recovery =>
    match collectCycleChanges hash input watcher recovery with
    | .error _ => runCycles rest watcher recovery
    | .ok (report, next) => report :: runCycles rest report.watcher next

end Cycles

/-! ### Reported once -/

/-- A change of a file with its content before and after. -/
structure Transition where
  filePath : Path
  kind : SkillFileChangeKind
  before : Option Str
  after : Option Str
deriving DecidableEq

def CycleReport.transition (report : CycleReport) (change : SkillFileChange) : Transition where
  filePath := change.filePath
  kind := change.kind
  before := (report.watcher.previousSnapshot.get? change.filePath).map SkillFileFingerprint.contentHash
  after := (report.watcher.currentSnapshot.get? change.filePath).map SkillFileFingerprint.contentHash

/-- No key is reported twice in the cycle, and the recovery suppresses only what a cycle of the window has reported. -/
structure ReportedOnce (window : Nat) (history : List CycleReport) (report : CycleReport) : Prop where
  distinct : (report.allChanges.map SkillFileChange.idempotencyKey).Nodup
  suppressed : ∀ change ∈ report.discovered, change ∉ report.recovered →
    ∃ earlier ∈ history.take window, ∃ reported ∈ earlier.allChanges,
      earlier.transition reported = report.transition change

/-! ### The first file that is found -/

theorem mem_observe (generation : Nat) {key : Str} {discovered : List SkillFileChange} {seen : List (Str × Nat)}
    (found : key ∈ discovered.map SkillFileChange.idempotencyKey) (unseen : key ∉ seen.map Prod.fst) :
    key ∈ (observe generation discovered seen).1.map SkillFileChange.idempotencyKey := by
  induction discovered generalizing seen with
  | nil => exact absurd found List.not_mem_nil
  | cons change rest ih =>
    rw [observe]
    by_cases same : key = change.idempotencyKey
    · rw [if_neg (same ▸ unseen), same]
      exact List.mem_cons_self
    · have later := (List.mem_cons.mp found).resolve_left same
      have still : key ∉ (upsert change.idempotencyKey generation (fun _ => generation) seen).map Prod.fst :=
        fun marked => (mem_keys_upsert.mp marked).elim same unseen
      have kept := ih later still
      dsimp only
      split
      · exact kept
      · exact List.mem_cons_of_mem _ kept

theorem SkillSnapshot.eq_empty {snapshot : SkillSnapshot} (nothing : snapshot.entries = []) :
    snapshot = SkillSnapshot.empty := by
  obtain ⟨entries, nodup⟩ := snapshot
  obtain rfl : entries = [] := nothing
  rfl

theorem diffSkillSnapshots_empty (orders : DiffOrders) (scopes : List ScopeRoot) :
    diffSkillSnapshots orders scopes SkillSnapshot.empty SkillSnapshot.empty = [] := by
  have nothing (order : HashOrder (Str × List Path)) : order.arrange [] = [] := (order.perm []).eq_nil
  rw [diffSkillSnapshots]
  dsimp only [SkillSnapshot.empty, List.foldl_nil]
  rw [nothing, nothing]
  rfl

theorem idempotencyKey_of_diff {orders : DiffOrders} {scopes : List ScopeRoot} {previous current : SkillSnapshot} :
    ∀ change ∈ diffSkillSnapshots orders scopes previous current,
      change.idempotencyKey = change.filePath.display ++ ":".toList ++ change.contentHash :=
  forall_diffSkillSnapshots fun _ _ _ _ _ _ => rfl

/-- Against no files before, a sound change is a creation. -/
theorem Sound.of_empty {current : SkillSnapshot} {change : SkillFileChange} {source : Option Path}
    (sound : Sound SkillSnapshot.empty current change source) :
    source = none ∧ Added SkillSnapshot.empty current change.filePath change.contentHash := by
  have gone {path : Path} {contentHash : Str} (removed : Removed SkillSnapshot.empty current path contentHash) : False :=
    absurd removed.mem.1 List.not_mem_nil
  unfold Sound at sound
  split at sound
  · exact ⟨rfl, sound⟩
  · exact absurd sound.mem.1 List.not_mem_nil
  · exact (gone sound).elim
  · exact (gone sound.1.removed).elim
  · exact (gone sound.1.removed).elim
  · exact (gone sound.1.removed).elim
  · exact sound.elim

/-- Every found file is reported by its key, against no files before. -/
theorem exists_key_of_empty (orders : DiffOrders) {scopes : List ScopeRoot} {current : SkillSnapshot}
    (covered : Covered scopes current) {path : Path} {fingerprint : SkillFileFingerprint}
    (found : current.get? path = some fingerprint) :
    path.display ++ ":".toList ++ fingerprint.contentHash ∈
      (diffSkillSnapshots orders scopes SkillSnapshot.empty current).map SkillFileChange.idempotencyKey := by
  obtain ⟨accounted, changes, sound, balanced⟩ := diffSkillSnapshots_accounted SkillSnapshot.empty current orders
    (List.forall_mem_nil _) covered
  have differs : Differs SkillSnapshot.empty current path := by
    rw [Differs, found]
    exact (Option.some_ne_none _).symm
  obtain ⟨⟨change, source⟩, member, mentioned⟩ :=
    List.mem_flatMap.mp (balanced.symm.subset (mem_touched_or_removed.mpr differs))
  obtain ⟨rfl, added⟩ := (sound _ member).of_empty
  obtain rfl : path = change.filePath := List.mem_singleton.mp mentioned
  have recorded : change ∈ diffSkillSnapshots orders scopes SkillSnapshot.empty current :=
    changes ▸ List.mem_map_of_mem member
  have hashes : some fingerprint.contentHash = some change.contentHash := by
    rw [← added.2, found]
    rfl
  refine List.mem_map.mpr ⟨change, recorded, ?_⟩
  rw [idempotencyKey_of_diff change recorded, Option.some.inj hashes]

/-- No file has been found yet. -/
structure Quiet (watcher : SkillWatcher) (recovery : WatcherRecovery) : Prop where
  nothing : watcher.currentSnapshot = SkillSnapshot.empty
  unseen : recovery.lastSeenGenerationByKey = []

section Runs

variable {hash : List UInt8 → Str} {input : CycleInput} {watcher : SkillWatcher} (recovery : WatcherRecovery)

theorem collectCycleChanges_failed {error : WatcherError}
    (failed : buildSnapshot hash watcher.scopes input.tree = .error error) :
    collectCycleChanges hash input watcher recovery = .error error := by
  rw [collectCycleChanges, SkillWatcher.collectFileChanges, failed]

/-- The report of a cycle whose scan succeeds. -/
def scannedReport (input : CycleInput) (watcher : SkillWatcher) (recovery : WatcherRecovery) (snapshot : SkillSnapshot) :
    CycleReport where
  watcher := { watcher with previousSnapshot := watcher.currentSnapshot, currentSnapshot := snapshot }
  watched := diffSkillSnapshots input.watched watcher.scopes watcher.currentSnapshot snapshot
  discovered := diffSkillSnapshots input.recovered watcher.scopes watcher.currentSnapshot snapshot
  recovered :=
    (recovery.reconcile (diffSkillSnapshots input.recovered watcher.scopes watcher.currentSnapshot snapshot)).1

theorem collectCycleChanges_scanned {snapshot : SkillSnapshot}
    (scanned : buildSnapshot hash watcher.scopes input.tree = .ok snapshot) :
    collectCycleChanges hash input watcher recovery = .ok (scannedReport input watcher recovery snapshot,
      (recovery.reconcile (scannedReport input watcher recovery snapshot).discovered).2) := by
  rw [collectCycleChanges, SkillWatcher.collectFileChanges, scanned]
  rfl

variable {recovery}

/-- A scan without files reports nothing, and nothing has been found after it. -/
theorem Quiet.silent (quiet : Quiet watcher recovery) (input : CycleInput) :
    (scannedReport input watcher recovery SkillSnapshot.empty).allChanges = [] ∧
      (scannedReport input watcher recovery SkillSnapshot.empty).discovered = [] ∧
      Quiet (scannedReport input watcher recovery SkillSnapshot.empty).watcher
        (recovery.reconcile (scannedReport input watcher recovery SkillSnapshot.empty).discovered).2 := by
  have same (orders : DiffOrders) :
      diffSkillSnapshots orders watcher.scopes watcher.currentSnapshot SkillSnapshot.empty = [] := by
    rw [quiet.nothing, diffSkillSnapshots_empty]
  have discovered : (scannedReport input watcher recovery SkillSnapshot.empty).discovered = [] := same _
  refine ⟨?_, discovered, rfl, ?_⟩
  · rw [CycleReport.allChanges, scannedReport]
    dsimp only
    rw [same, same]
    rfl
  · rw [discovered, WatcherRecovery.reconcile, quiet.unseen]
    rfl

/-- The first scan with a file reports its key twice. -/
theorem Quiet.doubled (quiet : Quiet watcher recovery) {snapshot : SkillSnapshot}
    (scanned : buildSnapshot hash watcher.scopes input.tree = .ok snapshot) (some : snapshot ≠ SkillSnapshot.empty) :
    ¬ ((scannedReport input watcher recovery snapshot).allChanges.map SkillFileChange.idempotencyKey).Nodup := by
  obtain ⟨⟨path, fingerprint⟩, member⟩ : ∃ entry, entry ∈ snapshot.entries :=
    List.exists_mem_of_ne_nil _ fun nothing => some (SkillSnapshot.eq_empty nothing)
  have found := SkillSnapshot.get?_eq_some.mpr member
  have covered := buildSnapshot_covered scanned
  have first := exists_key_of_empty input.watched covered found
  have second := exists_key_of_empty input.recovered covered found
  rw [← quiet.nothing] at first second
  have unseen : path.display ++ ":".toList ++ fingerprint.contentHash ∉ recovery.lastSeenGenerationByKey.map Prod.fst := by
    rw [quiet.unseen]
    exact List.not_mem_nil
  have again := mem_observe (nextGeneration recovery.currentGeneration) second unseen
  intro distinct
  rw [CycleReport.allChanges, List.map_append] at distinct
  exact (List.nodup_append.mp distinct).2.2 _ first _ again rfl

/-- Runs whose scans find nothing report nothing. -/
theorem silent_run (hash : List UInt8 → Str) {scopes : List ScopeRoot} {inputs : List CycleInput}
    (nothing : ∀ input ∈ inputs, ∀ snapshot, buildSnapshot hash scopes input.tree = .ok snapshot →
      snapshot = SkillSnapshot.empty)
    (quiet : Quiet watcher recovery) (same : watcher.scopes = scopes) :
    ∀ report ∈ runCycles hash inputs watcher recovery, report.allChanges = [] ∧ report.discovered = [] := by
  induction inputs generalizing watcher recovery with
  | nil => exact List.forall_mem_nil _
  | cons input rest ih =>
    obtain ⟨here, later⟩ := List.forall_mem_cons.mp nothing
    subst same
    rw [runCycles]
    cases scanned : buildSnapshot hash watcher.scopes input.tree with
    | error error =>
      rw [collectCycleChanges_failed recovery scanned]
      exact ih later quiet rfl
    | ok snapshot =>
      obtain rfl := here snapshot scanned
      rw [collectCycleChanges_scanned recovery scanned]
      obtain ⟨unreported, undiscovered, still⟩ := quiet.silent input
      exact List.forall_mem_cons.mpr ⟨⟨unreported, undiscovered⟩, ih later still rfl⟩

/-- Runs that report no key twice in a cycle find nothing. -/
theorem nothing_of_distinct (hash : List UInt8 → Str) {scopes : List ScopeRoot} {inputs : List CycleInput}
    (quiet : Quiet watcher recovery) (same : watcher.scopes = scopes)
    (distinct : ∀ report ∈ runCycles hash inputs watcher recovery,
      (report.allChanges.map SkillFileChange.idempotencyKey).Nodup) :
    ∀ input ∈ inputs, ∀ snapshot, buildSnapshot hash scopes input.tree = .ok snapshot →
      snapshot = SkillSnapshot.empty := by
  induction inputs generalizing watcher recovery with
  | nil => exact List.forall_mem_nil _
  | cons input rest ih =>
    subst same
    rw [runCycles] at distinct
    cases scanned : buildSnapshot hash watcher.scopes input.tree with
    | error error =>
      rw [collectCycleChanges_failed recovery scanned] at distinct
      refine List.forall_mem_cons.mpr ⟨fun snapshot found => ?_, ih quiet rfl distinct⟩
      rw [scanned] at found
      cases found
    | ok snapshot =>
      rw [collectCycleChanges_scanned recovery scanned] at distinct
      obtain ⟨first, later⟩ := List.forall_mem_cons.mp distinct
      have empty : snapshot = SkillSnapshot.empty := by
        by_contra some
        exact quiet.doubled scanned some first
      subst empty
      refine List.forall_mem_cons.mpr ⟨fun found again => ?_, ih (quiet.silent input).2.2 rfl later⟩
      exact (Except.ok.inj (scanned.symm.trans again)).symm

end Runs

theorem quiet_start {scopes : List ScopeRoot} {tree : FileTree} {watcher : SkillWatcher} {window : Nat}
    {recovery : WatcherRecovery} (created : SkillWatcher.new scopes tree = .ok watcher)
    (fresh : WatcherRecovery.withGenerationWindow window = some recovery) :
    watcher.scopes = scopes ∧ Quiet watcher recovery := by
  rw [SkillWatcher.new] at created
  rw [WatcherRecovery.withGenerationWindow] at fresh
  split at created
  · cases created
  · split at fresh
    · obtain rfl := Except.ok.inj created
      obtain rfl := Option.some.inj fresh
      exact ⟨rfl, rfl, rfl⟩
    · cases fresh

/-- The cycles of a run report each change once exactly when there never is one: no scan finds a skill file. -/
theorem reportedOnce_iff (hash : List UInt8 → Str) {scopes : List ScopeRoot} {tree : FileTree} {watcher : SkillWatcher}
    {window : Nat} {recovery : WatcherRecovery} (created : SkillWatcher.new scopes tree = .ok watcher)
    (fresh : WatcherRecovery.withGenerationWindow window = some recovery) (inputs : List CycleInput) :
    (∀ earlier report later, runCycles hash inputs watcher recovery = earlier ++ report :: later →
      ReportedOnce window earlier.reverse report) ↔
      ∀ input ∈ inputs, ∀ snapshot, buildSnapshot hash scopes input.tree = .ok snapshot →
        snapshot = SkillSnapshot.empty := by
  obtain ⟨same, quiet⟩ := quiet_start created fresh
  constructor
  · intro once
    refine nothing_of_distinct hash quiet same fun report member => ?_
    obtain ⟨earlier, later, position⟩ := List.append_of_mem member
    exact (once earlier report later position).distinct
  · intro nothing earlier report later position
    have member : report ∈ runCycles hash inputs watcher recovery := position ▸ List.mem_append_cons_self
    obtain ⟨unreported, undiscovered⟩ := silent_run hash nothing quiet same report member
    refine ⟨?_, fun change found => ?_⟩
    · rw [unreported]
      exact List.nodup_nil
    · rw [undiscovered] at found
      exact absurd found List.not_mem_nil

/-! ### Concrete runs -/

def tipsPath : Path := [[], "repo", "tips", "SKILL.md"]

def tipsTree (content : List UInt8) : FileTree where
  entries := [([[], "repo"], .directory), ([[], "repo", "tips"], .directory),
    (tipsPath, .file ⟨.ok content, .ok "# Tips", .ok 1⟩)]
  nodup := by
    have distinct : [[[], "repo"], [[], "repo", "tips"], tipsPath].Nodup := by decide +kernel
    exact distinct

def repoScope : ScopeRoot := ⟨"project", .project, [[], "repo"]⟩

def tipsCycle (content : List UInt8) : CycleInput where
  tree := tipsTree content
  watched := ⟨HashOrder.unchanged _, HashOrder.unchanged _, HashOrder.unchanged _⟩
  recovered := ⟨HashOrder.unchanged _, HashOrder.unchanged _, HashOrder.unchanged _⟩

/-- A digest that tells the two contents apart. -/
def sampleDigest (content : List UInt8) : Str := if content = [1] then "a" else "b"

def tipsWatcher : SkillWatcher := ⟨[repoScope], SkillSnapshot.empty, SkillSnapshot.empty⟩

def tipsRun : List CycleReport :=
  runCycles sampleDigest [tipsCycle [1], tipsCycle [2], tipsCycle [1]] tipsWatcher ⟨[], 0, 64⟩

def tipsChange (kind : SkillFileChangeKind) (contentHash : Str) : SkillFileChange :=
  buildChange ("project".toList, .project) tipsPath kind .direct contentHash

/-- A file is created, edited and edited back. -/
theorem tipsRun_eq : tipsRun =
    [⟨⟨[repoScope], SkillSnapshot.empty, snapshotWith tipsPath ⟨"a", 1⟩⟩, [tipsChange .created "a"],
        [tipsChange .created "a"], [tipsChange .created "a"]⟩,
      ⟨⟨[repoScope], snapshotWith tipsPath ⟨"a", 1⟩, snapshotWith tipsPath ⟨"b", 1⟩⟩, [tipsChange .modified "b"],
        [tipsChange .modified "b"], [tipsChange .modified "b"]⟩,
      ⟨⟨[repoScope], snapshotWith tipsPath ⟨"b", 1⟩, snapshotWith tipsPath ⟨"a", 1⟩⟩, [tipsChange .modified "a"],
        [tipsChange .modified "a"], []⟩] := rfl

/-- The creation is reported twice, and the edit back is suppressed although no such edit has been reported. -/
theorem editedBack_not_once :
    ∃ first second third, tipsRun = [first, second, third] ∧ ¬ ReportedOnce 64 [] first ∧
      ¬ ReportedOnce 64 [second, first] third := by
  refine ⟨_, _, _, tipsRun_eq, fun once => ?_, fun once => ?_⟩
  · exact absurd once.distinct (by decide)
  · obtain ⟨earlier, inWindow, reported, member, same⟩ :=
      once.suppressed (tipsChange .modified "a") (by decide) (by decide)
    rcases List.mem_pair.mp inWindow with rfl | rfl
    · rcases List.mem_pair.mp member with rfl | rfl <;> exact absurd same (by decide)
    · rcases List.mem_pair.mp member with rfl | rfl <;> exact absurd same (by decide)

def bareTree : FileTree := ⟨[([[], "repo"], .directory)], List.nodup_singleton _⟩

theorem noFiles_once :
    (∀ earlier report later,
      runCycles sampleDigest [{ tipsCycle [1] with tree := bareTree }] tipsWatcher ⟨[], 0, 64⟩ = earlier ++ report :: later →
        ReportedOnce 64 earlier.reverse report) ↔
      ∀ input ∈ [{ tipsCycle [1] with tree := bareTree }],
        ∀ snapshot, buildSnapshot sampleDigest [repoScope] input.tree = .ok snapshot → snapshot = SkillSnapshot.empty := by
  have created : SkillWatcher.new [repoScope] bareTree = .ok tipsWatcher := rfl
  exact reportedOnce_iff sampleDigest created rfl _

end SkillLayer.GraphBuilder
