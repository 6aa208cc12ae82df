import SkillLayer.History
import SkillLayer.Runs
import SkillLayer.Infrastructure.GraphReads

/-! Rebuilds and graph reloads in any interleaving: what the served snapshot holds. -/

namespace SkillLayer.McpServer

open Infrastructure

structure RetrievalSnapshot where
  graphVersion : Int
  skills : List PersistedGraphSkillRecord
deriving DecidableEq

/-- The guard against unbounded memory growth. -/
def maxSkillsToLoad : Nat := 5000

/-- The snapshot of the rows read, cut at the cap. -/
def buildGraph (graphVersion : Int) (skills : List PersistedGraphSkillRecord) : RetrievalSnapshot :=
  if skills.isEmpty then ⟨graphVersion, []⟩
  else if maxSkillsToLoad < skills.length then ⟨graphVersion, skills.take maxSkillsToLoad⟩
  else ⟨graphVersion, skills⟩

theorem buildGraph_eq (graphVersion : Int) (skills : List PersistedGraphSkillRecord) :
    buildGraph graphVersion skills = ⟨graphVersion, skills.take maxSkillsToLoad⟩ := by
  unfold buildGraph
  split
  · rename_i empty
    rw [List.isEmpty_iff.mp empty, List.take_nil]
  · split
    · rfl
    · rename_i within
      rw [List.take_of_length_le (Nat.le_of_not_lt within)]

/-- The incoming snapshot replaces the current one only when it is strictly newer. -/
def swapGraph (current incoming : RetrievalSnapshot) : Bool × RetrievalSnapshot :=
  if current.graphVersion < incoming.graphVersion then (true, incoming) else (false, current)

/-- How far a reload has come. -/
inductive Stage where
  | begun
  | versionRead (graphVersion : Int)
  | skillsRead (graphVersion : Int) (skillRows : List PersistedGraphSkillRecord)
  | built (snapshot : RetrievalSnapshot)

/-- A reload in flight, with the newest commit at its begin. -/
structure Reload where
  begunAt : Nat
  stage : Stage

/-- The database, the served snapshot (none before the boot load) and the reloads in
flight. For the record of the run only: every commit, the database it left, and for each
finished swap attempt the newest commit at the begin of its reload. -/
structure ServerState where
  db : Database
  served : Option RetrievalSnapshot
  reloads : Nat → Option Reload
  history : History Database
  finished : List Nat

def ServerState.newestCommit (state : ServerState) : Nat := state.history.length - 1

def ServerState.withReload (state : ServerState) (id : Nat) (reload : Option Reload) : ServerState :=
  { state with reloads := Function.update state.reloads id reload }

theorem ServerState.withReload_self (state : ServerState) (id : Nat) (reload : Option Reload) :
    (state.withReload id reload).reloads id = reload := Function.update_self _ _ _

def ServerState.swapped (state : ServerState) (incoming : RetrievalSnapshot) : ServerState :=
  { state with
    served := some <|
      match state.served with
      | none => incoming
      | some current => (swapGraph current incoming).2 }

variable (blake3 : Blake3)

inductive Step : ServerState → ServerState → Prop where
  | rebuild {state : ServerState} {refused : Refused} {mutation : LiveGraphSnapshotMutation}
      {version : Int} {after : Database}
      (committed : replaceSnapshotAndBumpVersion blake3 refused mutation state.db = (.ok version, after)) :
      Step state { state with db := after, history := state.history ++ [(version, after)] }
  | bump {state : ServerState} (refused : Refused) :
      Step state { state with db := (bumpGraphVersion refused state.db).2 }
  | beginReload {state : ServerState} {id : Nat} (free : state.reloads id = none) :
      Step state (state.withReload id (some ⟨state.newestCommit, .begun⟩))
  | readVersion {state : ServerState} {id begunAt : Nat}
      (here : state.reloads id = some ⟨begunAt, .begun⟩) :
      Step state (state.withReload id
        (some ⟨begunAt, .versionRead (currentGraphVersion state.db)⟩))
  | readSkills {state : ServerState} {id begunAt : Nat} {version : Int}
      (here : state.reloads id = some ⟨begunAt, .versionRead version⟩) :
      Step state (state.withReload id (some ⟨begunAt, .skillsRead version (selectSkills state.db)⟩))
  | readSubunits {state : ServerState} {id begunAt : Nat} {version : Int}
      {skillRows : List PersistedGraphSkillRecord}
      (here : state.reloads id = some ⟨begunAt, .skillsRead version skillRows⟩) :
      Step state (state.withReload id (some ⟨begunAt,
        .built (buildGraph version (joinSubunits skillRows (selectSubunits state.db)))⟩))
  | swap {state : ServerState} {id begunAt : Nat} {snapshot : RetrievalSnapshot}
      (here : state.reloads id = some ⟨begunAt, .built snapshot⟩) :
      Step state { (state.swapped snapshot).withReload id none with
        finished := begunAt :: state.finished }
  | fail {state : ServerState} {id : Nat} :
      Step state (state.withReload id none)

/-- A server before its boot load, on any database. -/
def booting (db : Database) : ServerState where
  db := db
  served := none
  reloads _ := none
  history := [(currentGraphVersion db, db)]
  finished := []

def server : Transitions ServerState where
  initial state := ∃ db, state = booting db
  step := Step blake3

/-! ### Where the rows of a snapshot come from -/

/-- The skills of the snapshot were read at one commit and its subunits at a later one,
both from `index` on, where its label was current. -/
structure Provenance (history : History Database) (index : Nat) (snapshot : RetrievalSnapshot) :
    Prop where
  current : Current history snapshot.graphVersion index
  rows : ∃ skillsAt subunitsAt skillsDb subunitsDb, skillsAt ≤ subunitsAt ∧
    ReadSince history index skillsAt skillsDb ∧ ReadSince history index subunitsAt subunitsDb ∧
    snapshot.skills =
      (joinSubunits (selectSkills skillsDb) (selectSubunits subunitsDb)).take maxSkillsToLoad

def StageOk (history : History Database) (version : Int) (begunAt : Nat) : Stage → Prop
  | .begun => begunAt < history.length
  | .versionRead label => label ≤ version ∧ ∃ index, begunAt ≤ index ∧ Current history label index
  | .skillsRead label skillRows => label ≤ version ∧ ∃ index, begunAt ≤ index ∧
      Current history label index ∧ ∃ skillsAt skillsDb, ReadSince history index skillsAt skillsDb ∧
        skillRows = selectSkills skillsDb
  | .built snapshot => snapshot.graphVersion ≤ version ∧ ∃ index, begunAt ≤ index ∧
      Provenance history index snapshot

/-- The invariant of every interleaving. -/
structure Consistent (state : ServerState) : Prop where
  newest : ∃ earlier version db, state.history = earlier ++ [(version, db)] ∧
    version ≤ currentGraphVersion state.db ∧ selectSkills state.db = selectSkills db ∧
    selectSubunits state.db = selectSubunits db
  reloads : ∀ id reload, state.reloads id = some reload →
    StageOk state.history (currentGraphVersion state.db) reload.begunAt reload.stage
  served : ∀ snapshot, state.served = some snapshot →
    snapshot.graphVersion ≤ currentGraphVersion state.db ∧
      ∃ index, Provenance state.history index snapshot
  finished : ∀ begunAt ∈ state.finished, ∃ snapshot index, state.served = some snapshot ∧
    Provenance state.history index snapshot ∧ begunAt ≤ index

theorem Provenance.append {history : History Database} {index : Nat} {snapshot : RetrievalSnapshot}
    {newer : Int} (provenance : Provenance history index snapshot) (db : Database)
    (above : snapshot.graphVersion < newer) :
    Provenance (history ++ [(newer, db)]) index snapshot := by
  obtain ⟨current, skillsAt, subunitsAt, skillsDb, subunitsDb, order, skills, subunits, same⟩ :=
    provenance
  exact ⟨current.append db above, skillsAt, subunitsAt, skillsDb, subunitsDb, order,
    skills.append _, subunits.append _, same⟩

theorem StageOk.append {history : History Database} {version newer : Int} {begunAt : Nat}
    {stage : Stage} (ok : StageOk history version begunAt stage) (db : Database)
    (above : version < newer) : StageOk (history ++ [(newer, db)]) newer begunAt stage := by
  cases stage with
  | begun =>
    change begunAt < _
    rw [List.length_append]
    exact Nat.lt_add_right _ ok
  | versionRead label =>
    obtain ⟨bound, index, since, current⟩ := ok
    exact ⟨by omega, index, since, current.append db (by omega)⟩
  | skillsRead label skillRows =>
    obtain ⟨bound, index, since, current, skillsAt, skillsDb, read, same⟩ := ok
    exact ⟨by omega, index, since, current.append db (by omega), skillsAt, skillsDb,
      read.append _, same⟩
  | built snapshot =>
    obtain ⟨bound, index, since, provenance⟩ := ok
    exact ⟨by omega, index, since, provenance.append db (by omega)⟩

theorem StageOk.mono {history : History Database} {version newer : Int} {begunAt : Nat}
    {stage : Stage} (ok : StageOk history version begunAt stage) (above : version ≤ newer) :
    StageOk history newer begunAt stage := by
  cases stage with
  | begun => exact ok
  | versionRead label => exact ⟨ok.1.trans above, ok.2⟩
  | skillsRead label skillRows => exact ⟨ok.1.trans above, ok.2⟩
  | built snapshot => exact ⟨ok.1.trans above, ok.2⟩

/-- A read of the current state is a read of the newest commit. -/
theorem Consistent.readSince {state : ServerState} (holds : Consistent state) {index : Nat}
    (inside : index < state.history.length) :
    ∃ db, ReadSince state.history index state.newestCommit db ∧
      selectSkills state.db = selectSkills db ∧ selectSubunits state.db = selectSubunits db := by
  obtain ⟨earlier, version, db, same, -, skills, subunits⟩ := holds.newest
  have last : state.newestCommit = earlier.length := by
    simp [ServerState.newestCommit, same]
  refine ⟨db, ⟨?_, version, ?_⟩, skills, subunits⟩
  · rw [ServerState.newestCommit]
    omega
  · rw [last, same]
    simp

/-- The version read now was current at the newest commit. -/
theorem Consistent.current {state : ServerState} (holds : Consistent state) :
    Current state.history (currentGraphVersion state.db) state.newestCommit := by
  obtain ⟨earlier, version, db, same, reached, -, -⟩ := holds.newest
  have last : state.newestCommit = earlier.length := by
    simp [ServerState.newestCommit, same]
  rw [last, same]
  exact Current.newest earlier reached

theorem Consistent.withReload {state : ServerState} (holds : Consistent state) (id : Nat)
    (reload : Option Reload)
    (ok : ∀ here, reload = some here →
      StageOk state.history (currentGraphVersion state.db) here.begunAt here.stage) :
    Consistent (state.withReload id reload) where
  newest := holds.newest
  reloads := by
    intro other here found
    by_cases same : other = id
    · subst same
      exact ok here (by simpa [ServerState.withReload] using found)
    · exact holds.reloads other here (by simpa [ServerState.withReload, same] using found)
  served := holds.served
  finished := holds.finished

/-- A commit moves the history on and leaves every label and every row read before it. -/
theorem Consistent.rebuild {state : ServerState} (holds : Consistent state) {refused : Refused}
    {mutation : LiveGraphSnapshotMutation} {version : Int} {after : Database}
    (committed : replaceSnapshotAndBumpVersion blake3 refused mutation state.db = (.ok version, after)) :
    Consistent { state with db := after, history := state.history ++ [(version, after)] } := by
  obtain ⟨here, next⟩ : currentGraphVersion after = version ∧
      version = currentGraphVersion state.db + 1 := by
    rcases replaceSnapshotAndBumpVersion_spec blake3 refused mutation state.db with
      ⟨-, stored, left, ran, replaced⟩ | ⟨-, error, ran⟩
    · rw [committed] at ran
      cases ran
      exact currentGraphVersion_replaced replaced
    · rw [committed] at ran
      cases ran
  have above : currentGraphVersion state.db < version := by omega
  constructor
  · exact ⟨state.history, version, after, rfl, here ▸ le_refl _, rfl, rfl⟩
  · intro id reload found
    have ok := (holds.reloads id reload found).append after above
    exact here ▸ ok
  · intro snapshot found
    obtain ⟨bound, index, provenance⟩ := holds.served snapshot found
    refine ⟨?_, index, provenance.append after (by omega)⟩
    change _ ≤ currentGraphVersion after
    omega
  · intro begunAt member
    obtain ⟨snapshot, index, found, provenance, since⟩ := holds.finished begunAt member
    have bound := (holds.served snapshot found).1
    exact ⟨snapshot, index, found, provenance.append after (by omega), since⟩

theorem Consistent.bump {state : ServerState} (holds : Consistent state) (refused : Refused) :
    Consistent { state with db := (bumpGraphVersion refused state.db).2 } := by
  obtain ⟨skills, subunits, above⟩ := bumpGraphVersion_frame refused state.db
  constructor
  · obtain ⟨earlier, version, db, same, reached, sameSkills, sameSubunits⟩ := holds.newest
    exact ⟨earlier, version, db, same, reached.trans above, skills.trans sameSkills,
      subunits.trans sameSubunits⟩
  · exact fun id reload found => (holds.reloads id reload found).mono above
  · intro snapshot found
    obtain ⟨bound, provenance⟩ := holds.served snapshot found
    exact ⟨bound.trans above, provenance⟩
  · exact holds.finished

/-- A finished swap leaves a snapshot in service that is no older than the one offered. -/
theorem Consistent.swap {state : ServerState} (holds : Consistent state) {id begunAt : Nat}
    {incoming : RetrievalSnapshot} (here : state.reloads id = some ⟨begunAt, .built incoming⟩) :
    Consistent { (state.swapped incoming).withReload id none with
      finished := begunAt :: state.finished } := by
  obtain ⟨bound, index, since, provenance⟩ := holds.reloads id _ here
  have offered : ∃ snapshot servedIndex, (state.swapped incoming).served = some snapshot ∧
      snapshot.graphVersion ≤ currentGraphVersion state.db ∧
      Provenance state.history servedIndex snapshot ∧ index ≤ servedIndex ∧
      ∀ current currentIndex, state.served = some current →
        Provenance state.history currentIndex current → currentIndex ≤ servedIndex := by
    cases served : state.served with
    | none =>
      exact ⟨incoming, index, by simp [ServerState.swapped, served], bound, provenance, le_refl _,
        fun _ _ found => absurd found (by simp)⟩
    | some current =>
      obtain ⟨currentBound, currentIndex, currentProvenance⟩ := holds.served current served
      by_cases newer : current.graphVersion < incoming.graphVersion
      · refine ⟨incoming, index, by simp [ServerState.swapped, served, swapGraph, newer], bound,
          provenance, le_refl _, ?_⟩
        rintro other otherIndex found otherProvenance
        obtain rfl := Option.some.inj found
        exact otherProvenance.current.le provenance.current (by omega)
      · refine ⟨current, currentIndex, by simp [ServerState.swapped, served, swapGraph, newer],
          currentBound, currentProvenance,
          provenance.current.le currentProvenance.current (by omega), ?_⟩
        rintro other otherIndex found otherProvenance
        obtain rfl := Option.some.inj found
        exact otherProvenance.current.le currentProvenance.current (le_refl _)
  obtain ⟨snapshot, servedIndex, served, servedBound, servedProvenance, newest, keeps⟩ := offered
  constructor
  · exact holds.newest
  · intro other reload found
    by_cases same : other = id
    · subst same
      simp [ServerState.withReload] at found
    · exact holds.reloads other reload (by simpa [ServerState.withReload, ServerState.swapped, same] using found)
  · intro other found
    obtain rfl := Option.some.inj (served.symm.trans found)
    exact ⟨servedBound, servedIndex, servedProvenance⟩
  · intro other member
    refine ⟨snapshot, servedIndex, served, servedProvenance, ?_⟩
    rcases List.mem_cons.mp member with rfl | earlier
    · exact since.trans newest
    · obtain ⟨current, currentIndex, found, currentProvenance, currentSince⟩ :=
        holds.finished other earlier
      exact currentSince.trans (keeps current currentIndex found currentProvenance)

theorem consistent_step {state after : ServerState} (holds : Consistent state)
    (step : Step blake3 state after) : Consistent after := by
  cases step with
  | rebuild committed => exact holds.rebuild blake3 committed
  | bump refused => exact holds.bump refused
  | beginReload free =>
    refine holds.withReload _ _ ?_
    rintro _ ⟨⟩
    exact holds.current.lt_length
  | readVersion here =>
    refine holds.withReload _ _ ?_
    rintro _ ⟨⟩
    have begun := holds.reloads _ _ here
    exact ⟨le_refl _, state.newestCommit, Nat.le_sub_one_of_lt begun, holds.current⟩
  | readSkills here =>
    refine holds.withReload _ _ ?_
    rintro _ ⟨⟩
    obtain ⟨bound, index, since, current⟩ := holds.reloads _ _ here
    obtain ⟨db, read, skills, -⟩ := holds.readSince current.lt_length
    exact ⟨bound, index, since, current, _, db, read, skills⟩
  | readSubunits here =>
    refine holds.withReload _ _ ?_
    rintro _ ⟨⟩
    obtain ⟨bound, index, since, current, skillsAt, skillsDb, read, rfl⟩ := holds.reloads _ _ here
    obtain ⟨db, readNow, -, subunits⟩ := holds.readSince current.lt_length
    rw [StageOk, buildGraph_eq]
    refine ⟨bound, index, since, current, skillsAt, state.newestCommit, skillsDb, db, ?_, read,
      readNow, by rw [subunits]⟩
    have inside := read.lt_length
    rw [ServerState.newestCommit]
    omega
  | swap here => exact holds.swap here
  | fail =>
    refine holds.withReload _ _ ?_
    rintro _ ⟨⟩

theorem consistent_booting (db : Database) : Consistent (booting db) where
  newest := ⟨[], currentGraphVersion db, db, rfl, le_refl _, rfl, rfl⟩
  reloads _ _ found := by cases found
  served _ found := by cases found
  finished _ member := by cases member

theorem consistent_of_reachable {state : ServerState} (reached : (server blake3).Reachable state) :
    Consistent state := by
  refine reached.invariant ?_ fun _ _ => consistent_step blake3
  rintro _ ⟨db, rfl⟩
  exact consistent_booting db

/-- The rows of the snapshot were read no earlier than any commit up to its label. -/
def RowsSinceLabel (history : History Database) (snapshot : RetrievalSnapshot) : Prop :=
  ∃ skillsAt subunitsAt skillsVersion subunitsVersion skillsDb subunitsDb,
    history[skillsAt]? = some (skillsVersion, skillsDb) ∧
    history[subunitsAt]? = some (subunitsVersion, subunitsDb) ∧
    snapshot.skills =
      (joinSubunits (selectSkills skillsDb) (selectSubunits subunitsDb)).take maxSkillsToLoad ∧
    ∀ (index : Nat) (commit : Int × Database), history[index]? = some commit →
      commit.1 ≤ snapshot.graphVersion → index ≤ skillsAt ∧ index ≤ subunitsAt

/-- In every interleaving the served rows are at least as new as their label, and once a
reload that began after the newest commit has finished its swap attempt the server serves
that commit, up to the cap. -/
theorem served_uptoCap {state : ServerState} (reached : (server blake3).Reachable state) :
    (∀ snapshot, state.served = some snapshot → RowsSinceLabel state.history snapshot) ∧
      (state.newestCommit ∈ state.finished → ∃ snapshot, state.served = some snapshot ∧
        snapshot.skills = (listSkills state.db).take maxSkillsToLoad) := by
  have holds := consistent_of_reachable blake3 reached
  constructor
  · intro snapshot served
    obtain ⟨-, index, current, skillsAt, subunitsAt, skillsDb, subunitsDb, -,
      ⟨afterSkills, skillsVersion, skillsRead⟩, ⟨afterSubunits, subunitsVersion, subunitsRead⟩, same⟩ :=
      holds.served snapshot served
    refine ⟨skillsAt, subunitsAt, skillsVersion, subunitsVersion, skillsDb, subunitsDb, skillsRead,
      subunitsRead, same, fun other commit found within => ?_⟩
    have bound := current.bound found within
    exact ⟨bound.trans afterSkills, bound.trans afterSubunits⟩
  · intro finished
    obtain ⟨snapshot, index, served, ⟨current, skillsAt, subunitsAt, skillsDb, subunitsDb, -,
      skillsSince, subunitsSince, same⟩, newest⟩ := holds.finished _ finished
    obtain ⟨earlier, version, db, history, -, skills, subunits⟩ := holds.newest
    have last : state.newestCommit = earlier.length := by simp [ServerState.newestCommit, history]
    have only {read : Nat} {readDb : Database} (since : ReadSince state.history index read readDb) :
        readDb = db := by
      obtain ⟨after, readVersion, found⟩ := since
      have inside := (List.getElem?_eq_some_iff.mp found).1
      rw [history, List.length_append, List.length_singleton] at inside
      obtain rfl : read = earlier.length := by omega
      have same : version = readVersion ∧ db = readDb := by simpa [history] using found
      exact same.2.symm
    rw [only skillsSince, only subunitsSince] at same
    exact ⟨snapshot, served, by rw [same, listSkills, skills, subunits]⟩

/-! ### One rebuild and one reload -/

/-- The state after a reload that no other step interrupts. -/
def ServerState.reloaded (state : ServerState) (id : Nat) : ServerState :=
  { (state.swapped (buildGraph (currentGraphVersion state.db) (listSkills state.db))).withReload id none
    with finished := state.newestCommit :: state.finished }

theorem finished_reloaded (state : ServerState) (id : Nat) :
    (state.reloaded id).newestCommit ∈ (state.reloaded id).finished := List.mem_cons_self

theorem db_reloaded (state : ServerState) (id : Nat) : (state.reloaded id).db = state.db := rfl

variable {blake3} in
theorem reachable_reloaded {state : ServerState} (reached : (server blake3).Reachable state) {id : Nat}
    (free : state.reloads id = none) : (server blake3).Reachable (state.reloaded id) := by
  have begun := reached.next (Step.beginReload free)
  have versioned := begun.next (Step.readVersion (ServerState.withReload_self _ _ _))
  have listed := versioned.next (Step.readSkills (ServerState.withReload_self _ _ _))
  have built := listed.next (Step.readSubunits (ServerState.withReload_self _ _ _))
  have done := built.next (Step.swap (ServerState.withReload_self _ _ _))
  simpa [ServerState.withReload, ServerState.swapped, ServerState.reloaded, listSkills] using done

/-- The first rebuild of a fresh database, committed. -/
def rebuilt (blake3 : Blake3) (mutation : LiveGraphSnapshotMutation) : ServerState :=
  let after := (replaceSnapshotAndBumpVersion blake3 (fun _ => none) mutation freshDatabase).2
  { booting freshDatabase with db := after, history := [(0, freshDatabase), (1, after)] }

theorem reachable_rebuilt {mutation : LiveGraphSnapshotMutation}
    (storable : Storable blake3 (fun _ => none) mutation freshDatabase) :
    (server blake3).Reachable (rebuilt blake3 mutation) := by
  rcases replaceSnapshotAndBumpVersion_spec blake3 (fun _ => none) mutation freshDatabase with
    ⟨-, version, after, ran, replaced⟩ | ⟨unstorable, -⟩
  · obtain ⟨-, rfl⟩ := currentGraphVersion_replaced replaced
    have booted : (server blake3).Reachable (booting freshDatabase) := .start ⟨_, rfl⟩
    have after := booted.next (Step.rebuild ran)
    rw [rebuilt, ran]
    exact after
  · exact absurd storable unstorable

/-- A mutation of the given number of skills, told apart by the length of their ids. -/
def manySkills (count : Nat) : LiveGraphSnapshotMutation where
  rebuiltAt := 1
  skills := (List.range count).map fun index =>
    ⟨List.replicate index 'a', "Tips", "No description provided", .project, [], [], []⟩
  communities := []

def lengthDigest : Blake3 := fun bytes =>
  UInt8.ofNat (bytes.length / 256) :: UInt8.ofNat (bytes.length % 256) :: List.replicate 30 0

theorem length_utf8_replicate (count : Nat) :
    (Str.utf8 ("skill" ++ [':'] ++ List.replicate count 'a')).length = 6 + count := by
  have letter : String.utf8EncodeChar 'a' = [97] := by decide
  have before : (Str.utf8 ("skill" ++ [':'])).length = 6 := by decide
  have letters : (Str.utf8 (List.replicate count 'a')).length = count := by
    induction count with
    | zero => rfl
    | succ count ih =>
      rw [List.replicate_succ, Str.utf8, List.flatMap_cons, letter, List.length_append]
      change 1 + (Str.utf8 (List.replicate count 'a')).length = _
      omega
  rw [Str.utf8, List.flatMap_append, List.length_append]
  change (Str.utf8 _).length + (Str.utf8 _).length = _
  rw [before, letters]

theorem lengthDigest_injective {first second : Nat} (firstBound : first < 60000)
    (secondBound : second < 60000)
    (same : stableSkillUuid lengthDigest (List.replicate first 'a') =
      stableSkillUuid lengthDigest (List.replicate second 'a')) : first = second := by
  have digits (count : Nat) : (stableSkillUuid lengthDigest (List.replicate count 'a')).take 2 =
      [UInt8.ofNat ((6 + count) / 256), UInt8.ofNat ((6 + count) % 256)] := by
    rw [← length_utf8_replicate count]
    rfl
  have equal := congrArg (List.take 2) same
  rw [digits, digits] at equal
  obtain ⟨high, low⟩ : UInt8.ofNat ((6 + first) / 256) = UInt8.ofNat ((6 + second) / 256) ∧
      UInt8.ofNat ((6 + first) % 256) = UInt8.ofNat ((6 + second) % 256) := by
    simpa using equal
  have highDigits := congrArg UInt8.toNat high
  have lowDigits := congrArg UInt8.toNat low
  rw [UInt8.toNat_ofNat', UInt8.toNat_ofNat'] at highDigits lowDigits
  omega

theorem manySkills_storable {count : Nat} (bound : count < 60000) :
    Storable lengthDigest (fun _ => none) (manySkills count) freshDatabase where
  allowed _ _ := rfl
  skills := by
    rw [manySkills, List.map_map]
    refine List.nodup_range.map_on ?_
    intro first firstMember second secondMember same
    exact lengthDigest_injective ((List.mem_range.mp firstMember).trans bound)
      ((List.mem_range.mp secondMember).trans bound) same
  subunits := by
    rw [manySkills, List.flatMap_map]
    exact (flatMap_nil (List.range count)).symm ▸ List.nodup_nil
  communities := List.nodup_nil
  members _ member := absurd member List.not_mem_nil
  known _ member := absurd member List.not_mem_nil
  sources _ member := absurd member List.not_mem_nil
  version := ⟨⟨0, none⟩, rfl, by decide, rfl⟩

theorem length_rebuilt {count : Nat} (bound : count < 60000) :
    (listSkills (rebuilt lengthDigest (manySkills count)).db).length = count := by
  rcases replaceSnapshotAndBumpVersion_spec lengthDigest (fun _ => none) (manySkills count)
    freshDatabase with ⟨-, version, after, ran, replaced⟩ | ⟨unstorable, -⟩
  · rw [length_listSkills, rebuilt, ran, replaced.skills, List.filter_eq_self.mpr]
    · simp [manySkills]
    · intro row member
      obtain ⟨skill, -, rfl⟩ := List.mem_map.mp member
      exact decide_eq_true rfl
  · exact absurd (manySkills_storable bound) unstorable

/-- The state after a first rebuild of many skills and one reload. -/
theorem reachable_manySkills {count : Nat} (bound : count < 60000) :
    (server lengthDigest).Reachable ((rebuilt lengthDigest (manySkills count)).reloaded 0) :=
  reachable_reloaded (reachable_rebuilt lengthDigest (manySkills_storable bound)) rfl

/-- After a small rebuild and a reload the newest commit is served whole. -/
theorem smallGraph_served :
    ∃ snapshot, ((rebuilt sampleDigest sampleMutation).reloaded 0).served = some snapshot ∧
      snapshot.skills = (listSkills ((rebuilt sampleDigest sampleMutation).reloaded 0).db).take
        maxSkillsToLoad := by
  have storable : Storable sampleDigest (fun _ => none) sampleMutation freshDatabase :=
    { allowed := fun _ _ => rfl
      skills := List.nodup_singleton _
      subunits := List.nodup_nil
      communities := List.nodup_nil
      members := fun _ member => absurd member List.not_mem_nil
      known := fun _ member => absurd member List.not_mem_nil
      sources := fun _ member => absurd member List.not_mem_nil
      version := ⟨⟨0, none⟩, rfl, by decide, rfl⟩ }
  exact (served_uptoCap sampleDigest
    (reachable_reloaded (reachable_rebuilt sampleDigest storable) rfl)).2 (finished_reloaded _ _)

theorem served_manySkills {count : Nat} (bound : count < 60000) {snapshot : RetrievalSnapshot}
    (served : ((rebuilt lengthDigest (manySkills count)).reloaded 0).served = some snapshot) :
    snapshot.skills.length = min maxSkillsToLoad count := by
  have offered : snapshot = buildGraph (currentGraphVersion (rebuilt lengthDigest (manySkills count)).db)
      (listSkills (rebuilt lengthDigest (manySkills count)).db) := (Option.some.inj served).symm
  rw [offered, buildGraph_eq, List.length_take, length_rebuilt bound]

/-- After a commit of 5001 skills and a reload the server does not serve all of them. -/
theorem largeGraph_cut :
    ¬ ∀ state, (server lengthDigest).Reachable state → state.newestCommit ∈ state.finished →
      ∃ snapshot, state.served = some snapshot ∧ snapshot.skills = listSkills state.db := by
  intro complete
  have small : 5001 < 60000 := by decide
  obtain ⟨snapshot, served, same⟩ := complete _ (reachable_manySkills small)
    (finished_reloaded _ _)
  have cut := served_manySkills small served
  rw [same, db_reloaded, length_rebuilt small] at cut
  exact absurd cut (by decide)

end SkillLayer.McpServer
