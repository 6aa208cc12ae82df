import SkillLayer.GraphBuilder.Watcher

/-! The changes between two snapshots are a patch: every differing file is accounted for once. -/

namespace SkillLayer.GraphBuilder

open Domain

/-! ### Looking up -/

theorem SkillSnapshot.get?_eq_some {snapshot : SkillSnapshot} {path : Path} {fingerprint : SkillFileFingerprint} :
    snapshot.get? path = some fingerprint ↔ (path, fingerprint) ∈ snapshot.entries :=
  lookup_eq_some_iff_mem snapshot.nodup

theorem SkillSnapshot.mem_paths {snapshot : SkillSnapshot} {path : Path} :
    path ∈ snapshot.paths ↔ ∃ fingerprint, snapshot.get? path = some fingerprint := by
  simp only [SkillSnapshot.get?_eq_some, SkillSnapshot.paths, List.mem_map]
  constructor
  · rintro ⟨⟨here, fingerprint⟩, member, rfl⟩
    exact ⟨fingerprint, member⟩
  · rintro ⟨fingerprint, member⟩
    exact ⟨_, member, rfl⟩

/-! ### The removed files -/

/-- The removed files with their hashes. -/
def openPaths (removed : RemovedPaths) : List (Str × Path) :=
  removed.flatMap fun entry => entry.2.map fun path => (entry.1, path)

theorem openPaths_cons (hash : Str) (paths : List Path) (rest : RemovedPaths) :
    openPaths ((hash, paths) :: rest) = paths.map (fun path => (hash, path)) ++ openPaths rest := rfl

theorem openPaths_push (removed : RemovedPaths) (contentHash : Str) (path : Path) :
    (openPaths (pushRemovedPath removed contentHash path)).Perm ((contentHash, path) :: openPaths removed) := by
  induction removed with
  | nil => exact List.Perm.refl _
  | cons entry rest ih =>
    obtain ⟨hash, paths⟩ := entry
    rw [pushRemovedPath, upsert]
    split
    · rename_i same
      obtain rfl : hash = contentHash := same
      rw [openPaths_cons, openPaths_cons, List.map_append, List.append_assoc]
      exact List.perm_middle
    · rw [openPaths_cons, openPaths_cons]
      exact (List.Perm.append_left _ ih).trans List.perm_middle

theorem takeCandidate_eq_some {targetPath taken : Path} {candidates others : List Path}
    (found : takeCandidate targetPath candidates = some (taken, others)) :
    candidates.Perm (taken :: others) ∧ taken.parent = targetPath.parent := by
  induction candidates generalizing others with
  | nil => cases found
  | cons candidate rest ih =>
    rw [takeCandidate] at found
    split at found
    · rename_i same
      obtain ⟨rfl, rfl⟩ := Prod.mk.inj (Option.some.inj found)
      exact ⟨List.Perm.refl _, beq_iff_eq.mp same⟩
    · obtain ⟨⟨chosen, left⟩, later, same⟩ := Option.map_eq_some_iff.mp found
      obtain ⟨rfl, rfl⟩ := Prod.mk.inj same
      obtain ⟨shuffled, sibling⟩ := ih later
      exact ⟨(shuffled.cons candidate).trans (List.Perm.swap _ _ _), sibling⟩

/-- A taken path was open, and the others still are. -/
theorem takeRemoved_eq_some {contentHash : Str} {targetPath taken : Path} {removed others : RemovedPaths}
    (found : takeRemovedPathForDirectory contentHash targetPath removed = some (taken, others)) :
    (openPaths removed).Perm ((contentHash, taken) :: openPaths others) ∧ taken.parent = targetPath.parent := by
  induction removed generalizing others with
  | nil => cases found
  | cons entry rest ih =>
    obtain ⟨hash, candidates⟩ := entry
    rw [takeRemovedPathForDirectory] at found
    split at found
    · rename_i same
      obtain rfl : hash = contentHash := same
      obtain ⟨⟨chosen, left⟩, inside, equal⟩ := Option.map_eq_some_iff.mp found
      obtain ⟨rfl, rfl⟩ := Prod.mk.inj equal
      obtain ⟨shuffled, sibling⟩ := takeCandidate_eq_some inside
      refine ⟨?_, sibling⟩
      have kept : openPaths (if left.isEmpty then rest else (hash, left) :: rest) =
          left.map (fun path => (hash, path)) ++ openPaths rest := by
        split
        · rename_i none
          rw [List.isEmpty_iff.mp none]
          rfl
        · rfl
      rw [openPaths_cons, kept]
      exact (shuffled.map _).append_right _
    · obtain ⟨⟨chosen, left⟩, later, equal⟩ := Option.map_eq_some_iff.mp found
      obtain ⟨rfl, rfl⟩ := Prod.mk.inj equal
      obtain ⟨shuffled, sibling⟩ := ih later
      refine ⟨?_, sibling⟩
      rw [openPaths_cons, openPaths_cons]
      exact (List.Perm.append_left _ shuffled).trans List.perm_middle

theorem openPaths_arrange (order : HashOrder (Str × List Path)) (removed : RemovedPaths) :
    (openPaths (order.arrange removed)).Perm (openPaths removed) :=
  (order.perm removed).flatMap_right _

/-! ### Changes with their sources -/

section Snapshots

variable (previous current : SkillSnapshot)

def Removed (path : Path) (contentHash : Str) : Prop :=
  (previous.get? path).map SkillFileFingerprint.contentHash = some contentHash ∧ current.get? path = none

def Added (path : Path) (contentHash : Str) : Prop :=
  previous.get? path = none ∧ (current.get? path).map SkillFileFingerprint.contentHash = some contentHash

def Edited (path : Path) (contentHash : Str) : Prop :=
  (∃ before, (previous.get? path).map SkillFileFingerprint.contentHash = some before ∧ before ≠ contentHash) ∧
    (current.get? path).map SkillFileFingerprint.contentHash = some contentHash

/-- A removed file and an added one of the same directory and content. -/
structure Renames (origin path : Path) (contentHash : Str) : Prop where
  removed : Removed previous current origin contentHash
  added : Added previous current path contentHash
  sibling : origin.parent = path.parent

/-- What a change says of the snapshots, given the source of its rename. -/
def Sound (change : SkillFileChange) (source : Option Path) : Prop :=
  match change.kind, source with
  | .created, none => Added previous current change.filePath change.contentHash
  | .modified, none => Edited previous current change.filePath change.contentHash
  | .deleted, none => Removed previous current change.filePath change.contentHash
  | .approvedRename, some origin => Renames previous current origin change.filePath change.contentHash ∧
      isPendingFile origin = true ∧ isActiveSkillFile change.filePath = true
  | .rejectedRename, some origin => Renames previous current origin change.filePath change.contentHash ∧
      isPendingFile origin = true ∧ isRejectedFile change.filePath = true
  | .retiredRename, some origin => Renames previous current origin change.filePath change.contentHash ∧
      isActiveSkillFile origin = true ∧ isRetiredFile change.filePath = true
  | _, _ => False

end Snapshots

abbrev Accounted := List (SkillFileChange × Option Path)

def mentionedBy (entry : SkillFileChange × Option Path) : List Path := entry.1.filePath :: entry.2.toList

/-- The paths that the changes are about. -/
def mentions (accounted : Accounted) : List Path := accounted.flatMap mentionedBy

theorem mentions_append (accounted more : Accounted) : mentions (accounted ++ more) = mentions accounted ++ mentions more :=
  List.flatMap_append

/-! ### The books of the loops -/

def openIn (state : DiffState) : List Path :=
  (openPaths state.removedPending).map Prod.snd ++ (openPaths state.removedActive).map Prod.snd

/-- The recorded changes with their sources, and the files that have been handled: each is mentioned by one
change or is still open. -/
structure Books (previous current : SkillSnapshot) (state : DiffState) (accounted : Accounted) (handled : List Path) :
    Prop where
  changes : accounted.map Prod.fst = state.changes
  sound : ∀ entry ∈ accounted, Sound previous current entry.1 entry.2
  pending : ∀ found ∈ openPaths state.removedPending, Removed previous current found.2 found.1 ∧
    isPendingFile found.2 = true
  active : ∀ found ∈ openPaths state.removedActive, Removed previous current found.2 found.1 ∧
    isActiveSkillFile found.2 = true
  balanced : (mentions accounted ++ openIn state).Perm handled

section Steps

variable {previous current : SkillSnapshot} {index : List (Path × (Str × ScopeType))} {state : DiffState}
  {accounted : Accounted} {handled : List Path}

theorem push_of_covered {path : Path} {scope : Str × ScopeType} (covered : scopeForPath path index = some scope)
    (state : DiffState) (kind : SkillFileChangeKind) (source : FileChangeSource) (contentHash : Str) :
    state.push index path kind source contentHash =
      ⟨state.changes ++ [buildChange scope path kind source contentHash], state.removedPending, state.removedActive⟩ := by
  rw [DiffState.push, covered]

theorem Books.start : Books previous current ⟨[], [], []⟩ [] [] where
  changes := rfl
  sound := List.forall_mem_nil _
  pending := List.forall_mem_nil _
  active := List.forall_mem_nil _
  balanced := List.Perm.refl _

theorem Books.perm (books : Books previous current state accounted handled) {others : List Path}
    (shuffled : handled.Perm others) : Books previous current state accounted others :=
  { books with balanced := books.balanced.trans shuffled }

/-- A change without a source handles its own file. -/
theorem Books.push (books : Books previous current state accounted handled) {path : Path}
    (covered : (scopeForPath path index).isSome = true) {kind : SkillFileChangeKind} {source : FileChangeSource}
    {contentHash : Str} (sound : ∀ scope, Sound previous current (buildChange scope path kind source contentHash) none) :
    ∃ more, Books previous current (state.push index path kind source contentHash) more (path :: handled) := by
  obtain ⟨scope, found⟩ := Option.isSome_iff_exists.mp covered
  rw [push_of_covered found]
  refine ⟨accounted ++ [(buildChange scope path kind source contentHash, none)], ?_, ?_, books.pending, books.active, ?_⟩
  · rw [List.map_append, books.changes]
    rfl
  · intro entry member
    rcases List.mem_append.mp member with before | last
    · exact books.sound entry before
    · obtain rfl := List.mem_singleton.mp last
      exact sound scope
  · rw [mentions_append, List.append_assoc]
    exact (List.perm_middle).trans (books.balanced.cons path)

/-- A rename handles its own file and closes its source. -/
theorem Books.rename (books : Books previous current state accounted handled) {path taken : Path}
    (covered : (scopeForPath path index).isSome = true) {kind : SkillFileChangeKind} {source : FileChangeSource}
    {contentHash : Str} {pending active : RemovedPaths}
    (closed : (openIn state).Perm (taken :: openIn ⟨state.changes, pending, active⟩))
    (fewerPending : ∀ found ∈ openPaths pending, found ∈ openPaths state.removedPending)
    (fewerActive : ∀ found ∈ openPaths active, found ∈ openPaths state.removedActive)
    (sound : ∀ scope, Sound previous current (buildChange scope path kind source contentHash) (some taken)) :
    ∃ more, Books previous current
      ((⟨state.changes, pending, active⟩ : DiffState).push index path kind source contentHash) more (path :: handled) := by
  obtain ⟨scope, found⟩ := Option.isSome_iff_exists.mp covered
  rw [push_of_covered found]
  refine ⟨accounted ++ [(buildChange scope path kind source contentHash, some taken)], ?_, ?_,
    fun found member => books.pending found (fewerPending found member),
    fun found member => books.active found (fewerActive found member), ?_⟩
  · rw [List.map_append, books.changes]
    rfl
  · intro entry member
    rcases List.mem_append.mp member with before | last
    · exact books.sound entry before
    · obtain rfl := List.mem_singleton.mp last
      exact sound scope
  · rw [mentions_append, List.append_assoc]
    have shuffled : (mentions accounted ++ (path :: taken :: openIn ⟨state.changes, pending, active⟩)).Perm
        (path :: (mentions accounted ++ openIn state)) :=
      List.perm_middle.trans ((List.Perm.append_left _ closed.symm).cons path)
    exact shuffled.trans (books.balanced.cons path)

theorem Books.pushPending (books : Books previous current state accounted handled) {path : Path} {contentHash : Str}
    (removed : Removed previous current path contentHash) (named : isPendingFile path = true) :
    Books previous current { state with removedPending := pushRemovedPath state.removedPending contentHash path }
      accounted (path :: handled) where
  changes := books.changes
  sound := books.sound
  pending found member := by
    rcases List.mem_cons.mp ((openPaths_push _ _ _).subset member) with rfl | before
    · exact ⟨removed, named⟩
    · exact books.pending found before
  active := books.active
  balanced := by
    have opened : (openIn { state with removedPending := pushRemovedPath state.removedPending contentHash path }).Perm
        (path :: openIn state) := ((openPaths_push state.removedPending contentHash path).map Prod.snd).append_right _
    exact ((List.Perm.append_left _ opened).trans List.perm_middle).trans (books.balanced.cons path)

theorem Books.pushActive (books : Books previous current state accounted handled) {path : Path} {contentHash : Str}
    (removed : Removed previous current path contentHash) (named : isActiveSkillFile path = true) :
    Books previous current { state with removedActive := pushRemovedPath state.removedActive contentHash path }
      accounted (path :: handled) where
  changes := books.changes
  sound := books.sound
  pending := books.pending
  active found member := by
    rcases List.mem_cons.mp ((openPaths_push _ _ _).subset member) with rfl | before
    · exact ⟨removed, named⟩
    · exact books.active found before
  balanced := by
    have opened : (openIn { state with removedActive := pushRemovedPath state.removedActive contentHash path }).Perm
        (path :: openIn state) :=
      (((openPaths_push state.removedActive contentHash path).map Prod.snd).append_left _).trans List.perm_middle
    exact ((List.Perm.append_left _ opened).trans List.perm_middle).trans (books.balanced.cons path)

theorem Books.takePending (books : Books previous current state accounted handled) {path taken : Path}
    {contentHash : Str} {others : RemovedPaths} (covered : (scopeForPath path index).isSome = true)
    (found : takeRemovedPathForDirectory contentHash path state.removedPending = some (taken, others))
    (added : Added previous current path contentHash) {kind : SkillFileChangeKind} {source : FileChangeSource}
    (sound : ∀ scope, Renames previous current taken path contentHash → isPendingFile taken = true →
      Sound previous current (buildChange scope path kind source contentHash) (some taken)) :
    ∃ more, Books previous current
      (({ state with removedPending := others } : DiffState).push index path kind source contentHash) more
      (path :: handled) := by
  obtain ⟨shuffled, sibling⟩ := takeRemoved_eq_some found
  obtain ⟨removed, named⟩ := books.pending _ (shuffled.symm.subset List.mem_cons_self)
  refine books.rename covered ?_ (fun remaining member => shuffled.symm.subset (List.mem_cons_of_mem _ member))
    (fun _ member => member) fun scope => sound scope ⟨removed, added, sibling⟩ named
  exact (shuffled.map Prod.snd).append_right _

theorem Books.takeActive (books : Books previous current state accounted handled) {path taken : Path}
    {contentHash : Str} {others : RemovedPaths} (covered : (scopeForPath path index).isSome = true)
    (found : takeRemovedPathForDirectory contentHash path state.removedActive = some (taken, others))
    (added : Added previous current path contentHash) {kind : SkillFileChangeKind} {source : FileChangeSource}
    (sound : ∀ scope, Renames previous current taken path contentHash → isActiveSkillFile taken = true →
      Sound previous current (buildChange scope path kind source contentHash) (some taken)) :
    ∃ more, Books previous current
      (({ state with removedActive := others } : DiffState).push index path kind source contentHash) more
      (path :: handled) := by
  obtain ⟨shuffled, sibling⟩ := takeRemoved_eq_some found
  obtain ⟨removed, named⟩ := books.active _ (shuffled.symm.subset List.mem_cons_self)
  refine books.rename covered ?_ (fun _ member => member)
    (fun remaining member => shuffled.symm.subset (List.mem_cons_of_mem _ member))
    fun scope => sound scope ⟨removed, added, sibling⟩ named
  exact (((shuffled.map Prod.snd).append_left _).trans List.perm_middle)

/-- Whether the pass over the previous snapshot has something to record for a file. -/
def vanishes (current : SkillSnapshot) (entry : Path × SkillFileFingerprint) : Bool := (current.get? entry.1).isNone

/-- A removed file is recorded as deleted or kept open. -/
theorem Books.visitPrevious (books : Books previous current state accounted handled)
    {entry : Path × SkillFileFingerprint} (member : entry ∈ previous.entries)
    (covered : (scopeForPath entry.1 index).isSome = true) :
    ∃ more, Books previous current (visitPrevious index current state entry) more
      (if vanishes current entry then entry.1 :: handled else handled) := by
  rw [GraphBuilder.visitPrevious, vanishes]
  cases after : current.get? entry.1 with
  | some fingerprint => exact ⟨accounted, books⟩
  | none =>
    have removed : Removed previous current entry.1 entry.2.contentHash := by
      refine ⟨?_, after⟩
      rw [SkillSnapshot.get?_eq_some.mpr member]
      rfl
    simp only [Option.isSome_none, Option.isNone_none, Bool.false_eq_true, ↓reduceIte]
    split
    · rename_i named
      exact ⟨accounted, books.pushPending removed named⟩
    · split
      · rename_i named
        exact ⟨accounted, books.pushActive removed named⟩
      · exact books.push covered fun scope => removed

/-- An added file is recorded as created or as the target of a rename. -/
theorem Books.visitAdded (books : Books previous current state accounted handled) {path : Path} {contentHash : Str}
    (covered : (scopeForPath path index).isSome = true) (added : Added previous current path contentHash) :
    ∃ more, Books previous current (visitAdded index state path contentHash) more (path :: handled) := by
  rw [GraphBuilder.visitAdded]
  split
  · rename_i taken found
    split at found
    · rename_i named
      exact books.takePending covered found added fun scope renames pending => ⟨renames, pending, named⟩
    · cases found
  · split
    · rename_i taken found
      split at found
      · rename_i named
        exact books.takePending covered found added fun scope renames pending => ⟨renames, pending, named⟩
      · cases found
    · split
      · rename_i taken found
        split at found
        · rename_i named
          exact books.takeActive covered found added fun scope renames active => ⟨renames, active, named⟩
        · cases found
      · exact books.push covered fun scope => added

/-- Whether the pass over the current snapshot has something to record for a file. -/
def touches (previous : SkillSnapshot) (entry : Path × SkillFileFingerprint) : Bool :=
  decide ((previous.get? entry.1).map SkillFileFingerprint.contentHash ≠ some entry.2.contentHash)

theorem Books.visitCurrent (books : Books previous current state accounted handled)
    {entry : Path × SkillFileFingerprint} (member : entry ∈ current.entries)
    (covered : (scopeForPath entry.1 index).isSome = true) :
    ∃ more, Books previous current (visitCurrent index previous state entry) more
      (if touches previous entry then entry.1 :: handled else handled) := by
  have present : (current.get? entry.1).map SkillFileFingerprint.contentHash = some entry.2.contentHash := by
    rw [SkillSnapshot.get?_eq_some.mpr member]
    rfl
  rw [GraphBuilder.visitCurrent, touches]
  cases before : previous.get? entry.1 with
  | none =>
    rw [if_pos (by simp)]
    exact books.visitAdded covered ⟨before, present⟩
  | some fingerprint =>
    dsimp only
    split
    · rename_i different
      rw [if_pos (by simpa using different)]
      refine books.push covered fun scope => ⟨⟨fingerprint.contentHash, ?_, different⟩, present⟩
      change (previous.get? entry.1).map _ = _
      rw [before]
      rfl
    · rename_i same
      rw [if_neg (by simpa using same)]
      exact ⟨accounted, books⟩

/-- A loop whose steps handle the entries of a kind handles all of that kind. -/
theorem Books.foldl (step : DiffState → Path × SkillFileFingerprint → DiffState)
    (handles : Path × SkillFileFingerprint → Bool) {entries : List (Path × SkillFileFingerprint)}
    (each : ∀ state accounted handled entry, entry ∈ entries → Books previous current state accounted handled →
      ∃ more, Books previous current (step state entry) more (if handles entry then entry.1 :: handled else handled))
    (books : Books previous current state accounted handled) :
    ∃ more, Books previous current (entries.foldl step state) more
      ((entries.filter handles).map Prod.fst ++ handled) := by
  induction entries generalizing state accounted handled with
  | nil => exact ⟨accounted, books⟩
  | cons entry rest ih =>
    obtain ⟨next, stepped⟩ := each state accounted handled entry List.mem_cons_self books
    obtain ⟨more, finished⟩ := ih (fun state accounted handled other member =>
      each state accounted handled other (List.mem_cons_of_mem _ member)) stepped
    refine ⟨more, finished.perm ?_⟩
    cases kind : handles entry with
    | true =>
      rw [if_pos rfl, List.filter_cons_of_pos kind]
      exact List.perm_middle
    | false =>
      rw [if_neg (by simp), List.filter_cons_of_neg (by simp [kind])]

end Steps

/-! ### The whole difference -/

/-- Removed files left over, each with its deletion. -/
theorem deleteRemaining_eq (index : List (Path × (Str × ScopeType))) (source : FileChangeSource) (removed : RemovedPaths)
    (state : DiffState) :
    deleteRemaining index source removed state =
      (openPaths removed).foldl (fun state found => state.push index found.2 .deleted source found.1) state := by
  rw [deleteRemaining, openPaths, List.foldl_flatMap]
  simp only [List.foldl_map]

theorem deleteRemaining_changes {index : List (Path × (Str × ScopeType))} {previous current : SkillSnapshot}
    (source : FileChangeSource) (found : List (Str × Path))
    (removed : ∀ each ∈ found, Removed previous current each.2 each.1)
    (covered : ∀ each ∈ found, (scopeForPath each.2 index).isSome = true) (state : DiffState) :
    ∃ more : Accounted,
      (found.foldl (fun state each => state.push index each.2 .deleted source each.1) state).changes =
        state.changes ++ more.map Prod.fst ∧
      (∀ entry ∈ more, Sound previous current entry.1 entry.2) ∧ mentions more = found.map Prod.snd := by
  induction found generalizing state with
  | nil => exact ⟨[], (List.append_nil _).symm, List.forall_mem_nil _, rfl⟩
  | cons each rest ih =>
    obtain ⟨gone, later⟩ := List.forall_mem_cons.mp removed
    obtain ⟨here, others⟩ := List.forall_mem_cons.mp covered
    obtain ⟨scope, inScope⟩ := Option.isSome_iff_exists.mp here
    obtain ⟨more, changes, sound, mentioned⟩ := ih later others (state.push index each.2 .deleted source each.1)
    refine ⟨(buildChange scope each.2 .deleted source each.1, none) :: more, ?_, ?_, ?_⟩
    · rw [List.foldl_cons, changes, push_of_covered inScope, List.append_assoc]
      rfl
    · exact List.forall_mem_cons.mpr ⟨gone, sound⟩
    · rw [List.map_cons, ← mentioned]
      rfl

/-- Every file of the snapshot lies under a configured root. -/
def Covered (scopes : List ScopeRoot) (snapshot : SkillSnapshot) : Prop :=
  ∀ path ∈ snapshot.paths, ∃ scope ∈ scopes, path.startsWith scope.root = true

theorem mem_insertFingerprints {found : List (Path × SkillFileFingerprint)} {path : Path}
    (member : path ∈ (found.foldl insertFingerprint []).map Prod.fst) : path ∈ found.map Prod.fst := by
  have kept (entries : List (Path × SkillFileFingerprint))
      (inside : path ∈ (found.foldl insertFingerprint entries).map Prod.fst) :
      path ∈ entries.map Prod.fst ∨ path ∈ found.map Prod.fst := by
    clear member
    induction found generalizing entries with
    | nil => exact .inl inside
    | cons entry rest ih =>
      rw [List.map_cons, List.mem_cons]
      rcases ih (insertFingerprint entries entry) inside with before | later
      · rcases mem_keys_upsert.mp before with new | known
        · exact .inr (.inl new)
        · exact .inl known
      · exact .inr (.inr later)
  exact (kept [] member).resolve_left List.not_mem_nil

theorem mem_fingerprintOf {hash : List UInt8 → Str} {scope : ScopeRoot} {entry : Path × Entry}
    {more : List (Path × SkillFileFingerprint)} (taken : fingerprintOf hash scope entry = .ok more) :
    ∀ found ∈ more, found.1 = entry.1 := by
  rw [fingerprintOf] at taken
  split at taken
  · cases taken
  · split at taken
    · split at taken
      · cases taken
      · obtain rfl := Except.ok.inj taken
        exact List.forall_mem_singleton.mpr rfl
    · obtain rfl := Except.ok.inj taken
      exact List.forall_mem_nil _
  · obtain rfl := Except.ok.inj taken
    exact List.forall_mem_nil _

/-- A scan finds only files below the scope roots. -/
theorem buildSnapshot_covered {hash : List UInt8 → Str} {scopes : List ScopeRoot} {tree : FileTree}
    {snapshot : SkillSnapshot} (built : buildSnapshot hash scopes tree = .ok snapshot) : Covered scopes snapshot := by
  intro path member
  obtain ⟨found, walked, rfl⟩ : ∃ found, collectWalks scopes tree missingWalkRoot (fingerprintOf hash) = .ok found ∧
      snapshotOf found = snapshot := by
    rw [buildSnapshot] at built
    cases walked : collectWalks scopes tree missingWalkRoot (fingerprintOf hash) with
    | error error =>
      rw [walked] at built
      cases built
    | ok found =>
      rw [walked] at built
      exact ⟨found, rfl, Except.ok.inj built⟩
  obtain ⟨entry, kept, rfl⟩ := List.mem_map.mp
    (mem_insertFingerprints (((List.perm_insertionSort _ _).map Prod.fst).subset member))
  rw [(collectWalks_eq_ok walked).2] at kept
  obtain ⟨scope, inScopes, below⟩ := List.mem_flatMap.mp kept
  obtain ⟨visitedEntry, inWalk, yields⟩ := List.mem_flatMap.mp below
  have under := (Bool.and_eq_true_iff.mp (reached_of_visited (mem_walk.mp inWalk).2)).1
  obtain ⟨more, taken⟩ := ((collectWalks_eq_ok walked).1 scope inScopes).2 visitedEntry inWalk
  rw [yielded, taken] at yields
  rw [← mem_fingerprintOf taken entry yields] at under
  exact ⟨scope, inScopes, under⟩

theorem mem_roots_scopeIndex {scopes : List ScopeRoot} {root : Path} :
    root ∈ (scopeIndex scopes).map Prod.fst ↔ ∃ scope ∈ scopes, scope.root = root := by
  have collected (index : List (Path × (Str × ScopeType))) :
      root ∈ (scopes.foldl (fun index scope =>
        upsert scope.root (scope.scopeId, scope.scopeType) (fun _ => (scope.scopeId, scope.scopeType)) index)
          index).map Prod.fst ↔ root ∈ index.map Prod.fst ∨ ∃ scope ∈ scopes, scope.root = root := by
    induction scopes generalizing index with
    | nil => simp
    | cons scope rest ih =>
      rw [List.foldl_cons, ih, mem_keys_upsert]
      simp only [List.mem_cons, exists_eq_or_imp]
      constructor
      · rintro ((rfl | known) | later)
        · exact .inr (.inl rfl)
        · exact .inl known
        · exact .inr (.inr later)
      · rintro (known | rfl | later)
        · exact .inl (.inr known)
        · exact .inl (.inl rfl)
        · exact .inr later
  exact (collected []).trans (or_iff_right (List.not_mem_nil))

theorem scopeForPath_isSome {scopes : List ScopeRoot} (order : HashOrder (Path × (Str × ScopeType))) {path : Path}
    (covered : ∃ scope ∈ scopes, path.startsWith scope.root = true) :
    (scopeForPath path (order.arrange (scopeIndex scopes))).isSome = true := by
  obtain ⟨scope, member, under⟩ := covered
  obtain ⟨entry, inIndex, same⟩ := List.mem_map.mp (mem_roots_scopeIndex.mpr ⟨scope, member, rfl⟩)
  rw [scopeForPath, List.findSome?_isSome_iff]
  refine ⟨entry, (order.perm _).mem_iff.mpr inIndex, ?_⟩
  rw [same, if_pos under]
  rfl

/-! ### What every recorded change is -/

section Recorded

variable {index : List (Path × (Str × ScopeType))} {previous current : SkillSnapshot} {state : DiffState}
  {holds : SkillFileChange → Prop}

/-- What holds of every change that can be built for a path and its scope. -/
def HoldsOfBuilt (index : List (Path × (Str × ScopeType))) (holds : SkillFileChange → Prop) : Prop :=
  ∀ path scope kind source contentHash, scopeForPath path index = some scope →
    holds (buildChange scope path kind source contentHash)

theorem forall_push (state : DiffState) (built : HoldsOfBuilt index holds)
    (before : ∀ change ∈ state.changes, holds change) (path : Path) (kind : SkillFileChangeKind)
    (source : FileChangeSource) (contentHash : Str) :
    ∀ change ∈ (state.push index path kind source contentHash).changes, holds change := by
  rw [DiffState.push]
  cases found : scopeForPath path index with
  | none => exact before
  | some scope =>
    intro change member
    rcases List.mem_append.mp member with earlier | last
    · exact before change earlier
    · obtain rfl := List.mem_singleton.mp last
      exact built path scope kind source contentHash found

theorem forall_visitPrevious (built : HoldsOfBuilt index holds) (entry : Path × SkillFileFingerprint)
    (before : ∀ change ∈ state.changes, holds change) :
    ∀ change ∈ (visitPrevious index current state entry).changes, holds change := by
  rw [visitPrevious]
  split
  · exact before
  · split
    · exact before
    · split
      · exact before
      · exact forall_push state built before _ _ _ _

theorem forall_visitAdded (built : HoldsOfBuilt index holds) (path : Path) (contentHash : Str)
    (before : ∀ change ∈ state.changes, holds change) :
    ∀ change ∈ (visitAdded index state path contentHash).changes, holds change := by
  have taken (pending active : RemovedPaths) (kind : SkillFileChangeKind) (source : FileChangeSource) :
      ∀ change ∈ ((⟨state.changes, pending, active⟩ : DiffState).push index path kind source contentHash).changes,
        holds change :=
    forall_push ⟨state.changes, pending, active⟩ built before _ _ _ _
  rw [visitAdded]
  split
  · exact taken _ _ _ _
  · split
    · exact taken _ _ _ _
    · split
      · exact taken _ _ _ _
      · exact forall_push state built before _ _ _ _

theorem forall_visitCurrent (built : HoldsOfBuilt index holds) (entry : Path × SkillFileFingerprint)
    (before : ∀ change ∈ state.changes, holds change) :
    ∀ change ∈ (visitCurrent index previous state entry).changes, holds change := by
  rw [visitCurrent]
  split
  · exact forall_visitAdded built _ _ before
  · split
    · exact forall_push state built before _ _ _ _
    · exact before

theorem forall_foldl {Item : Type} {step : DiffState → Item → DiffState}
    (each : ∀ state item, (∀ change ∈ state.changes, holds change) →
      ∀ change ∈ (step state item).changes, holds change)
    (items : List Item) (before : ∀ change ∈ state.changes, holds change) :
    ∀ change ∈ (items.foldl step state).changes, holds change := by
  induction items generalizing state with
  | nil => exact before
  | cons item rest ih => exact ih (each state item before)

theorem forall_deleteRemaining (built : HoldsOfBuilt index holds) (source : FileChangeSource) (removed : RemovedPaths)
    (before : ∀ change ∈ state.changes, holds change) :
    ∀ change ∈ (deleteRemaining index source removed state).changes, holds change := by
  rw [deleteRemaining_eq]
  exact forall_foldl (fun _ _ earlier => forall_push _ built earlier _ _ _ _) _ before

theorem forall_diffSkillSnapshots {orders : DiffOrders} {scopes : List ScopeRoot} {previous current : SkillSnapshot}
    (built : HoldsOfBuilt (orders.scopes.arrange (scopeIndex scopes)) holds) :
    ∀ change ∈ diffSkillSnapshots orders scopes previous current, holds change := by
  intro change member
  have unsorted := (List.perm_insertionSort _ _).subset member
  refine forall_deleteRemaining built _ _ (forall_deleteRemaining built _ _ ?_) change unsorted
  exact forall_foldl (fun _ entry => forall_visitCurrent built entry) _
    (forall_foldl (fun _ entry => forall_visitPrevious built entry) _ (List.forall_mem_nil _))

end Recorded

/-! ### The patch -/

section Patch

variable (previous current : SkillSnapshot)

def removedFiles : List Path := (previous.entries.filter (vanishes current)).map Prod.fst

def touchedFiles : List Path := (current.entries.filter (touches previous)).map Prod.fst

theorem deleteRemaining_open {index : List (Path × (Str × ScopeType))} (source : FileChangeSource)
    (order : HashOrder (Str × List Path)) {removed : RemovedPaths}
    (gone : ∀ found ∈ openPaths removed, Removed previous current found.2 found.1)
    (covered : ∀ path ∈ previous.paths, (scopeForPath path index).isSome = true) (state : DiffState) :
    ∃ more : Accounted,
      (deleteRemaining index source (order.arrange removed) state).changes = state.changes ++ more.map Prod.fst ∧
      (∀ entry ∈ more, Sound previous current entry.1 entry.2) ∧
      (mentions more).Perm ((openPaths removed).map Prod.snd) := by
  have arranged := openPaths_arrange order removed
  have each (found : Str × Path) (member : found ∈ openPaths (order.arrange removed)) :
      Removed previous current found.2 found.1 := gone found (arranged.subset member)
  have inScope (found : Str × Path) (member : found ∈ openPaths (order.arrange removed)) :
      (scopeForPath found.2 index).isSome = true := by
    obtain ⟨fingerprint, present, _⟩ := Option.map_eq_some_iff.mp (each found member).1
    exact covered found.2 (SkillSnapshot.mem_paths.mpr ⟨fingerprint, present⟩)
  obtain ⟨more, changes, sound, mentioned⟩ := deleteRemaining_changes source _ each inScope state
  refine ⟨more, ?_, sound, ?_⟩
  · rw [deleteRemaining_eq, changes]
  · rw [mentioned]
    exact arranged.map Prod.snd

/-- The changes with their sources, over the files that were touched or removed. -/
theorem diffSkillSnapshots_accounted (orders : DiffOrders) {scopes : List ScopeRoot}
    (coveredPrevious : Covered scopes previous) (coveredCurrent : Covered scopes current) :
    ∃ accounted : Accounted, accounted.map Prod.fst = diffSkillSnapshots orders scopes previous current ∧
      (∀ entry ∈ accounted, Sound previous current entry.1 entry.2) ∧
      (mentions accounted).Perm (touchedFiles previous current ++ removedFiles previous current) := by
  have inScope (snapshot : SkillSnapshot) (covered : Covered scopes snapshot) (path : Path)
      (member : path ∈ snapshot.paths) :
      (scopeForPath path (orders.scopes.arrange (scopeIndex scopes))).isSome = true :=
    scopeForPath_isSome orders.scopes (covered path member)
  rw [diffSkillSnapshots]
  generalize orders.scopes.arrange (scopeIndex scopes) = index at inScope
  have start : Books previous current ⟨[], [], []⟩ [] [] := Books.start
  obtain ⟨first, removed⟩ := start.foldl (visitPrevious index current) (vanishes current) fun _ _ _ _ member books =>
    books.visitPrevious member (inScope previous coveredPrevious _ (List.mem_map_of_mem member))
  obtain ⟨second, visited⟩ := removed.foldl (visitCurrent index previous) (touches previous) fun _ _ _ _ member books =>
    books.visitCurrent member (inScope current coveredCurrent _ (List.mem_map_of_mem member))
  generalize current.entries.foldl (visitCurrent index previous) _ = state at visited
  obtain ⟨pending, pendingChanges, pendingSound, pendingMentions⟩ := deleteRemaining_open previous current
    .pendingApproval orders.pending (fun found member => (visited.pending found member).1)
    (inScope previous coveredPrevious) state
  obtain ⟨active, activeChanges, activeSound, activeMentions⟩ := deleteRemaining_open previous current
    .direct orders.active (fun found member => (visited.active found member).1)
    (inScope previous coveredPrevious)
    (deleteRemaining index .pendingApproval (orders.pending.arrange state.removedPending) state)
  let all := second ++ (pending ++ active)
  have recorded : all.map Prod.fst = (deleteRemaining index .direct (orders.active.arrange state.removedActive)
      (deleteRemaining index .pendingApproval (orders.pending.arrange state.removedPending) state)).changes := by
    rw [activeChanges, pendingChanges, List.map_append, List.map_append, visited.changes, List.append_assoc]
  refine ⟨all.insertionSort fun left right => Str.le left.1.idempotencyKey right.1.idempotencyKey = true, ?_, ?_, ?_⟩
  · have sorted : (all.insertionSort fun left right =>
        Str.le left.1.idempotencyKey right.1.idempotencyKey = true).map Prod.fst = sortByKey (all.map Prod.fst) :=
      List.map_insertionSort _ _ Prod.fst all fun _ _ _ _ => Iff.rfl
    rw [sorted, recorded]
  · intro entry member
    rcases List.mem_append.mp ((List.perm_insertionSort _ _).subset member) with inside | left
    · exact visited.sound entry inside
    · rcases List.mem_append.mp left with inside | inside
      · exact pendingSound entry inside
      · exact activeSound entry inside
  · have shuffled : (mentions (all.insertionSort fun left right =>
        Str.le left.1.idempotencyKey right.1.idempotencyKey = true)).Perm (mentions all) :=
      (List.perm_insertionSort _ _).flatMap_right _
    have opened : (mentions (pending ++ active)).Perm (openIn state) := by
      rw [mentions_append]
      exact pendingMentions.append activeMentions
    rw [mentions_append] at shuffled
    rw [List.append_nil] at visited
    exact shuffled.trans ((opened.append_left _).trans visited.balanced)

/-- The two snapshots have different contents for the path, or only one of them has the path. -/
def Differs (path : Path) : Prop :=
  (previous.get? path).map SkillFileFingerprint.contentHash ≠ (current.get? path).map SkillFileFingerprint.contentHash

variable {previous current}

theorem mem_removedFiles {path : Path} :
    path ∈ removedFiles previous current ↔ path ∈ previous.paths ∧ current.get? path = none := by
  simp only [removedFiles, SkillSnapshot.paths, List.mem_map, List.mem_filter, vanishes, Option.isNone_iff_eq_none]
  constructor
  · rintro ⟨entry, ⟨member, gone⟩, rfl⟩
    exact ⟨⟨entry, member, rfl⟩, gone⟩
  · rintro ⟨⟨entry, member, rfl⟩, gone⟩
    exact ⟨entry, ⟨member, gone⟩, rfl⟩

theorem mem_touchedFiles {path : Path} :
    path ∈ touchedFiles previous current ↔ path ∈ current.paths ∧ Differs previous current path := by
  simp only [touchedFiles, SkillSnapshot.paths, List.mem_map, List.mem_filter, touches, decide_eq_true_eq, Differs]
  have present {entry : Path × SkillFileFingerprint} (member : entry ∈ current.entries) :
      (current.get? entry.1).map SkillFileFingerprint.contentHash = some entry.2.contentHash := by
    rw [SkillSnapshot.get?_eq_some.mpr member]
    rfl
  constructor
  · rintro ⟨entry, ⟨member, differs⟩, rfl⟩
    rw [present member]
    exact ⟨⟨entry, member, rfl⟩, differs⟩
  · rintro ⟨⟨entry, member, rfl⟩, differs⟩
    rw [present member] at differs
    exact ⟨entry, ⟨member, differs⟩, rfl⟩

theorem SkillSnapshot.not_mem_paths {snapshot : SkillSnapshot} {path : Path} :
    path ∉ snapshot.paths ↔ snapshot.get? path = none := by
  rw [SkillSnapshot.mem_paths, Option.eq_none_iff_forall_ne_some, not_exists]

theorem mem_touched_or_removed {path : Path} :
    path ∈ touchedFiles previous current ++ removedFiles previous current ↔ Differs previous current path := by
  rw [List.mem_append, mem_touchedFiles, mem_removedFiles]
  constructor
  · rintro (⟨_, differs⟩ | ⟨before, gone⟩)
    · exact differs
    · obtain ⟨fingerprint, present⟩ := SkillSnapshot.mem_paths.mp before
      rw [Differs, present, gone]
      exact Option.some_ne_none _
  · intro differs
    by_cases after : path ∈ current.paths
    · exact .inl ⟨after, differs⟩
    · have gone := SkillSnapshot.not_mem_paths.mp after
      refine .inr ⟨?_, gone⟩
      by_contra before
      rw [Differs, SkillSnapshot.not_mem_paths.mp before, gone] at differs
      exact differs rfl

theorem nodup_touched_removed : (touchedFiles previous current ++ removedFiles previous current).Nodup := by
  have touched : (touchedFiles previous current).Nodup := current.nodup.sublist (List.filter_sublist.map _)
  have removed : (removedFiles previous current).Nodup := previous.nodup.sublist (List.filter_sublist.map _)
  refine touched.append removed fun path here there => ?_
  exact SkillSnapshot.not_mem_paths.mpr (mem_removedFiles.mp there).2 (mem_touchedFiles.mp here).1

/-! ### Applying the changes -/

/-- The files after a change: a rename removes its source. -/
def applyChange (paths : Set Path) (entry : SkillFileChange × Option Path) : Set Path :=
  match entry.1.kind with
  | .created => insert entry.1.filePath paths
  | .modified => paths
  | .deleted => paths \ {entry.1.filePath}
  | _ => insert entry.1.filePath (paths \ {path | path ∈ entry.2})

theorem Added.mem {path : Path} {contentHash : Str} (added : Added previous current path contentHash) :
    path ∉ previous.paths ∧ path ∈ current.paths := by
  obtain ⟨fingerprint, present, _⟩ := Option.map_eq_some_iff.mp added.2
  exact ⟨SkillSnapshot.not_mem_paths.mpr added.1, SkillSnapshot.mem_paths.mpr ⟨fingerprint, present⟩⟩

theorem Removed.mem {path : Path} {contentHash : Str} (removed : Removed previous current path contentHash) :
    path ∈ previous.paths ∧ path ∉ current.paths := by
  obtain ⟨fingerprint, present, _⟩ := Option.map_eq_some_iff.mp removed.1
  exact ⟨SkillSnapshot.mem_paths.mpr ⟨fingerprint, present⟩, SkillSnapshot.not_mem_paths.mpr removed.2⟩

theorem Edited.mem {path : Path} {contentHash : Str} (edited : Edited previous current path contentHash) :
    path ∈ previous.paths ∧ path ∈ current.paths := by
  obtain ⟨⟨before, old, _⟩, new⟩ := edited
  obtain ⟨fingerprint, earlier, _⟩ := Option.map_eq_some_iff.mp old
  obtain ⟨other, later, _⟩ := Option.map_eq_some_iff.mp new
  exact ⟨SkillSnapshot.mem_paths.mpr ⟨fingerprint, earlier⟩, SkillSnapshot.mem_paths.mpr ⟨other, later⟩⟩

/-- Paths that a change leaves alone, and the paths it settles. -/
structure Settles (previous current : SkillSnapshot) (paths after : Set Path) (mentioned : List Path) : Prop where
  frame : ∀ path ∉ mentioned, path ∈ after ↔ path ∈ paths
  settled : (∀ path ∈ mentioned, path ∈ paths ↔ path ∈ previous.paths) →
    ∀ path ∈ mentioned, path ∈ after ↔ path ∈ current.paths

theorem Added.settles {path : Path} {contentHash : Str} (added : Added previous current path contentHash)
    (paths : Set Path) : Settles previous current paths (insert path paths) [path] where
  frame other outside := by
    rw [List.mem_singleton] at outside
    rw [Set.mem_insert_iff, or_iff_right outside]
  settled _ other member := by
    obtain rfl := List.mem_singleton.mp member
    exact iff_of_true (Set.mem_insert _ _) added.mem.2

theorem Edited.settles {path : Path} {contentHash : Str} (edited : Edited previous current path contentHash)
    (paths : Set Path) : Settles previous current paths paths [path] where
  frame _ _ := Iff.rfl
  settled agreed other member := by
    obtain rfl := List.mem_singleton.mp member
    exact (agreed other member).trans (iff_of_true edited.mem.1 edited.mem.2)

theorem Removed.settles {path : Path} {contentHash : Str} (removed : Removed previous current path contentHash)
    (paths : Set Path) : Settles previous current paths (paths \ {path}) [path] where
  frame other outside := by
    rw [List.mem_singleton] at outside
    rw [Set.mem_sdiff, Set.mem_singleton_iff, and_iff_left outside]
  settled _ other member := by
    obtain rfl := List.mem_singleton.mp member
    exact iff_of_false (fun inside => inside.2 rfl) removed.mem.2

theorem Renames.settles {origin path : Path} {contentHash : Str} (renames : Renames previous current origin path contentHash)
    (paths : Set Path) :
    Settles previous current paths (insert path (paths \ {other | other ∈ some origin})) [path, origin] where
  frame other outside := by
    simp only [List.mem_cons, List.not_mem_nil, or_false, not_or] at outside
    have kept : other ∉ {other | other ∈ some origin} := fun same => outside.2 (Option.some.inj same).symm
    rw [Set.mem_insert_iff, or_iff_right outside.1, Set.mem_sdiff, and_iff_left kept]
  settled _ other member := by
    rcases List.mem_pair.mp member with rfl | rfl
    · exact iff_of_true (Set.mem_insert _ _) renames.added.mem.2
    · have apart : other ≠ path := fun same => renames.added.mem.1 (same ▸ renames.removed.mem.1)
      exact iff_of_false (by simp [apart]) renames.removed.mem.2

theorem Sound.settles {entry : SkillFileChange × Option Path} (sound : Sound previous current entry.1 entry.2)
    (paths : Set Path) : Settles previous current paths (applyChange paths entry) (mentionedBy entry) := by
  obtain ⟨change, source⟩ := entry
  obtain ⟨scopeId, scopeType, path, kind, origin, contentHash, key⟩ := change
  cases source with
  | none =>
    cases kind with
    | created => exact Added.settles sound paths
    | modified => exact Edited.settles sound paths
    | deleted => exact Removed.settles sound paths
    | approvedRename => exact sound.elim
    | rejectedRename => exact sound.elim
    | retiredRename => exact sound.elim
  | some taken =>
    cases kind with
    | created => exact sound.elim
    | modified => exact sound.elim
    | deleted => exact sound.elim
    | approvedRename => exact Renames.settles sound.1 paths
    | rejectedRename => exact Renames.settles sound.1 paths
    | retiredRename => exact Renames.settles sound.1 paths

/-- Changes that mention each path once settle the paths they mention. -/
theorem settles_foldl {accounted : Accounted} (once : (mentions accounted).Nodup)
    (sound : ∀ entry ∈ accounted, Sound previous current entry.1 entry.2) (paths : Set Path) :
    Settles previous current paths (accounted.foldl applyChange paths) (mentions accounted) := by
  induction accounted generalizing paths with
  | nil => exact ⟨fun _ _ => Iff.rfl, fun _ _ member => nomatch member⟩
  | cons entry rest ih =>
    obtain ⟨_, later, apart⟩ := List.nodup_append.mp (show (mentionedBy entry ++ mentions rest).Nodup from once)
    obtain ⟨here, others⟩ := List.forall_mem_cons.mp sound
    have step := here.settles paths
    have run := ih later others (applyChange paths entry)
    have split (path : Path) : path ∈ mentions (entry :: rest) ↔ path ∈ mentionedBy entry ∨ path ∈ mentions rest :=
      List.mem_append
    refine ⟨fun path outside => ?_, fun agreed path member => ?_⟩
    · obtain ⟨before, after⟩ := not_or.mp (mt (split path).mpr outside)
      exact (run.frame path after).trans (step.frame path before)
    · rcases (split path).mp member with first | second
      · have unmentioned : path ∉ mentions rest := fun again => apart path first path again rfl
        exact (run.frame path unmentioned).trans
          (step.settled (fun other inside => agreed other ((split other).mpr (.inl inside))) path first)
      · refine run.settled (fun other inside => ?_) path second
        have unmentioned : other ∉ mentionedBy entry := fun again => apart other again other inside rfl
        exact (step.frame other unmentioned).trans (agreed other ((split other).mpr (.inr inside)))

/-- The changes, each rename with its source, mention every differing path once and no other, say what happened,
and lead from the old files to the new ones. -/
structure FaithfulPatch (previous current : SkillSnapshot) (accounted : Accounted) : Prop where
  once : (mentions accounted).Nodup
  complete : ∀ path, path ∈ mentions accounted ↔ Differs previous current path
  sound : ∀ entry ∈ accounted, Sound previous current entry.1 entry.2
  patched : accounted.foldl applyChange {path | path ∈ previous.paths} = {path | path ∈ current.paths}

theorem Differs.of_paths {path : Path} (same : ¬ Differs previous current path) :
    path ∈ previous.paths ↔ path ∈ current.paths := by
  have hashes := not_not.mp same
  constructor
  · intro before
    by_contra after
    obtain ⟨fingerprint, present⟩ := SkillSnapshot.mem_paths.mp before
    rw [present, SkillSnapshot.not_mem_paths.mp after] at hashes
    exact Option.some_ne_none _ hashes
  · intro after
    by_contra before
    obtain ⟨fingerprint, present⟩ := SkillSnapshot.mem_paths.mp after
    rw [present, SkillSnapshot.not_mem_paths.mp before] at hashes
    exact Option.some_ne_none _ hashes.symm

/-- The difference of two snapshots of the scopes is a patch from the one to the other. -/
theorem diffSkillSnapshots_faithful (orders : DiffOrders) {scopes : List ScopeRoot} {previous current : SkillSnapshot}
    (coveredPrevious : Covered scopes previous) (coveredCurrent : Covered scopes current) :
    ∃ accounted : Accounted, accounted.map Prod.fst = diffSkillSnapshots orders scopes previous current ∧
      FaithfulPatch previous current accounted := by
  obtain ⟨accounted, changes, sound, balanced⟩ :=
    diffSkillSnapshots_accounted previous current orders coveredPrevious coveredCurrent
  have once : (mentions accounted).Nodup := balanced.nodup_iff.mpr nodup_touched_removed
  have complete (path : Path) : path ∈ mentions accounted ↔ Differs previous current path :=
    balanced.mem_iff.trans mem_touched_or_removed
  refine ⟨accounted, changes, once, complete, sound, Set.ext fun path => ?_⟩
  have run := settles_foldl once sound {path | path ∈ previous.paths}
  by_cases mentioned : path ∈ mentions accounted
  · exact run.settled (fun _ _ => Iff.rfl) path mentioned
  · exact (run.frame path mentioned).trans (Differs.of_paths (mt (complete path).mpr mentioned))

end Patch

def approvalScope : ScopeRoot := ⟨"work", .project, ["work"]⟩

def beforeApproval : SkillSnapshot :=
  ⟨[(["work", "one", "SKILL.md.pending"], ⟨"draft", 1⟩), (["work", "two", "SKILL.md"], ⟨"kept", 1⟩)], by decide⟩

def afterApproval : SkillSnapshot :=
  ⟨[(["work", "one", "SKILL.md"], ⟨"draft", 2⟩), (["work", "two", "SKILL.md"], ⟨"kept", 1⟩)], by decide⟩

theorem approval_faithful :
    ∃ accounted : Accounted,
      accounted.map Prod.fst = diffSkillSnapshots
        ⟨HashOrder.unchanged _, HashOrder.unchanged _, HashOrder.unchanged _⟩ [approvalScope] beforeApproval afterApproval ∧
      FaithfulPatch beforeApproval afterApproval accounted :=
  diffSkillSnapshots_faithful _ (by unfold Covered; decide) (by unfold Covered; decide)

end SkillLayer.GraphBuilder
