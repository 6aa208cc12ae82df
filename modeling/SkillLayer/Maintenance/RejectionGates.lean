import SkillLayer.Maintenance.Cleanup
import SkillLayer.SessionExtractor.Writer

/-! The two gates against a rejected proposal: the scanner's, by the age of the tombstone, and the draft writer's, by
its presence. -/

namespace SkillLayer.Maintenance

open Domain
open GraphBuilder (hasLifecycleFileName)
open SessionExtractor (PendingDraftWriter proposalDirectory rejectedTombstonePath slugifySkillName)

namespace PendingWarningScanner

variable {scanner : PendingWarningScanner} {fs other before after : Fs} {path : Path} {now : Timestamp}
  {retention : Int}

/-! ### What a visit reads -/

theorem file_of_tombstone (tombstone : isRejectedTombstone fs path = true) :
    ∃ content, fs.node path = some (.file content) := Fs.isFile_iff.mp (Bool.and_eq_true_iff.mp tombstone).1

theorem isRejectedTombstone_congr (same : fs.node path = other.node path) :
    isRejectedTombstone fs path = isRejectedTombstone other path := by
  unfold isRejectedTombstone Fs.isFile
  rw [same]

/-- The lifecycle of a file depends on this file alone. -/
theorem readLifecycle_congr (scanner : PendingWarningScanner) (same : fs.node path = other.node path)
    (parseMode : FrontmatterParseMode) :
    scanner.readLifecycle fs path now parseMode = scanner.readLifecycle other path now parseMode := by
  unfold readLifecycle modifiedAt parseFrontmatter readToString Fs.exists?
  rw [same]

/-- A tombstone whose lifecycle has reached the retention. -/
def Expired (scanner : PendingWarningScanner) (now : Timestamp) (retention : Int) (fs : Fs) (path : Path) : Prop :=
  isRejectedTombstone fs path = true ∧ ∃ lifecycle, scanner.readLifecycle fs path now .lenient = .ok lifecycle ∧
    retention ≤ tombstoneAge now lifecycle

theorem expired_congr (same : fs.node path = other.node path) :
    scanner.Expired now retention fs path ↔ scanner.Expired now retention other path := by
  unfold Expired
  rw [isRejectedTombstone_congr same, readLifecycle_congr scanner same]

theorem not_expired_of_missing (missing : fs.node path = none) : ¬ scanner.Expired now retention fs path := by
  intro expired
  obtain ⟨content, there⟩ := file_of_tombstone expired.1
  rw [missing] at there
  cases there

theorem not_expired_of_directory (isDirectory : fs.node path = some .directory) :
    ¬ scanner.Expired now retention fs path := by
  intro expired
  obtain ⟨content, there⟩ := file_of_tombstone expired.1
  rw [isDirectory] at there
  cases there

/-- A visit removes an expired tombstone, and changes nothing otherwise. -/
theorem visitTombstone_ok {out : List Path} (ran : scanner.visitTombstone now retention path before = .ok out after) :
    (scanner.Expired now retention before path ∧ out = [path] ∧ after = before.put path none) ∨
      (¬ scanner.Expired now retention before path ∧ out = [] ∧ after = before) := by
  unfold visitTombstone at ran
  cases here : before.node path with
  | none =>
    rw [here] at ran
    cases ran
    exact .inr ⟨not_expired_of_missing here, rfl, rfl⟩
  | some node =>
    rw [here] at ran
    cases node with
    | directory =>
      cases refused : scanner.traversal.unreadable path with
      | none =>
        simp only [refused] at ran
        cases ran
        exact .inr ⟨not_expired_of_directory here, rfl, rfl⟩
      | some message =>
        simp only [refused] at ran
        cases ran
    | file content =>
      dsimp only at ran
      split at ran
      · rename_i tombstone
        cases read : scanner.readLifecycle before path now .lenient with
        | error error =>
          rw [read] at ran
          cases ran
        | ok lifecycle =>
          rw [read] at ran
          dsimp only at ran
          split at ran
          · rename_i aged
            cases removed : Fs.removeFile scanner.refusals path before with
            | error error state =>
              rw [removed] at ran
              cases ran
            | ok done state =>
              rw [removed] at ran
              cases ran
              exact .inl ⟨⟨tombstone, lifecycle, read, aged⟩, rfl, (Fs.succeeds_guarded.mp removed).2⟩
          · rename_i young
            cases ran
            refine .inr ⟨?_, rfl, rfl⟩
            rintro ⟨-, found, readAgain, aged⟩
            rw [read] at readAgain
            cases readAgain
            exact young aged
      · rename_i plain
        cases ran
        exact .inr ⟨fun expired => plain expired.1, rfl, rfl⟩

/-- A tombstone that a visit leaves can be read, and is young. -/
theorem young_of_idle (idle : scanner.visitTombstone now retention path fs = .ok [] fs)
    (tombstone : isRejectedTombstone fs path = true) :
    ∃ lifecycle, scanner.readLifecycle fs path now .lenient = .ok lifecycle ∧ tombstoneAge now lifecycle < retention := by
  obtain ⟨content, there⟩ := file_of_tombstone tombstone
  unfold visitTombstone at idle
  simp only [there, tombstone, if_true] at idle
  cases read : scanner.readLifecycle fs path now .lenient with
  | error error =>
    rw [read] at idle
    cases idle
  | ok lifecycle =>
    rw [read] at idle
    dsimp only at idle
    refine ⟨lifecycle, rfl, ?_⟩
    by_contra aged
    rw [if_pos (not_lt.mp aged)] at idle
    cases removed : Fs.removeFile scanner.refusals path fs with
    | ok done state =>
      rw [removed] at idle
      cases idle
    | error error state =>
      rw [removed] at idle
      cases idle

/-- Where a visit has nothing to do, it has nothing to do in any state with the same file. -/
theorem idle_congr (idle : scanner.visitTombstone now retention path fs = .ok [] fs)
    (same : other.node path = fs.node path) : scanner.visitTombstone now retention path other = .ok [] other := by
  cases here : fs.node path with
  | none =>
    unfold visitTombstone
    rw [same, here]
  | some node =>
    cases node with
    | directory =>
      unfold visitTombstone at idle ⊢
      rw [same, here]
      rw [here] at idle
      cases refused : scanner.traversal.unreadable path with
      | none => rfl
      | some message =>
        simp only [refused] at idle
        cases idle
    | file content =>
      by_cases tombstone : isRejectedTombstone fs path = true
      · obtain ⟨lifecycle, read, young⟩ := young_of_idle idle tombstone
        unfold visitTombstone
        rw [same, here]
        dsimp only
        rw [isRejectedTombstone_congr same, readLifecycle_congr scanner same, if_pos tombstone, read]
        dsimp only
        rw [if_neg (not_le.mpr young)]
      · unfold visitTombstone
        rw [same, here]
        dsimp only
        rw [isRejectedTombstone_congr same, if_neg tombstone]

/-- The visits of the pruning are a sweep of the files. -/
theorem sweeps_visitTombstone (scanner : PendingWarningScanner) (now : Timestamp) (retention : Int) :
    Sweeps Fs.node (scanner.visitTombstone now retention)
      (fun path node => scanner.Expired now retention ⟨fun _ => node⟩ path) where
  ends := by
    intro path before out after ran
    have here : scanner.Expired now retention ⟨fun _ => before.node path⟩ path ↔
        scanner.Expired now retention before path := expired_congr rfl
    rw [here]
    rcases visitTombstone_ok ran with ⟨expired, named, rfl⟩ | idle
    · exact .inl ⟨expired, named, Fs.node_put_self before path none, fun other apart => Fs.node_put_of_ne apart⟩
    · exact .inr idle
  done := fun path => not_expired_of_missing rfl
  again := by
    intro path before out after between ran same
    rcases visitTombstone_ok ran with ⟨-, -, rfl⟩ | ⟨-, rfl, rfl⟩
    · rw [Fs.node_put_self] at same
      unfold visitTombstone
      rw [same]
    · exact idle_congr ran same

/-! ### Scan roots -/

theorem canonicalize_eq_ok {canonical : Path} :
    canonicalize fs path = .ok canonical ↔ fs.exists? path = true ∧ canonical = path := by
  unfold canonicalize
  split
  · rename_i present
    simp [present, eq_comm]
  · rename_i missing
    simp [missing]

/-- A root resolves to itself or to its `.skills` directory. -/
theorem resolveScanRoot_eq_ok {root proposalRoot : Path} :
    resolveScanRoot fs root = .ok proposalRoot ↔
      root.head? = some [] ∧ fs.node root = some .directory ∧ fs.node proposalRoot = some .directory ∧
        proposalRoot = if root.fileName.map Str.toAsciiLowercase = some ".skills".toList then root
          else root ++ [".skills".toList] := by
  unfold resolveScanRoot
  by_cases absolute : root.head? = some []
  · rw [if_neg (not_not.mpr absolute)]
    by_cases isDirectory : fs.node root = some .directory
    · have present : canonicalize fs root = .ok root := by
        rw [canonicalize_eq_ok, Fs.exists?, isDirectory]
        exact ⟨rfl, rfl⟩
      rw [present]
      dsimp only
      rw [if_neg (not_not.mpr isDirectory)]
      by_cases itself : root.fileName.map Str.toAsciiLowercase = some ".skills".toList
      · rw [if_pos itself, if_pos itself, Except.ok.injEq]
        constructor
        · rintro rfl
          exact ⟨absolute, isDirectory, isDirectory, rfl⟩
        · rintro ⟨-, -, -, rfl⟩
          rfl
      · rw [if_neg itself, if_neg itself]
        by_cases below : fs.node (root ++ [".skills".toList]) = some .directory
        · have inside : canonicalize fs (root ++ [".skills".toList]) = .ok (root ++ [".skills".toList]) := by
            rw [canonicalize_eq_ok, Fs.exists?, below]
            exact ⟨rfl, rfl⟩
          have under : Path.startsWith (root ++ [".skills".toList]) root = true := by
            rw [Path.startsWith, List.isPrefixOf_iff_prefix]
            exact List.prefix_append _ _
          rw [if_neg (not_not.mpr below), inside]
          dsimp only
          rw [if_pos under, Except.ok.injEq]
          constructor
          · rintro rfl
            exact ⟨absolute, isDirectory, below, rfl⟩
          · rintro ⟨-, -, -, rfl⟩
            rfl
        · rw [if_pos below]
          simp only [reduceCtorEq, false_iff]
          rintro ⟨-, -, there, rfl⟩
          exact below there
    · simp only [isDirectory, false_and, and_false, iff_false]
      intro resolved
      cases found : canonicalize fs root with
      | error error => simp [found] at resolved
      | ok canonical =>
        obtain ⟨-, rfl⟩ := canonicalize_eq_ok.mp found
        simp [found, isDirectory] at resolved
  · rw [if_pos absolute]
    simp [absolute]

/-- A root resolves alike as long as the directories stay. -/
theorem resolveScanRoot_kept (kept : ∀ path, before.node path = some .directory → after.node path = some .directory)
    {root proposalRoot : Path} (resolved : resolveScanRoot before root = .ok proposalRoot) :
    resolveScanRoot after root = .ok proposalRoot := by
  obtain ⟨absolute, isDirectory, inside, shape⟩ := resolveScanRoot_eq_ok.mp resolved
  exact resolveScanRoot_eq_ok.mpr ⟨absolute, kept _ isDirectory, kept _ inside, shape⟩

theorem resolveScanRoots_kept (kept : ∀ path, before.node path = some .directory → after.node path = some .directory)
    {rootPaths proposalRoots : List Path} (resolved : resolveScanRoots before rootPaths = .ok proposalRoots) :
    resolveScanRoots after rootPaths = .ok proposalRoots := by
  unfold resolveScanRoots at resolved ⊢
  cases each : rootPaths.mapM (resolveScanRoot before) with
  | error error =>
    rw [each] at resolved
    cases resolved
  | ok found =>
    have again : rootPaths.mapM (resolveScanRoot after) = .ok found :=
      mapM_eq_ok.mpr ((mapM_eq_ok.mp each).imp fun root proposalRoot => resolveScanRoot_kept kept)
    rw [each] at resolved
    rw [again]
    exact resolved

theorem mem_resolveScanRoots {rootPaths proposalRoots : List Path}
    (resolved : resolveScanRoots fs rootPaths = .ok proposalRoots) {root : Path} (member : root ∈ rootPaths) :
    ∃ proposalRoot ∈ proposalRoots, resolveScanRoot fs root = .ok proposalRoot := by
  unfold resolveScanRoots at resolved
  cases each : rootPaths.mapM (resolveScanRoot fs) with
  | error error =>
    rw [each] at resolved
    cases resolved
  | ok found =>
    rw [each] at resolved
    obtain ⟨proposalRoot, inFound, one⟩ := exists_of_forall₂ (mapM_eq_ok.mp each) member
    refine ⟨proposalRoot, ?_, one⟩
    rw [← Except.ok.inj resolved]
    exact (List.perm_insertionSort _ _).symm.subset (List.mem_dedup.mpr inFound)

/-- A root alone is scanned alone. -/
theorem resolveScanRoots_singleton {root proposalRoot : Path} (one : resolveScanRoot fs root = .ok proposalRoot) :
    resolveScanRoots fs [root] = .ok [proposalRoot] := by
  have each : [root].mapM (resolveScanRoot fs) = .ok [proposalRoot] := mapM_eq_ok.mpr (.cons one .nil)
  unfold resolveScanRoots
  rw [each]
  rfl

/-! ### The gates -/

/-- The scanner finds a block for a slug below one root. -/
def Blocks (scanner : PendingWarningScanner) (root : Path) (slug : Str) (now : Timestamp) (retention : Int) (fs : Fs) :
    Prop :=
  ∃ block, scanner.reproposalBlock [root] slug now retention fs = .ok (some block)

theorem rejectedName (proposalRoot : Path) (slug : Str) :
    hasLifecycleFileName (tombstonePath proposalRoot slug) rejectedSkillFileName = true := by
  unfold hasLifecycleFileName tombstonePath Path.fileName
  rw [List.getLast?_append]
  exact beq_self_eq_true _

/-- The draft writer's gate goes by the presence of the tombstone. -/
theorem planDraft_refuses (writer : PendingDraftWriter) (fs : Fs) (pendingRoot : Path) (sourceSessionId : DomainId)
    (providerName : Str) (taken : List Path) (candidate : ExtractedSkillCandidate) (index : Nat) :
    writer.planDraft fs pendingRoot sourceSessionId providerName taken candidate index =
        .error (.rejectedTombstonePresent (rejectedTombstonePath pendingRoot candidate).display) ↔
      isRejectedTombstone fs (tombstonePath pendingRoot (slugifySkillName candidate.name)) = true := by
  have here : rejectedTombstonePath pendingRoot candidate =
      tombstonePath pendingRoot (slugifySkillName candidate.name) := by
    unfold rejectedTombstonePath proposalDirectory tombstonePath
    rw [List.append_assoc]
    rfl
  unfold isRejectedTombstone PendingDraftWriter.planDraft
  rw [rejectedName, Bool.and_true, here]
  by_cases present : fs.isFile (tombstonePath pendingRoot (slugifySkillName candidate.name)) = true
  · rw [if_pos present]
    exact iff_of_true rfl present
  · rw [if_neg present]
    refine iff_of_false (fun refused => ?_) present
    split at refused
    · cases refused
    · unfold PendingDraftWriter.render SessionExtractor.renderPendingMarkdown SessionExtractor.serializeFrontmatter at refused
      cases written : writer.format.toYaml (SessionExtractor.draftFrontmatter writer.format (writer.now index) candidate
          sourceSessionId.value providerName) with
      | error error => simp [written, bind, Except.bind] at refused
      | ok serialized => simp [written, bind, Except.bind, pure, Except.pure] at refused

/-- With one root, the block is about the one tombstone. -/
theorem blocks_iff {root proposalRoot : Path} {slug : Str} (positive : 0 < retention)
    (resolved : resolveScanRoot fs root = .ok proposalRoot) :
    Blocks scanner root slug now retention fs ↔
      isRejectedTombstone fs (tombstonePath proposalRoot slug) = true ∧ ∃ lifecycle,
        scanner.readLifecycle fs (tombstonePath proposalRoot slug) now .lenient = .ok lifecycle ∧
          tombstoneAge now lifecycle < retention := by
  unfold Blocks reproposalBlock
  rw [if_neg (not_le.mpr positive), resolveScanRoots_singleton resolved]
  dsimp only
  rw [blockIn]
  by_cases present : isRejectedTombstone fs (tombstonePath proposalRoot slug) = true
  · rw [if_pos present]
    cases read : scanner.readLifecycle fs (tombstonePath proposalRoot slug) now .lenient with
    | error error => simp
    | ok lifecycle =>
      dsimp only
      by_cases young : tombstoneAge now lifecycle < retention
      · rw [if_pos young]
        exact iff_of_true ⟨_, rfl⟩ ⟨present, lifecycle, rfl, young⟩
      · rw [if_neg young, blockIn]
        simp [young]
  · rw [if_neg present, blockIn]
    simp [present]

/-- Below one of the roots. -/
def Below (proposalRoots : List Path) (path : Path) : Prop := ∃ proposalRoot ∈ proposalRoots, proposalRoot <+: path

/-- The pruning has removed the expired tombstones below the roots and nothing else, and has named them. -/
structure PrunedExactly (scanner : PendingWarningScanner) (now : Timestamp) (retention : Int)
    (proposalRoots : List Path) (before : Fs) (prunedPaths : List Path) (after : Fs) : Prop where
  removed : ∀ path, Below proposalRoots path → scanner.Expired now retention before path → after.node path = none
  kept : ∀ path, ¬ (Below proposalRoots path ∧ scanner.Expired now retention before path) →
    after.node path = before.node path
  named : ∀ path, path ∈ prunedPaths ↔ Below proposalRoots path ∧ scanner.Expired now retention before path

/-- The scanner's gate and the draft writer's agree on every slug below a root. -/
structure GatesAgree (scanner : PendingWarningScanner) (now : Timestamp) (retention : Int) (root proposalRoot : Path)
    (fs : Fs) : Prop where
  present : ∀ slug, Blocks scanner root slug now retention fs ↔
    isRejectedTombstone fs (tombstonePath proposalRoot slug) = true
  refuses : ∀ (writer : PendingDraftWriter) (sourceSessionId : DomainId) (providerName : Str) (taken : List Path)
    (candidate : ExtractedSkillCandidate) (index : Nat),
    Blocks scanner root (slugifySkillName candidate.name) now retention fs ↔
      writer.planDraft fs proposalRoot sourceSessionId providerName taken candidate index =
        .error (.rejectedTombstonePresent (rejectedTombstonePath proposalRoot candidate).display)

theorem mem_walkBelow {proposalRoots : List Path} :
    path ∈ scanner.walkBelow proposalRoots ↔ path ∈ scanner.traversal.paths ∧ Below proposalRoots path := by
  simp only [walkBelow, Below, List.mem_flatMap, List.mem_filter, Path.startsWith, List.isPrefixOf_iff_prefix]
  tauto

theorem there_of_expired (expired : scanner.Expired now retention fs path) : fs.node path ≠ none :=
  fun missing => not_expired_of_missing missing expired

/-- When the pruning succeeds, it has swept the files below the roots. -/
theorem swept_of_pruned {rootPaths prunedPaths : List Path}
    (ran : scanner.pruneExpiredTombstones rootPaths now retention before = .ok prunedPaths after) :
    0 < retention ∧ ∃ proposalRoots named, resolveScanRoots before rootPaths = .ok proposalRoots ∧
      prunedPaths = sortedPaths named ∧
      SweptClean Fs.node (scanner.visitTombstone now retention)
        (fun path node => scanner.Expired now retention ⟨fun _ => node⟩ path) (scanner.walkBelow proposalRoots) before
        named after := by
  unfold pruneExpiredTombstones at ran
  split at ran
  · cases ran
  · rename_i positive
    cases resolved : resolveScanRoots before rootPaths with
    | error error =>
      rw [resolved] at ran
      cases ran
    | ok proposalRoots =>
      rw [resolved] at ran
      dsimp only at ran
      cases walked : collectEach (scanner.visitTombstone now retention) (scanner.walkBelow proposalRoots) before with
      | error error state =>
        rw [walked] at ran
        cases ran
      | ok outs state =>
        rw [walked] at ran
        cases ran
        exact ⟨not_le.mp positive, proposalRoots, outs.flatten, rfl, rfl,
          (sweeps_visitTombstone scanner now retention).run walked⟩

/-- A successful pruning removes exactly the expired tombstones, a second one has nothing to do, and after it the two
gates agree below every root. -/
theorem pruneExpiredTombstones_exact (scanner : PendingWarningScanner) (rootPaths : List Path) (now : Timestamp)
    (retention : Int) (before after : Fs) (prunedPaths : List Path) (complete : scanner.traversal.Complete before)
    (ran : scanner.pruneExpiredTombstones rootPaths now retention before = .ok prunedPaths after) :
    (∃ proposalRoots, resolveScanRoots before rootPaths = .ok proposalRoots ∧
        PrunedExactly scanner now retention proposalRoots before prunedPaths after) ∧
      scanner.pruneExpiredTombstones rootPaths now retention after = .ok [] after ∧
      ∀ root ∈ rootPaths, ∃ proposalRoot, resolveScanRoot before root = .ok proposalRoot ∧
        GatesAgree scanner now retention root proposalRoot after := by
  obtain ⟨positive, proposalRoots, named, resolved, rfl, swept⟩ := swept_of_pruned ran
  have alike (path : Path) : scanner.Expired now retention ⟨fun _ => before.node path⟩ path ↔
      scanner.Expired now retention before path := expired_congr rfl
  have walked : ∀ path, Below proposalRoots path → before.node path ≠ none →
      path ∈ scanner.walkBelow proposalRoots :=
    fun path below there => mem_walkBelow.mpr ⟨complete path there, below⟩
  have unchanged : ∀ path, ¬ scanner.Expired now retention before path → after.node path = before.node path := by
    intro path young
    exact swept.kept path fun both => young ((alike path).mp both.2)
  have directories : ∀ path, before.node path = some .directory → after.node path = some .directory := by
    intro path isDirectory
    rw [unchanged path (not_expired_of_directory isDirectory), isDirectory]
  have again := resolveScanRoots_kept directories resolved
  refine ⟨⟨proposalRoots, resolved, ?_, ?_, ?_⟩, ?_, ?_⟩
  · intro path below expired
    exact swept.removed path (walked path below (there_of_expired expired)) ((alike path).mpr expired)
  · intro path kept
    exact swept.kept path fun both => kept ⟨(mem_walkBelow.mp both.1).2, (alike path).mp both.2⟩
  · intro path
    have sorted : path ∈ sortedPaths named ↔ path ∈ named := (List.perm_insertionSort _ _).mem_iff
    rw [sorted, swept.names, alike]
    constructor
    · rintro ⟨member, expired⟩
      exact ⟨(mem_walkBelow.mp member).2, expired⟩
    · rintro ⟨below, expired⟩
      exact ⟨walked path below (there_of_expired expired), expired⟩
  · unfold pruneExpiredTombstones
    rw [if_neg (not_le.mpr positive), again]
    dsimp only
    rw [swept.run_again]
    have nothing : ((scanner.walkBelow proposalRoots).map fun _ => ([] : List Path)).flatten = [] := by simp
    dsimp only
    rw [nothing]
    rfl
  · intro root member
    obtain ⟨proposalRoot, inRoots, one⟩ := mem_resolveScanRoots resolved member
    have stands : resolveScanRoot after root = .ok proposalRoot := resolveScanRoot_kept directories one
    have present : ∀ slug, Blocks scanner root slug now retention after ↔
        isRejectedTombstone after (tombstonePath proposalRoot slug) = true := by
      intro slug
      rw [blocks_iff positive stands]
      refine ⟨And.left, fun tombstone => ⟨tombstone, ?_⟩⟩
      have there : before.node (tombstonePath proposalRoot slug) ≠ none := by
        intro missing
        obtain ⟨content, present⟩ := file_of_tombstone tombstone
        rw [unchanged _ (not_expired_of_missing missing), missing] at present
        cases present
      have inWalk := walked _ ⟨proposalRoot, inRoots, List.prefix_append _ _⟩ there
      exact young_of_idle (swept.settled _ inWalk after rfl) tombstone
    refine ⟨proposalRoot, one, present, fun writer sourceSessionId providerName taken candidate index => ?_⟩
    rw [present, planDraft_refuses]

/-! ### Two tombstones, one of them old -/

def skillsRoot : Path := [[], "r", ".skills"]

/-- Two rejected proposals below one root. -/
def rejectedPair : Fs where
  node path :=
    if path = skillsRoot.parent ∨ path = skillsRoot ∨ path = skillsRoot ++ ["a".toList] ∨
        path = skillsRoot ++ ["b".toList] then some .directory
    else if path = tombstonePath skillsRoot "a" ∨ path = tombstonePath skillsRoot "b" then
      some (.file "# no".toList)
    else none

def pairPaths : List Path :=
  [skillsRoot.parent, skillsRoot, skillsRoot ++ ["a".toList], tombstonePath skillsRoot "a", skillsRoot ++ ["b".toList],
    tombstonePath skillsRoot "b"]

/-- The second tombstone is ten days younger. -/
def pairScanner : PendingWarningScanner where
  warningAfterDays := 30
  traversal := ⟨pairPaths, by decide, fun _ => none⟩
  modified path := .ok (if path = tombstonePath skillsRoot "b" then 10 * secondsPerDay else 0)
  refusals _ := none
  fromStr _ := .error "invalid type"
  parseFromRfc3339 _ := none

theorem rejectedPair_complete : pairScanner.traversal.Complete rejectedPair := by
  intro path there
  have known : (path = skillsRoot.parent ∨ path = skillsRoot ∨ path = skillsRoot ++ ["a".toList] ∨
      path = skillsRoot ++ ["b".toList]) ∨ path = tombstonePath skillsRoot "a" ∨ path = tombstonePath skillsRoot "b" := by
    by_contra neither
    obtain ⟨notDirectory, notFile⟩ := not_or.mp neither
    apply there
    unfold rejectedPair
    dsimp only
    rw [if_neg notDirectory, if_neg notFile]
  change path ∈ pairPaths
  unfold pairPaths
  simp only [List.mem_cons, List.not_mem_nil, or_false]
  tauto

/-- The old one is pruned, and the gates agree on both slugs. -/
theorem oldTombstone_pruned : ∃ after,
    pairScanner.pruneExpiredTombstones [skillsRoot.parent] (31 * secondsPerDay) 30 rejectedPair =
        .ok [tombstonePath skillsRoot "a"] after ∧
      GatesAgree pairScanner (31 * secondsPerDay) 30 skillsRoot.parent skillsRoot after := by
  have ran := of_returned (show returned? (pairScanner.pruneExpiredTombstones [skillsRoot.parent] (31 * secondsPerDay)
    30 rejectedPair) = some [tombstonePath skillsRoot "a"] by decide +kernel)
  refine ⟨_, ran, ?_⟩
  obtain ⟨-, -, agree⟩ := pruneExpiredTombstones_exact pairScanner _ _ _ _ _ _ rejectedPair_complete ran
  obtain ⟨proposalRoot, resolved, gates⟩ := agree skillsRoot.parent (List.mem_singleton_self _)
  have here : resolveScanRoot rejectedPair skillsRoot.parent = .ok skillsRoot := by decide +kernel
  rw [here] at resolved
  cases resolved
  exact gates

end PendingWarningScanner
end SkillLayer.Maintenance
