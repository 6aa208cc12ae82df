import SkillLayer.Maintenance.ProposalReading
import SkillLayer.Maintenance.RejectionGates

/-! How long a rejection blocks: the age of a tombstone counts from the proposal, not from its rejection. -/

namespace SkillLayer.Maintenance

open Domain
open GraphBuilder (splitFrontmatter)
open SessionExtractor (DraftFormat renderPendingMarkdown splitFrontmatter_document terminated unterminated)

namespace PendingWarningScanner

variable {scanner : PendingWarningScanner} {fs before : Fs} {path : Path} {now : Timestamp} {retention : Int}

/-! ### What a pruning can do, however it ends -/

theorem removeFile_error {refusals : Refusals} {after : Fs} {error : Str}
    (failed : Fs.removeFile refusals path before = .error error after) : after = before := by
  unfold Fs.removeFile Fs.guarded at failed
  split at failed
  · cases failed
    rfl
  · cases failed

/-- A visit that fails has changed nothing. -/
theorem visitTombstone_error {after : Fs} {error : CleanupError}
    (failed : scanner.visitTombstone now retention path before = .error error after) : after = before := by
  unfold visitTombstone at failed
  cases here : before.node path with
  | none =>
    rw [here] at failed
    cases failed
  | some node =>
    rw [here] at failed
    cases node with
    | directory =>
      cases refused : scanner.traversal.unreadable path <;> simp only [refused] at failed <;> cases failed
      rfl
    | file content =>
      dsimp only at failed
      split at failed
      · cases read : scanner.readLifecycle before path now .lenient with
        | error problem =>
          rw [read] at failed
          cases failed
          rfl
        | ok lifecycle =>
          rw [read] at failed
          dsimp only at failed
          split at failed
          · cases removed : Fs.removeFile scanner.refusals path before with
            | ok done state =>
              rw [removed] at failed
              cases failed
            | error refusal state =>
              rw [removed] at failed
              cases failed
              exact removeFile_error removed
          · cases failed
      · cases failed

/-- What the removal of an expired tombstone keeps, a pruning keeps, however it ends. -/
theorem afterwards_prune {Holds : Fs → Prop}
    (kept : ∀ path state, Holds state → scanner.Expired now retention state path → Holds (state.put path none))
    (holds : Holds before) (rootPaths : List Path) :
    Holds (afterwards (scanner.pruneExpiredTombstones rootPaths now retention before)) := by
  have visits (path : Path) (state : Fs) (holds : Holds state) :
      Leads (scanner.visitTombstone now retention path) state fun _ after => Holds after := by
    apply leads_of_ends
    · intro out after ran
      rcases visitTombstone_ok ran with ⟨expired, -, rfl⟩ | ⟨-, -, rfl⟩
      · exact kept path state holds expired
      · exact holds
    · intro error after failed
      rwa [visitTombstone_error failed]
  unfold pruneExpiredTombstones
  split
  · exact holds
  · cases resolveScanRoots before rootPaths with
    | error error => exact holds
    | ok proposalRoots =>
      have walked : Leads (collectEach (scanner.visitTombstone now retention) (scanner.walkBelow proposalRoots)) before
          fun _ after => Holds after := leads_collectEach (fun path _ state => visits path state) holds
      replace walked := walked.afterwards
      dsimp only
      cases ran : collectEach (scanner.visitTombstone now retention) (scanner.walkBelow proposalRoots) before with
      | error error after =>
        rw [ran] at walked
        exact walked
      | ok outs after =>
        rw [ran] at walked
        exact walked

/-! ### The age of a rejected draft -/

/-- The YAML library reads back the date of a draft and writes no bare fence line, and the date is read as it was
written. -/
structure KeepsDate (scanner : PendingWarningScanner) (format : DraftFormat) (createdAt : Timestamp) : Prop where
  reads : ∀ frontmatter serialized, format.toYaml frontmatter = .ok serialized →
    ∃ read, scanner.fromStr (unterminated (yamlOf serialized)) = .ok read ∧
      read.createdAt = some frontmatter.createdAt
  noFence : ∀ frontmatter serialized, format.toYaml frontmatter = .ok serialized →
    "---".toList ∉ Str.splitOn '\n' (yamlOf serialized)
  timestamp : scanner.parseFromRfc3339 (format.toRfc3339 createdAt) = some createdAt

/-- The text is a draft of the writer, made at the time. -/
def DraftedAt (format : DraftFormat) (createdAt : Timestamp) (markdown : Str) : Prop :=
  ∃ candidate sourceSessionId providerName,
    renderPendingMarkdown format createdAt candidate sourceSessionId providerName = .ok markdown

variable {format : DraftFormat} {createdAt modified : Timestamp} {markdown : Str}

/-- The fences, as the splitter of the reader finds them. -/
theorem cut_of_splitFrontmatter {contents frontmatter body : Str}
    (cut : splitFrontmatter contents = (some frontmatter, body)) :
    ∃ remaining, Str.stripPrefix? "---\n" contents = some remaining ∧
      Str.splitOnce "\n---\n" remaining = some (frontmatter, body) := by
  unfold splitFrontmatter at cut
  cases opened : Str.stripPrefix? "---\n" contents with
  | none =>
    rw [opened] at cut
    cases cut
  | some remaining =>
    rw [opened] at cut
    dsimp only at cut
    cases closed : Str.splitOnce "\n---\n" remaining with
    | none =>
      rw [closed] at cut
      cases cut
    | some pieces =>
      obtain ⟨front, rest⟩ := pieces
      rw [closed] at cut
      cases cut
      exact ⟨remaining, rfl, closed⟩

theorem parseFrontmatter_draft (keeps : KeepsDate scanner format createdAt) (drafted : DraftedAt format createdAt markdown)
    (there : fs.node path = some (.file markdown)) (readable : scanner.traversal.unreadable path = none)
    (parseMode : FrontmatterParseMode) :
    ∃ read, scanner.parseFrontmatter fs path parseMode = .ok (some read) ∧
      scanner.parseTimestamp read.createdAt = some createdAt := by
  obtain ⟨candidate, sourceSessionId, providerName, rendered⟩ := drafted
  unfold renderPendingMarkdown SessionExtractor.serializeFrontmatter at rendered
  cases written : format.toYaml
      (SessionExtractor.draftFrontmatter format createdAt candidate sourceSessionId providerName) with
  | error error => simp [written, bind, Except.bind] at rendered
  | ok serialized =>
    simp only [written, bind, Except.bind, pure, Except.pure, Except.ok.injEq] at rendered
    obtain ⟨read, parsed, dated⟩ := keeps.reads _ _ written
    have document : splitFrontmatter markdown =
        (some (unterminated (yamlOf serialized)), SessionExtractor.draftBody candidate) := by
      rw [← rendered]
      exact splitFrontmatter_document (keeps.noFence _ _ written)
    obtain ⟨remaining, opened, closed⟩ := cut_of_splitFrontmatter document
    refine ⟨read, ?_, ?_⟩
    · unfold parseFrontmatter readToString
      rw [there, readable]
      dsimp only
      rw [opened]
      dsimp only
      rw [closed]
      dsimp only
      rw [parsed]
    · rw [parseTimestamp, dated]
      exact keeps.timestamp

/-- A draft has the age of its proposal, wherever it stands. -/
theorem readLifecycle_draft (keeps : KeepsDate scanner format createdAt)
    (drafted : DraftedAt format createdAt markdown) (there : fs.node path = some (.file markdown))
    (readable : scanner.traversal.unreadable path = none) (stamped : scanner.modified path = .ok modified)
    (later : createdAt ≤ now) :
    ∃ lifecycle, scanner.readLifecycle fs path now .lenient = .ok lifecycle ∧
      tombstoneAge now lifecycle = numDays (now - createdAt) := by
  obtain ⟨read, parsed, dated⟩ := parseFrontmatter_draft keeps drafted there readable .lenient
  have metadata : scanner.modifiedAt fs path = .ok modified := by
    rw [modifiedAt, Fs.exists?, there, stamped]
    rfl
  refine ⟨scanner.lifecycleOf (some read) modified now, ?_, ?_⟩
  · rw [readLifecycle, metadata]
    dsimp only
    rw [parsed]
  · unfold tombstoneAge lifecycleOf
    dsimp only [Option.bind_some]
    rw [dated, Option.getD_some, if_neg (not_lt.mpr later)]

theorem numDays_lt_iff (later : createdAt ≤ now) :
    numDays (now - createdAt) < retention ↔ now < createdAt + retention * secondsPerDay := by
  have day : (0 : Int) < secondsPerDay := by decide
  rw [numDays, Int.tdiv_eq_ediv_of_nonneg (Int.sub_nonneg_of_le later), Int.ediv_lt_iff_lt_mul day]
  constructor
  · exact fun below => Int.lt_add_of_sub_left_lt below
  · exact fun below => Int.sub_left_lt_of_lt_add below

/-! ### After a rejection -/

/-- What runs later: a pruning over any roots, or a check whether the slug may be proposed again. -/
inductive LaterRun where
  | prune (rootPaths : List Path) (now : Timestamp)
  | check (now : Timestamp)

def LaterRun.time : LaterRun → Timestamp
  | prune _ now => now
  | check now => now

def LaterRun.perform (scanner : PendingWarningScanner) (retention : Int) : LaterRun → Fs → Fs
  | prune rootPaths now, fs => afterwards (scanner.pruneExpiredTombstones rootPaths now retention fs)
  | check _, fs => fs

/-- A draft that was written at one time and rejected at a later one, by renaming its pending file. -/
structure Rejection (scanner : PendingWarningScanner) where
  root : Path
  proposalRoot : Path
  slug : Str
  format : DraftFormat
  createdAt : Timestamp
  rejectedAt : Timestamp
  markdown : Str
  modified : Timestamp
  pending : Fs
  resolved : resolveScanRoot pending root = .ok proposalRoot
  drafted : DraftedAt format createdAt markdown
  written : pending.node (proposalRoot ++ [slug, pendingSkillFileName]) = some (.file markdown)
  keeps : KeepsDate scanner format createdAt
  readable : scanner.traversal.unreadable (tombstonePath proposalRoot slug) = none
  stamped : scanner.modified (tombstonePath proposalRoot slug) = .ok modified
  ordered : createdAt ≤ rejectedAt

namespace Rejection

variable (rejection : Rejection scanner) (retention : Int)

def tombstone : Path := tombstonePath rejection.proposalRoot rejection.slug

/-- The files after the rename. -/
def rejected : Fs :=
  rejection.pending.relocate (rejection.proposalRoot ++ [rejection.slug, pendingSkillFileName]) rejection.tombstone

/-- The end of the retention, counted from the rejection. -/
def deadline : Timestamp := rejection.rejectedAt + retention * secondsPerDay

/-- The end of the retention, counted from the proposal. -/
def expiry : Timestamp := rejection.createdAt + retention * secondsPerDay

/-- Until the deadline the tombstone stands after every run, and blocks the slug at its time. -/
def Respected : List LaterRun → Fs → Prop
  | [], _ => True
  | run :: rest, fs =>
    (run.time < rejection.deadline retention →
        isRejectedTombstone (run.perform scanner retention fs) rejection.tombstone = true ∧
          Blocks scanner rejection.root rejection.slug run.time retention (run.perform scanner retention fs)) ∧
      Respected rest (run.perform scanner retention fs)

/-- The root stands, and the tombstone is as it was renamed. -/
structure Stands (fs : Fs) : Prop where
  resolved : resolveScanRoot fs rejection.root = .ok rejection.proposalRoot
  there : fs.node rejection.tombstone = some (.file rejection.markdown)

/-- The root stands, and the tombstone is as it was renamed or gone. -/
structure Remains (fs : Fs) : Prop where
  resolved : resolveScanRoot fs rejection.root = .ok rejection.proposalRoot
  there : fs.node rejection.tombstone = none ∨ fs.node rejection.tombstone = some (.file rejection.markdown)

variable {rejection retention}

theorem Stands.remains (stands : rejection.Stands fs) : rejection.Remains fs := ⟨stands.resolved, .inr stands.there⟩

theorem not_prefix_of_longer {long short : Path} (longer : short.length < long.length) : ¬ long <+: short :=
  fun isPrefix => absurd isPrefix.length_le (not_le.mpr longer)

theorem stands_rejected : rejection.Stands rejection.rejected := by
  obtain ⟨absolute, isDirectory, inside, shape⟩ := resolveScanRoot_eq_ok.mp rejection.resolved
  have lengths : rejection.root.length ≤ rejection.proposalRoot.length := by
    rw [shape]
    split
    · exact le_rfl
    · rw [List.length_append]
      exact Nat.le_add_right _ _
  have untouched : ∀ path : Path, path.length ≤ rejection.proposalRoot.length →
      rejection.rejected.node path = rejection.pending.node path := by
    intro path short
    apply Fs.node_relocate_of_not_prefix
    · apply not_prefix_of_longer
      unfold tombstone tombstonePath
      rw [List.length_append]
      exact short.trans_lt (Nat.lt_add_of_pos_right (by simp))
    · apply not_prefix_of_longer
      rw [List.length_append]
      exact short.trans_lt (Nat.lt_add_of_pos_right (by simp))
  refine ⟨resolveScanRoot_eq_ok.mpr ⟨absolute, ?_, ?_, shape⟩, ?_⟩
  · rw [untouched _ lengths, isDirectory]
  · rw [untouched _ le_rfl, inside]
  · rw [rejected, Fs.relocate]
    dsimp only
    rw [if_pos (by simp), List.drop_length, List.append_nil, rejection.written]

/-! ### One run -/

/-- The tombstone blocks at a time exactly before the expiry of its proposal. -/
theorem Stands.blocks_iff (stands : rejection.Stands fs) (positive : 0 < retention)
    (later : rejection.createdAt ≤ now) :
    Blocks scanner rejection.root rejection.slug now retention fs ↔ now < rejection.expiry retention := by
  have isTombstone : isRejectedTombstone fs (tombstonePath rejection.proposalRoot rejection.slug) = true := by
    rw [isRejectedTombstone, rejectedName, Bool.and_true]
    exact Fs.isFile_iff.mpr ⟨_, stands.there⟩
  obtain ⟨lifecycle, read, age⟩ := readLifecycle_draft rejection.keeps rejection.drafted stands.there
    rejection.readable rejection.stamped later
  rw [PendingWarningScanner.blocks_iff positive stands.resolved, expiry, ← numDays_lt_iff later]
  constructor
  · rintro ⟨-, found, readAgain, young⟩
    unfold tombstone at read
    rw [read] at readAgain
    cases readAgain
    rwa [age] at young
  · intro young
    exact ⟨isTombstone, lifecycle, read, by rwa [age]⟩

theorem Stands.not_expired (stands : rejection.Stands fs) (later : rejection.createdAt ≤ now)
    (early : now < rejection.expiry retention) : ¬ scanner.Expired now retention fs rejection.tombstone := by
  obtain ⟨lifecycle, read, age⟩ := readLifecycle_draft rejection.keeps rejection.drafted stands.there
    rejection.readable rejection.stamped later
  rintro ⟨-, found, readAgain, aged⟩
  rw [read] at readAgain
  cases readAgain
  rw [age] at aged
  exact absurd ((numDays_lt_iff later).mpr early) (not_lt.mpr aged)

theorem isRejectedTombstone_of_gone (gone : fs.node path = none) : isRejectedTombstone fs path ≠ true := by
  intro tombstone
  obtain ⟨content, there⟩ := file_of_tombstone tombstone
  rw [gone] at there
  cases there

/-- The removal of another expired tombstone leaves the root and its tombstone. -/
theorem resolved_put {root proposalRoot : Path} (resolved : resolveScanRoot fs root = .ok proposalRoot)
    (expired : scanner.Expired now retention fs path) :
    resolveScanRoot (fs.put path none) root = .ok proposalRoot := by
  have directories : ∀ other, fs.node other = some .directory → (fs.put path none).node other = some .directory := by
    intro other isDirectory
    rw [Fs.node_put_of_ne, isDirectory]
    rintro rfl
    exact not_expired_of_directory isDirectory expired
  exact resolveScanRoot_kept directories resolved

/-- Whatever runs, the tombstone is not changed, only removed. -/
theorem Remains.perform (remains : rejection.Remains fs) (retention : Int) (run : LaterRun) :
    rejection.Remains (run.perform scanner retention fs) := by
  cases run with
  | check now => exact remains
  | prune rootPaths now =>
    apply afterwards_prune _ remains
    intro path state held expired
    refine ⟨resolved_put held.resolved expired, ?_⟩
    by_cases here : rejection.tombstone = path
    · exact .inl (by rw [here, Fs.node_put_self])
    · rw [Fs.node_put_of_ne here]
      exact held.there

/-- Before the expiry of the proposal the tombstone stays. -/
theorem Stands.perform (stands : rejection.Stands fs) (run : LaterRun) (later : rejection.createdAt ≤ run.time)
    (early : run.time < rejection.expiry retention) : rejection.Stands (run.perform scanner retention fs) := by
  cases run with
  | check now => exact stands
  | prune rootPaths now =>
    apply afterwards_prune _ stands
    intro path state held expired
    refine ⟨resolved_put held.resolved expired, ?_⟩
    rw [Fs.node_put_of_ne, held.there]
    intro here
    exact held.not_expired later early (here ▸ expired)

/-! ### All runs -/

theorem positive_of_between {start instant days : Int} (later : start ≤ instant)
    (inTime : instant < start + days * secondsPerDay) : 0 < days := by
  unfold secondsPerDay at inTime
  omega

theorem early_of_respected {runs : List LaterRun} (remains : rejection.Remains fs)
    (later : ∀ run ∈ runs, rejection.rejectedAt ≤ run.time) (respected : rejection.Respected retention runs fs) :
    ∀ run ∈ runs, run.time < rejection.deadline retention → run.time < rejection.expiry retention := by
  induction runs generalizing fs with
  | nil => simp
  | cons first rest ih =>
    obtain ⟨here, onward⟩ := respected
    have next := remains.perform retention first
    intro run member inTime
    rcases List.mem_cons.mp member with rfl | inRest
    · obtain ⟨isTombstone, blocks⟩ := here inTime
      have started := later run List.mem_cons_self
      rcases next.there with gone | there
      · exact absurd isTombstone (isRejectedTombstone_of_gone gone)
      · have stands : rejection.Stands (run.perform scanner retention fs) := ⟨next.resolved, there⟩
        exact (stands.blocks_iff (positive_of_between started inTime) (rejection.ordered.trans started)).mp blocks
    · exact ih next (fun other inside => later other (List.mem_cons_of_mem _ inside)) onward run inRest inTime

theorem respected_of_early {runs : List LaterRun} (resolved : rejection.Remains fs)
    (standing : rejection.Stands fs ∨ ∀ run ∈ runs, rejection.deadline retention ≤ run.time)
    (later : ∀ run ∈ runs, rejection.rejectedAt ≤ run.time)
    (timeline : (runs.map LaterRun.time).Pairwise (· ≤ ·))
    (early : ∀ run ∈ runs, run.time < rejection.deadline retention → run.time < rejection.expiry retention) :
    rejection.Respected retention runs fs := by
  induction runs generalizing fs with
  | nil => trivial
  | cons first rest ih =>
    obtain ⟨behind, timelineRest⟩ := List.pairwise_cons.mp timeline
    have laterRest : ∀ run ∈ rest, rejection.rejectedAt ≤ run.time :=
      fun run member => later run (List.mem_cons_of_mem _ member)
    have earlyRest : ∀ run ∈ rest, run.time < rejection.deadline retention → run.time < rejection.expiry retention :=
      fun run member => early run (List.mem_cons_of_mem _ member)
    have next := resolved.perform retention first
    have started := rejection.ordered.trans (later first List.mem_cons_self)
    by_cases inTime : first.time < rejection.deadline retention
    · have soon := early first List.mem_cons_self inTime
      have stands : rejection.Stands fs :=
        standing.resolve_right fun passed => absurd inTime (not_lt.mpr (passed first List.mem_cons_self))
      have stays := stands.perform first started soon
      have positive := positive_of_between (later first List.mem_cons_self) inTime
      refine ⟨fun _ => ⟨?_, (stays.blocks_iff positive started).mpr soon⟩, ?_⟩
      · exact ((PendingWarningScanner.blocks_iff positive stays.resolved).mp
          ((stays.blocks_iff positive started).mpr soon)).1
      · exact ih next (.inl stays) laterRest timelineRest earlyRest
    · refine ⟨fun now => absurd now inTime, ih next (.inr fun run member => ?_) laterRest timelineRest earlyRest⟩
      exact (not_lt.mp inTime).trans (behind _ (List.mem_map_of_mem member))

/-- A rejection is respected over a timeline exactly when nothing runs between the expiry of the proposal and the
deadline of the rejection. -/
theorem respected_iff (scanner : PendingWarningScanner) (rejection : Rejection scanner) (retention : Int)
    (runs : List LaterRun) (later : ∀ run ∈ runs, rejection.rejectedAt ≤ run.time)
    (timeline : (runs.map LaterRun.time).Pairwise (· ≤ ·)) :
    rejection.Respected retention runs rejection.rejected ↔
      ∀ run ∈ runs, run.time < rejection.deadline retention → run.time < rejection.expiry retention :=
  ⟨early_of_respected stands_rejected.remains later,
    respected_of_early stands_rejected.remains (.inl stands_rejected) later timeline⟩

/-- Every timeline respects a rejection only where it came at the instant of the proposal. -/
theorem rejectedAt_of_always_respected (positive : 0 < retention)
    (always : ∀ now, rejection.rejectedAt ≤ now → rejection.Respected retention [.check now] rejection.rejected) :
    rejection.rejectedAt = rejection.createdAt := by
  have span : 0 < retention * secondsPerDay := Int.mul_pos positive (by decide)
  refine le_antisymm (not_lt.mp fun later => ?_) rejection.ordered
  have probe := always (max rejection.rejectedAt (rejection.expiry retention)) (le_max_left _ _)
  have inTime : max rejection.rejectedAt (rejection.expiry retention) < rejection.deadline retention :=
    max_lt (Int.lt_add_of_pos_right _ span) (Int.add_lt_add_right later _)
  have early := early_of_respected stands_rejected.remains (by simp [LaterRun.time]) probe _
    (List.mem_singleton_self _) inTime
  exact absurd early (not_lt.mpr (le_max_right _ _))

end Rejection

/-! ### A proposal that is rejected after twenty days -/

def epochDate : Str := "1970-01-01T00:00:00+00:00"

def epochYaml : Str := "created_at: 1970-01-01T00:00:00+00:00\n"

def epochFormat : DraftFormat where
  toRfc3339 instant := if instant = 0 then epochDate else "later"
  toYaml frontmatter := if frontmatter.createdAt = epochDate then .ok epochYaml else .error "unsupported value"

def epochScanner : PendingWarningScanner where
  warningAfterDays := 30
  traversal := ⟨[skillsRoot.parent, skillsRoot, skillsRoot ++ ["a".toList], tombstonePath skillsRoot "a"], by decide,
    fun _ => none⟩
  modified _ := .ok 0
  refusals _ := none
  fromStr yaml := if yaml = unterminated (yamlOf epochYaml) then .ok ⟨some epochDate, none, none, none⟩
    else .error "invalid type"
  parseFromRfc3339 raw := if raw = epochDate then some 0 else none

theorem epoch_keepsDate : KeepsDate epochScanner epochFormat 0 where
  reads := by
    intro frontmatter serialized written
    unfold epochFormat at written
    dsimp only at written
    split at written
    · rename_i same
      cases written
      have parsed : epochScanner.fromStr (unterminated (yamlOf epochYaml)) = .ok ⟨some epochDate, none, none, none⟩ := by
        decide +kernel
      exact ⟨⟨some epochDate, none, none, none⟩, parsed, by rw [same]⟩
    · cases written
  noFence := by
    intro frontmatter serialized written
    unfold epochFormat at written
    dsimp only at written
    split at written
    · cases written
      decide
    · cases written
  timestamp := rfl

def epochDraft : ExtractedSkillCandidate := ⟨"a", "b", [], [], [], [], none, none⟩

def epochMarkdown : Str :=
  "---\n".toList ++ epochYaml ++ "---\n\n# a\n\nb\n\n".toList

/-- The files with the pending draft. -/
def epochPending : Fs where
  node path :=
    if path = skillsRoot.parent ∨ path = skillsRoot ∨ path = skillsRoot ++ ["a".toList] then some .directory
    else if path = skillsRoot ++ ["a".toList, pendingSkillFileName] then some (.file epochMarkdown)
    else none

/-- Written at the epoch, rejected after twenty days. -/
def lateRejection : Rejection epochScanner where
  root := skillsRoot.parent
  proposalRoot := skillsRoot
  slug := "a"
  format := epochFormat
  createdAt := 0
  rejectedAt := 20 * secondsPerDay
  markdown := epochMarkdown
  modified := 0
  pending := epochPending
  resolved := by decide +kernel
  drafted := ⟨epochDraft, [], [], by decide +kernel⟩
  written := by decide +kernel
  keeps := epoch_keepsDate
  readable := rfl
  stamped := rfl
  ordered := by decide

/-- A pruning fifteen days after the rejection. -/
def pruneDay35 : LaterRun := .prune [skillsRoot.parent] (35 * secondsPerDay)

/-- With thirty days of retention, the tombstone is gone fifteen days after the rejection. -/
theorem lateRejection_forgotten :
    isRejectedTombstone lateRejection.rejected lateRejection.tombstone = true ∧
      isRejectedTombstone (pruneDay35.perform epochScanner 30 lateRejection.rejected) lateRejection.tombstone = false ∧
      ¬ lateRejection.Respected 30 [pruneDay35] lateRejection.rejected := by
  have gone : isRejectedTombstone (pruneDay35.perform epochScanner 30 lateRejection.rejected)
      lateRejection.tombstone = false := by decide +kernel
  refine ⟨by decide +kernel, gone, fun respected => ?_⟩
  have stands := (respected.1 (by decide)).1
  rw [gone] at stands
  cases stands

/-- Nine days after the rejection it still blocks. -/
theorem lateRejection_respected :
    lateRejection.Respected 30 [.prune [skillsRoot.parent] (29 * secondsPerDay), .check (29 * secondsPerDay)]
      lateRejection.rejected := by
  refine (Rejection.respected_iff epochScanner lateRejection 30 _ ?_ ?_).mpr ?_
  · decide
  · decide
  · decide

end PendingWarningScanner
end SkillLayer.Maintenance
