import SkillLayer.SessionExtractor.Orchestrator
import SkillLayer.SessionExtractor.WriterBatch

/-! Whether the synthesis pass can cost a session its grounded drafts. -/

namespace SkillLayer.SessionExtractor

open Domain

/-! ### Planning -/

section Planning

variable (writer : PendingDraftWriter) (fs : Fs) (root : Path) (sessionId : DomainId)
  (providerName : Str)

/-- The markdown of a candidate that renders. -/
def markdownOf (entry : ExtractedSkillCandidate × Nat) : Str :=
  ((writer.render sessionId providerName entry.1 entry.2).toOption).getD []

def planOf (entry : ExtractedSkillCandidate × Nat) : PendingWritePlan :=
  writer.writePlan fs root entry.1 entry.2 (markdownOf writer sessionId providerName entry)

/-- No tombstone stands in the way and the draft renders. -/
structure Plannable (entry : ExtractedSkillCandidate × Nat) : Prop where
  noTombstone : fs.isFile (rejectedTombstonePath root entry.1) = false
  renders : ∃ markdown, writer.render sessionId providerName entry.1 entry.2 = .ok markdown

theorem pendingPath_inj {root : Path} {candidate other : ExtractedSkillCandidate} :
    pendingPath root candidate = pendingPath root other ↔
      slugifySkillName candidate.name = slugifySkillName other.name := by
  simp [pendingPath, proposalDirectory]

theorem planDraft_eq_ok {taken : List Path} {candidate : ExtractedSkillCandidate} {index : Nat}
    {plan : PendingWritePlan} :
    writer.planDraft fs root sessionId providerName taken candidate index = .ok plan ↔
      Plannable writer fs root sessionId providerName (candidate, index) ∧
        pendingPath root candidate ∉ taken ∧
        plan = planOf writer fs root sessionId providerName (candidate, index) := by
  unfold PendingDraftWriter.planDraft
  by_cases tombstone : fs.isFile (rejectedTombstonePath root candidate) = true
  · have blocked : ¬ Plannable writer fs root sessionId providerName (candidate, index) := fun plannable => by
      simp [plannable.noTombstone] at tombstone
    simp [tombstone, blocked]
  · by_cases duplicate : pendingPath root candidate ∈ taken
    · simp [tombstone, duplicate]
    · rw [if_neg tombstone, if_neg duplicate]
      cases rendered : writer.render sessionId providerName candidate index with
      | error error =>
        have blocked : ¬ Plannable writer fs root sessionId providerName (candidate, index) := by
          rintro ⟨-, markdown, same⟩
          cases rendered.symm.trans same
        simp [blocked]
      | ok markdown =>
        have plannable : Plannable writer fs root sessionId providerName (candidate, index) :=
          ⟨by simpa using tombstone, markdown, rendered⟩
        simp [plannable, duplicate, planOf, markdownOf, rendered, Except.toOption, eq_comm]

theorem planDrafts_eq_ok {taken : List Path} {entries : List (ExtractedSkillCandidate × Nat)}
    {plans : List PendingWritePlan} :
    writer.planDrafts fs root sessionId providerName taken entries = .ok plans ↔
      (∀ entry ∈ entries, Plannable writer fs root sessionId providerName entry) ∧
        (entries.map fun entry => pendingPath root entry.1).Nodup ∧
        (∀ entry ∈ entries, pendingPath root entry.1 ∉ taken) ∧
        plans = entries.map (planOf writer fs root sessionId providerName) := by
  induction entries generalizing taken plans with
  | nil => simp [PendingDraftWriter.planDrafts, eq_comm]
  | cons entry rest ih =>
    obtain ⟨candidate, index⟩ := entry
    rw [PendingDraftWriter.planDrafts]
    cases planned : writer.planDraft fs root sessionId providerName taken candidate index with
    | error error =>
      simp only [bind, Except.bind, reduceCtorEq, false_iff]
      rintro ⟨plannable, -, free, -⟩
      have ok := (planDraft_eq_ok writer fs root sessionId providerName).mpr
        ⟨plannable _ List.mem_cons_self, free _ List.mem_cons_self, rfl⟩
      cases planned.symm.trans ok
    | ok plan =>
      obtain ⟨plannable, free, same⟩ :=
        (planDraft_eq_ok writer fs root sessionId providerName).mp planned
      have path : plan.pendingPath = pendingPath root candidate := by
        rw [same]
        rfl
      cases later : writer.planDrafts fs root sessionId providerName (plan.pendingPath :: taken) rest with
      | error error =>
        simp only [bind, Except.bind, later, reduceCtorEq, false_iff]
        rintro ⟨others, nodup, frees, -⟩
        have ok := (@ih (plan.pendingPath :: taken) _).mpr
          ⟨fun other member => others other (List.mem_cons_of_mem _ member),
            (List.nodup_cons.mp nodup).2, fun other member => ?_, rfl⟩
        · cases later.symm.trans ok
        · rw [List.mem_cons, not_or, path]
          refine ⟨fun clash => ?_, frees other (List.mem_cons_of_mem _ member)⟩
          exact (List.nodup_cons.mp nodup).1 (List.mem_map.mpr ⟨other, member, clash⟩)
      | ok others =>
        obtain ⟨restPlannable, restNodup, restFree, rfl⟩ := ih.mp later
        simp only [bind, Except.bind, later, pure, Except.pure, Except.ok.injEq, List.map_cons]
        constructor
        · rintro rfl
          refine ⟨?_, ?_, ?_, by rw [same]⟩
          · exact List.forall_mem_cons.mpr ⟨plannable, restPlannable⟩
          · refine List.nodup_cons.mpr ⟨fun member => ?_, restNodup⟩
            obtain ⟨other, inRest, clash⟩ := List.mem_map.mp member
            exact restFree other inRest (by rw [clash, path]; exact List.mem_cons_self)
          · exact List.forall_mem_cons.mpr
              ⟨free, fun other member => fun taken => restFree other member (List.mem_cons_of_mem _ taken)⟩
        · rintro ⟨-, -, -, rfl⟩
          rw [same]

end Planning

/-! ### One batch -/

section Batch

variable (writer : PendingDraftWriter) (sessionId : DomainId) (providerName : Str)

/-- Everything a list of candidates needs to be written in one batch. -/
structure BatchAccepted (fs : Fs) (root : Path) (entries : List (ExtractedSkillCandidate × Nat)) :
    Prop where
  plannable : ∀ entry ∈ entries, Plannable writer fs root sessionId providerName entry
  distinct : (entries.map fun entry => slugifySkillName entry.1.name).Nodup
  accepted : ∀ entry ∈ entries,
    DraftAccepted writer.refusals fs (planOf writer fs root sessionId providerName entry)

theorem planUnder_planOf (fs : Fs) (root : Path) (entry : ExtractedSkillCandidate × Nat) :
    PlanUnder root (planOf writer fs root sessionId providerName entry) := by
  have directory : (planOf writer fs root sessionId providerName entry).proposalDirectory =
      root ++ [slugifySkillName entry.1.name] := by
    simp [planOf, PendingDraftWriter.writePlan, PendingWritePlan.proposalDirectory, pendingPath,
      proposalDirectory, Path.parent]
  have dotted (tail : Str) : '.' :: tail ≠ pendingSkillFileName := by
    intro same
    have first : pendingSkillFileName.head? = some 'S' := by decide
    rw [← same] at first
    cases first
  refine ⟨⟨_, directory⟩, ?_, ?_, ?_, ?_⟩
  · rw [directory]
    rfl
  · refine ⟨tempName writer.batchNonce entry.2, dotted _, ?_⟩
    rw [directory]
    rfl
  · refine ⟨backupName writer.batchNonce entry.2, dotted _, ?_⟩
    rw [directory]
    rfl
  · intro same
    have names := List.singleton_inj.mp (List.append_cancel_left same)
    have suffixes : ".tmp".toList = ".bak".toList := List.append_cancel_left names
    revert suffixes
    decide

theorem pairwise_apart (fs : Fs) (root : Path) {entries : List (ExtractedSkillCandidate × Nat)}
    (distinct : (entries.map fun entry => slugifySkillName entry.1.name).Nodup) :
    (entries.map (planOf writer fs root sessionId providerName)).Pairwise Apart := by
  rw [List.pairwise_map]
  refine (List.pairwise_map.mp distinct).imp fun {entry other} different => ?_
  refine apart_of_ne (planUnder_planOf writer sessionId providerName fs root entry)
    (planUnder_planOf writer sessionId providerName fs root other) ?_
  exact fun same => different (pendingPath_inj.mp same)

theorem writePendingDrafts_eq {scopeRoot : Path} (resolved : writer.scopeRoot = .ok scopeRoot)
    {before rooted : Fs}
    (created : Succeeds (Fs.createDirAll writer.refusals (scopeRoot ++ [".skills".toList])) before rooted)
    (extractionResult : ExtractionResult) :
    writer.writePendingDrafts extractionResult providerName before =
      match writer.buildWritePlans rooted (scopeRoot ++ [".skills".toList]) extractionResult
        providerName with
      | .error error => .error error rooted
      | .ok plans =>
        match writer.persistPlans plans rooted with
        | .ok _ after => .ok (plans.map PendingWritePlan.pendingPath) after
        | .error error after => .error error after := by
  have begun : orWriteFailure (scopeRoot ++ [".skills".toList])
      (Fs.createDirAll writer.refusals (scopeRoot ++ [".skills".toList])) before = .ok ⟨⟩ rooted :=
    succeeds_orWriteFailure.mpr created
  have current : (get : EStateM WriterError Fs Fs) rooted = .ok rooted rooted := rfl
  unfold PendingDraftWriter.writePendingDrafts
  simp only [resolved, ofExcept, bind, EStateM.bind, pure, EStateM.pure, begun, current, throw, throwThe,
    MonadExceptOf.throw]
  cases writer.buildWritePlans rooted (scopeRoot ++ [".skills".toList]) extractionResult
    providerName with
  | error error => rfl
  | ok plans =>
    dsimp only
    cases plans with
    | nil => rfl
    | cons plan rest =>
      change EStateM.bind (writer.persistPlans (plan :: rest))
        (fun _ => EStateM.pure ((plan :: rest).map PendingWritePlan.pendingPath)) rooted = _
      unfold EStateM.bind
      cases writer.persistPlans (plan :: rest) rooted <;> rfl

/-- A batch is written exactly when it is accepted; then its pending paths hold
the rendered markdown. -/
theorem writePendingDrafts_ok {scopeRoot : Path} (resolved : writer.scopeRoot = .ok scopeRoot)
    {before rooted : Fs}
    (created : Succeeds (Fs.createDirAll writer.refusals (scopeRoot ++ [".skills".toList])) before rooted)
    (candidates : List ExtractedSkillCandidate) :
    let root := scopeRoot ++ [".skills".toList]
    let result := writer.writePendingDrafts ⟨sessionId, candidates, providerName⟩ providerName before
    ((∃ paths after, result = .ok paths after) ↔
        BatchAccepted writer sessionId providerName rooted root candidates.zipIdx) ∧
      ∀ paths after, result = .ok paths after →
        paths = candidates.map (pendingPath root) ∧
          ∀ entry ∈ candidates.zipIdx, after.node (pendingPath root entry.1) =
            some (.file (markdownOf writer sessionId providerName entry)) := by
  intro root result
  have rootedLevels : Rooted root rooted := (Fs.of_createDirs created).1
  have planned (plans : List PendingWritePlan) :
      writer.buildWritePlans rooted root ⟨sessionId, candidates, providerName⟩ providerName = .ok plans ↔
        (∀ entry ∈ candidates.zipIdx, Plannable writer rooted root sessionId providerName entry) ∧
          (candidates.zipIdx.map fun entry => slugifySkillName entry.1.name).Nodup ∧
          plans = candidates.zipIdx.map (planOf writer rooted root sessionId providerName) := by
    rw [PendingDraftWriter.buildWritePlans, planDrafts_eq_ok]
    have paths : (candidates.zipIdx.map fun entry => pendingPath root entry.1).Nodup ↔
        (candidates.zipIdx.map fun entry => slugifySkillName entry.1.name).Nodup := by
      rw [List.Nodup, List.Nodup, List.pairwise_map, List.pairwise_map]
      simp only [ne_eq, pendingPath_inj]
    simp [paths]
  have allUnder : ∀ plan ∈ candidates.zipIdx.map (planOf writer rooted root sessionId providerName),
      PlanUnder root plan := by
    intro plan member
    obtain ⟨entry, _, rfl⟩ := List.mem_map.mp member
    exact planUnder_planOf writer sessionId providerName rooted root entry
  have recorded : ∀ plan ∈ candidates.zipIdx.map (planOf writer rooted root sessionId providerName),
      plan.targetPreexisted = rooted.exists? plan.pendingPath := by
    intro plan member
    obtain ⟨entry, _, rfl⟩ := List.mem_map.mp member
    rfl
  have unfolded : result = _ :=
    writePendingDrafts_eq writer providerName resolved created ⟨sessionId, candidates, providerName⟩
  rw [unfolded]
  cases built : writer.buildWritePlans rooted root ⟨sessionId, candidates, providerName⟩ providerName with
  | error error =>
    simp only [reduceCtorEq, exists_false, false_iff, false_implies, implies_true, and_true]
    intro batch
    cases built.symm.trans ((planned _).mpr ⟨batch.plannable, batch.distinct, rfl⟩)
  | ok plans =>
    obtain ⟨plannable, distinct, rfl⟩ := (planned plans).mp built
    have separate := pairwise_apart writer sessionId providerName rooted root distinct
    have persisted := persistPlans_succeeds_iff writer allUnder separate rootedLevels recorded
    constructor
    · constructor
      · rintro ⟨paths, after, ran⟩
        refine ⟨plannable, distinct, fun entry member => ?_⟩
        refine persisted.mp ?_ _ (List.mem_map_of_mem member)
        dsimp only at ran
        split at ran
        · rename_i done
          exact ⟨_, done⟩
        · cases ran
      · intro batch
        obtain ⟨after, done⟩ := persisted.mpr fun plan member => by
          obtain ⟨entry, inside, rfl⟩ := List.mem_map.mp member
          exact batch.accepted entry inside
        unfold Succeeds at done
        simp only [done]
        exact ⟨_, after, rfl⟩
    · intro paths after ran
      dsimp only at ran
      split at ran
      · rename_i done
        cases ran
        refine ⟨?_, fun entry member => ?_⟩
        · rw [List.map_map]
          conv_rhs => rw [← List.zipIdx_map_fst 0 candidates, List.map_map]
          rfl
        · exact persistPlans_writes writer allUnder separate rootedLevels done _
            (List.mem_map_of_mem member)
      · cases ran

/-- Below the pending root nothing is touched while it is created. -/
theorem node_rooted {root : Path} {before rooted : Fs}
    (created : Succeeds (Fs.createDirAll writer.refusals root) before rooted) {rest : Path}
    (below : rest ≠ []) : rooted.node (root ++ rest) = before.node (root ++ rest) := by
  refine (Fs.of_createDirs created).2 _ fun level => ?_
  have short := (List.mem_inits _ _).mp (List.mem_of_mem_tail level) |>.length_le
  have long := List.length_pos_of_ne_nil below
  rw [List.length_append] at short
  omega

theorem plannable_rooted {root : Path} {before rooted : Fs}
    (created : Succeeds (Fs.createDirAll writer.refusals root) before rooted)
    (entry : ExtractedSkillCandidate × Nat) :
    Plannable writer rooted root sessionId providerName entry ↔
      Plannable writer before root sessionId providerName entry := by
  have same : rooted.isFile (rejectedTombstonePath root entry.1) =
      before.isFile (rejectedTombstonePath root entry.1) := by
    unfold Fs.isFile rejectedTombstonePath proposalDirectory
    rw [List.append_assoc, node_rooted writer created (by simp)]
  exact ⟨fun plannable => ⟨same ▸ plannable.noTombstone, plannable.renders⟩,
    fun plannable => ⟨same ▸ plannable.noTombstone, plannable.renders⟩⟩

theorem draftAccepted_rooted {root : Path} {before rooted : Fs}
    (created : Succeeds (Fs.createDirAll writer.refusals root) before rooted)
    (entry : ExtractedSkillCandidate × Nat) :
    DraftAccepted writer.refusals rooted (planOf writer rooted root sessionId providerName entry) ↔
      DraftAccepted writer.refusals before
        (planOf writer before root sessionId providerName entry) := by
  have under := planUnder_planOf writer sessionId providerName before root entry
  obtain ⟨slug, directory⟩ := under.directory
  obtain ⟨temp, -, tempAt⟩ := under.temp
  obtain ⟨backup, -, backupAt⟩ := under.backup
  have pendingSame : rooted.node (pendingPath root entry.1) = before.node (pendingPath root entry.1) := by
    rw [pendingPath, proposalDirectory, List.append_assoc, node_rooted writer created (by simp)]
  have plans : planOf writer rooted root sessionId providerName entry =
      planOf writer before root sessionId providerName entry := by
    rw [planOf, planOf, PendingDraftWriter.writePlan, PendingDraftWriter.writePlan, Fs.exists?,
      Fs.exists?, pendingSame]
  rw [plans]
  generalize planOf writer before root sessionId providerName entry = plan at *
  have inDirectory {path : Path} {name : Str} (located : path = plan.proposalDirectory ++ [name]) :
      rooted.node path = before.node path := by
    rw [located, directory, List.append_assoc, node_rooted writer created (by simp)]
  have directorySame : rooted.node plan.proposalDirectory = before.node plan.proposalDirectory := by
    rw [directory, node_rooted writer created (by simp)]
  have tempSame := inDirectory tempAt
  have backupSame := inDirectory backupAt
  have pendingPlan := inDirectory under.pending
  constructor
  · rintro ⟨directory, written, moved, committed⟩
    rw [directorySame] at directory
    rw [tempSame] at written
    rw [Fs.exists?, pendingPlan, backupSame] at moved
    exact ⟨directory, written, moved, committed⟩
  · rintro ⟨directory, written, moved, committed⟩
    rw [← directorySame] at directory
    rw [← tempSame] at written
    rw [Fs.exists?, ← pendingPlan, ← backupSame] at moved
    exact ⟨directory, written, moved, committed⟩

/-- What synthesised candidates must satisfy in the initial file system so that
they cannot fail the batch: new distinct slugs, no tombstone, a text that renders
and no refused operation. -/
structure Harmless (before : Fs) (root : Path)
    (grounded added : List ExtractedSkillCandidate) : Prop where
  distinct : (added.map fun candidate => slugifySkillName candidate.name).Nodup
  fresh : ∀ candidate ∈ added, ∀ other ∈ grounded,
    slugifySkillName other.name ≠ slugifySkillName candidate.name
  plannable : ∀ entry ∈ added.zipIdx grounded.length,
    Plannable writer before root sessionId providerName entry
  accepted : ∀ entry ∈ added.zipIdx grounded.length,
    DraftAccepted writer.refusals before (planOf writer before root sessionId providerName entry)

theorem slugs_zipIdx (candidates : List ExtractedSkillCandidate) (start : Nat) :
    ((candidates.zipIdx start).map fun entry => slugifySkillName entry.1.name) =
      candidates.map fun candidate => slugifySkillName candidate.name := by
  conv_rhs => rw [← List.zipIdx_map_fst start candidates, List.map_map]
  rfl

/-- The grounded candidates and the added ones are accepted independently. -/
theorem batchAccepted_append {root : Path} {before rooted : Fs}
    (created : Succeeds (Fs.createDirAll writer.refusals root) before rooted)
    (grounded added : List ExtractedSkillCandidate) :
    BatchAccepted writer sessionId providerName rooted root (grounded ++ added).zipIdx ↔
      BatchAccepted writer sessionId providerName rooted root grounded.zipIdx ∧
        Harmless writer sessionId providerName before root grounded added := by
  have entries : (grounded ++ added).zipIdx = grounded.zipIdx ++ added.zipIdx grounded.length := by
    rw [List.zipIdx_append, Nat.zero_add]
  constructor
  · rintro ⟨plannable, distinct, accepted⟩
    rw [slugs_zipIdx, List.map_append, List.nodup_append] at distinct
    rw [entries] at plannable accepted
    refine ⟨⟨?_, ?_, ?_⟩, ?_, ?_, ?_, ?_⟩
    · exact fun entry member => plannable entry (List.mem_append_left _ member)
    · rw [slugs_zipIdx]
      exact distinct.1
    · exact fun entry member => accepted entry (List.mem_append_left _ member)
    · exact distinct.2.1
    · intro candidate member other inGrounded
      exact distinct.2.2 _ (List.mem_map_of_mem inGrounded) _ (List.mem_map_of_mem member)
    · intro entry member
      exact (plannable_rooted writer sessionId providerName created entry).mp
        (plannable entry (List.mem_append_right _ member))
    · intro entry member
      exact (draftAccepted_rooted writer sessionId providerName created entry).mp
        (accepted entry (List.mem_append_right _ member))
  · rintro ⟨batch, harmless⟩
    refine ⟨?_, ?_, ?_⟩
    · rw [entries]
      intro entry member
      rcases List.mem_append.mp member with first | second
      · exact batch.plannable entry first
      · exact (plannable_rooted writer sessionId providerName created entry).mpr
          (harmless.plannable entry second)
    · have distinct := batch.distinct
      rw [slugs_zipIdx] at distinct ⊢
      rw [List.map_append, List.nodup_append]
      refine ⟨distinct, harmless.distinct, ?_⟩
      rintro slug inGrounded other inAdded
      obtain ⟨first, firstMember, rfl⟩ := List.mem_map.mp inGrounded
      obtain ⟨second, secondMember, rfl⟩ := List.mem_map.mp inAdded
      exact harmless.fresh second secondMember first firstMember
    · rw [entries]
      intro entry member
      rcases List.mem_append.mp member with first | second
      · exact batch.accepted entry first
      · exact (draftAccepted_rooted writer sessionId providerName created entry).mpr
          (harmless.accepted entry second)

end Batch

/-! ### Synthesis against no synthesis -/

section Additive

variable {Audit : Type} (seams : Seams Audit) (writer : PendingDraftWriter) (sessionId : DomainId)
  (events : List SessionEvent) (providerName : Str)

/-- The synthesis pass that finds nothing. -/
def emptySynthesis : SynthesisPass := fun _ _ => .ok []

/-- If the session succeeds without synthesised candidates, it also succeeds with
this synthesis and writes at least the same drafts. -/
def SynthesisAdditive (synthesis : SynthesisPass) (before : Fs) : Prop :=
  ∀ report after,
    runOrchestration seams writer sessionId events providerName emptySynthesis before =
      .ok report after →
    ∃ enriched enrichedFs,
      runOrchestration seams writer sessionId events providerName synthesis before =
        .ok enriched enrichedFs ∧
      ∀ path ∈ report.draftPaths,
        path ∈ enriched.draftPaths ∧ enrichedFs.node path = after.node path

theorem writePendingDrafts_begins {extractionResult : ExtractionResult} {before after : Fs}
    {paths : List Path}
    (ran : writer.writePendingDrafts extractionResult providerName before = .ok paths after) :
    ∃ scopeRoot rooted, writer.scopeRoot = .ok scopeRoot ∧
      Succeeds (Fs.createDirAll writer.refusals (scopeRoot ++ [".skills".toList])) before rooted := by
  unfold PendingDraftWriter.writePendingDrafts at ran
  cases resolved : writer.scopeRoot with
  | error error =>
    simp only [resolved, ofExcept, bind, EStateM.bind] at ran
    cases ran
  | ok scopeRoot =>
    cases created : Fs.createDirAll writer.refusals (scopeRoot ++ [".skills".toList]) before with
    | error error rooted =>
      simp only [resolved, ofExcept, bind, EStateM.bind, pure, EStateM.pure, orWriteFailure,
        created] at ran
      cases ran
    | ok _ rooted => exact ⟨scopeRoot, rooted, rfl, created⟩

theorem runOrchestration_eq_ok {grounded : GroundedCandidates Audit}
    (found : groundCandidates seams sessionId events = .ok grounded) (synthesis : SynthesisPass)
    (before : Fs) (after : Fs) (paths : List Path) :
    (∃ report, runOrchestration seams writer sessionId events providerName synthesis before =
        .ok report after ∧ report.draftPaths = paths) ↔
      writer.writePendingDrafts
        ⟨sessionId, grounded.dedupedCandidates ++ synthesisCandidates synthesis grounded, providerName⟩
        providerName before = .ok paths after := by
  unfold runOrchestration finishOrchestration
  rw [found]
  dsimp only
  cases writer.writePendingDrafts
      ⟨sessionId, grounded.dedupedCandidates ++ synthesisCandidates synthesis grounded, providerName⟩
      providerName before with
  | error error state => simp
  | ok written state =>
    simp only [EStateM.Result.ok.injEq]
    constructor
    · rintro ⟨report, ⟨rfl, rfl⟩, rfl⟩
      exact ⟨rfl, rfl⟩
    · rintro ⟨rfl, rfl⟩
      exact ⟨_, ⟨rfl, rfl⟩, rfl⟩

/-- Synthesis is additive for a session exactly when the session fails without it,
or it fails itself, or its candidates are harmless to the grounded batch. -/
theorem synthesisAdditive_iff (synthesis : SynthesisPass) (before : Fs) :
    SynthesisAdditive seams writer sessionId events providerName synthesis before ↔
      ((∃ report after,
          runOrchestration seams writer sessionId events providerName emptySynthesis before =
            .ok report after) →
        ∀ grounded scopeRoot added,
          groundCandidates seams sessionId events = .ok grounded →
          writer.scopeRoot = .ok scopeRoot →
          synthesis grounded.dedupedCandidates grounded.preambleText = .ok added →
          Harmless writer sessionId providerName before (scopeRoot ++ [".skills".toList])
            grounded.dedupedCandidates added) := by
  cases found : groundCandidates seams sessionId events with
  | error error => simp [SynthesisAdditive, runOrchestration, found]
  | ok grounded =>
    have runs (pass : SynthesisPass) := runOrchestration_eq_ok seams writer sessionId events
      providerName found pass before
    have alone : grounded.dedupedCandidates ++ synthesisCandidates emptySynthesis grounded =
        grounded.dedupedCandidates := List.append_nil _
    constructor
    · rintro additive ⟨report, after, ran⟩ _ scopeRoot added ⟨⟩ resolved synthesised
      obtain ⟨enriched, enrichedFs, enrichedRan, -⟩ := additive report after ran
      have written := (runs synthesis enrichedFs enriched.draftPaths).mp ⟨enriched, enrichedRan, rfl⟩
      obtain ⟨root, rooted, same, created⟩ := writePendingDrafts_begins writer providerName written
      obtain rfl := Except.ok.inj (resolved.symm.trans same)
      have batch := (writePendingDrafts_ok writer sessionId providerName resolved created _).1.mp
        ⟨_, _, written⟩
      have addition : synthesisCandidates synthesis grounded = added := by
        rw [synthesisCandidates, synthesised]
      rw [addition] at batch
      exact ((batchAccepted_append writer sessionId providerName created _ _).mp batch).2
    · intro harmless report after ran
      have written := (runs emptySynthesis after report.draftPaths).mp ⟨report, ran, rfl⟩
      rw [alone] at written
      obtain ⟨scopeRoot, rooted, resolved, created⟩ :=
        writePendingDrafts_begins writer providerName written
      have aloneOk := writePendingDrafts_ok writer sessionId providerName resolved created
        grounded.dedupedCandidates
      obtain ⟨alonePaths, aloneNodes⟩ := aloneOk.2 _ _ written
      have fits : Harmless writer sessionId providerName before (scopeRoot ++ [".skills".toList])
          grounded.dedupedCandidates (synthesisCandidates synthesis grounded) := by
        unfold synthesisCandidates
        cases synthesised : synthesis grounded.dedupedCandidates grounded.preambleText with
        | error error => exact ⟨List.nodup_nil, by simp, by simp, by simp⟩
        | ok added => exact harmless ⟨report, after, ran⟩ _ _ _ rfl resolved synthesised
      have bothOk := writePendingDrafts_ok writer sessionId providerName resolved created
        (grounded.dedupedCandidates ++ synthesisCandidates synthesis grounded)
      obtain ⟨paths, enrichedFs, bothWritten⟩ := bothOk.1.mpr
        ((batchAccepted_append writer sessionId providerName created _ _).mpr
          ⟨aloneOk.1.mp ⟨_, _, written⟩, fits⟩)
      obtain ⟨bothPaths, bothNodes⟩ := bothOk.2 _ _ bothWritten
      obtain ⟨enriched, enrichedRan, rfl⟩ := (runs synthesis enrichedFs paths).mpr bothWritten
      refine ⟨enriched, enrichedFs, enrichedRan, ?_⟩
      rw [alonePaths, bothPaths]
      intro path member
      obtain ⟨candidate, inGrounded, rfl⟩ := List.mem_map.mp member
      refine ⟨List.mem_map_of_mem (List.mem_append_left _ inGrounded), ?_⟩
      obtain ⟨index, inside, rfl⟩ := List.mem_iff_getElem.mp inGrounded
      have entry : (grounded.dedupedCandidates[index], index) ∈ grounded.dedupedCandidates.zipIdx :=
        List.mem_zipIdx_iff_getElem?.mpr (List.getElem?_eq_getElem inside)
      have kept : (grounded.dedupedCandidates[index], index) ∈
          (grounded.dedupedCandidates ++ synthesisCandidates synthesis grounded).zipIdx := by
        rw [List.zipIdx_append]
        exact List.mem_append_left _ entry
      exact (bothNodes _ kept).trans (aloneNodes _ entry).symm

end Additive

/-! ### A proposal that repeats a grounded name -/

def cacheCandidate (name : Str) : ExtractedSkillCandidate :=
  ⟨name, "Keep the build cache.", [], ["Reuse the cache"], [], [], none, none⟩

/-- One window, one grounded candidate. -/
def cacheSeams : Seams Unit where
  minePreamble _ := .ok ⟨[], []⟩
  segmentation := ⟨8192, 3⟩
  mapOneWindow _ _ _ := .ok [cacheCandidate "Cache builds"]
  joinOrder results := results
  reduceCandidates candidates := .ok (candidates, [])

def cacheWriter : PendingDraftWriter where
  format := ⟨fun _ => "1970-01-01T00:00:00+00:00", fun frontmatter =>
    .ok ("name: ".toList ++ frontmatter.name ++ ['\n'])⟩
  refusals _ := none
  torn _ := none
  scopeRoot := .ok [[], "repo"]
  now _ := 0
  batchNonce := "1-1"

/-- A repository without pending drafts. -/
def cacheFs : Fs :=
  ⟨fun path => if path = [[]] ∨ path = [[], "repo".toList] then some .directory else none⟩

def cacheRun (synthesis : SynthesisPass) :
    EStateM.Result OrchestrationError Fs (OrchestrationReport Unit) :=
  runOrchestration cacheSeams cacheWriter ⟨"s1"⟩ [.userMessage 0 "hi"] "ollama" synthesis cacheFs

def writtenPaths : EStateM.Result OrchestrationError Fs (OrchestrationReport Unit) → Option (List Path)
  | .ok report _ => some report.draftPaths
  | .error _ _ => none

/-- A synthesised candidate whose name slugifies to a grounded one costs the
session all its drafts. -/
theorem repeatedSlug_costs_drafts :
    ¬ SynthesisAdditive cacheSeams cacheWriter ⟨"s1"⟩ [.userMessage 0 "hi"] "ollama"
      (fun _ _ => .ok [cacheCandidate "cache  BUILDS"]) cacheFs := by
  intro additive
  have alone : writtenPaths (cacheRun emptySynthesis) =
      some [[[], "repo", ".skills", "cache-builds", "SKILL.md.pending"]] := by decide +kernel
  have together : writtenPaths (cacheRun fun _ _ => .ok [cacheCandidate "cache  BUILDS"]) = none := by
    decide +kernel
  cases ran : cacheRun emptySynthesis with
  | error error state =>
    rw [ran] at alone
    cases alone
  | ok report after =>
    obtain ⟨enriched, enrichedFs, enrichedRan, -⟩ := additive report after ran
    rw [cacheRun, enrichedRan] at together
    cases together

end SkillLayer.SessionExtractor
