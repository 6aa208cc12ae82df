import SkillLayer.Maintenance.Recurrence
import SkillLayer.Maintenance.Retire

/-! The audit trail of the markers and the merge proposals: when each file on disk has its event. -/

namespace SkillLayer.Maintenance

open Infrastructure hiding Timestamp
open Domain (Timestamp)

/-- What a marker or a merge proposal changes in the lifecycle of skills. -/
inductive LifecycleChange where
  | merged (path : Path) (skillIds : List Str)
  | retired (path : Path) (skillId : Str)
deriving DecidableEq

def CreatedFile.change? : CreatedFile → Option LifecycleChange
  | ⟨path, .merge left right⟩ => some (.merged path (Str.sorted [left.id, right.id]))
  | ⟨path, .retirement skill⟩ => some (.retired path skill.id)
  | _ => none

def MaintenanceAuditEvent.change {F : Type} : MaintenanceAuditEvent F → LifecycleChange
  | .mergeProposalWritten event => .merged event.proposalPath event.mergedFromSkillIds
  | .retirementProposalWritten event => .retired event.proposalPath event.skillId

/-- The recorded events are those of the created markers and merge proposals, in order. -/
def Audited {F : Type} (workspace : Workspace F) : Prop :=
  workspace.audits.map MaintenanceAuditEvent.change = workspace.created.filterMap CreatedFile.change?

/-- A marker or a merge proposal that is going to be created, and its event. -/
structure AuditedFile (F : Type) where
  file : CreatedFile
  event : MaintenanceAuditEvent F

variable {F Err Out : Type} (faults : HostFaults F)

/-- Nothing is in the place of the file, and the system lets it be created. -/
def Free (entry : AuditedFile F) (fs : Fs) : Prop :=
  fs.node entry.file.path = none ∧ faults.refusals (.write entry.file.path) = none

/-- Up to the first file that cannot be created, each is written whole and its event is taken. -/
def Sound : List (AuditedFile F) → Fs → Prop
  | [], _ => True
  | entry :: rest, fs =>
    Free faults entry fs →
      (faults.writeAll entry.file.path = none ∧ faults.emit entry.event = none) ∧ Sound rest fs

/-- What was there is still there. -/
def Keeps (before after : Fs) : Prop := ∀ path node, before.node path = some node → after.node path = some node

variable {faults} {plan more : List (AuditedFile F)}

theorem sound_append {fs : Fs} :
    Sound faults (plan ++ more) fs ↔
      Sound faults plan fs ∧ ((∀ entry ∈ plan, Free faults entry fs) → Sound faults more fs) := by
  induction plan with
  | nil => simp [Sound]
  | cons entry rest ih =>
    simp only [List.cons_append, Sound, ih, List.forall_mem_cons]
    constructor
    · intro sound
      exact ⟨fun free => ⟨(sound free).1, (sound free).2.1⟩, fun all => (sound all.1).2.2 all.2⟩
    · rintro ⟨first, later⟩ free
      exact ⟨(first free).1, (first free).2, fun others => later ⟨free, others⟩⟩

theorem audited_extends {before after : Workspace F} {new : List CreatedFile} (audited : Audited before)
    (same : after.audits = before.audits) (extended : Extends before after new)
    (silent : ∀ file ∈ new, file.change? = none) : Audited after := by
  unfold Audited at *
  rw [same, audited, extended.recorded, List.filterMap_append, List.filterMap_eq_nil_iff.mpr silent, List.append_nil]

theorem audited_emitted {before after : Workspace F} {entry : AuditedFile F} (audited : Audited before)
    (same : after.audits = before.audits) (extended : Extends before after [entry.file])
    (about : entry.file.change? = some entry.event.change) :
    Audited { after with audits := after.audits ++ [entry.event] } := by
  unfold Audited at *
  rw [same, List.map_append, audited, extended.recorded, List.filterMap_append, List.filterMap_cons, about]
  rfl

/-! ### Actions that record what they create -/

/-- On a sound host, the action creates files of the plan only with their events; when it ends
well all of them could be created. -/
def Audits (faults : HostFaults F) (plan : List (AuditedFile F)) (action : EStateM Err (Workspace F) Out) : Prop :=
  ∀ start before, Keeps start before.fs → Sound faults plan start → Audited before →
    Leads action before fun result after =>
      Keeps start after.fs ∧ Audited after ∧
        ∀ value, result = .ok value → ∀ entry ∈ plan, Free faults entry start

theorem audits_pure (value : Out) : Audits faults [] (pure value : EStateM Err (Workspace F) Out) :=
  fun _ _ kept _ audited => ⟨kept, audited, fun _ _ _ member => absurd member List.not_mem_nil⟩

theorem audits_bind {Value : Type} {first : EStateM Err (Workspace F) Value}
    {second : Value → EStateM Err (Workspace F) Out} (leading : Audits faults plan first)
    (trailing : ∀ value, Audits faults more (second value)) : Audits faults (plan ++ more) (first >>= second) := by
  intro start before kept sound audited
  obtain ⟨soundFirst, soundThen⟩ := sound_append.mp sound
  rw [leads_bind]
  apply (leading start before kept soundFirst audited).mono
  rintro result between ⟨keptThen, auditedThen, free⟩
  cases result with
  | error error => exact ⟨keptThen, auditedThen, fun _ impossible => nomatch impossible⟩
  | ok value =>
    have firstFree := free value rfl
    apply (trailing value start between keptThen (soundThen firstFree) auditedThen).mono
    rintro result after ⟨keptAfter, auditedAfter, freeThen⟩
    refine ⟨keptAfter, auditedAfter, fun out ended entry member => ?_⟩
    rcases List.mem_append.mp member with early | late
    · exact firstFree entry early
    · exact freeThen out ended entry late

theorem audits_ofExcept_bind {Value : Type} {decision : Except Err Value}
    {next : Value → EStateM Err (Workspace F) Out}
    (decided : ∀ value, decision = .ok value → Audits faults plan (next value)) :
    Audits faults plan (ofExcept decision >>= next) := by
  intro start before kept sound audited
  rw [leads_ofExcept_bind]
  cases decision with
  | ok value => exact decided value rfl start before kept sound audited
  | error error => exact ⟨kept, audited, fun _ impossible => nomatch impossible⟩

theorem audits_get_bind {next : Workspace F → EStateM Err (Workspace F) Out}
    (each : ∀ workspace, Audits faults plan (next workspace)) : Audits faults plan (get >>= next) := by
  intro start before kept sound audited
  rw [leads_get_bind]
  exact each before start before kept sound audited

theorem audits_reportAs {Problem : Type} {report : Problem → Err} {action : EStateM Problem (Workspace F) Out}
    (audits : Audits faults plan action) : Audits faults plan (reportAs report action) := by
  intro start before kept sound audited
  have leads := audits start before kept sound audited
  unfold Leads reportAs at *
  cases ran : action before with
  | ok value after =>
    rw [ran] at leads
    exact ⟨leads.1, leads.2.1, fun out _ => leads.2.2 value rfl⟩
  | error error after =>
    rw [ran] at leads
    exact ⟨leads.1, leads.2.1, fun _ impossible => nomatch impossible⟩

theorem audits_collectEach {Item : Type} {planned : Item → List (AuditedFile F)}
    {step : Item → EStateM Err (Workspace F) Out} {items : List Item}
    (each : ∀ item ∈ items, Audits faults (planned item) (step item)) :
    Audits faults (items.flatMap planned) (collectEach step items) := by
  induction items with
  | nil => exact audits_pure []
  | cons item rest ih =>
    rw [List.flatMap_cons, collectEach]
    refine audits_bind (each item List.mem_cons_self) fun out => ?_
    rw [← List.append_nil (rest.flatMap planned)]
    exact audits_bind (ih fun other member => each other (List.mem_cons_of_mem _ member)) fun outs => audits_pure _

/-! ### Files with their events -/

/-- The action creates one file, or it does not, or the write of the created file fails. -/
def Writes (faults : HostFaults F) (file : CreatedFile) (promised : Out → Prop)
    (action : EStateM Err (Workspace F) Out) : Prop :=
  ∀ before, Leads action before fun result after =>
    after.audits = before.audits ∧
      match result with
      | .ok value => Extends before after [file] ∧ faults.refusals (.write file.path) = none ∧ promised value
      | .error _ => Extends before after [] ∨
          (Extends before after [file] ∧ faults.refusals (.write file.path) = none ∧
            faults.writeAll file.path ≠ none)

theorem writes_writeNew (report : Path → Str → Err) (file : CreatedFile) (content : Str) :
    Writes faults file (fun _ => True) (writeNew faults report file.path content file.proposed) := by
  intro before
  apply ((leads_writeNew report file content before).and
    (leads_writeNew_refused report file.path content file.proposed before)).mono
  rintro result after ⟨⟨same, ended⟩, unrefused | ⟨rfl, failed⟩⟩
  · refine ⟨same, ?_⟩
    cases result with
    | ok _ => exact ⟨ended, unrefused, trivial⟩
    | error error => exact ended.imp id fun broken => ⟨broken.1, unrefused, broken.2⟩
  · cases result with
    | ok _ => exact absurd rfl failed
    | error error => exact ⟨rfl, Or.inl (Extends.refl _)⟩

theorem writes_placeProposal {scopeFailure : MergeError → Err} {report : Path → Str → Err} {scopeRoot : Path}
    {pendingDirectoryName directoryName : Str} {recheck : Bool} {render : Except Err Str} {proposed : Proposed} :
    Writes faults ⟨proposalPath scopeRoot pendingDirectoryName directoryName, proposed⟩
      (fun path => path = proposalPath scopeRoot pendingDirectoryName directoryName)
      (placeProposal faults scopeFailure report scopeRoot pendingDirectoryName directoryName recheck render
        proposed) := by
  intro before
  apply ((leads_placeProposal _ _ _ _ _ _ _ _ before).and (leads_placeProposal_refused _ _ _ _ _ _ _ _ before)).mono
  rintro result after ⟨⟨same, ended⟩, unrefused | ⟨prepared, failed⟩⟩
  · refine ⟨same, ?_⟩
    cases result with
    | ok path => exact ⟨ended.2, unrefused, ended.1⟩
    | error error => exact ended.imp id fun broken => ⟨broken.1, unrefused, broken.2⟩
  · cases result with
    | ok path => exact absurd rfl (failed path)
    | error error => exact ⟨same, Or.inl prepared.extended⟩

theorem free_of_extends {start : Fs} {before after : Workspace F} {entry : AuditedFile F}
    (kept : Keeps start before.fs) (extended : Extends before after [entry.file])
    (unrefused : faults.refusals (.write entry.file.path) = none) : Free faults entry start := by
  refine ⟨?_, unrefused⟩
  have missing := extended.fresh entry.file (List.mem_singleton_self _)
  cases there : start.node entry.file.path with
  | none => rfl
  | some node => exact absurd (kept _ _ there) (by simp [missing])

theorem Keeps.extends {start : Fs} {before after : Workspace F} {new : List CreatedFile}
    (kept : Keeps start before.fs) (extended : Extends before after new) : Keeps start after.fs :=
  fun path node there => extended.grown path node (kept path node there)

/-- A file that needs no event. -/
theorem audits_of_writes {file : CreatedFile} {promised : Out → Prop} {action : EStateM Err (Workspace F) Out}
    (writes : Writes faults file promised action) (silent : file.change? = none) : Audits faults [] action := by
  intro start before kept _ audited
  apply (writes before).mono
  rintro result after ⟨same, ended⟩
  have nothing : ∀ other ∈ ([] : List CreatedFile), other.change? = none := fun _ none => absurd none List.not_mem_nil
  have alone : ∀ other ∈ [file], other.change? = none := fun other member => by rw [List.mem_singleton.mp member, silent]
  have done (new : List CreatedFile) (extended : Extends before after new) (silent : ∀ file ∈ new, file.change? = none) :
      Keeps start after.fs ∧ Audited after ∧ ∀ value, result = .ok value → ∀ entry ∈ ([] : List (AuditedFile F)),
        Free faults entry start :=
    ⟨kept.extends extended, audited_extends audited same extended silent, fun _ _ _ none => absurd none List.not_mem_nil⟩
  cases result with
  | ok value => exact done [file] ended.1 alone
  | error error =>
    rcases ended with extended | ⟨extended, -⟩
    · exact done [] extended nothing
    · exact done [file] extended alone

/-- A file whose event is emitted next. -/
theorem audits_emitted {Value : Type} {entry : AuditedFile F} {promised : Out → Prop}
    {writing : EStateM Err (Workspace F) Out} {report : Str → Err} {event : Out → MaintenanceAuditEvent F}
    {value : Out → Value} (writes : Writes faults entry.file promised writing)
    (about : entry.file.change? = some entry.event.change)
    (same : ∀ out, promised out → event out = entry.event) :
    Audits faults [entry] (do
      let out ← writing
      emitAudit faults report (event out)
      return value out) := by
  intro start before kept sound audited
  rw [leads_bind]
  apply (writes before).mono
  rintro result between ⟨unchanged, ended⟩
  cases result with
  | error error =>
    rcases ended with extended | ⟨extended, unrefused, broken⟩
    · exact ⟨kept.extends extended, audited_extends audited unchanged extended (fun _ none => absurd none List.not_mem_nil),
        fun _ impossible => nomatch impossible⟩
    · exact absurd (sound (free_of_extends kept extended unrefused)).1.1 broken
  | ok out =>
    obtain ⟨extended, unrefused, promise⟩ := ended
    have free := free_of_extends kept extended unrefused
    have keptThen : Keeps start between.fs := kept.extends extended
    dsimp only
    rw [leads_bind, Leads, emitAudit, same out promise, (sound free).1.2]
    refine ⟨keptThen, audited_emitted audited unchanged extended about, fun _ _ other member => ?_⟩
    rw [List.mem_singleton.mp member]
    exact free

/-! ### The passes -/

section Passes

variable (services : ScopeServices F) (scores : ScoreOps F) (now : Timestamp) (mergeConfig : MergeConfig F)
  (retirementConfig : RetirementConfig F) (skills : List SkillSnapshot)

/-- The proposal of a merge candidate with its event. -/
def auditedMerge (candidate : MergeCandidate F) : List (AuditedFile F) :=
  match candidateSkills skills candidate with
  | .error _ => []
  | .ok (left, right) =>
    let canonicalScope := resolveScope [left.scope, right.scope]
    match outputRootForScope canonicalScope left right with
    | .error _ => []
    | .ok root =>
      let path := proposalPath root mergeConfig.pendingDirectoryName (mergeDirectoryName left right)
      [⟨⟨path, .merge left right⟩, mergeAuditEvent left right candidate.cosineSimilarity now
        ⟨path, canonicalScope, sortedUniqueScopes [left.scope, right.scope], [left.sourcePath, right.sourcePath]⟩⟩]

def auditedMerges : List (AuditedFile F) :=
  if skills.length < 2 then []
  else
    match findCandidates services.shared mergeConfig skills with
    | .error _ => []
    | .ok candidates => candidates.flatMap (auditedMerge now mergeConfig skills)

/-- The marker of a skill that is used too little, with its event. -/
def auditedRetirement (usageSamples : List UsageSample) (skill : SkillSnapshot) : List (AuditedFile F) :=
  match staleScore? scores retirementConfig usageSamples now skill with
  | none => []
  | some usageScore =>
    [⟨⟨markerPath skill, .retirement skill⟩,
      retirementAuditEvent skill now ⟨skill.id, markerPath skill, usageScore⟩⟩]

def auditedRetirements (fetched : Except Str (List SkillUsageSummary)) : List (AuditedFile F) :=
  match fetched with
  | .error _ => []
  | .ok summaries =>
    skills.flatMap (auditedRetirement scores now retirementConfig (summaries.filterMap (usageSampleOf now)))

variable {services scores now mergeConfig retirementConfig skills}

theorem audits_proposeMerge (candidate : MergeCandidate F) :
    Audits faults (auditedMerge now mergeConfig skills candidate)
      (proposeMerge services.shared faults mergeConfig skills now candidate) := by
  unfold proposeMerge
  refine audits_ofExcept_bind ?_
  rintro ⟨left, right⟩ looked
  unfold writeMergeProposal
  refine audits_ofExcept_bind fun root resolved => ?_
  rw [auditedMerge, looked]
  dsimp only
  rw [resolved]
  refine audits_emitted writes_placeProposal rfl ?_
  rintro _ rfl
  rfl

theorem audits_runMergePass :
    Audits faults (auditedMerges services now mergeConfig skills)
      (runMergePass services faults now mergeConfig skills) := by
  unfold runMergePass auditedMerges
  split
  · exact audits_pure []
  · refine audits_reportAs (audits_ofExcept_bind fun candidates found => ?_)
    rw [found]
    exact audits_collectEach fun candidate _ => audits_proposeMerge candidate

theorem audits_proposeRetirement {usageSamples : List UsageSample} (skill : SkillSnapshot) :
    Audits faults (auditedRetirement scores now retirementConfig usageSamples skill)
      (proposeRetirement scores faults retirementConfig usageSamples now skill) := by
  unfold proposeRetirement auditedRetirement
  cases staleScore? scores retirementConfig usageSamples now skill with
  | none => exact audits_pure []
  | some usageScore =>
    refine audits_get_bind fun workspace => audits_ofExcept_bind fun retiredPath resolved => ?_
    obtain rfl := of_retiredPath resolved
    exact audits_emitted (writes_writeNew _ ⟨_, .retirement skill⟩ _) rfl fun _ _ => rfl

theorem audits_runRetirementPass {fetched : Except Str (List SkillUsageSummary)} :
    Audits faults (auditedRetirements scores now retirementConfig skills fetched)
      (runRetirementPass scores faults retirementConfig now skills fetched) := by
  unfold runRetirementPass auditedRetirements
  cases skills with
  | nil => cases fetched <;> exact audits_pure []
  | cons first rest =>
    cases fetched with
    | error error => exact fun start before kept _ audited => ⟨kept, audited, fun _ impossible => nomatch impossible⟩
    | ok summaries =>
      dsimp only [List.isEmpty_cons]
      rw [← List.append_nil (List.flatMap _ _)]
      refine audits_bind (audits_reportAs (audits_collectEach fun skill _ => ?_)) fun proposals => audits_pure _
      exact audits_proposeRetirement skill

/-! Promotions and demotions have no events. -/

theorem audits_proposePromotion {runner : PromotionPassRunner F} (snapshot : SkillSnapshot)
    (evidence : PromotionEvidence) :
    Audits faults [] (proposePromotion services faults runner now snapshot evidence) := by
  unfold proposePromotion writePromotionProposal
  refine audits_reportAs ?_
  exact audits_bind (audits_of_writes writes_placeProposal rfl) fun path => audits_pure _

theorem audits_proposeDemotion {runner : PromotionPassRunner F} (finding : GlobalSkillRow × List Str) :
    Audits faults [] (proposeDemotion services faults runner now finding) := by
  unfold proposeDemotion writeDemotionProposal
  refine audits_reportAs ?_
  exact audits_bind (audits_of_writes writes_placeProposal rfl) fun path => audits_pure _

theorem audits_collectSilent {Item : Type} {step : Item → EStateM Err (Workspace F) Out} {items : List Item}
    (each : ∀ item, Audits faults [] (step item)) : Audits faults [] (collectEach step items) := by
  have loop : Audits faults (items.flatMap fun _ => []) (collectEach step items) :=
    audits_collectEach fun item _ => each item
  rwa [List.flatMap_eq_nil_iff.mpr fun _ _ => rfl] at loop

theorem audits_runPromotionPass {runner : PromotionPassRunner F} {fetched : Except Str (List ProjectSkillRow)} :
    Audits faults [] (runPromotionPass services faults runner now fetched) := by
  have intrinsic : Audits faults [] (runIntrinsicPass services faults runner now) := by
    unfold runIntrinsicPass
    refine audits_bind (audits_collectSilent fun snapshot => ?_) fun proposals => audits_pure _
    unfold evaluateSnapshot
    refine audits_ofExcept_bind fun passed _ => ?_
    cases passed with
    | false => exact audits_pure []
    | true => exact audits_bind (audits_proposePromotion snapshot .intrinsic) fun proposal => audits_pure _
  have recurrence : Audits faults [] (runRecurrencePass services faults runner now fetched) := by
    unfold runRecurrencePass
    split
    · exact audits_pure []
    · refine audits_ofExcept_bind fun projectSkills _ => audits_ofExcept_bind fun clusters _ => ?_
      refine audits_bind (audits_collectSilent fun cluster => ?_) fun proposals => audits_pure _
      unfold proposeCluster
      dsimp only
      split
      · exact audits_pure []
      · cases cluster with
        | nil => exact audits_pure []
        | cons representative others => exact audits_bind (audits_proposePromotion _ _) fun proposal => audits_pure _
  unfold runPromotionPass
  exact audits_bind intrinsic fun intrinsicProposals => audits_bind recurrence fun recurrenceProposals => audits_pure _

theorem audits_scanDemotions {runner : PromotionPassRunner F} {fetched : Except Str (List GlobalSkillRow)} :
    Audits faults [] (scanDemotions services faults runner now fetched) := by
  unfold scanDemotions
  split
  · exact audits_pure []
  · cases fetched with
    | error error => exact fun start before kept _ audited => ⟨kept, audited, fun _ impossible => nomatch impossible⟩
    | ok globalSkills => exact audits_collectSilent fun finding => audits_proposeDemotion finding

end Passes

end SkillLayer.Maintenance
