import SkillLayer.Maintenance.Merge

/-! Where a proposal is placed, and what the placement does to the files, however it ends. -/

namespace SkillLayer.Maintenance

open Domain

/-- The first component of the configured name. -/
def pendingDirectory (pendingDirectoryName : Str) : Str := (Str.splitOn '/' pendingDirectoryName).headD []

/-- The file of a proposal below a scope root. -/
def proposalPath (scopeRoot : Path) (pendingDirectoryName directoryName : Str) : Path :=
  scopeRoot ++ [pendingDirectory pendingDirectoryName, directoryName, pendingSkillFileName]

theorem eq_pendingDirectory {name directory : Str} (valid : validatePendingDirectoryName name = .ok directory) :
    directory = pendingDirectory name := by
  unfold validatePendingDirectoryName at valid
  unfold pendingDirectory
  split at valid
  · cases valid
  · rename_i first rest split
    split at valid
    · cases valid
    · cases valid
      rw [split]
      rfl

theorem of_canonicalize {fs : Fs} {path canonical : Path} (found : canonicalize fs path = .ok canonical) :
    canonical = path := by
  unfold canonicalize at found
  split at found
  · exact (Except.ok.inj found).symm
  · cases found

theorem of_canonicalizeScopeRoot {fs : Fs} {scopeRoot canonical : Path}
    (found : canonicalizeScopeRoot fs scopeRoot = .ok canonical) :
    canonical = scopeRoot ∧ scopeRoot.head? = some [] ∧ fs.node scopeRoot = some .directory := by
  unfold canonicalizeScopeRoot at found
  split at found
  · cases found
  · rename_i absolute
    split at found
    · cases found
    · rename_i root resolved
      obtain rfl := of_canonicalize resolved
      split at found
      · cases found
      · rename_i isDirectory
        exact ⟨(Except.ok.inj found).symm, not_not.mp absolute, not_not.mp isDirectory⟩

section Placement

variable {F Err : Type} {faults : HostFaults F} {before : Workspace F}

/-- What was done before the file of a proposal is opened. -/
structure Prepares (before after : Workspace F) : Prop where
  extended : Extends before after []
  audits : after.audits = before.audits

theorem Prepares.refl (workspace : Workspace F) : Prepares workspace workspace :=
  ⟨Extends.refl workspace, rfl⟩

theorem Prepares.trans {between after : Workspace F} (first : Prepares before between)
    (second : Prepares between after) : Prepares before after :=
  ⟨first.extended.trans second.extended, second.audits.trans first.audits⟩

/-- The scope root is a directory and no file is in the way of the directories of a proposal. -/
structure ProposalSite (scopeRoot : Path) (pendingDirectoryName directoryName : Str) (fs : Fs) : Prop where
  absolute : scopeRoot.head? = some []
  root : fs.node scopeRoot = some .directory
  named : ∃ directory, validatePendingDirectoryName pendingDirectoryName = .ok directory
  passable : ∀ level ∈ (scopeRoot ++ [pendingDirectory pendingDirectoryName, directoryName]).inits.tail,
    ∀ content, fs.node level ≠ some (.file content)

theorem mem_inits_tail {path level : Path} : level ∈ path.inits.tail ↔ level <+: path ∧ level ≠ [] := by
  cases path with
  | nil => simp
  | cons first rest =>
    rw [List.inits_cons, List.tail_cons, List.mem_map, List.prefix_cons_iff]
    constructor
    · rintro ⟨tail, member, rfl⟩
      exact ⟨Or.inr ⟨tail, rfl, (List.mem_inits _ _).mp member⟩, List.cons_ne_nil _ _⟩
    · rintro ⟨isNil | ⟨tail, rfl, isPrefix⟩, nonempty⟩
      · exact absurd isNil nonempty
      · exact ⟨tail, (List.mem_inits _ _).mpr isPrefix, rfl⟩

theorem leads_createDirAll (report : Str → Err) (path : Path) (before : Workspace F) :
    Leads (onFiles report (Fs.createDirAll faults.refusals path)) before fun result after =>
      Prepares before after ∧ (result = .ok ⟨⟩ →
        ∀ level ∈ path.inits.tail, ∀ content, before.fs.node level ≠ some (.file content)) := by
  rw [leads_onFiles]
  refine leads_of_ends ?_ ?_
  · intro _ fs ran
    have grown := (Fs.leads_createDirs faults.refusals path.inits.tail before.fs).of_ok ran
    refine ⟨⟨Extends.of_files grown rfl, rfl⟩, fun _ level member content there => ?_⟩
    have made := (Fs.of_createDirs ran).1 level member
    rw [grown.kept level _ there] at made
    cases made
  · intro error fs ran
    have grown := (Fs.leads_createDirs faults.refusals path.inits.tail before.fs).of_error ran
    exact ⟨⟨Extends.of_files grown rfl, rfl⟩, fun impossible => nomatch impossible⟩

theorem leads_recheckProposalRoot (scopeFailure : MergeError → Err) (report : Path → Str → Err)
    (recheck : Bool) (proposalRoot canonicalScopeRoot : Path) (before : Workspace F) :
    Leads (recheckProposalRoot scopeFailure report recheck proposalRoot canonicalScopeRoot) before
      fun _ after => Prepares before after := by
  unfold recheckProposalRoot
  split
  · rw [leads_get_bind, leads_ofExcept_bind]
    cases (canonicalize before.fs proposalRoot).mapError (report proposalRoot) with
    | error error => exact Prepares.refl before
    | ok canonicalProposalRoot =>
      dsimp only
      cases (ensurePathIsWithinScopeRoot canonicalProposalRoot canonicalScopeRoot).mapError scopeFailure <;>
        exact Prepares.refl before
  · exact Prepares.refl before

/-- How far a placement came: the file was made and written, or it was not made, or its write
has failed. -/
def Placed (faults : HostFaults F) (file : CreatedFile) (before : Workspace F) (result : Except Err Path)
    (after : Workspace F) : Prop :=
  after.audits = before.audits ∧
    match result with
    | .ok path => path = file.path ∧ Extends before after [file]
    | .error _ => Extends before after [] ∨ Extends before after [file] ∧ faults.writeAll file.path ≠ none

theorem Placed.after {file : CreatedFile} {between after : Workspace F} {result : Except Err Path}
    (prepared : Prepares before between) (placed : Placed faults file between result after) :
    Placed faults file before result after := by
  obtain ⟨audits, ended⟩ := placed
  refine ⟨audits.trans prepared.audits, ?_⟩
  cases result with
  | ok path => exact ⟨ended.1, prepared.extended.trans ended.2⟩
  | error error =>
    rcases ended with nothing | ⟨made, broken⟩
    · exact Or.inl (prepared.extended.trans nothing)
    · exact Or.inr ⟨prepared.extended.trans made, broken⟩

theorem Prepares.stopped {file : CreatedFile} {after : Workspace F} (prepared : Prepares before after)
    (error : Err) : Placed faults file before (.error error) after :=
  ⟨prepared.audits, Or.inl prepared.extended⟩

/-- What is known once the directory of a proposal is there. -/
structure Located (scopeRoot : Path) (pendingDirectoryName directoryName : Str) (before : Fs)
    (proposalRoot : Path) : Prop where
  file : proposalRoot ++ [pendingSkillFileName] = proposalPath scopeRoot pendingDirectoryName directoryName
  site : ProposalSite scopeRoot pendingDirectoryName directoryName before

theorem leads_openProposalRoot (scopeFailure : MergeError → Err) (report : Path → Str → Err)
    (scopeRoot : Path) (pendingDirectoryName directoryName : Str) (recheck : Bool) (before : Workspace F) :
    Leads (openProposalRoot faults scopeFailure report scopeRoot pendingDirectoryName directoryName recheck)
      before fun result after => Prepares before after ∧ ∀ proposalRoot, result = .ok proposalRoot →
        Located scopeRoot pendingDirectoryName directoryName before.fs proposalRoot := by
  have stopped {after : Workspace F} (prepared : Prepares before after) (error : Err) :
      Prepares before after ∧ ∀ proposalRoot, (.error error : Except Err Path) = .ok proposalRoot →
        Located scopeRoot pendingDirectoryName directoryName before.fs proposalRoot :=
    ⟨prepared, fun _ impossible => nomatch impossible⟩
  unfold openProposalRoot
  rw [leads_get_bind, leads_ofExcept_bind]
  cases resolved : canonicalizeScopeRoot before.fs scopeRoot with
  | error error => exact stopped (Prepares.refl before) _
  | ok canonicalScopeRoot =>
  obtain ⟨rfl, absolute, root⟩ := of_canonicalizeScopeRoot resolved
  dsimp only [Except.mapError]
  rw [leads_ofExcept_bind]
  cases valid : validatePendingDirectoryName pendingDirectoryName with
  | error error => exact stopped (Prepares.refl before) _
  | ok directory =>
  dsimp only
  rw [leads_bind]
  apply (leads_createDirAll _ _ before).mono
  rintro result between ⟨prepared, -⟩
  cases result with
  | error error => exact stopped prepared error
  | ok _ =>
  dsimp only
  rw [leads_get_bind, leads_ofExcept_bind]
  cases found : canonicalize between.fs (canonicalScopeRoot ++ [directory]) with
  | error error => exact stopped prepared _
  | ok canonicalPendingRoot =>
  obtain rfl := of_canonicalize found
  dsimp only
  rw [leads_ofExcept_bind]
  cases (ensurePathIsWithinScopeRoot (canonicalScopeRoot ++ [directory]) canonicalScopeRoot) with
  | error error => exact stopped prepared _
  | ok _ =>
  dsimp only
  rw [leads_bind]
  apply (leads_createDirAll _ _ between).mono
  rintro result made ⟨placed, passable⟩
  have readied := prepared.trans placed
  cases result with
  | error error => exact stopped readied error
  | ok _ =>
  dsimp only
  rw [leads_bind]
  apply (leads_recheckProposalRoot _ _ _ _ _ made).mono
  intro result checked rechecked
  have ready := readied.trans rechecked
  cases result with
  | error error => exact stopped ready error
  | ok _ =>
    refine ⟨ready, ?_⟩
    rintro _ ⟨⟩
    refine ⟨by simp [proposalPath, eq_pendingDirectory valid], absolute, root, ⟨directory, valid⟩, ?_⟩
    intro level member content there
    rw [← eq_pendingDirectory valid] at member
    refine passable rfl level ?_ content (prepared.extended.grown level _ there)
    simpa using member

/-- A placement makes the file of the proposal and directories, and nothing else. -/
theorem leads_placeProposal (scopeFailure : MergeError → Err) (report : Path → Str → Err)
    (scopeRoot : Path) (pendingDirectoryName directoryName : Str) (recheck : Bool)
    (render : Except Err Str) (proposed : Proposed) (before : Workspace F) :
    Leads (placeProposal faults scopeFailure report scopeRoot pendingDirectoryName directoryName recheck
      render proposed) before
      (Placed faults ⟨proposalPath scopeRoot pendingDirectoryName directoryName, proposed⟩ before) := by
  unfold placeProposal
  rw [leads_bind]
  apply (leads_openProposalRoot _ _ _ _ _ _ before).mono
  rintro result between ⟨prepared, located⟩
  cases result with
  | error error => exact prepared.stopped error
  | ok proposalRoot =>
  dsimp only
  rw [leads_ofExcept_bind, (located _ rfl).file]
  cases render with
  | error error => exact prepared.stopped error
  | ok pendingBody =>
  dsimp only
  rw [leads_bind]
  apply (leads_writeNew report ⟨_, proposed⟩ pendingBody between).mono
  intro result after written
  cases result with
  | error error => exact Placed.after prepared written
  | ok _ =>
    have placed : Placed faults ⟨proposalPath scopeRoot pendingDirectoryName directoryName, proposed⟩
        between (.ok (proposalPath scopeRoot pendingDirectoryName directoryName) : Except Err Path)
        after := ⟨written.1, rfl, written.2⟩
    exact Placed.after prepared placed

/-- Where the system refuses its file, a placement makes no more than directories. -/
theorem leads_placeProposal_refused (scopeFailure : MergeError → Err) (report : Path → Str → Err)
    (scopeRoot : Path) (pendingDirectoryName directoryName : Str) (recheck : Bool)
    (render : Except Err Str) (proposed : Proposed) (before : Workspace F) :
    Leads (placeProposal faults scopeFailure report scopeRoot pendingDirectoryName directoryName recheck
      render proposed) before fun result after =>
        faults.refusals (.write (proposalPath scopeRoot pendingDirectoryName directoryName)) = none ∨
          (Prepares before after ∧ ∀ path, result ≠ .ok path) := by
  unfold placeProposal
  rw [leads_bind]
  apply (leads_openProposalRoot _ _ _ _ _ _ before).mono
  rintro result between ⟨prepared, located⟩
  cases result with
  | error error => exact Or.inr ⟨prepared, fun _ impossible => nomatch impossible⟩
  | ok proposalRoot =>
  dsimp only
  rw [leads_ofExcept_bind, (located _ rfl).file]
  cases render with
  | error error => exact Or.inr ⟨prepared, fun _ impossible => nomatch impossible⟩
  | ok pendingBody =>
  dsimp only
  rw [leads_bind]
  apply (leads_writeNew_refused report _ pendingBody proposed between).mono
  rintro result after (unrefused | ⟨rfl, failed⟩)
  · cases result <;> exact Or.inl unrefused
  · cases result with
    | error error => exact Or.inr ⟨prepared, fun _ impossible => nomatch impossible⟩
    | ok _ => exact absurd rfl failed

/-! ### Where nothing fails -/

/-- The directories made on the way down to a path. -/
structure Descends (path : Path) (before after : Fs) : Prop where
  made : ∀ level ∈ path.inits.tail, after.node level = some .directory
  untouched : ∀ other ∉ path.inits.tail, after.node other = before.node other

theorem leads_createDirAll_passable (report : Str → Err) {path : Path} {before : Workspace F}
    (passable : ∀ level ∈ path.inits.tail, ∀ content, before.fs.node level ≠ some (.file content)) :
    Leads (onFiles report (Fs.createDirAll (HostFaults.none F).refusals path)) before fun result after =>
      (result = .ok ⟨⟩ ∧ Descends path before.fs after.fs) ∧ Prepares before after := by
  refine Leads.and ?_ ((leads_createDirAll report path before).mono fun _ _ made => made.1)
  have unrefused : ∀ level, (HostFaults.none F).refusals (.createDir level) = none := fun _ => rfl
  obtain ⟨fs, ran⟩ := Fs.createDirs_succeed unrefused passable
  obtain ⟨made, untouched⟩ := Fs.of_createDirs ran
  rw [leads_onFiles, Leads, Fs.createDirAll, show forEach _ _ _ = _ from ran]
  exact ⟨rfl, made, untouched⟩

theorem leads_recheck_passes {scopeFailure : MergeError → Err} {report : Path → Str → Err} {recheck : Bool}
    {proposalRoot canonicalScopeRoot : Path} {before : Workspace F}
    (exist : before.fs.node proposalRoot = some .directory) (inside : canonicalScopeRoot <+: proposalRoot) :
    Leads (recheckProposalRoot scopeFailure report recheck proposalRoot canonicalScopeRoot) before
      fun result after => result = .ok ⟨⟩ ∧ after = before := by
  unfold recheckProposalRoot
  have found : canonicalize before.fs proposalRoot = .ok proposalRoot := by
    simp [canonicalize, Fs.exists?, exist]
  have within : ensurePathIsWithinScopeRoot proposalRoot canonicalScopeRoot = .ok () := by
    simpa [ensurePathIsWithinScopeRoot, Path.startsWith] using inside
  split
  · rw [leads_get_bind, leads_ofExcept_bind, found]
    dsimp only [Except.mapError]
    rw [within]
    exact ⟨rfl, rfl⟩
  · exact ⟨rfl, rfl⟩

/-- A new file in an existing directory is written unless it is already there. -/
theorem writeNew_settles {report : Path → Str → Err} {path : Path} {content : Str} {proposed : Proposed}
    {before : Workspace F} (parent : before.fs.node path.parent = some .directory) :
    Leads (writeNew (HostFaults.none F) report path content proposed) before fun result _ => result =
      if before.fs.node path = none then .ok ⟨⟩ else .error (report path "File exists") := by
  unfold writeNew
  rw [leads_bind, leads_onFiles, createNew, Fs.leads_guarded, parent]
  cases there : before.fs.node path with
  | none => exact rfl
  | some node => exact rfl

/-- The directory of a proposal, as its levels are made. -/
structure Opened (scopeRoot : Path) (pendingDirectoryName directoryName : Str) (before after : Fs) : Prop where
  parent : after.node (Path.parent (proposalPath scopeRoot pendingDirectoryName directoryName)) = some .directory
  file : after.node (proposalPath scopeRoot pendingDirectoryName directoryName) =
    before.node (proposalPath scopeRoot pendingDirectoryName directoryName)

theorem openProposalRoot_settles {scopeFailure : MergeError → Err} {report : Path → Str → Err}
    {scopeRoot : Path} {pendingDirectoryName directoryName : Str} {recheck : Bool} {before : Workspace F}
    (site : ProposalSite scopeRoot pendingDirectoryName directoryName before.fs) :
    Leads (openProposalRoot (HostFaults.none F) scopeFailure report scopeRoot pendingDirectoryName
      directoryName recheck) before fun result after =>
        result = .ok (proposalPath scopeRoot pendingDirectoryName directoryName).parent ∧
          Opened scopeRoot pendingDirectoryName directoryName before.fs after.fs := by
  obtain ⟨directory, valid⟩ := site.named
  obtain rfl := eq_pendingDirectory valid
  generalize same : pendingDirectory pendingDirectoryName = directory at *
  have pathIs : proposalPath scopeRoot pendingDirectoryName directoryName =
      scopeRoot ++ [directory] ++ [directoryName] ++ [pendingSkillFileName] := by
    simp [proposalPath, same]
  have rootsIs : scopeRoot ++ [directory, directoryName] = scopeRoot ++ [directory] ++ [directoryName] := by simp
  have passable := site.passable
  rw [same, rootsIs] at passable
  have resolved : canonicalizeScopeRoot before.fs scopeRoot = .ok scopeRoot := by
    simp [canonicalizeScopeRoot, site.absolute, site.root, canonicalize, Fs.exists?]
  unfold openProposalRoot
  rw [leads_get_bind, leads_ofExcept_bind, resolved]
  dsimp only [Except.mapError]
  rw [leads_ofExcept_bind, valid]
  dsimp only
  have upper : ∀ level ∈ (scopeRoot ++ [directory]).inits.tail, ∀ content,
      before.fs.node level ≠ some (.file content) := by
    intro level member
    obtain ⟨isPrefix, nonempty⟩ := mem_inits_tail.mp member
    exact passable level (mem_inits_tail.mpr ⟨isPrefix.trans (List.prefix_append _ _), nonempty⟩)
  rw [leads_bind]
  apply (leads_createDirAll_passable _ upper).mono
  rintro _ between ⟨⟨rfl, descended⟩, prepared⟩
  have pendingRoot : between.fs.node (scopeRoot ++ [directory]) = some .directory :=
    descended.made _ (mem_inits_tail.mpr ⟨List.prefix_refl _, by simp⟩)
  have found : canonicalize between.fs (scopeRoot ++ [directory]) = .ok (scopeRoot ++ [directory]) := by
    simp [canonicalize, Fs.exists?, pendingRoot]
  have within : ensurePathIsWithinScopeRoot (scopeRoot ++ [directory]) scopeRoot = .ok () := by
    simp [ensurePathIsWithinScopeRoot, Path.startsWith]
  dsimp only
  rw [leads_get_bind, leads_ofExcept_bind, found]
  dsimp only [Except.mapError]
  rw [leads_ofExcept_bind, within]
  dsimp only
  have lower : ∀ level ∈ (scopeRoot ++ [directory] ++ [directoryName]).inits.tail, ∀ content,
      between.fs.node level ≠ some (.file content) := by
    intro level member content there
    rcases prepared.extended.files level content there with old | ⟨_, none, _⟩
    · exact passable level member content old
    · exact absurd none List.not_mem_nil
  rw [leads_bind]
  apply (leads_createDirAll_passable _ lower).mono
  rintro _ made ⟨⟨rfl, reached⟩, -⟩
  have proposalRoot : made.fs.node (scopeRoot ++ [directory] ++ [directoryName]) = some .directory :=
    reached.made _ (mem_inits_tail.mpr ⟨List.prefix_refl _, by simp⟩)
  dsimp only
  rw [leads_bind]
  apply (leads_recheck_passes proposalRoot (by simp)).mono
  rintro _ checked ⟨rfl, unchanged⟩
  have deeper {upper : Path} (isPrefix : upper <+: scopeRoot ++ [directory] ++ [directoryName]) :
      scopeRoot ++ [directory] ++ [directoryName] ++ [pendingSkillFileName] ∉ upper.inits.tail := by
    intro member
    have lengths := ((mem_inits_tail.mp member).1.trans isPrefix).length_le
    simp only [List.length_append, List.length_cons] at lengths
    omega
  rw [unchanged]
  refine ⟨?_, ?_, ?_⟩
  · rw [pathIs, Path.parent, List.dropLast_concat]
  · rw [pathIs, Path.parent, List.dropLast_concat, proposalRoot]
  · rw [pathIs, reached.untouched _ (deeper (List.prefix_refl _)),
      descended.untouched _ (deeper (List.prefix_append _ _))]

/-- Where its directories can be made, a proposal is placed unless its file is already there. -/
theorem placeProposal_settles {scopeFailure : MergeError → Err} {report : Path → Str → Err}
    {scopeRoot : Path} {pendingDirectoryName directoryName : Str} {recheck : Bool} {body : Str}
    {proposed : Proposed} {before : Workspace F}
    (site : ProposalSite scopeRoot pendingDirectoryName directoryName before.fs) :
    Leads (placeProposal (HostFaults.none F) scopeFailure report scopeRoot pendingDirectoryName directoryName
      recheck (.ok body) proposed) before fun result _ => result =
        if before.fs.node (proposalPath scopeRoot pendingDirectoryName directoryName) = none then
          .ok (proposalPath scopeRoot pendingDirectoryName directoryName)
        else .error (report (proposalPath scopeRoot pendingDirectoryName directoryName) "File exists") := by
  unfold placeProposal
  rw [leads_bind]
  apply (openProposalRoot_settles site).mono
  rintro _ between ⟨rfl, opened⟩
  have pathIs : (proposalPath scopeRoot pendingDirectoryName directoryName).parent ++ [pendingSkillFileName] =
      proposalPath scopeRoot pendingDirectoryName directoryName := by
    simp [proposalPath, Path.parent, List.dropLast_append_of_ne_nil]
  dsimp only
  rw [leads_ofExcept_bind]
  dsimp only
  rw [leads_bind, pathIs, ← opened.file]
  apply (writeNew_settles opened.parent).mono
  intro result after ended
  by_cases missing : between.fs.node (proposalPath scopeRoot pendingDirectoryName directoryName) = none
  · rw [if_pos missing] at ended ⊢
    rw [ended]
    exact rfl
  · rw [if_neg missing] at ended ⊢
    rw [ended]

theorem placeProposal_rootless {scopeFailure : MergeError → Err} {report : Path → Str → Err}
    {scopeRoot : Path} {pendingDirectoryName directoryName : Str} {recheck : Bool}
    {render : Except Err Str} {proposed : Proposed} {before : Workspace F}
    (rootless : before.fs.node scopeRoot ≠ some .directory) :
    Leads (placeProposal faults scopeFailure report scopeRoot pendingDirectoryName directoryName recheck
      render proposed) before fun _ after => after = before := by
  unfold placeProposal openProposalRoot
  rw [leads_bind, leads_get_bind, leads_ofExcept_bind]
  cases resolved : canonicalizeScopeRoot before.fs scopeRoot with
  | error error => exact rfl
  | ok canonicalScopeRoot => exact absurd (of_canonicalizeScopeRoot resolved).2.2 rootless

/-- A site that is found in the end was there before. -/
theorem ProposalSite.of_prepared {scopeRoot : Path} {pendingDirectoryName directoryName : Str} {after : Workspace F}
    (prepared : Extends before after []) (root : before.fs.node scopeRoot = some .directory)
    (site : ProposalSite scopeRoot pendingDirectoryName directoryName after.fs) :
    ProposalSite scopeRoot pendingDirectoryName directoryName before.fs where
  absolute := site.absolute
  root := root
  named := site.named
  passable level member content there := site.passable level member content (prepared.grown level _ there)

/-- On a host without faults, a placement fails only where a directory cannot be made or where the
file is already in place. -/
theorem placeProposal_obstructed {scopeFailure : MergeError → Err} {report : Path → Str → Err}
    {scopeRoot : Path} {pendingDirectoryName directoryName : Str} {recheck : Bool} {body : Str}
    {proposed : Proposed} (before : Workspace F) :
    Leads (placeProposal (HostFaults.none F) scopeFailure report scopeRoot pendingDirectoryName directoryName
      recheck (.ok body) proposed) before fun result after => ∀ error, result = .error error →
        ¬ ProposalSite scopeRoot pendingDirectoryName directoryName after.fs ∨
          after.fs.node (proposalPath scopeRoot pendingDirectoryName directoryName) ≠ none ∧
          error = report (proposalPath scopeRoot pendingDirectoryName directoryName) "File exists" := by
  by_cases site : ProposalSite scopeRoot pendingDirectoryName directoryName before.fs
  · apply ((placeProposal_settles site).and (leads_placeProposal _ _ _ _ _ _ _ _ before)).mono
    rintro result after ⟨settled, -, placed⟩ error rfl
    refine Or.inr ?_
    split at settled
    · cases settled
    · rename_i there
      obtain ⟨node, present⟩ := Option.ne_none_iff_exists'.mp there
      refine ⟨?_, Except.error.inj settled⟩
      rcases placed with nothing | ⟨-, broken⟩
      · rw [nothing.grown _ _ present]
        exact Option.some_ne_none _
      · exact absurd rfl broken
  · by_cases root : before.fs.node scopeRoot = some .directory
    · apply (leads_placeProposal _ _ _ _ _ _ _ _ before).mono
      rintro result after ⟨-, placed⟩ error rfl
      refine Or.inl fun found => site ?_
      rcases placed with nothing | ⟨-, broken⟩
      · exact found.of_prepared nothing root
      · exact absurd rfl broken
    · apply (placeProposal_rootless root).mono
      rintro result after rfl error -
      exact Or.inl site

end Placement
end SkillLayer.Maintenance
