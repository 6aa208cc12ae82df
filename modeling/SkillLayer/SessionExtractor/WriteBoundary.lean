import SkillLayer.Collect
import SkillLayer.Infrastructure.TranscriptQueue
import SkillLayer.SessionExtractor.WriterFrame

/-! Where the draft writer may write: the roots it is configured with, the scope root a request resolves
to, and what a whole batch leaves alone. -/

namespace SkillLayer.SessionExtractor

open Domain Infrastructure

/-- The environment variables that can be read. -/
abbrev Environment := Str → Option Str

/-- What the writer asks of the system about the text of a path: its canonical form, whether that is a directory, and
the place where the system reads and writes for this text. -/
structure PathHost where
  canonicalize : Str → Except Str Path
  isDirectory : Path → Bool
  locate : Str → Path

/-- The system reads and writes at the canonical form, which is its own canonical form. -/
structure PathHost.Resolves (host : PathHost) : Prop where
  located : ∀ text real, host.canonicalize text = .ok real → host.locate text = real
  stable : ∀ text real, host.canonicalize text = .ok real → host.canonicalize real.display = .ok real

def isAbsolute (text : Str) : Bool := text.head? == some '/'

def splitEnvPaths (value : Str) : List Str :=
  (((Str.splitOn ':' value).flatMap (Str.splitOn ',')).map Str.trim).filter fun entry => !entry.isEmpty

/-- The canonical form of a root; `kind` is what the messages call it. -/
def canonicalRoot (host : PathHost) (kind entry : Str) : Except WriterError Path :=
  if isAbsolute entry = false then
    .error (.invalidRepoPath (kind ++ (" root `" : Str) ++ entry ++ ("` must be absolute" : Str)))
  else
    match host.canonicalize entry with
    | .error error =>
      .error (.invalidRepoPath (kind ++ (" root `" : Str) ++ entry ++ ("` is invalid: " : Str) ++ error))
    | .ok root => .ok root

def canonicalRoots (host : PathHost) (kind : Str) (entries : List Str) : Except WriterError (List Path) :=
  entries.mapM (canonicalRoot host kind)

def writeAllowedVariable (environment : Environment) : Option Str :=
  (environment "SKILL_GLOBAL_WRITE_ROOTS").or (environment "SKILL_GLOBAL_ALLOWED_ROOTS")

def resolveWriteAllowedRoots (environment : Environment) (host : PathHost) : Except WriterError (List Path) :=
  match writeAllowedVariable environment with
  | none => .error (.invalidRepoPath "neither SKILL_GLOBAL_WRITE_ROOTS nor SKILL_GLOBAL_ALLOWED_ROOTS is set")
  | some value =>
    let entries := splitEnvPaths value
    if entries.isEmpty then
      .error (.invalidRepoPath "SKILL_GLOBAL_WRITE_ROOTS must include at least one root path")
    else canonicalRoots host "write-allowed" entries

def allowedRootsFromEnvironment (environment : Environment) (host : PathHost) : Except WriterError (List Path) :=
  match environment "SKILL_GLOBAL_ALLOWED_ROOTS" with
  | none => .error (.invalidRepoPath "SKILL_GLOBAL_ALLOWED_ROOTS is not set")
  | some value =>
    let entries := splitEnvPaths value
    if entries.isEmpty then
      .error (.invalidRepoPath "SKILL_GLOBAL_ALLOWED_ROOTS must include at least one root path")
    else canonicalRoots host "allowed" entries

/-- The guard of a writer; without roots it lets everything through. -/
structure WriteTargetGuard where
  writeAllowedRoots : List Path

def WriteTargetGuard.checkScopeRoot (guard : WriteTargetGuard) (host : PathHost) (scopeRoot : Str) :
    Except WriterError Unit :=
  if guard.writeAllowedRoots.isEmpty then .ok ()
  else
    match host.canonicalize scopeRoot with
    | .error error => .error (.writeDenied
        (("cannot canonicalize output root `" : Str) ++ scopeRoot ++ ("`: " : Str) ++ error))
    | .ok canonical =>
      if guard.writeAllowedRoots.any fun root => canonical.startsWith root then .ok ()
      else .error (.writeDenied (("write denied: scope root `" : Str) ++ canonical.display ++
        ("` is outside write-allowed output roots; check SKILL_GLOBAL_WRITE_ROOTS configuration" : Str)))

/-- The writer as a service holds it. -/
structure ScopedDraftWriter where
  globalScopePaths : List Str
  writeGuard : WriteTargetGuard

namespace ScopedDraftWriter

def fromEnvironment (environment : Environment) (host : PathHost) : Except WriterError ScopedDraftWriter :=
  let configured := (environment "SKILL_GLOBAL_PATHS").getD []
  let globalScopePaths := ((Str.splitOn ':' configured).map Str.trim).filter fun entry => !entry.isEmpty
  if globalScopePaths.isEmpty then
    .error (.missingConfig (("SKILL_GLOBAL_PATHS is not set or is empty; the writer refuses to start without an " ++
      "explicit, bounded scope root — set SKILL_GLOBAL_PATHS to at least one directory path" : String)))
  else
    match resolveWriteAllowedRoots environment host with
    | .error error => .error error
    | .ok roots => .ok ⟨globalScopePaths, ⟨roots⟩⟩

def resolveRepoScopeRoot (environment : Environment) (host : PathHost) (repoPath : Str) : Except WriterError Str :=
  match host.canonicalize repoPath with
  | .error error => .error (.invalidRepoPath
      (("repo_path `" : Str) ++ repoPath ++ ("` could not be canonicalized: " : Str) ++ error))
  | .ok canonical =>
    if host.isDirectory canonical = false then
      .error (.invalidRepoPath
        (("repo_path `" : Str) ++ canonical.display ++ ("` must resolve to a directory" : Str)))
    else
      match allowedRootsFromEnvironment environment host with
      | .error error => .error error
      | .ok allowedRoots =>
        if allowedRoots.any fun root => canonical.startsWith root then .ok (canonical.display)
        else .error (.invalidRepoPath (("repo_path `" : Str) ++ canonical.display ++
          ("` resolves outside SKILL_GLOBAL_ALLOWED_ROOTS" : Str)))

/-- The repository that a request names, if it names one. -/
def repoPathOf (request : ExtractSessionRequest) : Option Str :=
  (request.repoPath.map Str.trim).filter fun path => !path.isEmpty

def resolveScopeRoot (writer : ScopedDraftWriter) (environment : Environment) (host : PathHost)
    (request : ExtractSessionRequest) : Except WriterError Str :=
  match repoPathOf request with
  | some repoPath => resolveRepoScopeRoot environment host repoPath
  | none =>
    match writer.globalScopePaths.head? with
    | some path => .ok path
    | none => .error (.scopeResolution "no scope root available for pending drafts")

/-- The approved scope root of a batch, as the place where its files go. -/
def approvedScopeRoot (writer : ScopedDraftWriter) (environment : Environment) (host : PathHost)
    (request : ExtractSessionRequest) : Except WriterError Path :=
  match writer.resolveScopeRoot environment host request with
  | .error error => .error error
  | .ok scopeRoot =>
    match writer.writeGuard.checkScopeRoot host scopeRoot with
    | .error error => .error error
    | .ok () => .ok (host.locate scopeRoot)

/-! ### The roots -/

variable {environment bootEnvironment : Environment} {host bootHost : PathHost} {writer : ScopedDraftWriter}
  {request : ExtractSessionRequest} {scopeRoot : Path}

theorem canonicalRoot_eq_ok {kind entry : Str} {root : Path} (read : canonicalRoot host kind entry = .ok root) :
    isAbsolute entry = true ∧ host.canonicalize entry = .ok root := by
  unfold canonicalRoot at read
  cases absolute : isAbsolute entry with
  | false => simp [absolute] at read
  | true =>
    cases canonical : host.canonicalize entry with
    | error error => simp [absolute, canonical] at read
    | ok found =>
      simp only [absolute, canonical, Bool.true_eq_false, if_false] at read
      exact ⟨rfl, congrArg _ (Except.ok.inj read)⟩

/-- Every root of a list comes from an absolute entry. -/
theorem mem_canonicalRoots {kind : Str} {entries : List Str} {roots : List Path}
    (read : canonicalRoots host kind entries = .ok roots) {root : Path} (member : root ∈ roots) :
    ∃ entry ∈ entries, isAbsolute entry = true ∧ host.canonicalize entry = .ok root := by
  have paired := (mapM_eq_ok.mp read).flip
  obtain ⟨place, within, rfl⟩ := List.mem_iff_getElem.mp member
  have same := paired.length_eq
  have found := paired.get within (same ▸ within)
  exact ⟨_, List.getElem_mem (same ▸ within), canonicalRoot_eq_ok found⟩

/-- A writer starts with roots, each the canonical form of an absolute entry of the variable. -/
theorem roots_of_built (built : fromEnvironment bootEnvironment bootHost = .ok writer) :
    writer.writeGuard.writeAllowedRoots ≠ [] ∧ ∃ value, writeAllowedVariable bootEnvironment = some value ∧
      ∀ root ∈ writer.writeGuard.writeAllowedRoots, ∃ entry ∈ splitEnvPaths value,
        isAbsolute entry = true ∧ bootHost.canonicalize entry = .ok root := by
  unfold fromEnvironment at built
  dsimp only at built
  split at built
  · cases built
  · cases resolved : resolveWriteAllowedRoots bootEnvironment bootHost with
    | error error => simp [resolved] at built
    | ok roots =>
      simp only [resolved, Except.ok.injEq] at built
      subst built
      unfold resolveWriteAllowedRoots at resolved
      cases variable_ : writeAllowedVariable bootEnvironment with
      | none => simp [variable_] at resolved
      | some value =>
        simp only [variable_] at resolved
        cases none : (splitEnvPaths value).isEmpty with
        | true => simp [none] at resolved
        | false =>
          simp only [none, Bool.false_eq_true, if_false] at resolved
          refine ⟨?_, value, rfl, fun root member => mem_canonicalRoots resolved member⟩
          have count := (mapM_eq_ok.mp resolved).length_eq
          rintro rfl
          rw [List.length_nil, List.length_eq_zero_iff] at count
          simp [count] at none

/-- An approved scope root lies below a root of the guard, and where the request names a repository, below a root
that is allowed for repositories. -/
theorem below_of_approved (resolves : host.Resolves) (guarded : writer.writeGuard.writeAllowedRoots ≠ [])
    (approved : writer.approvedScopeRoot environment host request = .ok scopeRoot) :
    (∃ root ∈ writer.writeGuard.writeAllowedRoots, root <+: scopeRoot) ∧
      ((repoPathOf request).isSome → ∃ roots, allowedRootsFromEnvironment environment host = .ok roots ∧
        ∃ root ∈ roots, root <+: scopeRoot) := by
  unfold approvedScopeRoot at approved
  cases resolved : writer.resolveScopeRoot environment host request with
  | error error => simp [resolved] at approved
  | ok text =>
  simp only [resolved] at approved
  unfold WriteTargetGuard.checkScopeRoot at approved
  rw [if_neg (by simpa using guarded)] at approved
  cases canonical : host.canonicalize text with
  | error error => simp [canonical] at approved
  | ok real =>
  simp only [canonical] at approved
  by_cases inside : (writer.writeGuard.writeAllowedRoots.any fun root => real.startsWith root) = true
  · rw [if_pos inside] at approved
    obtain rfl : host.locate text = scopeRoot := Except.ok.inj approved
    rw [resolves.located text real canonical]
    refine ⟨?_, fun named => ?_⟩
    · obtain ⟨root, member, above⟩ := List.any_eq_true.mp inside
      exact ⟨root, member, List.isPrefixOf_iff_prefix.mp above⟩
    · obtain ⟨repoPath, names⟩ := Option.isSome_iff_exists.mp named
      simp only [resolveScopeRoot, names, resolveRepoScopeRoot] at resolved
      cases repo : host.canonicalize repoPath with
      | error error => simp [repo] at resolved
      | ok directory =>
      simp only [repo] at resolved
      split at resolved
      · cases resolved
      · cases allowed : allowedRootsFromEnvironment environment host with
        | error error => simp [allowed] at resolved
        | ok roots =>
        simp only [allowed] at resolved
        split at resolved
        · rename_i below
          obtain rfl : directory.display = text := Except.ok.inj resolved
          -- the guard reads the canonical text back to the directory that was checked before
          have same := canonical.symm.trans (resolves.stable repoPath directory repo)
          obtain rfl : real = directory := Except.ok.inj same
          obtain ⟨root, member, above⟩ := List.any_eq_true.mp below
          exact ⟨roots, rfl, root, member, List.isPrefixOf_iff_prefix.mp above⟩
        · cases resolved
  · rw [if_neg inside] at approved
    cases approved

end ScopedDraftWriter

/-! ### Batches -/

section Batch

variable (drafts : PendingDraftWriter) (extractionResult : ExtractionResult) (providerName : Str)

/-- A batch leaves every file alone that is not below the proposals of its scope root. -/
theorem spares_elsewhere {path : Path}
    (elsewhere : ∀ scopeRoot, drafts.scopeRoot = .ok scopeRoot → ¬ scopeRoot ++ [".skills".toList] <+: path)
    (before : Fs) :
    Leads (drafts.writePendingDrafts extractionResult providerName) before
      fun _ after => Spares path before after := by
  unfold PendingDraftWriter.writePendingDrafts
  cases rooted : drafts.scopeRoot with
  | error error => exact Spares.refl _ before
  | ok scopeRoot =>
  change Leads (orWriteFailure _ _ >>= _) before _
  rw [leads_bind]
  have rootMade : Leads (Fs.createDirAll drafts.refusals (scopeRoot ++ [".skills".toList])) before
      fun _ after => before.Gains after := Fs.leads_createDirs drafts.refusals _ before
  apply (leads_orWriteFailure rootMade).mono
  intro result between gains
  cases result with
  | error error => exact Spares.of_gains gains
  | ok _ =>
  dsimp only
  rw [leads_get_bind]
  cases planned : drafts.buildWritePlans between (scopeRoot ++ [".skills".toList]) extractionResult providerName with
  | error error => exact Spares.of_gains gains
  | ok plans =>
  have clears : ∀ plan ∈ plans, Clears path plan := by
    intro plan member
    obtain ⟨candidate, index, markdown, rfl, -⟩ := mem_planDrafts drafts planned member
    have through (name : Str) : ¬ proposalDirectory (scopeRoot ++ [".skills".toList]) candidate ++ [name] <+: path := by
      intro inside
      refine elsewhere scopeRoot rooted (List.IsPrefix.trans ?_ inside)
      exact (List.prefix_append _ _).trans (List.prefix_append _ _)
    exact ⟨through _, through _, through _⟩
  change Leads (if plans.isEmpty = true then pure [] else _) between _
  split
  · exact Spares.of_gains gains
  · have persisted : Leads (do
          drafts.persistPlans plans
          return plans.map PendingWritePlan.pendingPath) between
        fun _ after => Spares path between after :=
      leads_then (spares_persistPlans drafts clears between) fun after => Spares.refl _ after
    exact persisted.mono fun _ _ => (Spares.of_gains gains).trans

/-- The place of a file that a batch for this request may touch. -/
structure Permitted (bootEnvironment environment : Environment) (bootHost host : PathHost)
    (request : ExtractSessionRequest) (path : Path) : Prop where
  guarded : ∃ value entry root, writeAllowedVariable bootEnvironment = some value ∧ entry ∈ splitEnvPaths value ∧
    isAbsolute entry = true ∧ bootHost.canonicalize entry = .ok root ∧ root <+: path
  repository : (ScopedDraftWriter.repoPathOf request).isSome → ∃ roots,
    allowedRootsFromEnvironment environment host = .ok roots ∧ ∃ root ∈ roots, root <+: path
  proposals : ∃ scopeRoot, scopeRoot ++ [".skills".toList] <+: path

end Batch

/-- One root for everything, and nothing else on the system. -/
def dataEnvironment : Environment := fun name =>
  if name = ("SKILL_GLOBAL_PATHS" : Str) ∨ name = ("SKILL_GLOBAL_ALLOWED_ROOTS" : Str) then some ("/data" : Str)
  else none

def dataHost : PathHost where
  canonicalize text := if text = ("/data" : Str) then .ok [[], "data"] else .error "No such file or directory"
  isDirectory _ := true
  locate _ := [[], "data"]

theorem dataHost_resolves : dataHost.Resolves := by
  have real (text : Str) (path : Path) (read : dataHost.canonicalize text = .ok path) :
      path = [[], "data".toList] := by
    simp only [dataHost] at read
    split at read
    · exact (Except.ok.inj read).symm
    · cases read
  refine ⟨fun text path read => (real text path read).symm, fun text path read => ?_⟩
  rw [real text path read]
  rfl

/-- A writer that files its drafts below the scope root of a request for the repository. -/
def dataWriter : PendingDraftWriter where
  format := ⟨fun _ => "1970-01-01T00:00:00+00:00", fun frontmatter => .ok ("name: ".toList ++ frontmatter.name)⟩
  refusals _ := none
  torn _ := none
  scopeRoot := .ok [[], "data"]
  now _ := 0
  batchNonce := "1-1"

end SkillLayer.SessionExtractor
