import SkillLayer.Collect
import SkillLayer.SessionExtractor.Draft
import SkillLayer.Retrieval.ScopeResolution

/-! The global scope roots that three components read from `SKILL_GLOBAL_PATHS`: the draft
writer, the shared scope resolver and the MCP server. -/

namespace SkillLayer.Infrastructure

open Domain Retrieval SessionExtractor

/-! ### Reading the variable -/

/-- The trimmed entries between separators, the empty ones left out. -/
def pathEntries (separators : List Char) (value : Str) : List Str :=
  ((value.splitOnP fun c => separators.contains c).map Str.trim).filter fun entry => !entry.isEmpty

/-- `canonicalize` of the file system. -/
structure Disk where
  canonicalize : Str → Except Str Str

/-- The path names that an absolute path goes through. -/
def pathComponents (path : Str) : List Str :=
  (Str.splitOn '/' path).filter fun name => !name.isEmpty && name != ['.']

def isAbsolute (path : Str) : Bool := path.head? == some '/'

/-- `PendingDraftWriter::from_environment`, up to its write guard. -/
def writerGlobalScopePaths (configured : Option Str) : Except WriterError (List Str) :=
  let paths := pathEntries [':'] (configured.getD [])
  if paths.isEmpty then
    .error (.missingConfig ("SKILL_GLOBAL_PATHS is not set or is empty; the writer refuses to start " ++
      "without an explicit, bounded scope root — set SKILL_GLOBAL_PATHS to at least one directory path"))
  else .ok paths

namespace EnvPathGlobalResolver

def envVar : Str := "SKILL_GLOBAL_PATHS"

def allowedRootsEnvVar : Str := "SKILL_GLOBAL_ALLOWED_ROOTS"

def pathRole : Str := "global scope path"

def rootRole : Str := "allowed root"

def splitPaths (value : Str) : List Str := pathEntries [':', ','] value

/-- An entry that is no usable directory, under the name it has in messages. -/
def canonicalEntry (disk : Disk) (role path : Str) : Except ScopeError Str :=
  if isAbsolute path then
    match disk.canonicalize path with
    | .ok canonical => .ok canonical
    | .error error =>
      .error (.invalidConfiguration (role ++ " `".toList ++ path ++ "` is invalid: ".toList ++ error))
  else .error (.invalidConfiguration (role ++ " `".toList ++ path ++ "` must be absolute".toList))

def validatePath (disk : Disk) (canonicalRoots : List Str) (path : Str) : Except ScopeError Str := do
  let canonical ← canonicalEntry disk pathRole path
  if canonicalRoots.any fun root => (pathComponents root).isPrefixOf (pathComponents canonical) then
    .ok canonical
  else
    .error (.invalidConfiguration
      (pathRole ++ " `".toList ++ canonical ++ "` is outside allowed roots".toList))

def notSet (name : Str) : ScopeError := .invalidConfiguration (name ++ " is not set".toList)

/-- The paths of the one scope that `resolve` answers. -/
def validatedPaths (disk : Disk) (configured allowed : Option Str) : Except ScopeError (List Str) :=
  match configured, allowed with
  | none, _ => .error (notSet envVar)
  | some _, none => .error (notSet allowedRootsEnvVar)
  | some value, some allowedRoots =>
    if (splitPaths value).isEmpty then
      .error (.invalidConfiguration (envVar ++ " must include at least one path".toList))
    else if (splitPaths allowedRoots).isEmpty then
      .error (.invalidConfiguration (envVar ++ " must include at least one allowed root path".toList))
    else do
      let canonicalRoots ← (splitPaths allowedRoots).mapM (canonicalEntry disk rootRole)
      (splitPaths value).mapM (validatePath disk canonicalRoots)

def resolve (disk : Disk) (configured allowed : Option Str) :
    Except ScopeError (List ScopeDescriptor) := do
  let paths ← validatedPaths disk configured allowed
  return [{ scopeId := "global"
            scopeType := .global
            paths := paths
            config := [("resolver".toList, "env".toList)] }]

end EnvPathGlobalResolver

/-- `scope_paths_from_env` of the MCP server: what does not resolve is skipped. -/
def scopePathsFromEnv (disk : Disk) (configured : Option Str) : List Str :=
  match configured with
  | none => []
  | some raw => (pathEntries [':', ';'] raw).filterMap fun entry => (disk.canonicalize entry).toOption

/-! ### What the entries are made of -/

theorem not_mem_of_mem_splitOnP {separates : Char → Bool} {value piece : Str}
    (member : piece ∈ value.splitOnP separates) {c : Char} (inside : c ∈ piece) :
    separates c = false := by
  induction value generalizing piece with
  | nil => simp_all
  | cons head value ih =>
    rw [List.splitOnP_cons_eq_if_modifyHead] at member
    split at member
    · rcases List.mem_cons.mp member with rfl | later
      · cases inside
      · exact ih later inside
    · obtain ⟨first, rest, pieces⟩ := List.exists_cons_of_ne_nil (List.splitOnP_ne_nil separates value)
      rw [pieces, List.modifyHead_cons] at member
      rcases List.mem_cons.mp member with rfl | later
      · rcases List.mem_cons.mp inside with rfl | there
        · simp_all
        · exact ih (pieces ▸ List.mem_cons_self) there
      · exact ih (pieces ▸ List.mem_cons_of_mem first later) inside

theorem exists_piece (separates : Char → Bool) {value : Str} {c : Char} (inside : c ∈ value)
    (plain : separates c = false) : ∃ piece ∈ value.splitOnP separates, c ∈ piece := by
  induction value with
  | nil => cases inside
  | cons head value ih =>
    obtain ⟨first, rest, pieces⟩ := List.exists_cons_of_ne_nil (List.splitOnP_ne_nil separates value)
    rw [List.splitOnP_cons_eq_if_modifyHead]
    split
    · rename_i separator
      rcases List.mem_cons.mp inside with rfl | there
      · simp_all
      · obtain ⟨piece, member, found⟩ := ih there
        exact ⟨piece, List.mem_cons_of_mem _ member, found⟩
    · rw [pieces, List.modifyHead_cons]
      rcases List.mem_cons.mp inside with rfl | there
      · exact ⟨_, List.mem_cons_self, List.mem_cons_self⟩
      · obtain ⟨piece, member, found⟩ := ih there
        rw [pieces] at member
        rcases List.mem_cons.mp member with rfl | later
        · exact ⟨_, List.mem_cons_self, List.mem_cons_of_mem _ found⟩
        · exact ⟨piece, List.mem_cons_of_mem _ later, found⟩

theorem splitOnP_congr {separates : Char → Bool} (divides : Char → Bool) {value : Str}
    (same : ∀ c ∈ value, separates c = divides c) :
    value.splitOnP separates = value.splitOnP divides := by
  induction value with
  | nil => rfl
  | cons head value ih =>
    rw [List.splitOnP_cons_eq_if_modifyHead, List.splitOnP_cons_eq_if_modifyHead,
      same head List.mem_cons_self, ih fun c member => same c (List.mem_cons_of_mem head member)]

theorem separator_not_mem {separators : List Char} {value entry : Str}
    (member : entry ∈ pathEntries separators value) {c : Char} (separates : c ∈ separators) :
    c ∉ entry := by
  intro inside
  obtain ⟨piece, split, rfl⟩ := List.mem_map.mp (List.mem_of_mem_filter member)
  have plain := not_mem_of_mem_splitOnP split (Str.mem_of_mem_trim inside)
  simp [separates] at plain

/-- A visible character that separates nothing stays in some entry. -/
theorem exists_entry (separators : List Char) {value : Str} {c : Char} (inside : c ∈ value)
    (visible : Str.isWhitespace c = false) (plain : c ∉ separators) :
    ∃ entry ∈ pathEntries separators value, c ∈ entry := by
  obtain ⟨piece, member, found⟩ :=
    exists_piece (fun c => separators.contains c) inside (by simpa using plain)
  have trimmed := Str.mem_trim visible found
  refine ⟨Str.trim piece, List.mem_filter.mpr ⟨List.mem_map_of_mem member, ?_⟩, trimmed⟩
  cases kept : Str.trim piece with
  | nil => simp [kept] at trimmed
  | cons _ _ => rfl

theorem pathEntries_congr {separators others : List Char} {value : Str}
    (same : ∀ c ∈ value, c ∈ separators ↔ c ∈ others) :
    pathEntries separators value = pathEntries others value := by
  unfold pathEntries
  rw [splitOnP_congr fun c => others.contains c]
  intro c member
  rw [Bool.eq_iff_iff, List.contains_iff_mem, List.contains_iff_mem, same c member]

/-! ### The three readings -/

/-- Wherever the resolver derives roots, the paths of the writer lead to the same directories
and the server holds the same list. -/
def ReadsAlike (configured : Option Str) : Prop :=
  ∀ (disk : Disk) (allowed : Option Str) (scopes : List ScopeDescriptor),
    EnvPathGlobalResolver.resolve disk configured allowed = .ok scopes →
      let roots := scopes.flatMap ScopeDescriptor.paths
      (∃ paths, writerGlobalScopePaths configured = .ok paths ∧
        List.Forall₂ (fun path root => disk.canonicalize path = .ok root) paths roots) ∧
      scopePathsFromEnv disk configured = roots

/-- A value that the resolver refuses on every disk. -/
def RefusedValue (configured : Option Str) : Prop :=
  ∀ value, configured = some value →
    EnvPathGlobalResolver.splitPaths value = [] ∨
      ∃ path ∈ EnvPathGlobalResolver.splitPaths value, isAbsolute path = false

def OneSeparator (configured : Option Str) : Prop :=
  ∀ value, configured = some value → ',' ∉ value ∧ ';' ∉ value

namespace EnvPathGlobalResolver

theorem of_canonicalEntry {disk : Disk} {role path canonical : Str}
    (entry : canonicalEntry disk role path = .ok canonical) :
    isAbsolute path = true ∧ disk.canonicalize path = .ok canonical := by
  unfold canonicalEntry at entry
  split at entry
  · rename_i absolute
    split at entry
    · rename_i found
      cases entry
      exact ⟨absolute, found⟩
    · cases entry
  · cases entry

theorem of_validatePath {disk : Disk} {canonicalRoots : List Str} {path canonical : Str}
    (valid : validatePath disk canonicalRoots path = .ok canonical) :
    isAbsolute path = true ∧ disk.canonicalize path = .ok canonical := by
  unfold validatePath at valid
  cases entry : canonicalEntry disk pathRole path with
  | error error => simp [entry, bind, Except.bind] at valid
  | ok found =>
    rw [entry] at valid
    simp only [bind, Except.bind] at valid
    split at valid
    · cases valid
      exact of_canonicalEntry entry
    · cases valid

/-- The resolver answers for a configured value each of whose entries it accepts. -/
theorem of_resolve {disk : Disk} {configured allowed : Option Str} {scopes : List ScopeDescriptor}
    (resolved : resolve disk configured allowed = .ok scopes) :
    ∃ value, configured = some value ∧ splitPaths value ≠ [] ∧
      (∀ path ∈ splitPaths value, isAbsolute path = true) ∧
      List.Forall₂ (fun path root => disk.canonicalize path = .ok root) (splitPaths value)
        (scopes.flatMap ScopeDescriptor.paths) := by
  unfold resolve at resolved
  cases valid : validatedPaths disk configured allowed with
  | error error => simp [valid, bind, Except.bind] at resolved
  | ok roots =>
    rw [valid] at resolved
    simp only [bind, Except.bind, pure, Except.pure, Except.ok.injEq] at resolved
    subst resolved
    unfold validatedPaths at valid
    split at valid
    · cases valid
    · cases valid
    · rename_i value allowedRoots
      split at valid
      · cases valid
      · rename_i nonempty
        split at valid
        · cases valid
        · cases rooted : (splitPaths allowedRoots).mapM (canonicalEntry disk rootRole) with
          | error error => simp [rooted, bind, Except.bind] at valid
          | ok canonicalRoots =>
            rw [rooted] at valid
            have accepted := (mapM_eq_ok.mp valid).imp fun _ _ found => of_validatePath found
            obtain ⟨absolute, leads⟩ := (List.forall₂_and_left _ _).mp accepted
            exact ⟨value, rfl, by simpa using nonempty, absolute, by simpa using leads⟩

/-- Where only colons occur, the resolver splits like the writer. -/
theorem splitPaths_colon {value : Str} (free : ',' ∉ value) :
    splitPaths value = pathEntries [':'] value := by
  apply pathEntries_congr
  intro c member
  have other : c ≠ ',' := fun same => free (same ▸ member)
  simp [other]

end EnvPathGlobalResolver

open EnvPathGlobalResolver

theorem pathEntries_of_writer {value : Str} {paths : List Str}
    (written : writerGlobalScopePaths (some value) = .ok paths) : pathEntries [':'] value = paths := by
  unfold writerGlobalScopePaths at written
  dsimp only at written
  split at written
  · cases written
  · exact Except.ok.inj written

theorem writer_of_pathEntries {value : Str} (nonempty : pathEntries [':'] value ≠ []) :
    writerGlobalScopePaths (some value) = .ok (pathEntries [':'] value) := by
  unfold writerGlobalScopePaths
  exact if_neg (by simpa using nonempty)

/-- What every entry leads to is what the server collects. -/
theorem filterMap_of_leads {disk : Disk} {paths roots : List Str}
    (leads : List.Forall₂ (fun path root => disk.canonicalize path = .ok root) paths roots) :
    (paths.filterMap fun entry => (disk.canonicalize entry).toOption) = roots := by
  induction leads with
  | nil => rfl
  | @cons path root _ _ found _ ih =>
    rw [List.filterMap_cons, found, ih]
    rfl

def noSuchFile : Str := "No such file or directory"

/-- A disk without links on which every path exists that has no comma in its name. -/
def commaFreeDisk : Disk where
  canonicalize path := if ',' ∈ path then .error noSuchFile else .ok path

theorem commaFreeDisk_missing {path : Str} (comma : ',' ∈ path) :
    commaFreeDisk.canonicalize path = .error noSuchFile := if_pos comma

theorem commaFreeDisk_found {path : Str} (free : ',' ∉ path) :
    commaFreeDisk.canonicalize path = .ok path := if_neg free

/-- That disk lets the resolver accept every value it does not refuse. -/
theorem resolve_commaFreeDisk {value : Str} (nonempty : splitPaths value ≠ [])
    (absolute : ∀ path ∈ splitPaths value, isAbsolute path = true) :
    ∃ scopes, resolve commaFreeDisk (some value) (some "/") = .ok scopes ∧
      scopes.flatMap ScopeDescriptor.paths = splitPaths value := by
  have single : splitPaths "/" = ["/".toList] := by decide +kernel
  have roots : (splitPaths "/").mapM (canonicalEntry commaFreeDisk rootRole) = .ok ["/".toList] := by
    rw [single]
    decide +kernel
  have inBounds : pathComponents "/" = [] := by decide +kernel
  have accepted : (splitPaths value).mapM (validatePath commaFreeDisk ["/".toList]) =
      .ok (splitPaths value) := by
    rw [mapM_eq_ok, List.forall₂_same]
    intro path member
    have free : ',' ∉ path := separator_not_mem member (by simp)
    have entry : canonicalEntry commaFreeDisk pathRole path = .ok path := by
      rw [canonicalEntry, if_pos (absolute path member), commaFreeDisk_found free]
    have bounded : (["/".toList].any fun root =>
        (pathComponents root).isPrefixOf (pathComponents path)) = true := by
      rw [List.any_cons, inBounds]
      rfl
    simp only [validatePath, entry, bind, Except.bind, bounded, if_true]
  have whole : validatedPaths commaFreeDisk (some value) (some "/") = .ok (splitPaths value) := by
    unfold validatedPaths
    dsimp only
    rw [if_neg (by simpa using nonempty), if_neg (by rw [single]; decide), roots]
    exact accepted
  refine ⟨_, by rw [resolve, whole]; rfl, List.append_nil _⟩

theorem comma_not_mem_of_readsAlike {value : Str} (alike : ReadsAlike (some value))
    (nonempty : splitPaths value ≠ []) (absolute : ∀ path ∈ splitPaths value, isAbsolute path = true) :
    ',' ∉ value := by
  intro comma
  obtain ⟨scopes, resolved, _⟩ := resolve_commaFreeDisk nonempty absolute
  obtain ⟨⟨paths, written, leads⟩, _⟩ := alike _ _ _ resolved
  obtain ⟨entry, member, inside⟩ :=
    exists_entry [':'] comma (by decide) (by decide)
  -- The comma-free disk has no directory under the entry that holds the comma.
  obtain ⟨root, _, found⟩ := exists_of_forall₂ leads (pathEntries_of_writer written ▸ member)
  rw [commaFreeDisk_missing inside] at found
  cases found

theorem semicolon_not_mem_of_readsAlike {value : Str} (alike : ReadsAlike (some value))
    (nonempty : splitPaths value ≠ []) (absolute : ∀ path ∈ splitPaths value, isAbsolute path = true) :
    ';' ∉ value := by
  intro semicolon
  obtain ⟨scopes, resolved, roots⟩ := resolve_commaFreeDisk nonempty absolute
  obtain ⟨_, served⟩ := alike _ _ _ resolved
  obtain ⟨entry, member, inside⟩ :=
    exists_entry [':', ','] semicolon (by decide) (by decide)
  -- The resolver keeps the entry whole; every entry of the server ends at the semicolon.
  have kept : entry ∈ scopePathsFromEnv commaFreeDisk (some value) := by
    rw [served, roots]
    exact member
  obtain ⟨other, split, found⟩ := List.mem_filterMap.mp kept
  have same : other = entry := by
    by_cases comma : ',' ∈ other
    · rw [commaFreeDisk_missing comma] at found
      cases found
    · rw [commaFreeDisk_found comma] at found
      exact Option.some.inj found
  exact separator_not_mem split (by simp) (same ▸ inside)

theorem readsAlike_of_oneSeparator {configured : Option Str} (plain : OneSeparator configured) :
    ReadsAlike configured := by
  intro disk allowed scopes resolved
  obtain ⟨value, rfl, nonempty, _, leads⟩ := of_resolve resolved
  obtain ⟨comma, semicolon⟩ := plain value rfl
  have served : pathEntries [':', ';'] value = pathEntries [':'] value := by
    apply pathEntries_congr
    intro c member
    have other : c ≠ ';' := fun same => semicolon (same ▸ member)
    simp [other]
  rw [splitPaths_colon comma] at nonempty leads
  refine ⟨⟨_, writer_of_pathEntries nonempty, leads⟩, ?_⟩
  rw [scopePathsFromEnv, served]
  exact filterMap_of_leads leads

/-- The three components read the variable alike exactly when it has no other separator than
the colon, or the resolver refuses it anyway. -/
theorem readsAlike_iff (configured : Option Str) :
    ReadsAlike configured ↔ OneSeparator configured ∨ RefusedValue configured := by
  constructor
  · intro alike
    by_cases refused : RefusedValue configured
    · exact .inr refused
    · left
      intro value same
      subst same
      simp only [RefusedValue, Option.some.injEq, forall_eq', not_or, not_exists, not_and,
        Bool.not_eq_false] at refused
      exact ⟨comma_not_mem_of_readsAlike alike refused.1 refused.2,
        semicolon_not_mem_of_readsAlike alike refused.1 refused.2⟩
  · intro either
    rcases either with plain | refused
    · exact readsAlike_of_oneSeparator plain
    · intro disk allowed scopes resolved
      obtain ⟨value, same, nonempty, absolute, _⟩ := of_resolve resolved
      rcases refused value same with empty | ⟨path, member, relative⟩
      · exact absurd empty nonempty
      · simp [absolute path member] at relative

/-- Two roots with a comma between them: the resolver has both, the writer one path that does not
exist, the server none. -/
theorem commaSeparated_readsApart :
    ¬ ReadsAlike (some "/skills/a,/skills/b") ∧
      (resolve commaFreeDisk (some "/skills/a,/skills/b") (some "/skills")).toOption.map
          (fun scopes => scopes.flatMap ScopeDescriptor.paths) =
        some ["/skills/a".toList, "/skills/b".toList] ∧
      writerGlobalScopePaths (some "/skills/a,/skills/b") = .ok ["/skills/a,/skills/b".toList] ∧
      scopePathsFromEnv commaFreeDisk (some "/skills/a,/skills/b") = [] := by
  refine ⟨fun alike => ?_, by decide +kernel, by decide +kernel, by decide +kernel⟩
  exact comma_not_mem_of_readsAlike alike (by decide +kernel) (by decide +kernel) (by decide +kernel)

end SkillLayer.Infrastructure
