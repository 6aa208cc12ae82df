import Mathlib.Data.List.MinMax
import SkillLayer.GraphBuilder.SkillIds
import SkillLayer.GraphBuilder.SnapshotDiff

/-! The scope of a changed file is determined exactly when all roots above the file belong to one scope. -/

namespace SkillLayer.GraphBuilder

open Domain

/-- A change carries the scope that its own file has in the arranged index. -/
theorem scopeForPath_of_diff {orders : DiffOrders} {scopes : List ScopeRoot} {previous current : SkillSnapshot} :
    ∀ change ∈ diffSkillSnapshots orders scopes previous current,
      scopeForPath change.filePath (orders.scopes.arrange (scopeIndex scopes)) = some (change.scopeId, change.scopeType) :=
  forall_diffSkillSnapshots fun _ _ _ _ _ found => found

/-! ### The map of the roots -/

def Configured (scopes : List ScopeRoot) (root : Path) (found : Str × ScopeType) : Prop :=
  ∃ scope ∈ scopes, root = scope.root ∧ found = (scope.scopeId, scope.scopeType)

theorem configured_of_scopeIndex {scopes : List ScopeRoot} :
    ∀ entry ∈ scopeIndex scopes, Configured scopes entry.1 entry.2 := by
  have kept (index : List (Path × (Str × ScopeType))) (rest : List ScopeRoot) (inside : rest ⊆ scopes)
      (before : ∀ entry ∈ index, Configured scopes entry.1 entry.2) :
      ∀ entry ∈ rest.foldl (fun index scope =>
        upsert scope.root (scope.scopeId, scope.scopeType) (fun _ => (scope.scopeId, scope.scopeType)) index) index,
        Configured scopes entry.1 entry.2 := by
    induction rest generalizing index with
    | nil => exact before
    | cons scope rest ih =>
      have here : Configured scopes scope.root (scope.scopeId, scope.scopeType) :=
        ⟨scope, inside List.mem_cons_self, rfl, rfl⟩
      exact ih _ (List.subset_of_cons_subset inside) (forall_upsert here (fun _ _ => here) before)
  exact kept [] scopes (List.Subset.refl _) (List.forall_mem_nil _)

/-- A found scope is one whose root is above the path. -/
theorem scopeForPath_eq_some {scopes : List ScopeRoot} (order : HashOrder (Path × (Str × ScopeType))) {path : Path}
    {found : Str × ScopeType} (attributed : scopeForPath path (order.arrange (scopeIndex scopes)) = some found) :
    ∃ scope ∈ scopes, path.startsWith scope.root = true ∧ found = (scope.scopeId, scope.scopeType) := by
  obtain ⟨entry, inIndex, taken⟩ := List.exists_of_findSome?_eq_some attributed
  obtain ⟨scope, member, root, same⟩ := configured_of_scopeIndex entry ((order.perm _).mem_iff.mp inIndex)
  split at taken
  · rename_i under
    exact ⟨scope, member, root ▸ under, (Option.some.inj taken).symm.trans same⟩
  · cases taken

theorem mem_scopeIndex_last (scopes : List ScopeRoot) (scope : ScopeRoot) :
    (scope.root, (scope.scopeId, scope.scopeType)) ∈ scopeIndex (scopes ++ [scope]) := by
  rw [scopeIndex, List.foldl_append]
  exact mem_upsert_constant _ _ _

theorem scopeForPath_preferring {index : List (Path × (Str × ScopeType))} {path : Path} {entry : Path × (Str × ScopeType)}
    (member : entry ∈ index) (under : path.startsWith entry.1 = true) :
    scopeForPath path ((HashOrder.preferring entry).arrange index) = some entry.2 := by
  rw [HashOrder.preferring, scopeForPath]
  dsimp only
  rw [if_pos member, List.findSome?_cons_of_isSome, if_pos under]
  rw [if_pos under]
  rfl

/-! ### The longest root -/

/-- A scope with the longest root above a path. -/
structure LongestRoot (scopes : List ScopeRoot) (path : Path) (scope : ScopeRoot) : Prop where
  member : scope ∈ scopes
  under : path.startsWith scope.root = true
  longest : ∀ other ∈ scopes, path.startsWith other.root = true → other.root.length ≤ scope.root.length

theorem exists_longestRoot {scopes : List ScopeRoot} {path : Path} {scope : ScopeRoot} (member : scope ∈ scopes)
    (under : path.startsWith scope.root = true) : ∃ longest, LongestRoot scopes path longest := by
  let above := scopes.filter fun scope => path.startsWith scope.root
  have inside {other : ScopeRoot} (found : other ∈ scopes) (prefixed : path.startsWith other.root = true) :
      other ∈ above := List.mem_filter.mpr ⟨found, prefixed⟩
  cases most : above.argmax fun scope => scope.root.length with
  | none =>
    rw [List.argmax_eq_none.mp most] at inside
    exact absurd (inside member under) List.not_mem_nil
  | some longest =>
    obtain ⟨found, prefixed⟩ := List.mem_filter.mp (List.argmax_mem most)
    exact ⟨longest, found, prefixed, fun other here covers =>
      List.le_of_mem_argmax (f := fun scope : ScopeRoot => scope.root.length) (inside here covers) most⟩

/-- Every change of the file carries the scope of the longest root above it, however the scopes are listed and the
maps iterated, and the builder files the skill under that scope. -/
def WellAttributed (F : Type) (scopes : List ScopeRoot) (path : Path) : Prop :=
  ∀ scope, LongestRoot scopes path scope → ∀ listed, listed.Perm scopes →
    (∀ orders previous current, ∀ change ∈ diffSkillSnapshots orders listed previous current, change.filePath = path →
      (change.scopeId, change.scopeType) = (scope.scopeId, scope.scopeType)) ∧
    ∀ (services : BuildServices F) tree skills, buildSkillsFromScopeRoots services listed tree = .ok skills →
      ∀ skill ∈ skills, skill.sourcePath = path → (skill.scopeId, skill.scopeType) = (scope.scopeId, scope.scopeType)

/-- The roots above a file all belong to one scope. -/
def OneScope (scopes : List ScopeRoot) (path : Path) : Prop :=
  ∀ scope ∈ scopes, ∀ other ∈ scopes, path.startsWith scope.root = true → path.startsWith other.root = true →
    (scope.scopeId, scope.scopeType) = (other.scopeId, other.scopeType)

theorem scope_of_built {F : Type} {services : BuildServices F} {scopes : List ScopeRoot} {tree : FileTree}
    {skills : List (BuiltSkill F)} (built : buildSkillsFromScopeRoots services scopes tree = .ok skills)
    {skill : BuiltSkill F} (member : skill ∈ skills) :
    ∃ scope ∈ scopes, skill.sourcePath.startsWith scope.root = true ∧
      (skill.scopeId, skill.scopeType) = (scope.scopeId, scope.scopeType) := by
  obtain ⟨scope, inScopes, path, content, text, embedding, walked, _, _, _, rfl⟩ := of_built services built member
  exact ⟨scope, inScopes, (Bool.and_eq_true_iff.mp (reached_of_visited (mem_walk.mp walked).2)).1, rfl⟩

def snapshotWith (path : Path) (fingerprint : SkillFileFingerprint) : SkillSnapshot :=
  ⟨[(path, fingerprint)], List.nodup_singleton _⟩

/-- The difference from nothing to one file is its creation. -/
theorem diffSkillSnapshots_snapshotWith (orders : DiffOrders) (scopes : List ScopeRoot) (path : Path)
    (fingerprint : SkillFileFingerprint) {scope : Str × ScopeType}
    (found : scopeForPath path (orders.scopes.arrange (scopeIndex scopes)) = some scope) :
    diffSkillSnapshots orders scopes SkillSnapshot.empty (snapshotWith path fingerprint) =
      [buildChange scope path .created (changeSource path) fingerprint.contentHash] := by
  rw [diffSkillSnapshots]
  generalize orders.scopes.arrange (scopeIndex scopes) = index at found
  have created : visitCurrent index SkillSnapshot.empty ⟨[], [], []⟩ (path, fingerprint) =
      ⟨[buildChange scope path .created (changeSource path) fingerprint.contentHash], [], []⟩ := by
    have absent : SkillSnapshot.empty.get? path = none := rfl
    rw [visitCurrent, absent]
    dsimp only
    rw [visitAdded]
    simp only [takeRemovedPathForDirectory, ite_self, push_of_covered found, List.nil_append]
  have visited : (snapshotWith path fingerprint).entries.foldl (visitCurrent index SkillSnapshot.empty) ⟨[], [], []⟩ =
      ⟨[buildChange scope path .created (changeSource path) fingerprint.contentHash], [], []⟩ := created
  have nothing (order : HashOrder (Str × List Path)) : order.arrange [] = [] := (order.perm []).eq_nil
  dsimp only [SkillSnapshot.empty, List.foldl_nil] at visited ⊢
  rw [visited, nothing, nothing]
  rfl

theorem wellAttributed_iff (F : Type) (scopes : List ScopeRoot) (path : Path) :
    WellAttributed F scopes path ↔ OneScope scopes path := by
  constructor
  · intro attributed
    have agrees (scope : ScopeRoot) (longest : LongestRoot scopes path scope) (other : ScopeRoot) (member : other ∈ scopes)
        (under : path.startsWith other.root = true) :
        (other.scopeId, other.scopeType) = (scope.scopeId, scope.scopeType) := by
      let listed := scopes.erase other ++ [other]
      have shuffled : listed.Perm scopes :=
        (List.perm_append_singleton _ _).trans (List.perm_cons_erase member).symm
      let orders : DiffOrders := ⟨HashOrder.preferring (other.root, (other.scopeId, other.scopeType)),
        HashOrder.unchanged _, HashOrder.unchanged _⟩
      have found := scopeForPath_preferring (mem_scopeIndex_last (scopes.erase other) other) under
      have created := diffSkillSnapshots_snapshotWith orders listed path ⟨[], 0⟩ found
      exact (attributed scope longest listed shuffled).1 orders _ _ _ (created ▸ List.mem_singleton_self _) rfl
    intro scope member other otherMember under otherUnder
    obtain ⟨longest, isLongest⟩ := exists_longestRoot member under
    exact (agrees longest isLongest scope member under).trans (agrees longest isLongest other otherMember otherUnder).symm
  · intro same scope longest listed shuffled
    refine ⟨fun orders previous current change member about => ?_, fun services tree skills built skill member about => ?_⟩
    · subst about
      obtain ⟨found, inListed, under, equal⟩ :=
        scopeForPath_eq_some orders.scopes (scopeForPath_of_diff change member)
      exact equal.trans (same found (shuffled.subset inListed) scope longest.member under longest.under)
    · subst about
      obtain ⟨found, inListed, under, equal⟩ := scope_of_built built member
      exact equal.trans (same found (shuffled.subset inListed) scope longest.member under longest.under)

/-- Under the default roots a file in the docs directory may be attributed to the project, whose root is shorter. -/
theorem docsSkill_misattributed :
    ¬ WellAttributed Nat defaultRoots [[], "repo".toList, "docs".toList, "a".toList, "SKILL.md".toList] := by
  intro attributed
  have longest : LongestRoot defaultRoots [[], "repo".toList, "docs".toList, "a".toList, "SKILL.md".toList]
      ⟨"global", .global, [[], "repo", "docs"]⟩ := ⟨by decide, by decide, by decide⟩
  have found := (attributed _ longest defaultRoots (List.Perm.refl _)).1
    ⟨HashOrder.unchanged _, HashOrder.unchanged _, HashOrder.unchanged _⟩ SkillSnapshot.empty
    (snapshotWith [[], "repo".toList, "docs".toList, "a".toList, "SKILL.md".toList] ⟨"hash", 1⟩)
    (buildChange ("project".toList, .project) [[], "repo".toList, "docs".toList, "a".toList, "SKILL.md".toList] .created
      .direct "hash") (by decide) rfl
  exact absurd found (by decide)

end SkillLayer.GraphBuilder
