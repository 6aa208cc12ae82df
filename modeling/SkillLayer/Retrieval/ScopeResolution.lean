import SkillLayer.Program
import SkillLayer.Domain.Types

/-! Which scopes a request resolves to, and what is degraded when one does not resolve. -/

namespace SkillLayer.Retrieval

open Domain

inductive ScopeError where
  | resolverUnavailable (message : Str)
  | invalidConfiguration (message : Str)
  | unexpected (message : Str)
deriving DecidableEq

structure ScopeDescriptor where
  scopeId : Str
  scopeType : ScopeType
  paths : List Str
  config : List (Str × Str)
deriving DecidableEq

def ScopeDescriptor.scopeTypeLabel (scope : ScopeDescriptor) : Str :=
  match scope.scopeType with
  | .project => "project"
  | .global => "global"
  | .team => "team"

structure ScopeResolutionOutcome where
  project : Option ScopeDescriptor
  global : Option ScopeDescriptor
  degradedScopes : List Str
  reasonCodes : List Str
  configuredScopes : List Str

namespace ScopeResolutionOutcome

def resolvedScopes (outcome : ScopeResolutionOutcome) : List ScopeDescriptor :=
  outcome.project.toList ++ outcome.global.toList

def scopesConsidered (outcome : ScopeResolutionOutcome) : List Str :=
  let scopes :=
    (if outcome.project.isSome || outcome.degradedScopes.contains "project".toList then
      ["project".toList] else []) ++
    (if outcome.global.isSome || outcome.degradedScopes.contains "global".toList then
      ["global".toList] else [])
  if scopes.isEmpty then outcome.configuredScopes else scopes

end ScopeResolutionOutcome

/-- Each value at its first place only. -/
def dedupe (values : List Str) : List Str := values.eraseDups

def configuredScopeIds : List Str := ["project", "global"]

/-- The first scope of the wanted type. -/
def findScope (wanted : ScopeType) : Except ScopeError (List ScopeDescriptor) → Option ScopeDescriptor
  | .ok scopes => scopes.find? fun scope => scope.scopeType = wanted
  | .error _ => none

/-- A degraded entry for a resolver that fails, and one for a scope that is not found. -/
def degradedEntries (label : Str) (wanted : ScopeType) (result : Except ScopeError (List ScopeDescriptor)) :
    List Str :=
  (match result with
    | .ok _ => []
    | .error _ => [label]) ++
  if (findScope wanted result).isNone then [label] else []

def degradedReasons (label : Str) (wanted : ScopeType) (result : Except ScopeError (List ScopeDescriptor)) :
    List Str :=
  (match result with
    | .ok _ => []
    | .error _ => [label ++ "_scope_resolution_failed"]) ++
  if (findScope wanted result).isNone then [label ++ "_scope_unresolved"] else []

/-- `DualScopeResolver::resolve`, from what the two resolvers answer. -/
def resolveDual (projectResult globalResult : Except ScopeError (List ScopeDescriptor)) :
    ScopeResolutionOutcome where
  project := findScope .project projectResult
  global := findScope .global globalResult
  degradedScopes :=
    dedupe (degradedEntries "project" .project projectResult ++ degradedEntries "global" .global globalResult)
  reasonCodes :=
    dedupe (degradedReasons "project" .project projectResult ++ degradedReasons "global" .global globalResult)
  configuredScopes := configuredScopeIds

/-! ### What the outcome says -/

variable {projectResult globalResult result : Except ScopeError (List ScopeDescriptor)}

theorem dedupe_eq_nil {values : List Str} : dedupe values = [] ↔ values = [] := by
  cases values with
  | nil => simp [dedupe]
  | cons first rest => simp [dedupe, List.eraseDups_cons]

theorem ite_isNone_eq_nil {Found Entry : Type} {found : Option Found} {entry : Entry} :
    (if found.isNone then [entry] else []) = [] ↔ found.isSome := by
  cases found with
  | none => exact ⟨nofun, nofun⟩
  | some value => exact ⟨fun _ => rfl, fun _ => rfl⟩

theorem degradedEntries_eq_nil {label : Str} {wanted : ScopeType} :
    degradedEntries label wanted result = [] ↔ (findScope wanted result).isSome := by
  unfold degradedEntries
  rw [List.append_eq_nil_iff, ite_isNone_eq_nil]
  cases result with
  | error error => exact ⟨fun both => both.2, nofun⟩
  | ok scopes => exact ⟨fun both => both.2, fun found => ⟨rfl, found⟩⟩

theorem degradedReasons_eq_nil {label : Str} {wanted : ScopeType} :
    degradedReasons label wanted result = [] ↔ (findScope wanted result).isSome := by
  unfold degradedReasons
  rw [List.append_eq_nil_iff, ite_isNone_eq_nil]
  cases result with
  | error error => exact ⟨fun both => both.2, nofun⟩
  | ok scopes => exact ⟨fun both => both.2, fun found => ⟨rfl, found⟩⟩

/-- Nothing is degraded exactly when both scopes are resolved. -/
theorem degradedScopes_resolveDual :
    (resolveDual projectResult globalResult).degradedScopes = [] ↔
      (findScope .project projectResult).isSome ∧ (findScope .global globalResult).isSome := by
  simp only [resolveDual, dedupe_eq_nil, List.append_eq_nil_iff, degradedEntries_eq_nil]

theorem reasonCodes_resolveDual :
    (resolveDual projectResult globalResult).reasonCodes = [] ↔
      (resolveDual projectResult globalResult).degradedScopes = [] := by
  rw [degradedScopes_resolveDual]
  simp only [resolveDual, dedupe_eq_nil, List.append_eq_nil_iff, degradedReasons_eq_nil]

theorem scopesConsidered_ne_nil : (resolveDual projectResult globalResult).scopesConsidered ≠ [] := by
  have configured : (resolveDual projectResult globalResult).configuredScopes ≠ [] := List.cons_ne_nil _ _
  generalize resolveDual projectResult globalResult = outcome at configured ⊢
  unfold ScopeResolutionOutcome.scopesConsidered
  generalize (if outcome.project.isSome || outcome.degradedScopes.contains "project".toList then
    ["project".toList] else []) ++ (if outcome.global.isSome ||
    outcome.degradedScopes.contains "global".toList then ["global".toList] else []) = scopes
  cases scopes with
  | nil => exact configured
  | cons first rest => exact List.cons_ne_nil _ _

end SkillLayer.Retrieval
