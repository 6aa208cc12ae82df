import SkillLayer.Domain.LifecyclePolicy
import SkillLayer.FileSystem
import SkillLayer.Stateful

/-! What the maintenance passes read and write: skill snapshots, proposal files that are only
ever created, and audit events. -/

namespace SkillLayer.Maintenance

open Domain

structure SkillSnapshot where
  id : Str
  name : Str
  description : Str
  scope : ScopeType
  sourcePath : Path
  tags : List Str
  subunits : List Str
deriving DecidableEq

/-- The text block used in semantic verification and for the identifier check. -/
def SkillSnapshot.semanticText (skill : SkillSnapshot) : Str :=
  skill.name ++ ['\n'] ++ skill.description ++ ['\n'] ++ Str.join ['\n'] skill.subunits

/-- The signal that drove a promotion. -/
inductive PromotionEvidence where
  | intrinsic
  | recurrence (projectCount : Nat)
deriving DecidableEq

/-! ### Audit events -/

structure MergeProposalAuditEvent (F : Type) where
  correlationId : Str
  happenedAt : Timestamp
  proposalPath : Path
  canonicalScope : ScopeType
  mergedFromSkillIds : List Str
  mergedFromScopes : List ScopeType
  mergedFromPaths : List Path
  similarity : F

structure RetirementProposalAuditEvent (F : Type) where
  correlationId : Str
  happenedAt : Timestamp
  skillId : Str
  sourcePath : Path
  proposalPath : Path
  usageScorePerMonth : F

inductive MaintenanceAuditEvent (F : Type) where
  | mergeProposalWritten (event : MergeProposalAuditEvent F)
  | retirementProposalWritten (event : RetirementProposalAuditEvent F)

def MaintenanceAuditEvent.proposalPath {F : Type} : MaintenanceAuditEvent F → Path
  | .mergeProposalWritten event => event.proposalPath
  | .retirementProposalWritten event => event.proposalPath

/-! ### The workspace -/

/-- What a created file proposes. -/
inductive Proposed where
  | merge (left right : SkillSnapshot)
  | promotion (skill : SkillSnapshot) (evidence : PromotionEvidence)
  | demotion (skillId : Str) (offendingIdentifiers : List Str)
  | retirement (skill : SkillSnapshot)
deriving DecidableEq

structure CreatedFile where
  path : Path
  proposed : Proposed
deriving DecidableEq

/-- The files and the events that the audit sink has taken. For the record only: the files that
the passes created. -/
structure Workspace (F : Type) where
  fs : Fs
  audits : List (MaintenanceAuditEvent F)
  created : List CreatedFile

/-- The failures of the host: refused file operations, writes that stop after some of the text,
and audit events that are not taken. -/
structure HostFaults (F : Type) where
  refusals : Refusals
  writeAll : Path → Option (Nat × Str)
  emit : MaintenanceAuditEvent F → Option Str

/-- A host on which nothing fails for reasons of its own. -/
def HostFaults.none (F : Type) : HostFaults F := ⟨fun _ => .none, fun _ => .none, fun _ => .none⟩

/-- `create_new(true)` of a file that must not exist. -/
def createNewBlocked (parent node : Option Node) (refusal : Option Str) : Option Str :=
  if parent ≠ some .directory then some "No such file or directory"
  else if node.isSome then some "File exists"
  else refusal

section Operations

variable {F Err Out : Type} (faults : HostFaults F)

/-- Run an operation on the files, and report its failure in the caller's terms. -/
def onFiles (report : Str → Err) (action : EStateM Str Fs PUnit) :
    EStateM Err (Workspace F) PUnit := fun workspace =>
  match action workspace.fs with
  | .ok done fs => .ok done { workspace with fs }
  | .error error fs => .error (report error) { workspace with fs }

def createNew (path : Path) : EStateM Str Fs PUnit :=
  Fs.guarded
    (fun fs => createNewBlocked (fs.node path.parent) (fs.node path) (faults.refusals (.write path)))
    (fun fs => fs.put path (some (.file [])))

def writeAll (path : Path) (content : Str) : EStateM Str Fs PUnit := fun fs =>
  match faults.writeAll path with
  | none => .ok ⟨⟩ (fs.put path (some (.file content)))
  | some (written, error) => .error error (fs.put path (some (.file (content.take written))))

/-- Create a file that must not exist, and write it. -/
def writeNew (report : Path → Str → Err) (path : Path) (content : Str) (proposed : Proposed) :
    EStateM Err (Workspace F) PUnit := do
  onFiles (report path) (createNew faults path)
  modify fun workspace => { workspace with created := workspace.created ++ [⟨path, proposed⟩] }
  onFiles (report path) (writeAll faults path content)

def emitAudit (report : Str → Err) (event : MaintenanceAuditEvent F) :
    EStateM Err (Workspace F) PUnit := fun workspace =>
  match faults.emit event with
  | none => .ok ⟨⟩ { workspace with audits := workspace.audits ++ [event] }
  | some error => .error (report error) workspace

def ofExcept (result : Except Err Out) : EStateM Err (Workspace F) Out :=
  match result with
  | .ok value => pure value
  | .error error => throw error

/-- `canonicalize`, where no path is a symbolic link. -/
def canonicalize (fs : Fs) (path : Path) : Except Str Path :=
  if fs.exists? path then .ok path else .error "No such file or directory"

end Operations

/-! ### What a pass may do -/

variable {F : Type}

/-- The workspace grows by some created files: what was there before stays as it was, and a
file that was not there before is one of them. -/
structure Extends (before after : Workspace F) (new : List CreatedFile) : Prop where
  grown : ∀ path node, before.fs.node path = some node → after.fs.node path = some node
  files : ∀ path content, after.fs.node path = some (.file content) →
    before.fs.node path = some (.file content) ∨ ∃ file ∈ new, file.path = path
  fresh : ∀ file ∈ new, before.fs.node file.path = none
  there : ∀ file ∈ new, ∃ content, after.fs.node file.path = some (.file content)
  recorded : after.created = before.created ++ new

namespace Extends

variable {before between after : Workspace F} {new more : List CreatedFile}

theorem refl (workspace : Workspace F) : Extends workspace workspace [] where
  grown _ _ there := there
  files _ _ there := Or.inl there
  fresh _ member := absurd member List.not_mem_nil
  there _ member := absurd member List.not_mem_nil
  recorded := (List.append_nil _).symm

theorem trans (first : Extends before between new) (second : Extends between after more) :
    Extends before after (new ++ more) where
  grown path node there := second.grown path node (first.grown path node there)
  files path content there := by
    rcases second.files path content there with old | ⟨file, member, same⟩
    · rcases first.files path content old with older | ⟨file, member, same⟩
      · exact Or.inl older
      · exact Or.inr ⟨file, List.mem_append_left _ member, same⟩
    · exact Or.inr ⟨file, List.mem_append_right _ member, same⟩
  fresh file member := by
    rcases List.mem_append.mp member with early | late
    · exact first.fresh file early
    · have missing := second.fresh file late
      cases there : before.fs.node file.path with
      | none => rfl
      | some node => exact absurd (first.grown _ _ there) (by simp [missing])
  there file member := by
    rcases List.mem_append.mp member with early | late
    · obtain ⟨content, present⟩ := first.there file early
      exact ⟨content, second.grown _ _ present⟩
    · exact second.there file late
  recorded := by rw [second.recorded, first.recorded, List.append_assoc]

theorem of_files {before after : Workspace F} (grown : before.fs.Gains after.fs)
    (same : after.created = before.created) : Extends before after [] where
  grown := grown.kept
  files path content there := Or.inl (grown.files path content there)
  fresh _ member := absurd member List.not_mem_nil
  there _ member := absurd member List.not_mem_nil
  recorded := by rw [same, List.append_nil]

/-- A created file, as its write leaves it. -/
theorem created {workspace : Workspace F} {file : CreatedFile} {content : Str}
    (missing : workspace.fs.node file.path = none) :
    Extends workspace
      { workspace with
        fs := workspace.fs.put file.path (some (.file content))
        created := workspace.created ++ [file] } [file] where
  grown path node there := by
    dsimp only
    rw [Fs.node_put_of_ne, there]
    rintro rfl
    rw [missing] at there
    cases there
  files path content there := by
    dsimp only at there
    by_cases here : path = file.path
    · exact Or.inr ⟨file, List.mem_singleton_self _, here.symm⟩
    · rw [Fs.node_put_of_ne here] at there
      exact Or.inl there
  fresh other member := by
    rw [List.mem_singleton.mp member, missing]
  there other member := by
    rw [List.mem_singleton.mp member]
    exact ⟨content, Fs.node_put_self _ _ _⟩
  recorded := rfl

end Extends

/-! ### What the operations do -/

section Rules

variable {Err Out : Type} {faults : HostFaults F} {before : Workspace F}
  {post : Except Err Out → Workspace F → Prop}

theorem leads_ofExcept_bind {Value : Type} {result : Except Err Value} {next : Value → EStateM Err (Workspace F) Out} :
    Leads (ofExcept result >>= next) before post ↔
      match result with
      | .ok value => Leads (next value) before post
      | .error error => post (.error error) before := by
  cases result <;> exact Iff.rfl

theorem leads_onFiles {report : Str → Err} {action : EStateM Str Fs PUnit}
    {post : Except Err PUnit → Workspace F → Prop} :
    Leads (onFiles report action) before post ↔
      Leads action before.fs fun result fs => post (result.mapError report) { before with fs } := by
  unfold Leads onFiles
  cases action before.fs <;> exact Iff.rfl

theorem missing_of_unblocked {parent node : Option Node} {refusal : Option Str}
    (unblocked : createNewBlocked parent node refusal = none) : node = none := by
  unfold createNewBlocked at unblocked
  split at unblocked
  · cases unblocked
  · split at unblocked
    · cases unblocked
    · rename_i missing
      simpa using missing

theorem leads_createNew (path : Path) (fs : Fs) :
    Leads (createNew faults path) fs fun result after =>
      match result with
      | .ok _ => fs.node path = none ∧ after = fs.put path (some (.file []))
      | .error _ => after = fs := by
  rw [createNew, Fs.leads_guarded]
  cases blocked : createNewBlocked (fs.node path.parent) (fs.node path) (faults.refusals (.write path)) with
  | some error => exact rfl
  | none => exact ⟨missing_of_unblocked blocked, rfl⟩

/-- A new file is written as a whole, or it is left with the beginning of its text. -/
theorem leads_writeNew (report : Path → Str → Err) (file : CreatedFile) (content : Str) (before : Workspace F) :
    Leads (writeNew faults report file.path content file.proposed) before fun result after =>
      after.audits = before.audits ∧
      match result with
      | .ok _ => Extends before after [file]
      | .error _ => Extends before after [] ∨ Extends before after [file] ∧ faults.writeAll file.path ≠ none := by
  unfold writeNew
  rw [leads_bind, leads_onFiles]
  apply (leads_createNew file.path before.fs).mono
  intro result fs opened
  cases result with
  | error error =>
    obtain rfl : fs = before.fs := opened
    exact ⟨rfl, Or.inl (Extends.refl before)⟩
  | ok _ =>
    obtain ⟨missing, rfl⟩ := opened
    have overwritten (content : Str) :
        (before.fs.put file.path (some (.file []))).put file.path (some (.file content)) =
          before.fs.put file.path (some (.file content)) := by
      unfold Fs.put
      congr 1
      funext other
      by_cases here : other = file.path <;> simp [here]
    dsimp only [Except.mapError]
    rw [leads_modify_bind, leads_onFiles]
    unfold Leads writeAll
    cases written : faults.writeAll file.path with
    | none =>
      dsimp only
      rw [overwritten]
      exact ⟨rfl, Extends.created missing⟩
    | some partially =>
      dsimp only
      rw [overwritten]
      exact ⟨rfl, Or.inr ⟨Extends.created missing, by simp⟩⟩

theorem unrefused_of_unblocked {parent node : Option Node} {refusal : Option Str}
    (unblocked : createNewBlocked parent node refusal = none) : refusal = none := by
  unfold createNewBlocked at unblocked
  split at unblocked
  · cases unblocked
  · split at unblocked
    · cases unblocked
    · exact unblocked

/-- Where the system refuses the new file, nothing is done. -/
theorem leads_writeNew_refused (report : Path → Str → Err) (path : Path) (content : Str) (proposed : Proposed)
    (before : Workspace F) :
    Leads (writeNew faults report path content proposed) before fun result after =>
      faults.refusals (.write path) = none ∨ (after = before ∧ result ≠ .ok ⟨⟩) := by
  unfold writeNew
  rw [leads_bind, leads_onFiles, createNew, Fs.leads_guarded]
  cases blocked : createNewBlocked (before.fs.node path.parent) (before.fs.node path)
      (faults.refusals (.write path)) with
  | some error => exact Or.inr ⟨rfl, fun impossible => nomatch impossible⟩
  | none =>
    have unrefused := unrefused_of_unblocked blocked
    exact leads_of_ends (fun _ _ _ => Or.inl unrefused) (fun _ _ _ => Or.inl unrefused)

end Rules

end SkillLayer.Maintenance
