import SkillLayer.Maintenance.Recurrence

/-! Repeated passes: what a run of the merge and the promotion pass does where earlier proposals
are still in place. -/

namespace SkillLayer.Maintenance

open Infrastructure hiding Timestamp
open Domain (Timestamp)

/-- What one run of the two passes is given: the answers of the services, the skills and the rows. -/
structure PassInputs (F : Type) where
  services : ScopeServices F
  mergeConfig : MergeConfig F
  mergeSkills : List SkillSnapshot
  runner : PromotionPassRunner F
  fetched : Except Str (List ProjectSkillRow)
  now : Timestamp

variable {F : Type}

/-- The merge pass and then the promotion pass, the first failure ending the run. -/
def runPasses (faults : HostFaults F) (inputs : PassInputs F) :
    EStateM CronError (Workspace F) (List MergeProposal × List PromotionProposal) := do
  let mergeProposals ← runMergePass inputs.services faults inputs.now inputs.mergeConfig inputs.mergeSkills
  let promotionProposals ← runPromotionPass inputs.services faults inputs.runner inputs.now inputs.fetched
  return (mergeProposals, promotionProposals)

/-- The proposals that qualify in a run, in the order of their writing. -/
def passesPlan (inputs : PassInputs F) : List CreatedFile :=
  mergePlan inputs.services inputs.mergeConfig inputs.mergeSkills ++
    promotionPlan inputs.services inputs.runner inputs.fetched

/-- The providers answer, every pair to merge has an output root, and the frontmatter serializes. -/
structure PassInputs.Answered (inputs : PassInputs F) : Prop where
  merges : 2 ≤ inputs.mergeSkills.length → ∃ candidates,
    findCandidates inputs.services.shared inputs.mergeConfig inputs.mergeSkills = .ok candidates
  rooted : ∀ candidates,
    findCandidates inputs.services.shared inputs.mergeConfig inputs.mergeSkills = .ok candidates →
    ∀ candidate ∈ candidates, plannedMerge inputs.mergeConfig inputs.mergeSkills candidate ≠ []
  mergeBody : ∀ left right scope similarity, ∃ body,
    renderMergeMarkdown inputs.services.shared left right scope similarity inputs.now = .ok body
  voted : ∀ snapshot ∈ inputs.runner.skillSnapshots, snapshot.scope = .project → ∃ general,
    passesIntrinsicGate inputs.services inputs.runner snapshot = .ok general
  clustered : inputs.runner.recurrenceConfigured = true → ∃ projectSkills, inputs.fetched = .ok projectSkills ∧
    ∃ clusters, recurrenceClusters inputs.services inputs.runner projectSkills = .ok clusters
  promotionBody : ∀ snapshot evidence, ∃ body,
    renderPromotionMarkdown inputs.services snapshot evidence inputs.now = .ok body

/-- A qualifying proposal whose directories cannot be made or whose file is in place, and the
write failure that says so. -/
def StopsAt (inputs : PassInputs F) (error : CronError) (file : CreatedFile) (after : Workspace F) : Prop :=
  match file.proposed with
  | .merge _ _ => Obstructed inputs.mergeConfig.pendingDirectoryName
      (fun path error => CronError.mergePass (mergeWriteFailure path error).display) error file after
  | _ => Obstructed inputs.runner.writerConfig.pendingDirectoryName
      (fun path error => CronError.promotionPass (promotionWriteFailure path error).display) error file after

/-! ### A run stops at the first obstruction -/

theorem Follows.settled_mono {Err Out : Type} {obstructed other : Err → CreatedFile → Workspace F → Prop}
    {plan : List CreatedFile} {returns : Out → Prop} {action : EStateM Err (Workspace F) Out}
    (follows : Follows (PassDiscipline.settled obstructed) plan returns action)
    (implied : ∀ file ∈ plan, ∀ error after, obstructed error file after → other error file after) :
    Follows (PassDiscipline.settled other) plan returns action := by
  intro before ready
  apply (follows before ready).mono
  rintro result after ⟨-, done, rest, split, extended, ended⟩
  refine ⟨trivial, done, rest, split, extended, ?_⟩
  cases result with
  | ok value => exact ended
  | error error =>
    obtain ⟨file, later, same, blocked⟩ := ended
    refine ⟨file, later, same, implied file ?_ error after blocked⟩
    rw [split, same]
    exact List.mem_append_right _ List.mem_cons_self

variable {inputs : PassInputs F}

theorem promotes_settled (answered : inputs.Answered) (snapshot : SkillSnapshot) (evidence : PromotionEvidence) :
    Promotes inputs.services (HostFaults.none F) inputs.runner inputs.now
      (PassDiscipline.settled (StopsAt inputs)) snapshot evidence := by
  obtain ⟨body, rendered⟩ := answered.promotionBody snapshot evidence
  refine promotes_of_placed rfl ?_
  rw [rendered]
  refine follows_placeProposal_settled.settled_mono fun file member error after blocked => ?_
  obtain rfl := List.mem_singleton.mp member
  rcases blocked with noSite | ⟨inPlace, rfl⟩
  · exact Or.inl noSite
  · exact Or.inr ⟨inPlace, rfl⟩

theorem merges_settled (answered : inputs.Answered) {candidates : List (MergeCandidate F)}
    (found : findCandidates inputs.services.shared inputs.mergeConfig inputs.mergeSkills = .ok candidates)
    {candidate : MergeCandidate F} (member : candidate ∈ candidates) :
    Merges inputs.services (HostFaults.none F) inputs.mergeConfig inputs.mergeSkills inputs.now
      ((PassDiscipline.settled (StopsAt inputs)).reported fun error => .mergePass error.display) candidate := by
  refine merges_of_placed ?_ ?_ ?_
  · intro error after empty
    exact absurd empty (answered.rooted candidates found candidate member)
  · intro left right root planned
    obtain ⟨body, rendered⟩ := answered.mergeBody left right (resolveScope [left.scope, right.scope])
      candidate.cosineSimilarity
    rw [rendered]
    refine Follows.settled_mono follows_placeProposal_settled fun file member error after blocked => ?_
    obtain rfl := List.mem_singleton.mp member
    rcases blocked with noSite | ⟨inPlace, rfl⟩
    · exact Or.inl noSite
    · exact Or.inr ⟨inPlace, rfl⟩
  · intro event
    refine follows_emitAudit _ _ (fun error refused => ?_) fun _ _ _ => trivial
    cases refused

/-- On a host without faults, a run with answering services writes its proposals in order up to
the first obstruction. -/
theorem follows_runPasses (answered : inputs.Answered) :
    Follows (PassDiscipline.settled (StopsAt inputs)) (passesPlan inputs) (fun _ => True)
      (runPasses (HostFaults.none F) inputs) := by
  unfold runPasses passesPlan
  have merging : Follows (PassDiscipline.settled (StopsAt inputs))
      (mergePlan inputs.services inputs.mergeConfig inputs.mergeSkills) (fun _ => True)
      (runMergePass inputs.services (HostFaults.none F) inputs.now inputs.mergeConfig inputs.mergeSkills) := by
    refine follows_runMergePass (fun candidates found candidate member => merges_settled answered found member) ?_
    intro several error failed
    obtain ⟨candidates, found⟩ := answered.merges several
    rw [found] at failed
    cases failed
  have promoting : Follows (PassDiscipline.settled (StopsAt inputs))
      (promotionPlan inputs.services inputs.runner inputs.fetched)
      (fun proposals => proposals =
        (promotionPlan inputs.services inputs.runner inputs.fetched).filterMap promotionOf)
      (runPromotionPass inputs.services (HostFaults.none F) inputs.runner inputs.now inputs.fetched) := by
    refine follows_runPromotionPass
      (fun snapshot evidence _ => promotes_settled answered snapshot evidence) ?_ ⟨?_, ?_⟩
    · intro snapshot known isProject error failed
      obtain ⟨general, gate⟩ := answered.voted snapshot known isProject
      rw [gate] at failed
      cases failed
    · intro error configured failed
      obtain ⟨projectSkills, found, -⟩ := answered.clustered configured
      rw [found] at failed
      cases failed
    · intro rows error configured found failed
      obtain ⟨projectSkills, fetched, clusters, built⟩ := answered.clustered configured
      rw [fetched] at found
      cases found
      rw [built] at failed
      cases failed
  refine follows_bind merging fun mergeProposals _ => ?_
  rw [← List.append_nil (promotionPlan _ _ _)]
  exact follows_bind promoting fun promotionProposals _ => follows_pure trivial

/-- Whatever the services answer and whatever fails, a run makes no files but its proposals. -/
theorem follows_runPasses_loose {faults : HostFaults F} :
    Follows (PassDiscipline.loose F CronError) (passesPlan inputs) (fun _ => True) (runPasses faults inputs) := by
  refine follows_bind follows_mergePass fun mergeProposals _ => ?_
  rw [← List.append_nil (promotionPlan _ _ _)]
  exact follows_bind follows_promotionPass fun promotionProposals _ => follows_pure trivial

/-! ### The second run -/

/-- What a second run leaves: the files that were there as they were, and the first of its own
proposals; with answering services it ends well when it has written all of them, and otherwise
it stops with the write failure of the next one, which is obstructed. -/
structure SecondRun (second : PassInputs F) (before : Workspace F)
    (result : Except CronError (List MergeProposal × List PromotionProposal)) (after : Workspace F)
    (written later : List CreatedFile) : Prop where
  planned : passesPlan second = written ++ later
  extended : Extends before after written
  finished : ∀ proposals, result = .ok proposals → later = []
  stopped : second.Answered → ∀ error, result = .error error → ∃ file rest, later = file :: rest ∧
    StopsAt second error file after

/-- A run after a successful one changes no file. It writes its proposals in order up to the first
whose file is in place or whose directories cannot be made; and since all proposals of the first
run are in place, it never ends well when one of them qualifies again. -/
theorem second_run (first second : PassInputs F) (start before : Workspace F)
    (proposals : List MergeProposal × List PromotionProposal)
    (firstRan : runPasses (HostFaults.none F) first start = .ok proposals before) :
    (Leads (runPasses (HostFaults.none F) second) before fun result after =>
      ∃ written later, SecondRun second before result after written later) ∧
    (∀ file ∈ passesPlan first, ∃ content, before.fs.node file.path = some (.file content)) ∧
    ((∃ file ∈ passesPlan first, ∃ again ∈ passesPlan second, again.path = file.path) →
      ∃ error after, runPasses (HostFaults.none F) second before = .error error after) := by
  have inPlace : ∀ file ∈ passesPlan first, ∃ content, before.fs.node file.path = some (.file content) := by
    obtain ⟨-, written, rest, split, extended, rfl, -⟩ := (follows_runPasses_loose start trivial).of_ok firstRan
    rw [split, List.append_nil]
    exact extended.there
  refine ⟨?_, inPlace, ?_⟩
  · by_cases answered : second.Answered
    · apply (follows_runPasses answered before trivial).mono
      rintro result after ⟨-, written, later, split, extended, ended⟩
      refine ⟨written, later, split, extended, ?_, ?_⟩
      · rintro proposals rfl
        exact ended.1
      · rintro - error rfl
        exact ended
    · apply (follows_runPasses_loose before trivial).mono
      rintro result after ⟨-, written, later, split, extended, ended⟩
      refine ⟨written, later, split, extended, ?_, fun yes => absurd yes answered⟩
      rintro proposals rfl
      exact ended.1
  · rintro ⟨file, member, again, qualifies, same⟩
    cases ran : runPasses (HostFaults.none F) second before with
    | error error after => exact ⟨error, after, rfl⟩
    | ok proposals after =>
      obtain ⟨-, written, rest, split, extended, rfl, -⟩ := (follows_runPasses_loose before trivial).of_ok ran
      rw [split, List.append_nil] at qualifies
      have missing := extended.fresh again qualifies
      obtain ⟨content, present⟩ := inPlace file member
      rw [same, present] at missing
      cases missing

/-! ### Proposals left unreviewed -/

/-- A run over some project skills and nothing else. -/
def reviewing (snapshots : List SkillSnapshot) : PassInputs Nat where
  services := agreeing
  mergeConfig := ⟨1, 1, ".skills"⟩
  mergeSkills := []
  runner := { recurring with skillSnapshots := snapshots, recurrenceConfigured := false }
  fetched := .ok []
  now := 0

def tip : SkillSnapshot := ⟨"a", "tip", "do it", .project, [[], "p", "SKILL.md"], [], []⟩
def trick : SkillSnapshot := ⟨"b", "trick", "do it so", .project, [[], "q", "SKILL.md"], [], []⟩

/-- The first run over `/g`. -/
def reviewed : EStateM.Result CronError (Workspace Nat) (List MergeProposal × List PromotionProposal) :=
  runPasses (HostFaults.none Nat) (reviewing [tip]) globalRootOnly

theorem tip_planned : plannedPromotion recurring tip .intrinsic ∈ passesPlan (reviewing [tip]) := by decide +kernel

theorem reviewed_ends_well : ∃ proposals, runPasses (HostFaults.none Nat) (reviewing [tip]) globalRootOnly =
    .ok proposals (afterwards reviewed) := by
  have ended : (returned? reviewed).isSome = true := by decide +kernel
  obtain ⟨proposals, here⟩ := Option.isSome_iff_exists.mp ended
  exact ⟨proposals, of_returned here⟩

def trickPath : Path := [[], "g", ".skills", "promote--b", "SKILL.md.pending"]

/-- The proposal of a first run, left where it is, makes the next run fail and keeps a skill that
newly qualifies from being proposed. -/
theorem unreviewed_proposal_stops :
    ∃ proposals before, runPasses (HostFaults.none Nat) (reviewing [tip]) globalRootOnly = .ok proposals before ∧
      (∃ error after, runPasses (HostFaults.none Nat) (reviewing [tip]) before = .error error after) ∧
      (∃ error after, runPasses (HostFaults.none Nat) (reviewing [tip, trick]) before = .error error after ∧
        after.fs.node trickPath = none) ∧
      ¬ ∀ (first second : PassInputs Nat) (start before : Workspace Nat)
        (proposals : List MergeProposal × List PromotionProposal),
          runPasses (HostFaults.none Nat) first start = .ok proposals before →
          ∃ more after, runPasses (HostFaults.none Nat) second before = .ok more after := by
  obtain ⟨proposals, ran⟩ := reviewed_ends_well
  have again : returned? (runPasses (HostFaults.none Nat) (reviewing [tip]) (afterwards reviewed)) = none := by
    decide +kernel
  have more : returned? (runPasses (HostFaults.none Nat) (reviewing [tip, trick]) (afterwards reviewed)) =
      none := by decide +kernel
  have unwritten : (afterwards (runPasses (HostFaults.none Nat) (reviewing [tip, trick])
      (afterwards reviewed))).fs.node trickPath = none := by decide +kernel
  generalize afterwards reviewed = before at *
  obtain ⟨error, failed⟩ := of_not_returned again
  obtain ⟨otherError, otherFailed⟩ := of_not_returned more
  refine ⟨proposals, before, ran, ⟨error, _, failed⟩, ⟨otherError, _, otherFailed, unwritten⟩, fun always => ?_⟩
  obtain ⟨_, _, fine⟩ := always (reviewing [tip]) (reviewing [tip]) _ _ _ ran
  rw [failed] at fine
  cases fine

/-- The second run over the same skill stops where the first proposal still is. -/
theorem second_run_unreviewed : ∃ before,
    (∃ proposals, runPasses (HostFaults.none Nat) (reviewing [tip]) globalRootOnly = .ok proposals before) ∧
    (Leads (runPasses (HostFaults.none Nat) (reviewing [tip])) before fun result after =>
      ∃ written later, SecondRun (reviewing [tip]) before result after written later) ∧
    ∃ error after, runPasses (HostFaults.none Nat) (reviewing [tip]) before = .error error after := by
  obtain ⟨proposals, ran⟩ := reviewed_ends_well
  generalize afterwards reviewed = before at ran
  obtain ⟨leads, -, stops⟩ := second_run (reviewing [tip]) (reviewing [tip]) globalRootOnly before proposals ran
  exact ⟨before, ⟨proposals, ran⟩, leads, stops ⟨_, tip_planned, _, tip_planned, rfl⟩⟩

end SkillLayer.Maintenance
