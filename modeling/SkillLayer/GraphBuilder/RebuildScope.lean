import SkillLayer.GraphBuilder.DurableState
import SkillLayer.Infrastructure.OutboxScope

/-! Rebuilds of one process, and what the drain of each of them depends on. -/

namespace SkillLayer.Infrastructure

variable {F : Type}

/-- The rows that were not there before. -/
def Outbox.since (before outbox : Outbox) : Outbox where
  table := outbox.table.filter fun row => row.eventId ∉ before.table.keys
  distinctKeys := outbox.distinctKeys.sublist (List.filter_sublist.map _)

/-- The world with only the events that were appended to an earlier one. -/
def OutboxWorld.since (before world : OutboxWorld F) : OutboxWorld F :=
  world.withOutbox (before.outbox.since world.outbox)

end SkillLayer.Infrastructure

namespace SkillLayer.GraphBuilder

open Infrastructure

variable {F : Type} (services : RebuildServices F) (correlationId : Uuid)

/-- The property holds of each rebuild and the world it starts in. -/
def EachRebuild (holds : BuilderWorld F → RebuildInput F → Prop) :
    List (RebuildInput F) → BuilderWorld F → Prop
  | [], _ => True
  | input :: rest, world => holds world input ∧ ∀ ended,
    rebuildFromChanges services correlationId input world = some ended → EachRebuild holds rest ended.2

/-- Nothing that an earlier rebuild of the process appended is pending or in processing. -/
def StartsSettled (world : BuilderWorld F) (_ : RebuildInput F) : Prop :=
  world.store.outbox.hasPending correlationId = false

/-- The drain of the rebuild ends as it does with only the events that the rebuild appended. -/
def DrainIndependent (world : BuilderWorld F) (input : RebuildInput F) : Prop :=
  ∀ mutation calls persisted, buildMutation input = .ok mutation →
    persistGraphMutation services correlationId input mutation world = ⟨.ok (), calls, persisted⟩ →
    ∀ passes, (markOutboxDrained services correlationId input.answers passes calls persisted.store).map
        Finished.outcome =
      (markOutboxDrained services correlationId input.answers passes calls
        (world.store.since persisted.store)).map Finished.outcome

variable {services correlationId}

theorem EachRebuild.mono {holds other : BuilderWorld F → RebuildInput F → Prop}
    (weaker : ∀ world input, holds world input → other world input) {history : List (RebuildInput F)}
    {world : BuilderWorld F} (each : EachRebuild services correlationId holds history world) :
    EachRebuild services correlationId other history world := by
  induction history generalizing world with
  | nil => trivial
  | cons input rest ih => exact ⟨weaker world input each.1, fun ended ran => ih (each.2 ended ran)⟩

/-- After an append the rows that were not there before are those behind the old ones. -/
theorem since_rows {before after : Outbox} {new : List OutboxRow} (extended : after.rows = before.rows ++ new) :
    (before.since after).rows = new := by
  have distinct : ((before.rows ++ new).map OutboxRow.eventId).Nodup := extended ▸ after.table.distinct
  rw [List.map_append, List.nodup_append] at distinct
  change after.rows.filter _ = new
  rw [extended, List.filter_append]
  have old : (before.rows.filter fun row => row.eventId ∉ before.table.keys) = [] := by
    rw [List.filter_eq_nil_iff]
    intro row member absent
    exact of_decide_eq_true absent (List.mem_map_of_mem member)
  have fresh : (new.filter fun row => row.eventId ∉ before.table.keys) = new := by
    rw [List.filter_eq_self]
    intro row member
    apply decide_eq_true
    intro taken
    exact distinct.2.2 _ taken _ (List.mem_map_of_mem member) rfl
  rw [old, fresh, List.nil_append]

theorem persisted_extends {input : RebuildInput F} {mutation : DurableGraphMutation F} {calls : Nat}
    {world persisted : BuilderWorld F}
    (ran : persistGraphMutation services correlationId input mutation world = ⟨.ok (), calls, persisted⟩) :
    Extends world.store.outbox persisted.store.outbox := by
  unfold persistGraphMutation at ran
  split at ran
  · cases ran
  · have last := congrArg (fun ended => ended.world.store.outbox) ran
    exact last ▸ appendVectors_extends mutation.skills

/-- A rebuild that starts settled leaves the drain only its own events to look at. -/
theorem drainIndependent_of_settled (world : BuilderWorld F) (input : RebuildInput F)
    (settled : StartsSettled correlationId world input) :
    DrainIndependent services correlationId world input := by
  intro mutation calls persisted _ ran passes
  obtain ⟨new, extended⟩ := persisted_extends ran
  have none_ : world.store.outbox.openRows correlationId = [] := by
    rw [StartsSettled, Outbox.hasPending_eq, Bool.not_eq_false', List.isEmpty_iff] at settled
    exact settled
  have same : persisted.store.outbox.openRows correlationId =
      (world.store.since persisted.store).outbox.openRows correlationId := by
    change _ = (world.store.outbox.since persisted.store.outbox).openRows correlationId
    rw [Outbox.openRows, Outbox.openRows, since_rows extended.symm, ← extended, List.filter_append,
      show world.store.outbox.rows.filter (Outbox.opens correlationId) = [] from none_, List.nil_append]
  unfold markOutboxDrained
  split
  · rfl
  · rename_i relay _
    have ends : (Program.runLoop (serveDrain input.answers) (relay.drainPass services.format services.blake3
        correlationId) passes calls persisted.store).map Finished.outcome = _ :=
      drain_alike relay passes calls same
    have change := congrArg (Option.map (Except.mapError relayError)) ends
    simp only [Option.map_map] at change ⊢
    exact change

/-- In every history of rebuilds of a process that all start settled, how each drain ends
depends on the events of its own rebuild only. -/
theorem drains_independent {history : List (RebuildInput F)} {start : BuilderWorld F}
    (settled : EachRebuild services correlationId (StartsSettled correlationId) history start) :
    EachRebuild services correlationId (DrainIndependent services correlationId) history start :=
  settled.mono drainIndependent_of_settled

/-- No drain succeeds while an event of the correlation is stuck in processing. -/
theorem drain_fails_of_stuck {answers : DrainWeather} {passes calls later : Nat} {store after : OutboxWorld F}
    {row : OutboxRow} (member : row ∈ store.outbox.rows) (mine : row.event.correlationId = correlationId)
    (stuck : row.status = .processing) :
    markOutboxDrained services correlationId answers passes calls store ≠ some ⟨.ok (), later, after⟩ := by
  intro drained
  obtain ⟨⟨outcome, last, left⟩, ran, same⟩ := Option.map_eq_some_iff.mp drained
  have ended : outcome.mapError relayError = .ok () := congrArg Finished.outcome same
  cases outcome with
  | error error => cases ended
  | ok result =>
    obtain ⟨⟨events, rows⟩, none_⟩ := drained_of_ok ran
    obtain ⟨item, here, attempted⟩ := rows row member
    have unchanged : item = row.progress := by
      rcases attempted.cases_head with same | ⟨_, ⟨waits, -⟩, -⟩
      · exact same.symm
      · rw [OutboxRow.progress, stuck] at waits
        cases waits
    obtain ⟨current, inRows, id, progress⟩ := Outbox.progress_eq_some.mp here
    obtain ⟨found, inStore, event⟩ := Outbox.exists_of_events events inRows
    obtain rfl := Outbox.same_row inStore member ((congrArg OutboxEvent.eventId event).trans id)
    have standing : current.status.standing = .processing := by
      have both := congrArg Progress.standing (progress.trans unchanged)
      rw [OutboxRow.progress, OutboxRow.progress, stuck] at both
      exact both
    rcases Outbox.hasPending_eq_false none_ inRows (event ▸ mine) with published | failed
    · rw [published] at standing
      cases standing
    · rw [failed] at standing
      cases standing

/-! ### Two rebuilds of a process -/

def firstRebuild (answers : DrainWeather) : RebuildInput Rat := smallInput (oneSkillTree "# Tips") answers

def secondRebuild : RebuildInput Rat := smallInput twoSkillTree (numbered 100)

theorem drains_independent_twice : EachRebuild smallServices sampleCorrelation
    (DrainIndependent smallServices sampleCorrelation) [firstRebuild (numbered 1), secondRebuild]
      firstStart := by
  apply drains_independent
  refine ⟨rfl, fun ended ran => ⟨?_, fun _ _ => trivial⟩⟩
  have left : (rebuildFromChanges smallServices sampleCorrelation (firstRebuild (numbered 1)) firstStart).map
      (fun ended => ended.2.store.outbox.hasPending sampleCorrelation) = some false := by decide +kernel
  rw [ran] at left
  exact Option.some.inj left

/-- The connection is lost when the event of the first rebuild is marked as published. -/
def lostPublish : DrainWeather where
  weather calls :=
    { (numbered 1).weather calls with
      refused := if calls = 6 then some "error communicating with database: connection reset" else none }
  refuses _ _ := none

/-- Whether the drain of a rebuild succeeds, with everything there is and with its own events. -/
def drainsOk (input : RebuildInput Rat) (world : BuilderWorld Rat) : Option (Option Bool × Option Bool) :=
  match buildMutation input with
  | .error _ => none
  | .ok mutation =>
    match persistGraphMutation smallServices sampleCorrelation input mutation world with
    | ⟨.error _, _, _⟩ => none
    | ⟨.ok (), calls, persisted⟩ =>
      let drains (store : OutboxWorld Rat) : Option Bool :=
        ((markOutboxDrained smallServices sampleCorrelation input.answers input.passes calls store).map
          Finished.outcome).map Except.isOk
      some (drains persisted.store, drains (world.store.since persisted.store))

theorem drainsOk_eq {input : RebuildInput Rat} {world : BuilderWorld Rat} {all own : Option Bool}
    (independent : DrainIndependent smallServices sampleCorrelation world input)
    (drains : drainsOk input world = some (all, own)) : all = own := by
  unfold drainsOk at drains
  split at drains
  · cases drains
  · rename_i mutation built
    split at drains
    · cases drains
    · rename_i calls persisted ran
      obtain ⟨rfl, rfl⟩ := Prod.mk.inj (Option.some.inj drains)
      dsimp only
      rw [independent mutation calls persisted built ran input.passes]

/-- An event that is stuck in processing makes the drain of the next rebuild fail. -/
theorem drain_fails_after_lostPublish : ¬ EachRebuild smallServices sampleCorrelation
    (DrainIndependent smallServices sampleCorrelation) [firstRebuild lostPublish, secondRebuild] firstStart := by
  intro each
  have drains : (rebuildFromChanges smallServices sampleCorrelation (firstRebuild lostPublish) firstStart).map
      (fun ended => drainsOk secondRebuild ended.2) = some (some (some false, some true)) := by
    decide +kernel
  obtain ⟨ended, ran, differ⟩ := Option.map_eq_some_iff.mp drains
  have same := drainsOk_eq (each.2 ended ran).1 differ
  cases same

end SkillLayer.GraphBuilder
