import SkillLayer.GraphBuilder.DurableState
import SkillLayer.Infrastructure.GraphReads
import SkillLayer.Infrastructure.OutboxVectors

/-! Runs of rebuilds and restarts, and when a rebuild leaves the vectors of its own build in
the vector store. -/

namespace SkillLayer.GraphBuilder

open Infrastructure

variable {F : Type} (services : RebuildServices F)

/-- The drain of everything pending before the first cycle of a process. -/
def startupDrain (answers : DrainWeather) (passes : Nat) (store : OutboxWorld F) :
    Option (Finished OutboxRelayError Unit (OutboxWorld F)) :=
  match OutboxRelay.new 10 0 with
  | .error error => some ⟨.error error, 0, store⟩
  | .ok relay =>
    Program.runLoop (serveDrain answers) (relay.relayAllPass services.format services.blake3) passes 0 store

/-- A running process with its correlation id, and what it works on. -/
structure Builder (F : Type) where
  correlationId : Uuid
  world : BuilderWorld F

/-- Rebuilds, successful or not, of any files, and restarts of the process; the vector store
accepts every write. -/
inductive BuilderStep : Builder F → Builder F → Prop where
  | rebuilt {builder : Builder F} {input : RebuildInput F} {after : BuilderWorld F}
      {outcome : Except GraphRebuildError GraphRebuildOutcome} (accepts : input.answers.Accepts)
      (ran : rebuildFromChanges services builder.correlationId input builder.world = some (outcome, after)) :
      BuilderStep builder { builder with world := after }
  | restarted {builder : Builder F} (correlationId : Uuid) {answers : DrainWeather} {passes : Nat}
      {drained : Finished OutboxRelayError Unit (OutboxWorld F)} (accepts : answers.Accepts)
      (ran : startupDrain services answers passes builder.world.store = some drained) :
      BuilderStep builder ⟨correlationId, { builder.world with store := drained.world }⟩

/-- Runs from an empty outbox. -/
def builderRuns : Transitions (Builder F) where
  initial builder := builder.world.store.New
  step := BuilderStep services

def pointOf (skill : BuiltSkill F) : Nat := qdrantPointIdFromContentHash services.blake3 skill.id

/-- The store holds the embedding of every skill. -/
def VectorsFresh (skills : List (BuiltSkill F)) (store : OutboxWorld F) : Prop :=
  ∀ skill ∈ skills, store.HoldsVector (pointOf services skill) skill.embedding

/-- The persisted graph is the one that the rebuild has built, and its vectors are fresh. -/
def RebuiltFresh (input : RebuildInput F) (after : BuilderWorld F) : Prop :=
  ∃ mutation version, buildMutation input = .ok mutation ∧
    (after.database.skills.rows = mutation.live.skills.map fun skill =>
      { skillRow services.blake3 skill with graphVersion := version }) ∧
    VectorsFresh services mutation.skills after.store

/-- The event of a skill can be relayed. -/
def Relayable (skill : BuiltSkill F) : Prop :=
  ∃ payload, parseVectorUpsertRequest services.format (vectorPayload services.format skill) =
    .ok ⟨skill.id, skill.embedding, payload⟩

/-- The event of a row asks for the point of the skill, and it is published or can still be
published by this process. -/
def Publishable (correlationId : Uuid) (skill : BuiltSkill F) (row : OutboxRow) : Prop :=
  (∃ point, askedPoint? services.format services.blake3 row.toOutboxRecord = some point ∧
    point.id = pointOf services skill) ∧
    (row.status = .published ∨ row.event.correlationId = correlationId ∧ row.status ≠ .failed)

/-- No skill that is built shares its point with another embedding: not of a skill of the
same build, and not of an event that is already in the outbox; and the event under its key,
if there is one, is or can be published, unless the store holds the embedding already. -/
structure Refreshes (correlationId : Uuid) (skills : List (BuiltSkill F)) (store : OutboxWorld F) : Prop where
  relayable : ∀ skill ∈ skills, Relayable services skill
  apart : ∀ skill ∈ skills, ∀ other ∈ skills, pointOf services other = pointOf services skill →
    other.embedding = skill.embedding
  unedited : ∀ skill ∈ skills,
    store.outbox.Agrees services.format services.blake3 (pointOf services skill) skill.embedding
  enqueued : ∀ skill ∈ skills, ∀ row ∈ store.outbox.rows, row.idempotencyKey = vectorKey skill.id →
    Publishable services correlationId skill row ∨ store.HoldsVector (pointOf services skill) skill.embedding

variable {services} {correlationId : Uuid} {format : VectorFormat F} {answers : DrainWeather} {calls later : Nat}
  {world after : OutboxWorld F}

/-! ### Appended events -/

/-- The events of the skills are appended behind the rows that were there, but for those
whose key was taken. -/
structure Appended (format : VectorFormat F) (correlationId : Uuid) (skills : List (BuiltSkill F))
    (before after : OutboxWorld F) : Prop where
  points : after.points = before.points
  written : after.written = before.written
  rows : ∃ new, after.outbox.rows = before.outbox.rows ++ new ∧ ∀ row ∈ new, row.status = .pending ∧
    ∃ skill ∈ skills, ∃ eventId timestamp, row.event = vectorEvent format correlationId eventId timestamp skill
  keys : ∀ skill ∈ skills, ∃ row ∈ after.outbox.rows, row.idempotencyKey = vectorKey skill.id

theorem run_appendVector {skill : BuiltSkill F}
    (ran : (appendVector format correlationId skill).run (serveDrain answers) calls world =
      ⟨.ok (), later, after⟩) : Appended format correlationId [skill] world after := by
  simp only [appendVector, Program.ask_bind, Program.run_call] at ran
  obtain ⟨_, _, left, appending, returned⟩ := Program.run_bind_eq_ok.mp ran
  cases returned
  rw [Program.run_mapError_eq_ok, appendOutboxEventIdempotent] at appending
  obtain ⟨_, _, _, valid, asked⟩ := Program.run_bind_eq_ok.mp appending
  obtain ⟨-, rfl, rfl⟩ := Program.run_ofExcept_eq_ok.mp valid
  rw [Program.ask_bind, Program.run_call] at asked
  obtain ⟨rowsAffected, _, _, answered, returned⟩ := Program.run_bind_eq_ok.mp asked
  cases returned
  obtain ⟨answer, -, rfl⟩ := Program.run_ofExcept_eq_ok.mp answered
  simp only [serveDrain, serveOutbox, Weather.sql] at answer ⊢
  generalize (answers.weather calls).eventId = eventId at *
  generalize (answers.weather (calls + 1)).now = timestamp at *
  cases refused : (answers.weather (calls + 1 + 1)).refused with
  | some message =>
    rw [refused] at answer
    cases answer
  | none =>
    cases inserted : world.outbox.insertIfNew (answers.weather (calls + 1 + 1)).now
        (vectorEvent format correlationId eventId timestamp skill) with
    | error error =>
      rw [refused, inserted] at answer
      cases answer
    | ok result =>
      obtain ⟨affected, outbox⟩ := result
      obtain ⟨-, ⟨-, rfl, taken⟩ | ⟨-, fresh, freshKey, rfl⟩⟩ := Outbox.insertIfNew_eq_ok.mp inserted
      · refine ⟨rfl, rfl, ⟨[], (List.append_nil _).symm, List.forall_mem_nil _⟩, ?_⟩
        intro other member
        obtain rfl := List.mem_singleton.mp member
        exact Outbox.holdsKey_iff.mp taken
      · refine ⟨rfl, rfl, ⟨_, rfl, ?_⟩, ?_⟩
        · intro row member
          obtain rfl := List.mem_singleton.mp member
          exact ⟨rfl, skill, List.mem_singleton_self _, eventId, timestamp, rfl⟩
        · intro other member
          obtain rfl := List.mem_singleton.mp member
          exact ⟨_, List.mem_append_right _ (List.mem_singleton_self _), rfl⟩

theorem Appended.trans {first rest : List (BuiltSkill F)} {before between after : OutboxWorld F}
    (one : Appended format correlationId first before between)
    (others : Appended format correlationId rest between after) :
    Appended format correlationId (first ++ rest) before after := by
  obtain ⟨new, extended, pending⟩ := one.rows
  obtain ⟨more, extendedAgain, pendingToo⟩ := others.rows
  refine ⟨others.points.trans one.points, others.written.trans one.written, ⟨new ++ more, ?_, ?_⟩, ?_⟩
  · rw [extendedAgain, extended, List.append_assoc]
  · intro row member
    rcases List.mem_append.mp member with inNew | inMore
    · obtain ⟨waits, skill, here, event⟩ := pending row inNew
      exact ⟨waits, skill, List.mem_append_left _ here, event⟩
    · obtain ⟨waits, skill, here, event⟩ := pendingToo row inMore
      exact ⟨waits, skill, List.mem_append_right _ here, event⟩
  · intro skill member
    rcases List.mem_append.mp member with inFirst | inRest
    · obtain ⟨row, here, key⟩ := one.keys skill inFirst
      exact ⟨row, extendedAgain ▸ List.mem_append_left _ here, key⟩
    · exact others.keys skill inRest

theorem run_appendVectors {skills : List (BuiltSkill F)}
    (ran : (appendVectors format correlationId skills).run (serveDrain answers) calls world =
      ⟨.ok (), later, after⟩) : Appended format correlationId skills world after := by
  induction skills generalizing calls world with
  | nil =>
    cases ran
    exact ⟨rfl, rfl, ⟨[], (List.append_nil _).symm, nofun⟩, nofun⟩
  | cons skill rest ih =>
    obtain ⟨_, middle, left, first, others⟩ := Program.run_bind_eq_ok.mp ran
    exact (run_appendVector first).trans (ih others)

/-! ### The vectors of one rebuild -/

section Rebuild

variable {start store persisted : OutboxWorld F} {skill : BuiltSkill F} {skills : List (BuiltSkill F)}

theorem askedPoint_of_event {row : OutboxRow} {eventId : Uuid} {timestamp : Timestamp}
    (relayable : Relayable services skill)
    (event : row.event = vectorEvent services.format correlationId eventId timestamp skill) :
    ∃ point, askedPoint? services.format services.blake3 row.toOutboxRecord = some point ∧
      point.id = pointOf services skill ∧ point.vector = skill.embedding := by
  obtain ⟨payload, parsed⟩ := relayable
  refine ⟨_, askedPoint_eq_some.mpr ⟨⟨skill.id, skill.embedding, payload⟩, ?_, rfl⟩, rfl, rfl⟩
  have payloads : row.event.payload = vectorPayload services.format skill := by rw [event]; rfl
  have types : row.event.eventType = vectorUpsertEventType := by rw [event]; rfl
  rw [upsertOf, if_neg (not_not.mpr types), payloads, parsed]
  rfl

/-- The new events agree with the old ones on the points of the skills. -/
theorem agrees_appended (refreshes : Refreshes services correlationId skills store)
    (appended : Appended services.format correlationId skills store persisted) (member : skill ∈ skills) :
    persisted.outbox.Agrees services.format services.blake3 (pointOf services skill) skill.embedding := by
  obtain ⟨new, extended, pending⟩ := appended.rows
  intro row inRows point asks id
  rcases List.mem_append.mp (extended ▸ inRows) with old | added
  · exact refreshes.unedited skill member row old point asks id
  · obtain ⟨-, other, inSkills, eventId, timestamp, event⟩ := pending row added
    obtain ⟨asked, asksToo, own, vector⟩ := askedPoint_of_event (refreshes.relayable other inSkills) event
    obtain rfl := Option.some.inj (asksToo.symm.trans asks)
    exact vector.trans (refreshes.apart skill member other inSkills (own.symm.trans id))

theorem agrees_of_events {outbox other : Outbox} (same : outbox.events = other.events) {pointId : Nat}
    {vector : List F} (agrees : other.Agrees services.format services.blake3 pointId vector) :
    outbox.Agrees services.format services.blake3 pointId vector := by
  intro row member point asks id
  obtain ⟨found, inOther, event⟩ := Outbox.exists_of_events same member
  exact agrees found inOther point ((askedPoint_congr event).trans asks) id

/-- After a successful drain the store holds the embeddings of a build that refreshes it. -/
theorem fresh_of_drain {relay : OutboxRelay} {passes : Nat} (accepts : answers.Accepts)
    (refreshes : Refreshes services correlationId skills store)
    (appended : Appended services.format correlationId skills store persisted)
    (kept : Kept services.format services.blake3 start .idle persisted) (new : start.written = [])
    (ran : Program.runLoop (serveDrain answers)
      (relay.drainPass services.format services.blake3 correlationId) passes calls persisted =
        some ⟨.ok (), later, after⟩) : VectorsFresh services skills after := by
  intro skill member
  have last : Kept services.format services.blake3 start .idle after := kept.drain ran
  have agrees : after.outbox.Agrees services.format services.blake3 (pointOf services skill)
      skill.embedding :=
    agrees_of_events (drained_of_ok ran).1.events (agrees_appended refreshes appended member)
  have ofPublished {row : OutboxRow} (inRows : row ∈ persisted.outbox.rows) {point : StoredPoint F}
      (asks : askedPoint? services.format services.blake3 row.toOutboxRecord = some point)
      (id : point.id = pointOf services skill)
      (may : row.status = .published ∨ row.event.correlationId = correlationId ∧ row.status ≠ .failed) :
      after.HoldsVector (pointOf services skill) skill.embedding := by
    obtain ⟨current, inAfter, event, published⟩ := published_after_drain accepts ran inRows asks may
    rw [← id] at agrees ⊢
    exact last.holds_of_published new inAfter published ((askedPoint_congr event).trans asks) agrees
  obtain ⟨more, extended, pending⟩ := appended.rows
  obtain ⟨row, inRows, key⟩ := appended.keys skill member
  rcases List.mem_append.mp (extended ▸ inRows) with old | added
  · rcases refreshes.enqueued skill member row old key with ⟨⟨point, asks, id⟩, may⟩ | held
    · exact ofPublished inRows asks id may
    · refine (kept.restart.drain ran).traced.holds_of_held agrees ?_
      rw [OutboxWorld.HoldsVector, appended.points]
      exact held
  · obtain ⟨waits, other, inSkills, eventId, timestamp, event⟩ := pending row added
    obtain ⟨point, asks, id, -⟩ := askedPoint_of_event (refreshes.relayable other inSkills) event
    have keys : vectorKey other.id = vectorKey skill.id := by
      rw [← key, OutboxRow.idempotencyKey, event]
      rfl
    have same : other.id = skill.id := List.append_cancel_left keys
    have own : pointOf services other = pointOf services skill := congrArg (qdrantPointIdFromContentHash _) same
    refine ofPublished inRows asks (id.trans own) (.inr ⟨?_, ?_⟩)
    · rw [event]
      rfl
    · rw [waits]
      decide

end Rebuild

/-! ### Runs -/

section Runs

variable {start : OutboxWorld F} {builder : Builder F} {input : RebuildInput F} {mutation : DurableGraphMutation F}
  {world after : BuilderWorld F}

theorem Appends.passive {request : OutboxCall F} (appends : Appends request) : request.Passive := by
  cases request <;> trivial

theorem Appends.aside {request : OutboxCall F} (appends : Appends request) : request.Aside := by
  cases request <;> trivial

theorem kept_appendVectors (skills : List (BuiltSkill F)) {world : OutboxWorld F}
    (kept : Kept services.format services.blake3 start .idle world) :
    Kept services.format services.blake3 start .idle
      ((appendVectors services.format correlationId skills).run (serveDrain answers) calls world).world := by
  have appends : (appendVectors services.format correlationId skills).Calls Appends :=
    appends_appendVectors skills
  have obeys : (appendVectors services.format correlationId skills).Obeys
      (outboxDiscipline services.format services.blake3) (fun _ _ => True) .idle :=
    appends.obeys (fun _ append => append.passive.neutral _) fun _ => trivial
  exact kept.run obeys (appends.mono fun _ append => append.aside)

theorem kept_persist {persisted : Finished GraphRebuildError Unit (BuilderWorld F)}
    (kept : Kept services.format services.blake3 start .idle world.store)
    (ran : persistGraphMutation services correlationId input mutation world = persisted) :
    Kept services.format services.blake3 start .idle persisted.world.store := by
  subst ran
  unfold persistGraphMutation
  split
  · exact kept
  · exact kept_appendVectors mutation.skills kept

theorem kept_finish {outcome : Except GraphRebuildError GraphRebuildOutcome}
    (kept : Kept services.format services.blake3 start .idle world.store)
    (ran : finishRebuild services correlationId input calls mutation world = some (outcome, after)) :
    Kept services.format services.blake3 start .idle after.store := by
  obtain ⟨drained, ended, same⟩ := Option.map_eq_some_iff.mp ran
  have store : drained.world = after.store := by
    split at same
    · cases same
      rfl
    · split at same
      · cases same
        rfl
      · cases same
        rfl
  rw [← store]
  unfold markOutboxDrained at ended
  split at ended
  · cases ended
    exact kept
  · obtain ⟨finished, drain, rfl⟩ := Option.map_eq_some_iff.mp ended
    exact kept.drain drain

/-- A rebuild that succeeds has drained the outbox, and its second bump leaves the skills alone. -/
theorem finish_ok {outcome : GraphRebuildOutcome}
    (ran : finishRebuild services correlationId input calls mutation world = some (.ok outcome, after)) :
    after.database.skills = world.database.skills ∧ ∃ (relay : OutboxRelay) (later : Nat),
      Program.runLoop (serveDrain input.answers)
        (relay.drainPass services.format services.blake3 correlationId) input.passes calls world.store =
          some ⟨.ok (), later, after.store⟩ := by
  obtain ⟨⟨drainedOutcome, last, store⟩, ended, same⟩ := Option.map_eq_some_iff.mp ran
  cases drainedOutcome with
  | error error => cases same
  | ok result =>
    have skills := skills_bumpGraphVersion input.bumpRefused world.database
    rcases bumped : bumpGraphVersion input.bumpRefused world.database with ⟨error | version, database⟩
    · rw [bumped] at same
      cases same
    · rw [bumped] at same skills
      cases same
      refine ⟨skills, ?_⟩
      unfold markOutboxDrained at ended
      split at ended
      · cases ended
      · rename_i relay _
        obtain ⟨⟨inner, later, left⟩, drain, mapped⟩ := Option.map_eq_some_iff.mp ended
        cases inner with
        | error error => cases mapped
        | ok done =>
          cases mapped
          exact ⟨relay, _, drain⟩

/-- A rebuild keeps the invariant, however it ends. -/
theorem kept_rebuild {outcome : Except GraphRebuildError GraphRebuildOutcome}
    (kept : Kept services.format services.blake3 start .idle world.store)
    (ran : rebuildFromChanges services correlationId input world = some (outcome, after)) :
    Kept services.format services.blake3 start .idle after.store := by
  unfold rebuildFromChanges at ran
  split at ran
  · cases ran
    exact kept
  · split at ran
    · rename_i persist
      cases ran
      exact kept_persist kept persist
    · rename_i persist
      exact kept_finish (kept_persist kept persist) ran

theorem kept_start (new : start.New) : Kept services.format services.blake3 start .idle start := by
  refine ⟨OutboxSound.start new, .refl fun entry member => ?_⟩
  rw [new.written] at member
  cases member

/-- The store of every reached state can be traced back to an empty outbox. -/
theorem kept_reachable (reached : (builderRuns services).Reachable builder) :
    ∃ start : OutboxWorld F, start.New ∧
      Kept services.format services.blake3 start .idle builder.world.store := by
  apply reached.invariant
  · intro builder new
    exact ⟨builder.world.store, new, kept_start new⟩
  intro before after holds step
  obtain ⟨start, new, kept⟩ := holds
  refine ⟨start, new, ?_⟩
  cases step with
  | rebuilt accepts ran => exact kept_rebuild kept ran
  | restarted correlationId accepts ran =>
    unfold startupDrain at ran
    split at ran
    · cases ran
      exact kept
    · exact kept.relayAll ran

/-- In every run a successful rebuild leaves the vectors of its own build in the store, when
no vector event that was enqueued before carries another embedding for one of its skills. -/
theorem vectors_fresh {outcome : GraphRebuildOutcome}
    (reached : (builderRuns services).Reachable builder) (accepts : input.answers.Accepts)
    (refreshes : ∀ mutation, buildMutation input = .ok mutation →
      Refreshes services builder.correlationId mutation.skills builder.world.store)
    (ran : rebuildFromChanges services builder.correlationId input builder.world = some (.ok outcome, after)) :
    RebuiltFresh services input after := by
  obtain ⟨start, new, kept⟩ := kept_reachable reached
  unfold rebuildFromChanges at ran
  split at ran
  · cases ran
  · rename_i mutation built
    split at ran
    · cases ran
    · rename_i calls persisted persist
      have keptThen := kept_persist kept persist
      obtain ⟨sameSkills, relay, later, drain⟩ := finish_ok ran
      unfold persistGraphMutation at persist
      rcases replaceSnapshotAndBumpVersion_spec services.blake3 input.refused mutation.live
        builder.world.database with ⟨-, version, database, committed, replaced⟩ | ⟨-, error, refused⟩
      · rw [committed] at persist
        dsimp only at persist
        rcases appending : (appendVectors services.format builder.correlationId mutation.skills).run
          (serveDrain input.answers) 0 builder.world.store with ⟨appendOutcome, made, left⟩
        rw [appending] at persist
        cases persist
        refine ⟨mutation, version, built, ?_, ?_⟩
        · rw [sameSkills]
          exact replaced.skills
        · exact fresh_of_drain accepts (refreshes mutation built) (run_appendVectors appending) keptThen
            new.written drain
      · rw [refused] at persist
        cases persist

end Runs

/-! ### Rebuilds of a small repository -/

section Decide

variable [DecidableEq F] {skill : BuiltSkill F} {skills : List (BuiltSkill F)} {store : OutboxWorld F}

instance {outbox : Outbox} {pointId : Nat} {vector : List F} :
    Decidable (outbox.Agrees services.format services.blake3 pointId vector) :=
  decidable_of_iff (∀ row ∈ outbox.rows,
      (askedPoint? services.format services.blake3 row.toOutboxRecord).all
        (fun point => point.id = pointId → point.vector = vector) = true) <| by
    unfold Outbox.Agrees
    refine forall₂_congr fun row _ => ?_
    cases askedPoint? services.format services.blake3 row.toOutboxRecord with
    | none => simp
    | some point => simp only [Option.all_some, decide_eq_true_eq, Option.some.injEq, forall_eq']

instance {pointId : Nat} {vector : List F} : Decidable (store.HoldsVector pointId vector) :=
  decidable_of_iff ((pointAt? pointId store.points).any fun stored => stored.vector = vector) <| by
    unfold OutboxWorld.HoldsVector
    cases pointAt? pointId store.points <;> simp

instance : Decidable (Relayable services skill) :=
  decidable_of_iff ((parseVectorUpsertRequest services.format
      (vectorPayload services.format skill)).toOption.any
        fun upsert => upsert.contentHash = skill.id ∧ upsert.vector = skill.embedding) <| by
    unfold Relayable
    rcases parseVectorUpsertRequest services.format (vectorPayload services.format skill) with
      error | ⟨contentHash, vector, payload⟩
    · simp [Except.toOption]
    · simp [Except.toOption]

instance {row : OutboxRow} : Decidable (Publishable services correlationId skill row) :=
  decidable_of_iff (((askedPoint? services.format services.blake3 row.toOutboxRecord).any
      fun point => point.id = pointOf services skill) = true ∧
      (row.status = .published ∨ row.event.correlationId = correlationId ∧ row.status ≠ .failed)) <| by
    unfold Publishable
    cases askedPoint? services.format services.blake3 row.toOutboxRecord <;> simp

instance : Decidable (VectorsFresh services skills store) :=
  inferInstanceAs (Decidable (∀ skill ∈ skills,
    store.HoldsVector (pointOf services skill) skill.embedding))

instance : Decidable (Refreshes services correlationId skills store) :=
  decidable_of_iff ((∀ skill ∈ skills, Relayable services skill) ∧
      (∀ skill ∈ skills, ∀ other ∈ skills, pointOf services other = pointOf services skill →
        other.embedding = skill.embedding) ∧
      (∀ skill ∈ skills,
        store.outbox.Agrees services.format services.blake3 (pointOf services skill) skill.embedding) ∧
      ∀ skill ∈ skills, ∀ row ∈ store.outbox.rows, row.idempotencyKey = vectorKey skill.id →
        Publishable services correlationId skill row ∨
          store.HoldsVector (pointOf services skill) skill.embedding)
    ⟨fun ⟨relayable, apart, unedited, enqueued⟩ => ⟨relayable, apart, unedited, enqueued⟩,
      fun refreshes => ⟨refreshes.relayable, refreshes.apart, refreshes.unedited, refreshes.enqueued⟩⟩

end Decide

def firstProcess : Builder Rat := ⟨sampleCorrelation, firstStart⟩

theorem accepts_numbered (first : Nat) : (numbered first).Accepts := fun _ _ => rfl

theorem reachable_firstRebuild {outcome : Except GraphRebuildError GraphRebuildOutcome}
    {after : BuilderWorld Rat} (ran : rebuildFromChanges smallServices sampleCorrelation
      (smallInput (oneSkillTree "# Tips") (numbered 1)) firstStart = some (outcome, after)) :
    (builderRuns smallServices).Reachable ⟨sampleCorrelation, after⟩ := by
  have initial : (builderRuns smallServices).Reachable firstProcess := .start freshWorld_new
  exact initial.next (.rebuilt (accepts_numbered 1) ran)

/-- A second rebuild with one more skill is fresh. -/
theorem vectors_fresh_twice : ∃ between outcome after,
    rebuildFromChanges smallServices sampleCorrelation (smallInput (oneSkillTree "# Tips") (numbered 1))
      firstStart = some between ∧
    rebuildFromChanges smallServices sampleCorrelation (smallInput twoSkillTree (numbered 100)) between.2 =
      some (.ok outcome, after) ∧
    RebuiltFresh smallServices (smallInput twoSkillTree (numbered 100)) after := by
  have facts : (rebuildFromChanges smallServices sampleCorrelation
      (smallInput (oneSkillTree "# Tips") (numbered 1)) firstStart).map (fun between =>
        ((rebuildFromChanges smallServices sampleCorrelation (smallInput twoSkillTree (numbered 100))
          between.2).map fun ended => ended.1.isOk,
        (buildMutation (smallInput twoSkillTree (numbered 100))).toOption.all fun mutation =>
          Refreshes smallServices sampleCorrelation mutation.skills between.2.store)) =
      some (some true, true) := by
    decide +kernel
  obtain ⟨between, first, rest⟩ := Option.map_eq_some_iff.mp facts
  obtain ⟨ended, refreshes⟩ := Prod.mk.inj rest
  obtain ⟨⟨error | outcome, after⟩, second, ok⟩ := Option.map_eq_some_iff.mp ended
  · cases ok
  refine ⟨between, outcome, after, first, second, ?_⟩
  refine vectors_fresh (reachable_firstRebuild first) (accepts_numbered 100) ?_ second
  intro mutation built
  rw [built] at refreshes
  exact of_decide_eq_true refreshes

/-- After an edit of a skill file the store keeps the vector of the old text. -/
theorem edit_leaves_vector : ¬ ∀ (builder : Builder Rat) (input : RebuildInput Rat)
    (outcome : GraphRebuildOutcome) (after : BuilderWorld Rat),
    (builderRuns smallServices).Reachable builder → input.answers.Accepts →
    rebuildFromChanges smallServices builder.correlationId input builder.world = some (.ok outcome, after) →
      RebuiltFresh smallServices input after := by
  intro always
  have facts : (rebuildFromChanges smallServices sampleCorrelation
      (smallInput (oneSkillTree "# Tips") (numbered 1)) firstStart).map (fun between =>
        (rebuildFromChanges smallServices sampleCorrelation
          (smallInput (oneSkillTree "# Advice") (numbered 100)) between.2).map fun ended =>
            (ended.1.isOk, (buildMutation (smallInput (oneSkillTree "# Advice") (numbered 100))).toOption.all
              fun mutation => VectorsFresh smallServices mutation.skills ended.2.store)) =
      some (some (true, false)) := by
    decide +kernel
  obtain ⟨between, first, rest⟩ := Option.map_eq_some_iff.mp facts
  obtain ⟨⟨error | outcome, after⟩, second, both⟩ := Option.map_eq_some_iff.mp rest
  · cases (Prod.mk.inj both).1
  obtain ⟨mutation, version, built, -, fresh⟩ :=
    always _ _ outcome after (reachable_firstRebuild first) (accepts_numbered 100) second
  have stale := (Prod.mk.inj both).2
  rw [built] at stale
  exact absurd (decide_eq_true fresh) (Bool.eq_false_iff.mp stale)

end SkillLayer.GraphBuilder
