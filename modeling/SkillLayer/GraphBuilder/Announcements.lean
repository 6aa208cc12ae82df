import Mathlib.Data.Rat.Lemmas
import SkillLayer.Runs
import SkillLayer.GraphBuilder.MainLoop

/-! Which graph versions the loop announces, over any failures and restarts. -/

namespace SkillLayer.GraphBuilder

open Infrastructure

variable {F : Type}

/-! ### What an envelope announces -/

structure EventEnvelope.Announces (envelope : EventEnvelope) (graphVersion : Int) : Prop where
  rebuilt : envelope.eventType = graphRebuiltEventType
  carried : envelope.payload.get? "graph_version" = some (.number graphVersion)

theorem EventEnvelope.Announces.graphVersion {envelope : EventEnvelope} {graphVersion : Int}
    (announces : envelope.Announces graphVersion) (low : 0 ≤ graphVersion)
    (high : graphVersion ≤ maxBigint) : envelope.graphVersion? = some graphVersion := by
  unfold maxBigint at high
  have lower : -2 ^ 63 ≤ graphVersion := by omega
  have upper : graphVersion < 2 ^ 63 := by omega
  rw [EventEnvelope.graphVersion?, if_pos announces.rebuilt, announces.carried]
  simp only [Option.bind_some, Value.asI64?, Rat.num_intCast, Rat.den_intCast]
  exact if_pos ⟨trivial, lower, upper⟩

theorem EventEnvelope.Announces.unique {envelope : EventEnvelope} {graphVersion other : Int}
    (announces : envelope.Announces graphVersion) (also : envelope.Announces other) :
    graphVersion = other := by
  have same := Option.some.inj (announces.carried.symm.trans also.carried)
  injection same with same
  exact Rat.intCast_injective same

theorem announces_of_graphVersion {envelope : EventEnvelope} {graphVersion : Int}
    (read : envelope.graphVersion? = some graphVersion) : envelope.Announces graphVersion := by
  unfold EventEnvelope.graphVersion? at read
  split at read
  · rename_i rebuilt
    obtain ⟨value, carried, number⟩ := Option.bind_eq_some_iff.mp read
    cases value with
    | number value =>
      simp only [Value.asI64?, Option.ite_none_right_eq_some, Option.some.injEq] at number
      obtain ⟨⟨whole, -, -⟩, rfl⟩ := number
      refine ⟨rebuilt, ?_⟩
      rw [carried, Rat.coe_int_num_of_den_eq_one whole]
    | _ => cases number
  · cases read

/-! ### What the loop keeps to -/

/-- The versions that Postgres has told of, the envelopes of the buffer that were published,
and all envelopes that were published. -/
structure LoopLedger where
  known : List Int
  sent : List EventEnvelope
  announced : List EventEnvelope

/-- The envelope announces a version that is known. -/
def LoopLedger.Knows (ledger : LoopLedger) (envelope : EventEnvelope) : Prop :=
  ∃ version ∈ ledger.known, envelope.Announces version

/-- Nothing was published, or an envelope with this version. -/
def LoopLedger.Covers (ledger : LoopLedger) (version : Int) : Prop :=
  version = 0 ∨ ∃ envelope ∈ ledger.announced, envelope.Announces version

def LoopLedger.after (ledger : LoopLedger) : (request : LoopCall F) → LoopAnswer F request → LoopLedger
  | .currentGraphVersion, .ok version => { ledger with known := version :: ledger.known }
  | .bumpGraphVersion, .ok version => { ledger with known := version :: ledger.known }
  | .publish envelope buffered, .ok _ =>
    { ledger with
      sent := if buffered then ledger.sent ++ [envelope] else ledger.sent
      announced := envelope :: ledger.announced }
  | _, _ => ledger

/-- Only envelopes with known versions are published. -/
def loopDiscipline : Discipline (LoopCall F) (LoopAnswer F) LoopLedger where
  allows ledger
    | .publish envelope _ => ledger.Knows envelope
    | _ => True
  after := LoopLedger.after

/-- What a process remembers fits its ledger: it buffers what it pushed and has not sent, all
with known versions, and its last published version was announced. -/
structure LoopMemory.Fits (memory : LoopMemory) (ledger : LoopLedger) : Prop where
  buffered : memory.pushed = ledger.sent ++ memory.publishedEvents
  known : ∀ envelope ∈ memory.publishedEvents, ledger.Knows envelope
  last : ledger.Covers memory.lastPublishedGraphVersion

/-- The second ledger knows and has announced at least as much. -/
structure LoopLedger.Extends (before after : LoopLedger) : Prop where
  known : before.known ⊆ after.known
  announced : before.announced ⊆ after.announced

variable {ledger left : LoopLedger} {envelope : EventEnvelope} {Err Result : Type}

theorem LoopLedger.Extends.refl (ledger : LoopLedger) : ledger.Extends ledger :=
  ⟨List.Subset.refl _, List.Subset.refl _⟩

theorem LoopLedger.Extends.trans {first second third : LoopLedger} (one : first.Extends second)
    (two : second.Extends third) : first.Extends third :=
  ⟨List.Subset.trans one.known two.known, List.Subset.trans one.announced two.announced⟩

theorem LoopLedger.extends_known (ledger : LoopLedger) (version : Int) :
    ledger.Extends { ledger with known := version :: ledger.known } :=
  ⟨List.subset_cons_self _ _, List.Subset.refl _⟩

theorem LoopLedger.extends_announced (ledger : LoopLedger) (envelope : EventEnvelope)
    (sent : List EventEnvelope) :
    ledger.Extends { ledger with sent, announced := envelope :: ledger.announced } :=
  ⟨List.Subset.refl _, List.subset_cons_self _ _⟩

theorem LoopLedger.Knows.mono (knows : ledger.Knows envelope) (more : ledger.Extends left) :
    left.Knows envelope := by
  obtain ⟨version, member, announces⟩ := knows
  exact ⟨version, more.known member, announces⟩

theorem LoopLedger.Covers.mono {version : Int} (covers : ledger.Covers version)
    (more : ledger.Extends left) : left.Covers version := by
  rcases covers with rfl | ⟨envelope, member, announces⟩
  · exact .inl rfl
  · exact .inr ⟨envelope, more.announced member, announces⟩

theorem LoopLedger.Covers.max {version other : Int} (first : ledger.Covers version)
    (second : ledger.Covers other) : ledger.Covers (max version other) := by
  rw [Int.max_def]
  split
  · exact second
  · exact first

/-- A new `graph.rebuilt` envelope of a version is made without changing the ledger. -/
theorem obeys_new {ends : LoopLedger → Except Err EventEnvelope → Prop} {key : Str} {version : Int}
    {fields : List (Str × Value)}
    (ended : ∀ envelope : EventEnvelope, envelope.Announces version → ends ledger (.ok envelope)) :
    (EventEnvelope.new graphRebuiltEventType key (.object (("graph_version", .number version) :: fields)) :
      LoopProgram F Err EventEnvelope).Obeys loopDiscipline ends ledger := by
  unfold EventEnvelope.new
  refine ⟨trivial, fun eventId => ⟨trivial, fun correlationId => ⟨trivial, fun timestamp => ?_⟩⟩⟩
  apply ended
  exact ⟨rfl, rfl⟩

/-! ### The functions of the loop keep to it -/

theorem obeys_replay (lastPublished : Int) :
    (maybeReplayGraphRebuilt lastPublished : LoopProgram F Empty Int).Obeys loopDiscipline
      (fun left outcome => left.sent = ledger.sent ∧ ledger.Extends left ∧
        ∃ last, outcome = .ok last ∧ (last = lastPublished ∨ left.Covers last)) ledger := by
  simp only [maybeReplayGraphRebuilt, Program.ask_bind]
  refine ⟨trivial, fun read => ?_⟩
  cases read with
  | error message => exact ⟨rfl, .refl _, _, rfl, .inl rfl⟩
  | ok pgVersion =>
    have learned := ledger.extends_known pgVersion
    dsimp only
    split
    · exact ⟨rfl, learned, _, rfl, .inl rfl⟩
    · apply Program.Obeys.bind
      apply obeys_new
      intro envelope announces
      refine ⟨⟨pgVersion, List.mem_cons_self, announces⟩, fun answer => ?_⟩
      cases answer with
      | error message => exact ⟨rfl, learned, _, rfl, .inl rfl⟩
      | ok streamId =>
        refine ⟨rfl, learned.trans (LoopLedger.extends_announced _ envelope _), _, rfl, .inr (.inr ?_)⟩
        exact ⟨envelope, List.mem_cons_self, announces⟩

theorem obeys_rebuild (publishedEvents : List EventEnvelope) :
    (GraphRebuildOrchestrator.rebuildFromChanges publishedEvents :
      LoopProgram F GraphRebuildError (GraphRebuildOutcome × List EventEnvelope)).Obeys loopDiscipline
      (fun left outcome => left.sent = ledger.sent ∧ ledger.Extends left ∧
        ∀ result events, outcome = .ok (result, events) →
          ∃ envelope, events = publishedEvents ++ [envelope] ∧ left.Knows envelope) ledger := by
  simp only [GraphRebuildOrchestrator.rebuildFromChanges, Program.ask_bind]
  refine ⟨trivial, fun built => ?_⟩
  cases built with
  | error error => exact ⟨rfl, .refl _, nofun⟩
  | ok mutation =>
    refine ⟨trivial, fun persisted => ?_⟩
    cases persisted with
    | error error => exact ⟨rfl, .refl _, nofun⟩
    | ok =>
      refine ⟨trivial, fun drained => ?_⟩
      cases drained with
      | error error => exact ⟨rfl, .refl _, nofun⟩
      | ok =>
        refine ⟨trivial, fun bumped => ?_⟩
        cases bumped with
        | error error => exact ⟨rfl, .refl _, nofun⟩
        | ok graphVersion =>
          simp only [Program.ofExcept_ok, Program.bind_done]
          apply Program.Obeys.bind
          apply obeys_new
          intro envelope announces
          refine ⟨rfl, ledger.extends_known graphVersion, ?_⟩
          rintro _ _ ⟨⟩
          exact ⟨envelope, rfl, graphVersion, List.mem_cons_self, announces⟩

theorem obeys_runRebuildCycle (publishedEvents : List EventEnvelope) :
    (runRebuildCycle publishedEvents :
      LoopProgram F CycleError (Option Int × List EventEnvelope)).Obeys loopDiscipline
      (fun left outcome => left.sent = ledger.sent ∧ ledger.Extends left ∧
        ∀ result events, outcome = .ok (result, events) →
          ∃ new, events = publishedEvents ++ new ∧ ∀ envelope ∈ new, left.Knows envelope) ledger := by
  simp only [runRebuildCycle, Program.ask_bind]
  refine ⟨trivial, fun collected => ?_⟩
  cases collected with
  | error message => exact ⟨rfl, .refl _, nofun⟩
  | ok changed =>
    cases changed with
    | false =>
      refine ⟨rfl, .refl _, ?_⟩
      rintro _ _ ⟨⟩
      exact ⟨[], (List.append_nil _).symm, nofun⟩
    | true =>
      have scanned : (Except.ok true : Except Str Bool).mapError CycleError.watcher = .ok true := rfl
      simp only [scanned, Program.ofExcept_ok, Program.bind_done, if_true]
      apply Program.Obeys.bind
      apply Program.Obeys.mapError
      apply Program.Obeys.mono _ (obeys_rebuild publishedEvents)
      intro left outcome ended
      obtain ⟨sent, more, pushed⟩ := ended
      cases outcome with
      | error error => exact ⟨sent, more, nofun⟩
      | ok result =>
        obtain ⟨envelope, events, knows⟩ := pushed _ _ rfl
        refine ⟨sent, more, ?_⟩
        rintro _ _ ⟨⟩
        refine ⟨[envelope], events, ?_⟩
        intro other member
        exact List.mem_singleton.mp member ▸ knows

/-- The envelopes of the prefix are sent, and the largest version is one of theirs. -/
theorem obeys_publishPrefix {events : List EventEnvelope} {count : Nat} {largest : Option Int}
    (knows : ∀ envelope ∈ events, ledger.Knows envelope)
    (covered : ∀ version ∈ largest, ledger.Covers version) :
    (publishPrefix count largest events : LoopProgram F Empty (Nat × Option Int)).Obeys loopDiscipline
      (fun left outcome => ledger.Extends left ∧ ∃ more last, outcome = .ok (count + more, last) ∧
        left.sent = ledger.sent ++ events.take more ∧ ∀ version ∈ last, left.Covers version) ledger := by
  induction events generalizing ledger count largest with
  | nil => exact ⟨.refl _, 0, _, rfl, (List.append_nil _).symm, covered⟩
  | cons envelope rest ih =>
    refine ⟨knows envelope List.mem_cons_self, fun answer => ?_⟩
    cases answer with
    | error message => exact ⟨.refl _, 0, _, rfl, (List.append_nil _).symm, covered⟩
    | ok streamId =>
      have more := ledger.extends_announced envelope (ledger.sent ++ [envelope])
      have knowsRest (other : EventEnvelope) (member : other ∈ rest) :=
        (knows other (List.mem_cons_of_mem _ member)).mono more
      have coversLargest (version : Int) (member : version ∈ maxVersion largest envelope) :
          LoopLedger.Covers { ledger with
            sent := ledger.sent ++ [envelope], announced := envelope :: ledger.announced } version := by
        unfold maxVersion at member
        cases read : envelope.graphVersion? with
        | none =>
          rw [read] at member
          exact (covered version member).mono more
        | some carried =>
          rw [read] at member
          obtain rfl := Option.some.inj member
          apply LoopLedger.Covers.max
          · cases largest with
            | none => exact .inl rfl
            | some before => exact (covered before rfl).mono more
          · exact .inr ⟨envelope, List.mem_cons_self, announces_of_graphVersion read⟩
      apply Program.Obeys.mono _ (ih knowsRest coversLargest)
      intro left outcome ended
      obtain ⟨further, length, last, returned, sent, covers⟩ := ended
      refine ⟨more.trans further, length + 1, last, ?_, ?_, covers⟩
      · rw [returned, Nat.add_assoc, Nat.add_comm 1]
      · rw [sent, List.take_succ_cons]
        exact List.append_assoc _ [envelope] _

/-- A cycle leaves a memory that fits, whatever fails in it. -/
theorem obeys_cycle {memory : LoopMemory} (fits : memory.Fits ledger) :
    (cycle memory : LoopProgram F Empty LoopMemory).Obeys loopDiscipline
      (fun left outcome => ∃ after, outcome = .ok after ∧ after.Fits left) ledger := by
  unfold cycle
  apply Program.Obeys.bind
  apply Program.Obeys.mono _ (obeys_replay memory.lastPublishedGraphVersion)
  intro replayed outcome ended
  obtain ⟨sameSent, grown, last, rfl, lastIs⟩ := ended
  have covered : replayed.Covers last := by
    rcases lastIs with rfl | covers
    · exact fits.last.mono grown
    · exact covers
  apply Program.Obeys.bind
  apply Program.Obeys.outcome
  apply Program.Obeys.mono _ (obeys_runRebuildCycle memory.publishedEvents)
  intro rebuilt result ended
  obtain ⟨sentStill, grownAgain, pushed⟩ := ended
  dsimp only
  generalize eventsIs : bufferAfter memory.publishedEvents result = events
  have grows : ∃ new, events = memory.publishedEvents ++ new ∧ ∀ envelope ∈ new, rebuilt.Knows envelope := by
    cases result with
    | error error => exact ⟨[], by rw [← eventsIs, bufferAfter, List.append_nil], nofun⟩
    | ok result => exact pushed _ _ (by rw [← eventsIs, bufferAfter])
  obtain ⟨new, rfl, knowsNew⟩ := grows
  have knowsAll (envelope : EventEnvelope) (member : envelope ∈ memory.publishedEvents ++ new) :
      rebuilt.Knows envelope := by
    rcases List.mem_append.mp member with old | fresh
    · exact (fits.known envelope old).mono (grown.trans grownAgain)
    · exact knowsNew envelope fresh
  have nothing (version : Int) (member : version ∈ (none : Option Int)) : rebuilt.Covers version :=
    absurd member (Option.not_mem_none _)
  apply Program.Obeys.bind
  unfold drainPublishedEvents
  apply Program.Obeys.bind
  apply Program.Obeys.mono _ (obeys_publishPrefix knowsAll nothing)
  intro left outcome ended
  obtain ⟨further, count, largest, rfl, sentNow, covers⟩ := ended
  rw [Nat.zero_add]
  refine ⟨_, rfl, ?_, ?_, ?_⟩
  · rw [sentNow, sentStill, sameSent, List.append_assoc, List.take_append_drop, fits.buffered,
      List.drop_left, List.append_assoc]
  · intro envelope member
    exact (knowsAll envelope (List.mem_of_mem_drop member)).mono further
  · have coveredStill := covered.mono (grownAgain.trans further)
    cases largest with
    | none => exact coveredStill
    | some version => exact coveredStill.max (covers version rfl)

/-! ### Postgres and the stream -/

/-- Postgres has a version, the largest that it has reached, and no envelope announces a
version that Postgres had not reached when it was published. -/
structure LoopWorld.Sound (world : LoopWorld) : Prop where
  found : ∃ state, world.database.graphState = some state ∧ state.graphVersion ≤ maxBigint
  range : ∀ version ∈ world.reached, 0 ≤ version ∧ version ≤ currentGraphVersion world.database
  current : currentGraphVersion world.database ∈ world.reached
  announced : ∀ entry ∈ world.stream, ∃ version ∈ world.reached,
    entry.1.Announces version ∧ version ≤ entry.2

/-- The ledger tells the truth about the world. -/
structure LoopLedger.Tells (ledger : LoopLedger) (world : LoopWorld) : Prop where
  sound : world.Sound
  known : ledger.known ⊆ world.reached
  sent : ledger.sent = world.sent
  announced : ∀ envelope ∈ ledger.announced, ∃ entry ∈ world.stream, entry.1 = envelope

variable {services : RebuildServices F} {weather : Nat → LoopWeather F} {calls : Nat} {world : LoopWorld}

/-- Which version Postgres has after a transaction, if it was committed. -/
def Advances (before : Database) : Except DbError Int × Database → Prop
  | (.ok version, after) => version = currentGraphVersion before + 1 ∧ version ≤ maxBigint ∧
      after.graphState.map GraphStateRow.graphVersion = some version
  | (.error _, after) => after = before

theorem advances_replace (blake3 : Blake3) (refused : Refused) (mutation : LiveGraphSnapshotMutation)
    (database : Database) :
    Advances database (replaceSnapshotAndBumpVersion blake3 refused mutation database) := by
  rcases replaceSnapshotAndBumpVersion_spec blake3 refused mutation database with
    ⟨storable, version, after, committed, replaced⟩ | ⟨-, error, rolledBack⟩
  · rw [committed]
    obtain ⟨state, found, room, -⟩ := storable.version
    obtain ⟨same, before, rfl, now⟩ := replaced.graphState
    obtain rfl := Option.some.inj (found.symm.trans before)
    exact ⟨by rw [currentGraphVersion, found]; rfl, room, by rw [now]; rfl⟩
  · rw [rolledBack]
    exact rfl

theorem advances_bump (refused : Refused) (database : Database) :
    Advances database (bumpGraphVersion refused database) := by
  unfold bumpGraphVersion transaction
  cases ran : advanceReturning refused none database with
  | error error left => exact rfl
  | ok version after =>
    obtain ⟨-, advanced⟩ := advanceReturning_eq_ok.mp ran
    obtain ⟨state, found, room, rfl, tables⟩ := advanceGraphVersion_eq_ok.mp advanced
    refine ⟨by rw [currentGraphVersion, found]; rfl, room, ?_⟩
    rw [tables]
    rfl

theorem LoopWorld.Sound.commit (sound : world.Sound) {version : Int} {after : Database}
    (advances : Advances world.database (.ok version, after)) : (world.commit after version).Sound := by
  obtain ⟨rfl, room, now⟩ := advances
  obtain ⟨state, stored, same⟩ := Option.map_eq_some_iff.mp now
  have current : currentGraphVersion after = currentGraphVersion world.database + 1 := by
    rw [currentGraphVersion, now, Option.getD_some]
  have positive := (sound.range _ sound.current).1
  refine ⟨⟨state, stored, same ▸ room⟩, ?_, ?_, ?_⟩
  · intro version member
    change 0 ≤ version ∧ version ≤ currentGraphVersion after
    rw [current]
    rcases List.mem_append.mp member with old | new
    · have before := sound.range version old
      omega
    · obtain rfl := List.mem_singleton.mp new
      omega
  · change currentGraphVersion after ∈ _
    rw [current]
    exact List.mem_append_right _ (List.mem_singleton_self _)
  · intro entry member
    obtain ⟨version, reached, announces⟩ := sound.announced entry member
    exact ⟨version, List.mem_append_left _ reached, announces⟩

theorem LoopWorld.Sound.publish (sound : world.Sound) {envelope : EventEnvelope} {version : Int}
    (reached : version ∈ world.reached) (announces : envelope.Announces version) :
    (world.publish envelope).Sound := by
  refine ⟨sound.found, sound.range, sound.current, ?_⟩
  intro entry member
  rcases List.mem_append.mp member with old | new
  · exact sound.announced entry old
  · obtain rfl := List.mem_singleton.mp new
    exact ⟨version, reached, announces, (sound.range version reached).2⟩

/-- The answer to a transaction: an error or the new version, and the world keeps to the
ledger that has learned it. -/
theorem LoopLedger.Tells.committed {Result : Type} {result : Int → Result} {current : LoopWeather F}
    {committed : Except DbError Int × Database} (tells : ledger.Tells world)
    (advances : Advances world.database committed) :
    let served := current.committed services world result committed
    ledger.Tells served.2 ∧ ∀ answer, served.1 = .ok answer →
      ∃ version ∈ served.2.reached, answer = result version := by
  rcases committed with ⟨error | version, after⟩
  · obtain rfl : after = world.database := advances
    exact ⟨tells, nofun⟩
  · refine ⟨⟨tells.sound.commit advances, ?_, tells.sent, tells.announced⟩, ?_⟩
    · exact List.Subset.trans tells.known (List.subset_append_left _ _)
    · intro answer answered
      refine ⟨version, List.mem_append_right _ (List.mem_singleton_self _), ?_⟩
      simp only [LoopWeather.committed] at answered
      cases lost : current.afterCommit with
      | some error =>
        rw [lost] at answered
        cases answered
      | none =>
        rw [lost] at answered
        exact (Except.ok.inj answered).symm

theorem LoopLedger.Tells.learn (tells : ledger.Tells world) {version : Int}
    (reached : version ∈ world.reached) :
    LoopLedger.Tells { ledger with known := version :: ledger.known } world :=
  ⟨tells.sound, List.cons_subset.mpr ⟨reached, tells.known⟩, tells.sent, tells.announced⟩

/-- Every allowed call keeps the ledger true. -/
theorem tells_serve (ledger : LoopLedger) (calls : Nat) (request : LoopCall F) (world : LoopWorld)
    (tells : ledger.Tells world) (allowed : loopDiscipline.allows ledger request) :
    LoopLedger.Tells (loopDiscipline.after ledger request (serveLoop services weather calls request world).1)
      (serveLoop services weather calls request world).2 := by
  cases request with
  | currentGraphVersion =>
    obtain ⟨state, found, -⟩ := tells.sound.found
    have current := tells.sound.current
    rw [currentGraphVersion, found] at current
    cases refused : (weather calls).readRefused with
    | some message => simpa [serveLoop, refused, found, loopDiscipline, LoopLedger.after] using tells
    | none =>
      simpa [serveLoop, refused, found, loopDiscipline, LoopLedger.after] using tells.learn current
  | publish envelope buffered =>
    obtain ⟨version, known, announces⟩ := allowed
    have arrived := tells.sound.publish (tells.known known) announces
    have appended (other : EventEnvelope) (member : other ∈ ledger.announced) :
        ∃ entry ∈ (world.publish envelope).stream, entry.1 = other := by
      obtain ⟨entry, inStream, same⟩ := tells.announced other member
      exact ⟨entry, List.mem_append_left _ inStream, same⟩
    cases published : (weather calls).publish with
    | error message =>
      have sent : LoopLedger.Tells ledger (world.publish envelope) :=
        ⟨arrived, tells.known, tells.sent, appended⟩
      cases arrives : (weather calls).arrives with
      | false => simpa [serveLoop, published, arrives, loopDiscipline, LoopLedger.after] using tells
      | true => simpa [serveLoop, published, arrives, loopDiscipline, LoopLedger.after] using sent
    | ok streamId =>
      simp only [serveLoop, published, loopDiscipline, LoopLedger.after]
      refine ⟨⟨arrived.found, arrived.range, arrived.current, arrived.announced⟩, tells.known, ?_, ?_⟩
      · simp only [LoopWorld.record, LoopWorld.publish, tells.sent]
      · intro other member
        rcases List.mem_cons.mp member with rfl | old
        · exact ⟨_, List.mem_append_right _ (List.mem_singleton_self _), rfl⟩
        · exact appended other old
  | persistGraphMutation mutation =>
    have advances := advances_replace services.blake3 (weather calls).refused mutation.live world.database
    exact (tells.committed advances).1
  | bumpGraphVersion =>
    have advances := advances_bump (weather calls).refused world.database
    obtain ⟨still, learned⟩ : _ ∧ _ := tells.committed advances
    change LoopLedger.Tells (ledger.after (F := F) .bumpGraphVersion
      ((weather calls).committed services world id _).1) ((weather calls).committed services world id _).2
    generalize (weather calls).committed services world id
      (bumpGraphVersion (weather calls).refused world.database) = served at still learned ⊢
    obtain ⟨error | version, after⟩ := served
    · exact still
    · obtain ⟨version, reached, rfl⟩ := learned _ rfl
      exact still.learn reached
  | _ => exact tells

theorem stream_serve (calls : Nat) (request : LoopCall F) (world : LoopWorld) :
    world.stream <+: (serveLoop services weather calls request world).2.stream := by
  cases request with
  | currentGraphVersion =>
    simp only [serveLoop]
    split <;> exact List.prefix_rfl
  | publish envelope buffered =>
    simp only [serveLoop]
    split
    · split
      · exact List.prefix_append _ _
      · exact List.prefix_rfl
    · exact List.prefix_append _ _
  | persistGraphMutation mutation =>
    simp only [serveLoop]
    rcases replaceSnapshotAndBumpVersion _ _ _ _ with ⟨error | version, after⟩ <;> exact List.prefix_rfl
  | bumpGraphVersion =>
    simp only [serveLoop]
    rcases bumpGraphVersion _ _ with ⟨error | version, after⟩ <;> exact List.prefix_rfl
  | _ => exact List.prefix_rfl

theorem stream_advance {program : LoopProgram F Err Result} {steps : Nat} :
    world.stream <+: (program.advance (serveLoop services weather) steps calls world).2.stream := by
  induction steps generalizing program calls world with
  | zero => cases program <;> exact List.prefix_rfl
  | succ steps ih =>
    cases program with
    | done result => exact List.prefix_rfl
    | fail error => exact List.prefix_rfl
    | call request next => exact (stream_serve calls request world).trans ih

/-! ### Runs -/

/-- The process and what it works on. -/
structure LoopProcess where
  memory : LoopMemory
  world : LoopWorld

variable (services) in
/-- A cycle that ends within some calls, or a restart after them. -/
inductive LoopStep (weather : Nat → LoopWeather F) (calls : Nat) (process : LoopProcess) : LoopProcess → Prop where
  | cycled {memory : LoopMemory} {world : LoopWorld}
      (ended : (cycle process.memory).advance (serveLoop services weather) calls 0 process.world =
        (.done memory, world)) : LoopStep weather calls process ⟨memory, world⟩
  | restarted {rest : LoopProgram F Empty LoopMemory} {world : LoopWorld}
      (reached : (cycle process.memory).advance (serveLoop services weather) calls 0 process.world =
        (rest, world)) : LoopStep weather calls process ⟨.fresh, { world with sent := [] }⟩

/-- Nothing is published, and Postgres has a version. -/
structure LoopProcess.New (process : LoopProcess) : Prop where
  memory : process.memory = .fresh
  stream : process.world.stream = []
  sent : process.world.sent = []
  version : ∃ state, process.world.database.graphState = some state ∧ 0 ≤ state.graphVersion ∧
    state.graphVersion ≤ maxBigint ∧ process.world.reached = [state.graphVersion]

variable (services) in
/-- Cycles and restarts in any order, whatever fails in each. -/
def loopRuns : Transitions LoopProcess where
  initial := LoopProcess.New
  step before after := ∃ weather calls, LoopStep services weather calls before after

/-- What the process remembers is true of the world. -/
def LoopProcess.Sound (process : LoopProcess) : Prop :=
  ∃ ledger : LoopLedger, process.memory.Fits ledger ∧ ledger.Tells process.world

variable {process after later : LoopProcess}

theorem sound_fresh (sound : world.Sound) : LoopProcess.Sound ⟨.fresh, { world with sent := [] }⟩ := by
  refine ⟨⟨[], [], []⟩, ⟨rfl, nofun, .inl rfl⟩, ?_⟩
  exact ⟨⟨sound.found, sound.range, sound.current, sound.announced⟩, List.nil_subset _, rfl, nofun⟩

theorem LoopStep.sound (step : LoopStep services weather calls process after) (sound : process.Sound) :
    after.Sound := by
  obtain ⟨ledger, fits, tells⟩ := sound
  have cut : ∃ left : LoopLedger,
      let reached := (cycle process.memory).advance (serveLoop services weather) calls 0 process.world
      left.Tells reached.2 ∧ reached.1.Obeys loopDiscipline
        (fun left outcome => ∃ after, outcome = .ok after ∧ after.Fits left) left :=
    (obeys_cycle fits).advance tells_serve tells
  obtain ⟨left, still, obeys⟩ := cut
  cases step with
  | cycled ended =>
    rw [ended] at still obeys
    obtain ⟨memory, same, fitsStill⟩ := obeys
    cases same
    exact ⟨left, fitsStill, still⟩
  | restarted reached =>
    rw [reached] at still
    exact sound_fresh still.sound

theorem sound_reachable (reached : (loopRuns services).Reachable process) : process.Sound := by
  apply reached.invariant
  · intro process new
    obtain ⟨state, stored, low, high, versions⟩ := new.version
    have current : currentGraphVersion process.world.database = state.graphVersion := by
      rw [currentGraphVersion, stored]
      rfl
    have sound : process.world.Sound := by
      refine ⟨⟨state, stored, high⟩, ?_, ?_, ?_⟩
      · intro version member
        rw [versions] at member
        obtain rfl := List.mem_singleton.mp member
        exact ⟨low, current.ge⟩
      · rw [current, versions]
        exact List.mem_singleton_self _
      · rw [new.stream]
        exact List.forall_mem_nil _
    have same : process = ⟨.fresh, { process.world with sent := [] }⟩ := by
      rw [← new.memory, ← new.sent]
    rw [same]
    exact sound_fresh sound
  · intro before after sound step
    obtain ⟨weather, calls, step⟩ := step
    exact step.sound sound

theorem LoopStep.stream (step : LoopStep services weather calls process after) :
    process.world.stream <+: after.world.stream := by
  have grown : process.world.stream <+:
      ((cycle process.memory).advance (serveLoop services weather) calls 0 process.world).2.stream :=
    stream_advance
  cases step with
  | cycled ended => rwa [ended] at grown
  | restarted reached => rwa [reached] at grown

theorem stream_run (run : Relation.ReflTransGen (loopRuns services).step process later) :
    process.world.stream <+: later.world.stream := by
  induction run with
  | refl => exact List.prefix_rfl
  | tail _ step ih =>
    obtain ⟨weather, calls, step⟩ := step
    exact ih.trans step.stream

/-- The version is read at the start of the cycle, and the publish that may follow succeeds. -/
def ReplaySucceeds (weather : Nat → LoopWeather F) : Prop :=
  (weather 0).readRefused = none ∧ ∃ streamId, (weather 4).publish = .ok streamId

/-- Some published version is at least the given one. -/
def LoopWorld.Announced (world : LoopWorld) (version : Int) : Prop :=
  ∃ entry ∈ world.stream, ∃ announced, version ≤ announced ∧ entry.1.graphVersion? = some announced

theorem LoopWorld.Announced.mono {other : LoopWorld} {version : Int} (announced : world.Announced version)
    (grown : world.stream <+: other.stream) : other.Announced version := by
  obtain ⟨entry, member, found⟩ := announced
  exact ⟨entry, grown.subset member, found⟩

/-- Once the replay at the start of a cycle had its chance, every version is announced. -/
theorem announced_replay (sound : process.Sound) (succeeds : ReplaySucceeds weather) {version : Int}
    (member : version ∈ process.world.reached) (positive : 0 < version) (steps : Nat) :
    ((cycle process.memory).advance (serveLoop services weather) (steps + 5) 0 process.world).2.Announced
      version := by
  obtain ⟨ledger, fits, tells⟩ := sound
  obtain ⟨read, streamId, published⟩ := succeeds
  obtain ⟨state, stored, high⟩ := tells.sound.found
  have current : currentGraphVersion process.world.database = state.graphVersion := by
    rw [currentGraphVersion, stored]
    rfl
  have below := (tells.sound.range version member).2
  rw [current] at below
  have answered : serveLoop services weather 0 .currentGraphVersion process.world =
      (.ok state.graphVersion, process.world) := by
    simp only [serveLoop, read, stored]
  simp only [cycle, maybeReplayGraphRebuilt, Program.ask_bind, Program.bind_call, Program.advance, answered]
  by_cases seen : state.graphVersion ≤ process.memory.lastPublishedGraphVersion
  · rcases fits.last with fresh | ⟨envelope, inLedger, announces⟩
    · omega
    obtain ⟨entry, inStream, rfl⟩ := tells.announced envelope inLedger
    have now : process.world.Announced version := by
      obtain ⟨known, reached, also, -⟩ := tells.sound.announced entry inStream
      obtain rfl := announces.unique also
      have range := tells.sound.range _ reached
      rw [current] at range
      exact ⟨entry, inStream, _, below.trans seen, announces.graphVersion range.1 (range.2.trans high)⟩
    exact now.mono stream_advance
  · rw [if_neg seen]
    simp only [EventEnvelope.new, Program.ask_bind, Program.bind_call, Program.advance, serveLoop,
      Program.pure_eq, Program.bind_done, Nat.zero_add, published]
    have now (envelope : EventEnvelope) (announces : envelope.Announces state.graphVersion) :
        ((process.world.publish envelope).record envelope false).Announced version := by
      have low := (tells.sound.range version member).1
      refine ⟨_, List.mem_append_right _ (List.mem_singleton_self _), state.graphVersion, below, ?_⟩
      exact announces.graphVersion (low.trans below) high
    apply LoopWorld.Announced.mono _ stream_advance
    apply now
    exact ⟨rfl, rfl⟩

/-- In every run, over any failures and restarts: no envelope carries a version that Postgres
had not reached when it was published; what a process has pushed and not yet published is
what it buffers, in the order of the pushes; and when a cycle can read the version and publish
at its start, every version reached before is announced from then on. -/
theorem announced_runs (reached : (loopRuns services).Reachable process) :
    (∀ entry ∈ process.world.stream, ∃ version ∈ process.world.reached,
      entry.1.graphVersion? = some version ∧ version ≤ entry.2) ∧
    process.memory.pushed = process.world.sent ++ process.memory.publishedEvents ∧
    ∀ (weather : Nat → LoopWeather F) (calls : Nat) (after later : LoopProcess), ReplaySucceeds weather →
      5 ≤ calls → LoopStep services weather calls process after →
      Relation.ReflTransGen (loopRuns services).step after later →
      ∀ version ∈ process.world.reached, 0 < version → later.world.Announced version := by
  have sound := sound_reachable reached
  obtain ⟨ledger, fits, tells⟩ := sound_reachable reached
  refine ⟨?_, ?_, ?_⟩
  · intro entry member
    obtain ⟨version, known, announces, before⟩ := tells.sound.announced entry member
    obtain ⟨state, stored, high⟩ := tells.sound.found
    have range := tells.sound.range version known
    rw [currentGraphVersion, stored] at range
    exact ⟨version, known, announces.graphVersion range.1 (range.2.trans high), before⟩
  · rw [← tells.sent, fits.buffered]
  · intro weather calls after later succeeds enough step run version member positive
    obtain ⟨more, rfl⟩ := Nat.exists_eq_add_of_le' enough
    have replayed : ((cycle process.memory).advance (serveLoop services weather) (more + 5) 0
        process.world).2.Announced version :=
      announced_replay sound succeeds member positive more
    apply LoopWorld.Announced.mono _ (stream_run run)
    cases step with
    | cycled ended => rwa [ended] at replayed
    | restarted cut =>
      rw [cut] at replayed
      exact replayed

/-! ### A publish that fails before a restart -/

/-- Every call succeeds, and there is always something to rebuild. -/
def fairWeather : LoopWeather Rat where
  readRefused := none
  publish := .ok "1-0"
  arrives := true
  id := sampleCorrelation
  now := 1
  changes := .ok true
  graph := .ok ⟨1, [], []⟩
  refused _ := none
  afterCommit := none
  drained := .ok ()

/-- Redis takes nothing. -/
def mutedWeather : LoopWeather Rat :=
  { fairWeather with publish := .error "redis unavailable", arrives := false }

def firstLoop : LoopProcess := ⟨.fresh, ⟨freshDatabase, [], [0], []⟩⟩

theorem firstLoop_new : firstLoop.New := ⟨rfl, rfl, rfl, ⟨0, none⟩, rfl, by decide, by decide, rfl⟩

/-- The first cycle pushes its envelope and cannot publish it. -/
theorem muted_cycle : ∃ process, LoopStep smallServices (fun _ => mutedWeather) 20 firstLoop process ∧
    process.memory.pushed ≠ [] ∧ process.world.stream = [] ∧ process.world.reached = [0, 1, 2] := by
  have facts : (match (cycle LoopMemory.fresh).advance (serveLoop smallServices fun _ => mutedWeather) 20 0
      firstLoop.world with
    | (.done memory, world) =>
      decide (memory.pushed.isEmpty = false ∧ world.stream.isEmpty = true ∧ world.reached = [0, 1, 2])
    | _ => false) = true := by decide +kernel
  split at facts
  · rename_i memory world ended
    obtain ⟨pushed, stream, reached⟩ := of_decide_eq_true facts
    refine ⟨⟨memory, world⟩, .cycled ended, ?_, List.isEmpty_iff.mp stream, reached⟩
    intro none
    rw [show memory.pushed = [] from none] at pushed
    cases pushed
  · cases facts

/-- An envelope that was pushed and not published is in no buffer after a restart. -/
theorem buffer_lost : ∃ (process after : LoopProcess) (envelope : EventEnvelope),
    (loopRuns smallServices).Reachable process ∧ (loopRuns smallServices).step process after ∧
    envelope ∈ process.memory.pushed ∧ (∀ entry ∈ after.world.stream, entry.1 ≠ envelope) ∧
    envelope ∉ after.memory.publishedEvents := by
  obtain ⟨process, step, pushed, stream, -⟩ := muted_cycle
  obtain ⟨envelope, member⟩ := List.exists_mem_of_ne_nil _ pushed
  refine ⟨process, _, envelope, (Transitions.Reachable.start firstLoop_new).next ⟨_, _, step⟩,
    ⟨fun _ => mutedWeather, 0, .restarted rfl⟩, member, ?_, List.not_mem_nil⟩
  change ∀ entry ∈ process.world.stream, _
  rw [stream]
  exact nofun

/-- The next cycle with a successful replay announces what the muted one has committed. -/
theorem announced_runs_muted : ∃ process after,
    (loopRuns smallServices).Reachable process ∧ LoopStep smallServices (fun _ => fairWeather) 5 process after ∧
    process.memory.pushed = process.world.sent ++ process.memory.publishedEvents ∧
    after.world.Announced 2 := by
  obtain ⟨process, step, pushed, stream, versions⟩ := muted_cycle
  have reached : (loopRuns smallServices).Reachable process :=
    (Transitions.Reachable.start firstLoop_new).next ⟨_, _, step⟩
  obtain ⟨-, buffered, announced⟩ := announced_runs reached
  refine ⟨process, _, reached, .restarted rfl, buffered, ?_⟩
  apply announced (fun _ => fairWeather) 5 _ _ ⟨rfl, "1-0", rfl⟩ (le_refl _) (.restarted rfl) .refl
  · rw [versions]
    decide
  · decide

end SkillLayer.GraphBuilder
