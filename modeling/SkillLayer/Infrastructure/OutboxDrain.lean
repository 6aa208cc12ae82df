import SkillLayer.Infrastructure.OutboxSafety

/-! What the drain of a correlation has done to every event when it succeeds. -/

namespace SkillLayer.Infrastructure

variable {F : Type} (format : VectorFormat F) (blake3 : Blake3)

/-- How the calls of a drain are answered: the store answers each attempt on an event by a
pattern of refusals, and everything else is arbitrary at each call. -/
structure DrainWeather where
  weather : Nat → Weather
  refuses : Uuid → Nat → Option Str

def Outbox.attemptsOf (outbox : Outbox) (eventId : Uuid) : Nat :=
  ((outbox.progress eventId).map Progress.attempts).getD 0

def serveDrain (answers : DrainWeather) (calls : Nat) (request : OutboxCall F) (world : OutboxWorld F) :
    OutboxAnswer F request × OutboxWorld F :=
  match request with
  | .upsertVector eventId pointId vector payload =>
    serveOutbox
      { answers.weather calls with
        storeRefused := answers.refuses eventId (world.outbox.attemptsOf eventId) }
      (.upsertVector eventId pointId vector payload) world
  | request => serveOutbox (answers.weather calls) request world

/-- The given attempt on the event of a record succeeds: it is a well-formed vector upsert
and the store accepts it then. -/
def Delivers (answers : DrainWeather) (record : OutboxRecord) (attempt : Nat) : Bool :=
  (upsertOf format record).isOk && (answers.refuses record.event.eventId attempt).isNone

namespace Outbox

def events (outbox : Outbox) : List OutboxEvent := outbox.rows.map fun row => row.event

variable {outbox : Outbox}

theorem events_modify {selects : OutboxRow → Bool} {change : OutboxRow → OutboxRow}
    (keepsEvent : ∀ row, (change row).event = row.event) :
    (outbox.modify selects change keepsEvent).events = outbox.events := by
  rw [events, events, rows_modify, List.map_map]
  refine List.map_congr_left fun row _ => ?_
  rw [Function.comp_apply]
  split
  · exact keepsEvent row
  · rfl

theorem events_claim (order : HashOrder OutboxRow) (now : Timestamp) (correlationId : Option Uuid)
    (limit : Int) : (outbox.claim order now correlationId limit).2.events = outbox.events :=
  events_modify fun _ => by rfl

theorem events_setPublished (eventId : Uuid) (streamId : Str) :
    (outbox.setPublished eventId streamId).events = outbox.events :=
  events_modify fun _ => by rfl

theorem events_setFailed (eventId : Uuid) (errorMessage : Str) (availableAt : Timestamp) :
    (outbox.setFailed eventId errorMessage availableAt).events = outbox.events :=
  events_modify fun _ => by rfl

theorem exists_of_events {other : Outbox} (same : outbox.events = other.events) {row : OutboxRow}
    (member : row ∈ outbox.rows) : ∃ found ∈ other.rows, found.event = row.event := by
  have inEvents : row.event ∈ other.events := same ▸ List.mem_map_of_mem member
  obtain ⟨found, inRows, equal⟩ := List.mem_map.mp inEvents
  exact ⟨found, inRows, equal⟩

end Outbox

variable {format blake3} {answers : DrainWeather} {calls later : Nat} {world after : OutboxWorld F}
  {eventId : Uuid}

/-! ### One record -/

theorem transitionError_fails {expected : Str} {result : Unit} :
    (transitionError eventId expected).run (serveDrain answers) calls world ≠
      ⟨.ok result, later, after⟩ := by
  intro ran
  obtain ⟨answer, _, _, -, fetching⟩ := Program.run_bind_eq_ok.mp ran
  obtain ⟨status, _, _, -, failing⟩ := Program.run_bind_eq_ok.mp fetching
  cases status with
  | none => cases failing
  | some status => cases failing

/-- A mark succeeds only when its statement changed one row. -/
theorem run_requireOne {answer : Except SqlError Nat} {result : Unit}
    (ran : (requireOne eventId answer).run (serveDrain answers) calls world = ⟨.ok result, later, after⟩) :
    answer = .ok 1 ∧ after = world := by
  cases answer with
  | error error => cases ran
  | ok rowsAffected =>
    simp only [requireOne, fetched, Except.mapError, Program.ofExcept_ok, Program.bind_done] at ran
    by_cases one : rowsAffected = 1
    · rw [if_pos one] at ran
      cases ran
      exact ⟨congrArg _ one, rfl⟩
    · rw [if_neg one] at ran
      exact absurd ran transitionError_fails

/-- The event of a record was in processing and has been settled, and nothing else moved. -/
structure Settled (record : OutboxRecord) (finished : Bool) (before after : Outbox) : Prop where
  events : after.events = before.events
  progress : ∃ item, before.progress record.event.eventId = some item ∧ item.standing = .processing ∧
    after.progress = Function.update before.progress record.event.eventId
      (some (if finished then item.finish else item.fail maxOutboxRetries))

theorem run_markPublished {record : OutboxRecord} {pointId : Nat} {published : Bool}
    (ran : (OutboxRelay.markPublished record pointId).run (serveDrain answers) calls world =
      ⟨.ok published, later, after⟩) :
    published = true ∧ Settled record true world.outbox after.outbox := by
  obtain ⟨_, between, left, marked, returned⟩ := Program.run_bind_eq_ok.mp ran
  cases returned
  rw [Program.run_mapError_eq_ok, markOutboxPublished, streamIdOf_not_blank] at marked
  simp only [Bool.false_eq_true, if_false, Program.ask_bind, Program.run_call] at marked
  obtain ⟨one, rfl⟩ := run_requireOne marked
  refine ⟨rfl, ?_⟩
  simp only [serveDrain, serveOutbox, Weather.sql] at one ⊢
  cases refused : (answers.weather calls).refused with
  | some message =>
    rw [refused] at one
    cases one
  | none =>
    rw [refused] at one
    obtain ⟨item, here, processing⟩ := Outbox.affected_eq_one_iff.mp (Except.ok.inj one)
    refine ⟨Outbox.events_setPublished _ _, item, here, processing, ?_⟩
    exact Outbox.progress_setPublished (streamIdOf pointId) here processing

theorem run_markFailed {relay : OutboxRelay} {record : OutboxRecord} {message : Str} {published : Bool}
    (ran : (relay.markFailed record message).run (serveDrain answers) calls world =
      ⟨.ok published, later, after⟩) :
    published = false ∧ Settled record false world.outbox after.outbox := by
  obtain ⟨_, between, left, marked, returned⟩ := Program.run_bind_eq_ok.mp ran
  cases returned
  rw [Program.run_mapError_eq_ok, markOutboxFailed] at marked
  split at marked
  · cases marked
  · split at marked
    · cases marked
    · simp only [Program.ask_bind, Program.run_call] at marked
      obtain ⟨one, rfl⟩ := run_requireOne marked
      refine ⟨rfl, ?_⟩
      simp only [serveDrain, serveOutbox, Weather.sql] at one ⊢
      cases refused : (answers.weather (calls + 1)).refused with
      | some message =>
        rw [refused] at one
        cases one
      | none =>
        rw [refused] at one
        obtain ⟨item, here, processing⟩ := Outbox.affected_eq_one_iff.mp (Except.ok.inj one)
        refine ⟨Outbox.events_setFailed _ _ _, item, here, processing, ?_⟩
        exact Outbox.progress_setFailed message _ here processing

/-- A record that is processed is finished exactly when this attempt delivers. -/
theorem run_processRecord {relay : OutboxRelay} {record : OutboxRecord} {published : Bool}
    (ran : (relay.processRecord format blake3 record).run (serveDrain answers) calls world =
      ⟨.ok published, later, after⟩) :
    Settled record (Delivers format answers record (world.outbox.attemptsOf record.event.eventId))
      world.outbox after.outbox := by
  unfold OutboxRelay.processRecord at ran
  cases asked : upsertOf format record with
  | error message =>
    rw [asked] at ran
    have fails : Delivers format answers record (world.outbox.attemptsOf record.event.eventId) = false := by
      rw [Delivers, asked]
      rfl
    rw [fails]
    exact (run_markFailed ran).2
  | ok upsert =>
    rw [asked] at ran
    simp only [Program.ask_bind, Program.run_call, serveDrain, serveOutbox, Weather.store] at ran
    cases refused : answers.refuses record.event.eventId (world.outbox.attemptsOf record.event.eventId) with
    | some message =>
      rw [refused] at ran
      have fails : Delivers format answers record (world.outbox.attemptsOf record.event.eventId) = false := by
        rw [Delivers, refused, asked]
        rfl
      rw [fails]
      exact (run_markFailed ran).2
    | none =>
      rw [refused] at ran
      have succeeds : Delivers format answers record (world.outbox.attemptsOf record.event.eventId) = true := by
        rw [Delivers, refused, asked]
        rfl
      rw [succeeds]
      exact (run_markPublished ran).2

/-! ### One pass -/

/-- The records were in processing and have been settled one by one; nothing else moved. -/
structure AllSettled (format : VectorFormat F) (answers : DrainWeather) (records : List OutboxRecord)
    (before after : Outbox) : Prop where
  events : after.events = before.events
  settled : ∀ record ∈ records, ∃ item, before.progress record.event.eventId = some item ∧
    after.progress record.event.eventId = some
      (if Delivers format answers record item.attempts then item.finish else item.fail maxOutboxRetries)
  others : ∀ eventId, eventId ∉ records.map OutboxRecord.eventId →
    after.progress eventId = before.progress eventId

theorem run_processClaimedRecords {relay : OutboxRelay} {records : List OutboxRecord}
    {report : OutboxRelayRunReport} (distinct : (records.map OutboxRecord.eventId).Nodup)
    (ran : (relay.processClaimedRecords format blake3 records).run (serveDrain answers) calls world =
      ⟨.ok report, later, after⟩) :
    report.claimed = records.length ∧
      AllSettled format answers records world.outbox after.outbox := by
  induction records generalizing calls world report with
  | nil =>
    cases ran
    exact ⟨rfl, rfl, fun _ member => absurd member List.not_mem_nil, fun _ _ => rfl⟩
  | cons record rest ih =>
    rw [List.map_cons, List.nodup_cons] at distinct
    obtain ⟨published, middle, left, first, remaining⟩ := Program.run_bind_eq_ok.mp ran
    obtain ⟨restReport, _, _, others, returned⟩ := Program.run_bind_eq_ok.mp remaining
    cases returned
    obtain ⟨events, item, here, processing, moved⟩ := run_processRecord first
    obtain ⟨count, ⟨restEvents, settled, untouched⟩⟩ := ih distinct.2 others
    have attempts : world.outbox.attemptsOf record.event.eventId = item.attempts := by
      rw [Outbox.attemptsOf, here]
      rfl
    rw [attempts] at moved
    refine ⟨congrArg (· + 1) count, ⟨restEvents.trans events, ?_, ?_⟩⟩
    · intro other member
      rcases List.mem_cons.mp member with rfl | inRest
      · refine ⟨item, here, ?_⟩
        rw [untouched other.event.eventId distinct.1, moved, Function.update_self]
      · obtain ⟨found, before, last⟩ := settled other inRest
        have different : other.event.eventId ≠ record.event.eventId :=
          fun same => distinct.1 (List.mem_map.mpr ⟨other, inRest, same⟩)
        rw [moved, Function.update_of_ne different] at before
        exact ⟨found, before, last⟩
    · intro other outside
      rw [List.map_cons, List.mem_cons, not_or] at outside
      rw [untouched other outside.2, moved]
      exact Function.update_of_ne outside.1 _ _

/-- Every event is as it was, or it was pending and has had one attempt. -/
structure Passed (format : VectorFormat F) (answers : DrainWeather) (before after : Outbox) : Prop where
  events : after.events = before.events
  rows : ∀ row ∈ before.rows, after.progress row.eventId = some row.progress ∨
    row.progress.standing = .pending ∧ after.progress row.eventId =
      some (row.progress.attempt maxOutboxRetries (Delivers format answers row.toOutboxRecord))

theorem run_claimOutbox {correlationId : Option Uuid} {limit : Int} {records : List OutboxRecord}
    (ran : (claimOutbox correlationId limit).run (serveDrain answers) calls world =
      ⟨.ok records, later, after⟩) :
    ∃ order now, records = (world.outbox.claim order now correlationId limit).1 ∧
      after = world.withOutbox (world.outbox.claim order now correlationId limit).2 := by
  obtain ⟨_, _, _, valid, claiming⟩ := Program.run_bind_eq_ok.mp ran
  obtain ⟨-, rfl, rfl⟩ := Program.run_ofExcept_eq_ok.mp valid
  rw [Program.ask_bind, Program.run_call] at claiming
  obtain ⟨answer, rfl, rfl⟩ := Program.run_ofExcept_eq_ok.mp claiming
  simp only [serveDrain, serveOutbox, Weather.sql] at answer ⊢
  cases refused : (answers.weather calls).refused with
  | some message =>
    rw [refused] at answer
    cases answer
  | none =>
    rw [refused] at answer
    exact ⟨_, _, (Except.ok.inj answer).symm, rfl⟩

/-- A relay pass makes one attempt on each event that it claims. -/
theorem run_relay {relay : OutboxRelay} {correlationId : Option Uuid} {report : OutboxRelayRunReport}
    (ran : ((claimOutbox correlationId relay.claimLimit).mapError OutboxRelayError.coordinator >>=
      relay.processClaimedRecords format blake3).run (serveDrain answers) calls world =
        ⟨.ok report, later, after⟩) :
    Passed format answers world.outbox after.outbox := by
  obtain ⟨records, between, left, claiming, processing⟩ := Program.run_bind_eq_ok.mp ran
  obtain ⟨order, now, rfl, rfl⟩ := run_claimOutbox (Program.run_mapError_eq_ok.mp claiming)
  obtain ⟨distinct, known, -, -⟩ := Outbox.claim_spec world.outbox order now correlationId relay.claimLimit
  obtain ⟨-, ⟨events, settled, untouched⟩⟩ := run_processClaimedRecords distinct processing
  refine ⟨events.trans (Outbox.events_claim _ _ _ _), fun row member => ?_⟩
  have claimed : (world.outbox.claim order now correlationId relay.claimLimit).2.progress =
      claimKeys ((world.outbox.claim order now correlationId relay.claimLimit).1.map
        OutboxRecord.eventId) world.outbox.progress := Outbox.progress_claim _ _ _ _ _
  by_cases inside : row.eventId ∈ (world.outbox.claim order now correlationId relay.claimLimit).1.map
      OutboxRecord.eventId
  · obtain ⟨record, inRecords, same⟩ := List.mem_map.mp inside
    obtain ⟨source, inRows, rfl, may⟩ := known record inRecords
    obtain rfl := Outbox.same_row inRows member same
    obtain ⟨item, here, last⟩ := settled _ inRecords
    have standing : source.progress.standing = .pending := by
      rw [Outbox.claimable, Bool.and_eq_true, Bool.and_eq_true, decide_eq_true_iff] at may
      rw [OutboxRow.progress, may.1.1]
      rfl
    refine .inr ⟨standing, last.trans ?_⟩
    have before : (world.outbox.claim order now correlationId relay.claimLimit).2.progress source.eventId =
        some source.progress.claim := by
      rw [claimed, claimKeys, if_pos inside, Outbox.progress_of_mem inRows, Option.map_some]
    obtain rfl : item = source.progress.claim := Option.some.inj (here.symm.trans before)
    rfl
  · refine .inl ?_
    have before : (world.outbox.claim order now correlationId relay.claimLimit).2.progress row.eventId =
        some row.progress := by
      rw [claimed, claimKeys, if_neg inside, Outbox.progress_of_mem member]
    exact (untouched row.eventId inside).trans before

/-! ### The whole drain -/

/-- Every event of the start has had some attempts, each while it was pending. -/
structure Drained (format : VectorFormat F) (answers : DrainWeather) (start : Outbox)
    (world : OutboxWorld F) : Prop where
  events : world.outbox.events = start.events
  rows : ∀ row ∈ start.rows, ∃ item, world.outbox.progress row.eventId = some item ∧
    Progress.Attempted maxOutboxRetries (Delivers format answers row.toOutboxRecord) row.progress item

theorem Drained.start (world : OutboxWorld F) : Drained format answers world.outbox world :=
  ⟨rfl, fun row member => ⟨row.progress, Outbox.progress_of_mem member, .refl⟩⟩

theorem delivers_congr {record other : OutboxRecord} (same : record.event = other.event) :
    Delivers format answers record = Delivers format answers other := by
  funext attempt
  rw [Delivers, Delivers, upsertOf_congr same, same]

theorem Drained.pass {start : Outbox} (drained : Drained format answers start world)
    (passed : Passed format answers world.outbox after.outbox) : Drained format answers start after := by
  refine ⟨passed.events.trans drained.events, fun row member => ?_⟩
  obtain ⟨item, here, attempted⟩ := drained.rows row member
  obtain ⟨current, inRows, id, rfl⟩ := Outbox.progress_eq_some.mp here
  obtain ⟨found, inStart, event⟩ := Outbox.exists_of_events drained.events inRows
  obtain rfl := Outbox.same_row inStart member ((congrArg OutboxEvent.eventId event).trans id)
  rcases passed.rows current inRows with same | ⟨pending, moved⟩
  · exact ⟨_, id ▸ same, attempted⟩
  · refine ⟨_, id ▸ moved, attempted.tail ⟨pending, ?_⟩⟩
    rw [delivers_congr event]

/-- A round that goes on is a relay pass; the last round finds nothing pending. -/
theorem run_drainPass {relay : OutboxRelay} {correlationId : Uuid} {ended : Option Unit}
    (ran : (relay.drainPass format blake3 correlationId).run (serveDrain answers) calls world =
      ⟨.ok ended, later, after⟩) :
    (ended = none ∧ Passed format answers world.outbox after.outbox) ∨
      (ended = some () ∧ after = world ∧ world.outbox.hasPending correlationId = false) := by
  obtain ⟨pending, middle, left, asked, rest⟩ := Program.run_bind_eq_ok.mp ran
  rw [Program.run_mapError_eq_ok, hasPendingForCorrelation, Program.ask_bind, Program.run_call] at asked
  obtain ⟨answer, rfl, rfl⟩ := Program.run_ofExcept_eq_ok.mp asked
  have unchanged : (serveDrain answers calls (.hasPending correlationId) world).2 = world := by
    simp only [serveDrain, serveOutbox, Weather.sql]
    cases (answers.weather calls).refused <;> rfl
  rw [unchanged] at rest
  cases pending with
  | false =>
    cases rest
    refine .inr ⟨rfl, rfl, ?_⟩
    simp only [serveDrain, serveOutbox, Weather.sql] at answer
    cases refused : (answers.weather calls).refused with
    | some message =>
      rw [refused] at answer
      cases answer
    | none =>
      rw [refused] at answer
      exact Except.ok.inj answer
  | true =>
    obtain ⟨report, _, _, relayed, checked⟩ := Program.run_bind_eq_ok.mp rest
    have passed := run_relay relayed
    split at checked
    · cases checked
    · cases checked
      exact .inl ⟨rfl, passed⟩

/-- When a drain succeeds, every event of the start has been tried until it was settled. -/
theorem drained_of_ok {relay : OutboxRelay} {correlationId : Uuid} {passes : Nat}
    (ran : Program.runLoop (serveDrain answers) (relay.drainPass format blake3 correlationId) passes calls
      world = some ⟨.ok (), later, after⟩) :
    Drained format answers world.outbox after ∧ after.outbox.hasPending correlationId = false := by
  have kept (calls later : Nat) (before after : OutboxWorld F)
      (drained : Drained format answers world.outbox before)
      (pass : (relay.drainPass format blake3 correlationId).run (serveDrain answers) calls before =
        ⟨.ok none, later, after⟩) : Drained format answers world.outbox after := by
    rcases run_drainPass pass with ⟨-, passed⟩ | ⟨stops, -⟩
    · exact drained.pass passed
    · cases stops
  obtain ⟨start, left, drained, last⟩ := Program.runLoop_invariant kept (Drained.start world) ran
  rcases run_drainPass last with ⟨stops, -⟩ | ⟨-, rfl, none_⟩
  · cases stops
  · exact ⟨drained, none_⟩

def AllPublished (correlationId : Uuid) (outbox : Outbox) : Prop :=
  ∀ row ∈ outbox.rows, row.event.correlationId = correlationId → row.status = .published

variable (format answers) in
/-- Every event of the correlation is published, or it is pending and one of the attempts
that it still has delivers. -/
def AllDeliverable (correlationId : Uuid) (outbox : Outbox) : Prop :=
  ∀ row ∈ outbox.rows, row.event.correlationId = correlationId → row.status = .published ∨
    row.status = .pending ∧
      row.progress.Winnable maxOutboxRetries (Delivers format answers row.toOutboxRecord)

theorem OutboxStatus.standing_eq_done {status : OutboxStatus} :
    status.standing = .done ↔ status = .published := by
  cases status <;> simp [OutboxStatus.standing]

/-- An event that was tried until it was settled is published exactly when it was
published before or could be delivered. -/
theorem published_iff_deliverable {row current : OutboxRow}
    (attempted : Progress.Attempted maxOutboxRetries (Delivers format answers row.toOutboxRecord)
      row.progress current.progress)
    (settled : current.status = .published ∨ current.status = .failed) :
    current.status = .published ↔ row.status = .published ∨ row.status = .pending ∧
      row.progress.Winnable maxOutboxRetries (Delivers format answers row.toOutboxRecord) := by
  by_cases pending : row.status = .pending
  · have waits : row.progress.standing = .pending := by
      rw [OutboxRow.progress, pending]
      rfl
    have stops : current.progress.standing = .done ∨ current.progress.standing = .failed :=
      settled.imp OutboxStatus.standing_eq_done.mpr OutboxStatus.standing_eq_failed.mpr
    rw [← OutboxStatus.standing_eq_done]
    refine (attempted.done_iff waits stops).trans ?_
    simp [pending]
  · have same : current.progress = row.progress := by
      rcases attempted.cases_head with same | ⟨_, ⟨waits, -⟩, -⟩
      · exact same.symm
      · cases status : row.status with
        | pending => exact absurd status pending
        | _ =>
          rw [OutboxRow.progress, status] at waits
          cases waits
    have statuses : current.status.standing = row.status.standing := congrArg Progress.standing same
    rw [← OutboxStatus.standing_eq_done, statuses, OutboxStatus.standing_eq_done]
    simp [pending]

/-- A drain that succeeds leaves every event of its correlation published exactly when each
was published before or could still be delivered. -/
theorem drain_publishes_iff {relay : OutboxRelay} {correlationId : Uuid} {passes : Nat}
    (ran : Program.runLoop (serveDrain answers) (relay.drainPass format blake3 correlationId) passes calls
      world = some ⟨.ok (), later, after⟩) :
    AllPublished correlationId after.outbox ↔
      AllDeliverable format answers correlationId world.outbox := by
  obtain ⟨drained, none_⟩ := drained_of_ok ran
  have matched (row : OutboxRow) (member : row ∈ world.outbox.rows)
      (mine : row.event.correlationId = correlationId) :
      ∃ current ∈ after.outbox.rows, current.event = row.event ∧
        (current.status = .published ↔ row.status = .published ∨ row.status = .pending ∧
          row.progress.Winnable maxOutboxRetries (Delivers format answers row.toOutboxRecord)) := by
    obtain ⟨current, inRows, event⟩ := Outbox.exists_of_events drained.events.symm member
    obtain ⟨item, here, attempted⟩ := drained.rows row member
    have id : current.eventId = row.eventId := congrArg OutboxEvent.eventId event
    rw [← id, Outbox.progress_of_mem inRows] at here
    obtain rfl := Option.some.inj here
    refine ⟨current, inRows, event, published_iff_deliverable attempted ?_⟩
    exact Outbox.hasPending_eq_false none_ inRows (event ▸ mine)
  constructor
  · intro published row member mine
    obtain ⟨current, inRows, event, iff_⟩ := matched row member mine
    exact iff_.mp (published current inRows (event ▸ mine))
  · intro deliverable current inRows mine
    obtain ⟨row, member, event⟩ := Outbox.exists_of_events drained.events inRows
    obtain ⟨found, inAfter, event', iff_⟩ := matched row member (event ▸ mine)
    obtain rfl := Outbox.same_row inAfter inRows (congrArg OutboxEvent.eventId (event'.trans event))
    exact iff_.mpr (deliverable row member (event ▸ mine))

/-! Drains of one event that the store refuses once, and of one that it refuses always. -/

def refusing (refuses : Uuid → Nat → Option Str) : DrainWeather := ⟨fun _ => calm, refuses⟩

def refusedOnce : DrainWeather := refusing fun _ attempt => if attempt = 0 then some "timeout" else none

def refusedAlways : DrainWeather := refusing fun _ _ => some "Wrong input: Vector dimension error"

def drainAppended (answers : DrainWeather) : Option (Finished OutboxRelayError Unit (OutboxWorld Rat)) :=
  Program.runLoop (serveDrain answers)
    (sampleRelay.drainPass rationalFormat samplePointDigest sampleEvent.correlationId) 5 0 appendedWorld

theorem drainAppended_once : ∃ later after, drainAppended refusedOnce = some ⟨.ok (), later, after⟩ ∧
    (AllPublished sampleEvent.correlationId after.outbox ↔
      AllDeliverable rationalFormat refusedOnce sampleEvent.correlationId appendedWorld.outbox) := by
  have ran : (drainAppended refusedOnce).map (fun finished => finished.outcome.isOk) = some true := by
    decide +kernel
  obtain ⟨⟨error | result, later, after⟩, finished, ok⟩ := Option.map_eq_some_iff.mp ran
  · cases ok
  · exact ⟨later, after, finished, drain_publishes_iff finished⟩

theorem drainAppended_always : ¬ ∀ (answers : DrainWeather) (world after : OutboxWorld Rat)
    (correlationId : Uuid) (passes later : Nat),
    Program.runLoop (serveDrain answers)
      (sampleRelay.drainPass rationalFormat samplePointDigest correlationId) passes 0 world =
        some ⟨.ok (), later, after⟩ → AllPublished correlationId after.outbox := by
  intro always
  have ran : (drainAppended refusedAlways).map (fun finished =>
      (finished.outcome.isOk, finished.world.outbox.rows.map fun row =>
        (row.event.correlationId, row.status))) =
      some (true, [(sampleEvent.correlationId, .failed)]) := by
    decide +kernel
  obtain ⟨⟨error | result, later, after⟩, finished, facts⟩ := Option.map_eq_some_iff.mp ran
  · cases (Prod.mk.inj facts).1
  · obtain ⟨row, member, here⟩ := List.mem_map.mp
      ((Prod.mk.inj facts).2 ▸ List.mem_singleton_self (sampleEvent.correlationId, OutboxStatus.failed))
    obtain ⟨mine, failed⟩ := Prod.mk.inj here
    have published := always _ _ _ _ _ _ finished row member mine
    rw [failed] at published
    cases published

end SkillLayer.Infrastructure
