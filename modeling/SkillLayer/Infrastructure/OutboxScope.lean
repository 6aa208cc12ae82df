import SkillLayer.Infrastructure.OutboxDrain

/-! What the drain of a correlation looks at: the open events of the correlation. -/

namespace SkillLayer.Infrastructure

variable {F : Type} {format : VectorFormat F} {blake3 : Blake3} {answers : DrainWeather}
  {correlationId : Uuid} {eventIds : List Uuid} {calls : Nat} {world other : OutboxWorld F}

namespace Outbox

/-- The row is an event of the correlation that is not settled. -/
def opens (correlationId : Uuid) (row : OutboxRow) : Bool :=
  row.event.correlationId = correlationId && (row.status = .pending || row.status = .processing)

def openRows (correlationId : Uuid) (outbox : Outbox) : List OutboxRow :=
  outbox.rows.filter (opens correlationId)

variable {outbox : Outbox} {row : OutboxRow}

theorem mem_openRows : row ∈ outbox.openRows correlationId ↔
    row ∈ outbox.rows ∧ opens correlationId row = true := List.mem_filter

theorem hasPending_eq : outbox.hasPending correlationId = !(outbox.openRows correlationId).isEmpty := by
  rw [Bool.eq_iff_iff, Bool.not_eq_true', List.isEmpty_eq_false_iff, ← List.length_pos_iff,
    openRows, List.length_filter_pos_iff]
  exact List.any_eq_true

theorem opens_of_claimable {now : Timestamp} (may : claimable now (some correlationId) row = true) :
    opens correlationId row = true := by
  simp only [claimable, Bool.and_eq_true, decide_eq_true_eq, Option.all_some] at may
  simp [opens, may.1.1, may.2]

/-- A claim of the correlation looks at its open rows only. -/
theorem claimed_eq (order : HashOrder OutboxRow) (now : Timestamp) (limit : Int) :
    outbox.claimed order now (some correlationId) limit =
      ((order.arrange ((outbox.openRows correlationId).filter
        (claimable now (some correlationId)))).insertionSort
          fun left right => claimsFirst left right = true).take limit.toNat := by
  have same : outbox.rows.filter (claimable now (some correlationId)) =
      (outbox.openRows correlationId).filter (claimable now (some correlationId)) := by
    rw [openRows, List.filter_filter]
    refine List.filter_congr fun row _ => ?_
    rw [Bool.eq_iff_iff, Bool.and_eq_true]
    exact ⟨fun may => ⟨may, opens_of_claimable may⟩, And.left⟩
  rw [claimed, same]

/-- A change of open rows only shows in the open rows as the same change of these. -/
theorem openRows_modify {selects : OutboxRow → Bool} {change : OutboxRow → OutboxRow}
    {keepsEvent : ∀ row, (change row).event = row.event}
    (inside : ∀ row ∈ outbox.rows, selects row = true → opens correlationId row = true) :
    (outbox.modify selects change keepsEvent).openRows correlationId =
      ((outbox.openRows correlationId).map fun row => if selects row then change row else row).filter
        (opens correlationId) := by
  rw [openRows, openRows, rows_modify, List.filter_map, List.filter_map, List.filter_filter]
  refine congrArg _ (List.filter_congr fun row member => ?_)
  by_cases here : opens correlationId row = true
  · simp [here]
  · have unselected : ¬ selects row = true := fun chosen => here (inside row member chosen)
    simp [here, unselected]

end Outbox

/-- Two worlds with the same open events of a correlation, and the same rows for some events
of it. -/
structure SameOpen (correlationId : Uuid) (eventIds : List Uuid) (world other : OutboxWorld F) : Prop where
  rows : world.outbox.openRows correlationId = other.outbox.openRows correlationId
  known : ∀ eventId ∈ eventIds, ∃ row, world.outbox.find? eventId = some row ∧
    other.outbox.find? eventId = some row ∧ row.event.correlationId = correlationId

namespace SameOpen

theorem fewer (same : SameOpen correlationId eventIds world other) : SameOpen correlationId [] world other :=
  ⟨same.rows, fun _ member => absurd member List.not_mem_nil⟩

theorem affected (same : SameOpen correlationId eventIds world other) {eventId : Uuid}
    (member : eventId ∈ eventIds) : world.outbox.affected eventId = other.outbox.affected eventId := by
  obtain ⟨row, here, there, _⟩ := same.known eventId member
  rw [Outbox.affected_eq, Outbox.affected_eq, Outbox.progress, Outbox.progress, here, there]

theorem attemptsOf (same : SameOpen correlationId eventIds world other) {eventId : Uuid}
    (member : eventId ∈ eventIds) : world.outbox.attemptsOf eventId = other.outbox.attemptsOf eventId := by
  obtain ⟨row, here, there, _⟩ := same.known eventId member
  rw [Outbox.attemptsOf, Outbox.attemptsOf, Outbox.progress, Outbox.progress, here, there]

/-- The same change of open rows leaves two such worlds alike. -/
theorem modify (same : SameOpen correlationId eventIds world other) (selects : OutboxRow → Bool)
    (change : OutboxRow → OutboxRow) (keepsEvent : ∀ row, (change row).event = row.event)
    (here : ∀ row ∈ world.outbox.rows, selects row = true → Outbox.opens correlationId row = true)
    (there : ∀ row ∈ other.outbox.rows, selects row = true → Outbox.opens correlationId row = true)
    {after later : OutboxWorld F} (first : after.outbox = world.outbox.modify selects change keepsEvent)
    (second : later.outbox = other.outbox.modify selects change keepsEvent) :
    SameOpen correlationId eventIds after later where
  rows := by rw [first, second, Outbox.openRows_modify here, Outbox.openRows_modify there, same.rows]
  known := by
    intro eventId member
    obtain ⟨row, inWorld, inOther, mine⟩ := same.known eventId member
    refine ⟨if selects row then change row else row, ?_, ?_, ?_⟩
    · rw [first, Outbox.find?_modify, inWorld, Option.map_some]
    · rw [second, Outbox.find?_modify, inOther, Option.map_some]
    · split
      · rw [keepsEvent, mine]
      · exact mine

/-- The row of a known event that is in processing is open. -/
theorem opens_of_inProcessing {eventId : Uuid}
    (known : ∃ row, world.outbox.find? eventId = some row ∧ row.event.correlationId = correlationId)
    (row : OutboxRow) (member : row ∈ world.outbox.rows)
    (marked : Outbox.inProcessing eventId row = true) : Outbox.opens correlationId row = true := by
  obtain ⟨found, here, mine⟩ := known
  simp only [Outbox.inProcessing, Bool.and_eq_true, decide_eq_true_eq] at marked
  obtain ⟨inRows, id⟩ := Outbox.find?_eq_some.mp here
  obtain rfl := Outbox.same_row inRows member (id.trans marked.1.symm)
  simp [Outbox.opens, mine, marked.2]

/-- A call about a known event is answered alike, and leaves the worlds alike. -/
theorem call (same : SameOpen correlationId eventIds world other) (calls : Nat) (request : OutboxCall F)
    (concerns : request.Concerns eventIds) :
    (serveDrain answers calls request world).1 = (serveDrain answers calls request other).1 ∧
      SameOpen correlationId eventIds (serveDrain answers calls request world).2
        (serveDrain answers calls request other).2 := by
  have knownHere {eventId : Uuid} (member : eventId ∈ eventIds) :
      ∃ row, world.outbox.find? eventId = some row ∧ row.event.correlationId = correlationId := by
    obtain ⟨row, here, _, mine⟩ := same.known eventId member
    exact ⟨row, here, mine⟩
  have knownThere {eventId : Uuid} (member : eventId ∈ eventIds) :
      ∃ row, other.outbox.find? eventId = some row ∧ row.event.correlationId = correlationId := by
    obtain ⟨row, _, there, mine⟩ := same.known eventId member
    exact ⟨row, there, mine⟩
  cases request with
  | setPublished eventId streamId =>
    simp only [serveDrain, serveOutbox, Weather.sql, OutboxWorld.published, same.affected concerns]
    cases (answers.weather calls).refused with
    | some message => exact ⟨rfl, same⟩
    | none =>
      refine ⟨rfl, same.modify (Outbox.inProcessing eventId)
        (fun row => { row with status := .published, streamId := some streamId }) (fun _ => rfl) ?_ ?_ rfl rfl⟩
      · exact opens_of_inProcessing (knownHere concerns)
      · exact opens_of_inProcessing (knownThere concerns)
  | setFailed eventId errorMessage availableAt =>
    simp only [serveDrain, serveOutbox, Weather.sql, OutboxWorld.failed, same.affected concerns]
    cases (answers.weather calls).refused with
    | some message => exact ⟨rfl, same⟩
    | none =>
      refine ⟨rfl, same.modify (Outbox.inProcessing eventId) _ (fun _ => by rfl) ?_ ?_ rfl rfl⟩
      · exact opens_of_inProcessing (knownHere concerns)
      · exact opens_of_inProcessing (knownThere concerns)
  | statusOf eventId =>
    obtain ⟨row, here, there, _⟩ := same.known eventId concerns
    simp only [serveDrain, serveOutbox, Weather.sql, here, there]
    cases (answers.weather calls).refused with
    | some message => exact ⟨rfl, same⟩
    | none => exact ⟨rfl, same⟩
  | upsertVector eventId pointId vector payload =>
    simp only [serveDrain, serveOutbox, Weather.store, same.attemptsOf concerns]
    cases answers.refuses eventId (other.outbox.attemptsOf eventId) with
    | some message => exact ⟨rfl, same⟩
    | none => exact ⟨rfl, same.rows, same.known⟩
  | utcNow => exact ⟨rfl, same⟩
  | _ => cases concerns

/-- A claim of the correlation is answered alike, and leaves the worlds alike in the events
that it hands out. -/
theorem claim (same : SameOpen correlationId [] world other) (order : HashOrder OutboxRow) (now : Timestamp)
    (limit : Int) :
    let claimed := (world.outbox.claim order now (some correlationId) limit)
    let others := (other.outbox.claim order now (some correlationId) limit)
    claimed.1 = others.1 ∧ SameOpen correlationId (claimed.1.map fun record => record.event.eventId)
      (world.withOutbox claimed.2) (other.withOutbox others.2) := by
  have selected : world.outbox.claimed order now (some correlationId) limit =
      other.outbox.claimed order now (some correlationId) limit := by
    rw [Outbox.claimed_eq, Outbox.claimed_eq, same.rows]
  have open_ (row : OutboxRow) (member : row ∈ world.outbox.claimed order now (some correlationId) limit) :
      row ∈ world.outbox.openRows correlationId := by
    obtain ⟨inRows, may⟩ := Outbox.mem_claimed member
    exact Outbox.mem_openRows.mpr ⟨inRows, Outbox.opens_of_claimable may⟩
  have knows : SameOpen correlationId ((world.outbox.claimed order now (some correlationId) limit).map
      OutboxRow.eventId) world other := by
    refine ⟨same.rows, fun eventId member => ?_⟩
    obtain ⟨row, inClaimed, rfl⟩ := List.mem_map.mp member
    obtain ⟨inRows, opened⟩ := Outbox.mem_openRows.mp (open_ row inClaimed)
    have inOther := Outbox.mem_openRows.mp (same.rows ▸ open_ row inClaimed)
    simp only [Outbox.opens, Bool.and_eq_true, decide_eq_true_eq] at opened
    exact ⟨row, Outbox.find?_of_mem inRows, Outbox.find?_of_mem inOther.1, opened.1⟩
  obtain ⟨_, _, moved, permuted⟩ := Outbox.claim_spec world.outbox order now (some correlationId) limit
  refine ⟨by simp only [Outbox.claim, selected], ?_⟩
  have chosen {outbox : Outbox} (inside : ∀ row ∈ world.outbox.claimed order now (some correlationId) limit,
      row ∈ outbox.openRows correlationId) (row : OutboxRow) (member : row ∈ outbox.rows)
      (selects : decide (row.eventId ∈ (world.outbox.claimed order now (some correlationId) limit).map
        OutboxRow.eventId) = true) : Outbox.opens correlationId row = true := by
    obtain ⟨found, inClaimed, id⟩ := List.mem_map.mp (of_decide_eq_true selects)
    obtain ⟨inRows, opened⟩ := Outbox.mem_openRows.mp (inside found inClaimed)
    obtain rfl := Outbox.same_row inRows member id
    exact opened
  have marked : SameOpen correlationId ((world.outbox.claimed order now (some correlationId) limit).map
      OutboxRow.eventId) (world.withOutbox (world.outbox.claim order now (some correlationId) limit).2)
        (other.withOutbox (other.outbox.claim order now (some correlationId) limit).2) := by
    refine knows.modify (fun row => row.eventId ∈ (world.outbox.claimed order now (some correlationId)
      limit).map OutboxRow.eventId) (fun row => { row with status := .processing }) (fun _ => rfl)
        (chosen open_) (chosen fun row member => same.rows ▸ open_ row member) rfl ?_
    simp only [selected]
    rfl
  exact ⟨marked.rows, fun eventId member => marked.known eventId (permuted.mem_iff.mp member)⟩

end SameOpen

/-! ### Drains -/

def recordIds (records : List OutboxRecord) : List Uuid := records.map fun record => record.event.eventId

/-- The worlds are alike after a claim, also in the events that it handed out. -/
def SameHanded {Err : Type} (correlationId : Uuid) (outcome : Except Err (List OutboxRecord))
    (world other : OutboxWorld F) : Prop :=
  SameOpen correlationId [] world other ∧
    ∀ records, outcome = .ok records → SameOpen correlationId (recordIds records) world other

theorem claimOutbox_alike (same : SameOpen correlationId [] world other) (limit : Int) :
    ((claimOutbox (some correlationId) limit).run (serveDrain answers) calls world).Alike
      (SameHanded correlationId) ((claimOutbox (some correlationId) limit).run (serveDrain answers) calls
        other) := by
  unfold claimOutbox
  cases validateClaimLimit limit with
  | error error => exact ⟨rfl, rfl, same, fun _ impossible => by cases impossible⟩
  | ok valid =>
    simp only [Program.ofExcept_ok, Program.bind_done, Program.ask_bind, Program.run_call, serveDrain,
      serveOutbox, Weather.sql]
    cases (answers.weather calls).refused with
    | some message => exact ⟨rfl, rfl, same, fun _ impossible => by cases impossible⟩
    | none =>
      obtain ⟨records, alike⟩ := same.claim (answers.weather calls).order (answers.weather calls).now limit
      refine ⟨congrArg Except.ok records, rfl, alike.fewer, ?_⟩
      intro handed same
      cases same
      exact alike

theorem processClaimedRecords_alike (relay : OutboxRelay) {records : List OutboxRecord}
    (same : SameOpen correlationId (recordIds records) world other) :
    ((relay.processClaimedRecords format blake3 records).run (serveDrain answers) calls world).Alike
      (fun _ => SameOpen correlationId []) ((relay.processClaimedRecords format blake3 records).run
        (serveDrain answers) calls other) := by
  have concerns : (relay.processClaimedRecords format blake3 records).Calls
      (OutboxCall.Concerns (recordIds records)) :=
    concerns_processClaimedRecords relay fun record member =>
      List.mem_map_of_mem (f := fun record => record.event.eventId) member
  have passed : ((relay.processClaimedRecords format blake3 records).run (serveDrain answers) calls
      world).Alike (fun _ => SameOpen correlationId (recordIds records))
        ((relay.processClaimedRecords format blake3 records).run (serveDrain answers) calls other) :=
    concerns.run_alike _ (fun calls request _ _ alike about => alike.call calls request about) same
  exact ⟨passed.outcome, passed.calls, passed.world.fewer⟩

theorem relay_alike (relay : OutboxRelay) (same : SameOpen correlationId [] world other) :
    ((relay.relayOnceForCorrelation format blake3 correlationId).run (serveDrain answers) calls world).Alike
      (fun _ => SameOpen correlationId []) ((relay.relayOnceForCorrelation format blake3 correlationId).run
        (serveDrain answers) calls other) := by
  have claiming : (((claimPendingOutboxForCorrelation correlationId relay.claimLimit).mapError
      OutboxRelayError.coordinator).run (serveDrain answers) calls world).Alike (SameHanded correlationId)
        (((claimPendingOutboxForCorrelation correlationId relay.claimLimit).mapError
          OutboxRelayError.coordinator).run (serveDrain answers) calls other) := by
    refine Program.run_mapError_alike (claimOutbox_alike same relay.claimLimit) ?_
    intro outcome left right handed
    cases outcome with
    | error error => exact ⟨handed.1, nofun⟩
    | ok records =>
      refine ⟨handed.1, fun others same => ?_⟩
      cases same
      exact handed.2 records rfl
  refine Program.run_bind_alike claiming (fun _ _ _ handed => handed.1) ?_
  intro records calls left right handed
  exact processClaimedRecords_alike relay (handed.2 records rfl)

theorem hasPending_alike (same : SameOpen correlationId [] world other) :
    (((hasPendingForCorrelation correlationId).mapError OutboxRelayError.coordinator).run
      (serveDrain answers) calls world).Alike (fun _ => SameOpen correlationId [])
        (((hasPendingForCorrelation correlationId).mapError OutboxRelayError.coordinator).run
          (serveDrain answers) calls other) := by
  simp only [hasPendingForCorrelation, Program.ask_bind, Program.mapError_call, Program.run_call,
    serveDrain, serveOutbox, Weather.sql, Outbox.hasPending_eq, same.rows]
  cases (answers.weather calls).refused with
  | some message => exact ⟨rfl, rfl, same⟩
  | none => exact ⟨rfl, rfl, same⟩

/-- A pass ends alike on worlds with the same open events. -/
theorem drainPass_alike (relay : OutboxRelay) (calls : Nat) (world other : OutboxWorld F)
    (same : SameOpen correlationId [] world other) :
    ((relay.drainPass format blake3 correlationId).run (serveDrain answers) calls world).Alike
      (fun _ => SameOpen correlationId []) ((relay.drainPass format blake3 correlationId).run
        (serveDrain answers) calls other) := by
  refine Program.run_bind_alike (hasPending_alike same) (fun _ _ _ alike => alike) ?_
  intro pending calls left right alike
  cases pending with
  | false => exact ⟨rfl, rfl, alike⟩
  | true =>
    refine Program.run_bind_alike (relay_alike relay alike) (fun _ _ _ alike => alike) ?_
    intro report calls left right alike
    split
    · exact ⟨rfl, rfl, alike⟩
    · exact ⟨rfl, rfl, alike⟩

/-- How the drain of a correlation ends depends on the open events of the correlation only. -/
theorem drain_alike (relay : OutboxRelay) (passes calls : Nat)
    (same : world.outbox.openRows correlationId = other.outbox.openRows correlationId) :
    (Program.runLoop (serveDrain answers) (relay.drainPass format blake3 correlationId) passes calls
      world).map Finished.outcome =
    (Program.runLoop (serveDrain answers) (relay.drainPass format blake3 correlationId) passes calls
      other).map Finished.outcome :=
  Program.runLoop_alike (SameOpen correlationId []) (drainPass_alike relay) passes calls
    ⟨same, fun _ member => absurd member List.not_mem_nil⟩

end SkillLayer.Infrastructure
