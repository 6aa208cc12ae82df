import SkillLayer.Infrastructure.OutboxSafety

/-! What a reconciler deletes while relays go on, between its read of the published events
and its delete. -/

namespace SkillLayer.Infrastructure

variable {F Worker : Type} [DecidableEq Worker] (format : VectorFormat F) (blake3 : Blake3)

/-- What a reconciler has read in its pass: the published events, with the limit of the
read, and then the stored points. -/
structure ScanLedger where
  scanned : Option (Int × List OutboxRecord)
  listed : Option VectorPointListing

namespace ScanLedger

def idle : ScanLedger := ⟨none, none⟩

/-- The read returned an event for the point. -/
def Expects (ledger : ScanLedger) (pointId : Nat) : Prop :=
  ∃ limit records, ledger.scanned = some (limit, records) ∧
    ∃ record ∈ records, recordPoint format blake3 record = .ok pointId

/-- Neither the read nor the listing was cut off. -/
def Complete (ledger : ScanLedger) (listing : VectorPointListing) : Prop :=
  listing.isComplete = true ∧
    ∀ limit records, ledger.scanned = some (limit, records) → (records.length : Int) < limit

def Allows (ledger : ScanLedger) : OutboxCall F → Prop
  | .deletePoints pointIds => ∃ listing, ledger.listed = some listing ∧ ledger.Complete listing ∧
      ∀ pointId ∈ pointIds, pointId ∈ listing.pointIds ∧ ¬ ledger.Expects format blake3 pointId
  | _ => True

def after (ledger : ScanLedger) : (request : OutboxCall F) → OutboxAnswer F request → ScanLedger
  | .listPublished _ limit, .ok records => ⟨some (limit, records), none⟩
  | .listPointIds, .ok listing => { ledger with listed := some listing }
  | _, _ => ledger

end ScanLedger

def scanDiscipline : Discipline (OutboxCall F) (OutboxAnswer F) ScanLedger where
  allows ledger request := ledger.Allows format blake3 request
  after := ScanLedger.after

/-- A call that belongs to no reconciler, or that leaves what it has read as it is. -/
def OutboxCall.Aside : OutboxCall F → Prop
  | .listPublished _ _ => False
  | .listPointIds => False
  | .deletePoints _ => False
  | _ => True

section Calls

variable {format blake3}

theorem OutboxCall.Aside.neutral {request : OutboxCall F} (aside : request.Aside) (ledger : ScanLedger) :
    (scanDiscipline format blake3).allows ledger request ∧
      ∀ answer, (scanDiscipline format blake3).after ledger request answer = ledger := by
  cases request <;> first | exact ⟨trivial, fun _ => rfl⟩ | cases aside

theorem OutboxCall.Concerns.aside {eventIds : List Uuid} (request : OutboxCall F)
    (concerns : request.Concerns eventIds) : request.Aside := by
  cases request <;> trivial

theorem aside_markPublished (record : OutboxRecord) (pointId : Nat) :
    (OutboxRelay.markPublished record pointId : OutboxProgram F OutboxRelayError Bool).Calls
      OutboxCall.Aside :=
  (concerns_markPublished (List.mem_singleton_self _) pointId).mono OutboxCall.Concerns.aside

theorem aside_processClaimedRecords (relay : OutboxRelay) (records : List OutboxRecord) :
    (relay.processClaimedRecords format blake3 records).Calls OutboxCall.Aside :=
  (concerns_processClaimedRecords relay fun _ member =>
    List.mem_map_of_mem (f := OutboxRecord.eventId) member).mono OutboxCall.Concerns.aside

theorem aside_relay (relay : OutboxRelay) (correlationId : Option Uuid) :
    ((claimOutbox correlationId relay.claimLimit).mapError OutboxRelayError.coordinator >>=
      relay.processClaimedRecords format blake3).Calls OutboxCall.Aside := by
  refine Program.Calls.bind (Program.Calls.mapError ?_) fun records => aside_processClaimedRecords _ _
  exact Program.calls_ofExcept.bind fun _ => (Program.Calls.ask trivial).bind fun _ =>
    Program.calls_ofExcept

theorem aside_drainPass (relay : OutboxRelay) (correlationId : Uuid) :
    (relay.drainPass format blake3 correlationId).Calls OutboxCall.Aside := by
  refine Program.Calls.bind (Program.Calls.mapError ?_) fun pending => ?_
  · exact (Program.Calls.ask trivial).bind fun _ => Program.calls_ofExcept
  · split
    · trivial
    · apply (aside_relay _ _).bind
      intro report
      split <;> trivial

theorem aside_relayAllPass (relay : OutboxRelay) :
    (relay.relayAllPass format blake3).Calls OutboxCall.Aside := by
  apply (aside_relay _ _).bind
  intro report
  split <;> trivial

theorem expects_of_expected {records : List OutboxRecord} {expected : List (Nat × OutboxRecord)}
    (built : expectedPointsByEvent format blake3 records = .ok expected) {limit : Int}
    {listed : Option VectorPointListing} {pointId : Nat}
    (expects : (⟨some (limit, records), listed⟩ : ScanLedger).Expects format blake3 pointId) :
    pointId ∈ expected.map Prod.fst := by
  obtain ⟨_, _, same, record, member, asks⟩ := expects
  obtain ⟨rfl, rfl⟩ := Prod.mk.inj (Option.some.inj same)
  exact (mem_expectedPoints built pointId).mpr ⟨record, member, asks⟩

/-- A part of a pass that leaves alone what was read. -/
theorem obeys_aside {Result Next : Type} {program : OutboxProgram F OutboxRelayError Result}
    {next : Result → OutboxProgram F OutboxRelayError Next} {ledger : ScanLedger}
    (calls : program.Calls OutboxCall.Aside)
    (later : ∀ result, (next result).Obeys (scanDiscipline format blake3) (fun _ _ => True) ledger) :
    (program >>= next).Obeys (scanDiscipline format blake3) (fun _ _ => True) ledger := by
  refine Program.Obeys.bind (calls.obeys (fun _ aside => aside.neutral _) fun outcome => ?_)
  cases outcome with
  | ok result => exact later result
  | error error => trivial

theorem OutboxCall.Repairs.aside {request : OutboxCall F} (repairs : request.Repairs) : request.Aside := by
  rcases repairs with rfl | rfl | ⟨event, rfl⟩ <;> trivial

theorem obeys_deleteOrphans {Next : Type} {orphaned : List Nat}
    {next : Unit → OutboxProgram F OutboxRelayError Next} {ledger : ScanLedger}
    (each : ∀ pointId ∈ orphaned, ∃ listing, ledger.listed = some listing ∧ ledger.Complete listing ∧
      pointId ∈ listing.pointIds ∧ ¬ ledger.Expects format blake3 pointId)
    (later : ∀ result, (next result).Obeys (scanDiscipline format blake3) (fun _ _ => True) ledger) :
    (deleteOrphans orphaned >>= next).Obeys (scanDiscipline format blake3) (fun _ _ => True) ledger := by
  unfold deleteOrphans
  cases orphaned with
  | nil => exact later ()
  | cons first rest =>
    obtain ⟨listing, listed, complete, -⟩ := each first List.mem_cons_self
    refine ⟨⟨listing, listed, complete, fun pointId member => ?_⟩, fun answer => ?_⟩
    · obtain ⟨other, same, -, inListing, unexpected⟩ := each pointId member
      rw [listed] at same
      cases same
      exact ⟨inListing, unexpected⟩
    · cases answer with
      | ok deleted => exact later deleted
      | error message => trivial

/-- A reconciler deletes listed points that no event of a complete read asks for. -/
theorem obeys_reconcileOnce (reconciler : OutboxReconciler) (pointOrder : HashOrder (Nat × OutboxRecord)) :
    (reconciler.reconcileOnce format blake3 pointOrder).Obeys (scanDiscipline format blake3)
      (fun _ _ => True) ScanLedger.idle := by
  have named : (Str.trim vectorUpsertEventType).isEmpty = false := trim_not_blank (by decide)
  have positive : ¬ reconciler.scanLimit ≤ 0 := Int.not_le.mpr reconciler.positive
  unfold OutboxReconciler.reconcileOnce listPublishedEventsByType
  simp only [named, Bool.false_eq_true, if_false, if_neg positive, Program.ask_bind,
    Program.mapError_call, Program.bind_call, Program.obeys_call]
  refine ⟨trivial, fun answer => ?_⟩
  rcases answer with error | records
  · trivial
  simp only [fetched, Except.mapError, Program.ofExcept_ok, Program.mapError_done, Program.bind_done]
  cases built : expectedPointsByEvent format blake3 records with
  | error error => trivial
  | ok expected =>
    rw [Program.ofExcept_ok, Program.bind_done]
    refine obeys_aside ((calls_missingRecords _).mono ?_) fun missing => ?_
    · rintro _ ⟨pointId, rfl⟩
      trivial
    refine obeys_aside ((calls_enqueueRepairs _).mono fun _ repairs => repairs.aside) fun enqueued => ?_
    refine ⟨trivial, fun answer => ?_⟩
    rcases answer with error | listing
    · trivial
    dsimp only [Except.mapError]
    rw [Program.ofExcept_ok, Program.bind_done]
    refine obeys_deleteOrphans (fun pointId orphaned => ?_) fun _ => trivial
    by_cases complete : (records.length : Int) < reconciler.scanLimit ∧ listing.isComplete = true
    · rw [if_pos complete, List.mem_filter, decide_eq_true_iff] at orphaned
      refine ⟨listing, rfl, ⟨complete.2, ?_⟩, orphaned.1, fun expects => ?_⟩
      · rintro _ _ ⟨⟩
        exact complete.1
      · exact orphaned.2 (expects_of_expected built expects)
    · rw [if_neg complete] at orphaned
      cases orphaned

theorem OutboxTask.scans {delays : Nat → Prop} {body : OutboxProgram F OutboxRelayError (Option Unit)}
    (task : OutboxTask format blake3 delays body) :
    body.Obeys (scanDiscipline format blake3) (fun _ _ => True) ScanLedger.idle := by
  have aside {Result : Type} {program : OutboxProgram F OutboxRelayError Result}
      (calls : program.Calls OutboxCall.Aside) :
      program.Obeys (scanDiscipline format blake3) (fun _ _ => True) ScanLedger.idle :=
    calls.obeys (fun _ here => here.neutral _) fun _ => trivial
  cases task with
  | drainCorrelationOutbox delay correlationId => exact aside (aside_drainPass _ correlationId)
  | relayAllPendingToCompletion delay => exact aside (aside_relayAllPass _)
  | relayOnce delay => exact aside ((aside_relay _ _).bind fun _ => trivial)
  | relayOnceForCorrelation delay correlationId => exact aside ((aside_relay _ _).bind fun _ => trivial)
  | appendOutboxEvent event =>
    have calls := (calls_appendOutboxEvent (F := F) event).mono fun request same =>
      (same ▸ trivial : request.Aside)
    exact aside (calls.mapError.bind fun _ => trivial)
  | appendOutboxEventIdempotent event =>
    have calls := (calls_appendOutboxEventIdempotent (F := F) event).mono fun request same =>
      (same ▸ trivial : request.Aside)
    exact aside (calls.mapError.bind fun _ => trivial)
  | reconcileOnce reconciler pointOrder =>
    refine Program.Obeys.bind ((obeys_reconcileOnce reconciler pointOrder).mono fun _ outcome _ => ?_)
    cases outcome <;> trivial

end Calls

/-! ### Runs with a reconciler -/

/-- The programs of one outbox, with what the reconcilers among them have read. -/
def scanSite : Site (OutboxCall F) (OutboxAnswer F) OutboxRelayError Unit ScanLedger (OutboxWorld F) where
  discipline := scanDiscipline format blake3
  idle := .idle
  starts := OutboxTask format blake3 fun _ => True
  serves request world answer after := ∃ weather, serveOutbox weather request world = (answer, after)

abbrev ScanCluster (F Worker : Type) :=
  Cluster (OutboxCall F) (OutboxAnswer F) OutboxRelayError Unit ScanLedger (OutboxWorld F) Worker

/-- Some upsert event of the point is pending, in processing or published. -/
def PointLive (outbox : Outbox) (pointId : Nat) : Prop :=
  ∃ row ∈ outbox.rows, row.status ≠ .failed ∧ eventPoint? format blake3 row.event = some pointId

/-- A delete that goes through takes no stored point with a live event. -/
def SparesLive (cluster : ScanCluster F Worker) (event : OutboxStep F Worker) : Prop :=
  ∀ worker pointIds, event = .call worker (.deletePoints pointIds) (.ok ()) →
    ∀ pointId ∈ pointIds, (pointAt? pointId cluster.world.points).isSome →
      ¬ PointLive format blake3 cluster.world.outbox pointId

/-- A step that does not overtake a reconciler: when one lists the points, each of them
that has a live event has one that the read of the published events returned; and while
one has listed the points, no event comes for a listed point without such an event. -/
structure Unraced (cluster : ScanCluster F Worker) (event : OutboxStep F Worker) : Prop where
  listing : ∀ worker listing, event = .call worker .listPointIds (.ok listing) →
    ((scanSite format blake3).ledgers cluster worker).Complete listing →
      ∀ pointId ∈ listing.pointIds, PointLive format blake3 cluster.world.outbox pointId →
        ((scanSite format blake3).ledgers cluster worker).Expects format blake3 pointId
  append : ∀ worker request answer appended, event = .call worker request answer →
    request.appended? = some appended → cluster.world.outbox.holdsKey appended.idempotencyKey = false →
      ∀ reconciler listing, ((scanSite format blake3).ledgers cluster reconciler).listed = some listing →
        ((scanSite format blake3).ledgers cluster reconciler).Complete listing →
          ∀ pointId ∈ listing.pointIds, eventPoint? format blake3 appended = some pointId →
            ((scanSite format blake3).ledgers cluster reconciler).Expects format blake3 pointId

/-- What holds without races: the listed points with a live event are expected. -/
def ListedExpected (world : OutboxWorld F) (ledgers : Worker → ScanLedger) : Prop :=
  ∀ worker listing, (ledgers worker).listed = some listing → (ledgers worker).Complete listing →
    ∀ pointId ∈ listing.pointIds, PointLive format blake3 world.outbox pointId →
      (ledgers worker).Expects format blake3 pointId

variable {format blake3}

/-- A live event was live before the call, or it was just appended. -/
theorem pointLive_before {world after : OutboxWorld F} {ledger left : RelayLedger}
    {request : OutboxCall F} (effect : OutboxEffect world ledger request after left) {pointId : Nat}
    (live : PointLive format blake3 after.outbox pointId) :
    PointLive format blake3 world.outbox pointId ∨ ∃ appended, request.appended? = some appended ∧
      world.outbox.holdsKey appended.idempotencyKey = false ∧
        eventPoint? format blake3 appended = some pointId := by
  obtain ⟨row, member, open_, asks⟩ := live
  rcases effect.event_source member with ⟨before, inRows, same⟩ | ⟨asked, fresh⟩
  · refine .inl ⟨before, inRows, fun failed => open_ ?_, same ▸ asks⟩
    obtain ⟨next, here, moved⟩ := effect.advances.moved _ _ (Outbox.progress_of_mem inRows)
    have id : before.eventId = row.eventId := congrArg OutboxEvent.eventId same
    rw [id, Outbox.progress_of_mem member] at here
    obtain rfl := Option.some.inj here
    have given : before.progress.standing = .failed := by
      rw [OutboxRow.progress, failed]
      rfl
    rcases moved with stays | moves
    · have standing : row.status.standing = before.progress.standing := congrArg Progress.standing stays
      exact OutboxStatus.standing_eq_failed.mp (standing.trans given)
    · rw [given] at moves
      cases moves
  · exact .inr ⟨row.event, asked, fresh, asks⟩

section Steps

variable {cluster after : ScanCluster F Worker} {event : OutboxStep F Worker}

theorem listedExpected_call {worker : Worker} {request : OutboxCall F} {answer : OutboxAnswer F request}
    {world : OutboxWorld F}
    (holds : ListedExpected format blake3 cluster.world ((scanSite format blake3).ledgers cluster))
    (unraced : Unraced format blake3 cluster (.call worker request answer))
    {weather : Weather} (served : serveOutbox weather request cluster.world = (answer, world)) :
    ListedExpected format blake3 world
      (Function.update ((scanSite format blake3).ledgers cluster) worker
        (((scanSite format blake3).ledgers cluster worker).after request answer)) := by
  have effect := OutboxEffect.of_served served RelayLedger.idle
  have stays (other : Worker) (listing : VectorPointListing)
      (listed : ((scanSite format blake3).ledgers cluster other).listed = some listing)
      (complete : ((scanSite format blake3).ledgers cluster other).Complete listing) (pointId : Nat)
      (inListing : pointId ∈ listing.pointIds) (live : PointLive format blake3 world.outbox pointId) :
      ((scanSite format blake3).ledgers cluster other).Expects format blake3 pointId := by
    rcases pointLive_before effect live with before | ⟨appended, asked, fresh, asks⟩
    · exact holds other listing listed complete pointId inListing before
    · exact unraced.append worker request answer appended rfl asked fresh other listing listed complete
        pointId inListing asks
  intro other listing listed complete pointId inListing live
  by_cases same : other = worker
  · subst same
    rw [Function.update_self] at listed complete ⊢
    cases request with
    | listPublished eventType limit =>
      cases answer with
      | error error => exact stays other listing listed complete pointId inListing live
      | ok records => cases listed
    | listPointIds =>
      cases answer with
      | error error => exact stays other listing listed complete pointId inListing live
      | ok listing' =>
        cases listed
        have before : PointLive format blake3 cluster.world.outbox pointId := by
          rcases pointLive_before effect live with before | ⟨_, asked, -⟩
          · exact before
          · cases asked
        exact unraced.listing other listing rfl complete pointId inListing before
    | claim => exact stays other listing listed complete pointId inListing live
    | _ => exact stays other listing listed complete pointId inListing live
  · rw [Function.update_of_ne same] at listed complete ⊢
    exact stays other listing listed complete pointId inListing live

theorem listedExpected_idle {world : OutboxWorld F} {ledgers : Worker → ScanLedger}
    (holds : ListedExpected format blake3 world ledgers) (worker : Worker) :
    ListedExpected format blake3 world (Function.update ledgers worker .idle) := by
  intro other listing listed complete
  by_cases same : other = worker
  · subst same
    rw [Function.update_self] at listed
    cases listed
  · rw [Function.update_of_ne same] at listed complete ⊢
    exact holds other listing listed complete

variable (format blake3) in
abbrev ScanGoverned (cluster : ScanCluster F Worker) : Prop :=
  Site.Governed (scanSite format blake3) (fun _ _ => True) (ListedExpected format blake3) cluster

theorem scanGoverned_step (governed : ScanGoverned format blake3 cluster)
    (unraced : Unraced format blake3 cluster event)
    (step : (scanSite format blake3).Step cluster event after) : ScanGoverned format blake3 after := by
  refine governed.step (fun body task => OutboxTask.scans task) ?_ ?_ ?_ step
  · rintro worker request answer world rfl - ⟨weather, served⟩
    exact listedExpected_call governed.holds unraced served
  · exact fun worker _ _ _ => listedExpected_idle governed.holds worker
  · exact fun worker _ => listedExpected_idle governed.holds worker

variable (format blake3) in
/-- The runs in which no step overtakes a reconciler. -/
def unracedRuns (Worker : Type) [DecidableEq Worker] : Transitions (ScanCluster F Worker) :=
  (scanSite format blake3).system OutboxWorld.New (Unraced format blake3)

end Steps

/-! A stored point that no event asks for. -/

def sampleReconciler : OutboxReconciler := ⟨100, by decide⟩

def sampleReconcile : OutboxProgram Rat OutboxRelayError (Option Unit) :=
  once (sampleReconciler.reconcileOnce rationalFormat samplePointDigest (.unchanged _))

def orphanWorld : OutboxWorld Rat := ⟨.empty, [⟨5, [1], .null⟩], [], []⟩

theorem unraced_orphanWorld {cluster : ScanCluster Rat Nat} {event : OutboxStep Rat Nat}
    (world : cluster.world = orphanWorld)
    (appends : ∀ worker request answer, event = .call worker request answer → request.appended? = none) :
    Unraced rationalFormat samplePointDigest cluster event where
  listing := by
    rintro _ _ - - _ - ⟨row, member, -⟩
    rw [world] at member
    cases member
  append worker request answer appended same asked := by
    rw [appends worker request answer same] at asked
    cases asked

theorem reachable_orphan : ∃ cluster after : ScanCluster Rat Nat,
    (unracedRuns rationalFormat samplePointDigest Nat).Reachable cluster ∧
      (scanSite rationalFormat samplePointDigest).Step cluster
        (.call 1 (.deletePoints [5]) (.ok ())) after := by
  have begun : (unracedRuns rationalFormat samplePointDigest Nat).Reachable
      ((Site.quiet orphanWorld).set 1 (some ⟨sampleReconcile, sampleReconcile, .idle⟩)) :=
    .next (.start ⟨orphanWorld, ⟨rfl, rfl, rfl⟩, rfl⟩)
      ⟨_, unraced_orphanWorld rfl (by rintro _ _ _ ⟨⟩),
        .start rfl (OutboxTask.reconcileOnce sampleReconciler (.unchanged _))⟩
  have read := begun.next ⟨_, unraced_orphanWorld rfl (by rintro _ _ _ ⟨⟩; rfl),
    .call (Cluster.set_threads_self _ _ _) ⟨calm, rfl⟩⟩
  have listed := read.next ⟨_, unraced_orphanWorld rfl (by rintro _ _ _ ⟨⟩; rfl),
    .call (Cluster.set_threads_self _ _ _) ⟨calm, rfl⟩⟩
  exact ⟨_, _, listed, .call (Cluster.set_threads_self _ _ _) ⟨calm, rfl⟩⟩

def sampleRelayPass : OutboxProgram Rat OutboxRelayError (Option Unit) :=
  once (sampleRelay.relayOnce rationalFormat samplePointDigest)

def serveCalmly (_ : Nat) (request : OutboxCall F) (world : OutboxWorld F) :
    OutboxAnswer F request × OutboxWorld F :=
  serveOutbox calm request world

def afterRead : OutboxProgram Rat OutboxRelayError (Option Unit) × OutboxWorld Rat :=
  sampleReconcile.advance serveCalmly 1 0 appendedWorld

def afterWrite : OutboxProgram Rat OutboxRelayError (Option Unit) × OutboxWorld Rat :=
  sampleRelayPass.advance serveCalmly 2 0 afterRead.2

def afterList : OutboxProgram Rat OutboxRelayError (Option Unit) × OutboxWorld Rat :=
  afterRead.1.advance serveCalmly 1 1 afterWrite.2

/-- The points that a program is about to delete. -/
def deletesNext : OutboxProgram F OutboxRelayError (Option Unit) → Option (List Nat)
  | .call (.deletePoints pointIds) _ => some pointIds
  | _ => none

theorem exists_of_deletesNext {program : OutboxProgram F OutboxRelayError (Option Unit)}
    {pointIds : List Nat} (deletes : deletesNext program = some pointIds) :
    ∃ next, program = .call (.deletePoints pointIds) next := by
  unfold deletesNext at deletes
  split at deletes
  · cases deletes
    exact ⟨_, rfl⟩
  · cases deletes

def samplePoint : Nat := qdrantPointIdFromContentHash samplePointDigest "c1".toList

theorem reachable_afterList : ∃ (cluster : ScanCluster Rat Nat) (ledger : ScanLedger),
    ((scanSite rationalFormat samplePointDigest).runs Nat OutboxWorld.New).Reachable cluster ∧
      cluster.world = afterList.2 ∧
      cluster.threads 1 = some ⟨sampleReconcile, afterList.1, ledger⟩ := by
  have appended : ((scanSite rationalFormat samplePointDigest).runs Nat OutboxWorld.New).Reachable
      (Site.quiet appendedWorld) :=
    Site.reachable_alone (.start ⟨freshWorld, freshWorld_new, rfl⟩) 0
      (OutboxTask.appendOutboxEvent sampleEvent) (fun _ => serveOutbox calm) (fun _ _ _ => ⟨calm, rfl⟩)
      once_not_again (fun _ => trivial) (fun _ _ _ => trivial) (fun _ => trivial)
  have serves (calls : Nat) (request : OutboxCall Rat) (world : OutboxWorld Rat) :
      (scanSite rationalFormat samplePointDigest).serves request world
        (serveCalmly calls request world).1 (serveCalmly calls request world).2 := ⟨calm, rfl⟩
  have different : (1 : Nat) ≠ 0 := Nat.one_ne_zero
  obtain ⟨started, reached, world₁, reconciler, others₁⟩ := Site.exists_start appended 1 rfl
    (OutboxTask.reconcileOnce sampleReconciler (.unchanged _))
  obtain ⟨_, read, reached, world₂, reconciler, others₂⟩ :=
    Site.exists_advance reached reconciler serveCalmly serves 1 0
  have free : read.threads 0 = none := by
    rw [others₂ 0 different.symm, others₁ 0 different.symm]
    rfl
  obtain ⟨relaying, reached, world₃, relay, others₃⟩ := Site.exists_start reached 0 free
    (OutboxTask.relayOnce trivial : OutboxTask rationalFormat samplePointDigest _ sampleRelayPass)
  obtain ⟨_, wrote, reached, world₄, -, others₄⟩ :=
    Site.exists_advance reached relay serveCalmly serves 2 0
  rw [← others₃ 1 different, ← others₄ 1 different] at reconciler
  obtain ⟨_, listed, reached, world₅, last, -⟩ :=
    Site.exists_advance reached reconciler serveCalmly serves 1 1
  rw [world₄, world₃, world₂, world₁] at world₅ last
  exact ⟨listed, _, reached, world₅, last⟩

end SkillLayer.Infrastructure
