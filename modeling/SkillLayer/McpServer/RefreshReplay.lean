import SkillLayer.McpServer.RefreshProgress

/-! Turns of the subscriber in any weather: entries come and go, the group is lost, Redis fails,
reloads fail. An event is acknowledged only after a reload that followed its delivery. -/

namespace SkillLayer.McpServer

open Infrastructure GraphBuilder

/-- What is recorded of a run. -/
inductive RefreshEvent where
  | delivered (entries : List (Nat × EntryFields))
  | reloaded (succeeded : Bool)
  | acknowledged (id : Nat)

/-- The stream, and the record of the run, latest first. -/
structure RefreshWorld where
  stream : EventStream EntryFields
  log : List RefreshEvent

/-- What happens around a call: what others do to the stream before it, whether Redis fails, and
then whether the command has still been carried out, and what a reload yields. -/
structure Weather where
  edits : List (StreamEdit EntryFields)
  fault : Option (RedisError × Bool)
  reload : Except Str Int

/-- The answer to a command that fails. -/
def streamFailure (error : RedisError) : (request : StreamCall) → StreamAnswer request
  | .connect => .error error
  | .readPending _ => .error error
  | .readFresh _ _ => .error error
  | .createGroup => .error error
  | .ack _ => .error error

def serveFaulty (fault : Option (RedisError × Bool)) (request : StreamCall) (stream : EventStream EntryFields) :
    StreamAnswer request × EventStream EntryFields :=
  match fault with
  | none => serveStream request stream
  | some (error, carriedOut) =>
    (streamFailure error request, if carriedOut then (serveStream request stream).2 else stream)

/-- What the record keeps of a command. -/
def recorded : (request : StreamCall) → StreamAnswer request → List RefreshEvent → List RefreshEvent
  | .readPending _, .ok entries, log => .delivered entries :: log
  | .readFresh _ _, .ok entries, log => .delivered entries :: log
  | .ack id, _, log => .acknowledged id :: log
  | _, _, log => log

def serveWeather (weather : Nat → Weather) (calls : Nat) :
    (request : RefreshCall) → RefreshWorld → RefreshAnswer request × RefreshWorld
  | .stream request, world =>
    let served := serveFaulty (weather calls).fault request (world.stream.edits (weather calls).edits)
    (served.1, ⟨served.2, recorded request served.1 world.log⟩)
  | .reloadAndSwap, world =>
    ((weather calls).reload,
      ⟨world.stream.edits (weather calls).edits, .reloaded (weather calls).reload.isOk :: world.log⟩)
  | .sleep _, world => ((), ⟨world.stream.edits (weather calls).edits, world.log⟩)

/-! ### Events that are owed a reload -/

section Owed

variable (decode : Str → Except Str EventEnvelope)

/-- The rebuilds among some entries. -/
def rebuiltIds (entries : List (Nat × EntryFields)) : List Nat :=
  (entries.flatMap (yielded (parseEntry decode))).filter isRebuilt |>.map StreamMessage.streamId

/-- The rebuilds that were delivered last. -/
def lastRebuilt : List RefreshEvent → List Nat
  | [] => []
  | .delivered entries :: _ => rebuiltIds decode entries
  | _ :: past => lastRebuilt past

/-- The rebuilds whose reload has failed, and for which no reload has succeeded since. -/
def owed : List RefreshEvent → List Nat
  | [] => []
  | .reloaded false :: past => lastRebuilt decode past ++ owed past
  | .reloaded true :: past => (owed past).filter fun id => id ∉ lastRebuilt decode past
  | _ :: past => owed past

/-- The entry with this id is a rebuild. -/
def IsRebuild (stream : EventStream EntryFields) (id : Nat) : Prop :=
  ∃ fields message, stream.published[id]? = some fields ∧ parseEntry decode (id, fields) = .ok [message] ∧
    isRebuilt message = true

/-- A rebuild is acknowledged only when a reload has succeeded after its delivery. -/
def AckedAfterReload (world : RefreshWorld) : Prop :=
  ∀ past id, (.acknowledged id :: past) <:+ world.log → IsRebuild decode world.stream id →
    ∃ since entries earlier, past = since ++ .delivered entries :: earlier ∧ id ∈ entries.map Prod.fst ∧
      .reloaded true ∈ since

/-- What is owed a reload is not acknowledged, and is still there for the subscriber unless it is
gone from the stream. -/
structure KeepsOwed (world : RefreshWorld) : Prop where
  unacknowledged : ∀ past id, (.acknowledged id :: past) <:+ world.log → id ∉ owed decode past
  due : ∀ id ∈ owed decode world.log, world.stream.Due id

end Owed
/-! ### The order of the calls -/

/-- What the subscriber knows in a turn: the messages it has read, and whether their reload has
succeeded, once there was one. -/
structure RefreshLedger where
  batch : List StreamMessage
  reload : Option Bool

section Order

variable {decode : Str → Except Str EventEnvelope} {size : Nat}

def batchOf (decode : Str → Except Str EventEnvelope) (entries : List (Nat × EntryFields)) : List StreamMessage :=
  match parseStreamReply decode entries with
  | .ok messages => messages
  | .error _ => []

/-- A rebuild is acknowledged after a reload that has succeeded since the read, and there is one
reload at most after a read. -/
def streamDiscipline (decode : Str → Except Str EventEnvelope) : Discipline StreamCall StreamAnswer RefreshLedger where
  allows ledger
    | .ack id => ∃ message ∈ ledger.batch, message.streamId = id ∧
        (isRebuilt message = true → ledger.reload = some true)
    | _ => True
  after ledger
    | .readPending _, .ok entries => ⟨batchOf decode entries, none⟩
    | .readFresh _ _, .ok entries => ⟨batchOf decode entries, none⟩
    | _, _ => ledger

def refreshDiscipline (decode : Str → Except Str EventEnvelope) :
    Discipline RefreshCall RefreshAnswer RefreshLedger where
  allows ledger
    | .stream request => (streamDiscipline decode).allows ledger request
    | .reloadAndSwap => ledger.reload = none
    | .sleep _ => True
  after ledger
    | .stream request, answer => (streamDiscipline decode).after ledger request answer
    | .reloadAndSwap, answer => { ledger with reload := some answer.isOk }
    | .sleep _, _ => ledger

/-- Messages that a read yields are those the subscriber knows, and they have had no reload yet. -/
def Knows (ledger : RefreshLedger) (outcome : Except RedisStreamError (List StreamMessage)) : Prop :=
  ∀ messages, outcome = .ok messages → messages ≠ [] → ledger = ⟨messages, none⟩

theorem knows_error (ledger : RefreshLedger) (error : RedisStreamError) : Knows ledger (.error error) :=
  fun _ result => nomatch result

theorem knows_parsed (entries : List (Nat × EntryFields)) :
    Knows ⟨batchOf decode entries, none⟩ (parseStreamReply decode entries) := by
  intro messages result _
  rw [batchOf, result]

theorem obeys_ofExcept {ends : RefreshLedger → Except RedisStreamError (List StreamMessage) → Prop}
    {ledger : RefreshLedger} {outcome : Except RedisStreamError (List StreamMessage)} (ended : ends ledger outcome) :
    (Program.ofExcept outcome : StreamProgram _).Obeys (streamDiscipline decode) ends ledger := by
  cases outcome <;> exact ended

theorem obeys_readGroupOnce (blockMs : Nat) (ledger : RefreshLedger) :
    (readGroupOnce decode size blockMs).Obeys (streamDiscipline decode) Knows ledger := by
  unfold readGroupOnce connection
  simp only [Program.ask_bind, Program.bind_call]
  refine ⟨trivial, fun connected => ?_⟩
  cases connected with
  | error error => exact knows_error _ _
  | ok _ =>
    refine ⟨trivial, fun pendingAnswer => ?_⟩
    cases pendingAnswer with
    | error error => exact knows_error _ _
    | ok pendingReply =>
      have known := @knows_parsed decode pendingReply
      change ((Program.ofExcept (parseStreamReply decode pendingReply) >>= _ : StreamProgram _)).Obeys _ _ _
      cases read : parseStreamReply decode pendingReply with
      | error error => exact knows_error _ _
      | ok pending =>
        rw [read] at known
        cases pending with
        | cons message rest => exact known
        | nil =>
          refine ⟨trivial, fun freshAnswer => ?_⟩
          cases freshAnswer with
          | error error => exact knows_error _ _
          | ok freshReply => exact obeys_ofExcept (knows_parsed freshReply)

theorem obeys_ensureConsumerGroup {ends : RefreshLedger → Except RedisStreamError Unit → Prop} {ledger : RefreshLedger}
    (ended : ∀ outcome, ends ledger outcome) : ensureConsumerGroup.Obeys (streamDiscipline decode) ends ledger := by
  unfold ensureConsumerGroup connection
  simp only [Program.ask_bind, Program.bind_call]
  refine ⟨trivial, fun connected => ?_⟩
  cases connected with
  | error error => exact ended _
  | ok _ =>
    refine ⟨trivial, fun created => ?_⟩
    cases created with
    | ok _ => exact ended _
    | error error =>
      dsimp only
      split
      · exact ended _
      · exact ended _

theorem obeys_readGroup (blockMs : Nat) (ledger : RefreshLedger) :
    (readGroup decode size blockMs).Obeys (streamDiscipline decode) Knows ledger := by
  unfold readGroup
  apply Program.Obeys.bind
  apply Program.Obeys.outcome
  refine (obeys_readGroupOnce blockMs ledger).mono fun left outcome known => ?_
  cases outcome with
  | ok messages => exact known
  | error error =>
    dsimp only
    split
    · apply Program.Obeys.bind
      refine obeys_ensureConsumerGroup fun outcome => ?_
      cases outcome with
      | ok _ => exact obeys_readGroupOnce blockMs left
      | error error => exact knows_error _ _
    · exact knows_error _ _

/-- A program of the stream in a turn. -/
theorem obeys_onStream {Result : Type} {program : StreamProgram Result}
    {ends : RefreshLedger → Except RedisStreamError Result → Prop} {ledger : RefreshLedger}
    (obeys : program.Obeys (streamDiscipline decode) ends ledger) :
    (onStream program).Obeys (refreshDiscipline decode)
      (fun left outcome => ∃ result, outcome = .ok result ∧ ends left result) ledger := by
  refine Program.Obeys.embed (Program.Obeys.outcome (obeys.mono ?_)) (fun _ _ allowed => allowed) fun _ _ _ => rfl
  exact fun left outcome ended => ⟨outcome, rfl, ended⟩

theorem obeys_ack {message : StreamMessage} {ledger : RefreshLedger} (known : message ∈ ledger.batch)
    (reloaded : isRebuilt message = true → ledger.reload = some true) :
    (Infrastructure.ack message.streamId).Obeys (streamDiscipline decode) (fun left _ => left = ledger) ledger := by
  unfold Infrastructure.ack connection
  simp only [Program.ask_bind, Program.bind_call]
  refine ⟨trivial, fun connected => ?_⟩
  cases connected with
  | error error => rfl
  | ok _ =>
    refine ⟨⟨message, known, rfl, reloaded⟩, fun acked => ?_⟩
    cases acked with
    | error error => rfl
    | ok ackCount =>
      change (Program.ofExcept (validateAckCount message.streamId ackCount) : StreamProgram Unit).Obeys _ _ _
      cases validateAckCount message.streamId ackCount <;> rfl

theorem obeys_ackEach {outcome : BatchOutcome} {ledger : RefreshLedger} {messages : List StreamMessage}
    (known : ∀ message ∈ messages, message ∈ ledger.batch)
    (reloaded : ∀ message ∈ messages, isRebuilt message = true → outcome.reloadSucceeded = true →
      ledger.reload = some true) :
    (ackEach outcome messages).Obeys (refreshDiscipline decode) (fun _ _ => True) ledger := by
  induction messages with
  | nil => exact trivial
  | cons message rest ih =>
    have others := ih (fun other member => known other (List.mem_cons_of_mem _ member))
      fun other member => reloaded other (List.mem_cons_of_mem _ member)
    unfold ackEach
    split
    · exact others
    · rename_i acks
      apply Program.Obeys.bind
      refine (obeys_onStream (obeys_ack (known message List.mem_cons_self) ?_)).mono ?_
      · intro rebuilt
        refine reloaded message List.mem_cons_self rebuilt ?_
        simpa [rebuilt] using acks
      · rintro left outcome ⟨result, rfl, rfl⟩
        exact others

theorem obeys_processBatch (messages : List StreamMessage) :
    (processBatch messages).Obeys (refreshDiscipline decode) (fun _ _ => True) ⟨messages, none⟩ := by
  unfold processBatch coalescedReload
  split
  · refine ⟨rfl, fun answer => ?_⟩
    cases answer with
    | ok applied => exact obeys_ackEach (fun _ member => member) fun _ _ _ _ => rfl
    | error error => exact obeys_ackEach (fun _ member => member) fun _ _ _ succeeded => nomatch succeeded
  · rename_i none
    refine obeys_ackEach (fun _ member => member) fun message member rebuilt _ => ?_
    exact absurd (List.any_eq_true.mpr ⟨message, member, rebuilt⟩) none

/-- In whatever way Redis and the reloads answer, a turn keeps the order of its calls. -/
theorem obeys_refreshTurn (backoff : Nat) (ledger : RefreshLedger) :
    (refreshTurn decode size backoff).Obeys (refreshDiscipline decode) (fun _ _ => True) ledger := by
  unfold refreshTurn
  apply Program.Obeys.bind
  refine (obeys_onStream (obeys_readGroup readBlockMs ledger)).mono ?_
  rintro left outcome ⟨result, rfl, known⟩
  cases result with
  | error error => exact ⟨trivial, fun _ => trivial⟩
  | ok messages =>
    dsimp only
    split
    · rename_i some
      apply Program.Obeys.bind
      rw [known messages rfl (by simpa using some)]
      refine (obeys_processBatch messages).mono fun left outcome _ => ?_
      cases outcome with
      | ok _ => exact trivial
      | error error => cases error
    · exact trivial

end Order
/-! ### What the record says -/

section Record

variable {decode : Str → Except Str EventEnvelope}

/-- The message that an entry holds. -/
def Holds (decode : Str → Except Str EventEnvelope) (stream : EventStream EntryFields) (message : StreamMessage) :
    Prop :=
  ∃ fields, stream.published[message.streamId]? = some fields ∧
    parseEntry decode (message.streamId, fields) = .ok [message]

/-- A delivery of the entry that a successful reload has followed. -/
def ReloadedSince (past : List RefreshEvent) (id : Nat) : Prop :=
  ∃ since entries earlier, past = since ++ .delivered entries :: earlier ∧ id ∈ entries.map Prod.fst ∧
    .reloaded true ∈ since

theorem parseEntry_shape {entry : Nat × EntryFields} {messages : List StreamMessage}
    (read : parseEntry decode entry = .ok messages) {message : StreamMessage} (member : message ∈ messages) :
    messages = [message] ∧ message.streamId = entry.1 ∧ entry.2 ≠ [] := by
  unfold parseEntry at read
  split at read
  · cases read
    cases member
  · rename_i raw found
    have filled : entry.2 ≠ [] := by
      intro empty
      rw [empty] at found
      cases found
    split at read
    · cases read
      cases List.mem_singleton.mp member
      exact ⟨rfl, rfl, filled⟩
    · cases read

theorem holds_of_parseEntry {stream : EventStream EntryFields} {id : Nat} {messages : List StreamMessage}
    (read : parseEntry decode (replyEntry stream id) = .ok messages) {message : StreamMessage}
    (member : message ∈ messages) : message.streamId = id ∧ Holds decode stream message := by
  obtain ⟨rfl, same, filled⟩ := parseEntry_shape read member
  change message.streamId = id at same
  subst same
  refine ⟨rfl, ?_⟩
  unfold replyEntry EventStream.entry at read filled
  split at read
  · cases found : stream.published[message.streamId]? with
    | none => simp [found] at filled
    | some fields =>
      rw [found] at read
      exact ⟨fields, found, read⟩
  · rename_i gone
    simp [gone] at filled

theorem mem_batchOf {entries : List (Nat × EntryFields)} {message : StreamMessage}
    (member : message ∈ batchOf decode entries) : message ∈ entries.flatMap (yielded (parseEntry decode)) := by
  unfold batchOf at member
  split at member
  · rename_i messages read
    rw [← (collect_eq_ok.mp read).2]
    exact member
  · cases member

theorem of_mem_yielded {stream : EventStream EntryFields} {ids : List Nat} {message : StreamMessage}
    (member : message ∈ (ids.map (replyEntry stream)).flatMap (yielded (parseEntry decode))) :
    message.streamId ∈ ids ∧ Holds decode stream message := by
  obtain ⟨entry, listed, given⟩ := List.mem_flatMap.mp member
  obtain ⟨id, known, rfl⟩ := List.mem_map.mp listed
  unfold yielded at given
  split at given
  · rename_i messages read
    obtain ⟨rfl, holds⟩ := holds_of_parseEntry read given
    exact ⟨known, holds⟩
  · cases given

theorem mem_rebuiltIds {entries : List (Nat × EntryFields)} {id : Nat} :
    id ∈ rebuiltIds decode entries ↔
      ∃ message ∈ entries.flatMap (yielded (parseEntry decode)), isRebuilt message = true ∧ message.streamId = id := by
  simp [rebuiltIds, and_assoc]

theorem Holds.isRebuild_iff {stream : EventStream EntryFields} {message : StreamMessage}
    (holds : Holds decode stream message) : IsRebuild decode stream message.streamId ↔ isRebuilt message = true := by
  obtain ⟨fields, found, read⟩ := holds
  constructor
  · rintro ⟨others, other, foundOther, readOther, rebuilt⟩
    rw [found] at foundOther
    cases foundOther
    rw [read] at readOther
    cases readOther
    exact rebuilt
  · exact fun rebuilt => ⟨fields, message, found, read, rebuilt⟩

theorem Holds.mono {stream later : EventStream EntryFields} {message : StreamMessage}
    (holds : Holds decode stream message) (grown : stream.published <+: later.published) :
    Holds decode later message := by
  obtain ⟨fields, found, read⟩ := holds
  obtain ⟨more, whole⟩ := grown
  refine ⟨fields, ?_, read⟩
  rw [← whole, List.getElem?_append_left (List.getElem?_eq_some_iff.mp found).1, found]

theorem IsRebuild.mono {stream later : EventStream EntryFields} {id : Nat} (rebuild : IsRebuild decode stream id)
    (grown : stream.published <+: later.published) : IsRebuild decode later id := by
  obtain ⟨fields, message, found, read, rebuilt⟩ := rebuild
  obtain ⟨more, whole⟩ := grown
  refine ⟨fields, message, ?_, read, rebuilt⟩
  rw [← whole, List.getElem?_append_left (List.getElem?_eq_some_iff.mp found).1, found]

/-- What holds between two calls of a turn. -/
structure Accounted (decode : Str → Except Str EventEnvelope) (ledger : RefreshLedger) (world : RefreshWorld) :
    Prop where
  acks : ∀ past id, (.acknowledged id :: past) <:+ world.log → id ∉ owed decode past ∧
    (ReloadedSince past id ∨
      ∃ message, message.streamId = id ∧ Holds decode world.stream message ∧ isRebuilt message = false)
  owes : ∀ id ∈ owed decode world.log, IsRebuild decode world.stream id ∧ world.stream.Due id
  last : ∀ id ∈ lastRebuilt decode world.log, IsRebuild decode world.stream id
  lastDue : ledger.reload = none → ∀ id ∈ lastRebuilt decode world.log, world.stream.Due id
  settled : ledger.reload = some true → ∀ id ∈ lastRebuilt decode world.log, id ∉ owed decode world.log
  holds : ∀ message ∈ ledger.batch, Holds decode world.stream message
  rebuilt : ∀ message ∈ ledger.batch, isRebuilt message = true →
    message.streamId ∈ lastRebuilt decode world.log
  delivered : ∀ message ∈ ledger.batch, ∃ since entries earlier,
    world.log = since ++ .delivered entries :: earlier ∧ message.streamId ∈ entries.map Prod.fst
  reloaded : ledger.reload = some true → ∀ message ∈ ledger.batch, ReloadedSince world.log message.streamId

theorem Accounted.ackedAfterReload {ledger : RefreshLedger} {world : RefreshWorld}
    (accounted : Accounted decode ledger world) : AckedAfterReload decode world := by
  intro past id acked rebuild
  obtain ⟨-, since | ⟨message, rfl, holds, other⟩⟩ := accounted.acks past id acked
  · exact since
  · rw [holds.isRebuild_iff.mp rebuild] at other
    cases other

theorem Accounted.keepsOwed {ledger : RefreshLedger} {world : RefreshWorld}
    (accounted : Accounted decode ledger world) : KeepsOwed decode world where
  unacknowledged := fun past id acked => (accounted.acks past id acked).1
  due := fun id member => (accounted.owes id member).2

/-- Nothing that leaves what is due undoes the account. -/
theorem Accounted.stream {ledger : RefreshLedger} {world : RefreshWorld} {later : EventStream EntryFields}
    (accounted : Accounted decode ledger world) (grown : world.stream.published <+: later.published)
    (due : ∀ id, world.stream.Due id → later.Due id) : Accounted decode ledger ⟨later, world.log⟩ := by
  exact
    { acks := by
        intro past id acked
        obtain ⟨free, since | ⟨message, same, holds, other⟩⟩ := accounted.acks past id acked
        · exact ⟨free, Or.inl since⟩
        · exact ⟨free, Or.inr ⟨message, same, holds.mono grown, other⟩⟩
      owes := fun id member => ⟨(accounted.owes id member).1.mono grown, due id (accounted.owes id member).2⟩
      last := fun id member => (accounted.last id member).mono grown
      lastDue := fun fresh id member => due id (accounted.lastDue fresh id member)
      settled := accounted.settled
      holds := fun message member => (accounted.holds message member).mono grown
      rebuilt := accounted.rebuilt
      delivered := accounted.delivered
      reloaded := accounted.reloaded }

theorem suffix_cons_of_ne {event other : RefreshEvent} {past log : List RefreshEvent}
    (suffix : (event :: past) <:+ (other :: log)) (apart : event ≠ other) : (event :: past) <:+ log := by
  rcases List.suffix_cons_iff.mp suffix with same | within
  · exact absurd (List.cons.inj same).1 apart
  · exact within

/-- A read that is answered starts a new account of its messages. -/
theorem Accounted.read {ledger : RefreshLedger} {stream : EventStream EntryFields} {log : List RefreshEvent}
    {ids : List Nat} (accounted : Accounted decode ledger ⟨stream, log⟩) (due : ∀ id ∈ ids, stream.Due id) :
    Accounted decode ⟨batchOf decode (ids.map (replyEntry stream)), none⟩
      ⟨stream, .delivered (ids.map (replyEntry stream)) :: log⟩ := by
  have known {id : Nat} (member : id ∈ rebuiltIds decode (ids.map (replyEntry stream))) :
      id ∈ ids ∧ IsRebuild decode stream id := by
    obtain ⟨message, given, rebuilt, rfl⟩ := mem_rebuiltIds.mp member
    obtain ⟨listed, holds⟩ := of_mem_yielded given
    exact ⟨listed, holds.isRebuild_iff.mpr rebuilt⟩
  exact
    { acks := fun past id acked => accounted.acks past id (suffix_cons_of_ne acked nofun)
      owes := accounted.owes
      last := fun id member => (known member).2
      lastDue := fun _ id member => due id (known member).1
      settled := fun succeeded => nomatch succeeded
      holds := fun message member => (of_mem_yielded (mem_batchOf member)).2
      rebuilt := fun message member rebuilt => mem_rebuiltIds.mpr ⟨message, mem_batchOf member, rebuilt, rfl⟩
      delivered := by
        intro message member
        refine ⟨[], _, log, rfl, ?_⟩
        rw [List.map_map, show Prod.fst ∘ replyEntry stream = id from rfl, List.map_id]
        exact (of_mem_yielded (mem_batchOf member)).1
      reloaded := fun succeeded => nomatch succeeded }

theorem Accounted.reload {ledger : RefreshLedger} {stream : EventStream EntryFields} {log : List RefreshEvent}
    (accounted : Accounted decode ledger ⟨stream, log⟩) (first : ledger.reload = none) (succeeded : Bool) :
    Accounted decode { ledger with reload := some succeeded } ⟨stream, .reloaded succeeded :: log⟩ := by
  have delivered (message : StreamMessage) (member : message ∈ ledger.batch) : ∃ since entries earlier,
      log = since ++ .delivered entries :: earlier ∧ message.streamId ∈ entries.map Prod.fst :=
    accounted.delivered message member
  exact
    { acks := fun past id acked => accounted.acks past id (suffix_cons_of_ne acked nofun)
      owes := by
        intro id member
        cases succeeded with
        | true => exact accounted.owes id (List.mem_filter.mp member).1
        | false =>
          rcases List.mem_append.mp member with now | before
          · exact ⟨accounted.last id now, accounted.lastDue first id now⟩
          · exact accounted.owes id before
      last := accounted.last
      lastDue := fun fresh => nomatch fresh
      settled := by
        intro success id member still
        cases success
        simpa [show id ∈ lastRebuilt decode log from member] using (List.mem_filter.mp still).2
      holds := accounted.holds
      rebuilt := accounted.rebuilt
      delivered := by
        intro message member
        obtain ⟨since, entries, earlier, whole, listed⟩ := delivered message member
        exact ⟨.reloaded succeeded :: since, entries, earlier, by rw [whole]; rfl, listed⟩
      reloaded := by
        intro success message member
        cases success
        obtain ⟨since, entries, earlier, whole, listed⟩ := delivered message member
        exact ⟨.reloaded true :: since, entries, earlier, by rw [whole]; rfl, listed, List.mem_cons_self⟩ }

/-- An acknowledgement touches nothing that is owed a reload. -/
theorem Accounted.ack {ledger : RefreshLedger} {stream later : EventStream EntryFields} {log : List RefreshEvent}
    {id : Nat} (accounted : Accounted decode ledger ⟨stream, log⟩)
    (allowed : (streamDiscipline decode).allows ledger (.ack id)) (grown : stream.published <+: later.published)
    (due : ∀ other, other ≠ id → stream.Due other → later.Due other) :
    Accounted decode ledger ⟨later, .acknowledged id :: log⟩ := by
  obtain ⟨message, member, rfl, order⟩ := allowed
  have apart : message.streamId ∉ owed decode log ∧
      (ledger.reload = none → message.streamId ∉ lastRebuilt decode log) := by
    cases rebuilt : isRebuilt message with
    | true => exact ⟨accounted.settled (order rebuilt) _ (accounted.rebuilt message member rebuilt),
        fun fresh => by rw [order rebuilt] at fresh; cases fresh⟩
    | false =>
      have other : ¬ IsRebuild decode stream message.streamId := by
        rw [(accounted.holds message member).isRebuild_iff, rebuilt]
        exact Bool.false_ne_true
      exact ⟨fun owes => other (accounted.owes _ owes).1, fun _ listed => other (accounted.last _ listed)⟩
  exact
    { acks := by
        intro past id acked
        rcases List.suffix_cons_iff.mp acked with same | within
        · cases same
          refine ⟨apart.1, ?_⟩
          cases rebuilt : isRebuilt message with
          | true => exact Or.inl (accounted.reloaded (order rebuilt) message member)
          | false => exact Or.inr ⟨message, rfl, (accounted.holds message member).mono grown, rebuilt⟩
        · obtain ⟨free, since | ⟨other, same, holds, rebuilt⟩⟩ := accounted.acks past id within
          · exact ⟨free, Or.inl since⟩
          · exact ⟨free, Or.inr ⟨other, same, holds.mono grown, rebuilt⟩⟩
      owes := by
        intro id owes
        obtain ⟨rebuild, isDue⟩ := accounted.owes id owes
        exact ⟨rebuild.mono grown, due id (fun same => apart.1 (same ▸ owes)) isDue⟩
      last := fun id listed => (accounted.last id listed).mono grown
      lastDue := fun fresh id listed =>
        due id (fun same => apart.2 fresh (same ▸ listed)) (accounted.lastDue fresh id listed)
      settled := accounted.settled
      holds := fun other known => (accounted.holds other known).mono grown
      rebuilt := accounted.rebuilt
      delivered := by
        intro other known
        obtain ⟨since, entries, earlier, whole, listed⟩ := accounted.delivered other known
        exact ⟨.acknowledged message.streamId :: since, entries, earlier, congrArg (List.cons _) whole, listed⟩
      reloaded := by
        intro succeeded other known
        obtain ⟨since, entries, earlier, whole, listed, success⟩ := accounted.reloaded succeeded other known
        exact ⟨.acknowledged message.streamId :: since, entries, earlier, congrArg (List.cons _) whole, listed,
          List.mem_cons_of_mem _ success⟩ }

theorem published_serveStream (request : StreamCall) (stream : EventStream EntryFields) :
    (serveStream request stream).2.published = stream.published := by
  cases request with
  | connect => rfl
  | readPending count => cases here : stream.group <;> simp only [serveStream, here]
  | readFresh count blockMs => cases here : stream.group <;> simp only [serveStream, here, EventStream.withGroup]
  | createGroup => cases here : stream.group <;> simp only [serveStream, here, EventStream.withGroup]
  | ack id => cases here : stream.group <;> simp only [serveStream, here, EventStream.withGroup]

/-- A command leaves what is due, but for the entry that it acknowledges. -/
theorem due_serveStream {request : StreamCall} {stream : EventStream EntryFields} {id : Nat}
    (apart : ∀ other, request = .ack other → id ≠ other) (due : stream.Due id) :
    (serveStream request stream).2.Due id := by
  cases request with
  | connect => exact due
  | readPending count => cases here : stream.group <;> simp only [serveStream, here] <;> exact due
  | readFresh count blockMs =>
    cases here : stream.group with
    | none => simpa only [serveStream, here] using due
    | some group => simpa only [serveStream, here] using due.readFresh here
  | createGroup =>
    have ensured := due.ensureGroup
    cases here : stream.group with
    | none => simpa only [serveStream, here, EventStream.ensureGroup] using ensured
    | some group => simpa only [serveStream, here] using due
  | ack other =>
    cases here : stream.group with
    | none => simpa only [serveStream, here] using due
    | some group => simpa only [serveStream, here] using due.acknowledge here (apart other rfl)

/-- A command that is answered. -/
theorem accounted_serveStream {ledger : RefreshLedger} {stream : EventStream EntryFields} {log : List RefreshEvent}
    (request : StreamCall) (accounted : Accounted decode ledger ⟨stream, log⟩)
    (allowed : (streamDiscipline decode).allows ledger request) :
    Accounted decode ((streamDiscipline decode).after ledger request (serveStream request stream).1)
      ⟨(serveStream request stream).2, recorded request (serveStream request stream).1 log⟩ := by
  have grown : stream.published <+: (serveStream request stream).2.published :=
    published_serveStream request stream ▸ List.prefix_refl _
  cases request with
  | connect => exact accounted
  | createGroup => exact accounted.stream grown fun id due => due_serveStream nofun due
  | ack id =>
    refine accounted.ack allowed grown fun other apart due => due_serveStream (fun acked same => ?_) due
    cases same
    exact apart
  | readPending count =>
    cases here : stream.group with
    | none =>
      simp only [serveStream, here]
      exact accounted
    | some group =>
      have pending : ∀ id ∈ Backlog.window count group.pending, stream.Due id := by
        intro id member _ other found
        rw [here] at found
        cases found
        exact Or.inl ((EventStream.window_isPrefix count _).subset member)
      simp only [serveStream, here]
      exact accounted.read pending
  | readFresh count blockMs =>
    cases here : stream.group with
    | none =>
      simp only [serveStream, here]
      exact accounted
    | some group =>
      have moved : Accounted decode ledger ⟨stream.withGroup (stream.readFresh count group), log⟩ :=
        accounted.stream (List.prefix_refl _) fun id due => due.readFresh here
      have given : ∀ id ∈ stream.nextFor count group, (stream.withGroup (stream.readFresh count group)).Due id := by
        intro id member _ other found
        cases found
        exact Or.inl (List.mem_append_right _ member)
      simp only [serveStream, here]
      exact moved.read given

theorem accounted_serveFaulty {ledger : RefreshLedger} {stream : EventStream EntryFields} {log : List RefreshEvent}
    (fault : Option (RedisError × Bool)) (request : StreamCall) (accounted : Accounted decode ledger ⟨stream, log⟩)
    (allowed : (streamDiscipline decode).allows ledger request) :
    Accounted decode ((streamDiscipline decode).after ledger request (serveFaulty fault request stream).1)
      ⟨(serveFaulty fault request stream).2, recorded request (serveFaulty fault request stream).1 log⟩ := by
  cases fault with
  | none => exact accounted_serveStream request accounted allowed
  | some failure =>
    obtain ⟨error, carriedOut⟩ := failure
    have grown : stream.published <+: (serveFaulty (some (error, carriedOut)) request stream).2.published := by
      cases carriedOut
      · exact List.prefix_refl _
      · exact published_serveStream request stream ▸ List.prefix_refl _
    have kept (id : Nat) (apart : ∀ other, request = .ack other → id ≠ other) (due : stream.Due id) :
        (serveFaulty (some (error, carriedOut)) request stream).2.Due id := by
      cases carriedOut
      · exact due
      · exact due_serveStream apart due
    cases request with
    | ack id =>
      refine accounted.ack allowed grown fun other apart due => kept other (fun acked same => ?_) due
      cases same
      exact apart
    | connect => exact accounted.stream grown fun id => kept id nofun
    | readPending count => exact accounted.stream grown fun id => kept id nofun
    | readFresh count blockMs => exact accounted.stream grown fun id => kept id nofun
    | createGroup => exact accounted.stream grown fun id => kept id nofun

theorem accounted_serveWeather {weather : Nat → Weather} {ledger : RefreshLedger} (calls : Nat) (request : RefreshCall)
    (world : RefreshWorld) (accounted : Accounted decode ledger world)
    (allowed : (refreshDiscipline decode).allows ledger request) :
    Accounted decode ((refreshDiscipline decode).after ledger request (serveWeather weather calls request world).1)
      (serveWeather weather calls request world).2 := by
  have edited := accounted.stream (EventStream.published_prefix_edits world.stream (weather calls).edits)
    fun id due => due.edits _
  cases request with
  | stream request => exact accounted_serveFaulty _ request edited allowed
  | reloadAndSwap => exact edited.reload allowed _
  | sleep milliseconds => exact edited

end Record

/-! ### Runs -/

section Runs

variable {decode : Str → Except Str EventEnvelope} {size : Nat} {weather : Nat → Weather}

/-- The stream as the first pending read of a turn finds it. -/
def pendingView (weather : Nat → Weather) (subscriber : Subscriber RefreshWorld) : EventStream EntryFields :=
  (subscriber.world.stream.edits (weather subscriber.calls).edits).edits (weather (subscriber.calls + 1)).edits

/-- The first pending read of a turn is answered for this group. -/
structure PendingRead (weather : Nat → Weather) (subscriber : Subscriber RefreshWorld) (group : ConsumerGroup) :
    Prop where
  connected : (weather subscriber.calls).fault = none
  answered : (weather (subscriber.calls + 1)).fault = none
  found : (pendingView weather subscriber).group = some group

/-- An event that is owed a reload, pending, and still in the stream as a turn reads. -/
structure OwedPending (decode : Str → Except Str EventEnvelope) (weather : Nat → Weather)
    (subscriber : Subscriber RefreshWorld) (group : ConsumerGroup) (id : Nat) : Prop where
  read : PendingRead weather subscriber group
  owes : id ∈ owed decode subscriber.world.log
  pending : id ∈ group.pending
  present : (pendingView weather subscriber).present id = true

/-- The read of a turn reaches the entry, and decodes. -/
structure WithinReach (decode : Str → Except Str EventEnvelope) (size : Nat) (view : EventStream EntryFields)
    (group : ConsumerGroup) (id : Nat) : Prop where
  clean : Backlog.poisoned (entryKind decode view) (Backlog.window size group.pending) = false
  reached : id ∈ Backlog.window size group.pending

theorem run_refresh {Result : Type} {World : Type}
    (serve : Nat → (request : RefreshCall) → World → RefreshAnswer request × World)
    (program : RefreshProgram Result) (calls : Nat) (world : World) :
    ∃ result later left, program.run serve calls world = ⟨.ok result, later, left⟩ := by
  rcases program.run serve calls world with ⟨error | result, later, left⟩
  · cases error
  · exact ⟨result, later, left, rfl⟩

theorem world_turn {World : Type} (serve : Nat → (request : RefreshCall) → World → RefreshAnswer request × World)
    (subscriber : Subscriber World) : (turn decode size serve subscriber).2.world =
      ((refreshTurn decode size subscriber.backoff).run serve subscriber.calls subscriber.world).world := by
  obtain ⟨⟨report, backoff⟩, later, left, ran⟩ :=
    run_refresh serve (refreshTurn decode size subscriber.backoff) subscriber.calls subscriber.world
  rw [turn, ran]

theorem accounted_turn {ledger : RefreshLedger} {subscriber : Subscriber RefreshWorld}
    (accounted : Accounted decode ledger subscriber.world) :
    ∃ left, Accounted decode left (turn decode size (serveWeather weather) subscriber).2.world := by
  have obeys := @obeys_refreshTurn decode size subscriber.backoff ledger
  have ran : ∃ left, Accounted decode left ((refreshTurn decode size subscriber.backoff).run (serveWeather weather)
      subscriber.calls subscriber.world).world ∧ True :=
    obeys.run (fun _ calls request world => accounted_serveWeather calls request world) accounted
  obtain ⟨left, kept, -⟩ := ran
  exact ⟨left, world_turn (serveWeather weather) subscriber ▸ kept⟩

theorem accounted_afterTurns {ledger : RefreshLedger} {subscriber : Subscriber RefreshWorld}
    (accounted : Accounted decode ledger subscriber.world) (turns : Nat) :
    ∃ left, Accounted decode left (afterTurns decode size (serveWeather weather) turns subscriber).world := by
  induction turns with
  | zero => exact ⟨ledger, accounted⟩
  | succ turns ih =>
    obtain ⟨left, kept⟩ := ih
    rw [show afterTurns decode size (serveWeather weather) (turns + 1) subscriber =
      (turn decode size (serveWeather weather) (afterTurns decode size (serveWeather weather) turns subscriber)).2 from
      Function.iterate_succ_apply' _ _ _]
    exact accounted_turn kept

/-- A read that reaches an owed event delivers it again. -/
theorem processes_of_withinReach {ledger : RefreshLedger} {subscriber : Subscriber RefreshWorld} {group : ConsumerGroup}
    {id : Nat} (accounted : Accounted decode ledger subscriber.world)
    (owedPending : OwedPending decode weather subscriber group id)
    (within : WithinReach decode size (pendingView weather subscriber) group id) :
    Processes (turn decode size (serveWeather weather) subscriber).1 id := by
  obtain ⟨⟨connected, answered, found⟩, owes, -, present⟩ := owedPending
  have good : id ∈ Backlog.goods (entryKind decode (pendingView weather subscriber)) (Backlog.window size group.pending) := by
    have grown := (EventStream.published_prefix_edits subscriber.world.stream (weather subscriber.calls).edits).trans
      (EventStream.published_prefix_edits _ (weather (subscriber.calls + 1)).edits)
    obtain ⟨fields, message, body, read, -⟩ := (accounted.owes id owes).1.mono grown
    have reply : replyEntry (pendingView weather subscriber) id = (id, fields) := by
      rw [replyEntry, EventStream.entry, if_pos present,
        show (pendingView weather subscriber).published[id]? = some fields from body, Option.getD_some]
    refine List.mem_filter.mpr ⟨within.reached, ?_⟩
    rw [entryKind, reply, read]
    rfl
  obtain ⟨messages, parse, ids⟩ := parsed_of_clean within.clean
  have member : id ∈ messages.map StreamMessage.streamId := ids ▸ good
  have connects : serveWeather weather subscriber.calls (.stream .connect) subscriber.world =
      (.ok (), ⟨subscriber.world.stream.edits (weather subscriber.calls).edits, subscriber.world.log⟩) := by
    simp only [serveWeather, serveFaulty, connected]
    rfl
  have reads : serveWeather weather (subscriber.calls + 1) (.stream (.readPending size))
      ⟨subscriber.world.stream.edits (weather subscriber.calls).edits, subscriber.world.log⟩ =
      (.ok ((Backlog.window size group.pending).map (replyEntry (pendingView weather subscriber))),
        ⟨pendingView weather subscriber, .delivered ((Backlog.window size group.pending).map
          (replyEntry (pendingView weather subscriber))) :: subscriber.world.log⟩) := by
    unfold pendingView at found
    simp only [serveWeather, serveFaulty, answered, serveStream, found]
    rfl
  have once : ∃ later left, (readGroupOnce decode size readBlockMs).run
      (fun calls request world => serveWeather weather calls (.stream request) world) subscriber.calls subscriber.world =
      ⟨.ok messages, later, left⟩ := by
    unfold readGroupOnce connection
    simp only [Program.ask_bind, Program.bind_call, Program.run_call, connects, Infrastructure.answered,
      Program.bind_done, reads]
    change ∃ later left, Program.run _ (Program.ofExcept (parsed decode (pendingView weather subscriber)
      (Backlog.window size group.pending)) >>= _) _ _ = _
    rw [parse]
    cases messages with
    | nil => cases member
    | cons message rest => exact ⟨_, _, rfl⟩
  obtain ⟨later, left, once⟩ := once
  have grouped : (onStream (readGroup decode size readBlockMs)).run (serveWeather weather) subscriber.calls
      subscriber.world = ⟨.ok (.ok messages), later, left⟩ := by
    rw [onStream, Program.run_embed]
    change Program.run (fun calls request world => serveWeather weather calls (.stream request) world)
      (readGroup decode size readBlockMs).outcome subscriber.calls subscriber.world = _
    rw [Program.run_outcome, readGroup, Program.run_bind, Program.run_outcome, once]
    rfl
  refine ⟨messages, ?_, member⟩
  obtain ⟨_, last, stopped, processed⟩ := run_refresh (serveWeather weather) (processBatch messages) later left
  unfold turn refreshTurn
  rw [Program.run_bind, grouped]
  cases messages with
  | nil => cases member
  | cons message rest =>
    dsimp only
    rw [List.isEmpty_cons, Bool.not_false, if_pos rfl, Program.run_bind, processed]
    rfl

/-- A subscriber that has just started. -/
def started (stream : EventStream EntryFields) : Subscriber RefreshWorld := ⟨backoffInitial, 0, ⟨stream, []⟩⟩

/-- The subscriber before a turn. -/
def beforeTurn (decode : Str → Except Str EventEnvelope) (size : Nat) (weather : Nat → Weather)
    (stream : EventStream EntryFields) (turns : Nat) : Subscriber RefreshWorld :=
  afterTurns decode size (serveWeather weather) turns (started stream)

/-- Rebuilds are acknowledged after their reload only; one whose reload has failed stays, and the
next read of pending entries that is answered delivers it again. -/
structure Replays (decode : Str → Except Str EventEnvelope) (size : Nat) (weather : Nat → Weather)
    (stream : EventStream EntryFields) (turns : Nat) : Prop where
  acked : AckedAfterReload decode (beforeTurn decode size weather stream turns).world
  kept : KeepsOwed decode (beforeTurn decode size weather stream turns).world
  delivered : ∀ group id, OwedPending decode weather (beforeTurn decode size weather stream turns) group id →
    Processes (turn decode size (serveWeather weather) (beforeTurn decode size weather stream turns)).1 id

theorem accounted_beforeTurn (stream : EventStream EntryFields) (turns : Nat) :
    ∃ ledger, Accounted decode ledger (beforeTurn decode size weather stream turns).world := by
  refine @accounted_afterTurns decode size weather ⟨[], none⟩ _ ?_ turns
  exact
    { acks := fun past id acked => nomatch List.suffix_nil.mp acked
      owes := fun id member => nomatch member
      last := fun id member => nomatch member
      lastDue := fun _ id member => nomatch member
      settled := fun _ id member => nomatch member
      holds := fun message member => nomatch member
      rebuilt := fun message member => nomatch member
      delivered := fun message member => nomatch member
      reloaded := fun _ message member => nomatch member }

/-- In any weather rebuilds are acknowledged only after their reload, and while the reads of pending
entries reach the owed ones these are replayed. -/
theorem rebuilds_replay (decode : Str → Except Str EventEnvelope) (size : Nat) (weather : Nat → Weather)
    (stream : EventStream EntryFields)
    (within : ∀ turns group id, OwedPending decode weather (beforeTurn decode size weather stream turns) group id →
      WithinReach decode size (pendingView weather (beforeTurn decode size weather stream turns)) group id)
    (turns : Nat) : Replays decode size weather stream turns := by
  obtain ⟨ledger, accounted⟩ := @accounted_beforeTurn decode size weather stream turns
  exact
    { acked := accounted.ackedAfterReload
      kept := accounted.keepsOwed
      delivered := fun group id owedPending =>
        processes_of_withinReach accounted owedPending (within turns group id owedPending) }

end Runs

/-! ### Reloads that fail at first -/

/-- Redis answers, nothing else touches the stream, and reloads fail at first. -/
def failsBefore (first : Nat) (calls : Nat) : Weather where
  edits := []
  fault := none
  reload := if calls < first then .error "pool timed out while waiting for an open connection" else .ok 1

theorem published_beforeTurn {decode : Str → Except Str EventEnvelope} {size first : Nat}
    (stream : EventStream EntryFields) (turns : Nat) :
    (beforeTurn decode size (failsBefore first) stream turns).world.stream.published = stream.published := by
  induction turns with
  | zero => rfl
  | succ turns ih =>
    rw [beforeTurn, afterTurns, Function.iterate_succ_apply', ← afterTurns, ← beforeTurn, world_turn]
    have obeys := @obeys_refreshTurn decode size (beforeTurn decode size (failsBefore first) stream turns).backoff ⟨[], none⟩
    have kept (ledger : RefreshLedger) (calls : Nat) (request : RefreshCall) (world : RefreshWorld)
        (same : world.stream.published = stream.published) (_ : (refreshDiscipline decode).allows ledger request) :
        (serveWeather (failsBefore first) calls request world).2.stream.published = stream.published := by
      cases request with
      | stream request => exact (published_serveStream request world.stream).trans same
      | reloadAndSwap => exact same
      | sleep milliseconds => exact same
    obtain ⟨-, same, -⟩ := Program.Obeys.run (fun ledger calls request world => kept ledger calls request world) obeys ih
    exact same

/-- One rebuild. -/
def singleStream : EventStream EntryFields where
  published := [[("envelope", "event")]]
  removed := []
  group := none

theorem withinReach_single (turns : Nat) {group : ConsumerGroup} {id : Nat}
    (owedPending : OwedPending decodeEvent (failsBefore 11)
      (beforeTurn decodeEvent readBatchSize (failsBefore 11) singleStream turns) group id) :
    WithinReach decodeEvent readBatchSize
      (pendingView (failsBefore 11) (beforeTurn decodeEvent readBatchSize (failsBefore 11) singleStream turns)) group id := by
  have published : (pendingView (failsBefore 11)
      (beforeTurn decodeEvent readBatchSize (failsBefore 11) singleStream turns)).published = singleStream.published :=
    published_beforeTurn singleStream turns
  obtain ⟨ledger, accounted⟩ := @accounted_beforeTurn decodeEvent readBatchSize (failsBefore 11) singleStream turns
  constructor
  · refine List.any_eq_false.mpr fun other _ => ?_
    rw [decide_eq_true_eq, entryKind, replyEntry, EventStream.entry, published]
    by_cases here : (pendingView (failsBefore 11)
        (beforeTurn decodeEvent readBatchSize (failsBefore 11) singleStream turns)).present other = true
    · rw [if_pos here]
      cases other with
      | zero =>
        intro poison
        cases poison
      | succ other =>
        intro poison
        cases poison
    · rw [if_neg here]
      intro poison
      cases poison
  · obtain ⟨⟨fields, -, found, -⟩, -⟩ := accounted.owes id owedPending.owes
    rw [published_beforeTurn] at found
    have first : id = 0 := by
      have within := (List.getElem?_eq_some_iff.mp found).1
      change id < 1 at within
      omega
    subst first
    have pending := owedPending.pending
    have ascending := group.ascending
    generalize group.pending = ids at pending ascending
    cases ids with
    | nil => cases pending
    | cons head rest =>
      rcases List.mem_cons.mp pending with rfl | later
      · exact List.mem_cons_self
      · exact absurd ((List.pairwise_cons.mp ascending).1 0 later) (Nat.not_lt_zero _)

/-- The reload of the only rebuild fails at first; the rebuild is owed, and replayed. -/
theorem rebuilds_replay_single :
    0 ∈ owed decodeEvent (beforeTurn decodeEvent readBatchSize (failsBefore 11) singleStream 1).world.log ∧
      Replays decodeEvent readBatchSize (failsBefore 11) singleStream 1 :=
  ⟨by decide +kernel, rebuilds_replay decodeEvent readBatchSize (failsBefore 11) singleStream
    (fun turns _ _ owedPending => withinReach_single turns owedPending) 1⟩

/-- A rebuild behind as many entries without an envelope as a read holds. -/
def crowdedStream : EventStream EntryFields where
  published := List.replicate readBatchSize [] ++ ([[("envelope", "event")]] : List EntryFields)
  removed := []
  group := none

/-- All of them are pending. -/
def crowdedPending : EventStream EntryFields :=
  crowdedStream.withGroup ⟨65, List.range 65, List.pairwise_lt_range, fun _ member => List.mem_range.mp member⟩

/-- Where nothing else happens, a program of the stream runs as against the stream alone. -/
theorem run_undisturbed {Result : Type} {first : Nat} (program : StreamProgram Result) (calls : Nat)
    (world : RefreshWorld) : ∃ log, program.run
        (fun calls request world => serveWeather (failsBefore first) calls (.stream request) world) calls world =
      ⟨(program.run (fun _ => serveStream) calls world.stream).outcome,
        (program.run (fun _ => serveStream) calls world.stream).calls,
        ⟨(program.run (fun _ => serveStream) calls world.stream).world, log⟩⟩ := by
  induction program generalizing calls world with
  | done result => exact ⟨world.log, rfl⟩
  | fail error => exact ⟨world.log, rfl⟩
  | call request next ih => exact ih _ _ _

/-- A turn that reads nothing leaves the stream as it is. -/
theorem turn_idle {decode : Str → Except Str EventEnvelope} {size first backoff calls : Nat}
    {stream : EventStream EntryFields} {group : ConsumerGroup} {log : List RefreshEvent}
    (here : stream.group = some group) (idle : readOnce decode size stream group = (.ok [], stream)) :
    ∃ later left, turn decode size (serveWeather (failsBefore first)) ⟨backoff, calls, ⟨stream, log⟩⟩ =
      (.ok [], ⟨backoffInitial, later, ⟨stream, left⟩⟩) := by
  have grouped : stream.ensureGroup = stream := by simp only [EventStream.ensureGroup, here]
  obtain ⟨later, ran⟩ := @run_readGroup decode size readBlockMs stream calls
  rw [grouped, here, Option.getD_some, idle] at ran
  obtain ⟨left, whole⟩ := @run_undisturbed _ first (readGroup decode size readBlockMs) calls ⟨stream, log⟩
  rw [ran] at whole
  have onTurn : (onStream (readGroup decode size readBlockMs)).run (serveWeather (failsBefore first)) calls
      ⟨stream, log⟩ = ⟨.ok (.ok []), later, ⟨stream, left⟩⟩ := by
    rw [onStream, Program.run_embed]
    change Program.run (fun calls request world => serveWeather (failsBefore first) calls (.stream request) world)
      (readGroup decode size readBlockMs).outcome calls ⟨stream, log⟩ = _
    rw [Program.run_outcome, whole]
  refine ⟨later, left, ?_⟩
  unfold turn refreshTurn
  rw [Program.run_bind, onTurn]
  rfl

theorem readOnce_crowdedPending : readOnce decodeEvent readBatchSize crowdedPending
    ⟨65, List.range 65, List.pairwise_lt_range, fun _ member => List.mem_range.mp member⟩ = (.ok [], crowdedPending) := by
  rw [readOnce_fresh (by decide +kernel) (by decide +kernel)]
  have nothing : crowdedPending.nextFor readBatchSize
      ⟨65, List.range 65, List.pairwise_lt_range, fun _ member => List.mem_range.mp member⟩ = [] := by
    decide +kernel
  have same : crowdedPending.withGroup (crowdedPending.readFresh readBatchSize
      ⟨65, List.range 65, List.pairwise_lt_range, fun _ member => List.mem_range.mp member⟩) = crowdedPending := by
    decide +kernel
  rw [nothing, same]
  rfl

theorem crowded_after (later : Nat) :
    (beforeTurn decodeEvent readBatchSize (failsBefore 11) crowdedStream (2 + later)).world.stream = crowdedPending := by
  induction later with
  | zero => decide +kernel
  | succ later ih =>
    rw [← Nat.add_assoc, beforeTurn, afterTurns, Function.iterate_succ_apply', ← afterTurns, ← beforeTurn]
    generalize beforeTurn decodeEvent readBatchSize (failsBefore 11) crowdedStream (2 + later) = subscriber at ih
    obtain ⟨backoff, calls, stream, log⟩ := subscriber
    change stream = crowdedPending at ih
    subst ih
    obtain ⟨next, left, turned⟩ := @turn_idle _ _ 11 backoff calls _ _ log rfl readOnce_crowdedPending
    rw [turned]

theorem crowded_silent (later : Nat) :
    ¬ Processes (turn decodeEvent readBatchSize (serveWeather (failsBefore 11))
      (beforeTurn decodeEvent readBatchSize (failsBefore 11) crowdedStream (2 + later))).1 64 := by
  have stream := crowded_after later
  generalize beforeTurn decodeEvent readBatchSize (failsBefore 11) crowdedStream (2 + later) = subscriber at stream
  obtain ⟨backoff, calls, left, log⟩ := subscriber
  change left = crowdedPending at stream
  subst stream
  obtain ⟨next, left, turned⟩ := @turn_idle _ _ 11 backoff calls _ _ log rfl readOnce_crowdedPending
  rw [turned]
  rintro ⟨messages, read, member⟩
  cases read
  cases member

/-- Behind entries without an envelope that fill every read, a rebuild whose reload has failed is
never delivered again, though all later reloads would succeed. -/
theorem crowdedStream_lost :
    64 ∈ owed decodeEvent (beforeTurn decodeEvent readBatchSize (failsBefore 11) crowdedStream 2).world.log ∧
      (∀ later, (beforeTurn decodeEvent readBatchSize (failsBefore 11) crowdedStream (2 + later)).world.stream =
          crowdedPending ∧
        ¬ Processes (turn decodeEvent readBatchSize (serveWeather (failsBefore 11))
          (beforeTurn decodeEvent readBatchSize (failsBefore 11) crowdedStream (2 + later))).1 64) ∧
      ¬ ∀ turns, Replays decodeEvent readBatchSize (failsBefore 11) crowdedStream turns := by
  have owes : 64 ∈ owed decodeEvent (beforeTurn decodeEvent readBatchSize (failsBefore 11) crowdedStream 2).world.log := by
    decide +kernel
  refine ⟨owes, fun later => ⟨crowded_after later, crowded_silent later⟩, fun replays => crowded_silent 0 ?_⟩
  have view : pendingView (failsBefore 11) (beforeTurn decodeEvent readBatchSize (failsBefore 11) crowdedStream 2) =
      crowdedPending := crowded_after 0
  refine (replays 2).delivered ⟨65, List.range 65, List.pairwise_lt_range, fun _ member => List.mem_range.mp member⟩ 64 ?_
  exact ⟨⟨rfl, rfl, by rw [view]; rfl⟩, owes, List.mem_range.mpr (by omega), by rw [view]; rfl⟩

end SkillLayer.McpServer
