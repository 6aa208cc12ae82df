import SkillLayer.Infrastructure.Migrations

/-! What `schema_migrations` tells in every run: a beginning of the list, all of it once a call has
returned well, and each body executed once as long as sessions last. -/

namespace SkillLayer.Infrastructure
namespace Boots

variable {texts : Str → Str} {boots : Boots} {applied later : List Str} {phase : MigrationPhase} {batch : Batch}
  {call : Nat}

theorem migrationIds_nodup : migrationIds.Nodup := by decide

theorem ids_migrations (texts : Str → Str) : (migrations texts).map Prod.fst = migrationIds := by
  simp [migrations, Function.comp_def]

/-! ### Order, whatever goes wrong -/

/-- All before the batch in the list has been applied. -/
def Due (texts : Str → Str) (applied : List Str) (batch : Batch) : Prop :=
  ∃ done sql rest, migrations texts = done ++ (batch.migrationId, sql) :: rest ∧
    done.map Prod.fst ⊆ applied ∧ stripBeginCommitWrapper batch.migrationId sql = .ok batch.innerBody

/-- What has been applied where a call stands. -/
def Placed (texts : Str → Str) (applied : List Str) : MigrationPhase → Prop
  | .looping appliedIds rest =>
    appliedIds ⊆ applied ∧ ∃ done, migrations texts = done ++ rest ∧ done.map Prod.fst ⊆ applied
  | .applying appliedIds batch rest =>
    appliedIds ⊆ applied ∧ ∃ done sql, migrations texts = done ++ (batch.migrationId, sql) :: rest ∧
      done.map Prod.fst ⊆ applied ∧ stripBeginCommitWrapper batch.migrationId sql = .ok batch.innerBody
  | .unlocking (.ok ()) => migrationIds ⊆ applied
  | .returned (.ok ()) => migrationIds ⊆ applied
  | _ => True

structure InOrder (texts : Str → Str) (boots : Boots) : Prop where
  begun : boots.database.applied <+: migrationIds
  once : boots.database.applied = recordAll (boots.database.committed.map Batch.migrationId)
  bodies : ∀ batch ∈ boots.database.committed, IsBatch texts batch
  placed : ∀ call phase, boots.calls call = some phase → Placed texts boots.database.applied phase
  due : ∀ batch ∈ boots.adrift, Due texts boots.database.applied batch

theorem Due.isBatch (due : Due texts applied batch) : IsBatch texts batch := by
  obtain ⟨done, sql, rest, split, -, wrapped⟩ := due
  exact ⟨sql, by simp [split], wrapped⟩

theorem Due.mono (grown : applied ⊆ later) (due : Due texts applied batch) : Due texts later batch := by
  obtain ⟨done, sql, rest, split, seen, wrapped⟩ := due
  exact ⟨done, sql, rest, split, List.Subset.trans seen grown, wrapped⟩

theorem Placed.mono (grown : applied ⊆ later) (placed : Placed texts applied phase) : Placed texts later phase := by
  match phase, placed with
  | .looping _ _, ⟨known, done, split, seen⟩ => exact ⟨List.Subset.trans known grown, done, split, List.Subset.trans seen grown⟩
  | .applying _ _ _, ⟨known, done, sql, split, seen, wrapped⟩ =>
    exact ⟨List.Subset.trans known grown, done, sql, split, List.Subset.trans seen grown, wrapped⟩
  | .unlocking (.ok ()), all => exact List.Subset.trans all grown
  | .returned (.ok ()), all => exact List.Subset.trans all grown
  | .unlocking (.error _), _ => trivial
  | .returned (.error _), _ => trivial
  | .locking, _ => trivial
  | .bootstrapping, _ => trivial
  | .reading, _ => trivial

theorem Placed.due {appliedIds : List Str} {rest : List Migration}
    (placed : Placed texts applied (.applying appliedIds batch rest)) : Due texts applied batch := by
  obtain ⟨-, done, sql, split, seen, wrapped⟩ := placed
  exact ⟨done, sql, rest, split, seen, wrapped⟩

@[simp] theorem applied_bootstrap (database : MigratedDatabase) : database.bootstrap.applied = database.applied := rfl

@[simp] theorem applied_commit (database : MigratedDatabase) (batch : Batch) :
    (database.commit batch).applied = recordOnce database.applied batch.migrationId := rfl

/-- A call goes on, and what was applied and committed stays. -/
theorem InOrder.wrote (inOrder : InOrder texts boots) {database : MigratedDatabase}
    (sameApplied : database.applied = boots.database.applied)
    (sameCommitted : database.committed = boots.database.committed)
    (here : Placed texts boots.database.applied phase) : InOrder texts (boots.wrote database call phase) where
  begun := sameApplied ▸ inOrder.begun
  once := by
    simp only [Boots.wrote, sameApplied, sameCommitted]
    exact inOrder.once
  bodies := sameCommitted ▸ inOrder.bodies
  placed other stands found := by
    simp only [Boots.wrote, sameApplied] at found ⊢
    by_cases same : other = call
    · subst same
      rw [Function.update_self] at found
      exact Option.some.inj found ▸ here
    · rw [Function.update_of_ne same] at found
      exact inOrder.placed other stands found
  due := by
    simp only [Boots.wrote, sameApplied]
    exact inOrder.due

theorem InOrder.move (inOrder : InOrder texts boots) (here : Placed texts boots.database.applied phase) :
    InOrder texts (boots.move call phase) :=
  inOrder.wrote rfl rfl here

theorem InOrder.gone (inOrder : InOrder texts boots) : InOrder texts (boots.gone call) where
  begun := inOrder.begun
  once := inOrder.once
  bodies := inOrder.bodies
  placed other stands found := by
    simp only [Boots.gone] at found
    by_cases same : other = call
    · subst same
      rw [Function.update_self] at found
      cases found
    · rw [Function.update_of_ne same] at found
      exact inOrder.placed other stands found
  due := inOrder.due

/-- A batch that is due may be committed at any time. -/
theorem InOrder.commit (inOrder : InOrder texts boots) (due : Due texts boots.database.applied batch) :
    InOrder texts { boots with database := boots.database.commit batch } where
  begun := by
    obtain ⟨done, sql, rest, split, seen, -⟩ := due
    have ids : migrationIds = done.map Prod.fst ++ batch.migrationId :: rest.map Prod.fst := by
      rw [← ids_migrations texts, split, List.map_append, List.map_cons]
    exact recordOnce_prefix migrationIds_nodup inOrder.begun ids seen
  once := by
    rw [applied_commit, inOrder.once]
    simp only [MigratedDatabase.commit, List.map_append, List.map_singleton, recordAll_append_singleton]
  bodies other member := by
    rcases List.mem_append.mp member with old | new
    · exact inOrder.bodies other old
    · obtain rfl := List.mem_singleton.mp new
      exact due.isBatch
  placed other stands found := (inOrder.placed other stands found).mono subset_recordOnce
  due other member := (inOrder.due other member).mono subset_recordOnce

theorem mem_applied_commit : batch.migrationId ∈ (boots.database.commit batch).applied :=
  mem_recordOnce.mpr (.inr rfl)

theorem inOrder_step {after : Boots} (inOrder : InOrder texts boots) (step : Step texts boots after) :
    InOrder texts after := by
  cases step with
  | start call fresh => exact inOrder.move trivial
  | unconnected call error here => exact inOrder.move trivial
  | lock call here free => exact inOrder.wrote rfl rfl trivial
  | bootstrap call here => exact inOrder.wrote rfl rfl trivial
  | read call appliedIds here created selected =>
    refine inOrder.move ⟨?_, [], rfl, List.nil_subset _⟩
    rw [MigratedDatabase.applied, created]
    exact selected.subset
  | skip call here known =>
    obtain ⟨seen, done, split, before⟩ := inOrder.placed _ _ here
    refine inOrder.move ⟨seen, done ++ [_], split.trans (List.append_cons _ _ _), ?_⟩
    rw [List.map_append]
    exact List.append_subset.mpr ⟨before, List.cons_subset.mpr ⟨seen known, List.nil_subset _⟩⟩
  | refuse call here unknown bare => exact inOrder.move trivial
  | send call here unknown wrapped =>
    obtain ⟨seen, done, split, before⟩ := inOrder.placed _ _ here
    exact inOrder.move ⟨seen, done, _, split, before, wrapped⟩
  | commit call here =>
    have due := (inOrder.placed _ _ here).due
    obtain ⟨seen, done, sql, split, before, -⟩ := inOrder.placed _ _ here
    refine (inOrder.commit due).move ?_
    refine ⟨List.Subset.trans seen subset_recordOnce, done ++ [_], split.trans (List.append_cons _ _ _), ?_⟩
    rw [List.map_append]
    exact List.append_subset.mpr
      ⟨List.Subset.trans before subset_recordOnce, List.cons_subset.mpr ⟨mem_applied_commit, List.nil_subset _⟩⟩
  | commitUnheard call error here => exact (inOrder.commit (inOrder.placed _ _ here).due).move trivial
  | fail call error here statement => exact inOrder.move trivial
  | finish call here =>
    obtain ⟨-, done, split, before⟩ := inOrder.placed _ _ here
    rw [List.append_nil] at split
    rw [← split, ids_migrations] at before
    exact inOrder.move before
  | @unlock call result here released =>
    have placed := inOrder.placed _ _ here
    refine inOrder.wrote rfl rfl ?_
    match result, placed with
    | .ok (), all => exact all
    | .error _, _ => trivial
  | die call here quiet => exact inOrder.gone

theorem inOrder_fault {after : Boots} (inOrder : InOrder texts boots) (fault : Fault boots after) :
    InOrder texts after := by
  cases fault with
  | sessionLost => exact ⟨inOrder.begun, inOrder.once, inOrder.bodies, inOrder.placed, inOrder.due⟩
  | unheard call error here =>
    have moved : InOrder texts (boots.move call (.unlocking (.error error))) := inOrder.move trivial
    refine ⟨moved.begun, moved.once, moved.bodies, moved.placed, ?_⟩
    exact List.forall_mem_cons.mpr ⟨(inOrder.placed _ _ here).due, inOrder.due⟩
  | died call here =>
    have gone : InOrder texts (boots.gone call) := inOrder.gone
    refine ⟨gone.begun, gone.once, gone.bodies, gone.placed, ?_⟩
    exact List.forall_mem_cons.mpr ⟨(inOrder.placed _ _ here).due, inOrder.due⟩
  | @landed batch others here =>
    have due (other : Batch) (member : other ∈ batch :: others) := inOrder.due other (here.mem_iff.mpr member)
    have landed := inOrder.commit (due batch List.mem_cons_self)
    exact ⟨landed.begun, landed.once, landed.bodies, landed.placed,
      fun other member => (due other (List.mem_cons_of_mem _ member)).mono subset_recordOnce⟩
  | vanished here =>
    exact ⟨inOrder.begun, inOrder.once, inOrder.bodies, inOrder.placed,
      fun other member => inOrder.due other (here.mem_iff.mpr (List.mem_cons_of_mem _ member))⟩

theorem inOrder_opening (opening : Opening texts boots) : InOrder texts boots where
  begun := opening.begun
  once := by
    rw [opening.applied]
    exact (recordAll_of_nodup (migrationIds_nodup.sublist opening.begun.sublist)).symm
  bodies := opening.bodies
  placed call phase found := by
    rw [opening.idle call] at found
    cases found
  due := by
    rw [opening.still]
    exact fun _ => nofun

theorem inOrder (reached : (runs texts).Reachable boots) : InOrder texts boots := by
  apply reached.invariant
  · exact fun start opening => inOrder_opening opening
  · rintro before after inOrder (step | fault)
    · exact inOrder_step inOrder step
    · exact inOrder_fault inOrder fault

/-- However the calls interleave and whatever goes wrong, the rows are a beginning of the list in the order of
the first commits, only bodies of the files were executed, and a call that returned well has seen all of them applied. -/
theorem migrations_in_order (reached : (runs texts).Reachable boots) :
    boots.database.applied <+: migrationIds ∧
      boots.database.applied = recordAll (boots.database.committed.map Batch.migrationId) ∧
      (∀ batch ∈ boots.database.committed, IsBatch texts batch) ∧
      ∀ call, boots.calls call = some (.returned (.ok ())) → boots.database.applied = migrationIds := by
  have ordered := inOrder reached
  refine ⟨ordered.begun, ordered.once, ordered.bodies, fun call returned => ?_⟩
  exact eq_of_prefix_of_subset migrationIds_nodup ordered.begun (ordered.placed call _ returned)

theorem calm_reached (reached : (calmRuns texts).Reachable boots) : (runs texts).Reachable boots := by
  apply reached.invariant
  · exact fun start opening => .start opening
  · exact fun before after reachedThen step => reachedThen.next (.inl step)

theorem opening_fresh (texts : Str → Str) :
    Opening texts ⟨⟨none, none, []⟩, fun _ => none, []⟩ :=
  ⟨fun _ => rfl, rfl, List.nil_prefix, rfl, fun _ => nofun⟩

/-- Files with nothing between the statements that wrap them. -/
def bareTexts : Str → Str := fun _ => "BEGIN;COMMIT;"

/-- A call has sent the first of these to a new database. -/
def firstSent : Boots :=
  (((((Boots.mk ⟨none, none, []⟩ (fun _ => none) []).move 0 .locking).wrote ⟨some 0, none, []⟩ 0 .bootstrapping).wrote
    ⟨some 0, some [], []⟩ 0 .reading).move 0 (.looping [] (migrations bareTexts))).move 0
      (.applying [] ⟨"001_initial_schema", []⟩ ((migrations bareTexts).drop 1))

theorem firstSent_reached : (calmRuns bareTexts).Reachable firstSent := by
  have listed : (calmRuns bareTexts).Reachable _ := .next (.next (.next (.next (.start (opening_fresh bareTexts))
    (.start 0 rfl)) (.lock 0 rfl fun _ => nofun)) (.bootstrap 0 rfl)) (.read 0 [] rfl rfl (.refl _))
  exact listed.next (@Step.send bareTexts _ 0 [] ("001_initial_schema", "BEGIN;COMMIT;")
    ((migrations bareTexts).drop 1) [] rfl (by simp) (by decide))

/-- The call gives up on the first batch, which lands all the same. -/
theorem migrations_in_order_landed :
    [("001_initial_schema" : Str)] <+: migrationIds ∧
      [("001_initial_schema" : Str)] = recordAll [("001_initial_schema" : Str)] ∧
      (∀ batch ∈ [(⟨"001_initial_schema", []⟩ : Batch)], IsBatch bareTexts batch) ∧
      ∀ call, Function.update firstSent.calls 0 (some (.unlocking (.error (.migration [])))) call =
        some (.returned (.ok ())) → [("001_initial_schema" : Str)] = migrationIds := by
  refine @migrations_in_order bareTexts { firstSent.move 0 (.unlocking (.error (.migration []))) with
    database := firstSent.database.commit ⟨"001_initial_schema", []⟩, adrift := [] } ?_
  have sent : (runs bareTexts).Reachable firstSent := calm_reached firstSent_reached
  have unheard : (runs bareTexts).Reachable _ := sent.next (.inr (.unheard 0 (.migration []) rfl))
  exact unheard.next (.inr (.landed (.refl _)))

/-! ### Once, as long as sessions last -/

/-- One call at a time works under the lock, and it knows of all that is applied further down its list. -/
structure Exclusive (boots : Boots) : Prop where
  holder : ∀ call phase, boots.calls call = some phase → phase.inside = true →
    boots.database.advisoryLock = some call
  looping : ∀ call appliedIds rest, boots.calls call = some (.looping appliedIds rest) →
    ∀ migration ∈ rest, migration.1 ∈ boots.database.applied → migration.1 ∈ appliedIds
  applying : ∀ call appliedIds batch rest, boots.calls call = some (.applying appliedIds batch rest) →
    batch.migrationId ∉ boots.database.applied ∧
      ∀ migration ∈ rest, migration.1 ∈ boots.database.applied → migration.1 ∈ appliedIds
  once : boots.database.committed.map Batch.migrationId = boots.database.applied

theorem Exclusive.only (exclusive : Exclusive boots) {other : Nat} {stands : MigrationPhase}
    (here : boots.calls call = some phase) (inside : phase.inside = true)
    (there : boots.calls other = some stands) (alsoInside : stands.inside = true) : other = call :=
  Option.some.inj ((exclusive.holder other stands there alsoInside).symm.trans (exclusive.holder call phase here inside))

/-- A call is where it was, or it is the one that moved. -/
theorem calls_wrote {database : MigratedDatabase} {other : Nat} {stands : MigrationPhase}
    (found : (boots.wrote database call phase).calls other = some stands) :
    (other = call ∧ stands = phase) ∨ (other ≠ call ∧ boots.calls other = some stands) := by
  simp only [Boots.wrote] at found
  by_cases same : other = call
  · subst same
    rw [Function.update_self] at found
    exact .inl ⟨rfl, (Option.some.inj found).symm⟩
  · rw [Function.update_of_ne same] at found
    exact .inr ⟨same, found⟩

/-- What a call must know when it moves on. -/
def Knows (applied : List Str) : MigrationPhase → Prop
  | .looping appliedIds rest => ∀ migration ∈ rest, migration.1 ∈ applied → migration.1 ∈ appliedIds
  | .applying appliedIds batch rest =>
    batch.migrationId ∉ applied ∧ ∀ migration ∈ rest, migration.1 ∈ applied → migration.1 ∈ appliedIds
  | _ => True

/-- A call moves on while what is applied stays. -/
theorem Exclusive.wrote (exclusive : Exclusive boots) {database : MigratedDatabase}
    (sameApplied : database.applied = boots.database.applied)
    (sameCommitted : database.committed = boots.database.committed)
    (own : phase.inside = true → database.advisoryLock = some call)
    (others : ∀ other stands, other ≠ call → boots.calls other = some stands → stands.inside = true →
      database.advisoryLock = some other)
    (knows : Knows boots.database.applied phase) : Exclusive (boots.wrote database call phase) where
  holder other stands found inside := by
    rcases calls_wrote found with ⟨rfl, rfl⟩ | ⟨different, found⟩
    · exact own inside
    · exact others other stands different found inside
  looping other appliedIds rest found := by
    simp only [Boots.wrote, sameApplied]
    rcases calls_wrote found with ⟨rfl, rfl⟩ | ⟨-, found⟩
    · exact knows
    · exact exclusive.looping other appliedIds rest found
  applying other appliedIds batch rest found := by
    simp only [Boots.wrote, sameApplied]
    rcases calls_wrote found with ⟨rfl, rfl⟩ | ⟨-, found⟩
    · exact knows
    · exact exclusive.applying other appliedIds batch rest found
  once := by
    simp only [Boots.wrote, sameApplied, sameCommitted]
    exact exclusive.once

theorem Exclusive.move (exclusive : Exclusive boots)
    (own : phase.inside = true → boots.database.advisoryLock = some call)
    (knows : Knows boots.database.applied phase) : Exclusive (boots.move call phase) :=
  exclusive.wrote rfl rfl own (fun other stands _ found inside => exclusive.holder other stands found inside) knows

/-- The call inside commits its batch, and no other one is there to have overlooked it. -/
theorem Exclusive.commit (exclusive : Exclusive boots) {appliedIds : List Str} {rest : List Migration}
    (here : boots.calls call = some (.applying appliedIds batch rest))
    (knows : Knows (boots.database.commit batch).applied phase) :
    Exclusive (boots.wrote (boots.database.commit batch) call phase) := by
  have locked := exclusive.holder call _ here rfl
  have alone {other : Nat} {stands : MigrationPhase} (different : other ≠ call)
      (found : boots.calls other = some stands) : stands.inside = false := by
    by_contra inside
    exact different (exclusive.only here rfl found (Bool.eq_true_of_not_eq_false inside))
  refine ⟨?_, ?_, ?_, ?_⟩
  · intro other stands found inside
    rcases calls_wrote found with ⟨rfl, rfl⟩ | ⟨different, found⟩
    · exact locked
    · exact absurd (alone different found) (by simp [inside])
  · intro other appliedIds rest found
    rcases calls_wrote found with ⟨rfl, rfl⟩ | ⟨different, found⟩
    · exact knows
    · cases alone different found
  · intro other appliedIds batch rest found
    rcases calls_wrote found with ⟨rfl, rfl⟩ | ⟨different, found⟩
    · exact knows
    · cases alone different found
  · have fresh := (exclusive.applying call _ _ _ here).1
    calc (boots.database.committed ++ [batch]).map Batch.migrationId
        = boots.database.applied ++ [batch.migrationId] := by
          rw [List.map_append, exclusive.once, List.map_singleton]
      _ = (boots.database.commit batch).applied := by rw [applied_commit, recordOnce_of_not_mem fresh]

theorem Exclusive.gone (exclusive : Exclusive boots) : Exclusive (boots.gone call) := by
  have kept {other : Nat} {stands : MigrationPhase} (found : (boots.gone call).calls other = some stands) :
      boots.calls other = some stands := by
    simp only [Boots.gone] at found
    by_cases same : other = call
    · subst same
      rw [Function.update_self] at found
      cases found
    · rwa [Function.update_of_ne same] at found
  exact ⟨fun other stands found => exclusive.holder other stands (kept found),
    fun other appliedIds rest found => exclusive.looping other appliedIds rest (kept found),
    fun other appliedIds batch rest found => exclusive.applying other appliedIds batch rest (kept found),
    exclusive.once⟩

theorem exclusive_step {after : Boots} (inOrder : InOrder texts boots) (exclusive : Exclusive boots)
    (step : Step texts boots after) : Exclusive after := by
  cases step with
  | start call fresh => exact exclusive.move nofun trivial
  | unconnected call error here => exact exclusive.move nofun trivial
  | lock call here free =>
    refine exclusive.wrote rfl rfl (fun _ => rfl) ?_ trivial
    intro other stands different found inside
    have outside := free other (exclusive.holder other stands found inside) stands found
    rw [inside] at outside
    cases outside
  | bootstrap call here =>
    exact exclusive.wrote rfl rfl (fun _ => exclusive.holder call _ here rfl)
      (fun other stands _ found inside => exclusive.holder other stands found inside) trivial
  | read call appliedIds here created selected =>
    refine exclusive.move (fun _ => exclusive.holder call _ here rfl) ?_
    intro migration _ applied
    rw [MigratedDatabase.applied, created] at applied
    exact selected.mem_iff.mpr applied
  | skip call here known =>
    refine exclusive.move (fun _ => exclusive.holder call _ here rfl) ?_
    exact fun migration member => exclusive.looping call _ _ here migration (List.mem_cons_of_mem _ member)
  | refuse call here unknown bare => exact exclusive.move (fun _ => exclusive.holder call _ here rfl) trivial
  | send call here unknown wrapped =>
    have knows := exclusive.looping call _ _ here
    refine exclusive.move (fun _ => exclusive.holder call _ here rfl) ⟨?_, ?_⟩
    · exact fun applied => unknown (knows _ List.mem_cons_self applied)
    · exact fun migration member => knows migration (List.mem_cons_of_mem _ member)
  | @commit call appliedIds batch rest here =>
    refine exclusive.commit here ?_
    intro migration member applied
    rcases mem_recordOnce.mp applied with old | same
    · exact (exclusive.applying call _ _ _ here).2 migration member old
    · -- the ids of the list are distinct, so the batch is not met again
      obtain ⟨-, done, sql, split, -, -⟩ := inOrder.placed _ _ here
      have distinct := migrationIds_nodup
      rw [← ids_migrations texts, split, List.map_append, List.map_cons] at distinct
      have apart := (List.nodup_cons.mp (List.nodup_append.mp distinct).2.1).1
      exact absurd (List.mem_map.mpr ⟨migration, member, same⟩) apart
  | commitUnheard call error here => exact exclusive.commit here trivial
  | @fail call phase error here statement =>
    have inside : phase.inside = true := by
      rcases statement with rfl | rfl | ⟨appliedIds, batch, rest, rfl⟩
      · rfl
      · rfl
      · rfl
    exact exclusive.move (fun _ => exclusive.holder call _ here inside) trivial
  | finish call here => exact exclusive.move (fun _ => exclusive.holder call _ here rfl) trivial
  | unlock call here released =>
    refine exclusive.wrote rfl rfl nofun ?_ trivial
    exact fun other stands different found inside => absurd (exclusive.only here rfl found inside) different
  | die call here quiet => exact exclusive.gone

theorem exclusive_opening (opening : Opening texts boots) : Exclusive boots := by
  have idle {call : Nat} {phase : MigrationPhase} (found : boots.calls call = some phase) : False := by
    rw [opening.idle call] at found
    cases found
  exact ⟨fun _ _ found => (idle found).elim, fun _ _ _ found => (idle found).elim,
    fun _ _ _ _ found => (idle found).elim, opening.applied⟩

theorem exclusive (reached : (calmRuns texts).Reachable boots) : Exclusive boots := by
  have both : InOrder texts boots ∧ Exclusive boots := by
    apply reached.invariant
    · exact fun start opening => ⟨inOrder_opening opening, exclusive_opening opening⟩
    · exact fun before after known step => ⟨inOrder_step known.1 step, exclusive_step known.1 known.2 step⟩
  exact both.2

/-- As long as sessions last and batches are decided before their calls go on, at most one call at a time is between
lock and unlock, and no body was ever executed twice, however many processes boot at once, fail or die. -/
theorem migrations_once (reached : (calmRuns texts).Reachable boots) :
    (boots.database.committed.map Batch.migrationId).Nodup ∧
      boots.database.committed.map Batch.migrationId = boots.database.applied ∧
      ∀ call other phase stands, boots.calls call = some phase → boots.calls other = some stands →
        phase.inside = true → stands.inside = true → call = other := by
  have known := exclusive reached
  refine ⟨?_, known.once, ?_⟩
  · rw [known.once]
    exact migrationIds_nodup.sublist (inOrder (calm_reached reached)).begun.sublist
  · exact fun call other phase stands here there inside alsoInside => known.only there alsoInside here inside

/-- The first batch is committed, and the call goes on to the second. -/
theorem migrations_once_first :
    [("001_initial_schema" : Str)].Nodup ∧ [("001_initial_schema" : Str)] = [("001_initial_schema" : Str)] ∧
      ∀ call other phase stands,
        (firstSent.move 0 (.looping [] ((migrations bareTexts).drop 1))).calls call = some phase →
        (firstSent.move 0 (.looping [] ((migrations bareTexts).drop 1))).calls other = some stands →
        phase.inside = true → stands.inside = true → call = other :=
  @migrations_once bareTexts (firstSent.wrote (firstSent.database.commit ⟨"001_initial_schema", []⟩) 0
    (.looping [] ((migrations bareTexts).drop 1))) (firstSent_reached.next (.commit 0 rfl))

end Boots
end SkillLayer.Infrastructure
