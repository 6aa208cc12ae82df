import Mathlib.Data.List.Basic

/-! Loops over items that each read and write their own part of a shared state. -/

namespace SkillLayer

universe u
variable {Item State Part Err : Type u}

/-- Run a step for each item in order, stopping at the first error. -/
def forEach (step : Item → EStateM Err State PUnit) : List Item → EStateM Err State PUnit
  | [] => pure ⟨⟩
  | item :: rest => do
    step item
    forEach step rest

/-- The action ends without an error in the given state. -/
def Succeeds (action : EStateM Err State PUnit) (before after : State) : Prop :=
  action before = .ok ⟨⟩ after

theorem bind_eq_ok {Value Result : Type u} {first : EStateM Err State Value}
    {second : Value → EStateM Err State Result} {before after : State} {result : Result} :
    (first >>= second) before = .ok result after ↔
      ∃ value between, first before = .ok value between ∧
        second value between = .ok result after := by
  simp only [bind, EStateM.bind]
  cases ran : first before with
  | error error state => simp
  | ok value state => simp

theorem succeeds_bind {first second : EStateM Err State PUnit} {before after : State} :
    Succeeds (do first; second) before after ↔
      ∃ between, Succeeds first before between ∧ Succeeds second between after := by
  unfold Succeeds
  simp only [bind, EStateM.bind]
  cases ran : first before with
  | error error state => simp
  | ok _ state => simp

theorem succeeds_forEach_cons {step : Item → EStateM Err State PUnit} {item : Item}
    {rest : List Item} {before after : State} :
    Succeeds (forEach step (item :: rest)) before after ↔
      ∃ between, Succeeds (step item) before between ∧
        Succeeds (forEach step rest) between after :=
  succeeds_bind

theorem succeeds_forEach_nil {step : Item → EStateM Err State PUnit} {before after : State} :
    Succeeds (forEach step []) before after ↔ after = before := by
  simp [Succeeds, forEach, pure, EStateM.pure, eq_comm]

theorem succeeds_forEach_append {step : Item → EStateM Err State PUnit} {items others : List Item}
    {before after : State} :
    Succeeds (forEach step (items ++ others)) before after ↔
      ∃ between, Succeeds (forEach step items) before between ∧
        Succeeds (forEach step others) between after := by
  induction items generalizing before with
  | nil => simp [succeeds_forEach_nil]
  | cons item rest ih =>
    simp only [List.cons_append, succeeds_forEach_cons, ih]
    constructor
    · rintro ⟨first, ran, between, later, last⟩
      exact ⟨between, ⟨first, ran, later⟩, last⟩
    · rintro ⟨between, ⟨first, ran, later⟩, last⟩
      exact ⟨first, ran, between, later, last⟩

/-- A sequence fails in its first action or, where that has finished, in its second. -/
theorem fails_bind {first second : EStateM Err State PUnit} {before after : State} {error : Err} :
    (do first; second) before = .error error after ↔
      first before = .error error after ∨
        ∃ between, Succeeds first before between ∧ second between = .error error after := by
  unfold Succeeds
  simp only [bind, EStateM.bind]
  cases ran : first before with
  | error other state => simp
  | ok _ state => simp

/-- A loop that fails has finished the items before the one that failed. -/
theorem forEach_fails {step : Item → EStateM Err State PUnit} {items : List Item} {before after : State}
    {error : Err} (failed : forEach step items before = .error error after) :
    ∃ done item rest between, items = done ++ item :: rest ∧
      Succeeds (forEach step done) before between ∧ step item between = .error error after := by
  induction items generalizing before with
  | nil => cases failed
  | cons item rest ih =>
    rcases fails_bind.mp failed with atOnce | ⟨between, first, later⟩
    · exact ⟨[], item, rest, before, rfl, succeeds_forEach_nil.mpr rfl, atOnce⟩
    · obtain ⟨done, stopped, others, last, split, finished, fails⟩ := ih later
      refine ⟨item :: done, stopped, others, last, ?_, ?_, fails⟩
      · rw [split, List.cons_append]
      · exact succeeds_forEach_cons.mpr ⟨between, first, finished⟩

/-- Skipping the items that fail a test is running a step that does nothing on them. -/
theorem succeeds_forEach_filter {step : Item → EStateM Err State PUnit} {test : Item → Bool}
    {items : List Item} {before after : State} :
    Succeeds (forEach step (items.filter test)) before after ↔
      Succeeds (forEach (fun item => if test item then step item else pure ⟨⟩) items) before after := by
  induction items generalizing before with
  | nil => rfl
  | cons item rest ih =>
    by_cases passes : test item = true
    · simp [succeeds_forEach_cons, passes, ih]
    · have skipped (between : State) :
          Succeeds (pure ⟨⟩ : EStateM Err State PUnit) before between ↔ between = before := by
        simp [Succeeds, pure, EStateM.pure, eq_comm]
      simp [succeeds_forEach_cons, passes, ih, skipped]

/-- A step that decides and acts on the part its item views, while items that are
apart from it keep theirs. -/
structure LocalStep (inv : State → Prop) (valid : Item → Prop) (view : Item → State → Part)
    (apart : Item → Item → Prop) (accepts : Item → Part → Prop) (effect : Item → Part → Part)
    (step : Item → EStateM Err State PUnit) : Prop where
  succeeds_iff : ∀ {item state}, inv state → valid item →
    ((∃ after, Succeeds (step item) state after) ↔ accepts item (view item state))
  keeps : ∀ {item state after}, inv state → valid item → Succeeds (step item) state after → inv after
  acts : ∀ {item state after}, inv state → valid item → Succeeds (step item) state after →
    view item after = effect item (view item state)
  frame : ∀ {item other state after}, inv state → valid item → apart item other →
    Succeeds (step item) state after → view other after = view other state

namespace LocalStep

variable {inv : State → Prop} {valid : Item → Prop} {view : Item → State → Part}
  {apart : Item → Item → Prop} {accepts : Item → Part → Prop} {effect : Item → Part → Part}
  {step : Item → EStateM Err State PUnit}

/-- A finished loop has kept the invariant and left alone every part apart from its items. -/
theorem forEach_frame (isLocal : LocalStep inv valid view apart accepts effect step)
    {items : List Item} (allValid : ∀ item ∈ items, valid item) {before after : State}
    (holds : inv before) (ran : Succeeds (forEach step items) before after) :
    inv after ∧ ∀ other, (∀ item ∈ items, apart item other) → view other after = view other before := by
  induction items generalizing before with
  | nil =>
    obtain rfl := succeeds_forEach_nil.mp ran
    exact ⟨holds, fun _ _ => rfl⟩
  | cons item rest ih =>
    obtain ⟨between, first, later⟩ := succeeds_forEach_cons.mp ran
    have itemValid := allValid item List.mem_cons_self
    obtain ⟨kept, unchanged⟩ := ih (fun other member => allValid other (List.mem_cons_of_mem _ member))
      (isLocal.keeps holds itemValid first) later
    refine ⟨kept, fun other separate => ?_⟩
    rw [unchanged other fun item member => separate item (List.mem_cons_of_mem _ member),
      isLocal.frame holds itemValid (separate item List.mem_cons_self) first]

/-- Over items that are pairwise apart the loop acts on every part independently. -/
theorem forEach_acts (isLocal : LocalStep inv valid view apart accepts effect step)
    (symmetric : ∀ item other, apart item other → apart other item)
    {items : List Item} (allValid : ∀ item ∈ items, valid item) (separate : items.Pairwise apart)
    {before after : State} (holds : inv before) (ran : Succeeds (forEach step items) before after) :
    ∀ item ∈ items, view item after = effect item (view item before) := by
  induction items generalizing before with
  | nil => exact fun _ member => absurd member List.not_mem_nil
  | cons first rest ih =>
    obtain ⟨between, head, later⟩ := succeeds_forEach_cons.mp ran
    obtain ⟨fromFirst, restSeparate⟩ := List.pairwise_cons.mp separate
    have firstValid := allValid first List.mem_cons_self
    have restValid : ∀ item ∈ rest, valid item := fun item member =>
      allValid item (List.mem_cons_of_mem _ member)
    have kept := isLocal.keeps holds firstValid head
    intro item member
    rcases List.mem_cons.mp member with rfl | inRest
    · have unchanged := (isLocal.forEach_frame restValid kept later).2 item fun other inRest =>
        symmetric item other (fromFirst other inRest)
      rw [unchanged, isLocal.acts holds firstValid head]
    · rw [ih restValid restSeparate kept later item inRest,
        isLocal.frame holds firstValid (fromFirst item inRest) head]

/-- Over items that are pairwise apart the loop finishes exactly when every item
accepts the part it views at the start. -/
theorem forEach_succeeds_iff (isLocal : LocalStep inv valid view apart accepts effect step)
    {items : List Item} (allValid : ∀ item ∈ items, valid item) (separate : items.Pairwise apart)
    {before : State} (holds : inv before) :
    (∃ after, Succeeds (forEach step items) before after) ↔
      ∀ item ∈ items, accepts item (view item before) := by
  induction items generalizing before with
  | nil => simp [succeeds_forEach_nil]
  | cons first rest ih =>
    obtain ⟨fromFirst, restSeparate⟩ := List.pairwise_cons.mp separate
    have firstValid := allValid first List.mem_cons_self
    have restValid : ∀ item ∈ rest, valid item := fun item member =>
      allValid item (List.mem_cons_of_mem _ member)
    have restIff (between : State) (head : Succeeds (step first) before between) :
        (∃ after, Succeeds (forEach step rest) between after) ↔
          ∀ item ∈ rest, accepts item (view item before) := by
      rw [ih restValid restSeparate (isLocal.keeps holds firstValid head)]
      refine forall₂_congr fun item member => ?_
      rw [isLocal.frame holds firstValid (fromFirst item member) head]
    rw [List.forall_mem_cons, ← isLocal.succeeds_iff holds firstValid]
    constructor
    · rintro ⟨after, ran⟩
      obtain ⟨between, head, later⟩ := succeeds_forEach_cons.mp ran
      exact ⟨⟨between, head⟩, (restIff between head).mp ⟨after, later⟩⟩
    · rintro ⟨⟨between, head⟩, accepted⟩
      obtain ⟨after, later⟩ := (restIff between head).mpr accepted
      exact ⟨after, succeeds_forEach_cons.mpr ⟨between, head, later⟩⟩

/-- A loop over items that are pairwise apart has acted on the parts of its items and on no other. -/
theorem forEach_view (isLocal : LocalStep inv valid view apart accepts effect step)
    (symmetric : ∀ item other, apart item other → apart other item)
    {items : List Item} (allValid : ∀ item ∈ items, valid item) (separate : items.Pairwise apart)
    {before after : State} (holds : inv before) (ran : Succeeds (forEach step items) before after)
    {item : Item} (elsewhere : item ∉ items → ∀ other ∈ items, apart other item) :
    (item ∈ items → view item after = effect item (view item before)) ∧
      (item ∉ items → view item after = view item before) :=
  ⟨isLocal.forEach_acts symmetric allValid separate holds ran item,
    fun outside => (isLocal.forEach_frame allValid holds ran).2 item (elsewhere outside)⟩

end LocalStep

/-- A change for an item that acts on the part the item views, while items that are apart from
it keep theirs. -/
structure LocalChange (valid : Item → Prop) (view : Item → State → Part) (apart : Item → Item → Prop)
    (effect : Item → Part → Part) (change : State → Item → State) : Prop where
  acts : ∀ {item} state, valid item → view item (change state item) = effect item (view item state)
  frame : ∀ {item other} state, valid item → apart item other → view other (change state item) = view other state

namespace LocalChange

variable {valid : Item → Prop} {view : Item → State → Part} {apart : Item → Item → Prop}
  {effect : Item → Part → Part} {change : State → Item → State}

theorem foldl_frame (isLocal : LocalChange valid view apart effect change) {items : List Item}
    (allValid : ∀ item ∈ items, valid item) {other : Item} (separate : ∀ item ∈ items, apart item other)
    (state : State) : view other (items.foldl change state) = view other state := by
  induction items generalizing state with
  | nil => rfl
  | cons item rest ih =>
    obtain ⟨itemValid, restValid⟩ := List.forall_mem_cons.mp allValid
    obtain ⟨fromItem, fromRest⟩ := List.forall_mem_cons.mp separate
    rw [List.foldl_cons, ih restValid fromRest, isLocal.frame state itemValid fromItem]

/-- Over items that are pairwise apart the changes act on the parts of these items and on no other. -/
theorem foldl_view (isLocal : LocalChange valid view apart effect change)
    (symmetric : ∀ item other, apart item other → apart other item)
    {items : List Item} (allValid : ∀ item ∈ items, valid item) (separate : items.Pairwise apart)
    {item : Item} (elsewhere : item ∉ items → ∀ other ∈ items, apart other item) (state : State) :
    (item ∈ items → view item (items.foldl change state) = effect item (view item state)) ∧
      (item ∉ items → view item (items.foldl change state) = view item state) := by
  refine ⟨fun member => ?_, fun outside => isLocal.foldl_frame allValid (elsewhere outside) state⟩
  clear elsewhere
  induction items generalizing state with
  | nil => cases member
  | cons first rest ih =>
    obtain ⟨firstValid, restValid⟩ := List.forall_mem_cons.mp allValid
    obtain ⟨fromFirst, restSeparate⟩ := List.pairwise_cons.mp separate
    rw [List.foldl_cons]
    rcases List.mem_cons.mp member with rfl | inRest
    · have unchanged := isLocal.foldl_frame restValid (fun other inRest => symmetric item other (fromFirst other inRest))
        (change state item)
      rw [unchanged, isLocal.acts state firstValid]
    · rw [ih restValid restSeparate _ inRest, isLocal.frame state firstValid (fromFirst item inRest)]

end LocalChange
end SkillLayer
