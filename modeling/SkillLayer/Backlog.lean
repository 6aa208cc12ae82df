import Mathlib.Data.List.Nodup
import Mathlib.Data.List.Perm.Basic
import Mathlib.Logic.Function.Iterate

/-! A backlog that is read through a window: the oldest pending items first, then fresh ones, which
become pending. Good items are handed over and settled, skipped ones stay pending, and a poisonous
one fails the whole read. When repeated reads come through. -/

namespace SkillLayer

inductive ItemKind where
  | good
  | skipped
  | poison
deriving DecidableEq

structure Backlog (Item : Type) where
  pending : List Item
  fresh : List Item

namespace Backlog

variable {Item : Type} (kind : Item → ItemKind) (size : Nat)

/-- The first items, as many as the size says; a size of zero sets no bound. -/
def window (items : List Item) : List Item := if size = 0 then items else items.take size

def poisoned (items : List Item) : Bool := items.any fun item => kind item = .poison

def goods (items : List Item) : List Item := items.filter fun item => kind item = .good

def unsettled (items : List Item) : List Item := items.filter fun item => !decide (kind item = .good)

/-- One read, with the items it hands over unless it fails. -/
def read (backlog : Backlog Item) : Option (List Item) × Backlog Item :=
  let oldest := window size backlog.pending
  if poisoned kind oldest then (none, backlog)
  else if !(goods kind oldest).isEmpty then
    (some (goods kind oldest),
      ⟨unsettled kind oldest ++ backlog.pending.drop oldest.length, backlog.fresh⟩)
  else
    let next := window size backlog.fresh
    let rest := backlog.fresh.drop next.length
    if poisoned kind next then (none, ⟨backlog.pending ++ next, rest⟩)
    else (some (goods kind next), ⟨backlog.pending ++ unsettled kind next, rest⟩)

/-- The backlog after some reads. -/
def after (reads : Nat) (backlog : Backlog Item) : Backlog Item :=
  (fun backlog => (backlog.read kind size).2)^[reads] backlog

def answer (reads : Nat) (backlog : Backlog Item) : Option (List Item) :=
  ((backlog.after kind size reads).read kind size).1

/-- Every good item is handed over by some read, and reads do not fail for ever. -/
structure Drains (backlog : Backlog Item) : Prop where
  handed : ∀ item ∈ backlog.pending ++ backlog.fresh, kind item = .good →
    ∃ reads items, backlog.answer kind size reads = some items ∧ item ∈ items
  recovers : ∀ reads, ∃ later ≥ reads, backlog.answer kind size later ≠ none

/-! ### The condition -/

/-- An item with so many skipped ones before it comes into the window in time. -/
def Reaches (before : Nat) : Prop := size = 0 ∨ before < size

/-- Good items come into the window, poisonous ones never do. -/
def Surfaces : Nat → List Item → Prop
  | _, [] => True
  | before, item :: rest =>
    match kind item with
    | .good => Reaches size before ∧ Surfaces before rest
    | .skipped => Surfaces (before + 1) rest
    | .poison => ¬ Reaches size before ∧ Surfaces before rest

def skips (items : List Item) : Nat := items.countP fun item => kind item = .skipped

/-- A chunk of the fresh items, as reads take them one after the other. -/
def chunk (fresh : List Item) (index : Nat) : List Item := window size (fresh.drop (index * size))

/-- The pending items surface, and so does every fresh chunk with a poisonous item behind the
skipped ones that are pending by then. -/
structure Clear (backlog : Backlog Item) : Prop where
  pending : Surfaces kind size 0 backlog.pending
  fresh : ∀ index, poisoned kind (chunk size backlog.fresh index) = true →
    Surfaces kind size (skips kind backlog.pending + skips kind (backlog.fresh.take (index * size)))
      (chunk size backlog.fresh index)

variable {kind size}

/-! ### Items that surface -/

theorem surfaces_append {items more : List Item} {before : Nat} :
    Surfaces kind size before (items ++ more) ↔
      Surfaces kind size before items ∧ Surfaces kind size (before + skips kind items) more := by
  induction items generalizing before with
  | nil => simp [Surfaces, skips]
  | cons item rest ih =>
    simp only [List.cons_append, Surfaces, skips, List.countP_cons] at ih ⊢
    cases here : kind item with
    | good => simp [ih, and_assoc]
    | skipped => simp [ih, Nat.add_assoc, Nat.add_comm]
    | poison => simp [ih, and_assoc]

/-- Items that fit into the window surface unless one of them is poisonous. -/
theorem surfaces_fitting {items : List Item} {before : Nat} (fits : size = 0 ∨ before + items.length ≤ size) :
    Surfaces kind size before items ↔ poisoned kind items = false := by
  induction items generalizing before with
  | nil => simp [Surfaces, poisoned]
  | cons item rest ih =>
    have reaches : Reaches size before := by
      rcases fits with unbounded | fits
      · exact Or.inl unbounded
      · exact Or.inr (by simp only [List.length_cons] at fits; omega)
    have tail (count : Nat) (atMost : count ≤ before + 1) : size = 0 ∨ count + rest.length ≤ size :=
      fits.imp_right fun bound => by simp only [List.length_cons] at bound; omega
    rw [poisoned, List.any_cons, Bool.or_eq_false_iff, ← poisoned, Surfaces]
    cases here : kind item with
    | good => simp [reaches, ih (tail before (Nat.le_succ _))]
    | skipped => simp [ih (tail (before + 1) (Nat.le_refl _))]
    | poison => simp [reaches]

/-- Behind a full window of skipped items only items that are not good surface. -/
theorem surfaces_behind {items : List Item} {before : Nat} (bounded : size ≠ 0) (full : size ≤ before) :
    Surfaces kind size before items ↔ goods kind items = [] := by
  have hidden (count : Nat) (full : size ≤ count) : ¬ Reaches size count := by
    rintro (unbounded | within)
    · exact bounded unbounded
    · omega
  induction items generalizing before with
  | nil => simp [Surfaces, goods]
  | cons item rest ih =>
    rw [goods, List.filter_cons, ← goods, Surfaces]
    cases here : kind item with
    | good => simp [hidden before full]
    | skipped => simpa using ih (Nat.le_succ_of_le full)
    | poison => simpa [hidden before full] using ih full

theorem window_append_drop (size : Nat) (items : List Item) :
    window size items ++ items.drop (window size items).length = items := by
  unfold window
  split
  · simp
  · rw [List.length_take]
    rcases Nat.le_total size items.length with within | beyond
    · rw [Nat.min_eq_left within, List.take_append_drop]
    · rw [Nat.min_eq_right beyond, List.take_of_length_le beyond, List.drop_length, List.append_nil]

theorem window_fits (items : List Item) : size = 0 ∨ 0 + (window size items).length ≤ size := by
  unfold window
  split
  · exact Or.inl ‹_›
  · exact Or.inr (by rw [List.length_take]; omega)

/-- What is not in the window stands behind a full one. -/
theorem window_full {items : List Item} (more : items.drop (window size items).length ≠ []) :
    size ≠ 0 ∧ (window size items).length = size := by
  unfold window at more ⊢
  split at more
  · simp at more
  · rename_i bounded
    rw [if_neg bounded]
    refine ⟨bounded, ?_⟩
    rw [List.length_take] at more ⊢
    rw [ne_eq, List.drop_eq_nil_iff] at more
    omega

theorem skipped_of_idle {items : List Item} (clean : poisoned kind items = false) (idle : goods kind items = []) :
    ∀ item ∈ items, kind item = .skipped := by
  intro item member
  cases here : kind item with
  | skipped => rfl
  | good => exact absurd here (by simpa using List.filter_eq_nil_iff.mp idle item member)
  | poison =>
    have isPoison : poisoned kind items = true := List.any_eq_true.mpr ⟨item, member, by simp [here]⟩
    rw [clean] at isPoison
    cases isPoison

theorem skips_of_skipped {items : List Item} (all : ∀ item ∈ items, kind item = .skipped) :
    skips kind items = items.length :=
  List.countP_eq_length.mpr fun item member => by simp [all item member]

theorem skips_unsettled (items : List Item) : skips kind (unsettled kind items) = skips kind items := by
  unfold skips unsettled
  rw [List.countP_filter]
  refine List.countP_congr fun item _ => ?_
  cases kind item <;> simp

theorem skips_append (items more : List Item) : skips kind (items ++ more) = skips kind items + skips kind more :=
  List.countP_append

theorem poisoned_unsettled {items : List Item} (clean : poisoned kind items = false) :
    poisoned kind (unsettled kind items) = false := by
  unfold poisoned unsettled at *
  rw [List.any_eq_false] at clean ⊢
  exact fun item member => clean item (List.mem_filter.mp member).1

theorem surfaces_unsettled {items : List Item} {before : Nat} (clean : poisoned kind items = false) :
    Surfaces kind size before (unsettled kind items) := by
  have all : ∀ item ∈ unsettled kind items, kind item = .skipped := by
    refine skipped_of_idle (poisoned_unsettled clean) (List.filter_eq_nil_iff.mpr fun item member => ?_)
    simpa using (List.mem_filter.mp member).2
  generalize unsettled kind items = rest at all
  induction rest generalizing before with
  | nil => exact trivial
  | cons item others ih =>
    rw [Surfaces, all item List.mem_cons_self]
    exact ih fun other member => all other (List.mem_cons_of_mem _ member)

/-- Where the window holds only skipped items, the pending ones surface when none is good. -/
theorem surfaces_idle {items : List Item} (clean : poisoned kind (window size items) = false)
    (idle : goods kind (window size items) = []) :
    Surfaces kind size 0 items ↔ goods kind items = [] := by
  have split : goods kind items = goods kind (items.drop (window size items).length) := by
    have whole := congrArg (goods kind) (window_append_drop size items)
    rw [goods, List.filter_append, ← goods, ← goods, idle, List.nil_append] at whole
    exact whole.symm
  have parts : Surfaces kind size 0 (window size items ++ items.drop (window size items).length) ↔ _ :=
    surfaces_append
  rw [window_append_drop, surfaces_fitting (window_fits items), Nat.zero_add] at parts
  rw [parts, split, and_iff_right clean, skips_of_skipped (skipped_of_idle clean idle)]
  by_cases more : items.drop (window size items).length = []
  · simp [more, Surfaces, goods]
  · obtain ⟨bounded, full⟩ := window_full more
    exact surfaces_behind bounded (Nat.le_of_eq full.symm)

/-! ### Reads -/

theorem read_stuck {backlog : Backlog Item} (stuck : poisoned kind (window size backlog.pending) = true) :
    backlog.read kind size = (none, backlog) := by
  rw [read, stuck]
  rfl

/-- The backlog after a read of pending items. -/
def settled (kind : Item → ItemKind) (size : Nat) (backlog : Backlog Item) : Backlog Item :=
  ⟨unsettled kind (window size backlog.pending) ++ backlog.pending.drop (window size backlog.pending).length,
    backlog.fresh⟩

theorem read_pending {backlog : Backlog Item} (clean : poisoned kind (window size backlog.pending) = false)
    (busy : goods kind (window size backlog.pending) ≠ []) :
    backlog.read kind size = (some (goods kind (window size backlog.pending)), backlog.settled kind size) := by
  have nonempty : (goods kind (window size backlog.pending)).isEmpty = false := by
    rw [Bool.eq_false_iff, ne_eq, List.isEmpty_iff]
    exact busy
  rw [read, clean, nonempty]
  rfl

theorem read_fresh {backlog : Backlog Item} (clean : poisoned kind (window size backlog.pending) = false)
    (idle : goods kind (window size backlog.pending) = []) :
    backlog.read kind size =
      let next := window size backlog.fresh
      let rest := backlog.fresh.drop next.length
      if poisoned kind next then (none, ⟨backlog.pending ++ next, rest⟩)
      else (some (goods kind next), ⟨backlog.pending ++ unsettled kind next, rest⟩) := by
  rw [read, clean, idle]
  rfl

theorem goods_append_unsettled (kind : Item → ItemKind) (items : List Item) :
    (goods kind items ++ unsettled kind items).Perm items :=
  List.filter_append_perm _ items

/-- What a read hands over and what it leaves are what was there. -/
theorem perm_read (kind : Item → ItemKind) (size : Nat) (backlog : Backlog Item) :
    (((backlog.read kind size).1.getD []) ++
      ((backlog.read kind size).2.pending ++ (backlog.read kind size).2.fresh)).Perm
        (backlog.pending ++ backlog.fresh) := by
  cases clean : poisoned kind (window size backlog.pending) with
  | true => rw [read_stuck clean, Option.getD_none, List.nil_append]
  | false =>
    by_cases idle : goods kind (window size backlog.pending) = []
    · rw [read_fresh clean idle]
      dsimp only
      split
      · rw [Option.getD_none, List.nil_append, List.append_assoc, window_append_drop]
      · rw [Option.getD_some, List.append_assoc backlog.pending]
        have parts := (goods_append_unsettled kind (window size backlog.fresh)).append_right
          (backlog.fresh.drop (window size backlog.fresh).length)
        rw [window_append_drop, List.append_assoc] at parts
        exact (List.perm_append_comm_assoc _ _ _).trans (parts.append_left _)
    · rw [read_pending clean idle, Option.getD_some, settled, ← List.append_assoc, ← List.append_assoc]
      have parts := (goods_append_unsettled kind (window size backlog.pending)).append_right
        (backlog.pending.drop (window size backlog.pending).length)
      rw [window_append_drop] at parts
      exact parts.append_right _

/-- A good item is handed over now or is still to come. -/
theorem mem_read {backlog : Backlog Item} {item : Item} :
    item ∈ backlog.pending ++ backlog.fresh ↔ item ∈ (backlog.read kind size).1.getD [] ∨
      item ∈ (backlog.read kind size).2.pending ++ (backlog.read kind size).2.fresh := by
  rw [← (perm_read kind size backlog).mem_iff, List.mem_append]

theorem after_succ (reads : Nat) (backlog : Backlog Item) :
    backlog.after kind size (reads + 1) = (backlog.read kind size).2.after kind size reads := rfl

/-- Whether a backlog drains does not change by reading it. -/
theorem drains_read {backlog : Backlog Item} (distinct : (backlog.pending ++ backlog.fresh).Nodup) :
    backlog.Drains kind size ↔ (backlog.read kind size).2.Drains kind size := by
  constructor
  · intro drains
    constructor
    · intro item member isGood
      obtain ⟨reads, items, answered, given⟩ := drains.handed item (mem_read.mpr (Or.inr member)) isGood
      cases reads with
      | succ reads => exact ⟨reads, items, answered, given⟩
      | zero =>
        have now : item ∈ (backlog.read kind size).1.getD [] := by
          have first : (backlog.read kind size).1 = some items := answered
          rw [first]
          exact given
        exact absurd member (List.disjoint_of_nodup_append ((perm_read kind size backlog).nodup_iff.mpr distinct) now)
    · intro reads
      obtain ⟨later, atLeast, answered⟩ := drains.recovers (reads + 1)
      obtain ⟨later, rfl⟩ := Nat.exists_eq_add_of_le' (Nat.le_trans (Nat.le_add_left 1 reads) atLeast)
      exact ⟨later, Nat.le_of_add_le_add_right atLeast, answered⟩
  · intro drains
    constructor
    · intro item member isGood
      rcases mem_read.mp member with now | next
      · cases answered : (backlog.read kind size).1 with
        | none =>
          rw [answered] at now
          cases now
        | some items =>
          rw [answered] at now
          exact ⟨0, items, answered, now⟩
      · obtain ⟨reads, items, answered, given⟩ := drains.handed item next isGood
        exact ⟨reads + 1, items, answered, given⟩
    · intro reads
      obtain ⟨later, atLeast, answered⟩ := drains.recovers reads
      exact ⟨later + 1, Nat.le_succ_of_le atLeast, answered⟩

theorem after_fixed {backlog : Backlog Item} (fixed : (backlog.read kind size).2 = backlog) (reads : Nat) :
    backlog.after kind size reads = backlog := by
  induction reads with
  | zero => rfl
  | succ reads ih => rw [after_succ, fixed, ih]

/-! ### Reads and the condition -/

theorem clear_settled {backlog : Backlog Item} (clean : poisoned kind (window size backlog.pending) = false) :
    backlog.Clear kind size ↔ (backlog.settled kind size).Clear kind size := by
  have parts : Surfaces kind size 0 backlog.pending ↔ Surfaces kind size 0 (backlog.settled kind size).pending := by
    rw [settled, surfaces_append, and_iff_right (surfaces_unsettled clean), skips_unsettled]
    have whole : Surfaces kind size 0 (window size backlog.pending ++
        backlog.pending.drop (window size backlog.pending).length) ↔ _ := surfaces_append
    rwa [window_append_drop, and_iff_right ((surfaces_fitting (window_fits _)).mpr clean)] at whole
  have same : skips kind (backlog.settled kind size).pending = skips kind backlog.pending := by
    rw [settled, skips_append, skips_unsettled, ← skips_append, window_append_drop]
  constructor
  · rintro ⟨pending, fresh⟩
    exact ⟨parts.mp pending, by rwa [same]⟩
  · rintro ⟨pending, fresh⟩
    exact ⟨parts.mpr pending, by rwa [same] at fresh⟩

/-- What is asked of the fresh items behind some skipped ones. -/
def FreshSurfaces (kind : Item → ItemKind) (size before : Nat) (fresh : List Item) : Prop :=
  ∀ index, poisoned kind (chunk size fresh index) = true →
    Surfaces kind size (before + skips kind (fresh.take (index * size))) (chunk size fresh index)

theorem chunk_zero (fresh : List Item) : chunk size fresh 0 = window size fresh := by
  rw [chunk, Nat.zero_mul, List.drop_zero]

theorem drop_window (bounded : size ≠ 0) (items : List Item) :
    items.drop (window size items).length = items.drop size := by
  rw [window, if_neg bounded, List.length_take]
  rcases Nat.le_total size items.length with within | beyond
  · rw [Nat.min_eq_left within]
  · rw [Nat.min_eq_right beyond, List.drop_length, List.drop_eq_nil_of_le beyond]

/-- The first chunk and the others. -/
theorem freshSurfaces_iff {before : Nat} {fresh : List Item} :
    FreshSurfaces kind size before fresh ↔
      (poisoned kind (window size fresh) = true → Surfaces kind size before (window size fresh)) ∧
        FreshSurfaces kind size (before + skips kind (window size fresh))
          (fresh.drop (window size fresh).length) := by
  by_cases unbounded : size = 0
  · subst unbounded
    have whole (items : List Item) : window 0 items = items := if_pos rfl
    have none : poisoned kind ([] : List Item) = false := rfl
    simp [FreshSurfaces, chunk, whole, none, skips]
  · have later (index : Nat) : chunk size fresh (index + 1) =
        chunk size (fresh.drop (window size fresh).length) index := by
      rw [chunk, chunk, drop_window unbounded, List.drop_drop, Nat.succ_mul, Nat.add_comm size]
    have counted (index : Nat) : skips kind (fresh.take ((index + 1) * size)) =
        skips kind (window size fresh) + skips kind ((fresh.drop (window size fresh).length).take (index * size)) := by
      rw [drop_window unbounded, Nat.succ_mul, Nat.add_comm _ size, List.take_add, skips_append, window,
        if_neg unbounded]
    constructor
    · intro all
      constructor
      · have first := all 0
        rwa [chunk_zero, Nat.zero_mul, List.take_zero] at first
      · intro index isPoisoned
        rw [← later] at isPoisoned ⊢
        have next := all (index + 1) isPoisoned
        rwa [counted, ← Nat.add_assoc] at next
    · rintro ⟨first, rest⟩ index isPoisoned
      cases index with
      | zero =>
        rw [chunk_zero] at isPoisoned ⊢
        rw [Nat.zero_mul, List.take_zero]
        exact first isPoisoned
      | succ index =>
        rw [later] at isPoisoned ⊢
        rw [counted, ← Nat.add_assoc]
        exact rest index isPoisoned

theorem clear_iff {backlog : Backlog Item} :
    backlog.Clear kind size ↔
      Surfaces kind size 0 backlog.pending ∧ FreshSurfaces kind size (skips kind backlog.pending) backlog.fresh :=
  ⟨fun clear => ⟨clear.pending, clear.fresh⟩, fun both => ⟨both.1, both.2⟩⟩

/-- Reading a fresh chunk does not change the condition. -/
theorem clear_fresh {backlog : Backlog Item} (clean : poisoned kind (window size backlog.pending) = false)
    (idle : goods kind (window size backlog.pending) = []) :
    backlog.Clear kind size ↔ (backlog.read kind size).2.Clear kind size := by
  rw [read_fresh clean idle, clear_iff, freshSurfaces_iff]
  dsimp only
  cases taken : poisoned kind (window size backlog.fresh) with
  | true =>
    rw [if_pos rfl, clear_iff, surfaces_append, skips_append, Nat.zero_add, and_assoc]
    simp
  | false =>
    rw [if_neg Bool.false_ne_true, clear_iff, surfaces_append, skips_append, skips_unsettled,
      and_iff_left (surfaces_unsettled taken)]
    simp

/-! ### The main result -/

/-- The reads that are still to come at most. -/
def load (kind : Item → ItemKind) (backlog : Backlog Item) : Nat :=
  (goods kind backlog.pending).length + 2 * backlog.fresh.length

theorem goods_append (items more : List Item) : goods kind (items ++ more) = goods kind items ++ goods kind more :=
  List.filter_append ..

theorem load_settled {backlog : Backlog Item} (busy : goods kind (window size backlog.pending) ≠ []) :
    (backlog.settled kind size).load kind < backlog.load kind := by
  have none : goods kind (unsettled kind (window size backlog.pending)) = [] :=
    List.filter_eq_nil_iff.mpr fun item member => by simpa using (List.mem_filter.mp member).2
  have whole : goods kind backlog.pending = goods kind (window size backlog.pending) ++
      goods kind (backlog.pending.drop (window size backlog.pending).length) := by
    rw [← goods_append, window_append_drop]
  have some := List.length_pos_of_ne_nil busy
  simp only [load, settled, goods_append, none, whole, List.length_append, List.length_nil]
  omega

theorem load_fresh {backlog : Backlog Item} (clean : poisoned kind (window size backlog.pending) = false)
    (idle : goods kind (window size backlog.pending) = []) (more : backlog.fresh ≠ []) :
    (backlog.read kind size).2.load kind < backlog.load kind := by
  have taken : 0 < (window size backlog.fresh).length ∧ (window size backlog.fresh).length ≤ backlog.fresh.length := by
    have some := List.length_pos_of_ne_nil more
    unfold window
    split
    · exact ⟨some, Nat.le_refl _⟩
    · rename_i bounded
      rw [List.length_take]
      omega
  have added (items : List Item) (within : items.length ≤ (window size backlog.fresh).length) :
      Backlog.load kind ⟨backlog.pending ++ items, backlog.fresh.drop (window size backlog.fresh).length⟩ <
        backlog.load kind := by
    have atMost : (goods kind items).length ≤ items.length := List.length_filter_le ..
    simp only [load, goods_append, List.length_append, List.length_drop]
    omega
  rw [read_fresh clean idle]
  dsimp only
  split
  · exact added _ (Nat.le_refl _)
  · exact added _ (List.length_filter_le ..)

theorem not_drains_stuck {backlog : Backlog Item} (stuck : poisoned kind (window size backlog.pending) = true) :
    ¬ backlog.Drains kind size := by
  intro drains
  obtain ⟨later, -, answered⟩ := drains.recovers 0
  have same : (backlog.read kind size).2 = backlog := by rw [read_stuck stuck]
  rw [answer, after_fixed same, read_stuck stuck] at answered
  exact answered rfl

theorem not_clear_stuck {backlog : Backlog Item} (stuck : poisoned kind (window size backlog.pending) = true) :
    ¬ backlog.Clear kind size := by
  rintro ⟨pending, -⟩
  have whole : Surfaces kind size 0 (window size backlog.pending ++
      backlog.pending.drop (window size backlog.pending).length) ↔ _ := surfaces_append
  rw [window_append_drop, surfaces_fitting (window_fits _), stuck] at whole
  exact Bool.noConfusion (whole.mp pending).1

/-- Without fresh items, an idle backlog drains when nothing good is pending. -/
theorem drains_idle {backlog : Backlog Item} (clean : poisoned kind (window size backlog.pending) = false)
    (idle : goods kind (window size backlog.pending) = []) (dry : backlog.fresh = []) :
    backlog.Drains kind size ↔ backlog.Clear kind size := by
  have nothing : window size ([] : List Item) = [] := by
    unfold window
    split <;> simp
  have quiet : backlog.read kind size = (some [], backlog) := by
    rw [read_fresh clean idle, dry, nothing]
    cases backlog
    cases dry
    simp [poisoned, goods, unsettled]
  have always (reads : Nat) : backlog.answer kind size reads = some [] := by
    have same : (backlog.read kind size).2 = backlog := by rw [quiet]
    rw [answer, after_fixed same, quiet]
  have fresh : FreshSurfaces kind size (skips kind backlog.pending) backlog.fresh := by
    intro index isPoisoned
    rw [dry, chunk, List.drop_nil, nothing] at isPoisoned
    cases isPoisoned
  rw [clear_iff, and_iff_left fresh, surfaces_idle clean idle]
  constructor
  · intro drains
    refine List.filter_eq_nil_iff.mpr fun item member isGood => ?_
    obtain ⟨reads, items, answered, given⟩ :=
      drains.handed item (List.mem_append_left _ member) (of_decide_eq_true isGood)
    rw [always] at answered
    cases answered
    cases given
  · intro none
    refine ⟨fun item member isGood => ?_, fun reads => ⟨reads, Nat.le_refl _, by rw [always]; simp⟩⟩
    rw [dry, List.append_nil] at member
    exact absurd (decide_eq_true isGood) (List.filter_eq_nil_iff.mp none item member)

/-- Reads come through exactly when the backlog is clear. -/
theorem drains_iff {backlog : Backlog Item} (distinct : (backlog.pending ++ backlog.fresh).Nodup) :
    backlog.Drains kind size ↔ backlog.Clear kind size := by
  induction left : backlog.load kind using Nat.strongRecOn generalizing backlog with
  | ind left ih =>
    subst left
    have onward (less : (backlog.read kind size).2.load kind < backlog.load kind)
        (same : backlog.Clear kind size ↔ (backlog.read kind size).2.Clear kind size) :
        backlog.Drains kind size ↔ backlog.Clear kind size := by
      have distinctThen := List.Nodup.of_append_right ((perm_read kind size backlog).nodup_iff.mpr distinct)
      rw [drains_read distinct, same]
      exact ih _ less distinctThen rfl
    cases clean : poisoned kind (window size backlog.pending) with
    | true => exact iff_of_false (not_drains_stuck clean) (not_clear_stuck clean)
    | false =>
      by_cases idle : goods kind (window size backlog.pending) = []
      · cases dry : backlog.fresh with
        | nil => exact drains_idle clean idle dry
        | cons first rest =>
          exact onward (load_fresh clean idle (by simp [dry])) (clear_fresh clean idle)
      · refine onward ?_ ?_
        · rw [read_pending clean idle]
          exact load_settled idle
        · rw [read_pending clean idle]
          exact clear_settled clean

/-- Settling the good items of a part leaves the unsettled ones in their places. -/
theorem filter_settled {keep : Item → Bool} {before items rest : List Item}
    (settles : ∀ item, keep item = false ↔ item ∈ goods kind items)
    (distinct : (before ++ (items ++ rest)).Nodup) :
    (before ++ (items ++ rest)).filter keep = before ++ (unsettled kind items ++ rest) := by
  obtain ⟨-, distinctTail, apart⟩ := List.nodup_append.mp distinct
  obtain ⟨-, -, apartTail⟩ := List.nodup_append.mp distinctTail
  have kept (others : List Item) (elsewhere : ∀ item ∈ others, item ∉ items) : others.filter keep = others := by
    refine List.filter_eq_self.mpr fun item member => ?_
    rw [← Bool.not_eq_false, settles]
    exact fun good => elsewhere item member (List.mem_filter.mp good).1
  have middle : items.filter keep = unsettled kind items := by
    refine List.filter_congr fun item member => ?_
    rw [Bool.eq_iff_iff, ← Bool.not_eq_false, settles, goods, List.mem_filter, and_iff_right member]
    simp
  rw [List.filter_append, List.filter_append, middle, kept before, kept rest]
  · exact fun item member given => apartTail item given item member rfl
  · exact fun item member given => apart item member item (List.mem_append_left rest given) rfl

/-- Some number of reads is enough for all good items. -/
theorem Drains.enough {backlog : Backlog Item} (drains : backlog.Drains kind size) :
    ∃ enough, ∀ item ∈ backlog.pending ++ backlog.fresh, kind item = .good →
      ∃ reads < enough, ∃ items, backlog.answer kind size reads = some items ∧ item ∈ items := by
  have each := drains.handed
  generalize backlog.pending ++ backlog.fresh = all at each
  induction all with
  | nil => exact ⟨0, fun item member => nomatch member⟩
  | cons first rest ih =>
    obtain ⟨enough, covered⟩ := ih fun item member => each item (List.mem_cons_of_mem _ member)
    by_cases good : kind first = .good
    · obtain ⟨reads, items, answered, given⟩ := each first List.mem_cons_self good
      refine ⟨max enough (reads + 1), fun item member isGood => ?_⟩
      rcases List.mem_cons.mp member with rfl | later
      · exact ⟨reads, by omega, items, answered, given⟩
      · obtain ⟨earlier, within, found⟩ := covered item later isGood
        exact ⟨earlier, by omega, found⟩
    · refine ⟨enough, fun item member isGood => ?_⟩
      rcases List.mem_cons.mp member with rfl | later
      · exact absurd isGood good
      · exact covered item later isGood

end Backlog
end SkillLayer
