import SkillLayer.Stateful

/-! A sweep: visit keys one after another and remove what is due at them. -/

namespace SkillLayer

universe u
variable {Key State Value Err : Type u} (read : State → Key → Option Value)

/-- A visit that looks at its own key only: it removes what is due there and names it, leaves everything else as it
is, and finds nothing more to do at a key that it has seen. -/
structure Sweeps (visit : Key → EStateM Err State (List Key)) (due : Key → Option Value → Prop) : Prop where
  ends : ∀ {key before out after}, visit key before = .ok out after →
    (due key (read before key) ∧ out = [key] ∧ read after key = none ∧
        ∀ other, other ≠ key → read after other = read before other) ∨
      (¬ due key (read before key) ∧ out = [] ∧ after = before)
  done : ∀ key, ¬ due key none
  again : ∀ {key before out after between}, visit key before = .ok out after → read between key = read after key →
    visit key between = .ok [] between

variable {read} {visit : Key → EStateM Err State (List Key)} {due : Key → Option Value → Prop} {keys : List Key}
  {before after : State} {outs : List (List Key)}

theorem collectEach_cons_ok {Item Out : Type u} {step : Item → EStateM Err State Out} {item : Item}
    {rest : List Item} {found : List Out} :
    collectEach step (item :: rest) before = .ok found after ↔
      ∃ out between more, step item before = .ok out between ∧ collectEach step rest between = .ok more after ∧
        found = out :: more := by
  rw [collectEach]
  simp only [bind, EStateM.bind, pure, EStateM.pure]
  cases step item before with
  | error error between => simp
  | ok out between =>
    dsimp only
    cases ran : collectEach step rest between with
    | error error last => simp [ran]
    | ok more last => simp [ran, eq_comm, and_comm]

/-- A finished sweep has removed what was due at its keys and nothing else, has named it, and would find nothing more
to do. -/
structure SweptClean (read : State → Key → Option Value) (visit : Key → EStateM Err State (List Key))
    (due : Key → Option Value → Prop) (keys : List Key) (before : State) (named : List Key) (after : State) : Prop where
  removed : ∀ key ∈ keys, due key (read before key) → read after key = none
  kept : ∀ key, ¬ (key ∈ keys ∧ due key (read before key)) → read after key = read before key
  names : ∀ key, key ∈ named ↔ key ∈ keys ∧ due key (read before key)
  settled : ∀ key ∈ keys, ∀ between, read between key = read after key → visit key between = .ok [] between

theorem Sweeps.run (sweeps : Sweeps read visit due) (ran : collectEach visit keys before = .ok outs after) :
    SweptClean read visit due keys before outs.flatten after := by
  induction keys generalizing before outs with
  | nil =>
    cases ran
    exact ⟨by simp, fun _ _ => rfl, by simp, by simp⟩
  | cons key rest ih =>
    obtain ⟨out, between, more, visited, later, rfl⟩ := collectEach_cons_ok.mp ran
    have swept := ih later
    have ended := sweeps.ends visited
    have settledHere : ¬ due key (read between key) := by
      rcases ended with ⟨-, -, gone, -⟩ | ⟨idle, -, rfl⟩
      · rw [gone]
        exact sweeps.done key
      · exact idle
    have here : read after key = read between key := swept.kept key fun both => settledHere both.2
    have elsewhere : ∀ other, other ≠ key → read between other = read before other := by
      intro other apart
      rcases ended with ⟨-, -, -, same⟩ | ⟨-, -, rfl⟩
      · exact same other apart
      · rfl
    refine ⟨fun other member dueThere => ?_, fun other idle => ?_, fun other => ?_, fun other member => ?_⟩
    · by_cases same : other = key
      · subst same
        rcases ended with ⟨-, -, gone, -⟩ | ⟨idle, -, -⟩
        · rw [here, gone]
        · exact absurd dueThere idle
      · have inRest := (List.mem_cons.mp member).resolve_left same
        exact swept.removed other inRest (by rwa [elsewhere other same])
    · by_cases same : other = key
      · subst same
        rcases ended with ⟨dueThere, -, -, -⟩ | ⟨-, -, rfl⟩
        · exact absurd ⟨List.mem_cons_self, dueThere⟩ idle
        · exact here
      · rw [swept.kept other, elsewhere other same]
        rw [elsewhere other same]
        exact fun both => idle ⟨List.mem_cons_of_mem _ both.1, both.2⟩
    · rw [List.flatten_cons, List.mem_append, swept.names, List.mem_cons]
      by_cases same : other = key
      · subst same
        rcases ended with ⟨dueThere, rfl, -, -⟩ | ⟨idle, rfl, rfl⟩
        · simp [dueThere]
        · simp [idle]
      · rw [elsewhere other same]
        rcases ended with ⟨-, rfl, -, -⟩ | ⟨-, rfl, -⟩ <;> simp [same]
    · rcases List.mem_cons.mp member with rfl | inRest
      · intro state same
        exact sweeps.again visited (same.trans here)
      · exact swept.settled other inRest

/-- A second sweep finds nothing to do. -/
theorem SweptClean.run_again {named : List Key} (swept : SweptClean read visit due keys before named after) :
    collectEach visit keys after = .ok (keys.map fun _ => []) after := by
  have quiet : ∀ key ∈ keys, visit key after = .ok [] after := fun key member => swept.settled key member after rfl
  clear swept
  induction keys with
  | nil => rfl
  | cons key rest ih =>
    have here := quiet key List.mem_cons_self
    have later := ih fun other member => quiet other (List.mem_cons_of_mem _ member)
    exact collectEach_cons_ok.mpr ⟨[], after, _, here, later, rfl⟩

end SkillLayer
