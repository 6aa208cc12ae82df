import Mathlib.Data.List.Perm.Basic
import SkillLayer.Grouping

/-! Lists divided into blocks by a key. -/

namespace SkillLayer

universe u v w

variable {Item : Type u} {Key : Type v} [DecidableEq Key] {items : List Item} {key : Item → Key}
  {blocks : List (Key × List Item)}

/-- Every key that occurs has one block, with its items in their order. -/
structure BlocksBy (items : List Item) (key : Item → Key) (blocks : List (Key × List Item)) : Prop where
  nodup : (blocks.map Prod.fst).Nodup
  keys : ∀ value, value ∈ blocks.map Prod.fst ↔ ∃ item ∈ items, key item = value
  members : ∀ block ∈ blocks, block.2 = items.filter fun item => key item = block.1

theorem blocksBy_group (items : List Item) (key : Item → Key) :
    BlocksBy items key (group (items.map fun item => (key item, item))) where
  nodup := nodup_keys_group _
  keys value := by
    rw [mem_keys_group]
    simp only [List.mem_map, Prod.mk.injEq]
    constructor
    · rintro ⟨_, item, member, same, _⟩
      exact ⟨item, member, same⟩
    · rintro ⟨item, member, same⟩
      exact ⟨item, item, member, same, rfl⟩
  members block member := by
    obtain ⟨_, same⟩ := mem_group.mp (show (block.1, block.2) ∈ _ from member)
    rw [same, List.filter_map, List.map_map]
    exact List.map_id _

/-- Grouping a function of the items applies it inside the groups. -/
theorem group_map {Value : Type w} (items : List Item) (key : Item → Key) (value : Item → Value) :
    group (items.map fun item => (key item, value item)) =
      (group (items.map fun item => (key item, item))).map fun block => (block.1, block.2.map value) := by
  unfold group
  simp only [List.map_map, List.filter_map, Function.comp_def]

theorem BlocksBy.perm (blocksBy : BlocksBy items key blocks) {others : List (Key × List Item)}
    (shuffled : others.Perm blocks) : BlocksBy items key others where
  nodup := ((shuffled.map Prod.fst).nodup_iff).mpr blocksBy.nodup
  keys value := ((shuffled.map Prod.fst).mem_iff).trans (blocksBy.keys value)
  members block member := blocksBy.members block (shuffled.subset member)

theorem BlocksBy.mem_block (blocksBy : BlocksBy items key blocks) {block : Key × List Item} (member : block ∈ blocks)
    {item : Item} : item ∈ block.2 ↔ item ∈ items ∧ key item = block.1 := by
  rw [blocksBy.members block member, List.mem_filter, decide_eq_true_eq]

theorem BlocksBy.ne_nil (blocksBy : BlocksBy items key blocks) {block : Key × List Item} (member : block ∈ blocks) :
    block.2 ≠ [] := by
  obtain ⟨item, inItems, same⟩ := (blocksBy.keys block.1).mp (List.mem_map_of_mem member)
  exact List.ne_nil_of_mem ((blocksBy.mem_block member).mpr ⟨inItems, same⟩)

theorem BlocksBy.exists_block (blocksBy : BlocksBy items key blocks) {item : Item} (member : item ∈ items) :
    ∃ block ∈ blocks, block.1 = key item :=
  List.mem_map.mp ((blocksBy.keys (key item)).mpr ⟨item, member, rfl⟩)

/-- Every item lies in one block. -/
theorem BlocksBy.countP_eq_one (blocksBy : BlocksBy items key blocks) {item : Item} (member : item ∈ items) :
    (blocks.countP fun block => block.1 = key item) = 1 := by
  have once : (blocks.map Prod.fst).count (key item) = 1 :=
    List.count_eq_one_of_mem blocksBy.nodup ((blocksBy.keys _).mpr ⟨item, member, rfl⟩)
  rw [List.count, List.countP_map] at once
  rw [← once]
  exact List.countP_congr fun block _ => by simp

/-- Blocks that are divided by a second key are the blocks of both keys. -/
theorem BlocksBy.refine {Part : Type w} [DecidableEq Part] {other : Item → Part} (blocksBy : BlocksBy items key blocks)
    {parts : Key × List Item → List (Part × List Item)}
    (each : ∀ block ∈ blocks, BlocksBy block.2 other (parts block)) :
    BlocksBy items (fun item => (key item, other item))
      (blocks.flatMap fun block => (parts block).map fun part => ((block.1, part.1), part.2)) where
  nodup := by
    rw [List.map_flatMap]
    simp only [List.map_map]
    rw [List.nodup_flatMap]
    refine ⟨fun block member => ?_, ?_⟩
    · have paired : (parts block).map (Prod.fst ∘ fun part => ((block.1, part.1), part.2)) =
          ((parts block).map Prod.fst).map (Prod.mk block.1) := by
        rw [List.map_map]
        rfl
      rw [paired]
      exact ((each block member).nodup).map fun _ _ same => (Prod.mk.inj same).2
    · have apart := blocksBy.nodup
      rw [List.Nodup, List.pairwise_map] at apart
      refine apart.imp fun {first second} different pair inFirst inSecond => different ?_
      obtain ⟨_, _, rfl⟩ := List.mem_map.mp inFirst
      obtain ⟨_, _, same⟩ := List.mem_map.mp inSecond
      exact (Prod.mk.inj same).1.symm
  keys value := by
    obtain ⟨first, second⟩ := value
    simp only [List.mem_map, List.mem_flatMap]
    constructor
    · rintro ⟨_, ⟨block, member, part, inParts, rfl⟩, same⟩
      obtain ⟨rfl, rfl⟩ := Prod.mk.inj same
      obtain ⟨item, inBlock, equal⟩ := ((each block member).keys part.1).mp (List.mem_map_of_mem inParts)
      obtain ⟨inItems, keyed⟩ := (blocksBy.mem_block member).mp inBlock
      exact ⟨item, inItems, by rw [keyed, equal]⟩
    · rintro ⟨item, inItems, same⟩
      obtain ⟨rfl, rfl⟩ := Prod.mk.inj same
      obtain ⟨block, member, keyed⟩ := blocksBy.exists_block inItems
      have inBlock : item ∈ block.2 := (blocksBy.mem_block member).mpr ⟨inItems, keyed.symm⟩
      obtain ⟨part, inParts, equal⟩ := (each block member).exists_block inBlock
      exact ⟨_, ⟨block, member, part, inParts, rfl⟩, by rw [keyed, equal]⟩
  members := by
    intro whole inside
    obtain ⟨block, member, inner⟩ := List.mem_flatMap.mp inside
    obtain ⟨part, inParts, rfl⟩ := List.mem_map.mp inner
    dsimp only
    rw [(each block member).members part inParts, blocksBy.members block member, List.filter_filter]
    refine List.filter_congr fun item _ => ?_
    rw [← Bool.decide_and]
    exact decide_eq_decide.mpr (and_comm.trans (iff_of_eq (Prod.mk.injEq ..)).symm)

end SkillLayer
