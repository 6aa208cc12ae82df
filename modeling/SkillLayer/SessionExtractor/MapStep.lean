import SkillLayer.SessionExtractor.Segmentation
import SkillLayer.Table

/-! How the orchestrator resolves a window's source lines back to events before
the map step. -/

namespace SkillLayer.SessionExtractor

open Domain

/-- The `event_by_index` map; a `&SessionEvent` is a position of the stream. -/
def eventByIndex (events : List SessionEvent) : Nat → Option (Fin events.length) :=
  lastWriter ((List.finRange events.length).map fun pos => ((events.get pos).index, pos))

/-- The references a window's source lines resolve to. -/
def windowRefs (events : List SessionEvent) (window : Episode) : List (Fin events.length) :=
  window.eventIndices.filterMap (eventByIndex events)

def windowEvents (events : List SessionEvent) (window : Episode) : List SessionEvent :=
  (windowRefs events window).map events.get

variable {events : List SessionEvent}

theorem index_of_eventByIndex {index : Nat} {pos : Fin events.length}
    (found : eventByIndex events index = some pos) : (events.get pos).index = index := by
  have member := mem_of_lastWriter found
  simp only [List.mem_map, Prod.mk.injEq] at member
  obtain ⟨_, _, indexed, rfl⟩ := member
  exact indexed

theorem eventByIndex_of_nodup (nodup : (events.map SessionEvent.index).Nodup)
    (pos : Fin events.length) : eventByIndex events (events.get pos).index = some pos := by
  apply lastWriter_of_mem
  · have keys : ((List.finRange events.length).map fun pos => ((events.get pos).index, pos)).map
        Prod.fst = events.map SessionEvent.index := by
      apply List.ext_getElem <;> simp
    rw [keys]
    exact nodup
  · simp

/-- Looking up the lines of an unambiguous run of positions returns that run. -/
theorem windowRefs_of_nodup (nodup : (events.map SessionEvent.index).Nodup)
    (run : List (Fin events.length)) :
    windowRefs events ⟨run.map fun pos => (events.get pos).index, none⟩ = run := by
  rw [windowRefs, List.filterMap_map]
  have resolve : ∀ pos ∈ run,
      (eventByIndex events ∘ fun pos => (events.get pos).index) pos = some pos :=
    fun pos _ => eventByIndex_of_nodup nodup pos
  rw [List.filterMap_congr resolve, List.filterMap_some]

end SkillLayer.SessionExtractor
