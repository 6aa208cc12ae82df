import Mathlib.Logic.Encodable.Basic
import Mathlib.Logic.Function.Basic
import Mathlib.Data.List.Perm.Basic
import SkillLayer.Program
import SkillLayer.Text

/-! The two maps in which entries are kept for sessions, and the copy of the entries in Redis. -/

namespace SkillLayer.McpServer

variable {Entry : Type}

/-! ### Local maps -/

/-- Calls on the entry map and on the index from sessions to keys, each atomic. -/
inductive MapCall (Entry : Type) where
  | get (key : Str)
  | insert (key : Str) (entry : Entry)
  | index (session key : Str)
  | unindex (session : Str)
  | remove (key : Str)

@[reducible] def MapAnswer (Entry : Type) : MapCall Entry → Type
  | .get _ => Option Entry
  | .insert _ _ => Unit
  | .index _ _ => Unit
  | .unindex _ => Option (List Str)
  | .remove _ => Unit

structure SessionMaps (Entry : Type) where
  inner : Str → Option Entry
  sessionIndex : Str → Option (List Str)

namespace SessionMaps

def empty : SessionMaps Entry := ⟨fun _ => none, fun _ => none⟩

/-- The keys that the index lists for a session. -/
def indexed (maps : SessionMaps Entry) (session : Str) : List Str := (maps.sessionIndex session).getD []

def insert (maps : SessionMaps Entry) (key : Str) (entry : Entry) : SessionMaps Entry :=
  { maps with inner := Function.update maps.inner key (some entry) }

def index (maps : SessionMaps Entry) (session key : Str) : SessionMaps Entry :=
  { maps with
    sessionIndex :=
      Function.update maps.sessionIndex session (some (List.insert key (maps.indexed session))) }

def unindex (maps : SessionMaps Entry) (session : Str) : SessionMaps Entry :=
  { maps with sessionIndex := Function.update maps.sessionIndex session none }

def remove (maps : SessionMaps Entry) (key : Str) : SessionMaps Entry :=
  { maps with inner := Function.update maps.inner key none }

variable {maps : SessionMaps Entry} {session other key otherKey : Str} {entry : Entry}

@[simp] theorem inner_insert : (maps.insert key entry).inner =
    Function.update maps.inner key (some entry) := rfl

@[simp] theorem indexed_insert : (maps.insert key entry).indexed session = maps.indexed session := rfl

@[simp] theorem inner_index : (maps.index session key).inner = maps.inner := rfl

@[simp] theorem mem_indexed_index : otherKey ∈ (maps.index session key).indexed other ↔
    (other = session ∧ otherKey = key) ∨ otherKey ∈ maps.indexed other := by
  by_cases same : other = session
  · subst same
    simp [index, indexed]
  · simp [index, indexed, same]

@[simp] theorem inner_unindex : (maps.unindex session).inner = maps.inner := rfl

@[simp] theorem mem_indexed_unindex : key ∈ (maps.unindex session).indexed other ↔
    other ≠ session ∧ key ∈ maps.indexed other := by
  by_cases same : other = session
  · subst same
    simp [unindex, indexed]
  · simp [unindex, indexed, same]

@[simp] theorem inner_remove : (maps.remove key).inner = Function.update maps.inner key none := rfl

@[simp] theorem indexed_remove : (maps.remove key).indexed session = maps.indexed session := rfl

end SessionMaps

/-- The answers of the maps; the keys of a removed index entry come in any order. -/
def MapAnswers : (request : MapCall Entry) → SessionMaps Entry → MapAnswer Entry request →
    SessionMaps Entry → Prop
  | .get key, maps, found, after => found = maps.inner key ∧ after = maps
  | .insert key entry, maps, _, after => after = maps.insert key entry
  | .index session key, maps, _, after => after = maps.index session key
  | .unindex session, maps, keys, after =>
    (∀ key, key ∈ keys.getD [] ↔ key ∈ maps.indexed session) ∧ after = maps.unindex session
  | .remove key, maps, _, after => after = maps.remove key

/-- The maps alone, with the keys in the order of the index. -/
def serveMaps : (request : MapCall Entry) → SessionMaps Entry → MapAnswer Entry request × SessionMaps Entry
  | .get key, maps => (maps.inner key, maps)
  | .insert key entry, maps => ((), maps.insert key entry)
  | .index session key, maps => ((), maps.index session key)
  | .unindex session, maps => (maps.sessionIndex session, maps.unindex session)
  | .remove key, maps => ((), maps.remove key)

theorem mapAnswers_serveMaps (request : MapCall Entry) (maps : SessionMaps Entry) :
    MapAnswers request maps (serveMaps request maps).1 (serveMaps request maps).2 := by
  cases request with
  | get key => exact ⟨rfl, rfl⟩
  | unindex session => exact ⟨fun _ => Iff.rfl, rfl⟩
  | _ => exact rfl

/-! ### Redis -/

/-- The Redis calls; a scan with its loop over the cursor has a begin and an end. -/
inductive RedisCall where
  | get (key : Str)
  | setEx (key value : Str) (ttlSecs : Nat)
  | scanBegin (pattern : Str)
  | scanEnd (pattern : Str)
  | del (keys : List Str)

@[reducible] def RedisAnswer : RedisCall → Type
  | .get _ => Except Str (Option Str)
  | .setEx _ _ _ => Except Str Unit
  | .scanBegin _ => Except Str Unit
  | .scanEnd _ => Except Str (List Str)
  | .del _ => Except Str Unit

/-- How entries are written as JSON; what was written is read back. -/
structure EntryJson (Entry : Type) where
  toString : Entry → Str
  fromStr : Str → Option Entry
  round_trip : ∀ entry, fromStr (toString entry) = some entry

/-- An entry as its number in an enumeration, in unary. -/
def unaryJson (Entry : Type) [Encodable Entry] : EntryJson Entry where
  toString entry := List.replicate (Encodable.encode entry) 'i'
  fromStr text := Encodable.decode text.length
  round_trip entry := by rw [List.length_replicate, Encodable.encodek]

instance encodableChar : Encodable Char :=
  Encodable.ofLeftInjection Char.toNat (fun code => some (Char.ofNat code)) fun c => by rw [Char.ofNat_toNat]

/-- The Redis client of a store, if there is one, with the time to live of the keys. -/
structure RedisLayer (Entry : Type) where
  redisClient : Bool
  ttlSecs : Nat
  json : EntryJson Entry

/-! ### The functions of a store -/

section Functions

variable {Call Err : Type} {Answer : Call → Type}
  (maps : (request : MapCall Entry) → Program Call Answer Err (MapAnswer Entry request))
  (redis : (request : RedisCall) → Program Call Answer Err (RedisAnswer request))

def recordLocal (sessionId localKey : Str) (entry : Entry) : Program Call Answer Err Unit := do
  let _ ← maps (.insert localKey entry)
  let _ ← maps (.index (Str.trim sessionId) localKey)
  return ()

/-- The loop over the keys of a removed index entry. -/
def evict : List Str → Program Call Answer Err Unit
  | [] => return ()
  | key :: keys => do
    let _ ← maps (.remove key)
    evict keys

def clearLocal (sessionId : Str) : Program Call Answer Err Unit := do
  match ← maps (.unindex (Str.trim sessionId)) with
  | some keys => evict maps keys
  | none => return ()

def tryRedisGet (layer : RedisLayer Entry) (redisKey : Str) : Program Call Answer Err (Option Entry) :=
  if layer.redisClient then do
    match ← redis (.get redisKey) with
    | .ok (some json) => return layer.json.fromStr json
    | _ => return none
  else return none

def tryRedisSetex (layer : RedisLayer Entry) (redisKey : Str) (entry : Entry) : Program Call Answer Err Unit :=
  if layer.redisClient then do
    let _ ← redis (.setEx redisKey (layer.json.toString entry) layer.ttlSecs)
    return ()
  else return ()

def scanAndDelPattern (pattern : Str) : Program Call Answer Err Unit := do
  match ← redis (.scanBegin pattern) with
  | .error _ => return ()
  | .ok _ =>
    match ← redis (.scanEnd pattern) with
    | .error _ => return ()
    | .ok keys =>
      if keys.isEmpty then return ()
      else do
        let _ ← redis (.del keys)
        return ()

/-- The local removal, and the background deletion when there is a client. -/
def clearBoth (layer : RedisLayer Entry) (sessionId pattern : Str) : Program Call Answer Err Unit := do
  clearLocal maps sessionId
  if layer.redisClient then scanAndDelPattern redis pattern else return ()

end Functions
end SkillLayer.McpServer
