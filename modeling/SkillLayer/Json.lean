import Mathlib.Algebra.Group.Int.Defs
import SkillLayer.Text

/-! The JSON values that the transcript lines and event payloads are read from. -/

namespace SkillLayer

inductive Value where
  | null
  | bool (flag : Bool)
  | number (value : Rat)
  | string (text : Str)
  | array (items : List Value)
  | object (fields : List (Str × Value))

namespace Value

/-- `Value::get` with a field name: only objects have fields. -/
def get? (value : Value) (field : Str) : Option Value :=
  match value with
  | .object fields => fields.lookup field
  | _ => none

/-- `Value::pointer` for a path of field names, none of which is an array index. -/
def pointer? (value : Value) (path : List Str) : Option Value :=
  path.foldlM get? value

def asStr? : Value → Option Str
  | .string text => some text
  | _ => none

def asBool? : Value → Option Bool
  | .bool flag => some flag
  | _ => none

def asArray? : Value → Option (List Value)
  | .array items => some items
  | _ => none

/-- `as_i64`: a number that is an integer of 64 bits. -/
def asI64? : Value → Option Int
  | .number value =>
    if value.den = 1 ∧ -2 ^ 63 ≤ value.num ∧ value.num < 2 ^ 63 then some value.num else none
  | _ => none

end Value

/-- The two entry points of the JSON library that the transcript parser calls. -/
structure SerdeJson where
  fromStr : Str → Except Str Value
  toString : Value → Str

/-- The library as far as one text and the printing of one value are concerned. -/
def SerdeJson.onText (text : Str) (value : Value) (printed : Str) : SerdeJson where
  fromStr other := if other = text then .ok value else .error "expected value"
  toString _ := printed

theorem SerdeJson.fromStr_onText (text : Str) (value : Value) (printed : Str) :
    (SerdeJson.onText text value printed).fromStr text = .ok value :=
  if_pos rfl

end SkillLayer
