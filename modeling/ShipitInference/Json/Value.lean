import Mathlib.Data.List.Sort
import ShipitInference.Js.Number

/-! JSON values as `JSON.parse` builds them, with the own-property order of JavaScript
objects: array-index keys first in ascending order, then the other keys in creation order.
-/

namespace Shipit.Inference.Json

open Shipit.Inference.Js

/-- A value produced by `JSON.parse`. An object lists its own properties in creation order,
each key once.
-/
inductive JsonValue where
  | null
  | bool (b : Bool)
  | number (n : Decimal)
  | string (s : String)
  | array (items : List JsonValue)
  | object (fields : List (String × JsonValue))
  deriving Repr

namespace JsonValue

/-- `typeof v === 'object' && v !== null && !Array.isArray(v)`. -/
def isObject : JsonValue → Bool
  | object _ => true
  | _ => false

/-- `Array.isArray(v)`. -/
def isArray : JsonValue → Bool
  | array _ => true
  | _ => false

/-- JavaScript truthiness of a JSON value. -/
def isTruthy : JsonValue → Bool
  | null => false
  | bool b => b
  | number n => n.mantissa ≠ 0
  | string s => s ≠ ""
  | _ => true

/-- Induction over a value with the hypothesis for every item of an array and every member of an
object, in whatever order a proof visits them. -/
theorem induct_mem {motive : JsonValue → Prop}
    (null : motive null) (bool : ∀ b, motive (bool b)) (number : ∀ d, motive (number d))
    (string : ∀ s, motive (string s))
    (array : ∀ items, (∀ v ∈ items, motive v) → motive (array items))
    (object : ∀ fields, (∀ e ∈ fields, motive e.2) → motive (object fields)) :
    ∀ v, motive v
  | .null => null
  | .bool b => bool b
  | .number d => number d
  | .string s => string s
  | .array items => array items fun v _ => induct_mem null bool number string array object v
  | .object fields => object fields fun e _ => induct_mem null bool number string array object e.2
termination_by v => sizeOf v
decreasing_by
  all_goals simp_wf
  · have := List.sizeOf_lt_of_mem ‹v ∈ items›; omega
  · have := List.sizeOf_lt_of_mem ‹e ∈ fields›
    obtain ⟨k, w⟩ := e
    simp only [Prod.mk.sizeOf_spec] at this ⊢
    omega

end JsonValue

/-- The own properties of an object, in creation order. -/
abbrev Fields := List (String × JsonValue)

/-- A property key that is a canonical array index (`"0"`, `"1"`, ..., below `2 ^ 32 - 1`):
such keys come first in property order.
-/
def arrayIndex? (k : String) : Option Nat :=
  match k.data with
  | ['0'] => some 0
  | c :: rest =>
      if c ≠ '0' ∧ (c :: rest).all isDigit ∧ digitsValue (c :: rest) < 2 ^ 32 - 1 then
        some (digitsValue (c :: rest))
      else none
  | [] => none

/-- `Object.entries(o)`: array-index keys ascending, then the others in creation order. Any
stable sort gives this order; the values ride along, so a caller may carry a processed value
under each key.
-/
def ownEntries {α : Type} (fields : List (String × α)) : List (String × α) :=
  (fields.filter (fun e => (arrayIndex? e.1).isSome)).insertionSort
      (fun a b => (arrayIndex? a.1).getD 0 ≤ (arrayIndex? b.1).getD 0) ++
    fields.filter (fun e => (arrayIndex? e.1).isNone)

/-- `o[k]` for an own property. -/
def getField (fields : Fields) (k : String) : Option JsonValue := fields.lookup k

/-- `k in o` for a plain object: none of the names read here is inherited from
`Object.prototype`.
-/
def hasField (fields : Fields) (k : String) : Bool := (getField fields k).isSome

/-- `o[k] = v` (and `CreateDataProperty`): overwrite in place or append. -/
def setField (fields : Fields) (k : String) (v : JsonValue) : Fields :=
  if hasField fields k then fields.map (fun e => if e.1 = k then (k, v) else e)
  else fields ++ [(k, v)]

/-- `v[k]` for a key read off a parsed JSON value: an object's own property, an array's item
or a string's character at an index key, `undefined` otherwise; none of the keys read here
names a prototype property.
-/
def getProp : JsonValue → String → Option JsonValue
  | .object fields, k => getField fields k
  | .array items, k => (arrayIndex? k).bind fun i => items.get? i
  | .string s, k => (arrayIndex? k).bind fun i => (s.data.get? i).map fun c => .string (String.singleton c)
  | _, _ => none

/-- `v?.[k]` along a path of keys, from a value that may be `undefined`. -/
def getPath (v : Option JsonValue) (path : List String) : Option JsonValue :=
  path.foldl (fun acc k => acc.bind fun w => getProp w k) v

/-- `{ ...o }` and `{ first, ...o }`: a fresh object built from the given own entries. -/
def spreadFields (init : Fields) (entries : Fields) : Fields :=
  entries.foldl (fun acc e => setField acc e.1 e.2) init

end Shipit.Inference.Json
