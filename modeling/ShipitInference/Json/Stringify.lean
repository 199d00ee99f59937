import ShipitInference.Json.Value

/-! `JSON.stringify` and the string conversion of template literals, over the JSON values the
inference core serialises: tool results and tool arguments, message parts in the native
prompt, and values spliced into error messages.
-/

namespace Shipit.Inference.Json

open Shipit.Inference.Js

-----------------------------------------------------------------------------------------
-- Numbers and strings
-----------------------------------------------------------------------------------------

/-- The decimal digits of a natural number. -/
def natDigits (n : Nat) : List Char := (toString n).data

/-- `Number::toString` of a finite value. The shortest digit string of an exact decimal is its
own, trailing zeros removed; with `value = 0.ds × 10 ^ n`, the cases are those of the
specification: an integer, a point inside the digits, a small fraction, or an exponent.
-/
def numberToString (d : Decimal) : String :=
  if d.mantissa = 0 then "0"
  else
    let digits := natDigits d.mantissa.natAbs
    let zeros := (digits.reverse.takeWhile (· = '0')).length
    let ds := digits.take (digits.length - zeros)
    let k : Int := ds.length
    let n : Int := d.exponent + zeros + k
    let body : List Char :=
      if k ≤ n ∧ n ≤ 21 then ds ++ List.replicate (n - k).toNat '0'
      else if 0 < n ∧ n ≤ 21 then ds.take n.toNat ++ '.' :: ds.drop n.toNat
      else if -6 < n ∧ n ≤ 0 then '0' :: '.' :: (List.replicate (-n).toNat '0' ++ ds)
      else
        let exp := (if 0 ≤ n - 1 then '+' else '-') :: natDigits (n - 1).natAbs
        match ds with
        | [c] => c :: 'e' :: exp
        | c :: rest => c :: '.' :: (rest ++ 'e' :: exp)
        | [] => []
    String.mk ((if d.mantissa < 0 then ['-'] else []) ++ body)

/-- `Number::toString` of any number. -/
def numberText : JsNumber → String
  | .nan => "NaN"
  | .infinity negative => if negative then "-Infinity" else "Infinity"
  | .finite d => numberToString d

/-- A lowercase hexadecimal digit. -/
def hexDigit (n : Nat) : Char := if n < 10 then Char.ofNat (48 + n) else Char.ofNat (87 + n)

/-- One character of `QuoteJSONString`. -/
def escapeChar (c : Char) : List Char :=
  if c = '"' then ['\\', '"']
  else if c = '\\' then ['\\', '\\']
  else if c = '\x08' then ['\\', 'b']
  else if c = '\x0C' then ['\\', 'f']
  else if c = '\n' then ['\\', 'n']
  else if c = '\r' then ['\\', 'r']
  else if c = '\t' then ['\\', 't']
  else if c.toNat < 0x20 then ['\\', 'u', '0', '0', hexDigit (c.toNat / 16), hexDigit (c.toNat % 16)]
  else [c]

/-- `QuoteJSONString(s)`. -/
def quote (s : String) : String := String.mk ('"' :: (s.data.flatMap escapeChar ++ ['"']))

-----------------------------------------------------------------------------------------
-- JSON.stringify
-----------------------------------------------------------------------------------------

mutual

/-- `JSON.stringify(v)`, without indentation; object members in own-property order. -/
def stringify : JsonValue → String
  | .null => "null"
  | .bool b => if b then "true" else "false"
  | .number n => numberToString n
  | .string s => quote s
  | .array items => "[" ++ ",".intercalate (stringifyItems items) ++ "]"
  | .object fields =>
      "\x7b" ++ ",".intercalate ((ownEntries (stringifyFields fields)).map
        fun e => quote e.1 ++ ":" ++ e.2) ++ "\x7d"

def stringifyItems : List JsonValue → List String
  | [] => []
  | v :: rest => stringify v :: stringifyItems rest

def stringifyFields : List (String × JsonValue) → List (String × String)
  | [] => []
  | (k, v) :: rest => (k, stringify v) :: stringifyFields rest

end

-----------------------------------------------------------------------------------------
-- Template literals
-----------------------------------------------------------------------------------------

mutual

/-- `String(v)`, as a template literal `${v}` converts a value. -/
def toJsString : JsonValue → String
  | .null => "null"
  | .bool b => if b then "true" else "false"
  | .number n => numberToString n
  | .string s => s
  | .array items => ",".intercalate (joinItems items)
  | .object _ => "[object Object]"

/-- The items of `Array.prototype.join`: `null` becomes the empty string. -/
def joinItems : List JsonValue → List String
  | [] => []
  | .null :: rest => "" :: joinItems rest
  | v :: rest => toJsString v :: joinItems rest

end

/-- `${v}` for a property read that may be `undefined`. -/
def templateString (v : Option JsonValue) : String := (v.map toJsString).getD "undefined"

end Shipit.Inference.Json
