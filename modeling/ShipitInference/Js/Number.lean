import ShipitInference.Js.Text

/-! JavaScript numbers as the inference core reads them, with finite values kept exactly as
`mantissa * 10 ^ exponent`: rounding to binary64 is not modelled.
-/

namespace Shipit.Inference.Js

/-- An exact decimal `mantissa * 10 ^ exponent`, with the digits of the literal it was read
from (so `1.50` is `150 * 10 ^ -2`).
-/
structure Decimal where
  mantissa : Int
  exponent : Int
  deriving DecidableEq, Repr

/-- A JavaScript number value. -/
inductive JsNumber where
  | nan
  | infinity (negative : Bool)
  | finite (value : Decimal)
  deriving DecidableEq, Repr

def isDigit (c : Char) : Bool := '0' ≤ c && c ≤ '9'

/-- The natural number spelled by a list of decimal digits. -/
def digitsValue (ds : List Char) : Nat :=
  ds.foldl (fun acc c => acc * 10 + (c.toNat - '0'.toNat)) 0

/-- The exact value of a decimal literal `sign int . frac e exp`. -/
def decimalOfDigits (negative : Bool) (intDigits fracDigits : List Char) (exp : Int) :
    Decimal :=
  let value : Int := digitsValue (intDigits ++ fracDigits)
  ⟨if negative then -value else value, exp - fracDigits.length⟩

/-- An optional sign followed by at least one digit, as in `SignedInteger`; `none` when the
text does not start with one.
-/
def signedInteger? : List Char → Option Int
  | '+' :: rest => unsigned? rest
  | '-' :: rest => (unsigned? rest).map (- ·)
  | rest => unsigned? rest
where
  unsigned? (cs : List Char) : Option Int :=
    let ds := cs.takeWhile isDigit
    if ds = [] then none else some (digitsValue ds)

/-- The value of the longest `StrUnsignedDecimalLiteral` prefix of a text, if any. -/
def unsignedDecimalPrefix (negative : Bool) (cs : List Char) : JsNumber :=
  if "Infinity".data.isPrefixOf cs then .infinity negative
  else
    let intDigits := cs.takeWhile isDigit
    let afterInt := cs.dropWhile isDigit
    let (fracDigits, afterFrac) : List Char × List Char :=
      match afterInt with
      | '.' :: rest => (rest.takeWhile isDigit, rest.dropWhile isDigit)
      | _ => ([], afterInt)
    if intDigits = [] ∧ fracDigits = [] then .nan
    else
      let exp : Int :=
        match afterFrac with
        | c :: rest => if c = 'e' ∨ c = 'E' then (signedInteger? rest).getD 0 else 0
        | [] => 0
      .finite (decimalOfDigits negative intDigits fracDigits exp)

/-- `parseFloat(s)`: skip leading whitespace, read the longest `StrDecimalLiteral` prefix,
`NaN` when there is none.
-/
def parseFloat (s : String) : JsNumber :=
  match s.data.dropWhile isJsWhitespace with
  | '-' :: rest => unsignedDecimalPrefix true rest
  | '+' :: rest => unsignedDecimalPrefix false rest
  | rest => unsignedDecimalPrefix false rest

namespace Decimal

/-- The exact sum, both mantissas scaled to the smaller exponent. -/
def add (a b : Decimal) : Decimal :=
  let e := min a.exponent b.exponent
  ⟨a.mantissa * 10 ^ (a.exponent - e).toNat + b.mantissa * 10 ^ (b.exponent - e).toNat, e⟩

/-- The integer part, rounded toward zero, as `ToIntegerOrInfinity` takes it. -/
def truncate (d : Decimal) : Int :=
  if 0 ≤ d.exponent then d.mantissa * 10 ^ d.exponent.toNat
  else if d.mantissa < 0 then -((-d.mantissa) / 10 ^ (-d.exponent).toNat)
  else d.mantissa / 10 ^ (-d.exponent).toNat

end Decimal

namespace JsNumber

/-- `x + y`. -/
def add : JsNumber → JsNumber → JsNumber
  | nan, _ => nan
  | _, nan => nan
  | infinity negative, infinity negative' => if negative = negative' then infinity negative else nan
  | infinity negative, finite _ => infinity negative
  | finite _, infinity negative => infinity negative
  | finite a, finite b => finite (a.add b)

/-- `x < n` for a count `n`: false for `NaN`. -/
def ltNat (x : JsNumber) (n : Nat) : Bool :=
  match x with
  | nan => false
  | infinity negative => negative
  | finite d =>
      if 0 ≤ d.exponent then decide (d.mantissa * 10 ^ d.exponent.toNat < n)
      else decide (d.mantissa < n * 10 ^ (-d.exponent).toNat)

/-- `Number.isNaN`. -/
def isNaN : JsNumber → Bool
  | nan => true
  | _ => false

/-- `x > 0`. -/
def isPositive : JsNumber → Bool
  | infinity negative => !negative
  | finite d => 0 < d.mantissa
  | nan => false

/-- JavaScript truthiness of a number: neither `NaN` nor zero. -/
def isTruthy : JsNumber → Bool
  | nan => false
  | infinity _ => true
  | finite d => d.mantissa ≠ 0

/-- `n >= x` for a count `n`: false against `NaN`. -/
def leNat (x : JsNumber) (n : Nat) : Bool :=
  match x with
  | nan => false
  | infinity negative => negative
  | finite d =>
      if 0 ≤ d.exponent then decide (d.mantissa * 10 ^ d.exponent.toNat ≤ n)
      else decide (d.mantissa ≤ n * 10 ^ (-d.exponent).toNat)

/-- `Number.isFinite`. -/
def isFinite : JsNumber → Bool
  | finite _ => true
  | _ => false

/-- The ceiling of `m * 10 ^ e` for an exact decimal. -/
def ceilDecimal (m e : Int) : Int :=
  if 0 ≤ e then m * 10 ^ e.toNat else -((-m) / 10 ^ (-e).toNat)

/-- `Math.ceil(x * 1000)`, a delay in seconds turned into whole milliseconds. -/
def ceilMillis : JsNumber → JsNumber
  | finite d => .finite ⟨ceilDecimal d.mantissa (d.exponent + 3), 0⟩
  | x => x

/-- A finite number with no fractional part, as a natural number when it is one. -/
def toNat? : JsNumber → Option Nat
  | finite ⟨m, e⟩ =>
      if m < 0 then none
      else if 0 ≤ e then some (m.toNat * 10 ^ e.toNat)
      else if m % 10 ^ (-e).toNat = 0 then some (m / 10 ^ (-e).toNat).toNat else none
  | _ => none

/-- The number `n`, as the literal `34000` spells it. -/
def ofNat (n : Nat) : JsNumber := .finite ⟨n, 0⟩

end JsNumber

end Shipit.Inference.Js
