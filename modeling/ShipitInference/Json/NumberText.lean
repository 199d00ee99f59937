import Mathlib.Data.Nat.Digits
import ShipitInference.Js.NumberValue
import ShipitInference.Json.Parse
import ShipitInference.Json.Stringify

/-! The text `Number::toString` prints for a finite number, in one of its four layouts, read
back by the number grammar of `JSON.parse` as a decimal of the same value.
-/

namespace Shipit.Inference.Json

open Shipit.Inference.Js

-----------------------------------------------------------------------------------------
-- Decimal digits
-----------------------------------------------------------------------------------------

section Digits

private theorem foldl_digitsValue (acc : Nat) (b : List Char) :
    b.foldl (fun acc c => acc * 10 + (c.toNat - '0'.toNat)) acc =
      acc * 10 ^ b.length + digitsValue b := by
  induction b generalizing acc with
  | nil => simp [digitsValue]
  | cons c b ih =>
    simp only [digitsValue, List.foldl_cons, List.length_cons] at ih ⊢
    rw [ih, ih (0 * 10 + _)]
    ring

@[simp] theorem digitsValue_nil : digitsValue [] = 0 := rfl

theorem digitsValue_append (a b : List Char) :
    digitsValue (a ++ b) = digitsValue a * 10 ^ b.length + digitsValue b := by
  rw [digitsValue, List.foldl_append, foldl_digitsValue]; rfl

theorem digitsValue_cons (c : Char) (b : List Char) :
    digitsValue (c :: b) = (c.toNat - '0'.toNat) * 10 ^ b.length + digitsValue b := by
  rw [← List.singleton_append, digitsValue_append]; simp [digitsValue]

@[simp] theorem digitsValue_replicate_zero (j : Nat) : digitsValue (List.replicate j '0') = 0 := by
  induction j with
  | zero => rfl
  | succ j ih => simp [List.replicate_succ, digitsValue_cons, ih]

/-- The decimal digits of `n`: digits only, at least one, spelling `n`, and without a leading
zero unless `n` is zero. -/
structure DecimalDigits (n : Nat) (ds : List Char) : Prop where
  all_digits : ∀ c ∈ ds, isDigit c
  ne_nil : ds ≠ []
  value : digitsValue ds = n
  no_leading_zero : 0 < n → ds.head? ≠ some '0'

private theorem digitChar_spec : ∀ k < 10,
    isDigit (Nat.digitChar k) = true ∧ (Nat.digitChar k).toNat - '0'.toNat = k := by
  decide

/-- `Nat.toDigitsCore` with fuel to spare pushes the decimal digits of its number. -/
theorem toDigitsCore_decimalDigits (fuel n : Nat) (acc : List Char) (enough : n < fuel) :
    ∃ ds, Nat.toDigitsCore 10 fuel n acc = ds ++ acc ∧ DecimalDigits n ds := by
  induction fuel generalizing n acc with
  | zero => omega
  | succ fuel ih =>
    obtain ⟨digit, value⟩ := digitChar_spec (n % 10) (Nat.mod_lt _ (by omega))
    simp only [Nat.toDigitsCore]
    split
    case isTrue last =>
      refine ⟨[Nat.digitChar (n % 10)], rfl, by simpa using digit, by simp, ?_, ?_⟩
      · rw [digitsValue_cons, value]; simp; omega
      · intro pos same
        simp only [List.head?_cons, Option.some.injEq] at same
        rw [same] at value; simp at value; omega
    case isFalse more =>
      obtain ⟨ds, eq, spec⟩ := ih (n / 10) (Nat.digitChar (n % 10) :: acc) (by omega)
      refine ⟨ds ++ [Nat.digitChar (n % 10)], by rw [eq, List.append_assoc]; rfl, ?_, by simp, ?_, ?_⟩
      · simp only [List.mem_append, List.mem_singleton]
        rintro c (member | rfl)
        exacts [spec.all_digits c member, digit]
      · rw [digitsValue_append, spec.value, digitsValue_cons, value]; simp; omega
      · intro _
        rw [List.head?_append_of_ne_nil _ spec.ne_nil]
        exact spec.no_leading_zero (by omega)

theorem natDigits_decimalDigits (n : Nat) : DecimalDigits n (natDigits n) := by
  obtain ⟨ds, eq, spec⟩ := toDigitsCore_decimalDigits (n + 1) n [] (by omega)
  have : natDigits n = ds := by rw [← List.append_nil ds, ← eq]; rfl
  exact this ▸ spec

/-- `Nat.toDigitsCore` pushes its digits in front of what it was given. -/
theorem toDigitsCore_acc (fuel n : Nat) (acc : List Char) :
    Nat.toDigitsCore 10 fuel n acc = Nat.toDigitsCore 10 fuel n [] ++ acc := by
  induction fuel generalizing n acc with
  | zero => rfl
  | succ fuel ih =>
    simp only [Nat.toDigitsCore]
    split
    · rfl
    · rw [ih, ih _ [_], List.append_assoc]; rfl

/-- Fuel beyond the number itself does not change the digits. -/
theorem toDigitsCore_fuel (f g n : Nat) (hf : n < f) (hg : n < g) :
    Nat.toDigitsCore 10 f n [] = Nat.toDigitsCore 10 g n [] := by
  induction f generalizing g n with
  | zero => omega
  | succ f ih =>
    obtain ⟨g, rfl⟩ : ∃ g', g = g' + 1 := ⟨g - 1, by omega⟩
    simp only [Nat.toDigitsCore]
    split
    · rfl
    · rw [toDigitsCore_acc f _ [_], toDigitsCore_acc g _ [_], ih g _ (by omega) (by omega)]

theorem natDigits_mul_ten {n : Nat} (pos : 0 < n) : natDigits (n * 10) = natDigits n ++ ['0'] := by
  show Nat.toDigitsCore 10 (n * 10 + 1) (n * 10) [] = Nat.toDigitsCore 10 (n + 1) n [] ++ ['0']
  rw [Nat.toDigitsCore, if_neg (by omega), toDigitsCore_acc, Nat.mul_div_cancel _ (by norm_num),
    toDigitsCore_fuel (n * 10) (n + 1) n (by omega) (by omega), Nat.mul_mod_left]
  rfl

end Digits

-----------------------------------------------------------------------------------------
-- The layouts of a printed number
-----------------------------------------------------------------------------------------

section Layout

private theorem strip_trailing_zeros (digits : List Char) :
    digits = digits.take (digits.length - (digits.reverse.takeWhile (· = '0')).length) ++
      List.replicate (digits.reverse.takeWhile (· = '0')).length '0' := by
  have whole := List.takeWhile_append_dropWhile (· = '0') digits.reverse
  have zeros : (digits.reverse.takeWhile (· = '0')).reverse =
      List.replicate (digits.reverse.takeWhile (· = '0')).length '0' := by
    rw [List.eq_replicate_iff, List.length_reverse]
    refine ⟨rfl, fun b member => ?_⟩
    simpa using List.mem_takeWhile_imp (List.mem_reverse.1 member)
  generalize digits.reverse.takeWhile (· = '0') = T at whole zeros ⊢
  generalize digits.reverse.dropWhile (· = '0') = D at whole
  obtain rfl : digits = D.reverse ++ T.reverse := by
    rw [← List.reverse_append, whole, List.reverse_reverse]
  simp [← zeros]

/-- A number token as `JSON.parse` reads it: an optional minus sign, integer digits (a single
zero or no leading zero), fraction digits after a point when there are any, and an exponent
part, empty or starting with `e`, that reads `exponent`. -/
structure NumberLayout where
  negative : Bool
  intDigits : List Char
  fracDigits : List Char
  exponentPart : List Char
  exponent : Int
  int_digits : ∀ c ∈ intDigits, isDigit c
  frac_digits : ∀ c ∈ fracDigits, isDigit c
  lead : intDigits = ['0'] ∨ (intDigits ≠ [] ∧ intDigits.head? ≠ some '0')
  exponent_read : jsonExponent? exponentPart = some exponent
  exponent_start : ∀ c ∈ exponentPart.head?, c = 'e'
  exponent_chars : ∀ c ∈ exponentPart, isNumberChar c

namespace NumberLayout

def text (l : NumberLayout) : List Char :=
  (if l.negative then ['-'] else []) ++ l.intDigits ++
    (if l.fracDigits = [] then [] else '.' :: l.fracDigits) ++ l.exponentPart

/-- The decimal the number grammar builds from the layout's parts. -/
def decimal (l : NumberLayout) : Decimal :=
  decimalOfDigits l.negative l.intDigits l.fracDigits l.exponent

/-- The exponent part starts with no digit: the integer and fraction digits stop before it. -/
theorem exponentPart_whileDigit (l : NumberLayout) :
    l.exponentPart.takeWhile isDigit = [] ∧ l.exponentPart.dropWhile isDigit = l.exponentPart := by
  cases part : l.exponentPart with
  | nil => exact ⟨rfl, rfl⟩
  | cons e r =>
    obtain rfl : e = 'e' := l.exponent_start e (by simp [part])
    exact ⟨rfl, rfl⟩

/-- The integer digits start with a digit, which is no minus sign. -/
theorem intDigits_cons (l : NumberLayout) :
    ∃ c cs, l.intDigits = c :: cs ∧ isDigit c ∧ c ≠ '-' := by
  obtain ⟨c, cs, int⟩ : ∃ c cs, l.intDigits = c :: cs := by
    rcases l.lead with h | ⟨h, -⟩
    · exact ⟨_, _, h⟩
    · exact List.exists_cons_of_ne_nil h
  have digit := l.int_digits c (by simp [int])
  exact ⟨c, cs, int, digit, by rintro rfl; cases digit⟩

theorem jsonNumber?_text (l : NumberLayout) : jsonNumber? l.text = some l.decimal := by
  obtain ⟨c, cs, int, -, unsigned⟩ := l.intDigits_cons
  obtain ⟨expTake, expDrop⟩ := l.exponentPart_whileDigit
  unfold jsonNumber?
  split
  rename_i negative rest sign
  obtain ⟨rfl, rfl⟩ : negative = l.negative ∧ rest = l.intDigits ++
      ((if l.fracDigits = [] then [] else '.' :: l.fracDigits) ++ l.exponentPart) := by
    split at sign <;> obtain ⟨rfl, rfl⟩ := Prod.mk.inj sign
    case h_1 r minus =>
      cases neg : l.negative <;> simp [text, neg, int] at minus ⊢
      exacts [unsigned minus.1, minus.symm]
    case h_2 r plus =>
      cases neg : l.negative <;> simp [text, neg, int] at plus ⊢
  dsimp only
  rw [List.takeWhile_append_of_pos l.int_digits, List.dropWhile_append_of_pos l.int_digits]
  by_cases frac : l.fracDigits = []
  · simp only [frac, if_true, List.nil_append, expTake, expDrop, List.append_nil, guard,
      if_pos l.lead, pure_bind]
    split
    · rename_i r point
      simpa [point] using l.exponent_start
    · simp [l.exponent_read, decimal, frac]
  · simp only [frac, if_false, List.cons_append, List.takeWhile_cons_of_neg (show ¬isDigit '.' from nofun), List.dropWhile_cons_of_neg (show ¬isDigit '.' from nofun), List.append_nil, guard,
      if_pos l.lead, pure_bind, List.takeWhile_append_of_pos l.frac_digits, List.dropWhile_append_of_pos l.frac_digits, expTake, expDrop]
    simp [frac, l.exponent_read, decimal]

theorem isNumberChar_of_mem_text (l : NumberLayout) : ∀ c ∈ l.text, isNumberChar c := by
  have digit : ∀ c, isDigit c → isNumberChar c := fun c h => by simp [isNumberChar, h]
  simp only [text, List.mem_append, or_assoc]
  rintro c (sign | int | frac | exp)
  · split at sign <;> simp_all [isNumberChar]
  · exact digit c (l.int_digits c int)
  · split at frac
    · cases frac
    · rcases List.mem_cons.1 frac with rfl | f
      exacts [rfl, digit c (l.frac_digits c f)]
  · exact l.exponent_chars c exp

theorem text_head (l : NumberLayout) : ∃ c rest, l.text = c :: rest ∧ (isDigit c ∨ c = '-') := by
  obtain ⟨c, cs, int, digit, -⟩ := l.intDigits_cons
  cases neg : l.negative
  · exact ⟨c, _, by rw [text, neg, int]; rfl, .inl digit⟩
  · exact ⟨'-', _, by rw [text, neg]; rfl, .inr rfl⟩

end NumberLayout

/-- The exponent part `Number::toString` prints reads back as the exponent. -/
theorem jsonExponent?_printed (x : Int) :
    jsonExponent? ('e' :: (if 0 ≤ x then '+' else '-') :: natDigits x.natAbs) = some x := by
  have spec := natDigits_decimalDigits x.natAbs
  have digits : jsonExponent?.digits? (natDigits x.natAbs) = some (x.natAbs : Int) := by
    rw [jsonExponent?.digits?, if_pos ⟨spec.ne_nil, List.all_eq_true.2 spec.all_digits⟩, spec.value]
  by_cases sign : 0 ≤ x
  · simp [jsonExponent?, sign, digits]
  · simp [jsonExponent?, sign, digits, abs_of_neg (not_le.1 sign)]

/-- Two decimals whose mantissas are one integer scaled by powers of ten have one value when
the exponents make up the difference. -/
theorem Decimal.value_eq_of_scaled {a b : Decimal} {D : Int} {i j : Nat}
    (ha : a.mantissa = D * 10 ^ i) (hb : b.mantissa = D * 10 ^ j)
    (he : a.exponent + i = b.exponent + j) : a.value = b.value := by
  have scale : ∀ (x : Int) (k : Nat), ((10 : Int) ^ k : Int) * (10 : ℚ) ^ x = 10 ^ (x + k) := by
    intro x k
    rw [zpow_add₀ (by norm_num), zpow_natCast, Int.cast_pow, Int.cast_ofNat, mul_comm]
  rw [Decimal.value, Decimal.value, ha, hb, Int.cast_mul, Int.cast_mul, mul_assoc, mul_assoc,
    scale, scale, he]

/-- The digits of a positive number split before a run of trailing zeros: the part before is
a nonempty digit string without a leading zero that, scaled by the zeros, spells the number. -/
theorem significant_of_split {n : Nat} (pos : 0 < n) {ds : List Char} {zeros : Nat}
    (split : natDigits n = ds ++ List.replicate zeros '0') :
    ds ≠ [] ∧ (∀ c ∈ ds, isDigit c) ∧ ds.head? ≠ some '0' ∧ digitsValue ds * 10 ^ zeros = n := by
  have spec := natDigits_decimalDigits n
  rw [split] at spec
  have ne : ds ≠ [] := by
    rintro rfl
    cases zeros with
    | zero => exact spec.ne_nil rfl
    | succ z => exact spec.no_leading_zero pos rfl
  refine ⟨ne, fun c member => spec.all_digits c (List.mem_append_left _ member), ?_, ?_⟩
  · rw [← List.head?_append_of_ne_nil _ ne]
    exact spec.no_leading_zero pos
  · simpa [digitsValue_append] using spec.value

/-- The mantissa the number grammar builds from digits spelling `D * 10 ^ i`. -/
theorem decimalOfDigits_mantissa (negative : Bool) (intDigits fracDigits : List Char) (x : Int)
    {D i : Nat} (spells : digitsValue (intDigits ++ fracDigits) = D * 10 ^ i) :
    (decimalOfDigits negative intDigits fracDigits x).mantissa =
      (if negative then -(D : Int) else D) * 10 ^ i := by
  simp only [decimalOfDigits, spells, Nat.cast_mul, Nat.cast_pow, Nat.cast_ofNat]
  split <;> ring

theorem decimalOfDigits_exponent (negative : Bool) (intDigits fracDigits : List Char) (x : Int) :
    (decimalOfDigits negative intDigits fracDigits x).exponent = x - fracDigits.length := rfl

/-- The exponent part of a number printed with an exponent. -/
def printedExponent (x : Int) : List Char :=
  'e' :: (if 0 ≤ x then '+' else '-') :: natDigits x.natAbs

theorem printedExponent_chars (x : Int) : ∀ c ∈ printedExponent x, isNumberChar c := by
  simp only [printedExponent, List.mem_cons]
  rintro c (rfl | rfl | member)
  · rfl
  · split <;> rfl
  · simp [isNumberChar, (natDigits_decimalDigits _).all_digits c member]

theorem numberToString_layout (d : Decimal) :
    ∃ l : NumberLayout, (numberToString d).data = l.text ∧ l.decimal.value = d.value := by
  by_cases zero : d.mantissa = 0
  · refine ⟨⟨false, ['0'], [], [], 0, by decide, by decide, .inl rfl, rfl, by decide, by decide⟩,
      by rw [numberToString, if_pos zero]; rfl, ?_⟩
    simp [NumberLayout.decimal, decimalOfDigits, Decimal.value, zero, digitsValue]
  · have split := strip_trailing_zeros (natDigits d.mantissa.natAbs)
    rw [numberToString, if_neg zero]
    dsimp only
    generalize ((natDigits d.mantissa.natAbs).reverse.takeWhile (· = '0')).length = zeros at split ⊢
    generalize (natDigits d.mantissa.natAbs).take ((natDigits d.mantissa.natAbs).length - zeros) = ds
      at split ⊢
    obtain ⟨ne, all, head, value⟩ := significant_of_split (by omega) split
    have mantissa : d.mantissa = (if decide (d.mantissa < 0) then -(digitsValue ds : Int)
        else digitsValue ds) * 10 ^ zeros := by
      have cast : (digitsValue ds : Int) * 10 ^ zeros = d.mantissa.natAbs := by exact_mod_cast value
      by_cases sign : d.mantissa < 0
      · rw [decide_eq_true sign, if_pos rfl, neg_mul, cast, Int.ofNat_natAbs_of_nonpos sign.le,
          neg_neg]
      · rw [decide_eq_false sign, if_neg Bool.false_ne_true, cast,
          Int.natAbs_of_nonneg (not_lt.1 sign)]
    generalize hn : d.exponent + zeros + ds.length = n
    have digit : ∀ c, isDigit c → isNumberChar c := fun c h => by simp [isNumberChar, h]
    by_cases integer : ds.length ≤ n ∧ n ≤ 21
    · rw [if_pos integer]
      refine ⟨⟨decide (d.mantissa < 0), ds ++ List.replicate (n - ds.length).toNat '0', [], [], 0,
        ?_, by simp, .inr ⟨by simp [ne], by rwa [List.head?_append_of_ne_nil _ ne]⟩, rfl, by simp,
        by simp⟩, by simp [NumberLayout.text], ?_⟩
      · simp only [List.mem_append, List.mem_replicate]
        rintro c (member | ⟨-, rfl⟩)
        exacts [all c member, rfl]
      · refine Decimal.value_eq_of_scaled
          (decimalOfDigits_mantissa _ _ _ _ (i := (n - ds.length).toNat) ?_) mantissa ?_
        · simp [digitsValue_append]
        · simp only [NumberLayout.decimal, decimalOfDigits_exponent, List.length_drop,
            List.length_append, List.length_replicate, List.length_nil]
          omega
    rw [if_neg integer]
    by_cases inside : 0 < n ∧ n ≤ 21
    · rw [if_pos inside]
      have fraction : ds.drop n.toNat ≠ [] := by simp; omega
      refine ⟨⟨decide (d.mantissa < 0), ds.take n.toNat, ds.drop n.toNat, [], 0,
        fun c member => all c (List.mem_of_mem_take member),
        fun c member => all c (List.mem_of_mem_drop member),
        .inr ⟨by simp [ne]; omega, by rwa [List.head?_take, if_neg (by omega)]⟩, rfl, by simp,
        by simp⟩, by simp [NumberLayout.text, fraction], ?_⟩
      refine Decimal.value_eq_of_scaled (decimalOfDigits_mantissa _ _ _ _ (i := 0) ?_) mantissa ?_
      · rw [List.take_append_drop, pow_zero, mul_one]
      · simp only [NumberLayout.decimal, decimalOfDigits_exponent, List.length_drop,
          List.length_append, List.length_replicate, List.length_nil]
        omega
    rw [if_neg inside]
    by_cases small : -6 < n ∧ n ≤ 0
    · rw [if_pos small]
      refine ⟨⟨decide (d.mantissa < 0), ['0'], List.replicate (-n).toNat '0' ++ ds, [], 0,
        by decide, ?_, .inl rfl, rfl, by simp, by simp⟩, by simp [NumberLayout.text, ne], ?_⟩
      · simp only [List.mem_append, List.mem_replicate]
        rintro c (⟨-, rfl⟩ | member)
        exacts [rfl, all c member]
      refine Decimal.value_eq_of_scaled (decimalOfDigits_mantissa _ _ _ _ (i := 0) ?_) mantissa ?_
      · simp [digitsValue_append, digitsValue_cons]
      · simp only [NumberLayout.decimal, decimalOfDigits_exponent, List.length_drop,
          List.length_append, List.length_replicate, List.length_nil]
        omega
    rw [if_neg small]
    obtain ⟨c, rest, rfl⟩ := List.exists_cons_of_ne_nil ne
    refine ⟨⟨decide (d.mantissa < 0), [c], rest, printedExponent (n - 1), n - 1,
      by simpa using all c (List.mem_cons_self _ _), fun c' member => all c' (List.mem_cons_of_mem _ member),
      .inr ⟨by simp, head⟩, jsonExponent?_printed (n - 1), by simp [printedExponent],
      printedExponent_chars (n - 1)⟩, ?_, ?_⟩
    · cases rest <;> simp [NumberLayout.text, printedExponent]
    refine Decimal.value_eq_of_scaled (decimalOfDigits_mantissa _ _ _ _ (i := 0) ?_) mantissa ?_
    · simp
    · simp only [NumberLayout.decimal, decimalOfDigits_exponent, List.length_cons] at hn ⊢
      omega

end Layout

-----------------------------------------------------------------------------------------
-- The decimal a printed number reads back as
-----------------------------------------------------------------------------------------

/-- The decimal `JSON.parse` reads from the text `Number::toString` prints. -/
def printedDecimal (d : Decimal) : Decimal := (jsonNumber? (numberToString d).data).getD d

theorem jsonNumber?_numberToString (d : Decimal) :
    jsonNumber? (numberToString d).data = some (printedDecimal d) := by
  obtain ⟨l, text, -⟩ := numberToString_layout d
  rw [printedDecimal, text, l.jsonNumber?_text]
  rfl

/-- A printed number reads back as a decimal of the same value. -/
theorem printedDecimal_value (d : Decimal) : (printedDecimal d).value = d.value := by
  obtain ⟨l, text, value⟩ := numberToString_layout d
  rw [printedDecimal, text, l.jsonNumber?_text]
  exact value

theorem isNumberChar_of_mem_numberToString (d : Decimal) :
    ∀ c ∈ (numberToString d).data, isNumberChar c := by
  obtain ⟨l, text, -⟩ := numberToString_layout d
  rw [text]
  exact l.isNumberChar_of_mem_text

theorem numberToString_head (d : Decimal) :
    ∃ c rest, (numberToString d).data = c :: rest ∧ (isDigit c ∨ c = '-') := by
  obtain ⟨l, text, -⟩ := numberToString_layout d
  rw [text]
  exact l.text_head

-----------------------------------------------------------------------------------------
-- Decimals of one value
-----------------------------------------------------------------------------------------

/-- A trailing zero moved from the exponent into the mantissa is stripped again: the digits
and the point's place stay. -/
theorem numberToString_scale (m e : Int) :
    numberToString ⟨m * 10, e - 1⟩ = numberToString ⟨m, e⟩ := by
  by_cases zero : m = 0
  · simp [numberToString, zero]
  have digits : natDigits (m * 10).natAbs = natDigits m.natAbs ++ ['0'] := by
    rw [Int.natAbs_mul]; exact natDigits_mul_ten (Int.natAbs_pos.2 zero)
  have nonzero : ¬ m * 10 = 0 := by omega
  have signed : (if m * 10 < 0 then ['-'] else []) = (if m < 0 then ['-'] else ([] : List Char)) :=
    if_congr (by omega) rfl rfl
  rw [numberToString, numberToString, if_neg nonzero, if_neg zero, digits, signed]
  dsimp only
  generalize natDigits m.natAbs = D
  have zeros : ((D ++ ['0']).reverse.takeWhile (· = '0')).length =
      (D.reverse.takeWhile (· = '0')).length + 1 := by simp
  generalize (D.reverse.takeWhile (· = '0')).length = Z at zeros ⊢
  have kept : (D ++ ['0']).take ((D ++ ['0']).length - (Z + 1)) = D.take (D.length - Z) := by
    rw [List.length_append, List.length_singleton, Nat.add_sub_add_right,
      List.take_append_of_le_length (Nat.sub_le _ _)]
  have exponent : e - 1 + ((Z + 1 : Nat) : Int) = e + Z := by push_cast; ring
  rw [zeros, kept, exponent]

theorem numberToString_scale_pow (m e : Int) (j : Nat) :
    numberToString ⟨m * 10 ^ j, e - j⟩ = numberToString ⟨m, e⟩ := by
  induction j with
  | zero => simp
  | succ j ih =>
    rw [pow_succ, ← mul_assoc, Nat.cast_succ, sub_add_eq_sub_sub, numberToString_scale, ih]

/-- Two decimals of one value print the same text: the one with the larger exponent is the
other with zeros moved out of its mantissa. -/
theorem numberToString_congr {d d' : Decimal} (same : d.value = d'.value) :
    numberToString d = numberToString d' := by
  wlog le : d'.exponent ≤ d.exponent generalizing d d'
  · exact (this same.symm (by omega)).symm
  obtain ⟨m, e⟩ := d
  obtain ⟨m', e'⟩ := d'
  obtain ⟨j, rfl⟩ : ∃ j : Nat, e = e' + j := ⟨(e - e').toNat, by simp at le; omega⟩
  have mantissa : m' = m * 10 ^ j := by
    simp only [Decimal.value, zpow_add₀ (show (10 : ℚ) ≠ 0 by norm_num), zpow_natCast] at same
    have scaled : ((m * 10 ^ j : Int) : ℚ) * 10 ^ e' = (m' : ℚ) * 10 ^ e' := by
      push_cast; rw [← same]; ring
    exact Int.cast_inj.1 (mul_right_cancel₀ (Decimal.ten_zpow_pos e').ne' scaled).symm
  rw [mantissa, ← numberToString_scale_pow m (e' + j) j, add_sub_cancel_right]

end Shipit.Inference.Json
