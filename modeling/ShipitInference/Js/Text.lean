import Mathlib.Algebra.Group.Int
import Mathlib.Algebra.Order.Ring.Nat
import Mathlib.Data.List.Basic

/-! JavaScript string primitives used by the inference core: the whitespace class shared by
`String.prototype.trim` and the regular-expression class `\s`, trimming, and truthiness.
-/

namespace Shipit.Inference.Js

/-- ECMAScript `WhiteSpace` and `LineTerminator` code points: the set `trim` removes and the
regular-expression class `\s` matches.
-/
def isJsWhitespace (c : Char) : Bool :=
  c == '\t' || c == '\n' || c == '\x0B' || c == '\x0C' || c == '\r' || c == ' ' ||
  c == '\u00A0' || c == '\u1680' || ('\u2000' ≤ c && c ≤ '\u200A') ||
  c == '\u2028' || c == '\u2029' || c == '\u202F' || c == '\u205F' || c == '\u3000' ||
  c == '\uFEFF'

/-- `LineTerminator` code points, where a multiline `$` may match. -/
def isLineTerminator (c : Char) : Bool :=
  c == '\n' || c == '\r' || c == '\u2028' || c == '\u2029'

/-- Trimming as a list operation: whitespace dropped from both ends. -/
def trimChars (cs : List Char) : List Char :=
  ((cs.dropWhile isJsWhitespace).reverse.dropWhile isJsWhitespace).reverse

/-- `String.prototype.trim`. -/
def trim (s : String) : String :=
  ⟨trimChars s.data⟩

/-- `s.trim() === ''`: the string is empty or whitespace only. -/
def isBlank (s : String) : Bool :=
  s.data.all isJsWhitespace

/-- `s.length`: the number of UTF-16 code units. -/
def utf16Length (s : String) : Nat :=
  (s.data.map fun c => if c.toNat < 0x10000 then 1 else 2).sum

/-- `toLowerCase` on the letters it is compared by here: the texts it is tested against are
ASCII, and no other character lowercases to an ASCII letter but the Kelvin sign, to `k`,
which none of them contains.
-/
def asciiLower (s : String) : String :=
  ⟨s.data.map fun c => if 'A' ≤ c ∧ c ≤ 'Z' then Char.ofNat (c.toNat + 32) else c⟩

/-- `toUpperCase` of a provider name, which is ASCII. -/
def asciiUpper (s : String) : String :=
  ⟨s.data.map fun c => if 'a' ≤ c ∧ c ≤ 'z' then Char.ofNat (c.toNat - 32) else c⟩

/-- `s.replace(p, '')` where `s.startsWith(p)` was just checked: the first occurrence of `p` is
the prefix.
-/
def dropPrefix (p s : String) : String :=
  if p.data.isPrefixOf s.data then ⟨s.data.drop p.length⟩ else s

/-- A string-valued field read in a boolean position (`if (x)`, `x && ...`): `undefined`,
`null` and the empty string are falsy.
-/
def truthy : Option String → Option String
  | some s => if s = "" then none else some s
  | none => none

private theorem dropWhile_eq_nil_of_all {p : Char → Bool} :
    ∀ {cs : List Char}, (∀ c ∈ cs.dropWhile p, p c) → cs.dropWhile p = []
  | [], _ => rfl
  | c :: rest, h => by
      by_cases hc : p c
      · simpa [List.dropWhile_cons, hc] using dropWhile_eq_nil_of_all (by simpa [hc] using h)
      · simp [List.dropWhile_cons, hc] at h

/-- Trimming leaves nothing exactly when every character is whitespace. -/
theorem trimChars_eq_nil_iff (cs : List Char) :
    trimChars cs = [] ↔ ∀ c ∈ cs, isJsWhitespace c := by
  rw [← List.dropWhile_eq_nil_iff]
  constructor
  · intro h
    apply dropWhile_eq_nil_of_all
    simpa [trimChars, List.dropWhile_eq_nil_iff] using h
  · intro h
    simp [trimChars, h]

/-- Trimming leaves the empty string exactly on blank strings. -/
theorem trim_eq_empty_iff (s : String) : trim s = "" ↔ isBlank s = true := by
  simp only [isBlank, List.all_eq_true, ← trimChars_eq_nil_iff, trim]
  constructor
  · intro h
    simpa using congrArg String.data h
  · intro h
    rw [h]

@[simp] theorem truthy_none : truthy none = none := rfl

theorem truthy_eq_some {o : Option String} {s : String} :
    truthy o = some s ↔ o = some s ∧ s ≠ "" := by
  cases o with
  | none => simp
  | some t =>
      by_cases ht : t = ""
      · subst ht
        simp only [truthy, if_true, reduceCtorEq, false_iff, not_and, Option.some.injEq]
        exact fun h hs => hs h.symm
      · simp only [truthy, ht, if_false, Option.some.injEq]
        exact ⟨fun h => ⟨h, h ▸ ht⟩, fun h => h.1⟩

theorem truthy_ne_empty {o : Option String} {s : String} (h : truthy o = some s) : s ≠ "" :=
  (truthy_eq_some.mp h).2

end Shipit.Inference.Js
