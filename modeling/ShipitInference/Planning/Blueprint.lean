import ShipitInference.Js.NumberValue
import ShipitInference.Json.Parse
import ShipitInference.Json.Stringify

/-! The hardcoded-blueprint branch of `generateBlueprint`, which replays the blueprint's JSON
text through `onChunk` in slices of `stream.chunk_size || 256` code units: a negative size
never ends the loop, and `NaN`, `+Infinity` or a whole size hands over the whole text.
-/

namespace Shipit.Inference.Planning

open Shipit.Inference.Js Shipit.Inference.Json

-----------------------------------------------------------------------------------------
-- `String.prototype.slice`
-----------------------------------------------------------------------------------------

/-- The position `slice` makes of an argument for a text of `len` code units:
`ToIntegerOrInfinity` (with `NaN` as `0`), counted from the end when negative, and clamped to
the text. -/
def relativeIndex (len : Nat) : JsNumber → Nat
  | .nan => 0
  | .infinity negative => if negative then 0 else len
  | .finite d => if d.truncate < 0 then (len + d.truncate).toNat else min d.truncate.toNat len

/-- `s.slice(start, end)`, over the UTF-16 code units of `s`. -/
def slice (units : List Nat) (start stop : JsNumber) : List Nat :=
  let first := relativeIndex units.length start
  (units.drop first).take (relativeIndex units.length stop - first)

-----------------------------------------------------------------------------------------
-- The simulated stream
-----------------------------------------------------------------------------------------

/-- `stream.chunk_size || 256`. -/
def chunkSizeOf (chunk_size : JsNumber) : JsNumber :=
  if chunk_size.isTruthy then chunk_size else .ofNat 256

/-- The loop `for (; i < blueprintJson.length; i += chunkSize)` from the index `i`: the chunks
passed to `onChunk`, or `none` when it has not ended within `fuel` rounds. -/
def streamChunks (units : List Nat) (chunkSize : JsNumber) :
    Nat → JsNumber → Option (List (List Nat))
  | 0, _ => none
  | fuel + 1, i =>
    if i.ltNat units.length then
      (streamChunks units chunkSize fuel (i.add chunkSize)).map
        (slice units i (i.add chunkSize) :: ·)
    else some []

/-- The hardcoded-blueprint branch of `generateBlueprint` with `stream.onChunk` given, for the
blueprint object `blueprint`: the code units of each chunk `onChunk` receives, or `none` when
the loop has not ended within `fuel` rounds. -/
def simulateBlueprintStream (blueprint : JsonValue) (chunk_size : JsNumber) (fuel : Nat) :
    Option (List (List Nat)) :=
  streamChunks ((stringify blueprint).data.flatMap utf16Units) (chunkSizeOf chunk_size) fuel
    (.ofNat 0)

-----------------------------------------------------------------------------------------
-- A negative chunk size
-----------------------------------------------------------------------------------------

theorem chunkSizeOf_of_negative {chunk_size : JsNumber} (negative : chunk_size.ltNat 0 = true) :
    chunkSizeOf chunk_size = chunk_size := by
  cases chunk_size with
  | nan => cases negative
  | infinity _ => rfl
  | finite d =>
    rw [JsNumber.ltNat_finite, decide_eq_true_iff] at negative
    have : d.mantissa ≠ 0 := fun zero => by simp [Decimal.value, zero] at negative
    simp [chunkSizeOf, JsNumber.isTruthy, this]

/-- The text of an object starts with its opening brace. -/
theorem stringify_object_units_ne_nil (fields : List (String × JsonValue)) :
    (stringify (.object fields)).data.flatMap utf16Units ≠ [] := by
  simp [stringify, String.data_append, utf16Units]

/-- From an index at most zero, a negative step keeps the index below the length of a
non-empty text, and the loop runs out of every fuel. -/
theorem streamChunks_neverEnds {units : List Nat} (nonEmpty : units ≠ []) {chunkSize : JsNumber}
    (negative : chunkSize.ltNat 0 = true) :
    ∀ fuel i, i.leNat 0 = true → streamChunks units chunkSize fuel i = none
  | 0, _, _ => rfl
  | fuel + 1, i, atMost => by
    rw [streamChunks, if_pos (JsNumber.ltNat_of_leNat_zero atMost (List.length_pos.2 nonEmpty)),
      streamChunks_neverEnds nonEmpty negative fuel _ (JsNumber.leNat_zero_add atMost negative),
      Option.map_none']

theorem simulateBlueprintStream_negativeNeverEnds (fields : List (String × JsonValue))
    (chunk_size : JsNumber) (negative : chunk_size.ltNat 0 = true) (fuel : Nat) :
    simulateBlueprintStream (.object fields) chunk_size fuel = none := by
  rw [simulateBlueprintStream, chunkSizeOf_of_negative negative]
  exact streamChunks_neverEnds (stringify_object_units_ne_nil fields) negative fuel _ rfl

theorem simulateBlueprintStream_minusOneNeverEnds :
    (JsNumber.finite ⟨-1, 0⟩).ltNat 0 = true ∧
      ∀ fuel, simulateBlueprintStream (.object []) (.finite ⟨-1, 0⟩) fuel = none :=
  ⟨rfl, simulateBlueprintStream_negativeNeverEnds [] _ rfl⟩

-----------------------------------------------------------------------------------------
-- A chunk size that is not negative
-----------------------------------------------------------------------------------------

/-- After the fallback, a chunk size that is not negative is `+Infinity` or a positive
decimal. -/
theorem chunkSizeOf_of_not_negative {chunk_size : JsNumber}
    (notNegative : chunk_size.ltNat 0 = false) :
    chunkSizeOf chunk_size = .infinity false ∨
      ∃ d, chunkSizeOf chunk_size = .finite d ∧ 0 < d.value := by
  cases chunk_size with
  | nan => exact .inr ⟨⟨256, 0⟩, rfl, by norm_num [Decimal.value]⟩
  | infinity negative => cases notNegative; exact .inl rfl
  | finite d =>
    rw [JsNumber.ltNat_finite, decide_eq_false_iff_not, not_lt, Nat.cast_zero,
      Decimal.value_nonneg_iff] at notNegative
    by_cases zero : d.mantissa = 0
    · exact .inr ⟨⟨256, 0⟩, by simp [chunkSizeOf, JsNumber.isTruthy, zero, JsNumber.ofNat],
        by norm_num [Decimal.value]⟩
    · exact .inr ⟨d, by simp [chunkSizeOf, JsNumber.isTruthy, zero],
        Decimal.value_pos_iff.2 (lt_of_le_of_ne notNegative (Ne.symm zero))⟩

theorem relativeIndex_zero (len : Nat) : relativeIndex len (.finite ⟨0, 0⟩) = 0 := by
  simp [relativeIndex, Decimal.truncate]

/-- An index that is not negative stands at its floor, clamped to the text. -/
theorem relativeIndex_of_nonneg (len : Nat) {d : Decimal} (nonneg : 0 ≤ d.value) :
    relativeIndex len (.finite d) = min ⌊d.value⌋₊ len := by
  rw [relativeIndex, Decimal.truncate_eq_floor (Decimal.value_nonneg_iff.1 nonneg),
    if_neg (not_lt.2 (Int.floor_nonneg.2 nonneg)), Int.floor_toNat]

theorem take_append_drop_of_le {units : List Nat} {a b : Nat} (le : a ≤ b) :
    (units.drop a).take (b - a) ++ units.drop b = units.drop a := by
  conv_rhs => rw [← List.take_append_drop (b - a) (units.drop a)]
  rw [List.drop_drop, Nat.add_sub_of_le le]

/-- Once the index reaches the length, the loop stops, and nothing of the text is left. -/
theorem streamChunks_done (units : List Nat) (chunkSize : JsNumber) (fuel : Nat) {d : Decimal}
    (past : (units.length : ℚ) ≤ d.value) :
    ∃ chunks, streamChunks units chunkSize (fuel + 1) (.finite d) = some chunks ∧
      chunks.flatten = units.drop (relativeIndex units.length (.finite d)) := by
  refine ⟨[], by simp [streamChunks, JsNumber.ltNat_finite, past], ?_⟩
  rw [relativeIndex_of_nonneg _ ((Nat.cast_nonneg _).trans past),
    min_eq_right (Nat.le_floor past), List.drop_length]
  rfl

/-- From an index `i` that is not negative, a positive step with enough rounds left to pass
the length ends the loop, and the chunks are the text from `i` on. -/
theorem streamChunks_delivers (units : List Nat) {step : Decimal} (positive : 0 < step.value) :
    ∀ (fuel : Nat) (d : Decimal), 0 ≤ d.value →
      (units.length : ℚ) ≤ d.value + fuel * step.value →
      ∃ chunks, streamChunks units (.finite step) (fuel + 1) (.finite d) = some chunks ∧
        chunks.flatten = units.drop (relativeIndex units.length (.finite d)) := by
  intro fuel
  induction fuel with
  | zero =>
    intro d _ enough
    exact streamChunks_done _ _ 0 (by simpa using enough)
  | succ fuel ih =>
    intro d nonneg enough
    by_cases below : d.value < units.length
    · have grows : d.value ≤ (d.add step).value := by
        rw [Decimal.value_add]; exact le_add_of_nonneg_right positive.le
      have nonneg' : 0 ≤ (d.add step).value := nonneg.trans grows
      obtain ⟨chunks, run, rest⟩ := ih (d.add step) nonneg'
        (by rw [Decimal.value_add]; push_cast at enough; linarith only [enough])
      refine ⟨slice units (.finite d) (.finite (d.add step)) :: chunks, ?_, ?_⟩
      · rw [streamChunks, JsNumber.ltNat_finite, decide_eq_true below, if_pos rfl]
        show Option.map (slice units (.finite d) (.finite (d.add step)) :: ·)
          (streamChunks units _ (fuel + 1) (.finite (d.add step))) = _
        rw [run, Option.map_some']
      · rw [List.flatten_cons, rest, slice]
        refine take_append_drop_of_le ?_
        rw [relativeIndex_of_nonneg _ nonneg, relativeIndex_of_nonneg _ nonneg']
        exact min_le_min_right _ (Nat.floor_mono grows)
    · exact streamChunks_done _ _ _ (not_lt.1 below)

/-- A step of `+Infinity` hands the whole text over in one chunk. -/
theorem streamChunks_infinity (units : List Nat) :
    ∃ chunks, streamChunks units (.infinity false) 2 (.ofNat 0) = some chunks ∧
      chunks.flatten = units := by
  cases units with
  | nil => exact ⟨[], rfl, rfl⟩
  | cons u rest =>
    refine ⟨[u :: rest], ?_, by simp⟩
    simp [streamChunks, JsNumber.ltNat, JsNumber.ofNat, JsNumber.add, slice, relativeIndex,
      Decimal.truncate]

/-- A whole number is not negative. -/
theorem ltNat_zero_of_toNat? {x : JsNumber} {n : Nat} (whole : x.toNat? = some n) :
    x.ltNat 0 = false := by
  cases x with
  | finite d =>
    obtain ⟨m, e⟩ := d
    have : ¬m < 0 := fun negative => by simp [JsNumber.toNat?, negative] at whole
    rw [JsNumber.ltNat_finite, decide_eq_false_iff_not, not_lt, Nat.cast_zero,
      Decimal.value_nonneg_iff]
    exact not_lt.1 this
  | _ => cases whole

/-- A chunk size of `NaN`, `+Infinity` or a whole number ends the loop, and the chunks put the
whole text back together. Whole sizes keep every index a whole number below `2 ^ 53` until the
loop ends, where binary64 adds exactly, as the model does. -/
theorem simulateBlueprintStream_delivers (blueprint : JsonValue) (chunk_size : JsNumber)
    (size : chunk_size = .nan ∨ chunk_size = .infinity false ∨ ∃ n, chunk_size.toNat? = some n) :
    ∃ fuel chunks, simulateBlueprintStream blueprint chunk_size fuel = some chunks ∧
      chunks.flatten = (stringify blueprint).data.flatMap utf16Units := by
  have notNegative : chunk_size.ltNat 0 = false := by
    rcases size with rfl | rfl | ⟨n, whole⟩
    · rfl
    · rfl
    · exact ltNat_zero_of_toNat? whole
  unfold simulateBlueprintStream
  rcases chunkSizeOf_of_not_negative notNegative with infinite | ⟨step, finite, positive⟩
  · exact ⟨2, by rw [infinite]; exact streamChunks_infinity _⟩
  · set units := (stringify blueprint).data.flatMap utf16Units
    have enough : (units.length : ℚ) ≤ (⟨0, 0⟩ : Decimal).value +
        ⌈(units.length : ℚ) / step.value⌉₊ * step.value := by
      rw [show (⟨0, 0⟩ : Decimal).value = 0 by simp [Decimal.value], zero_add]
      exact (div_le_iff₀ positive).1 (Nat.le_ceil _)
    obtain ⟨chunks, run, whole⟩ :=
      streamChunks_delivers units positive _ ⟨0, 0⟩ (by simp [Decimal.value]) enough
    exact ⟨_, chunks, by rw [finite]; exact run, by rw [whole, relativeIndex_zero, List.drop_zero]⟩

theorem simulateBlueprintStream_delivers_hundred :
    (JsNumber.ofNat 100 = .nan ∨ JsNumber.ofNat 100 = .infinity false ∨
        ∃ n, (JsNumber.ofNat 100).toNat? = some n) ∧
      ∃ fuel chunks, simulateBlueprintStream (.object []) (.ofNat 100) fuel = some chunks ∧
        chunks.flatten = (stringify (.object [])).data.flatMap utf16Units :=
  ⟨.inr (.inr ⟨100, rfl⟩), simulateBlueprintStream_delivers _ _ (.inr (.inr ⟨100, rfl⟩))⟩

end Shipit.Inference.Planning
