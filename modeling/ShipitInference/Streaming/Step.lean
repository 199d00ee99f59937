import ShipitInference.Streaming.Fragments

/-! What one call of `accumulateToolCallDelta` does, said once: the entry it picks or creates,
the id and index bookkeeping, and the single entry it changes. Later proofs cite these
lemmas and never unfold the step.
-/

namespace Shipit.Inference.Streaming

open Shipit.Inference.Js

namespace Accumulator

variable {acc : Accumulator} {r r' : Nat} {f : ToolAccumulatorEntry → ToolAccumulatorEntry}

-----------------------------------------------------------------------------------------
-- Heap access
-----------------------------------------------------------------------------------------

@[simp] theorem length_update : (acc.update r f).heap.length = acc.heap.length :=
  List.length_modify ..

@[simp] theorem byId_update : (acc.update r f).byId = acc.byId := rfl

@[simp] theorem byIndex_update : (acc.update r f).byIndex = acc.byIndex := rfl

theorem entry_eq_getElem (h : r < acc.heap.length) : acc.entry r = acc.heap[r] := by
  simp [entry, List.getD_eq_getElem?_getD, List.getElem?_eq_getElem h]

theorem entry_update (h : r < acc.heap.length) (r' : Nat) :
    (acc.update r f).entry r' = if r' = r then f (acc.entry r) else acc.entry r' := by
  by_cases same : r' = r
  · subst same
    simp [entry, update, List.getD_eq_getElem?_getD, List.getElem?_modify_eq,
      List.getElem?_eq_getElem h]
  · simp [entry, update, List.getD_eq_getElem?_getD, List.getElem?_modify_ne _ _ (Ne.symm same),
      same]

@[simp] theorem entry_update_self (h : r < acc.heap.length) :
    (acc.update r f).entry r = f (acc.entry r) := by
  simp [entry_update h]

theorem entry_update_of_ne (h : r' ≠ r) : (acc.update r f).entry r' = acc.entry r' := by
  simp [entry, update, List.getD_eq_getElem?_getD, List.getElem?_modify_ne _ _ (Ne.symm h)]

/-- Two updates of one entry compose. -/
theorem entry_update_update {g : ToolAccumulatorEntry → ToolAccumulatorEntry}
    (h : r < acc.heap.length) (r' : Nat) :
    ((acc.update r f).update r g).entry r' = if r' = r then g (f (acc.entry r)) else acc.entry r' := by
  by_cases same : r' = r
  · subst same; simp [h]
  · simp [entry_update_of_ne same, same]

/-- The accumulator with another `byId` map. -/
def withById (acc : Accumulator) (byId : JsMap String Nat) : Accumulator :=
  { acc with byId }

/-- The accumulator with another `byIndex` map. -/
def withByIndex (acc : Accumulator) (byIndex : JsMap Nat Nat) : Accumulator :=
  { acc with byIndex }

variable {B : JsMap String Nat} {I : JsMap Nat Nat}

@[simp] theorem withById_entry : (acc.withById B).entry r = acc.entry r := rfl
@[simp] theorem withById_heap : (acc.withById B).heap = acc.heap := rfl
@[simp] theorem withById_byId : (acc.withById B).byId = B := rfl
@[simp] theorem withById_byIndex : (acc.withById B).byIndex = acc.byIndex := rfl
@[simp] theorem withByIndex_entry : (acc.withByIndex I).entry r = acc.entry r := rfl
@[simp] theorem withByIndex_heap : (acc.withByIndex I).heap = acc.heap := rfl
@[simp] theorem withByIndex_byId : (acc.withByIndex I).byId = acc.byId := rfl
@[simp] theorem withByIndex_byIndex : (acc.withByIndex I).byIndex = I := rfl

@[simp] theorem withById_update {g : ToolAccumulatorEntry → ToolAccumulatorEntry} :
    (acc.withById B).update r g = (acc.update r g).withById B := rfl

@[simp] theorem withByIndex_update {g : ToolAccumulatorEntry → ToolAccumulatorEntry} :
    (acc.withByIndex I).update r g = (acc.update r g).withByIndex I := rfl

end Accumulator

open Accumulator

variable {draw : SynthDraw} {acc : Accumulator} {d : ToolCallDelta} {r : Nat}

-----------------------------------------------------------------------------------------
-- Creating an entry
-----------------------------------------------------------------------------------------

@[simp] theorem createEntry_ref : (createEntry draw acc d).2 = acc.heap.length := rfl

@[simp] theorem length_createEntry :
    (createEntry draw acc d).1.heap.length = acc.heap.length + 1 := by
  simp [createEntry]

theorem entry_createEntry (r' : Nat) :
    (createEntry draw acc d).1.entry r' =
      if r' < acc.heap.length then acc.entry r'
      else if r' = acc.heap.length then newEntry draw acc d else default := by
  simp only [createEntry, Accumulator.entry, List.getD_eq_getElem?_getD]
  by_cases lt : r' < acc.heap.length
  · simp [lt, List.getElem?_append_left lt]
  · rw [List.getElem?_append_right (Nat.le_of_not_lt lt)]
    by_cases same : r' = acc.heap.length
    · simp [lt, same]
    · have : r' - acc.heap.length ≠ 0 := by omega
      simp [lt, same, List.getElem?_cons, this]

theorem entry_createEntry_self :
    (createEntry draw acc d).1.entry acc.heap.length = newEntry draw acc d := by
  simp [entry_createEntry]

theorem entry_createEntry_of_lt (h : r < acc.heap.length) :
    (createEntry draw acc d).1.entry r = acc.entry r := by
  simp [entry_createEntry, h]

/-- After a new entry absorbs its fragment, the entries before it are unchanged. -/
theorem entry_created_of_lt (h : r < acc.heap.length) :
    ((createEntry draw acc d).1.update acc.heap.length (·.absorb d)).entry r = acc.entry r := by
  rw [entry_update_of_ne (Nat.ne_of_lt h), entry_createEntry_of_lt h]

theorem entry_created_self :
    ((createEntry draw acc d).1.update acc.heap.length (·.absorb d)).entry acc.heap.length =
      (newEntry draw acc d).absorb d := by
  rw [entry_update_self (by simp), entry_createEntry_self]

@[simp] theorem byId_createEntry :
    (createEntry draw acc d).1.byId = acc.byId.set (provisionalId draw acc d) acc.heap.length :=
  rfl

theorem byIndex_createEntry_of_some {i : Nat} (h : d.index = some i) :
    (createEntry draw acc d).1.byIndex = acc.byIndex.set i acc.heap.length := by
  simp [createEntry, h]

theorem byIndex_createEntry_of_none (h : d.index = none) :
    (createEntry draw acc d).1.byIndex = acc.byIndex := by
  simp [createEntry, h]

@[simp] theorem orderCounter_createEntry :
    (createEntry draw acc d).1.orderCounter = acc.orderCounter + 1 := rfl

-----------------------------------------------------------------------------------------
-- Re-keying and index registration
-----------------------------------------------------------------------------------------

theorem rekeyEntry_of_none (h : truthy d.id = none) : rekeyEntry acc r d = acc := by
  simp [rekeyEntry, h]

theorem rekeyEntry_of_same {x : String} (h : truthy d.id = some x) (same : (acc.entry r).id = x) :
    rekeyEntry acc r d = acc := by
  simp [rekeyEntry, h, same]

theorem rekeyEntry_of_ne {x : String} (h : truthy d.id = some x) (ne : (acc.entry r).id ≠ x) :
    rekeyEntry acc r d =
      (acc.update r (fun e => { e with id := x })).withById
        ((acc.byId.delete (acc.entry r).id).set x r) := by
  simp [rekeyEntry, h, ne]; rfl

theorem registerIndex_of_none (h : d.index = none) : registerIndex acc r d = acc := by
  simp [registerIndex, h]

theorem registerIndex_of_registered (h : (acc.entry r).index ≠ none) :
    registerIndex acc r d = acc := by
  unfold registerIndex; split <;> simp [h]

theorem registerIndex_of_unregistered {i : Nat} (h : d.index = some i)
    (unregistered : (acc.entry r).index = none) :
    registerIndex acc r d =
      (acc.update r (fun e => { e with index := some i })).withByIndex (acc.byIndex.set i r) := by
  simp [registerIndex, h, unregistered]; rfl

-----------------------------------------------------------------------------------------
-- The lookup and the whole step
-----------------------------------------------------------------------------------------

theorem findEntry_of_id {x : String} (h : truthy d.id = some x) (found : acc.byId.get? x = some r) :
    findEntry acc d = some r := by
  simp [findEntry, h, found]

theorem findEntry_of_index {i : Nat} (missed : ∀ x, truthy d.id = some x → acc.byId.get? x = none)
    (h : d.index = some i) : findEntry acc d = acc.byIndex.get? i := by
  cases hx : truthy d.id with
  | none => simp [findEntry, hx, h]
  | some x => simp [findEntry, hx, missed x hx, h]

theorem findEntry_of_no_index (missed : ∀ x, truthy d.id = some x → acc.byId.get? x = none)
    (h : d.index = none) : findEntry acc d = none := by
  cases hx : truthy d.id with
  | none => simp [findEntry, hx, h]
  | some x => simp [findEntry, hx, missed x hx, h]

/-- The step on an existing entry: bookkeeping on that entry, then its text update. -/
theorem accumulateToolCallDelta_of_found (found : findEntry acc d = some r) :
    accumulateToolCallDelta draw acc d =
      (registerIndex (rekeyEntry acc r d) r d).update r (·.absorb d) := by
  simp [accumulateToolCallDelta, found]

/-- The step that creates an entry. -/
theorem accumulateToolCallDelta_of_missing (missing : findEntry acc d = none) :
    accumulateToolCallDelta draw acc d =
      (registerIndex (rekeyEntry (createEntry draw acc d).1 acc.heap.length d)
        acc.heap.length d).update acc.heap.length (·.absorb d) := by
  simp [accumulateToolCallDelta, missing]

-----------------------------------------------------------------------------------------
-- Streams
-----------------------------------------------------------------------------------------

theorem accumulateFrom_append (draws : Nat → SynthDraw) (k : Nat) (acc : Accumulator)
    (P Q : List ToolCallDelta) :
    accumulateFrom draws k acc (P ++ Q) =
      accumulateFrom draws (k + P.length) (accumulateFrom draws k acc P) Q := by
  induction P generalizing k acc with
  | nil => rfl
  | cons d rest ih =>
      rw [List.cons_append, accumulateFrom, accumulateFrom, ih, List.length_cons]
      congr 1; omega

/-- The stream grows by one fragment: one more step, with the draw at its position. -/
theorem accumulateStream_append_singleton (draws : Nat → SynthDraw) (P : List ToolCallDelta)
    (d : ToolCallDelta) :
    accumulateStream draws (P ++ [d]) =
      accumulateToolCallDelta (draws P.length) (accumulateStream draws P) d := by
  simp [accumulateStream, accumulateFrom_append, accumulateFrom]

end Shipit.Inference.Streaming
