import ShipitInference.Js.Map
import ShipitInference.Json.Parse

/-! The streaming tool-call accumulator of `core.ts`. Entry objects are shared between the two
maps, so they live on a heap and the maps hold heap positions.
-/

namespace Shipit.Inference.Streaming

open Shipit.Inference.Js Shipit.Inference.Json

-----------------------------------------------------------------------------------------
-- Data
-----------------------------------------------------------------------------------------

/-- One element of `delta.tool_calls`: `index`, `id`, `function?.name`, `function?.arguments`;
an absent field is `none`.
-/
structure ToolCallDelta where
  index : Option Nat
  id : Option String
  name : Option String
  arguments : Option String
  deriving DecidableEq, Repr

/-- `ChatCompletionMessageFunctionToolCall`: `{ id, type: 'function', function: { name,
arguments } }`.
-/
structure ToolCall where
  id : String
  name : String
  arguments : String
  deriving DecidableEq, Repr, Inhabited

/-- `ToolAccumulatorEntry`: a tool call with its stream `index` (once known) and `__order`. -/
structure ToolAccumulatorEntry where
  id : String
  name : String
  arguments : String
  index : Option Nat
  order : Nat
  deriving DecidableEq, Repr, Inhabited

/-- What `synthIdForIndex` reads from its environment: `Date.now()` and the base-36 digits of
`Math.random()`.
-/
structure SynthDraw where
  now : Nat
  random : String

/-- `synthIdForIndex(i)`: `tool_${Date.now()}_${i}_${random}`. -/
def synthIdForIndex (draw : SynthDraw) (i : Nat) : String :=
  "tool_" ++ toString draw.now ++ "_" ++ toString i ++ "_" ++ draw.random

/-- The accumulator of one streamed response: the entry objects in creation order, `byIndex`
and `byId` holding positions in that list, and `orderCounterRef.value`.
-/
structure Accumulator where
  heap : List ToolAccumulatorEntry
  byIndex : JsMap Nat Nat
  byId : JsMap String Nat
  orderCounter : Nat

namespace Accumulator

/-- Fresh maps and `{ value: 0 }`. -/
def empty : Accumulator := ⟨[], .empty, .empty, 0⟩

/-- The entry object at a heap position. -/
def entry (acc : Accumulator) (r : Nat) : ToolAccumulatorEntry := acc.heap.getD r default

/-- Mutate the entry object at a heap position. -/
def update (acc : Accumulator) (r : Nat) (f : ToolAccumulatorEntry → ToolAccumulatorEntry) :
    Accumulator :=
  { acc with heap := acc.heap.modify f r }

end Accumulator

-----------------------------------------------------------------------------------------
-- accumulateToolCallDelta
-----------------------------------------------------------------------------------------

open Accumulator

/-- The lookup: by a truthy id that `byId` has, else by an index that `byIndex` has. -/
def findEntry (acc : Accumulator) (delta : ToolCallDelta) : Option Nat :=
  ((truthy delta.id).bind acc.byId.get?).orElse fun _ => delta.index.bind acc.byIndex.get?

/-- `idFromDelta || synthIdForIndex(idx ?? byId.size)`. -/
def provisionalId (draw : SynthDraw) (acc : Accumulator) (delta : ToolCallDelta) : String :=
  (truthy delta.id).getD (synthIdForIndex draw (delta.index.getD acc.byId.size))

/-- The entry object a fragment creates, numbered by the order counter. -/
def newEntry (draw : SynthDraw) (acc : Accumulator) (delta : ToolCallDelta) :
    ToolAccumulatorEntry :=
  { id := provisionalId draw acc delta, name := "", arguments := "", index := delta.index,
    order := acc.orderCounter }

/-- A new entry, registered under its index (if any) and its provisional id. -/
def createEntry (draw : SynthDraw) (acc : Accumulator) (delta : ToolCallDelta) :
    Accumulator × Nat :=
  let r := acc.heap.length
  ({ heap := acc.heap ++ [newEntry draw acc delta],
     byIndex := match delta.index with
       | some i => acc.byIndex.set i r
       | none => acc.byIndex,
     byId := acc.byId.set (provisionalId draw acc delta) r,
     orderCounter := acc.orderCounter + 1 }, r)

/-- "Update id if provided and different": move the entry to its new key in `byId`. -/
def rekeyEntry (acc : Accumulator) (r : Nat) (delta : ToolCallDelta) : Accumulator :=
  match truthy delta.id with
  | some id =>
      if (acc.entry r).id ≠ id then
        { acc.update r (fun e => { e with id := id }) with
          byId := (acc.byId.delete (acc.entry r).id).set id r }
      else acc
  | none => acc

/-- "Register index if provided and not yet registered". -/
def registerIndex (acc : Accumulator) (r : Nat) (delta : ToolCallDelta) : Accumulator :=
  match delta.index with
  | some i =>
      if (acc.entry r).index = none then
        { acc.update r (fun e => { e with index := some i }) with
          byIndex := acc.byIndex.set i r }
      else acc
  | none => acc

/-- The argument update: a chunk is appended unless the arguments so far are non-empty and
already parse as JSON.
-/
def appendChunk (before chunk : String) : String :=
  if before.length > 0 ∧ parsesAsJson before then before else before ++ chunk

/-- The name and argument updates of one fragment: a truthy name replaces the name; an
argument chunk goes through `appendChunk`.
-/
def ToolAccumulatorEntry.absorb (e : ToolAccumulatorEntry) (delta : ToolCallDelta) :
    ToolAccumulatorEntry :=
  { e with
    name := (truthy delta.name).getD e.name
    arguments := match delta.arguments with
      | some chunk => appendChunk e.arguments chunk
      | none => e.arguments }

/-- `accumulateToolCallDelta(byIndex, byId, deltaToolCall, orderCounterRef)`. -/
def accumulateToolCallDelta (draw : SynthDraw) (acc : Accumulator) (delta : ToolCallDelta) :
    Accumulator :=
  let (acc, r) := match findEntry acc delta with
    | some r => (acc, r)
    | none => createEntry draw acc delta
  let acc := registerIndex (rekeyEntry acc r delta) r delta
  acc.update r (·.absorb delta)

/-- The fragments of one response folded from empty maps; fragment `k` sees draw `k`. -/
def accumulateFrom (draws : Nat → SynthDraw) : Nat → Accumulator → List ToolCallDelta →
    Accumulator
  | _, acc, [] => acc
  | k, acc, delta :: rest =>
      accumulateFrom draws (k + 1) (accumulateToolCallDelta (draws k) acc delta) rest

def accumulateStream (draws : Nat → SynthDraw) (deltas : List ToolCallDelta) : Accumulator :=
  accumulateFrom draws 0 .empty deltas

-----------------------------------------------------------------------------------------
-- assembleToolCalls
-----------------------------------------------------------------------------------------

def ToolAccumulatorEntry.toToolCall (e : ToolAccumulatorEntry) : ToolCall :=
  ⟨e.id, e.name, e.arguments⟩

/-- The comparator `a.index! - b.index!` as an order; an entry without index compares equal
(`NaN` counts as `+0`).
-/
def indexLe (a b : ToolAccumulatorEntry) : Bool :=
  match a.index, b.index with
  | some i, some j => i ≤ j
  | _, _ => true

/-- `assembleToolCalls`: the `byIndex` entries by index when there is one, else the `byId`
entries by `__order`. `Array.prototype.sort` is stable, so any stable sort gives its result.
-/
def assembleToolCalls (acc : Accumulator) : List ToolCall :=
  if acc.byIndex.size > 0 then
    ((acc.byIndex.values.map acc.entry).insertionSort (fun a b => indexLe a b)).map
      (·.toToolCall)
  else
    ((acc.byId.values.map acc.entry).insertionSort (fun a b => a.order ≤ b.order)).map
      (·.toToolCall)

/-- `tc.function.name && tc.function.name.trim() !== ''`. -/
def ToolCall.hasName (tc : ToolCall) : Bool := tc.name ≠ "" ∧ trim tc.name ≠ ""

/-- The tool calls `infer` keeps from a streamed response. -/
def streamedToolCalls (draws : Nat → SynthDraw) (deltas : List ToolCallDelta) :
    List ToolCall :=
  (assembleToolCalls (accumulateStream draws deltas)).filter (·.hasName)

/-- A stream whose first call is sent with an index and whose second is sent without one. -/
def mixedStream : List ToolCallDelta :=
  [⟨some 0, some "a", some "f", none⟩, ⟨none, some "b", some "g", none⟩]

/-- On `mixedStream`, `byId` holds both named calls, but assembly reads `byIndex` alone and
drops the call sent without an index.
-/
theorem assembleToolCalls_dropsUnindexed :
    ((accumulateStream (fun k => ⟨k, "r"⟩) mixedStream).byId.values.map fun r =>
        ((accumulateStream (fun k => ⟨k, "r"⟩) mixedStream).entry r).toToolCall) =
      [⟨"a", "f", ""⟩, ⟨"b", "g", ""⟩] ∧
    assembleToolCalls (accumulateStream (fun k => ⟨k, "r"⟩) mixedStream) = [⟨"a", "f", ""⟩] := by
  decide

end Shipit.Inference.Streaming
