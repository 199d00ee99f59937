import Mathlib.Data.List.Infix
import ShipitInference.Streaming.Basic

/-! What one tool call accumulates from the fragments routed to it: the last non-empty name,
and the argument chunks up to and including the first prefix that parses as JSON.
The first is read off the fragments directly; `absorb` is shown to compute both.
-/

namespace Shipit.Inference.Streaming

open Shipit.Inference.Js Shipit.Inference.Json

-----------------------------------------------------------------------------------------
-- The spec of one call's text
-----------------------------------------------------------------------------------------

/-- The last truthy name fragment, or `""` when no fragment names the call. -/
def lastNonEmptyName (ds : List ToolCallDelta) : String :=
  ((ds.filterMap fun d => truthy d.name).getLast?).getD ""

/-- The argument chunks of some fragments, in order. -/
def argumentChunks (ds : List ToolCallDelta) : List String := ds.filterMap (·.arguments)

/-- The shortest concatenation of leading chunks that parses as JSON, or all chunks when no
prefix does.
-/
def argumentsUpToComplete (chunks : List String) : String :=
  ((chunks.inits.map String.join).find? parsesAsJson).getD (String.join chunks)

-----------------------------------------------------------------------------------------
-- absorb, field by field
-----------------------------------------------------------------------------------------

namespace ToolAccumulatorEntry

@[simp] theorem absorb_id (e : ToolAccumulatorEntry) (d : ToolCallDelta) :
    (e.absorb d).id = e.id := rfl

@[simp] theorem absorb_index (e : ToolAccumulatorEntry) (d : ToolCallDelta) :
    (e.absorb d).index = e.index := rfl

@[simp] theorem absorb_order (e : ToolAccumulatorEntry) (d : ToolCallDelta) :
    (e.absorb d).order = e.order := rfl

end ToolAccumulatorEntry

open ToolAccumulatorEntry

-----------------------------------------------------------------------------------------
-- Folding absorb
-----------------------------------------------------------------------------------------

theorem foldl_absorb_name (ds : List ToolCallDelta) (e : ToolAccumulatorEntry) :
    (ds.foldl absorb e).name = ((ds.filterMap fun d => truthy d.name).getLast?).getD e.name := by
  induction ds generalizing e with
  | nil => rfl
  | cons d rest ih =>
      rw [List.foldl_cons, ih]
      cases h : truthy d.name <;> simp [List.filterMap_cons, h, List.getLast?_cons, absorb]

theorem foldl_absorb_name_of_blank (ds : List ToolCallDelta) (e : ToolAccumulatorEntry)
    (blank : e.name = "") : (ds.foldl absorb e).name = lastNonEmptyName ds := by
  rw [foldl_absorb_name, blank]; rfl

private theorem foldl_append_join (a b : String) (p : List String) :
    p.foldl (· ++ ·) (a ++ b) = a ++ p.foldl (· ++ ·) b := by
  induction p generalizing b with
  | nil => rfl
  | cons c rest ih => simp only [List.foldl_cons, String.append_assoc, ih]

theorem join_cons (c : String) (p : List String) : String.join (c :: p) = c ++ String.join p := by
  simpa [String.join] using foldl_append_join c "" p

/-- A prefix that is already complete JSON stops taking chunks. -/
private theorem foldl_appendChunk_frozen {a : String} (complete : a.length > 0 ∧ parsesAsJson a)
    (chunks : List String) : chunks.foldl appendChunk a = a := by
  induction chunks with
  | nil => rfl
  | cons c rest ih => simpa [appendChunk, complete] using ih

private theorem foldl_appendChunk_eq (a : String) (chunks : List String) :
    chunks.foldl appendChunk a =
      ((chunks.inits.map (a ++ String.join ·)).find? fun s => s.length > 0 ∧ parsesAsJson s).getD
        (a ++ String.join chunks) := by
  have joinNil : String.join [] = "" := rfl
  induction chunks generalizing a with
  | nil => by_cases h : a.length > 0 ∧ parsesAsJson a <;> simp [h, joinNil]
  | cons c rest ih =>
      by_cases h : a.length > 0 ∧ parsesAsJson a
      · simp [foldl_appendChunk_frozen h, joinNil, h, List.inits_cons]
      · have step : appendChunk a c = a ++ c := by simp [appendChunk, h]
        have shift : (fun t => a ++ String.join (c :: t)) = ((a ++ c) ++ String.join ·) := by
          funext t; rw [join_cons, String.append_assoc]
        rw [List.foldl_cons, step, ih, List.inits_cons, List.map_cons, joinNil,
          String.append_empty, List.map_map, Function.comp_def, shift, List.find?_cons,
          join_cons, ← String.append_assoc]
        simp [h]

theorem parsesAsJson_empty : parsesAsJson "" = false := by decide

/-- A text that parses as JSON is not empty, so the non-empty test of `appendChunk` is
implied by the parse.
-/
private theorem complete_eq_parses :
    (fun s : String => decide (s.length > 0 ∧ parsesAsJson s = true)) = parsesAsJson := by
  funext s
  by_cases hs : s = ""
  · subst hs; simp [parsesAsJson_empty]
  · have nonempty : s.length > 0 := by
      rcases s with ⟨_ | ⟨c, rest⟩⟩
      · exact absurd rfl hs
      · simp [String.length]
    simp [nonempty]

/-- From blank arguments, `absorb` accumulates exactly `argumentsUpToComplete`. -/
theorem foldl_absorb_arguments (ds : List ToolCallDelta) (e : ToolAccumulatorEntry)
    (blank : e.arguments = "") :
    (ds.foldl absorb e).arguments = argumentsUpToComplete (argumentChunks ds) := by
  have chunks : ∀ (a : ToolAccumulatorEntry),
      (ds.foldl absorb a).arguments = (argumentChunks ds).foldl appendChunk a.arguments := by
    induction ds with
    | nil => intro a; rfl
    | cons d rest ih =>
        intro a
        rw [List.foldl_cons, ih]
        cases h : d.arguments <;> simp [argumentChunks, List.filterMap_cons, h, absorb]
  have emptyPrefix : (fun t => "" ++ String.join t) = String.join := by
    funext t; exact String.empty_append _
  rw [chunks, blank, foldl_appendChunk_eq, argumentsUpToComplete, emptyPrefix,
    complete_eq_parses, String.empty_append]

-----------------------------------------------------------------------------------------
-- The call an entry holds
-----------------------------------------------------------------------------------------

/-- The call an entry holds under a given id after absorbing some fragments from blank text. -/
def callFrom (id : String) (ds : List ToolCallDelta) : ToolCall :=
  let e := ds.foldl absorb default
  ⟨id, e.name, e.arguments⟩

theorem callFrom_eq (id : String) (ds : List ToolCallDelta) :
    callFrom id ds = ⟨id, lastNonEmptyName ds, argumentsUpToComplete (argumentChunks ds)⟩ := by
  simp only [callFrom, foldl_absorb_name_of_blank ds default rfl,
    foldl_absorb_arguments ds default rfl]

/-- Absorbing one more fragment extends the fragments an entry's call is folded from. -/
theorem toToolCall_absorb {e : ToolAccumulatorEntry} {id : String} {ds : List ToolCallDelta}
    (h : e.toToolCall = callFrom id ds) (d : ToolCallDelta) :
    (e.absorb d).toToolCall = callFrom id (ds ++ [d]) := by
  simp only [ToolAccumulatorEntry.toToolCall, callFrom, ToolCall.mk.injEq] at h ⊢
  simp [List.foldl_append, absorb, h.1, h.2.1, h.2.2]

end Shipit.Inference.Streaming
