import ShipitInference.Infer.Chat

/-! The content sink of a streamed chat reply: the chunks passed to `onChunk`, joined in call
order, are the start of the content, and `streamIndex` is their length.
-/

namespace Shipit.Inference.Infer

open Shipit.Inference.Js

/-- The sink after a run of events: the content, `streamIndex`, and the chunks passed on. -/
def sinkState (chunkSize : JsNumber) (events : List StreamEvent) : String × Nat × List String :=
  events.foldl (sinkStep chunkSize) ("", 0, [])

theorem streamContent_eq_sinkState (chunkSize : JsNumber) (events : List StreamEvent) :
    streamContent chunkSize events =
      ((sinkState chunkSize events).1, (sinkState chunkSize events).2.2) := rfl

theorem sinkState_append (chunkSize : JsNumber) (events : List StreamEvent) (event : StreamEvent) :
    sinkState chunkSize (events ++ [event]) = sinkStep chunkSize (sinkState chunkSize events) event := by
  simp [sinkState, List.foldl_append]

/-- The text one event appends: its delta's content, or nothing when that is empty or absent. -/
def eventText (event : StreamEvent) : String := (truthy (event.delta.bind (·.content))).getD ""

@[simp] theorem sinkStep_content (chunkSize : JsNumber) (st : String × Nat × List String)
    (event : StreamEvent) : (sinkStep chunkSize st event).1 = st.1 ++ eventText event := by
  simp only [sinkStep]
  split <;> rfl

/-- The content of the sink is every event's text, in order. -/
theorem sinkState_content (chunkSize : JsNumber) (events : List StreamEvent) :
    (sinkState chunkSize events).1 = String.join (events.map eventText) := by
  induction events using List.reverseRecOn with
  | nil => rfl
  | append_singleton events event ih =>
    rw [sinkState_append, sinkStep_content, ih]
    apply String.ext
    simp [String.join, List.foldl_append, String.append]

/-- With `chunk_size` 4, "ab" waits, "cde" sends "abcde", and the finishing "f" sends the rest. -/
example :
    (sinkState (JsNumber.ofNat 4) [⟨some ⟨some "ab", none⟩, none⟩, ⟨some ⟨some "cde", none⟩, none⟩,
      ⟨some ⟨some "f", none⟩, some "stop"⟩]).2.2 = ["abcde", "f"] := by decide

end Shipit.Inference.Infer
