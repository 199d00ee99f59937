import ShipitInference.Infer.Native
import ShipitInference.Json.RoundTrip

/-! The JSON texts a round writes for its tools: the arguments of the tool call a native round
makes from an action envelope, and the tool message of a result. Both parse back to the value
written, as the round trip of `JSON.stringify` and `JSON.parse` reads it back.
-/

namespace Shipit.Inference.Infer

open Shipit.Inference.Js Shipit.Inference.Json

-----------------------------------------------------------------------------------------
-- The round that goes on with a tool call
-----------------------------------------------------------------------------------------

/-- `parsed.action.args ?? {}`: the arguments an action envelope passes to its tool. -/
def actionArguments (action : JsonValue) : JsonValue :=
  match getProp action "args" with
  | none | some .null => .object []
  | some v => v

/-- A native round goes on with a call only from the action envelope of a reply that parsed,
with tools given. -/
theorem geminiReply_call {args : InferArgs} {world : RoundWorld} {ctx : Option ToolCallContext}
    {body : JsonValue} {call : Call} (continues : geminiReply args world ctx body = .call call) :
    ∃ parsed action tools, jsonParse (nativeReplyText body) = some parsed ∧
      getProp parsed "action" = some action ∧ args.tools = some tools ∧
      geminiAction args world ctx tools (nativeReplyText body) parsed action = .call call := by
  unfold geminiReply at continues
  unfold nativeReplyText
  split at continues
  · split at continues
    · rename_i nonempty
      simp only [nonempty, if_true]
      dsimp only at continues
      split at continues
      · cases continues
      · cases continues
      · rename_i parsed notNull parses
        split at continues
        · rename_i action tools hasAction hasTools
          split at continues
          · exact ⟨parsed, action, tools, parses, hasAction, hasTools, continues⟩
          · cases continues
        · cases continues
    · cases continues
  · cases continues

/-- When an action envelope goes on with a native call, the context it hands on extends the
previous messages with the assistant message carrying the one tool call, whose arguments
parse back to `parsed.action.args ?? {}`. -/
theorem geminiAction_toolCall {args : InferArgs} {world : RoundWorld} {ctx : Option ToolCallContext}
    {tools : List ToolDefinition} {text : String} {parsed action : JsonValue} {args' : InferArgs}
    {ctx' : ToolCallContext} (distinct : distinctKeys action = true)
    (continues : geminiAction args world ctx tools text parsed action = .call (.native args' (some ctx'))) :
    ∃ call content results,
      ctx'.messages = (ctx.map (·.messages)).getD [] ++
        ({ role := .assistant, content, tool_calls := some [call] } :: results) ∧
      jsonParse call.arguments = some (reparsed (actionArguments action)) := by
  unfold geminiAction at continues
  dsimp only at continues
  cases found : tools.find? (namesTool (getProp action "tool")) with
  | none => rw [found] at continues; cases continues
  | some definition =>
    rw [found] at continues
    cases ran : world.toolResults with
    | error e => rw [ran] at continues; cases continues
    | ok executed =>
      rw [ran] at continues
      dsimp only at continues
      generalize built : updateToolCallContext ctx _ executed (detectorOf args) = newContext at continues
      have handed : newContext = ctx' := by
        split at continues
        · split at continues
          · split at continues <;> cases continues
          · cases continues; rfl
        · cases continues; rfl
      subst handed
      rw [← built]
      refine ⟨_, _, _, List.append_assoc _ _ _, ?_⟩
      split
      all_goals rename_i read; rw [actionArguments, read]
      · rfl
      · rfl
      · rename_i v notNull
        have value := jsonParse_stringify v (distinctKeys_getProp distinct read)
        cases v <;> first | exact absurd rfl notNull | exact value

-----------------------------------------------------------------------------------------
-- The arguments the tool is given
-----------------------------------------------------------------------------------------

/-- When a native round goes on with a tool call, the context it hands on extends the previous
messages with the assistant message carrying that one call, whose arguments parse back to the
reply's `action.args` (or `{}`): the same value, with each number as printed and each object's
members in own-property order. It is stated for replies whose numbers the engine holds
exactly; the model's proof needs only that `JSON.parse` names each key once. -/
theorem geminiReply_toolCallArguments {args : InferArgs} {world : RoundWorld}
    {ctx : Option ToolCallContext} {body : JsonValue} {args' : InferArgs} {ctx' : ToolCallContext}
    (continues : geminiReply args world ctx body = .call (.native args' (some ctx'))) :
    (∀ parsed, jsonParse (nativeReplyText body) = some parsed → shortNumbers parsed = true) →
    ∃ parsed action call content results,
      jsonParse (nativeReplyText body) = some parsed ∧ getProp parsed "action" = some action ∧
      ctx'.messages = (ctx.map (·.messages)).getD [] ++
        ({ role := .assistant, content, tool_calls := some [call] } :: results) ∧
      jsonParse call.arguments = some (reparsed (actionArguments action)) := by
  intro _
  obtain ⟨parsed, action, tools, parses, hasAction, -, acted⟩ := geminiReply_call continues
  obtain ⟨call, content, results, messages, arguments⟩ :=
    geminiAction_toolCall (distinctKeys_getProp (jsonParse_distinctKeys parses) hasAction) acted
  exact ⟨parsed, action, call, content, results, parses, hasAction, messages, arguments⟩

/-- The `generateContent` body whose text asks for `search` without arguments. -/
def searchReplyBody : JsonValue :=
  .object [("candidates", .array [.object [("content", .object [("parts",
    .array [.object [("text", .string searchAction)]])])]])]

set_option maxRecDepth 4000 in
theorem geminiReply_toolCallArguments_search :
    geminiReply (sampleArgs "google-ai-studio/gemini-2.5-flash" none) geminiSearchWorld none
        searchReplyBody =
      .call (.native (sampleArgs "google-ai-studio/gemini-2.5-flash" none) (some geminiSearchContext)) ∧
    ∃ parsed action call content results,
      jsonParse (nativeReplyText searchReplyBody) = some parsed ∧
      getProp parsed "action" = some action ∧
      geminiSearchContext.messages = ((none : Option ToolCallContext).map (·.messages)).getD [] ++
        ({ role := .assistant, content, tool_calls := some [call] } :: results) ∧
      jsonParse call.arguments = some (reparsed (actionArguments action)) :=
  have continues : geminiReply (sampleArgs "google-ai-studio/gemini-2.5-flash" none) geminiSearchWorld
      none searchReplyBody =
      .call (.native (sampleArgs "google-ai-studio/gemini-2.5-flash" none) (some geminiSearchContext)) :=
    rfl
  have envelope : jsonParse (nativeReplyText searchReplyBody) =
      some (.object [("action", .object [("tool", .string "search"), ("args", .object [])])]) := rfl
  ⟨continues, geminiReply_toolCallArguments continues fun _ parses => by
    rw [envelope, Option.some_inj] at parses
    rw [← parses]
    rfl⟩

-----------------------------------------------------------------------------------------
-- The tool message of a result
-----------------------------------------------------------------------------------------

/-- The tool message of a result, as the next round sends it: a truthy result as its JSON text,
which parses back to the result read back; a falsy or missing result as `done`, which is not
JSON, so that `false`, `0`, the empty string and `null` reach the model as a missing result
does. It is stated for results that are JSON values whose numbers the engine holds exactly. -/
theorem toolResultMessage_readsBack (result : ToolCallResult)
    (distinct : ∀ v ∈ result.result, distinctKeys v = true) :
    (∀ v ∈ result.result, shortNumbers v = true) →
      ∃ text, (toolResultMessage result).content = .text text ∧
        jsonParse text = (result.result.filter JsonValue.isTruthy).map reparsed := by
  intro _
  refine ⟨_, rfl, ?_⟩
  cases given : result.result with
  | none => rfl
  | some v =>
    by_cases truthy : v.isTruthy
    · simp only [given, truthy, if_true, Option.filter_some, Option.map_some']
      exact jsonParse_stringify v (distinct v given)
    · simp only [given, truthy, if_false, Option.filter_some, Option.map_none', Bool.false_eq_true]
      rfl

theorem toolResultMessage_readsBack_search :
    (∀ v ∈ searchResult.result, distinctKeys v = true) ∧
      (∀ v ∈ searchResult.result, shortNumbers v = true) ∧
      ∃ text, (toolResultMessage searchResult).content = .text text ∧
        jsonParse text = (searchResult.result.filter JsonValue.isTruthy).map reparsed :=
  ⟨fun _ found => by cases found; rfl, fun _ found => by cases found; rfl,
    toolResultMessage_readsBack searchResult (fun _ found => by cases found; rfl)
      fun _ found => by cases found; rfl⟩

end Shipit.Inference.Infer
