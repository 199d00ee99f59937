import ShipitInference.Infer.Config

/-! The message sanitizer of `core.ts`: `optimizeTextContent` and `optimizeInputs`, the orphan
filter over a prior context's messages, the injection of format instructions into the last
message, and `updateToolCallContext`.
-/

namespace Shipit.Inference.Infer

open Shipit.Inference.Js Shipit.Inference.Json Shipit.Inference.Streaming

-----------------------------------------------------------------------------------------
-- optimizeTextContent
-----------------------------------------------------------------------------------------

/-- `s.replace(/[ \t]+$/gm, '')`: a run of spaces and tabs is removed exactly when a line
terminator or the end of the text follows it. `pending` is the run read so far.
-/
def stripTrailingBlanks (pending : List Char) : List Char → List Char
  | [] => []
  | c :: rest =>
      if c = ' ' ∨ c = '\t' then stripTrailingBlanks (pending ++ [c]) rest
      else if isLineTerminator c then c :: stripTrailingBlanks [] rest
      else pending ++ c :: stripTrailingBlanks [] rest

/-- One maximal run of `\s` characters under `/\n\s*\n\s*\n\s*\n+/g`: with four newlines or
more, the leftmost match runs from its first newline to its last, and becomes three newlines.
-/
def collapseRun (run : List Char) : List Char :=
  if 4 ≤ run.count '\n' then
    run.takeWhile (· ≠ '\n') ++ ['\n', '\n', '\n'] ++ (run.reverse.takeWhile (· ≠ '\n')).reverse
  else run

/-- `s.replace(/\n\s*\n\s*\n\s*\n+/g, '\n\n\n')`, run by run; `run` is the whitespace read so
far.
-/
def collapseBlankLines (run : List Char) : List Char → List Char
  | [] => collapseRun run
  | c :: rest =>
      if isJsWhitespace c then collapseBlankLines (run ++ [c]) rest
      else collapseRun run ++ c :: collapseBlankLines [] rest

/-- `optimizeTextContent(content)`. -/
def optimizeTextContent (content : String) : String :=
  ⟨trimChars (collapseBlankLines [] (stripTrailingBlanks [] content.data))⟩

/-- `item.type === 'text'` for an object part. -/
def isTextPart (fields : Fields) : Bool :=
  match getField fields "type" with
  | some (.string t) => t = "text"
  | _ => false

/-- One part of an array content: a text part gets its text optimised. Reading `type` of
`null` throws, and so does optimising a `text` that is not a string.
-/
def optimizePart : JsonValue → Except InferFailure JsonValue
  | .object fields =>
      if isTextPart fields then
        match getField fields "text" with
        | some (.string t) =>
            .ok (.object (setField (spreadFields [] (ownEntries fields)) "text"
              (.string (optimizeTextContent t))))
        | _ => .error .typeError
      else .ok (.object fields)
  | .null => .error .typeError
  | item => .ok item

/-- `optimizeMessageContent(content)`: a falsy content is kept, an array is optimised part by
part, a text as a whole; any other value has no `replace` and throws.
-/
def optimizeMessageContent : MessageContent → Except InferFailure MessageContent
  | .text s => .ok (.text (if s = "" then s else optimizeTextContent s))
  | .parts items => .parts <$> items.mapM optimizePart
  | .null => .ok .null
  | .json v => if v.isTruthy then .error .typeError else .ok (.json v)

/-- `optimizeInputs(messages)`. -/
def optimizeInputs (messages : List Message) : Except InferFailure (List Message) :=
  messages.mapM fun m => do
    let content ← optimizeMessageContent m.content
    pure { m with content }

-----------------------------------------------------------------------------------------
-- The orphan filter
-----------------------------------------------------------------------------------------

/-- The filter over a prior context's messages: an assistant message with `tool_calls`
replaces the set of valid ids; a tool message stays only with a non-blank name and a
`tool_call_id` in that set.
-/
def filterOrphans (valid : List String) : List Message → List Message
  | [] => []
  | m :: rest =>
      if m.role = .assistant ∧ m.tool_calls.isSome then
        m :: filterOrphans ((m.tool_calls.getD []).map (·.id)) rest
      else if m.role = .tool then
        match truthy (m.name.map trim), truthy m.tool_call_id with
        | some _, some id =>
            if id ∈ valid then m :: filterOrphans valid rest else filterOrphans valid rest
        | _, _ => filterOrphans valid rest
      else m :: filterOrphans valid rest

/-- "Remove empty tool call arrays": an assistant message keeps the tool calls with a truthy
id, and loses `tool_calls` when none is left. The code assigns this to the message objects
themselves, which the context shares.
-/
def dropEmptyToolCalls (m : Message) : Message :=
  if m.role = .assistant then
    match m.tool_calls with
    | some calls =>
        let kept := calls.filter (·.id ≠ "")
        { m with tool_calls := if kept = [] then none else some kept }
    | none => m
  else m

/-- The context's messages as `infer` appends them. -/
def contextMessages (ctx : ToolCallContext) : List Message :=
  (filterOrphans [] ctx.messages).map dropEmptyToolCalls

/-- The context after a chat round read it: the objects of its messages were re-assigned
their filtered `tool_calls`.
-/
def ToolCallContext.afterFilter (ctx : ToolCallContext) : ToolCallContext :=
  { ctx with messages := ctx.messages.map dropEmptyToolCalls }

/-- Every tool message has a non-empty name and a `tool_call_id` among the ids of the most
recent preceding assistant message that carries `tool_calls`; `valid` holds the ids of the
one before the list, if any.
-/
def toolMessagesAnswered (valid : List String) : List Message → Bool
  | [] => true
  | m :: rest =>
      if m.role = .assistant ∧ m.tool_calls.isSome then
        toolMessagesAnswered ((m.tool_calls.getD []).map (·.id)) rest
      else if m.role = .tool then
        (m.name.getD "" ≠ "" ∧ m.tool_call_id.any (· ∈ valid)) && toolMessagesAnswered valid rest
      else toolMessagesAnswered valid rest

theorem toolMessagesAnswered_carrying {valid : List String} {m : Message} {rest : List Message}
    (assistant : m.role = .assistant) {calls : List ToolCall} (carries : m.tool_calls = some calls) :
    toolMessagesAnswered valid (m :: rest) = toolMessagesAnswered (calls.map (·.id)) rest := by
  simp [toolMessagesAnswered, assistant, carries]

theorem toolMessagesAnswered_tool {valid : List String} {m : Message} {rest : List Message}
    (tool : m.role = .tool) :
    toolMessagesAnswered valid (m :: rest) =
      ((m.name.getD "" ≠ "" ∧ m.tool_call_id.any (· ∈ valid)) && toolMessagesAnswered valid rest) := by
  simp [toolMessagesAnswered, tool]

theorem toolMessagesAnswered_other {valid : List String} {m : Message} {rest : List Message}
    (notCarrying : ¬(m.role = .assistant ∧ m.tool_calls.isSome)) (notTool : m.role ≠ .tool) :
    toolMessagesAnswered valid (m :: rest) = toolMessagesAnswered valid rest := by
  rw [toolMessagesAnswered, if_neg notCarrying, if_neg notTool]

/-- A tool message the filter keeps has a name that is not empty and an id that is not. -/
theorem filterOrphans_kept {m : Message} {n id : String}
    (named : truthy (m.name.map trim) = some n) (identified : truthy m.tool_call_id = some id) :
    m.name.getD "" ≠ "" ∧ m.tool_call_id = some id ∧ id ≠ "" := by
  obtain ⟨hn, blank⟩ := truthy_eq_some.mp named
  obtain ⟨hid, nonEmpty⟩ := truthy_eq_some.mp identified
  obtain ⟨name, hname, rfl⟩ := Option.map_eq_some'.mp hn
  refine ⟨?_, hid, nonEmpty⟩
  rw [hname, Option.getD_some]
  rintro rfl
  exact blank rfl

/-- An assistant message with tool calls keeps those with an id, and loses `tool_calls` when
none has one. -/
theorem dropEmptyToolCalls_carrying {m : Message} (assistant : m.role = .assistant)
    {calls : List ToolCall} (carries : m.tool_calls = some calls) :
    dropEmptyToolCalls m = { m with tool_calls :=
      (if calls.filter (·.id ≠ "") = [] then none else some (calls.filter (·.id ≠ ""))) } := by
  simp only [dropEmptyToolCalls, assistant, carries, if_true]

/-- Any other message is kept as it is. -/
theorem dropEmptyToolCalls_of_not_carrying {m : Message}
    (notCarrying : ¬(m.role = .assistant ∧ m.tool_calls.isSome)) : dropEmptyToolCalls m = m := by
  unfold dropEmptyToolCalls
  split
  · rename_i assistant
    have : m.tool_calls = none := by simpa [assistant] using notCarrying
    simp [this]
  · rfl

/-- What the orphan filter keeps, with empty tool-call arrays removed, answers every tool
message, whatever ids were valid before it: each kept tool message follows, within the
filtered list, the assistant message whose call it answers.
-/
theorem filterOrphans_answered : ∀ (msgs : List Message) (valid valid' : List String),
    (∀ id ∈ valid, id ≠ "" → id ∈ valid') →
      toolMessagesAnswered valid' ((filterOrphans valid msgs).map dropEmptyToolCalls) = true
  | [], _, _, _ => rfl
  | m :: rest, valid, valid', covered => by
      unfold filterOrphans
      split
      · rename_i carries
        obtain ⟨calls, hcalls⟩ := Option.isSome_iff_exists.mp carries.2
        rw [List.map_cons, dropEmptyToolCalls_carrying carries.1 hcalls, hcalls, Option.getD_some]
        by_cases noneKept : calls.filter (·.id ≠ "") = []
        · rw [if_pos noneKept, toolMessagesAnswered_other (by simp) (by simp [carries.1])]
          refine filterOrphans_answered rest _ valid' fun id mem nonEmpty => ?_
          obtain ⟨call, inCalls, rfl⟩ := List.mem_map.mp mem
          have : call ∈ calls.filter (·.id ≠ "") :=
            List.mem_filter.mpr ⟨inCalls, decide_eq_true nonEmpty⟩
          rw [noneKept] at this
          exact absurd this (List.not_mem_nil _)
        · rw [if_neg noneKept, toolMessagesAnswered_carrying (m := { m with tool_calls := some _ })
            carries.1 rfl]
          refine filterOrphans_answered rest _ _ fun id mem nonEmpty => ?_
          obtain ⟨call, inCalls, rfl⟩ := List.mem_map.mp mem
          exact List.mem_map_of_mem _ (List.mem_filter.mpr ⟨inCalls, decide_eq_true nonEmpty⟩)
      · rename_i notCarrying
        split
        · rename_i isTool
          split
          · rename_i n id named identified
            obtain ⟨hasName, hid, nonEmpty⟩ := filterOrphans_kept named identified
            split
            · rename_i answered
              rw [List.map_cons, dropEmptyToolCalls_of_not_carrying notCarrying,
                toolMessagesAnswered_tool isTool, filterOrphans_answered rest valid valid' covered]
              simp [hasName, hid, covered id answered nonEmpty]
            · exact filterOrphans_answered rest valid valid' covered
          · exact filterOrphans_answered rest valid valid' covered
        · rename_i notTool
          rw [List.map_cons, dropEmptyToolCalls_of_not_carrying notCarrying,
            toolMessagesAnswered_other notCarrying notTool]
          exact filterOrphans_answered rest valid valid' covered

/-- The messages of a prior context, as `infer` appends them, answer every tool message. -/
theorem contextMessages_answered (ctx : ToolCallContext) (valid : List String) :
    toolMessagesAnswered valid (contextMessages ctx) = true :=
  filterOrphans_answered ctx.messages [] valid (by simp)

/-- A prefix without tool messages only moves the ids valid where the rest begins. -/
theorem toolMessagesAnswered_append : ∀ {xs : List Message} (valid : List String)
    (ys : List Message), (∀ m ∈ xs, m.role ≠ .tool) →
      ∃ valid', toolMessagesAnswered valid (xs ++ ys) = toolMessagesAnswered valid' ys
  | [], valid, _, _ => ⟨valid, rfl⟩
  | m :: rest, valid, ys, noTool => by
      have restNoTool : ∀ m ∈ rest, m.role ≠ .tool := fun m' mem => noTool m' (.tail _ mem)
      rw [List.cons_append, toolMessagesAnswered]
      split
      · exact toolMessagesAnswered_append _ ys restNoTool
      · rw [if_neg (noTool m (.head _))]
        exact toolMessagesAnswered_append valid ys restNoTool

/-- A map in `Except` whose every step keeps `g` keeps `g` of the whole list. -/
theorem map_eq_of_mapM_eq_ok {ε α γ : Type} {f : α → Except ε α} {g : α → γ}
    (keep : ∀ a b, f a = .ok b → g b = g a) :
    ∀ {xs ys : List α}, xs.mapM f = .ok ys → ys.map g = xs.map g
  | [], ys, h => by
      rw [List.mapM_nil] at h
      cases h; rfl
  | x :: rest, ys, h => by
      rw [List.mapM_cons] at h
      cases hx : f x with
      | error e => rw [hx] at h; cases h
      | ok y =>
          cases hrest : rest.mapM f with
          | error e => rw [hx, hrest] at h; cases h
          | ok ys' =>
              rw [hx, hrest] at h
              cases h
              simp [keep x y hx, map_eq_of_mapM_eq_ok keep hrest]

/-- Optimising the messages keeps each message's role. -/
theorem optimizeInputs_roles {messages optimized : List Message}
    (h : optimizeInputs messages = .ok optimized) :
    optimized.map (·.role) = messages.map (·.role) := by
  refine map_eq_of_mapM_eq_ok (fun m m' step => ?_) h
  cases hm : optimizeMessageContent m.content with
  | error e => rw [hm] at step; cases step
  | ok content => rw [hm] at step; cases step; rfl

-----------------------------------------------------------------------------------------
-- Format instructions
-----------------------------------------------------------------------------------------

/-- A part of the last message's array content: a text part gets the instructions appended
to its `text` (`undefined` when it has none); reading `type` of `null` throws.
-/
def appendToTextPart (instructions : String) : JsonValue → Except InferFailure JsonValue
  | .object fields =>
      if isTextPart fields then
        .ok (.object (setField (spreadFields [] (ownEntries fields)) "text"
          (.string (templateString (getField fields "text") ++ "\n\n" ++ instructions))))
      else .ok (.object fields)
  | .null => .error .typeError
  | item => .ok item

/-- The injection of format instructions: the last message is rebuilt as `{ role, content }`
with the instructions appended to its text; a message list that is empty throws.
-/
def injectFormatInstructions (messages : List Message) (instructions : String) :
    Except InferFailure (List Message) :=
  match messages.getLast? with
  | none => .error .typeError
  | some last =>
      match last.content with
      | .text s =>
          .ok (messages.dropLast ++ [{ role := last.role, content := .text (s ++ "\n\n" ++ instructions) }])
      | .parts items => do
          let updated ← items.mapM (appendToTextPart instructions)
          pure (messages.dropLast ++ [{ role := last.role, content := .parts updated }])
      | _ => .ok messages

-----------------------------------------------------------------------------------------
-- updateToolCallContext
-----------------------------------------------------------------------------------------

/-- The tool message of one executed call: its JSON result, or `done` when the result is
falsy.
-/
def toolResultMessage (result : ToolCallResult) : Message :=
  { role := .tool,
    content := .text (match result.result with
      | some v => if v.isTruthy then stringify v else "done"
      | none => "done"),
    name := some result.name, tool_call_id := some result.id }

/-- `updateToolCallContext(toolCallContext, assistantMessage, executedToolCalls, detector)`. -/
def updateToolCallContext (ctx : Option ToolCallContext) (assistantMessage : Message)
    (executed : List ToolCallResult) (detector : Option CompletionDetector) : ToolCallContext :=
  let previous := ctx.bind (·.completionSignal)
  { messages := (ctx.map (·.messages)).getD [] ++ [assistantMessage] ++
      (executed.filter fun r => r.name ≠ "" ∧ trim r.name ≠ "").map toolResultMessage,
    depth := (ctx.map (·.depth)).getD 0 + 1,
    completionSignal := match detector, previous with
      | some d, none => d.detectCompletion executed
      | _, _ => previous,
    warningInjected := some ((ctx.bind (·.warningInjected)).getD false) }

end Shipit.Inference.Infer
