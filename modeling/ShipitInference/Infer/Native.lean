import ShipitInference.Infer.Chat

/-! One round of `inferGeminiNative`, the native transport: a single prompt built from the
caller's messages, one `generateContent` request, and a JSON reply that either names a tool
in an `action` envelope, which is executed before the recursive call, or is the final output.
-/

namespace Shipit.Inference.Infer

open Shipit.Inference.Js Shipit.Inference.Json Shipit.Inference.Streaming

-----------------------------------------------------------------------------------------
-- The prompt
-----------------------------------------------------------------------------------------

/-- A message's content as the prompt shows it: a text as is, an array part by part (a string
part as is, any other as JSON) on separate lines, anything else as JSON.
-/
def contentText : MessageContent → String
  | .text s => s
  | .parts items => "\n".intercalate (items.map fun
      | .string s => s
      | v => stringify v)
  | .null => "null"
  | .json v => stringify v

/-- One line of the conversation: `TOOL (name): content` for a tool message, else the role in
capitals. -/
def conversationLine (m : Message) : String :=
  if m.role = .tool then "TOOL (" ++ (m.name.getD "undefined") ++ "): " ++ contentText m.content
  else asciiUpper m.role.text ++ ": " ++ contentText m.content

/-- The tool protocol the system prompt states when tools are given. -/
def toolProtocol : String :=
  "When you need to use a tool, output JSON with this structure: \x7b\"thought\": \"...\", " ++
    "\"action\": \x7b\"tool\": \"tool_name\", \"args\": \x7b...\x7d\x7d\x7d. Otherwise, output your " ++
    "final response in the \"final\" field."

/-- The prompt of a native round: the system prompt with the format instructions (for a
schema and a schema name, in the caller's format or `markdown`), then the caller's messages.
Nothing of the tool-call context enters it.
-/
def geminiPrompt (args : InferArgs) : String :=
  let formatInstructions := match args.schema, truthy args.schemaName with
    | some schema, some _ => schema.template (args.format.getD "markdown") args.formatOptions
    | _, _ => ""
  let systemPrompt := "You are an autonomous agent.\nYou MUST output valid JSON only.\n" ++
    formatInstructions ++ "\n" ++ (if args.tools.isSome then toolProtocol else "")
  systemPrompt ++ "\n\nConversation:\n" ++ "\n".intercalate (args.messages.map conversationLine)

/-- `modelName` without a `google-ai-studio/` prefix, then without a `gemini/` prefix. -/
def geminiModelName (modelName : String) : String :=
  dropPrefix "gemini/" (dropPrefix "google-ai-studio/" modelName)

/-- The `generateContent` request of a native round. -/
def geminiRequest (args : InferArgs) (apiKey : String) : NativeRequest :=
  { url := "https://generativelanguage.googleapis.com/v1beta/models/" ++
      geminiModelName args.modelName ++ ":generateContent",
    apiKey, signal := args.abortSignal, prompt := geminiPrompt args,
    temperature := args.temperature.getD ⟨2, -1⟩, maxOutputTokens := args.maxTokens.getD 8192 }

-----------------------------------------------------------------------------------------
-- The reply
-----------------------------------------------------------------------------------------

/-- What the depth guard of `inferGeminiNative` ends the call with. -/
def nativeDepthLimit (collab : Collaborators) (args : InferArgs) (ctx : Option ToolCallContext) :
    Except InferFailure InferResponse :=
  if args.schema.isSome then
    .error (.abort ("Maximum tool calling depth (" ++
      toString (collab.getMaxToolCallingDepth args.actionKey) ++ ") exceeded.") ctx)
  else .ok (.text "[System: Maximum tool calling depth reached.]" ctx)

/-- `gemini_${Date.now()}_${random}`, the id of the tool call an action envelope stands for. -/
def geminiToolCallId (draw : SynthDraw) : String :=
  "gemini_" ++ toString draw.now ++ "_" ++ draw.random

/-- `t.name === parsed.action.tool`. -/
def namesTool (requested : Option JsonValue) (t : ToolDefinition) : Bool :=
  match requested with
  | some (.string name) => name = t.name
  | _ => false

/-- The action envelope: the named tool is looked up, called once, and the call recurses with
the new context unless a completion is signalled.
-/
def geminiAction (args : InferArgs) (world : RoundWorld) (ctx : Option ToolCallContext)
    (tools : List ToolDefinition) (text : String) (parsed action : JsonValue) : Next :=
  let requested := getProp action "tool"
  match tools.find? (namesTool requested) with
  | none =>
      .finish (.error (.inferError ("Unknown tool: " ++ templateString requested) text ctx))
  | some definition =>
      let toolCall : ToolCall :=
        ⟨geminiToolCallId world.geminiDraw, definition.name,
          match getProp action "args" with
          | none | some .null => "\x7b\x7d"
          | some v => stringify v⟩
      let assistantMessage : Message :=
        { role := .assistant,
          content := match getProp parsed "thought" with
            | some v => if v.isTruthy then MessageContent.ofJson v else .text ""
            | none => .text "",
          tool_calls := some [toolCall] }
      match world.toolResults with
      | .error e => .finish (.error e)
      | .ok executed =>
          let newContext := updateToolCallContext ctx assistantMessage executed (detectorOf args)
          match newContext.completionSignal with
          | some signal =>
              if signal.signaled then
                let summary := (truthy signal.summary).getD "Task complete"
                if args.schema.isSome then
                  .finish (.error (.abort ("Completion signaled: " ++ summary) (some newContext)))
                else .finish (.ok (.text summary (some newContext)))
              else .call (.native args (some newContext))
          | none => .call (.native args (some newContext))

/-- What an action envelope can do: name an unknown tool, pass on the tools' failure, return
or abort with the completion summary, or hand on the native call with the context one level
deeper. -/
theorem geminiAction_cases {args : InferArgs} {world : RoundWorld} {ctx : Option ToolCallContext}
    {tools : List ToolDefinition} {text : String} {parsed action : JsonValue} {next : Next}
    (h : geminiAction args world ctx tools text parsed action = next) :
    next = .finish (.error (.inferError ("Unknown tool: " ++ templateString (getProp action "tool"))
        text ctx)) ∨
      (∃ e, world.toolResults = .error e ∧ next = .finish (.error e)) ∨
      (∃ r, next = .finish (.ok r)) ∨ (∃ m c, next = .finish (.error (.abort m c))) ∨
      ∃ ctx', next = .call (.native args (some ctx')) ∧ ctx'.depth = contextDepth ctx + 1 := by
  subst h
  unfold geminiAction
  dsimp only
  cases tools.find? (namesTool (getProp action "tool")) with
  | none => exact .inl rfl
  | some definition =>
    dsimp only
    cases world.toolResults with
    | error e => exact .inr (.inl ⟨e, rfl, rfl⟩)
    | ok executed =>
      refine .inr (.inr ?_)
      dsimp only
      generalize deeper : updateToolCallContext ctx _ executed (detectorOf args) = newContext
      replace deeper : newContext.depth = contextDepth ctx + 1 := deeper ▸ rfl
      cases newContext.completionSignal with
      | none => exact .inr (.inr ⟨_, rfl, deeper⟩)
      | some signal =>
        dsimp only
        split
        · split
          · exact .inr (.inl ⟨_, _, rfl⟩)
          · exact .inl ⟨_, rfl⟩
        · exact .inr (.inr ⟨_, rfl, deeper⟩)

/-- The final output of a native round: `parsed.final ?? parsed` validated against a schema,
else `parsed.final ?? text` as the string.
-/
def geminiFinal (args : InferArgs) (ctx : Option ToolCallContext) (textValue : JsonValue)
    (text : String) (parsed : JsonValue) : Except InferFailure InferResponse :=
  let final := match getProp parsed "final" with
    | none | some .null => none
    | some v => some v
  match args.schema with
  | some schema =>
      match schema.safeParse (final.getD parsed) with
      | some data => .ok (.object data ctx)
      | none => .error (.inferError "Schema validation failed" text ctx)
  | none => .ok (.string (final.getD textValue) ctx)

/-- The reply body of a native round: the first candidate's text is parsed as JSON; an
`action` with tools given is executed, anything else is the final output. Reading `action`
of a `null` reply throws.
-/
def geminiReply (args : InferArgs) (world : RoundWorld) (ctx : Option ToolCallContext)
    (body : JsonValue) : Next :=
  match getPath (some body) ["candidates", "0", "content", "parts", "0", "text"] with
  | some textValue =>
      if textValue.isTruthy then
        let text := toJsString textValue
        match jsonParse text with
        | none => .finish (.error (.inferError "Invalid JSON from Gemini" text ctx))
        | some .null => .finish (.error .typeError)
        | some parsed =>
            match getProp parsed "action", args.tools with
            | some action, some tools =>
                if action.isTruthy then geminiAction args world ctx tools text parsed action
                else .finish (geminiFinal args ctx textValue text parsed)
            | _, _ => .finish (geminiFinal args ctx textValue text parsed)
      else .finish (.error (.inferError "Empty response from Gemini" "" ctx))
  | none => .finish (.error (.inferError "Empty response from Gemini" "" ctx))

/-- One round of `inferGeminiNative(args, toolCallContext)`: the depth guard, the API key, the
request, and the reply; a failed response throws a 429's rate-limit error or a plain error,
and a failed `fetch` propagates.
-/
def geminiRound (collab : Collaborators) (world : RoundWorld) (args : InferArgs)
    (ctx : Option ToolCallContext) : Round :=
  if contextDepth ctx ≥ collab.getMaxToolCallingDepth args.actionKey then
    .finish (nativeDepthLimit collab args ctx)
  else
    match truthy (args.env.get? "GOOGLE_AI_STUDIO_API_KEY") with
    | none => .finish (.error (.error "Missing GOOGLE_AI_STUDIO_API_KEY"))
    | some apiKey =>
        let request := UpstreamRequest.native (geminiRequest args apiKey)
        match world.nativeReply with
        | .error e => { request, next := .finish (.error (.transport e)) }
        | .ok response =>
            if !response.ok then
              { request, next := .finish (.error (if response.status = 429 then
                  geminiRateLimitError response.body response.retryAfter
                else .error ("Gemini API error " ++ toString response.status ++ ": " ++ response.body))) }
            else
              match jsonParse response.body with
              | none => { request, next := .finish (.error .syntaxError) }
              | some body => { request, next := geminiReply args world ctx body }

/-- Below the depth limit, a native round sends the `generateContent` request of the caller's
arguments whenever the key is set. -/
theorem geminiRound_request {collab : Collaborators} {world : RoundWorld} {args : InferArgs}
    {ctx : Option ToolCallContext}
    (below : contextDepth ctx < collab.getMaxToolCallingDepth args.actionKey) :
    (geminiRound collab world args ctx).request =
      (truthy (args.env.get? "GOOGLE_AI_STUDIO_API_KEY")).map
        fun apiKey => .native (geminiRequest args apiKey) := by
  unfold geminiRound
  rw [if_neg (by omega)]
  split
  · rename_i noKey; rw [noKey]; rfl
  · rename_i apiKey hasKey
    rw [hasKey]
    split
    · rfl
    · split
      · rfl
      · split <;> rfl

/-- Below the depth limit, the request of a native round does not depend on the tool-call
context: whatever the tools returned in earlier rounds, the model is sent the same request.
-/
theorem geminiRound_request_ignoresContext {collab : Collaborators} {world : RoundWorld}
    {args : InferArgs} {ctx ctx' : Option ToolCallContext}
    (below : contextDepth ctx < collab.getMaxToolCallingDepth args.actionKey)
    (below' : contextDepth ctx' < collab.getMaxToolCallingDepth args.actionKey) :
    (geminiRound collab world args ctx).request = (geminiRound collab world args ctx').request := by
  rw [geminiRound_request below, geminiRound_request below']

-----------------------------------------------------------------------------------------
-- The outcomes of a reply
-----------------------------------------------------------------------------------------

/-- The text of a `generateContent` body that `inferGeminiNative` parses: the first candidate's
first part's text, or the empty text when that is falsy or absent. -/
def nativeReplyText (body : JsonValue) : String :=
  match getPath (some body) ["candidates", "0", "content", "parts", "0", "text"] with
  | some textValue => if textValue.isTruthy then toJsString textValue else ""
  | none => ""

/-- The ways a native round may end on a reply with text `text` that the error classes of the
inference layer allow: a result, a recursion, `InferError` carrying the text, `AbortError` or
`RateLimitExceededError`. -/
def NativeOutcome (text : String) : Next → Prop
  | .call _ => True
  | .finish (.ok _) => True
  | .finish (.error (.inferError _ response _)) => response = text
  | .finish (.error (.abort _ _)) => True
  | .finish (.error (.rateLimitExceeded _ _)) => True
  | .finish (.error _) => False

theorem geminiFinal_outcome (args : InferArgs) (ctx : Option ToolCallContext)
    (textValue : JsonValue) (text : String) (parsed : JsonValue) :
    NativeOutcome text (.finish (geminiFinal args ctx textValue text parsed)) := by
  unfold geminiFinal
  cases args.schema with
  | none => trivial
  | some schema => dsimp only; split <;> trivial

/-- With the tools answering, an action ends as a result, a recursion, or one of the errors
the classes allow. -/
theorem geminiAction_outcome {args : InferArgs} {world : RoundWorld} {results : List ToolCallResult}
    (ran : world.toolResults = .ok results) (ctx : Option ToolCallContext)
    (tools : List ToolDefinition) (text : String) (parsed action : JsonValue) :
    NativeOutcome text (geminiAction args world ctx tools text parsed action) := by
  rcases geminiAction_cases rfl with h | ⟨e, failed, -⟩ | ⟨_, h⟩ | ⟨_, _, h⟩ | ⟨_, h, -⟩
  · rw [h]; rfl
  · cases ran.symm.trans failed
  all_goals rw [h]; trivial

/-- With the tools answering, a reply leaves the error classes exactly when its text is the JSON
value `null`: `parsed.action` then throws a `TypeError`. -/
theorem geminiReply_outcome_iff {args : InferArgs} {world : RoundWorld}
    {results : List ToolCallResult} (ran : world.toolResults = .ok results)
    (ctx : Option ToolCallContext) (body : JsonValue) :
    NativeOutcome (nativeReplyText body) (geminiReply args world ctx body) ↔
      jsonParse (nativeReplyText body) ≠ some .null := by
  unfold geminiReply nativeReplyText
  split
  case h_1 textValue _ =>
    split
    case isTrue =>
      dsimp only
      split
      case h_1 unparsed => simp [NativeOutcome, unparsed]
      case h_2 null => simp [NativeOutcome, null]
      case h_3 parsed notNull parses =>
        refine iff_of_true ?_ (by rw [parses]; exact fun null => notNull (Option.some.inj null))
        split
        case h_1 =>
          split
          · exact geminiAction_outcome ran ..
          · exact geminiFinal_outcome ..
        case h_2 => exact geminiFinal_outcome ..
    case isFalse => simp [NativeOutcome]
  case h_2 => simp [NativeOutcome]

/-- A body without candidates: the empty text is carried by `InferError`. -/
theorem geminiReply_outcome_noCandidates :
    (sampleWorld (.completion none) "" []).toolResults = .ok [] ∧
      (NativeOutcome (nativeReplyText .null)
          (geminiReply (sampleArgs "google-ai-studio/gemini-2.5-flash" none)
            (sampleWorld (.completion none) "" []) none .null) ↔
        jsonParse (nativeReplyText .null) ≠ some .null) :=
  ⟨rfl, geminiReply_outcome_iff rfl none .null⟩

-----------------------------------------------------------------------------------------
-- Sample calls
-----------------------------------------------------------------------------------------

/-- A `generateContent` body whose first candidate's first part has the text `text`. -/
def geminiBody (text : String) : String :=
  "\x7b\"candidates\":[\x7b\"content\":\x7b\"parts\":[\x7b\"text\":" ++ quote text ++
    "\x7d]\x7d\x7d]\x7d"

/-- An action envelope asking for `search` without arguments, and what `search` returns. -/
def searchAction : String := "\x7b\"action\":\x7b\"tool\":\"search\",\"args\":\x7b\x7d\x7d\x7d"

def geminiSearchResult : ToolCallResult := ⟨"gemini_0_r", "search", some (.string "found")⟩

/-- The context after a native round whose model asked for `search`. -/
def geminiSearchContext : ToolCallContext :=
  updateToolCallContext none
    { role := .assistant, content := .text "", tool_calls := some [⟨"gemini_0_r", "search", "\x7b\x7d"⟩] }
    [geminiSearchResult] none

/-- A native round whose model asks for `search` and whose tool answers. -/
def geminiSearchWorld : RoundWorld :=
  sampleWorld (.completion none) (geminiBody searchAction) [geminiSearchResult]

set_option maxRecDepth 4000 in
/-- A native call whose model asks for `search`: the round hands on the native call with the
assistant turn and the tool's result in its context, and the next round sends the same
request again.
-/
theorem geminiRound_resendsSameRequest :
    (geminiRound sampleCollaborators geminiSearchWorld (sampleArgs "google-ai-studio/gemini-2.5-flash" none)
        none).next =
      .call (.native (sampleArgs "google-ai-studio/gemini-2.5-flash" none) (some geminiSearchContext)) ∧
    (geminiRound sampleCollaborators geminiSearchWorld (sampleArgs "google-ai-studio/gemini-2.5-flash" none)
        none).request =
      some (.native (geminiRequest (sampleArgs "google-ai-studio/gemini-2.5-flash" none) "AIza0123456789")) ∧
    (geminiRound sampleCollaborators geminiSearchWorld (sampleArgs "google-ai-studio/gemini-2.5-flash" none)
        (some geminiSearchContext)).request =
      some (.native (geminiRequest (sampleArgs "google-ai-studio/gemini-2.5-flash" none) "AIza0123456789")) :=
  have first : (geminiRound sampleCollaborators geminiSearchWorld
      (sampleArgs "google-ai-studio/gemini-2.5-flash" none) none).request =
      some (.native (geminiRequest (sampleArgs "google-ai-studio/gemini-2.5-flash" none) "AIza0123456789")) :=
    rfl
  ⟨rfl, first, (geminiRound_request_ignoresContext (by decide) (by decide)).symm.trans first⟩

/-- Blueprint data whose `views` is an object keyed by view name. -/
def viewsReply : String := "\x7b\"views\":\x7b\"Main\":\x7b\x7d\x7d\x7d"

/-- Blueprint data with object-shaped `views`: the chat transport repairs it and returns the
object, the native transport validates it as it came and throws.
-/
theorem blueprintViews_acceptedOnlyByChat :
    (inferRound sampleCollaborators (sampleWorld (.completion (some ⟨some viewsReply, none⟩)) "" [])
        (sampleArgs "deepseek/deepseek-chat" (some viewsSchema)) none).next =
      .finish (.ok (.object (.object [("views", .array [.object [("name", .string "Main")]])]) none)) ∧
    (geminiRound sampleCollaborators (sampleWorld (.completion none) (geminiBody viewsReply) [])
        (sampleArgs "google-ai-studio/gemini-2.5-flash" (some viewsSchema)) none).next =
      .finish (.error (.inferError "Schema validation failed" viewsReply none)) :=
  ⟨rfl, rfl⟩

/-- A native reply whose text is `null`: `JSON.parse` accepts it, and reading `action` of the
result throws a `TypeError`, none of the outcomes the error classes allow.
-/
theorem geminiRound_nullReplyThrowsTypeError :
    jsonParse "null" = some .null ∧
      (geminiRound sampleCollaborators (sampleWorld (.completion none) (geminiBody "null") [])
          (sampleArgs "google-ai-studio/gemini-2.5-flash" none) none).next =
        .finish (.error .typeError) ∧
      ¬NativeOutcome "null"
          (geminiRound sampleCollaborators (sampleWorld (.completion none) (geminiBody "null") [])
            (sampleArgs "google-ai-studio/gemini-2.5-flash" none) none).next :=
  ⟨rfl, rfl, fun h => h⟩

end Shipit.Inference.Infer
