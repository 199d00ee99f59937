import ShipitInference.Infer.Sanitizer
import ShipitInference.Infer.RateLimit
import ShipitInference.Blueprint.Normalize

/-! One round of `infer`, the chat-completion transport: the guards, the routing to the native
transport, the request, reading the reply (streamed or not), the tools, and then a result,
a throw, or the recursive call with the context one level deeper.
-/

namespace Shipit.Inference.Infer

open Shipit.Inference.Js Shipit.Inference.Json Shipit.Inference.Streaming
open Shipit.Inference.Blueprint

-----------------------------------------------------------------------------------------
-- Guards
-----------------------------------------------------------------------------------------

/-- `toolCallContext?.depth ?? 0`. -/
def contextDepth (ctx : Option ToolCallContext) : Nat := (ctx.map (·.depth)).getD 0

/-- A schema and a non-empty schema name: the structured call of the typed overloads. -/
def isStructured (args : InferArgs) : Bool := args.schema.isSome ∧ (truthy args.schemaName).isSome

/-- The message-count guard: `RateLimitExceededError` without a delay. -/
def messageLimitError (collab : Collaborators) (args : InferArgs) : InferFailure :=
  .rateLimitExceeded ("Message limit exceeded: " ++ toString args.messages.length ++
    " messages (max: " ++ toString collab.maxLlmMessages ++
    "). Please use context compactification.") none

/-- What the depth guard of `infer` ends the call with. -/
def chatDepthLimit (collab : Collaborators) (args : InferArgs) (ctx : Option ToolCallContext) :
    Except InferFailure InferResponse :=
  if args.schema.isSome then
    .error (.abort ("Maximum tool calling depth (" ++ toString (collab.getMaxToolCallingDepth args.actionKey) ++
      ") exceeded. Tools may be calling each other recursively.") ctx)
  else .ok (.text "[System: Maximum tool calling depth reached.]" ctx)

-----------------------------------------------------------------------------------------
-- The request
-----------------------------------------------------------------------------------------

/-- `claude_thinking_budget_tokens`. -/
def claudeThinkingBudgetTokens : ReasoningEffort → Nat
  | .medium => 8000
  | .high => 16000
  | .low => 4000
  | .minimal => 1000

/-- How a round asks for structured output: `response_format`, the format whose instructions
go into the prompt (`forcedFormat`), and Claude's thinking budget.
-/
structure OutputPlan where
  responseFormat : ResponseFormat
  forcedFormat : Option SchemaFormat
  thinkingBudget : Option Nat

/-- `schemaObj`, `forcedFormat` and `extraBody`, for the rewritten model name: a Claude or a
DeepSeek model gets prompt instructions in the `markdown` format instead of a JSON schema.
-/
def outputPlan (args : InferArgs) (provider modelName : String) : OutputPlan :=
  let isClaudeModel := includes modelName "claude"
  let needsStructuredOutput := isStructured args ∧ (truthy args.format).isNone
  let useFormatForClaude := isClaudeModel ∧ needsStructuredOutput
  let useJsonObjectForDeepSeek := provider = "deepseek" ∧ needsStructuredOutput
  { responseFormat :=
      if needsStructuredOutput ∧ ¬useFormatForClaude ∧ ¬useJsonObjectForDeepSeek then
        .jsonSchema (args.schemaName.getD "")
      else if useJsonObjectForDeepSeek then .jsonObject
      else .none,
    forcedFormat :=
      if useFormatForClaude ∨ useJsonObjectForDeepSeek then some "markdown" else args.format,
    thinkingBudget :=
      if isClaudeModel then some (claudeThinkingBudgetTokens (args.reasoning_effort.getD .medium))
      else none }

/-- Without a schema, the plan forces exactly the caller's format. -/
theorem outputPlan_forcedFormat_of_noSchema {args : InferArgs} (noSchema : args.schema = none)
    (provider modelName : String) :
    (outputPlan args provider modelName).forcedFormat = args.format := by
  simp [outputPlan, isStructured, noSchema]

/-- `messagesToPass`: the optimised messages, the filtered context, and the format
instructions appended to the last message when a format is forced.
-/
def messagesToPass (args : InferArgs) (ctx : Option ToolCallContext) (plan : OutputPlan) :
    Except InferFailure (List Message) := do
  let optimized ← optimizeInputs args.messages
  let messages := optimized ++ (ctx.map contextMessages).getD []
  match truthy plan.forcedFormat with
  | none => pure messages
  | some format =>
      match args.schema, truthy args.schemaName with
      | some schema, some _ => injectFormatInstructions messages (schema.template format args.formatOptions)
      | _, _ => throw (.error "Schema and schemaName are required when using a custom format")

/-- The chat-completion request of a round. -/
def chatRequest (args : InferArgs) (config : AIModelConfig) (connection : Connection)
    (modelName : String) (plan : OutputPlan) (messages : List Message) : ChatRequest :=
  { baseURL := connection.baseURL, apiKey := connection.apiKey,
    gatewayAuthorization := connection.gatewayAuthorization,
    responseFormat := plan.responseFormat, thinkingBudget := plan.thinkingBudget,
    tools := args.tools, model := modelName, messages,
    max_completion_tokens := match args.maxTokens with
      | some n => if n = 0 then 150000 else n
      | none => 150000,
    stream := args.stream.isSome,
    reasoning_effort := if config.nonReasoning then none else args.reasoning_effort,
    temperature := args.temperature, frequency_penalty := args.frequency_penalty,
    signal := args.abortSignal, schemaName := args.schemaName }

-----------------------------------------------------------------------------------------
-- The reply
-----------------------------------------------------------------------------------------

/-- One streamed chunk read by the content sink: the content so far, how many of its
characters were passed on, and the texts passed to `onChunk`. A slice goes out once it
reaches `chunk_size` code units, or when the chunk carries a `finish_reason`.
-/
def sinkStep (chunkSize : JsNumber) (st : String × Nat × List String) (event : StreamEvent) :
    String × Nat × List String :=
  let content := st.1 ++ (truthy (event.delta.bind (·.content))).getD ""
  let slice : String := ⟨content.data.drop st.2.1⟩
  if chunkSize.leNat (utf16Length slice) ∨ event.finishReason.isSome then
    (content, st.2.1 + slice.length, st.2.2 ++ [slice])
  else (content, st.2.1, st.2.2)

/-- The content and the `onChunk` texts of a stream. -/
def streamContent (chunkSize : JsNumber) (events : List StreamEvent) : String × List String :=
  let st := events.foldl (sinkStep chunkSize) ("", 0, [])
  (st.1, st.2.2)

/-- The tool-call fragments of a stream, in order. -/
def streamFragments (events : List StreamEvent) : List ToolCallDelta :=
  events.flatMap fun e => ((e.delta.bind (·.tool_calls)).getD [])

/-- What a round reads from the reply: the content, the tool calls and the `onChunk` texts. -/
structure Reply where
  content : String
  toolCalls : List ToolCall
  chunks : List String

/-- Reading the reply. A stream is accumulated and assembled, dropping nameless calls; a
completion where a stream was asked for is read without that filter; a non-streamed reply
drops nameless calls; a stream where none was asked for has no `choices`.
-/
def readReply (stream : Option StreamConfig) (draws : Nat → SynthDraw) :
    ChatResponse → Except InferFailure Reply
  | .stream events =>
      match stream with
      | some config =>
          let (content, chunks) := streamContent config.chunk_size events
          .ok ⟨content, streamedToolCalls draws (streamFragments events), chunks⟩
      | none => .error .typeError
  | .completion message =>
      match stream with
      | some _ =>
          .ok ⟨((message.bind (·.content)).getD ""), ((message.bind (·.tool_calls)).getD []), []⟩
      | none =>
          .ok ⟨(truthy (message.bind (·.content))).getD "",
            ((message.bind (·.tool_calls)).getD []).filter (·.hasName), []⟩

-----------------------------------------------------------------------------------------
-- Tools, recursion and the final output
-----------------------------------------------------------------------------------------

/-- `completionConfig?.detector`. -/
def detectorOf (args : InferArgs) : Option CompletionDetector :=
  args.completionConfig.bind (·.detector)

/-- What the tools gave: their results, or an `AbortError` that ends the chain. Any other
failure counts as no result.
-/
def toolOutcome (args : InferArgs) (results : Except InferFailure (List ToolCallResult)) :
    Option (List ToolCallResult) :=
  match args.tools, results with
  | none, _ => some []
  | some _, .ok rs => some rs
  | some _, .error (.abort _ _) => none
  | some _, .error _ => some []

/-- The results that trigger a recursion: defined, and not from a completion tool. -/
def resultsForRecursion (args : InferArgs) (executed : List ToolCallResult) : List ToolCallResult :=
  executed.filter fun r => r.result.isSome ∧ !((detectorOf args).map (·.isCompletionTool r.name)).getD false

/-- The arguments of the recursive call: the schema branch passes the structured arguments,
the other branch leaves them out; both pass the rewritten model name and leave out
`runtimeOverrides`.
-/
def recursionArgs (args : InferArgs) (modelName : String) : InferArgs :=
  if isStructured args then { args with modelName := modelName, runtimeOverrides := none }
  else
    { args with
      modelName := modelName
      runtimeOverrides := none
      schema := none
      schemaName := none
      format := none
      formatOptions := none }

/-- The final output of a round without tool results: the content, or for a schema the
parsed, repaired and validated object; a failure in between is an `InferError`.
-/
def finalOutput (args : InferArgs) (ctx : Option ToolCallContext) (content : String) :
    Except InferFailure InferResponse :=
  match args.schema with
  | none => .ok (.text content ctx)
  | some schema =>
      let parsed := match truthy args.format with
        | some format => schema.parseContent content format args.formatOptions
        | none => jsonParse content
      match parsed.bind fun v => schema.safeParse (normalizeBlueprintData v) with
      | some data => .ok (.object data ctx)
      | none => .error (.inferError "Failed to parse response" content ctx)

/-- After the reply: the empty-reply exit, the tools, the completion signal, and then the
recursion, the content with the new context, or the final output.
-/
def afterReply (args : InferArgs) (ctx : Option ToolCallContext) (modelName : String)
    (results : Except InferFailure (List ToolCallResult)) (reply : Reply) : Next :=
  let assistantMessage : Message :=
    { role := .assistant, content := .text reply.content, tool_calls := some reply.toolCalls }
  if reply.content = "" ∧ args.stream.isNone ∧ reply.toolCalls = [] then .finish (.ok (.text "" ctx))
  else
    match toolOutcome args results with
    | none =>
        .finish (.ok (.text reply.content
          (some (updateToolCallContext ctx assistantMessage [] (detectorOf args)))))
    | some [] => .finish (finalOutput args ctx reply.content)
    | some executed =>
        let newCtx := updateToolCallContext ctx assistantMessage executed (detectorOf args)
        match newCtx.completionSignal with
        | some signal =>
            if signal.signaled then
              if isStructured args then
                .finish (.error (.abort ("Completion signaled: " ++
                  (truthy signal.summary).getD "Task complete") (some newCtx)))
              else
                .finish (.ok (.text ((truthy (some reply.content)).getD
                  ((truthy signal.summary).getD "Task complete")) (some newCtx)))
            else recurseOrStop args modelName newCtx reply.content executed
        | none => recurseOrStop args modelName newCtx reply.content executed
where
  /-- Recurse when some result can drive the next round, else stop with the content. -/
  recurseOrStop (args : InferArgs) (modelName : String) (newCtx : ToolCallContext)
      (content : String) (executed : List ToolCallResult) : Next :=
    if (resultsForRecursion args executed).isEmpty then .finish (.ok (.text content (some newCtx)))
    else .call (.infer (recursionArgs args modelName) (some newCtx))

-----------------------------------------------------------------------------------------
-- One round of infer
-----------------------------------------------------------------------------------------

/-- The body of the outer `try` of `infer`, from the rate limit on. The OpenAI client is built
before the request and throws when the configuration has no key. The context it returns and
throws is the one whose messages the orphan filter re-assigned.
-/
def chatTurn (world : RoundWorld) (args : InferArgs) (ctx : Option ToolCallContext)
    (config : AIModelConfig) : Round :=
  match world.rateLimit with
  | some e => .finish (.error e)
  | none =>
      match getConfigurationForModel config args.env args.runtimeOverrides world.gatewayUrl with
      | .error e => .finish (.error e)
      | .ok connection =>
          let modelName := rewriteModelName config.provider args.modelName
          match connection.apiKey with
          | none => .finish (.error .missingCredentials)
          | some _ =>
              let plan := outputPlan args config.provider modelName
              match messagesToPass args ctx plan with
              | .error e => .finish (.error e)
              | .ok messages =>
                  let ctx := ctx.map (·.afterFilter)
                  let request := UpstreamRequest.chat
                    (chatRequest args config connection modelName plan messages)
                  match world.chatReply with
                  | .error e => { request, next := .finish (.error (classifyChatError ctx e)) }
                  | .ok response =>
                      match readReply args.stream world.draws response with
                      | .error e => { request, next := .finish (.error e) }
                      | .ok reply =>
                          { request, chunks := reply.chunks,
                            notified := if args.onAssistantMessage.isSome then
                              [{ role := .assistant, content := .text reply.content,
                                 tool_calls := some reply.toolCalls }] else [],
                            next := afterReply args ctx modelName world.toolResults reply }

/-- One round of `infer(args, toolCallContext)`: the message-count and depth guards, the
model lookup, the hand-off to the native transport, and the chat turn.
-/
def inferRound (collab : Collaborators) (world : RoundWorld) (args : InferArgs)
    (ctx : Option ToolCallContext) : Round :=
  if args.messages.length > collab.maxLlmMessages then .finish (.error (messageLimitError collab args))
  else if contextDepth ctx ≥ collab.getMaxToolCallingDepth args.actionKey then
    .finish (chatDepthLimit collab args ctx)
  else
    match collab.aiModelConfig args.modelName with
    | none => .finish (.error (.error ("Unknown model: " ++ args.modelName)))
    | some config =>
        if requiresNativeInference config.provider then
          { request := none, next := .call (.native args ctx) }
        else chatTurn world args ctx config

-----------------------------------------------------------------------------------------
-- Sample calls
-----------------------------------------------------------------------------------------

/-- A model table with a Claude, a DeepSeek and a Gemini model under the names the source's
comments give them, a depth limit of five and a message limit of one hundred.
-/
def sampleCollaborators : Collaborators where
  aiModelConfig name :=
    if name = "anthropic/claude-sonnet-4" then some ⟨"anthropic", false, false⟩
    else if name = "deepseek/deepseek-chat" then some ⟨"deepseek", false, false⟩
    else if name = "google-ai-studio/gemini-2.5-flash" then some ⟨"google-ai-studio", false, false⟩
    else none
  getMaxToolCallingDepth _ := 5
  maxLlmMessages := 100

/-- A schema that accepts an object exactly when its `views` is an array. -/
def viewsSchema : Schema where
  safeParse v := match getProp v "views" with
    | some (.array _) => some v
    | _ => none
  template _ _ := "Answer in markdown."
  parseContent _ _ _ := none

/-- A call with one user message, a `search` tool, an Anthropic, a DeepSeek and a Google AI
Studio key, and a schema named `Blueprint` when one is given.
-/
def sampleArgs (modelName : String) (schema : Option Schema) : InferArgs where
  env := ⟨[("ANTHROPIC_API_KEY", "sk-ant-0123456789abcdef"), ("DEEPSEEK_API_KEY", "sk-0123456789abcdef"),
    ("GOOGLE_AI_STUDIO_API_KEY", "AIza0123456789")]⟩
  metadata := ⟨"agent", "user"⟩
  actionKey := "blueprint"
  messages := [{ role := .user, content := .text "Plan the app." }]
  maxTokens := none
  modelName := modelName
  reasoning_effort := none
  temperature := none
  frequency_penalty := none
  stream := none
  tools := some [⟨"search"⟩]
  runtimeOverrides := none
  abortSignal := none
  onAssistantMessage := none
  completionConfig := none
  schema := schema
  schemaName := schema.map fun _ => "Blueprint"
  format := none
  formatOptions := none

/-- A round whose chat model answers `reply`, whose native endpoint answers 200 with `body`,
and whose tools give `results`.
-/
def sampleWorld (reply : ChatResponse) (body : String) (results : List ToolCallResult) :
    RoundWorld where
  rateLimit := none
  gatewayUrl _ := "https://gateway.ai.cloudflare.com/v1/account/shipit/"
  chatReply := .ok reply
  nativeReply := .ok ⟨true, 200, none, body⟩
  toolResults := .ok results
  draws k := ⟨k, "r"⟩
  geminiDraw := ⟨0, "r"⟩

/-- A chat reply with no text and one call of `search`, and what `search` returns. -/
def searchCallReply : ChatResponse := .completion (some ⟨some "", some [⟨"call_1", "search", "\x7b\x7d"⟩]⟩)

def searchResult : ToolCallResult := ⟨"call_1", "search", some (.string "found")⟩

/-- The context after a first round whose model called `search`. -/
def searchContext : ToolCallContext :=
  updateToolCallContext none
    { role := .assistant, content := .text "", tool_calls := some [⟨"call_1", "search", "\x7b\x7d"⟩] }
    [searchResult] none

/-- A round whose model calls `search` and whose tool answers. -/
def searchWorld : RoundWorld := sampleWorld searchCallReply "" [searchResult]

/-- The DeepSeek call of `sampleArgs`, with a user's own DeepSeek key. -/
def deepseekUserKeyArgs : InferArgs :=
  { sampleArgs "deepseek/deepseek-chat" none with
    runtimeOverrides := some ⟨some [("deepseek", "sk-user-0123456789")], none⟩ }

-----------------------------------------------------------------------------------------
-- Tool messages in the request
-----------------------------------------------------------------------------------------

/-- Without a forced format, the messages of a round are the optimised caller messages followed
by the filtered context. -/
theorem messagesToPass_of_unforced {args : InferArgs} {ctx : Option ToolCallContext}
    {plan : OutputPlan} {messages : List Message} (unforced : truthy plan.forcedFormat = none)
    (built : messagesToPass args ctx plan = .ok messages) :
    ∃ optimized, optimizeInputs args.messages = .ok optimized ∧
      messages = optimized ++ (ctx.map contextMessages).getD [] := by
  unfold messagesToPass at built
  cases optimizedOk : optimizeInputs args.messages with
  | error e => rw [optimizedOk] at built; cases built
  | ok optimized =>
    rw [optimizedOk] at built
    dsimp only [bind, Except.bind] at built
    rw [unforced] at built
    cases built
    exact ⟨optimized, rfl, rfl⟩

/-- The optimised messages of a caller that sent no tool message, followed by the filtered
context, answer every tool message: the caller's messages only move the ids valid where the
context's begin, and the filtered context answers its own. -/
theorem optimized_append_answered {messages optimized : List Message}
    (noTool : ∀ m ∈ messages, m.role ≠ .tool) (optimizedOk : optimizeInputs messages = .ok optimized)
    (ctx : Option ToolCallContext) :
    toolMessagesAnswered [] (optimized ++ (ctx.map contextMessages).getD []) = true := by
  have optimizedNoTool : ∀ m ∈ optimized, m.role ≠ .tool := by
    intro m mem
    have : m.role ∈ messages.map (·.role) :=
      optimizeInputs_roles optimizedOk ▸ List.mem_map_of_mem (fun m : Message => m.role) mem
    obtain ⟨m0, mem0, same⟩ := List.mem_map.mp this
    exact same ▸ noTool m0 mem0
  obtain ⟨valid, moved⟩ := toolMessagesAnswered_append [] _ optimizedNoTool
  rw [moved]
  cases ctx with
  | none => rfl
  | some ctx => exact contextMessages_answered ctx valid

/-- Without a forced format, the messages of a round answer every tool message, for a caller's
conversation without tool messages and any prior context: the caller's messages only move
the ids valid where the context's begin, and the filtered context answers its own.
-/
theorem messagesToPass_answered_of_unforced {args : InferArgs} {ctx : Option ToolCallContext}
    {plan : OutputPlan} {messages : List Message} (noTool : ∀ m ∈ args.messages, m.role ≠ .tool)
    (unforced : truthy plan.forcedFormat = none) (built : messagesToPass args ctx plan = .ok messages) :
    toolMessagesAnswered [] messages = true := by
  obtain ⟨optimized, optimizedOk, messages⟩ := messagesToPass_of_unforced unforced built
  rw [messages]
  exact optimized_append_answered noTool optimizedOk ctx

/-- A DeepSeek call without a schema, after a round whose model called `search`. -/
theorem messagesToPass_answered_afterSearch :
    (∀ m ∈ (sampleArgs "deepseek/deepseek-chat" none).messages, m.role ≠ .tool) ∧
      truthy (outputPlan (sampleArgs "deepseek/deepseek-chat" none) "deepseek" "deepseek-chat").forcedFormat =
        none ∧
      ∃ messages, messagesToPass (sampleArgs "deepseek/deepseek-chat" none) (some searchContext)
          (outputPlan (sampleArgs "deepseek/deepseek-chat" none) "deepseek" "deepseek-chat") = .ok messages ∧
        toolMessagesAnswered [] messages = true :=
  ⟨by decide, rfl, _, rfl,
    @messagesToPass_answered_of_unforced (sampleArgs "deepseek/deepseek-chat" none) (some searchContext)
      (outputPlan (sampleArgs "deepseek/deepseek-chat" none) "deepseek" "deepseek-chat") _
      (by decide) rfl rfl⟩

/-- A structured call on Claude, whose format is forced to `markdown`: after a first round
whose model called `search`, the second round's request ends with the tool result rebuilt
without its name and `tool_call_id`, though the context's messages answer every tool call.
-/
theorem inferRound_formatInjectionDropsToolCallId :
    (inferRound sampleCollaborators searchWorld (sampleArgs "anthropic/claude-sonnet-4" (some viewsSchema))
        none).next =
      .call (.infer (sampleArgs "anthropic/claude-sonnet-4" (some viewsSchema)) (some searchContext)) ∧
    toolMessagesAnswered [] (contextMessages searchContext) = true ∧
    ∃ request, (inferRound sampleCollaborators searchWorld
        (sampleArgs "anthropic/claude-sonnet-4" (some viewsSchema)) (some searchContext)).request =
          some (.chat request) ∧ toolMessagesAnswered [] request.messages = false :=
  ⟨rfl, rfl, _, rfl, rfl⟩

-----------------------------------------------------------------------------------------
-- The recursive call and the empty reply
-----------------------------------------------------------------------------------------

/-- A call on DeepSeek under its configured name, with a user's own DeepSeek key: the tool call
of the first round makes `infer` recurse with the name rewritten to `deepseek-chat` and without
the user's key, and the second round finds no model of that name.
-/
theorem inferRound_recursesWithRewrittenModelName :
    (inferRound sampleCollaborators searchWorld deepseekUserKeyArgs none).next =
        .call (.infer { deepseekUserKeyArgs with modelName := "deepseek-chat", runtimeOverrides := none }
          (some searchContext)) ∧
      (inferRound sampleCollaborators searchWorld
          { deepseekUserKeyArgs with modelName := "deepseek-chat", runtimeOverrides := none }
          (some searchContext)).next =
        .finish (.error (.error "Unknown model: deepseek-chat")) :=
  ⟨rfl, rfl⟩

/-- A structured call whose model answers with no text and no tool call returns the empty
string. -/
theorem inferRound_emptyStructuredReply :
    (inferRound sampleCollaborators (sampleWorld (.completion (some ⟨some "", none⟩)) "" [])
      (sampleArgs "deepseek/deepseek-chat" (some viewsSchema)) none).next =
        .finish (.ok (.text "" none)) := rfl

-----------------------------------------------------------------------------------------
-- The format the reply is parsed with
-----------------------------------------------------------------------------------------

/-- A schema whose markdown extractor reads the heading `# views` as an empty `views` list. -/
def markdownViewsSchema : Schema where
  safeParse := viewsSchema.safeParse
  template _ _ := "Answer in markdown."
  parseContent content format _ :=
    if format = "markdown" ∧ content = "# views" then some (.object [("views", .array [])])
    else none

/-- A reply in the format the prompt asked for. -/
def markdownReply : ChatResponse := .completion (some ⟨some "# views", none⟩)

/-- A structured call on Claude without a format of the caller's: the prompt carries the
markdown instructions and the reply follows them, so that the markdown extractor, normalisation
and the schema accept it; `infer` parses it with `JSON.parse` instead and fails.
-/
theorem inferRound_parsesInjectedMarkdownAsJson :
    (∃ request, (inferRound sampleCollaborators (sampleWorld markdownReply "" [])
        (sampleArgs "anthropic/claude-sonnet-4" (some markdownViewsSchema)) none).request =
          some (.chat request) ∧
        request.messages.getLast?.map (·.content) =
          some (.text "Plan the app.\n\nAnswer in markdown.")) ∧
      ((markdownViewsSchema.parseContent "# views" "markdown" none).bind fun v =>
        markdownViewsSchema.safeParse (normalizeBlueprintData v)) =
          some (.object [("views", .array [])]) ∧
      (inferRound sampleCollaborators (sampleWorld markdownReply "" [])
        (sampleArgs "anthropic/claude-sonnet-4" (some markdownViewsSchema)) none).next =
          .finish (.error (.inferError "Failed to parse response" "# views" none)) :=
  ⟨⟨_, rfl, rfl⟩, rfl, rfl⟩

-----------------------------------------------------------------------------------------
-- Transport errors
-----------------------------------------------------------------------------------------

/-- An upstream 429 whose message says the request was aborted. -/
def abortedRateLimit : TransportError :=
  { kind := .error, name := "Error", message := some "Request aborted: 429 Too Many Requests",
    status := .number (JsNumber.ofNat 429), responseStatus := .undefined, statusCode := .undefined,
    headers := none, responseHeaders := none, retryAfter := .undefined, retry_after := .undefined }

/-- A call without an abort signal whose request fails with `abortedRateLimit`: the message
mentions an abort, so `infer` reports a user cancellation, not the rate limit.
-/
theorem inferRound_reportsUpstreamAbortAsCancellation :
    (sampleArgs "anthropic/claude-sonnet-4" none).abortSignal = none ∧
      isStatus429 abortedRateLimit = true ∧
      (inferRound sampleCollaborators
          { sampleWorld searchCallReply "" [] with chatReply := .error abortedRateLimit }
          (sampleArgs "anthropic/claude-sonnet-4" none) none).next =
        .finish (.error (.abort "**User cancelled inference**" none)) :=
  ⟨rfl, rfl, rfl⟩

end Shipit.Inference.Infer
