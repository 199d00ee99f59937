import ShipitInference.Json.Stringify
import ShipitInference.Streaming.Basic

/-! The data `infer` and `inferGeminiNative` read and produce. Modules `core.ts` imports but the
repository lacks enter as collaborators; the model, the tools and the bindings as a world.
-/

namespace Shipit.Inference.Infer

open Shipit.Inference.Js Shipit.Inference.Json Shipit.Inference.Streaming

-----------------------------------------------------------------------------------------
-- Messages
-----------------------------------------------------------------------------------------

/-- `MessageRole`. -/
inductive MessageRole where
  | system
  | user
  | assistant
  | tool
  | function
  deriving DecidableEq, Repr

/-- The role as the wire spells it. -/
def MessageRole.text : MessageRole → String
  | .system => "system"
  | .user => "user"
  | .assistant => "assistant"
  | .tool => "tool"
  | .function => "function"

/-- `MessageContent`: a text, an array of parts (each a `TextContent` or `ImageContent` object,
kept with its own properties), `null`, or a value of another type, which only the native
path's `parsed.thought` puts there.
-/
inductive MessageContent where
  | text (s : String)
  | parts (items : List JsonValue)
  | null
  | json (v : JsonValue)

/-- `Message`: the fields the core reads or writes. -/
structure Message where
  role : MessageRole
  content : MessageContent
  name : Option String := none
  tool_call_id : Option String := none
  tool_calls : Option (List ToolCall) := none

/-- A JSON value stored as a message's content. -/
def MessageContent.ofJson : JsonValue → MessageContent
  | .string s => .text s
  | .array items => .parts items
  | .null => .null
  | v => .json v

-----------------------------------------------------------------------------------------
-- Tools, schemas and the tool-call context
-----------------------------------------------------------------------------------------

/-- `ToolDefinition`: the name the core matches on; the parameters and the implementation
belong to the tool-execution collaborator.
-/
structure ToolDefinition where
  name : String
  deriving DecidableEq, Repr

/-- `ToolCallResult`: `id`, `name` and the optional `result` the core reads. -/
structure ToolCallResult where
  id : String
  name : String
  result : Option JsonValue

/-- `CompletionSignal`. -/
structure CompletionSignal where
  signaled : Bool
  toolName : String
  summary : Option String

/-- `CompletionDetector`: its two methods. -/
structure CompletionDetector where
  detectCompletion : List ToolCallResult → Option CompletionSignal
  isCompletionTool : String → Bool

/-- `ToolCallContext`. -/
structure ToolCallContext where
  messages : List Message
  depth : Nat
  completionSignal : Option CompletionSignal := none
  warningInjected : Option Bool := none

/-- A schema format name (`SchemaFormat`), such as `"markdown"`. -/
abbrev SchemaFormat := String

/-- `FormatterOptions`, passed through to the formatter unread. -/
structure FormatterOptions where
  tag : Nat

/-- A zod object schema, with what the formatter module does for it: `safeParse` (the data on
success), `generateTemplateForSchema` and `parseContentForSchema` (`none` where it throws).
-/
structure Schema where
  safeParse : JsonValue → Option JsonValue
  template : SchemaFormat → Option FormatterOptions → String
  parseContent : String → SchemaFormat → Option FormatterOptions → Option JsonValue

-----------------------------------------------------------------------------------------
-- The caller's arguments
-----------------------------------------------------------------------------------------

/-- `ReasoningEffort`. -/
inductive ReasoningEffort where
  | minimal
  | low
  | medium
  | high
  deriving DecidableEq, Repr

/-- The process environment: `env[name]`, a string or `undefined`. -/
structure Env where
  vars : List (String × String)

def Env.get? (env : Env) (name : String) : Option String := env.vars.lookup name

/-- `InferenceMetadata`. -/
structure InferenceMetadata where
  agentId : String
  userId : String

/-- `aiGatewayOverride` of `InferenceRuntimeOverrides`. -/
structure GatewayOverride where
  baseUrl : Option String
  token : Option String

/-- `InferenceRuntimeOverrides`. -/
structure InferenceRuntimeOverrides where
  userApiKeys : Option (List (String × String))
  aiGatewayOverride : Option GatewayOverride

/-- `stream`: the chunk size; `onChunk` is an effect, recorded in each round. -/
structure StreamConfig where
  chunk_size : JsNumber

/-- `CompletionConfig`: the detector is the part the core reads. -/
structure CompletionConfig where
  detector : Option CompletionDetector

/-- The arguments of `infer` and `inferGeminiNative`. A callback or a signal is an opaque
handle: the core only passes it on.
-/
structure InferArgs where
  env : Env
  metadata : InferenceMetadata
  actionKey : String
  messages : List Message
  maxTokens : Option Nat
  modelName : String
  reasoning_effort : Option ReasoningEffort
  temperature : Option Decimal
  frequency_penalty : Option Decimal
  stream : Option StreamConfig
  tools : Option (List ToolDefinition)
  runtimeOverrides : Option InferenceRuntimeOverrides
  abortSignal : Option Nat
  onAssistantMessage : Option Nat
  completionConfig : Option CompletionConfig
  schema : Option Schema
  schemaName : Option String
  format : Option SchemaFormat
  formatOptions : Option FormatterOptions

-----------------------------------------------------------------------------------------
-- Errors and responses
-----------------------------------------------------------------------------------------

/-- A JavaScript primitive, for the fields of a thrown error that the classifier reads. -/
inductive JsPrimitive where
  | undefined
  | null
  | bool (b : Bool)
  | number (n : JsNumber)
  | string (s : String)
  deriving DecidableEq, Repr

def JsPrimitive.isTruthy : JsPrimitive → Bool
  | .undefined => false
  | .null => false
  | .bool b => b
  | .number n => n.isTruthy
  | .string s => s ≠ ""

/-- What a `throw` threw: an `Error` instance, another object, or a primitive. -/
inductive ThrownKind where
  | error
  | object
  | primitive
  deriving DecidableEq, Repr

/-- A failure of the chat-completion request, with the properties the classifier reads;
`headers` are the error's `headers` object and the response's, when present.
-/
structure TransportError where
  kind : ThrownKind
  name : String
  message : Option String
  status : JsPrimitive
  responseStatus : JsPrimitive
  statusCode : JsPrimitive
  headers : Option (List (String × JsPrimitive))
  responseHeaders : Option (List (String × JsPrimitive))
  retryAfter : JsPrimitive
  retry_after : JsPrimitive

/-- What `infer` and `inferGeminiNative` throw. -/
inductive InferFailure where
  /-- `RateLimitExceededError` of type `LLM_CALLS`, with its retry delay in milliseconds. -/
  | rateLimitExceeded (message : String) (retryDelayMs : Option JsNumber)
  /-- `SecurityError`. -/
  | security (message : String)
  /-- `AbortError`, whose message is its response. -/
  | abort (response : String) (context : Option ToolCallContext)
  /-- `InferError`. -/
  | inferError (message response : String) (context : Option ToolCallContext)
  /-- A plain `Error`. -/
  | error (message : String)
  /-- The `OpenAIError` of `new OpenAI({ apiKey })` when `apiKey` is `undefined`. -/
  | missingCredentials
  /-- A `TypeError` from reading a property of `null` or calling what is not a function. -/
  | typeError
  /-- The `SyntaxError` of `res.json()` on a body that is not JSON. -/
  | syntaxError
  /-- A transport failure re-thrown unchanged. -/
  | transport (e : TransportError)

/-- `InferResponseObject` and `InferResponseString`; the native path can put any parsed JSON
value in `string`, the chat path always a text.
-/
inductive InferResponse where
  | object (value : JsonValue) (context : Option ToolCallContext)
  | string (value : JsonValue) (context : Option ToolCallContext)

/-- `{ string: s, toolCallContext }` with a text. -/
def InferResponse.text (s : String) (context : Option ToolCallContext) : InferResponse :=
  .string (.string s) context

-----------------------------------------------------------------------------------------
-- The upstream boundary
-----------------------------------------------------------------------------------------

/-- `choices[0]?.message` of a `ChatCompletion`. -/
structure CompletionMessage where
  content : Option String
  tool_calls : Option (List ToolCall)

/-- `choices[0]?.delta` of a streamed chunk. -/
structure StreamDelta where
  content : Option String
  tool_calls : Option (List ToolCallDelta)

/-- One chunk of a stream: its delta and `finish_reason`. -/
structure StreamEvent where
  delta : Option StreamDelta
  finishReason : Option String

/-- What `client.chat.completions.create` resolves to. -/
inductive ChatResponse where
  | completion (message : Option CompletionMessage)
  | stream (events : List StreamEvent)

/-- The response of the native `fetch`: `ok`, `status`, the `Retry-After` header and the
body text.
-/
structure HttpResponse where
  ok : Bool
  status : Nat
  retryAfter : Option String
  body : String

/-- `response_format` of a chat request. -/
inductive ResponseFormat where
  | none
  | jsonSchema (name : String)
  | jsonObject
  deriving DecidableEq, Repr

/-- A chat-completion request: the client's credentials and the body's fields. -/
structure ChatRequest where
  baseURL : String
  apiKey : Option String
  gatewayAuthorization : Option String
  responseFormat : ResponseFormat
  thinkingBudget : Option Nat
  tools : Option (List ToolDefinition)
  model : String
  messages : List Message
  max_completion_tokens : Nat
  stream : Bool
  reasoning_effort : Option ReasoningEffort
  temperature : Option Decimal
  frequency_penalty : Option Decimal
  signal : Option Nat
  schemaName : Option String

/-- A native `generateContent` request. -/
structure NativeRequest where
  url : String
  apiKey : String
  signal : Option Nat
  prompt : String
  temperature : Decimal
  maxOutputTokens : Nat

inductive UpstreamRequest where
  | chat (request : ChatRequest)
  | native (request : NativeRequest)

-----------------------------------------------------------------------------------------
-- Collaborators, the world, and one round
-----------------------------------------------------------------------------------------

/-- `AIModelConfig`: the fields the core reads. -/
structure AIModelConfig where
  provider : String
  directOverride : Bool
  nonReasoning : Bool

/-- The definitions `core.ts` imports from modules the repository does not contain. -/
structure Collaborators where
  aiModelConfig : String → Option AIModelConfig
  getMaxToolCallingDepth : String → Nat
  maxLlmMessages : Nat

/-- What one round reads from outside the program: the rate-limit service, the gateway
binding, the upstream reply, the tools, and the clock and random draws of synthetic ids.
-/
structure RoundWorld where
  rateLimit : Option InferFailure
  gatewayUrl : Option String → String
  chatReply : Except TransportError ChatResponse
  nativeReply : Except TransportError HttpResponse
  toolResults : Except InferFailure (List ToolCallResult)
  draws : Nat → SynthDraw
  geminiDraw : SynthDraw

/-- A call of `infer` or of `inferGeminiNative`. -/
inductive Call where
  | infer (args : InferArgs) (context : Option ToolCallContext)
  | native (args : InferArgs) (context : Option ToolCallContext)

/-- How a round ends: a result or a throw, or a call whose outcome is the round's. -/
inductive Next where
  | finish (result : Except InferFailure InferResponse)
  | call (c : Call)

/-- One round: the request it sends upstream, the texts it passes to `stream.onChunk`, the
messages it passes to `onAssistantMessage`, and how it ends.
-/
structure Round where
  request : Option UpstreamRequest
  chunks : List String := []
  notified : List Message := []
  next : Next

/-- A round that ends before any request. -/
def Round.finish (result : Except InferFailure InferResponse) : Round :=
  { request := none, next := .finish result }

end Shipit.Inference.Infer
