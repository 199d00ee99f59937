import ShipitInference.Infer.Types

/-! The transport-error classifier of both paths: a user abort, an HTTP 429 with the retry
delay it carries, and everything else. The native path computes a delay but throws it inside
its own `try`, whose `catch` replaces it by the default.
-/

namespace Shipit.Inference.Infer

open Shipit.Inference.Js Shipit.Inference.Json

-----------------------------------------------------------------------------------------
-- Chat path
-----------------------------------------------------------------------------------------

/-- `s.includes(t)`. -/
def includes (s t : String) : Bool :=
  (List.range (s.data.length + 1)).any fun i => t.data.isPrefixOf (s.data.drop i)

/-- `a || b || ...`: the first truthy value, else the last. -/
def firstTruthy : List JsPrimitive → JsPrimitive
  | [] => .undefined
  | [v] => v
  | v :: rest => if v.isTruthy then v else firstTruthy rest

/-- The cancellation test: an `Error` named `AbortError` or whose message mentions an abort. -/
def isAbortError (e : TransportError) : Bool :=
  e.kind = .error ∧
    (e.name = "AbortError" ∨ (e.message.map (includes · "aborted")) = some true ∨
      (e.message.map (includes · "abort")) = some true)

/-- `errorStatus === 429`. -/
def isStatus429 (e : TransportError) : Bool :=
  match firstTruthy [e.status, e.responseStatus, e.statusCode] with
  | .number n => n.toNat? = some 429
  | _ => false

/-- `headers['retry-after'] || headers['Retry-After'] || error.retryAfter || error.retry_after`,
with `headers` the error's, else its response's, else `{}`.
-/
def retryAfterValue (e : TransportError) : JsPrimitive :=
  let headers := (e.headers.orElse fun _ => e.responseHeaders).getD []
  firstTruthy [(headers.lookup "retry-after").getD .undefined,
    (headers.lookup "Retry-After").getD .undefined, e.retryAfter, e.retry_after]

/-- The seconds a retry-after value stands for: `parseFloat` of a string, else the value as a
number, as `isNaN`, `> 0` and `* 1000` read it.
-/
def retryAfterSeconds : JsPrimitive → JsNumber
  | .string s => parseFloat s
  | .number n => n
  | .bool b => JsNumber.ofNat (if b then 1 else 0)
  | .null => JsNumber.ofNat 0
  | .undefined => .nan

/-- The chat path's delay in milliseconds: the rounded-up retry-after seconds when they are a
positive number, else 60000.
-/
def standardRetryDelay (retryAfter : JsPrimitive) : JsNumber :=
  if retryAfter.isTruthy then
    let seconds := retryAfterSeconds retryAfter
    if !seconds.isNaN ∧ seconds.isPositive then seconds.ceilMillis else JsNumber.ofNat 60000
  else JsNumber.ofNat 60000

/-- `x / 1000`, for the delay in a message. -/
def millisToSeconds : JsNumber → JsNumber
  | .finite d => .finite ⟨d.mantissa, d.exponent - 3⟩
  | x => x

/-- The `catch` of the chat request: a user abort, a 429 as `RateLimitExceededError`, and any
other failure re-thrown unchanged.
-/
def classifyChatError (ctx : Option ToolCallContext) (e : TransportError) : InferFailure :=
  if isAbortError e then .abort "**User cancelled inference**" ctx
  else if e.kind ≠ .primitive ∧ isStatus429 e then
    let delay := standardRetryDelay (retryAfterValue e)
    .rateLimitExceeded
      ("API rate limit exceeded. Retry after " ++ numberText (millisToSeconds delay) ++ "s") (some delay)
  else .transport e

-----------------------------------------------------------------------------------------
-- Native path
-----------------------------------------------------------------------------------------

/-- `d['@type'] === 'type.googleapis.com/google.rpc.RetryInfo'`. -/
def isRetryInfo (d : JsonValue) : Bool :=
  match getProp d "@type" with
  | some (.string t) => t = "type.googleapis.com/google.rpc.RetryInfo"
  | _ => false

/-- `errorJson?.error?.details?.find(d => d['@type'] === RetryInfo)`: `details` must be an
array, and reading `@type` of a `null` element throws.
-/
def findRetryInfo (errorJson : JsonValue) : Except InferFailure (Option JsonValue) :=
  match getPath (some errorJson) ["error", "details"] with
  | none | some .null => .ok none
  | some (.array details) =>
      details.foldr (fun d found => match d with
        | .null => .error .typeError
        | _ => if isRetryInfo d then .ok (some d) else found) (.ok none)
  | some _ => .error .typeError

/-- The seconds the `RetryInfo` detail gives: `retryDelay.seconds || retryDelay`, parsed with
any trailing `s` removed when it is a string; 34 when absent, not a number or not positive.
-/
def retryInfoSeconds (retryInfo : Option JsonValue) : JsNumber :=
  match retryInfo.bind (getProp · "retryDelay") with
  | some delay =>
      if delay.isTruthy then
        let value := match getProp delay "seconds" with
          | some s => if s.isTruthy then s else delay
          | none => delay
        let seconds := match value with
          | .string s => parseFloat (if s.data.getLast? = some 's' then ⟨s.data.dropLast⟩ else s)
          | v => parseFloat (toJsString v)
        if seconds.isNaN ∨ !seconds.isPositive then JsNumber.ofNat 34 else seconds
      else JsNumber.ofNat 34
  | none => JsNumber.ofNat 34

/-- The `try` block of the native 429 branch. Every path through it throws, so it never
yields a value.
-/
def geminiRateLimitTry (errorText : String) (retryAfter : Option String) :
    Except InferFailure Empty := do
  let errorJson ← match jsonParse errorText with
    | some v => pure v
    | none => throw .syntaxError
  let seconds ← match truthy retryAfter with
    | some header =>
        let parsed := parseFloat header
        pure (if !parsed.isNaN ∧ parsed.isPositive then parsed else JsNumber.ofNat 34)
    | none => retryInfoSeconds <$> findRetryInfo errorJson
  throw (.rateLimitExceeded
    ("Gemini API rate limit exceeded. Retry after " ++ numberText seconds ++ "s")
    (some seconds.ceilMillis))

/-- What the native 429 branch throws: its `catch` replaces whatever the `try` threw. -/
def geminiRateLimitError (errorText : String) (retryAfter : Option String) : InferFailure :=
  match geminiRateLimitTry errorText retryAfter with
  | .error _ => .rateLimitExceeded "Gemini API rate limit exceeded" (some (JsNumber.ofNat 34000))
  | .ok never => never.elim

/-- The retry delay of a 429. On the native path it is 34000 ms whatever the `Retry-After`
header and the body's `RetryInfo` say; on the chat path a `Retry-After` of `Infinity` gives an
infinite delay.
-/
theorem retryDelay_ignoresNativeHintAndAdmitsInfinity :
    (∀ errorText retryAfter, geminiRateLimitError errorText retryAfter =
        .rateLimitExceeded "Gemini API rate limit exceeded" (some (JsNumber.ofNat 34000))) ∧
    classifyChatError none
        { kind := .error, name := "Error", message := some "429 Too Many Requests",
          status := .number (JsNumber.ofNat 429), responseStatus := .undefined,
          statusCode := .undefined, headers := some [("retry-after", .string "Infinity")],
          responseHeaders := none, retryAfter := .undefined, retry_after := .undefined } =
      .rateLimitExceeded "API rate limit exceeded. Retry after Infinitys" (some (.infinity false)) := by
  refine ⟨fun errorText retryAfter => ?_, rfl⟩
  unfold geminiRateLimitError
  split
  · rfl
  · rename_i never _
    exact never.elim

-----------------------------------------------------------------------------------------
-- The delay of a chat-path 429
-----------------------------------------------------------------------------------------

end Shipit.Inference.Infer
