import ShipitInference.Infer.Types

/-! The provider router of `core.ts`: the capability table, API-key validation and lookup,
gateway URLs, `getConfigurationForModel`, and the model-name rewriting `infer` applies
before it builds a request.
-/

namespace Shipit.Inference.Infer

open Shipit.Inference.Js

-----------------------------------------------------------------------------------------
-- Capabilities and model names
-----------------------------------------------------------------------------------------

/-- An entry of `PROVIDER_CAPABILITIES`. -/
structure ProviderCapability where
  openAICompatible : Bool
  requiresNativeInference : Option Bool

/-- `PROVIDER_CAPABILITIES`. -/
def providerCapabilities : List (String × ProviderCapability) :=
  [("openai", ⟨true, none⟩), ("grok", ⟨true, none⟩), ("anthropic", ⟨false, none⟩),
    ("google-ai-studio", ⟨false, some true⟩), ("deepseek", ⟨true, none⟩)]

/-- `requiresNativeInference(provider)`: a table entry marked so. A name the table lacks, an
`Object.prototype` property name included, has no such mark.
-/
def requiresNativeInference (provider : String) : Bool :=
  match providerCapabilities.lookup provider with
  | some capability => capability.requiresNativeInference = some true
  | none => false

/-- After an opening bracket: the text after the first closing bracket, when it comes before
any line terminator (which `.` does not match).
-/
def afterClosingBracket : List Char → Option (List Char)
  | [] => none
  | c :: rest =>
      if c = ']' then some rest
      else if isLineTerminator c then none
      else afterClosingBracket rest

/-- The characters of `s.replace(/\[.*?\]/, '')`: the leftmost opening bracket from which a
lazy match succeeds is removed through its first closing bracket.
-/
def stripBracketTagChars : List Char → List Char
  | [] => []
  | c :: rest =>
      if c = '[' then
        match afterClosingBracket rest with
        | some after => after
        | none => c :: stripBracketTagChars rest
      else c :: stripBracketTagChars rest

/-- `modelName.replace(/\[.*?\]/, '')`. -/
def stripBracketTag (s : String) : String := ⟨stripBracketTagChars s.data⟩

/-- The model name `infer` sends: the bracketed tag removed, then the `deepseek/` prefix for
DeepSeek, and for Grok the `grok/` prefix, with any name not starting `grok-2` replaced by
`grok-2-1212`.
-/
def rewriteModelName (provider modelName : String) : String :=
  let name := stripBracketTag modelName
  let name := if provider = "deepseek" then dropPrefix "deepseek/" name else name
  if provider = "grok" then
    let name := dropPrefix "grok/" name
    if "grok-2".data.isPrefixOf name.data then name else "grok-2-1212"
  else name

-----------------------------------------------------------------------------------------
-- API keys
-----------------------------------------------------------------------------------------

/-- `isValidApiKey(apiKey)`: a value that is neither blank nor a placeholder and has at least
ten code units once trimmed.
-/
def isValidApiKey (apiKey : Option String) : Bool :=
  match truthy apiKey with
  | none => false
  | some key =>
      let trimmed := trim key
      !(trimmed = "" ∨ asciiLower trimmed = "default" ∨ asciiLower trimmed = "none" ∨
        utf16Length trimmed < 10)

/-- The environment variable holding a provider's key: the name upper-cased with every `-`
replaced by `_`, except for Grok and DeepSeek. -/
def providerKeyName (provider : String) : String :=
  if provider = "grok" then "GROQ_API_KEY"
  else if provider = "deepseek" then "DEEPSEEK_API_KEY"
  else ⟨(asciiUpper provider).data.map fun c => if c = '-' then '_' else c⟩ ++ "_API_KEY"

def deepseekKeyRequired : String :=
  "DEEPSEEK_API_KEY is required and must be a valid DeepSeek API key. DeepSeek does not " ++
    "support Cloudflare AI Gateway tokens."

/-- `getApiKey(provider, env, userId, runtimeOverrides)`: a valid runtime key, else a valid
environment key, else (except for DeepSeek, which throws) the gateway token, which may be
`undefined`.
-/
def getApiKey (provider : String) (env : Env) (runtimeOverrides : Option InferenceRuntimeOverrides) :
    Except InferFailure (Option String) :=
  let runtimeKey := (runtimeOverrides.bind (·.userApiKeys)).bind (·.lookup provider)
  if (truthy runtimeKey).isSome ∧ isValidApiKey runtimeKey then .ok runtimeKey
  else
    let apiKey := env.get? (providerKeyName provider)
    if isValidApiKey apiKey then .ok apiKey
    else if provider = "deepseek" then .error (.error deepseekKeyRequired)
    else
      .ok (((runtimeOverrides.bind (·.aiGatewayOverride)).bind (·.token)).orElse
        fun _ => env.get? "CLOUDFLARE_AI_GATEWAY_TOKEN")

-----------------------------------------------------------------------------------------
-- Gateway URLs
-----------------------------------------------------------------------------------------

/-- A parsed absolute URL. The parser splits scheme, authority, path, query and fragment as
the URL standard does, without its percent-encoding, host and dot-segment normalisation.
-/
structure Url where
  protocol : String
  authority : String
  pathname : String
  search : String
  hash : String

def Url.toString (u : Url) : String := u.protocol ++ u.authority ++ u.pathname ++ u.search ++ u.hash

def isSchemeChar (c : Char) : Bool := c.isAlphanum || c == '+' || c == '-' || c == '.'

/-- `http:`, `https:` and the other special schemes, whose path is never empty. -/
def isSpecialScheme (protocol : String) : Bool :=
  ["http:", "https:", "ws:", "wss:", "ftp:", "file:"].contains protocol

/-- `new URL(s)`, or `none` where it throws a `TypeError`. -/
def parseUrl (s : String) : Option Url :=
  let text := trimChars s.data
  let scheme := text.takeWhile (· ≠ ':')
  match text.dropWhile (· ≠ ':'), scheme with
  | ':' :: rest, first :: _ =>
      if first.isAlpha ∧ scheme.all isSchemeChar then
        let protocol := asciiLower ⟨scheme⟩ ++ ":"
        let hierarchical := rest.take 2 = ['/', '/']
        let afterAuthority := if hierarchical then rest.drop 2 else rest
        let host := afterAuthority.takeWhile fun c => c ≠ '/' ∧ c ≠ '?' ∧ c ≠ '#'
        let tail := if hierarchical then afterAuthority.drop host.length else rest
        let path := tail.takeWhile fun c => c ≠ '?' ∧ c ≠ '#'
        let search := (tail.drop path.length).takeWhile (· ≠ '#')
        let hash := tail.drop (path.length + search.length)
        if isSpecialScheme protocol ∧ (!hierarchical ∨ host = []) then none
        else
          some ⟨protocol, if hierarchical then "//" ++ ⟨host⟩ else "",
            if isSpecialScheme protocol ∧ path = [] then "/" else ⟨path⟩, ⟨search⟩, ⟨hash⟩⟩
      else none
  | _, _ => none

/-- Assigning `url.pathname` of a special URL: a path always starts with a slash. -/
def Url.setPathname (u : Url) (path : String) : Url :=
  { u with pathname := if isSpecialScheme u.protocol ∧ ¬ "/".data.isPrefixOf path.data then
      "/" ++ path else path }

/-- `p.replace(/\/$/, '')`. -/
def dropTrailingSlash (p : String) : String :=
  if p.data.getLast? = some '/' then ⟨p.data.dropLast⟩ else p

/-- `buildGatewayPathname(cleanPathname, providerOverride)`. -/
def buildGatewayPathname (cleanPathname : String) (providerOverride : Option String) : String :=
  match providerOverride with
  | some provider => cleanPathname ++ "/" ++ provider
  | none => cleanPathname ++ "/compat"

/-- `constructGatewayUrl(url, providerOverride)`. -/
def constructGatewayUrl (url : Url) (providerOverride : Option String) : String :=
  (url.setPathname (buildGatewayPathname (dropTrailingSlash url.pathname) providerOverride)).toString

/-- `buildGatewayUrl(env, providerOverride, gatewayOverride)`: the override's base URL (a
malformed one throws), else a valid HTTP(S) `CLOUDFLARE_AI_GATEWAY_URL` (a malformed one is
skipped), else the URL the AI binding gives.
-/
def buildGatewayUrl (env : Env) (providerOverride : Option String)
    (gatewayOverride : Option GatewayOverride) (gatewayUrl : Option String → String) :
    Except InferFailure String :=
  match truthy (gatewayOverride.bind (·.baseUrl)) with
  | some baseUrl =>
      match parseUrl baseUrl with
      | some url => .ok (constructGatewayUrl url providerOverride)
      | none => .error .typeError
  | none =>
      let fromEnv : Option String := do
        let configured ← truthy (env.get? "CLOUDFLARE_AI_GATEWAY_URL")
        guard (configured ≠ "none" ∧ trim configured ≠ "")
        let url ← parseUrl configured
        guard (url.protocol = "http:" ∨ url.protocol = "https:")
        pure (constructGatewayUrl url providerOverride)
      match fromEnv with
      | some url => .ok url
      | none =>
          match providerOverride with
          | some provider => .ok (gatewayUrl (some provider))
          | none => .ok (gatewayUrl none ++ "compat")

-----------------------------------------------------------------------------------------
-- getConfigurationForModel
-----------------------------------------------------------------------------------------

/-- What `getConfigurationForModel` returns: the base URL, the API key, and the bearer token
of a `cf-aig-authorization` header when one is sent.
-/
structure Connection where
  baseURL : String
  apiKey : Option String
  gatewayAuthorization : Option String

def deepseekGatewayRefused : String :=
  "DEEPSEEK_API_KEY is required and must be a valid DeepSeek API key. DeepSeek does not " ++
    "support Cloudflare AI Gateway."

/-- The direct endpoints of `getConfigurationForModel`; any other provider goes through the
gateway under its own name.
-/
def directConnection (provider : String) (env : Env) : Option (Except InferFailure Connection) :=
  if provider = "openrouter" then
    some (.ok ⟨"https://openrouter.ai/api/v1", env.get? "OPENROUTER_API_KEY", none⟩)
  else if provider = "anthropic" then
    some (.ok ⟨"https://api.anthropic.com/v1/", env.get? "ANTHROPIC_API_KEY", none⟩)
  else if provider = "grok" then
    some (.ok ⟨"https://api.x.ai/v1", env.get? "GROQ_API_KEY", none⟩)
  else if provider = "openai" then
    some (.ok ⟨"https://api.openai.com/v1", env.get? "OPENAI_API_KEY", none⟩)
  else if provider = "deepseek" then
    let key := env.get? "DEEPSEEK_API_KEY"
    some (if isValidApiKey key then .ok ⟨"https://api.deepseek.com/v1", key, none⟩
      else .error (.error deepseekGatewayRefused))
  else none

/-- `getConfigurationForModel(modelConfig, env, userId, runtimeOverrides)`. -/
def getConfigurationForModel (modelConfig : AIModelConfig) (env : Env)
    (runtimeOverrides : Option InferenceRuntimeOverrides) (gatewayUrl : Option String → String) :
    Except InferFailure Connection := do
  let direct := if modelConfig.directOverride then directConnection modelConfig.provider env
    else none
  match direct with
  | some connection => connection
  | none =>
      let providerForcedOverride :=
        if modelConfig.directOverride then some modelConfig.provider else none
      let gatewayOverride := runtimeOverrides.bind (·.aiGatewayOverride)
      let baseURL ← buildGatewayUrl env providerForcedOverride gatewayOverride gatewayUrl
      let gatewayToken := (gatewayOverride.bind (·.token)).orElse
        fun _ => env.get? "CLOUDFLARE_AI_GATEWAY_TOKEN"
      let apiKey ← getApiKey modelConfig.provider env runtimeOverrides
      let authorization := match truthy gatewayToken with
        | some token => if apiKey ≠ some token then some token else none
        | none => none
      pure ⟨baseURL, apiKey, authorization⟩

/-- A direct Anthropic model, with a valid key of the user's among the runtime overrides and
the placeholder `default` as `ANTHROPIC_API_KEY`: the direct branch returns the placeholder,
which `isValidApiKey` rejects, and never looks at the user's key.
-/
theorem getConfigurationForModel_directSkipsKeyOrder (gatewayUrl : Option String → String) :
    isValidApiKey (some "sk-ant-user-0123456789") = true ∧ isValidApiKey (some "default") = false ∧
      (getConfigurationForModel ⟨"anthropic", true, false⟩ ⟨[("ANTHROPIC_API_KEY", "default")]⟩
        (some ⟨some [("anthropic", "sk-ant-user-0123456789")], none⟩) gatewayUrl).map (·.apiKey) =
        .ok (some "default") :=
  ⟨by decide, by decide, rfl⟩

-----------------------------------------------------------------------------------------
-- DeepSeek keys
-----------------------------------------------------------------------------------------

/-- The DeepSeek key `getApiKey` returns is a valid one: the user's runtime key or
`DEEPSEEK_API_KEY`, never a gateway token.
-/
theorem getApiKey_deepseek {env : Env} {overrides : Option InferenceRuntimeOverrides}
    {apiKey : Option String} (ok : getApiKey "deepseek" env overrides = .ok apiKey) :
    isValidApiKey apiKey = true ∧
      (apiKey = (overrides.bind (·.userApiKeys)).bind (·.lookup "deepseek") ∨
        apiKey = env.get? "DEEPSEEK_API_KEY") := by
  unfold getApiKey at ok
  generalize (overrides.bind (·.userApiKeys)).bind (·.lookup "deepseek") = runtimeKey at ok ⊢
  by_cases runtime : (truthy runtimeKey).isSome = true ∧ isValidApiKey runtimeKey = true
  · rw [if_pos runtime] at ok
    cases ok
    exact ⟨runtime.2, .inl rfl⟩
  · rw [if_neg runtime] at ok
    by_cases valid : isValidApiKey (env.get? (providerKeyName "deepseek")) = true
    · rw [if_pos valid] at ok
      cases ok
      exact ⟨valid, .inr rfl⟩
    · rw [if_neg valid, if_pos rfl] at ok
      cases ok

/-- Whatever the configuration, the environment and the runtime overrides, a DeepSeek model is
configured only with a valid key, the user's runtime key or `DEEPSEEK_API_KEY`: on the direct
branch and on the gateway branch alike, a missing or placeholder key fails the call instead of
falling back to the gateway token.
-/
theorem getConfigurationForModel_deepseekKey {config : AIModelConfig} {env : Env}
    {overrides : Option InferenceRuntimeOverrides} {gatewayUrl : Option String → String}
    {connection : Connection} (deepseek : config.provider = "deepseek")
    (ok : getConfigurationForModel config env overrides gatewayUrl = .ok connection) :
    isValidApiKey connection.apiKey = true ∧
      (connection.apiKey = (overrides.bind (·.userApiKeys)).bind (·.lookup "deepseek") ∨
        connection.apiKey = env.get? "DEEPSEEK_API_KEY") := by
  unfold getConfigurationForModel at ok
  rw [deepseek] at ok
  cases direct : config.directOverride with
  | false =>
    simp only [direct, Bool.false_eq_true, if_false] at ok
    cases built : buildGatewayUrl env none (overrides.bind (·.aiGatewayOverride)) gatewayUrl with
    | error e => simp [built, bind, Except.bind] at ok
    | ok baseURL =>
      cases key : getApiKey "deepseek" env overrides with
      | error e => simp [built, key, bind, Except.bind] at ok
      | ok apiKey =>
        simp only [built, key, bind, Except.bind, pure, Except.pure, Except.ok.injEq] at ok
        rw [← ok]
        exact getApiKey_deepseek key
  | true =>
    rw [direct, if_pos rfl, directConnection, if_neg (by decide), if_neg (by decide),
      if_neg (by decide), if_neg (by decide), if_pos rfl] at ok
    dsimp only at ok
    by_cases valid : isValidApiKey (env.get? "DEEPSEEK_API_KEY") = true
    · rw [if_pos valid] at ok
      cases ok
      exact ⟨valid, .inr rfl⟩
    · rw [if_neg valid] at ok
      cases ok

theorem getConfigurationForModel_deepseekKey_direct :
    ∃ connection, getConfigurationForModel ⟨"deepseek", true, false⟩
        ⟨[("DEEPSEEK_API_KEY", "sk-deepseek-0123456789")]⟩ none (fun _ => "") = .ok connection ∧
      isValidApiKey connection.apiKey = true ∧
      (connection.apiKey = ((none : Option InferenceRuntimeOverrides).bind (·.userApiKeys)).bind
          (·.lookup "deepseek") ∨
        connection.apiKey = Env.get? ⟨[("DEEPSEEK_API_KEY", "sk-deepseek-0123456789")]⟩
          "DEEPSEEK_API_KEY") :=
  ⟨_, rfl, @getConfigurationForModel_deepseekKey ⟨"deepseek", true, false⟩ _ none (fun _ => "") _
    rfl rfl⟩

end Shipit.Inference.Infer
