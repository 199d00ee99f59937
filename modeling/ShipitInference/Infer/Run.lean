import ShipitInference.Infer.Native

/-! The recursion of `infer` as a run of rounds, fed the world `world k` in round `k`: a call
entered at depth `d` sends at most `maxDepth - d` requests.
-/

namespace Shipit.Inference.Infer

open Shipit.Inference.Js Shipit.Inference.Json Shipit.Inference.Streaming

-----------------------------------------------------------------------------------------
-- Calls and runs
-----------------------------------------------------------------------------------------

/-- The arguments of a call. -/
def Call.args : Call → InferArgs
  | .infer args _ | .native args _ => args

/-- The tool-call context of a call. -/
def Call.context : Call → Option ToolCallContext
  | .infer _ ctx | .native _ ctx => ctx

/-- Whether a call enters `infer`, the chat-completion transport. -/
def Call.isInfer : Call → Bool
  | .infer _ _ => true
  | .native _ _ => false

/-- The depth a call is entered at. -/
def Call.depth (c : Call) : Nat := contextDepth c.context

/-- The depth limit of a call's action. -/
def Call.maxDepth (collab : Collaborators) (c : Call) : Nat :=
  collab.getMaxToolCallingDepth c.args.actionKey

/-- One round of a call. -/
def Call.round (collab : Collaborators) (world : RoundWorld) : Call → Round
  | .infer args ctx => inferRound collab world args ctx
  | .native args ctx => geminiRound collab world args ctx

/-- What a run shows: its result (none when the fuel ran out first), the upstream requests,
the texts passed to `onChunk` and the messages passed to `onAssistantMessage`, in order.
-/
structure Run where
  result : Option (Except InferFailure InferResponse)
  requests : List UpstreamRequest
  chunks : List String
  notified : List Message

/-- A round followed by the run of the call it hands on. -/
def Round.andThen (round : Round) (rest : Run) : Run :=
  { rest with
    requests := round.request.toList ++ rest.requests
    chunks := round.chunks ++ rest.chunks
    notified := round.notified ++ rest.notified }

/-- The run of a call from round `k` on, with `fuel` rounds at most. -/
def run (collab : Collaborators) (world : Nat → RoundWorld) : Nat → Nat → Call → Run
  | 0, _, _ => ⟨none, [], [], []⟩
  | fuel + 1, k, call =>
      let round := call.round collab (world k)
      match round.next with
      | .finish result => round.andThen ⟨some result, [], [], []⟩
      | .call next => round.andThen (run collab world fuel (k + 1) next)

@[simp]
theorem Round.andThen_result (round : Round) (rest : Run) :
    (round.andThen rest).result = rest.result := rfl

@[simp]
theorem Round.andThen_requests (round : Round) (rest : Run) :
    (round.andThen rest).requests = round.request.toList ++ rest.requests := rfl

section Steps

variable {collab : Collaborators} {world : Nat → RoundWorld} {fuel k : Nat} {c : Call}

theorem run_succ_of_finish {r : Except InferFailure InferResponse}
    (h : (c.round collab (world k)).next = .finish r) :
    run collab world (fuel + 1) k c = (c.round collab (world k)).andThen ⟨some r, [], [], []⟩ := by
  simp only [run, h]

theorem run_succ_of_call {next : Call} (h : (c.round collab (world k)).next = .call next) :
    run collab world (fuel + 1) k c =
      (c.round collab (world k)).andThen (run collab world fuel (k + 1) next) := by
  simp only [run, h]

end Steps

-----------------------------------------------------------------------------------------
-- What a round sends and hands on
-----------------------------------------------------------------------------------------

theorem contextDepth_afterFilter (ctx : Option ToolCallContext) :
    contextDepth (ctx.map (·.afterFilter)) = contextDepth ctx := by
  cases ctx <;> rfl

@[simp]
theorem updateToolCallContext_depth (ctx : Option ToolCallContext) (m : Message)
    (executed : List ToolCallResult) (detector : Option CompletionDetector) :
    (updateToolCallContext ctx m executed detector).depth = contextDepth ctx + 1 := rfl

@[simp]
theorem recursionArgs_actionKey (args : InferArgs) (modelName : String) :
    (recursionArgs args modelName).actionKey = args.actionKey := by
  unfold recursionArgs; split <;> rfl

theorem recurseOrStop_eq_call {args : InferArgs} {modelName : String} {newCtx : ToolCallContext}
    {content : String} {executed : List ToolCallResult} {c : Call}
    (h : afterReply.recurseOrStop args modelName newCtx content executed = .call c) :
    c = .infer (recursionArgs args modelName) (some newCtx) := by
  unfold afterReply.recurseOrStop at h
  split at h
  · cases h
  · exact (Next.call.inj h).symm

/-- A chat reply hands on only the recursive `infer` call, one level deeper. -/
theorem afterReply_eq_call {args : InferArgs} {ctx : Option ToolCallContext} {modelName : String}
    {results : Except InferFailure (List ToolCallResult)} {reply : Reply} {c : Call}
    (h : afterReply args ctx modelName results reply = .call c) :
    ∃ ctx', c = .infer (recursionArgs args modelName) (some ctx') ∧
      ctx'.depth = contextDepth ctx + 1 := by
  unfold afterReply at h
  dsimp only at h
  repeat' split at h
  all_goals first | cases h | exact ⟨_, recurseOrStop_eq_call h, rfl⟩

/-- A chat turn hands on only the recursive `infer` call, of the same action and one level
deeper. -/
theorem chatTurn_eq_call {world : RoundWorld} {args : InferArgs} {ctx : Option ToolCallContext}
    {config : AIModelConfig} {c : Call} (h : (chatTurn world args ctx config).next = .call c) :
    c.isInfer ∧ c.args.actionKey = args.actionKey ∧ c.depth = contextDepth ctx + 1 := by
  unfold chatTurn at h
  dsimp only at h
  repeat' split at h
  all_goals first
    | cases h
    | obtain ⟨ctx', rfl, deeper⟩ := afterReply_eq_call h
      exact ⟨rfl, recursionArgs_actionKey .., by rw [← contextDepth_afterFilter ctx]; exact deeper⟩

/-- What one round of `infer` can do: end the call, or, below the depth limit, hand on the
native call without a request, or run a chat turn. -/
theorem inferRound_cases (collab : Collaborators) (world : RoundWorld) (args : InferArgs)
    (ctx : Option ToolCallContext) :
    (∃ r, inferRound collab world args ctx = .finish r) ∨
      contextDepth ctx < collab.getMaxToolCallingDepth args.actionKey ∧
        (inferRound collab world args ctx = { request := none, next := .call (.native args ctx) } ∨
          ∃ config, inferRound collab world args ctx = chatTurn world args ctx config) := by
  by_cases tooMany : args.messages.length > collab.maxLlmMessages
  · exact .inl ⟨_, if_pos tooMany⟩
  by_cases limit : contextDepth ctx ≥ collab.getMaxToolCallingDepth args.actionKey
  · exact .inl ⟨_, by rw [inferRound, if_neg tooMany, if_pos limit]⟩
  rw [inferRound, if_neg tooMany, if_neg limit]
  cases collab.aiModelConfig args.modelName with
  | none => exact .inl ⟨_, rfl⟩
  | some config =>
    by_cases native : requiresNativeInference config.provider
    · exact .inr ⟨by omega, .inl (if_pos native)⟩
    · exact .inr ⟨by omega, .inr ⟨config, if_neg native⟩⟩

/-- The action envelope hands on only the native call, one level deeper. -/
theorem geminiAction_eq_call {args : InferArgs} {world : RoundWorld} {ctx : Option ToolCallContext}
    {tools : List ToolDefinition} {text : String} {parsed action : JsonValue} {c : Call}
    (h : geminiAction args world ctx tools text parsed action = .call c) :
    ∃ ctx', c = .native args (some ctx') ∧ ctx'.depth = contextDepth ctx + 1 := by
  rcases geminiAction_cases h with h | ⟨_, _, h⟩ | ⟨_, h⟩ | ⟨_, _, h⟩ | ⟨ctx', h, deeper⟩
  all_goals first | exact ⟨ctx', Next.call.inj h, deeper⟩ | cases h

/-- What one round of `inferGeminiNative` can do: end the call, or, below the depth limit,
hand on only the native call one level deeper. -/
theorem geminiRound_cases (collab : Collaborators) (world : RoundWorld) (args : InferArgs)
    (ctx : Option ToolCallContext) :
    (∃ r, geminiRound collab world args ctx = .finish r) ∨
      contextDepth ctx < collab.getMaxToolCallingDepth args.actionKey ∧
        ∀ c, (geminiRound collab world args ctx).next = .call c →
          ∃ ctx', c = .native args (some ctx') ∧ ctx'.depth = contextDepth ctx + 1 := by
  by_cases limit : contextDepth ctx ≥ collab.getMaxToolCallingDepth args.actionKey
  · exact .inl ⟨_, if_pos limit⟩
  refine .inr ⟨by omega, fun c h => ?_⟩
  rw [geminiRound, if_neg limit] at h
  unfold geminiReply at h
  dsimp only at h
  repeat' split at h
  all_goals first | cases h | exact geminiAction_eq_call h

-----------------------------------------------------------------------------------------
-- The depth budget
-----------------------------------------------------------------------------------------

/-- The rounds that always end a call: for `infer`, which may hand off once, twice the levels
left plus two; for the native transport, the levels left plus one. -/
def Call.budget (collab : Collaborators) (c : Call) : Nat :=
  (if c.isInfer then 2 else 1) * (c.maxDepth collab - c.depth + 1)

theorem length_toList_le_one {α : Type} (o : Option α) : o.toList.length ≤ 1 := by
  cases o <;> simp

/-- A call handed on one level deeper, of the same kind and action, from below the limit,
leaves a smaller budget, and the levels it has left pay for one request. -/
theorem Call.deeper_budget {collab : Collaborators} (c c' : Call)
    (below : c.depth < c.maxDepth collab) (kind : c'.isInfer = c.isInfer)
    (key : c'.args.actionKey = c.args.actionKey) (deeper : c'.depth = c.depth + 1)
    (request : Option UpstreamRequest) :
    c'.maxDepth collab = c.maxDepth collab ∧ c'.budget collab < c.budget collab ∧
      request.toList.length + (c'.maxDepth collab - c'.depth) ≤ c.maxDepth collab - c.depth := by
  have sameMax : c'.maxDepth collab = c.maxDepth collab := by simp only [Call.maxDepth, key]
  have atMostOne := length_toList_le_one request
  refine ⟨sameMax, ?_, by omega⟩
  unfold Call.budget
  rw [kind]
  split <;> omega

/-- What one round of a call can do: end the call without a request; or, from below the depth
limit, hand on a call of the same action with a smaller budget, the levels left paying for
the request sent.
-/
theorem Call.round_cases (collab : Collaborators) (world : RoundWorld) (c : Call) :
    (∃ r, c.round collab world = .finish r) ∨
      c.depth < c.maxDepth collab ∧ ∀ c', (c.round collab world).next = .call c' →
        c'.maxDepth collab = c.maxDepth collab ∧ c'.budget collab < c.budget collab ∧
          (c.round collab world).request.toList.length + (c'.maxDepth collab - c'.depth) ≤
            c.maxDepth collab - c.depth := by
  cases c with
  | infer args ctx =>
      rcases inferRound_cases collab world args ctx with finish | ⟨below, handoff | ⟨config, turn⟩⟩
      · exact .inl finish
      · refine .inr ⟨below, fun c' h => ?_⟩
        simp only [Call.round, handoff] at h ⊢
        cases h
        simp only [Call.budget, Call.maxDepth, Call.depth, Call.isInfer, Call.args, Call.context,
          Round.request, Option.toList, List.length_nil, if_true, Bool.false_eq_true, if_false,
          true_and]
        omega
      · refine .inr ⟨below, fun c' h => ?_⟩
        simp only [Call.round, turn] at h ⊢
        obtain ⟨kind, key, deeper⟩ := chatTurn_eq_call h
        exact Call.deeper_budget (.infer args ctx) c' below kind key deeper _
  | native args ctx =>
      rcases geminiRound_cases collab world args ctx with finish | ⟨below, handsOn⟩
      · exact .inl finish
      · refine .inr ⟨below, fun c' h => ?_⟩
        obtain ⟨ctx', rfl, deeper⟩ := handsOn c' h
        exact Call.deeper_budget (.native args ctx) (.native args (some ctx')) below rfl rfl deeper _

/-- A round sends no more requests than its call has levels left. -/
theorem Call.round_request_length (collab : Collaborators) (world : RoundWorld) (c : Call) :
    (c.round collab world).request.toList.length ≤ c.maxDepth collab - c.depth := by
  rcases c.round_cases collab world with ⟨r, finish⟩ | ⟨below, -⟩
  · simp [finish, Round.finish]
  · have := length_toList_le_one (c.round collab world).request
    omega

/-- A call a round hands on is of the same action, has a smaller budget, and leaves levels
that pay for the round's request. -/
theorem Call.round_eq_call {collab : Collaborators} {world : RoundWorld} {c c' : Call}
    (h : (c.round collab world).next = .call c') :
    c'.maxDepth collab = c.maxDepth collab ∧ c'.budget collab < c.budget collab ∧
      (c.round collab world).request.toList.length + (c'.maxDepth collab - c'.depth) ≤
        c.maxDepth collab - c.depth := by
  rcases c.round_cases collab world with ⟨r, finish⟩ | ⟨-, handsOn⟩
  · rw [finish] at h; cases h
  · exact handsOn c' h

-----------------------------------------------------------------------------------------
-- Whole runs
-----------------------------------------------------------------------------------------

/-- However much fuel it is given, a run sends no more requests than its call has levels
left. -/
theorem run_requests_le (collab : Collaborators) (world : Nat → RoundWorld) :
    ∀ fuel k c, (run collab world fuel k c).requests.length ≤ c.maxDepth collab - c.depth
  | 0, _, _ => by simp [run]
  | fuel + 1, k, c => by
      cases hn : (c.round collab (world k)).next with
      | finish r =>
          rw [run_succ_of_finish hn]
          simpa using c.round_request_length collab (world k)
      | call next =>
          rw [run_succ_of_call hn, Round.andThen_requests, List.length_append]
          have rest := run_requests_le collab world fuel (k + 1) next
          have paid := (Call.round_eq_call hn).2.2
          omega

/-- A run given its call's budget of fuel ends with a result. -/
theorem run_result_isSome (collab : Collaborators) (world : Nat → RoundWorld) :
    ∀ fuel k c, c.budget collab ≤ fuel → (run collab world fuel k c).result.isSome
  | 0, _, c, h => by
      have : 0 < c.budget collab := by unfold Call.budget; split <;> omega
      omega
  | fuel + 1, k, c, h => by
      cases hn : (c.round collab (world k)).next with
      | finish r => rw [run_succ_of_finish hn]; rfl
      | call next =>
          rw [run_succ_of_call hn, Round.andThen_result]
          have smaller := (Call.round_eq_call hn).2.1
          exact run_result_isSome collab world fuel (k + 1) next (by omega)

/-- One top-level call of `infer`, entered at depth `d`, sends at most
`getMaxToolCallingDepth(actionKey) - d` upstream requests over either transport, and it returns
or throws within `2 * (getMaxToolCallingDepth(actionKey) - d) + 2` rounds.
-/
theorem infer_requests_le_depth_budget (collab : Collaborators) (world : Nat → RoundWorld)
    (args : InferArgs) (ctx : Option ToolCallContext) :
    (∀ fuel, (run collab world fuel 0 (.infer args ctx)).requests.length ≤
      collab.getMaxToolCallingDepth args.actionKey - contextDepth ctx) ∧
    (run collab world (2 * (collab.getMaxToolCallingDepth args.actionKey - contextDepth ctx) + 2) 0
      (.infer args ctx)).result.isSome :=
  ⟨fun fuel => run_requests_le collab world fuel 0 (.infer args ctx),
    run_result_isSome collab world _ 0 (.infer args ctx) (by
      simp only [Call.budget, Call.isInfer, Call.maxDepth, Call.depth, Call.args, Call.context,
        ↓reduceIte]
      omega)⟩

-----------------------------------------------------------------------------------------
-- A completion tool after an ordinary round
-----------------------------------------------------------------------------------------

/-- A detector that signals when `finish` was called and answers an unsignaled signal for any
other batch.
-/
def finishDetector : CompletionDetector where
  detectCompletion results :=
    if results.any (·.name = "finish") then some ⟨true, "finish", none⟩ else some ⟨false, "", none⟩
  isCompletionTool name := name = "finish"

/-- What `finish` and a second `search` return. -/
def finishResults : List ToolCallResult :=
  [⟨"call_2", "finish", some (.string "ok")⟩, ⟨"call_3", "search", some (.string "found")⟩]

/-- The Claude call of `sampleArgs` without a schema, with the tools `search` and `finish` and
`finishDetector`.
-/
def completionArgs : InferArgs :=
  { sampleArgs "anthropic/claude-sonnet-4" none with
    tools := some [⟨"search"⟩, ⟨"finish"⟩]
    completionConfig := some ⟨some finishDetector⟩ }

/-- Rounds whose model calls `search`, then `finish` with `search`, then answers `done`. -/
def completionWorld : Nat → RoundWorld
  | 0 => searchWorld
  | 1 => sampleWorld (.completion (some ⟨some "",
      some [⟨"call_2", "finish", "\x7b\x7d"⟩, ⟨"call_3", "search", "\x7b\x7d"⟩]⟩)) "" finishResults
  | _ => sampleWorld (.completion (some ⟨some "done", none⟩)) "" []

/-- The detector signals on the batch of the second round, which calls the completion tool;
but the unsignaled signal of the first round is kept, so the detector is not asked again and
the chain sends a third request.
-/
theorem run_requestsAfterCompletionTool :
    (finishDetector.detectCompletion [searchResult]).map (·.signaled) = some false ∧
      (finishDetector.detectCompletion finishResults).map (·.signaled) = some true ∧
      (completionWorld 1).toolResults = .ok finishResults ∧
      (run sampleCollaborators completionWorld 5 0 (.infer completionArgs none)).requests.length = 3 :=
  ⟨rfl, rfl, rfl, rfl⟩

end Shipit.Inference.Infer
