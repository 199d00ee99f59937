import ShipitInference.Infer.Run

/-! The tool-call context along a run of `infer`: every response a run returns carries on from
the context its call started with, and without caller tool messages, schema or format every
chat request of the run answers each of its tool messages.
-/

namespace Shipit.Inference.Infer

open Shipit.Inference.Js Shipit.Inference.Json

-----------------------------------------------------------------------------------------
-- Contexts carrying on
-----------------------------------------------------------------------------------------

/-- The conversation a context carries, as the orphan filter of `infer` leaves it. -/
def conversation (ctx : Option ToolCallContext) : List Message :=
  ((ctx.map (·.messages)).getD []).map dropEmptyToolCalls

/-- The completion signal a context records. -/
def signalOf (ctx : Option ToolCallContext) : Option CompletionSignal :=
  ctx.bind (·.completionSignal)

/-- `ctx'` carries on from `ctx`: its conversation begins with the conversation of `ctx`, it
is no shallower, and it keeps the completion signal `ctx` records. -/
structure CarriesOn (ctx ctx' : Option ToolCallContext) : Prop where
  conversation : conversation ctx <+: conversation ctx'
  depth : contextDepth ctx ≤ contextDepth ctx'
  signal : ∀ s, signalOf ctx = some s → signalOf ctx' = some s

theorem CarriesOn.refl (ctx : Option ToolCallContext) : CarriesOn ctx ctx :=
  ⟨List.prefix_refl _, le_refl _, fun _ h => h⟩

theorem CarriesOn.trans {a b c : Option ToolCallContext} (first : CarriesOn a b)
    (second : CarriesOn b c) : CarriesOn a c :=
  ⟨first.conversation.trans second.conversation, first.depth.trans second.depth,
    fun s h => second.signal s (first.signal s h)⟩

theorem dropEmptyToolCalls_dropEmptyToolCalls (m : Message) :
    dropEmptyToolCalls (dropEmptyToolCalls m) = dropEmptyToolCalls m := by
  by_cases carrying : m.role = .assistant ∧ m.tool_calls.isSome
  · obtain ⟨assistant, carries⟩ := carrying
    obtain ⟨calls, carries⟩ := Option.isSome_iff_exists.1 carries
    rw [dropEmptyToolCalls_carrying assistant carries]
    by_cases empty : calls.filter (·.id ≠ "") = []
    · rw [if_pos empty]
      exact dropEmptyToolCalls_of_not_carrying (by simp)
    · have kept : (calls.filter (·.id ≠ "")).filter (·.id ≠ "") = calls.filter (·.id ≠ "") :=
        List.filter_eq_self.2 fun c member => (List.mem_filter.1 member).2
      rw [if_neg empty, dropEmptyToolCalls_carrying (m := { m with tool_calls := some _ }) assistant rfl,
        kept, if_neg empty]
  · rw [dropEmptyToolCalls_of_not_carrying carrying, dropEmptyToolCalls_of_not_carrying carrying]

/-- The orphan filter re-assigns each assistant message's calls; the conversation stays. -/
theorem carriesOn_afterFilter (ctx : Option ToolCallContext) :
    CarriesOn ctx (ctx.map (·.afterFilter)) := by
  cases ctx with
  | none => exact .refl none
  | some ctx =>
    have same : conversation (some ctx.afterFilter) = conversation (some ctx) := by
      simp only [conversation, ToolCallContext.afterFilter, Option.map_some', Option.getD_some,
        List.map_map]
      exact List.map_congr_left fun m _ => dropEmptyToolCalls_dropEmptyToolCalls m
    exact ⟨same ▸ List.prefix_refl _, le_refl _, fun _ h => h⟩

/-- `updateToolCallContext` appends to the conversation one level deeper, and asks the
detector only while no signal is recorded. -/
theorem carriesOn_updateToolCallContext (ctx : Option ToolCallContext) (m : Message)
    (executed : List ToolCallResult) (detector : Option CompletionDetector) :
    CarriesOn ctx (some (updateToolCallContext ctx m executed detector)) := by
  refine ⟨?_, by simp [contextDepth], fun s recorded => ?_⟩
  · simp only [conversation, updateToolCallContext, Option.map_some', Option.getD_some,
      List.map_append]
    exact (List.prefix_append _ _).trans (List.prefix_append _ _)
  · simp only [signalOf, updateToolCallContext, Option.some_bind] at recorded ⊢
    rw [recorded]
    cases detector <;> rfl

-----------------------------------------------------------------------------------------
-- What a round leaves
-----------------------------------------------------------------------------------------

/-- The context a response returns. -/
def InferResponse.context : InferResponse → Option ToolCallContext
  | .object _ ctx | .string _ ctx => ctx

/-- A round entered with `ctx` hands on a call, or returns a response, whose context carries on
from `ctx`. A throw may pass on a collaborator's error and its context, and is left open. -/
def Next.CarriesOnFrom (ctx : Option ToolCallContext) : Next → Prop
  | .call c => CarriesOn ctx c.context
  | .finish (.ok r) => CarriesOn ctx r.context
  | .finish (.error _) => True

theorem Next.CarriesOnFrom.of_carriesOn {a b : Option ToolCallContext} {n : Next}
    (before : CarriesOn a b) (next : n.CarriesOnFrom b) : n.CarriesOnFrom a := by
  cases n with
  | finish r =>
    cases r with
    | error => trivial
    | ok => exact before.trans next
  | call => exact before.trans next

-----------------------------------------------------------------------------------------
-- Rounds of infer
-----------------------------------------------------------------------------------------

theorem finalOutput_carriesOn (args : InferArgs) (ctx : Option ToolCallContext)
    (content : String) : (Next.finish (finalOutput args ctx content)).CarriesOnFrom ctx := by
  unfold finalOutput
  split
  · exact .refl ctx
  · dsimp only
    split
    · exact .refl ctx
    · trivial

theorem recurseOrStop_carriesOn {args : InferArgs} {ctx : Option ToolCallContext}
    {modelName : String} {newCtx : ToolCallContext} (content : String)
    (executed : List ToolCallResult) (carries : CarriesOn ctx (some newCtx)) :
    (afterReply.recurseOrStop args modelName newCtx content executed).CarriesOnFrom ctx := by
  unfold afterReply.recurseOrStop
  split
  · exact carries
  · exact carries

theorem afterReply_carriesOn (args : InferArgs) (ctx : Option ToolCallContext)
    (modelName : String) (results : Except InferFailure (List ToolCallResult)) (reply : Reply) :
    (afterReply args ctx modelName results reply).CarriesOnFrom ctx := by
  unfold afterReply
  dsimp only
  split
  · exact .refl ctx
  split
  · exact carriesOn_updateToolCallContext ..
  · exact finalOutput_carriesOn args ctx reply.content
  · rename_i executed _ _
    have carries := carriesOn_updateToolCallContext ctx
      { role := .assistant, content := .text reply.content, tool_calls := some reply.toolCalls }
      executed (detectorOf args)
    generalize updateToolCallContext ctx _ executed (detectorOf args) = newCtx at carries ⊢
    split
    · split
      · split
        · trivial
        · exact carries
      · exact recurseOrStop_carriesOn _ _ carries
    · exact recurseOrStop_carriesOn _ _ carries

theorem chatTurn_carriesOn (world : RoundWorld) (args : InferArgs) (ctx : Option ToolCallContext)
    (config : AIModelConfig) : (chatTurn world args ctx config).next.CarriesOnFrom ctx := by
  unfold chatTurn
  dsimp only
  repeat' split
  all_goals first
    | trivial
    | exact .of_carriesOn (carriesOn_afterFilter ctx) (afterReply_carriesOn ..)

theorem inferRound_carriesOn (collab : Collaborators) (world : RoundWorld) (args : InferArgs)
    (ctx : Option ToolCallContext) : (inferRound collab world args ctx).next.CarriesOnFrom ctx := by
  unfold inferRound
  split
  · trivial
  split
  · unfold chatDepthLimit
    split
    · trivial
    · exact .refl ctx
  split
  · trivial
  split
  · exact .refl ctx
  · exact chatTurn_carriesOn world args ctx _

-----------------------------------------------------------------------------------------
-- Rounds of inferGeminiNative
-----------------------------------------------------------------------------------------

theorem geminiFinal_carriesOn (args : InferArgs) (ctx : Option ToolCallContext)
    (textValue : JsonValue) (text : String) (parsed : JsonValue) :
    (Next.finish (geminiFinal args ctx textValue text parsed)).CarriesOnFrom ctx := by
  unfold geminiFinal
  dsimp only
  split
  · split
    · exact .refl ctx
    · trivial
  · exact .refl ctx

theorem geminiAction_carriesOn (args : InferArgs) (world : RoundWorld)
    (ctx : Option ToolCallContext) (tools : List ToolDefinition) (text : String)
    (parsed action : JsonValue) :
    (geminiAction args world ctx tools text parsed action).CarriesOnFrom ctx := by
  unfold geminiAction
  dsimp only
  split
  · trivial
  split
  · trivial
  · rename_i executed _
    generalize built : updateToolCallContext ctx _ executed (detectorOf args) = newCtx
    have carries : CarriesOn ctx (some newCtx) := by
      rw [← built]; exact carriesOn_updateToolCallContext ..
    split
    · split
      · split
        · trivial
        · exact carries
      · exact carries
    · exact carries

theorem geminiReply_carriesOn (args : InferArgs) (world : RoundWorld)
    (ctx : Option ToolCallContext) (body : JsonValue) :
    (geminiReply args world ctx body).CarriesOnFrom ctx := by
  unfold geminiReply
  split
  · split
    · dsimp only
      repeat' split
      all_goals first
        | trivial
        | exact geminiAction_carriesOn ..
        | exact geminiFinal_carriesOn ..
    · trivial
  · trivial

theorem geminiRound_carriesOn (collab : Collaborators) (world : RoundWorld) (args : InferArgs)
    (ctx : Option ToolCallContext) : (geminiRound collab world args ctx).next.CarriesOnFrom ctx := by
  unfold geminiRound
  split
  · unfold nativeDepthLimit
    split
    · trivial
    · exact .refl ctx
  repeat' split
  all_goals first
    | trivial
    | exact geminiReply_carriesOn ..

-----------------------------------------------------------------------------------------
-- Whole runs
-----------------------------------------------------------------------------------------

/-- Every round leaves a context that carries on from the one its call was entered with. -/
theorem Call.round_carriesOn (collab : Collaborators) (world : RoundWorld) (c : Call) :
    (c.round collab world).next.CarriesOnFrom c.context := by
  cases c with
  | infer args ctx => exact inferRound_carriesOn collab world args ctx
  | native args ctx => exact geminiRound_carriesOn collab world args ctx

/-- Every response a run returns carries on from the context of the call that started it:
the conversation begins with the starting one, as the orphan filter leaves it, the depth is
no smaller, and a completion signal the starting context records is kept. -/
theorem run_carriesOn (collab : Collaborators) (world : Nat → RoundWorld) :
    ∀ fuel k c r, (run collab world fuel k c).result = some (.ok r) → CarriesOn c.context r.context
  | 0, _, _, _, returned => by cases returned
  | fuel + 1, k, c, r, returned => by
    have round := c.round_carriesOn collab (world k)
    cases next : (c.round collab (world k)).next with
    | finish result =>
      rw [run_succ_of_finish next, Round.andThen_result] at returned
      cases returned
      rw [next] at round
      exact round
    | call handed =>
      rw [run_succ_of_call next, Round.andThen_result] at returned
      rw [next] at round
      exact round.trans (run_carriesOn collab world fuel (k + 1) handed r returned)

/-- The completion-tool run resumed from the context of a round whose model called `search`. -/
theorem run_carriesOn_afterSearch :
    ∃ r, (run sampleCollaborators completionWorld 5 0
        (.infer completionArgs (some searchContext))).result = some (.ok r) ∧
      CarriesOn (some searchContext) r.context :=
  ⟨_, rfl, run_carriesOn sampleCollaborators completionWorld 5 0
    (.infer completionArgs (some searchContext)) _ rfl⟩

-----------------------------------------------------------------------------------------
-- Requests along a run
-----------------------------------------------------------------------------------------

/-- The arguments of a call without a schema or a format, from a caller that sent no tool
message. -/
structure PlainArgs (args : InferArgs) : Prop where
  noTool : ∀ m ∈ args.messages, m.role ≠ .tool
  noSchema : args.schema = none
  noFormat : truthy args.format = none

/-- The request of a chat turn is built from the messages `messagesToPass` gives for the plan
of the rewritten model name. -/
theorem chatTurn_request {world : RoundWorld} {args : InferArgs} {ctx : Option ToolCallContext}
    {config : AIModelConfig} {request : ChatRequest}
    (sent : (chatTurn world args ctx config).request = some (.chat request)) :
    ∃ modelName messages, messagesToPass args ctx
        (outputPlan args config.provider modelName) = .ok messages ∧ request.messages = messages := by
  unfold chatTurn at sent
  split at sent
  · cases sent
  split at sent
  · cases sent
  dsimp only at sent
  split at sent
  · cases sent
  split at sent
  · cases sent
  rename_i messages built
  repeat' split at sent
  all_goals (dsimp only at sent; cases sent; exact ⟨_, messages, built, rfl⟩)

/-- A chat turn hands on only the recursive `infer` call with the recursion's arguments. -/
theorem chatTurn_call {world : RoundWorld} {args : InferArgs} {ctx : Option ToolCallContext}
    {config : AIModelConfig} {c : Call} (h : (chatTurn world args ctx config).next = .call c) :
    ∃ modelName ctx', c = .infer (recursionArgs args modelName) (some ctx') := by
  unfold chatTurn at h
  dsimp only at h
  repeat' split at h
  all_goals first
    | cases h
    | obtain ⟨ctx', rfl, -⟩ := afterReply_eq_call h
      exact ⟨_, ctx', rfl⟩

/-- A native round sends no chat request. -/
theorem geminiRound_request_not_chat {collab : Collaborators} {world : RoundWorld}
    {args : InferArgs} {ctx : Option ToolCallContext} {r : ChatRequest} :
    (geminiRound collab world args ctx).request ≠ some (.chat r) := by
  unfold geminiRound
  split
  · nofun
  split
  · nofun
  dsimp only
  split
  · nofun
  split
  · nofun
  split <;> nofun

/-- A round keeps a call plain: the recursion of a call without a schema drops the format, and
the hand-off and the native recursion keep the arguments. -/
theorem PlainArgs.round {collab : Collaborators} {world : RoundWorld} {c c' : Call}
    (plain : PlainArgs c.args) (handed : (c.round collab world).next = .call c') :
    PlainArgs c'.args := by
  cases c with
  | infer args ctx =>
    replace plain : PlainArgs args := plain
    rcases inferRound_cases collab world args ctx with ⟨r, finish⟩ | ⟨-, handoff | ⟨config, turn⟩⟩
    · simp only [Call.round, finish, Round.finish] at handed; cases handed
    · simp only [Call.round, handoff] at handed; cases handed; exact plain
    · simp only [Call.round, turn] at handed
      obtain ⟨modelName, ctx', rfl⟩ := chatTurn_call handed
      have unstructured : isStructured args = false := by simp [isStructured, plain.noSchema]
      refine ⟨?_, ?_, ?_⟩ <;> simp only [Call.args, recursionArgs, unstructured] <;>
        first | exact plain.noTool | rfl
  | native args ctx =>
    rcases geminiRound_cases collab world args ctx with ⟨r, finish⟩ | ⟨-, handsOn⟩
    · simp only [Call.round, finish, Round.finish] at handed; cases handed
    · obtain ⟨ctx', rfl, -⟩ := handsOn c' handed
      exact plain

/-- Every chat request of a plain call answers each of its tool messages. -/
theorem PlainArgs.request_answered {collab : Collaborators} {world : RoundWorld} {c : Call}
    (plain : PlainArgs c.args) {r : ChatRequest}
    (sent : (c.round collab world).request = some (.chat r)) :
    toolMessagesAnswered [] r.messages = true := by
  cases c with
  | infer args ctx =>
    replace plain : PlainArgs args := plain
    rcases inferRound_cases collab world args ctx with ⟨_, finish⟩ | ⟨-, handoff | ⟨config, turn⟩⟩
    · simp only [Call.round, finish, Round.finish] at sent; cases sent
    · simp only [Call.round, handoff] at sent; cases sent
    · simp only [Call.round, turn] at sent
      obtain ⟨modelName, messages, built, rfl⟩ := chatTurn_request sent
      have unforced : truthy (outputPlan args config.provider modelName).forcedFormat = none := by
        rw [outputPlan_forcedFormat_of_noSchema plain.noSchema]; exact plain.noFormat
      obtain ⟨optimized, optimizedOk, messages⟩ := messagesToPass_of_unforced unforced built
      rw [messages]
      exact optimized_append_answered plain.noTool optimizedOk ctx
  | native args ctx => exact absurd sent geminiRound_request_not_chat

/-- For a caller that sent no tool message and asked for no schema or format, every chat request
a run sends, in every round, over either transport, answers each of its tool messages. -/
theorem run_requests_answered (collab : Collaborators) (world : Nat → RoundWorld) :
    ∀ fuel k c, PlainArgs (Call.args c) → ∀ r : ChatRequest,
      .chat r ∈ (run collab world fuel k c).requests → toolMessagesAnswered [] r.messages = true
  | 0, _, _, _ => by simp [run]
  | fuel + 1, k, c, plain => by
    intro r member
    cases next : (c.round collab (world k)).next with
    | finish result =>
      rw [run_succ_of_finish next, Round.andThen_requests, List.append_nil] at member
      exact plain.request_answered (Option.mem_toList.1 member)
    | call handed =>
      rw [run_succ_of_call next, Round.andThen_requests, List.mem_append] at member
      rcases member with mine | later
      · exact plain.request_answered (Option.mem_toList.1 mine)
      · exact run_requests_answered collab world fuel (k + 1) handed (plain.round next) r later

theorem run_requests_answered_completion :
    PlainArgs completionArgs ∧ ∀ r : ChatRequest,
      .chat r ∈ (run sampleCollaborators completionWorld 5 0 (.infer completionArgs none)).requests →
        toolMessagesAnswered [] r.messages = true :=
  ⟨⟨by decide, rfl, rfl⟩, run_requests_answered sampleCollaborators completionWorld 5 0 _
    ⟨by decide, rfl, rfl⟩⟩

end Shipit.Inference.Infer
