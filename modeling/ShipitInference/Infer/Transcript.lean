import Mathlib.Data.List.Chain
import ShipitInference.Infer.History

/-! The conversation `infer` sends upstream, round after round: for a call without a schema or a
format, each chat request resends the previous one's messages unchanged and appends to them.
-/

namespace Shipit.Inference.Infer

open Shipit.Inference.Js

-----------------------------------------------------------------------------------------
-- The orphan filter over appended messages
-----------------------------------------------------------------------------------------

/-- Each message is kept or dropped, and moves the valid ids, by itself, whatever follows it. -/
theorem filterOrphans_cons_eq (valid : List String) (m : Message) :
    ∃ (keep : Bool) (valid' : List String), ∀ rest, filterOrphans valid (m :: rest) =
      (if keep then [m] else []) ++ filterOrphans valid' rest := by
  by_cases carrying : m.role = .assistant ∧ m.tool_calls.isSome
  · exact ⟨true, _, fun rest => by rw [filterOrphans, if_pos carrying]; rfl⟩
  by_cases tool : m.role = .tool
  · cases named : truthy (m.name.map trim) with
    | none =>
      refine ⟨false, valid, fun rest => ?_⟩
      rw [filterOrphans, if_neg carrying, if_pos tool, named]
      rfl
    | some n =>
      cases identified : truthy m.tool_call_id with
      | none =>
        refine ⟨false, valid, fun rest => ?_⟩
        rw [filterOrphans, if_neg carrying, if_pos tool, named, identified]
        rfl
      | some id =>
        refine ⟨decide (id ∈ valid), valid, fun rest => ?_⟩
        rw [filterOrphans, if_neg carrying, if_pos tool, named, identified]
        by_cases answered : id ∈ valid <;> simp [answered]
  · exact ⟨true, valid, fun rest => by rw [filterOrphans, if_neg carrying, if_neg tool]; rfl⟩

/-- The filter reads the valid ids only through those that are not empty. -/
theorem filterOrphans_congr {valid valid' : List String}
    (same : ∀ id, id ≠ "" → (id ∈ valid ↔ id ∈ valid')) :
    ∀ msgs, filterOrphans valid msgs = filterOrphans valid' msgs
  | [] => rfl
  | m :: rest => by
    unfold filterOrphans
    split
    · rfl
    split
    · split
      · rename_i id named identified
        have nonEmpty := (filterOrphans_kept named identified).2.2
        rw [filterOrphans_congr same rest]
        by_cases answered : id ∈ valid
        · rw [if_pos answered, if_pos ((same id nonEmpty).1 answered)]
        · rw [if_neg answered, if_neg (mt (same id nonEmpty).2 answered)]
      · exact filterOrphans_congr same rest
    · rw [filterOrphans_congr same rest]

/-- Tool messages alone, with no valid id that is not empty, are all dropped. -/
theorem filterOrphans_tools_nil {valid : List String} (noId : ∀ id ∈ valid, id = "") :
    ∀ tools : List Message, (∀ t ∈ tools, t.role = .tool) → filterOrphans valid tools = []
  | [], _ => rfl
  | t :: rest, tools => by
    have tool := tools t (.head _)
    have others : ∀ t' ∈ rest, t'.role = .tool := fun t' mem => tools t' (.tail _ mem)
    rw [filterOrphans, if_neg (by simp [tool]), if_pos tool]
    split
    · rename_i id named identified
      rw [if_neg fun mem => (filterOrphans_kept named identified).2.2 (noId id mem)]
      exact filterOrphans_tools_nil noId rest others
    · exact filterOrphans_tools_nil noId rest others

/-- Where two continuations, filtered and re-assigned from any valid ids, extend one another,
so do the lists that share a beginning before them. -/
theorem filterOrphans_append_extends {tail tail' : List Message}
    (longer : ∀ valid, (filterOrphans valid tail).map dropEmptyToolCalls <+:
      (filterOrphans valid tail').map dropEmptyToolCalls) :
    ∀ (shared : List Message) valid,
      (filterOrphans valid (shared ++ tail)).map dropEmptyToolCalls <+:
        (filterOrphans valid (shared ++ tail')).map dropEmptyToolCalls
  | [], valid => longer valid
  | m :: shared, valid => by
    obtain ⟨keep, valid', step⟩ := filterOrphans_cons_eq valid m
    rw [List.cons_append, List.cons_append, step, step, List.map_append, List.map_append]
    exact (List.prefix_append_right_inj _).2 (filterOrphans_append_extends longer shared valid')

-----------------------------------------------------------------------------------------
-- One round's batch
-----------------------------------------------------------------------------------------

/-- The messages `updateToolCallContext` appends in one round: an assistant message carrying
its tool calls, then tool messages. -/
structure ToolBatch (batch : List Message) : Prop where
  assistant : ∀ m ∈ batch.head?, m.role = .assistant ∧ m.tool_calls.isSome
  tools : ∀ m ∈ batch.tail, m.role = .tool

theorem toolBatch_updateToolCallContext (ctx : Option ToolCallContext) {m : Message}
    (assistant : m.role = .assistant) (carries : m.tool_calls.isSome)
    (executed : List ToolCallResult) (detector : Option CompletionDetector) :
    ∃ batch, ToolBatch batch ∧
      (updateToolCallContext ctx m executed detector).messages =
        (ctx.map (·.messages)).getD [] ++ batch :=
  ⟨_, ⟨fun _ head => by cases head; exact ⟨assistant, carries⟩, fun _ mem => by
    obtain ⟨_, -, rfl⟩ := List.mem_map.1 mem; rfl⟩, List.append_assoc _ _ _⟩

/-- Re-assigning the calls of a batch only lets the filter keep more of its tool messages, after
those it kept: when the assistant message keeps calls with an id, the filter keeps the same
tool messages; when it loses `tool_calls`, none was kept before. -/
theorem filterOrphans_afterFilter_batch {batch : List Message} (shape : ToolBatch batch)
    (valid : List String) :
    (filterOrphans valid batch).map dropEmptyToolCalls <+:
      (filterOrphans valid (batch.map dropEmptyToolCalls)).map dropEmptyToolCalls := by
  cases batch with
  | nil => exact List.prefix_refl _
  | cons a tools =>
    obtain ⟨assistant, carries⟩ := shape.assistant a rfl
    obtain ⟨calls, carries⟩ := Option.isSome_iff_exists.1 carries
    have unchanged : tools.map dropEmptyToolCalls = tools :=
      (List.map_congr_left fun t mem =>
        dropEmptyToolCalls_of_not_carrying (by simp [shape.tools t mem])).trans (List.map_id tools)
    rw [List.map_cons, unchanged, filterOrphans, if_pos ⟨assistant, by simp [carries]⟩, carries,
      Option.getD_some, List.map_cons]
    have reassigned := dropEmptyToolCalls_carrying assistant carries
    by_cases noneKept : calls.filter (·.id ≠ "") = []
    · rw [if_pos noneKept] at reassigned
      have noId : ∀ id ∈ calls.map (·.id), id = "" := fun id mem => by
        obtain ⟨call, inCalls, rfl⟩ := List.mem_map.1 mem
        simpa using List.filter_eq_nil_iff.1 noneKept call inCalls
      rw [filterOrphans_tools_nil noId tools shape.tools, filterOrphans,
        if_neg (by simp [reassigned]), if_neg (by simp [reassigned, assistant]), List.map_cons,
        dropEmptyToolCalls_dropEmptyToolCalls]
      exact ⟨_, rfl⟩
    · rw [if_neg noneKept] at reassigned
      have sameIds : ∀ id, id ≠ "" →
          (id ∈ calls.map (·.id) ↔ id ∈ (calls.filter (·.id ≠ "")).map (·.id)) := by
        intro id nonEmpty
        simp only [List.mem_map, List.mem_filter]
        constructor
        · rintro ⟨call, inCalls, rfl⟩; exact ⟨call, ⟨inCalls, by simpa using nonEmpty⟩, rfl⟩
        · rintro ⟨call, ⟨inCalls, -⟩, rfl⟩; exact ⟨call, inCalls, rfl⟩
      refine ⟨[], ?_⟩
      rw [List.append_nil, filterOrphans,
        if_pos ⟨by simp [reassigned, assistant], by simp [reassigned]⟩, List.map_cons,
        dropEmptyToolCalls_dropEmptyToolCalls, reassigned, Option.getD_some,
        filterOrphans_congr sameIds tools]

-----------------------------------------------------------------------------------------
-- Contexts
-----------------------------------------------------------------------------------------

/-- A context as a chat round finds it: messages whose calls the orphan filter has already
re-assigned, then at most the batch of one round. An assistant message further back that
loses its `tool_calls` to the re-assignment would let a later filter keep tool messages after
it that an earlier one dropped, in the middle of the conversation. -/
def Settled (ctx : Option ToolCallContext) : Prop :=
  ∀ c ∈ ctx, ∃ settled batch, c.messages = settled ++ batch ∧
    settled.map dropEmptyToolCalls = settled ∧ ToolBatch batch

theorem settled_conversation_append (ctx : Option ToolCallContext) {c : ToolCallContext}
    {batch : List Message} (shape : ToolBatch batch)
    (next : c.messages = conversation ctx ++ batch) :
    Settled (some c) := by
  intro _ mem
  obtain rfl := Option.mem_some_iff.1 mem
  refine ⟨_, batch, next, ?_, shape⟩
  rw [conversation, List.map_map]
  exact List.map_congr_left fun m _ => dropEmptyToolCalls_dropEmptyToolCalls m

/-- The filtered messages of a settled context begin those of the context a round leaves,
whatever batch the round appends. -/
theorem contextMessages_extends {ctx : Option ToolCallContext} (settled : Settled ctx)
    {c : ToolCallContext} {batch : List Message} (next : c.messages = conversation ctx ++ batch) :
    (ctx.map contextMessages).getD [] <+: contextMessages c := by
  cases ctx with
  | none => exact List.nil_prefix
  | some before =>
    obtain ⟨settledPart, last, split, fixed, shape⟩ := settled before rfl
    simp only [Option.map_some', Option.getD_some, contextMessages]
    rw [next, conversation, Option.map_some', Option.getD_some, split, List.map_append, fixed,
      List.append_assoc]
    refine filterOrphans_append_extends (fun valid => ?_) settledPart []
    refine (filterOrphans_afterFilter_batch shape valid).trans ?_
    simpa only [List.append_nil] using
      @filterOrphans_append_extends [] batch (fun _ => List.nil_prefix) (last.map dropEmptyToolCalls)
        valid

-----------------------------------------------------------------------------------------
-- Rounds
-----------------------------------------------------------------------------------------

/-- The arguments of a call without a schema or a format. -/
structure Unformatted (args : InferArgs) : Prop where
  noSchema : args.schema = none
  noFormat : truthy args.format = none

/-- The recursion keeps the caller's messages. -/
@[simp]
theorem recursionArgs_messages (args : InferArgs) (modelName : String) :
    (recursionArgs args modelName).messages = args.messages := by
  unfold recursionArgs; split <;> rfl

/-- The recursion of a call without a schema drops the format. -/
theorem Unformatted.recursion {args : InferArgs} (plain : Unformatted args) (modelName : String) :
    Unformatted (recursionArgs args modelName) := by
  have unstructured : isStructured args = false := by simp [isStructured, plain.noSchema]
  constructor <;> simp only [recursionArgs, unstructured] <;> rfl

/-- A chat reply hands on only the recursive call, whose context has one batch more. -/
theorem afterReply_call_batch {args : InferArgs} {ctx : Option ToolCallContext}
    {modelName : String} {results : Except InferFailure (List ToolCallResult)} {reply : Reply}
    {c : Call} (h : afterReply args ctx modelName results reply = .call c) :
    ∃ ctx', c = .infer (recursionArgs args modelName) (some ctx') ∧
      ∃ batch, ToolBatch batch ∧ ctx'.messages = (ctx.map (·.messages)).getD [] ++ batch := by
  unfold afterReply at h
  dsimp only at h
  repeat' split at h
  all_goals first
    | cases h
    | exact ⟨_, recurseOrStop_eq_call h, toolBatch_updateToolCallContext ctx (by rfl) (by rfl) _ _⟩

/-- A chat turn hands on only the recursive call, whose context is the filtered conversation
and one batch more. -/
theorem chatTurn_call_batch {world : RoundWorld} {args : InferArgs} {ctx : Option ToolCallContext}
    {config : AIModelConfig} {c : Call} (h : (chatTurn world args ctx config).next = .call c) :
    ∃ modelName ctx', c = .infer (recursionArgs args modelName) (some ctx') ∧
      ∃ batch, ToolBatch batch ∧ ctx'.messages = conversation ctx ++ batch := by
  unfold chatTurn at h
  dsimp only at h
  repeat' split at h
  all_goals first
    | cases h
    | obtain ⟨ctx', rfl, batch, shape, messages⟩ := afterReply_call_batch h
      exact ⟨_, ctx', rfl, batch, shape, by rw [messages]; cases ctx <;> rfl⟩

/-- A chat request of a call without a schema or a format carries the optimised caller
messages, then the context's filtered messages. -/
theorem Unformatted.chatTurn_messages {world : RoundWorld} {args : InferArgs}
    {ctx : Option ToolCallContext} {config : AIModelConfig} {r : ChatRequest}
    (plain : Unformatted args) (sent : (chatTurn world args ctx config).request = some (.chat r)) :
    ∃ optimized, optimizeInputs args.messages = .ok optimized ∧
      r.messages = optimized ++ (ctx.map contextMessages).getD [] := by
  obtain ⟨modelName, messages, built, rfl⟩ := chatTurn_request sent
  have unforced : truthy (outputPlan args config.provider modelName).forcedFormat = none := by
    rw [outputPlan_forcedFormat_of_noSchema plain.noSchema]; exact plain.noFormat
  exact messagesToPass_of_unforced unforced built

-----------------------------------------------------------------------------------------
-- Whole runs
-----------------------------------------------------------------------------------------

/-- The chat requests among a run's requests, in order. -/
def chatRequests (requests : List UpstreamRequest) : List ChatRequest :=
  requests.filterMap fun
    | .chat r => some r
    | .native _ => none

@[simp]
theorem chatRequests_andThen (round : Round) (rest : Run) :
    chatRequests (round.andThen rest).requests =
      chatRequests round.request.toList ++ chatRequests rest.requests :=
  List.filterMap_append _ _ _

/-- Once handed to the native transport, a run sends no chat request. -/
theorem chatRequests_native (collab : Collaborators) (world : Nat → RoundWorld) :
    ∀ fuel k args ctx, chatRequests (run collab world fuel k (.native args ctx)).requests = []
  | 0, _, _, _ => rfl
  | fuel + 1, k, args, ctx => by
    have own : chatRequests (geminiRound collab (world k) args ctx).request.toList = [] := by
      cases sent : (geminiRound collab (world k) args ctx).request with
      | none => rfl
      | some request =>
        cases request with
        | chat r => exact absurd sent geminiRound_request_not_chat
        | native _ => rfl
    cases next : (geminiRound collab (world k) args ctx).next with
    | finish result =>
      rw [run_succ_of_finish (c := .native args ctx) next, chatRequests_andThen]
      exact (List.append_nil _).trans own
    | call c =>
      rcases geminiRound_cases collab (world k) args ctx with ⟨r, finish⟩ | ⟨-, handsOn⟩
      · rw [finish] at next; cases next
      obtain ⟨ctx', rfl, -⟩ := handsOn c next
      rw [run_succ_of_call (c := .native args ctx) next, chatRequests_andThen]
      exact (congrArg (· ++ _) own).trans (chatRequests_native collab world fuel (k + 1) args _)


/-- A round sends at most one chat request. -/
theorem chatRequests_toList (o : Option UpstreamRequest) :
    chatRequests o.toList = [] ∨ ∃ r, o = some (.chat r) ∧ chatRequests o.toList = [r] := by
  rcases o with _ | _ | _ <;> simp [chatRequests]

/-- What one round of a call without a schema or a format, entered with a settled context,
does: its chat request, if any, carries the optimised caller messages and the context's
filtered messages; it hands on the native call, or the recursive call of the same messages,
still without a schema or a format, whose settled context begins with the filtered messages of
this one. -/
theorem Unformatted.inferRound {args : InferArgs} {ctx : Option ToolCallContext}
    (plain : Unformatted args) (collab : Collaborators) (world : RoundWorld)
    (settled : Settled ctx) :
    (∀ r, (inferRound collab world args ctx).request = some (.chat r) →
      ∃ optimized, optimizeInputs args.messages = .ok optimized ∧
        r.messages = optimized ++ (ctx.map contextMessages).getD []) ∧
    ∀ c, (inferRound collab world args ctx).next = .call c →
      c = .native args ctx ∨ ∃ args' ctx', c = .infer args' (some ctx') ∧ Unformatted args' ∧
        args'.messages = args.messages ∧ Settled (some ctx') ∧
        (ctx.map contextMessages).getD [] <+: contextMessages ctx' := by
  rcases inferRound_cases collab world args ctx with ⟨r, finish⟩ | ⟨-, handoff | ⟨config, turn⟩⟩
  · rw [finish]
    exact ⟨fun _ sent => (by cases sent), fun _ h => (by cases h)⟩
  · rw [handoff]
    exact ⟨fun _ sent => (by cases sent), fun c h => .inl (Next.call.inj h).symm⟩
  · rw [turn]
    refine ⟨fun r sent => plain.chatTurn_messages sent, fun c h => .inr ?_⟩
    obtain ⟨modelName, ctx', rfl, batch, shape, messages⟩ := chatTurn_call_batch h
    exact ⟨_, ctx', rfl, plain.recursion modelName, recursionArgs_messages .., 
      settled_conversation_append ctx shape messages, contextMessages_extends settled messages⟩

/-- For a call without a schema or a format, entered with a settled context, every chat request
of a run carries the optimised caller messages and then the context's filtered messages, and
each chat request begins with the messages of the one before, over any number of rounds and
the hand-off to the native transport. -/
theorem run_chatRequests_extend (collab : Collaborators) (world : Nat → RoundWorld) :
    ∀ fuel k args ctx, Unformatted args → Settled ctx →
      (∀ optimized, optimizeInputs args.messages = .ok optimized →
        ∀ r ∈ chatRequests (run collab world fuel k (.infer args ctx)).requests,
          optimized ++ (ctx.map contextMessages).getD [] <+: r.messages) ∧
      (chatRequests (run collab world fuel k (.infer args ctx)).requests).Chain'
        fun r r' => r.messages <+: r'.messages
  | 0, _, _, _, _, _ => ⟨fun _ _ _ mem => (by cases mem), List.chain'_nil⟩
  | fuel + 1, k, args, ctx, plain, settled => by
    obtain ⟨sends, handsOn⟩ := plain.inferRound collab (world k) settled
    have own := chatRequests_toList (Call.round collab (world k) (.infer args ctx)).request
    have ownFloor : ∀ optimized, optimizeInputs args.messages = .ok optimized →
        ∀ r ∈ chatRequests (Call.round collab (world k) (.infer args ctx)).request.toList,
          optimized ++ (ctx.map contextMessages).getD [] <+: r.messages := by
      intro optimized ok r mem
      rcases own with none | ⟨r', sent, single⟩
      · rw [none] at mem; cases mem
      rw [single, List.mem_singleton] at mem
      subst mem
      obtain ⟨optimized', ok', messages⟩ := sends r sent
      rw [ok'] at ok
      cases ok
      exact messages ▸ List.prefix_refl _
    have ownChain :
        (chatRequests (Call.round collab (world k) (.infer args ctx)).request.toList).Chain'
          fun r r' => r.messages <+: r'.messages := by
      rcases own with none | ⟨r, -, single⟩
      · rw [none]; exact List.chain'_nil
      · rw [single]; exact List.chain'_singleton r
    cases next : (Call.round collab (world k) (.infer args ctx)).next with
    | finish result =>
      rw [run_succ_of_finish (c := .infer args ctx) next, chatRequests_andThen]
      rw [show chatRequests ([] : List UpstreamRequest) = [] from rfl, List.append_nil]
      exact ⟨ownFloor, ownChain⟩
    | call c =>
      rw [run_succ_of_call (c := .infer args ctx) next, chatRequests_andThen]
      rcases handsOn c next with rfl | ⟨args', ctx', rfl, plain', sameMessages, settled', grows⟩
      · rw [chatRequests_native, List.append_nil]
        exact ⟨ownFloor, ownChain⟩
      obtain ⟨restFloor, restChain⟩ :=
        run_chatRequests_extend collab world fuel (k + 1) args' (some ctx') plain' settled'
      have laterFloor : ∀ optimized, optimizeInputs args.messages = .ok optimized →
          ∀ r ∈ chatRequests (run collab world fuel (k + 1) (.infer args' (some ctx'))).requests,
            optimized ++ (ctx.map contextMessages).getD [] <+: r.messages :=
        fun optimized ok r mem => ((List.prefix_append_right_inj optimized).2 grows).trans
          (restFloor optimized (sameMessages ▸ ok) r mem)
      refine ⟨fun optimized ok r mem => ?_, ?_⟩
      · rcases List.mem_append.1 mem with mine | later
        · exact ownFloor optimized ok r mine
        · exact laterFloor optimized ok r later
      · rcases own with none | ⟨r, sent, single⟩
        · rw [none]; exact restChain
        obtain ⟨optimized, ok, messages⟩ := sends r sent
        rw [single, List.singleton_append]
        exact List.chain'_cons'.2 ⟨fun r' head => messages ▸ laterFloor optimized ok r'
          (List.mem_of_mem_head? head), restChain⟩


theorem run_chatRequests_extend_completion :
    Unformatted completionArgs ∧ Settled none ∧
      (∀ optimized, optimizeInputs completionArgs.messages = .ok optimized →
        ∀ r ∈ chatRequests (run sampleCollaborators completionWorld 5 0
          (.infer completionArgs none)).requests, optimized ++ [] <+: r.messages) ∧
      (chatRequests (run sampleCollaborators completionWorld 5 0
        (.infer completionArgs none)).requests).Chain' fun r r' => r.messages <+: r'.messages :=
  ⟨⟨rfl, rfl⟩, nofun, run_chatRequests_extend sampleCollaborators completionWorld 5 0 completionArgs
    none ⟨rfl, rfl⟩ nofun⟩

end Shipit.Inference.Infer
