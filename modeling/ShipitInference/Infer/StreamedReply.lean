import ShipitInference.Infer.ContentSink
import ShipitInference.Streaming.IndexKeyed

/-! A streamed chat reply against the same reply sent whole: when a provider streams its tool
calls one after another, the accumulator gives back exactly the calls it sent.
-/

namespace Shipit.Inference.Infer

open Shipit.Inference.Js Shipit.Inference.Json Shipit.Inference.Streaming

-----------------------------------------------------------------------------------------
-- Tool calls streamed one after another
-----------------------------------------------------------------------------------------

/-- The fragments a provider streams for the tool call at index `i`: the id and the name first,
then the argument text in the given chunks. -/
def callFragments (i : Nat) (call : ToolCall) (chunks : List String) : List ToolCallDelta :=
  ⟨some i, some call.id, some call.name, none⟩ ::
    chunks.map fun chunk => ⟨some i, none, none, some chunk⟩

/-- The fragments of tool calls streamed one after another, from index `i` on. -/
def sequentialFragments : Nat → List (ToolCall × List String) → List ToolCallDelta
  | _, [] => []
  | i, (call, chunks) :: rest => callFragments i call chunks ++ sequentialFragments (i + 1) rest

/-- A tool call streamed in chunks that the accumulator puts back together: an id that is not
empty and not a synthetic `tool_` id, and argument chunks that join to the arguments with no
proper leading run of them that parses as JSON on its own. -/
structure Reassembles (streamed : ToolCall × List String) : Prop where
  idNonEmpty : streamed.1.id ≠ ""
  idFresh : ¬ "tool_".data <+: streamed.1.id.data
  joins : String.join streamed.2 = streamed.1.arguments
  incomplete : ∀ k < streamed.2.length, parsesAsJson (String.join (streamed.2.take k)) = false

theorem atIndex_callFragments (i j : Nat) (call : ToolCall) (chunks : List String) :
    atIndex (callFragments j call chunks) i =
      if i = j then callFragments j call chunks else [] := by
  by_cases same : i = j
  · subst same
    simp [atIndex, callFragments, List.filter_map, Function.comp_def]
  · simp [atIndex, callFragments, List.filter_map, Function.comp_def, Ne.symm same, same]

/-- A text that falls back to the empty string when falsy is the text itself. -/
theorem truthy_some_getD (s : String) : (truthy (some s)).getD "" = s := by
  by_cases blank : s = "" <;> simp [truthy, blank]

/-- Every fragment of a stream belongs to one of its calls. -/
theorem mem_sequentialFragments : ∀ {streamed : List (ToolCall × List String)} {i : Nat}
    {d : ToolCallDelta}, d ∈ sequentialFragments i streamed →
      ∃ k, ∃ below : k < streamed.length, d ∈ callFragments (i + k) streamed[k].1 streamed[k].2
  | [], _, _, mem => by cases mem
  | (call, chunks) :: rest, i, d, mem => by
    rcases List.mem_append.1 mem with first | later
    · exact ⟨0, by simp, first⟩
    · obtain ⟨k, below, found⟩ := mem_sequentialFragments later
      refine ⟨k + 1, by simpa using below, ?_⟩
      simpa [Nat.add_assoc, Nat.add_comm 1 k] using found

theorem index_of_mem_callFragments {j : Nat} {call : ToolCall} {chunks : List String}
    {d : ToolCallDelta} (mem : d ∈ callFragments j call chunks) : d.index = some j := by
  rcases List.mem_cons.1 mem with rfl | rest
  · rfl
  · obtain ⟨_, -, rfl⟩ := List.mem_map.1 rest; rfl

/-- Only the first fragment of a call carries an id, the call's. -/
theorem id_of_mem_callFragments {j : Nat} {call : ToolCall} {chunks : List String}
    {d : ToolCallDelta} (mem : d ∈ callFragments j call chunks) {x : String}
    (identified : truthy d.id = some x) : x = call.id := by
  rcases List.mem_cons.1 mem with rfl | rest
  · exact (Option.some.inj ((truthy_eq_some.1 identified).1)).symm
  · obtain ⟨_, -, rfl⟩ := List.mem_map.1 rest
    cases identified

theorem atIndex_sequentialFragments_below {streamed : List (ToolCall × List String)} {i j : Nat}
    (before : i < j) : atIndex (sequentialFragments j streamed) i = [] := by
  refine List.filter_eq_nil_iff.2 fun d mem => ?_
  obtain ⟨k, below, found⟩ := mem_sequentialFragments mem
  rw [index_of_mem_callFragments found]
  simp only [Option.some.injEq, decide_eq_true_eq]
  omega

theorem atIndex_sequentialFragments :
    ∀ (streamed : List (ToolCall × List String)) (i k : Nat) (below : k < streamed.length),
      atIndex (sequentialFragments i streamed) (i + k) =
        callFragments (i + k) streamed[k].1 streamed[k].2
  | [], _, _, below => absurd below (Nat.not_lt_zero _)
  | (call, chunks) :: rest, i, k, below => by
    rw [sequentialFragments, atIndex, List.filter_append, ← atIndex, ← atIndex,
      atIndex_callFragments]
    cases k with
    | zero =>
      simp only [Nat.add_zero, if_true]
      rw [atIndex_sequentialFragments_below (by omega), List.append_nil]
      rfl
    | succ k =>
      rw [if_neg (by omega), List.nil_append, show i + (k + 1) = i + 1 + k by omega]
      exact atIndex_sequentialFragments rest (i + 1) k (by simpa using below)


/-- The indices of calls streamed one after another from zero are those below their count. -/
theorem sortedIndices_sequentialFragments (streamed : List (ToolCall × List String)) :
    sortedIndices (sequentialFragments 0 streamed) = List.range streamed.length := by
  have members : ∀ a, a ∈ (sequentialFragments 0 streamed).filterMap (·.index) ↔
      a < streamed.length := by
    intro a
    simp only [List.mem_filterMap]
    constructor
    · rintro ⟨d, mem, indexed⟩
      obtain ⟨k, below, found⟩ := mem_sequentialFragments mem
      rw [index_of_mem_callFragments found, Nat.zero_add] at indexed
      cases indexed
      exact below
    · intro below
      have fragments := atIndex_sequentialFragments streamed 0 a below
      rw [Nat.zero_add] at fragments
      have first : ⟨some a, some streamed[a].1.id, some streamed[a].1.name, none⟩ ∈
          atIndex (sequentialFragments 0 streamed) a := by
        rw [fragments]
        exact List.mem_cons_self _ _
      exact ⟨_, (List.mem_filter.1 first).1, rfl⟩
  refine List.eq_of_perm_of_sorted ((List.perm_insertionSort _ _).trans ?_)
    (List.sorted_insertionSort _ _) (List.pairwise_le_range _)
  refine (List.perm_ext_iff_of_nodup (List.nodup_dedup _) (List.nodup_range _)).2 fun a => ?_
  rw [List.mem_dedup, members, List.mem_range]

/-- Ids and indices match one to one when the calls' ids are distinct. -/
theorem indicesMatchIds_sequentialFragments {streamed : List (ToolCall × List String)}
    (distinct : (streamed.map (·.1.id)).Nodup) :
    IndicesMatchIds (sequentialFragments 0 streamed) := by
  intro d mem d' mem' x identified x' identified'
  obtain ⟨k, below, found⟩ := mem_sequentialFragments mem
  obtain ⟨k', below', found'⟩ := mem_sequentialFragments mem'
  have same := @List.Nodup.getElem_inj_iff _ _ distinct k (by simpa using below) k'
    (by simpa using below')
  simp only [List.getElem_map] at same
  rw [index_of_mem_callFragments found, index_of_mem_callFragments found',
    id_of_mem_callFragments found identified, id_of_mem_callFragments found' identified', same]
  simp

/-- The argument chunks up to the first that completes a JSON text are all of them when no
proper leading run parses. -/
theorem argumentsUpToComplete_of_incomplete {chunks : List String}
    (incomplete : ∀ k < chunks.length, parsesAsJson (String.join (chunks.take k)) = false) :
    argumentsUpToComplete chunks = String.join chunks := by
  unfold argumentsUpToComplete
  cases found : (chunks.inits.map String.join).find? parsesAsJson with
  | none => rfl
  | some text =>
    obtain ⟨lead, leading, rfl⟩ := List.mem_map.1 (List.mem_of_find?_eq_some found)
    have parses := List.find?_some found
    have leads := (List.mem_inits _ _).1 leading
    by_cases shorter : lead.length < chunks.length
    · rw [List.prefix_iff_eq_take.1 leads, incomplete _ shorter] at parses
      cases parses
    · rw [leads.eq_of_length (le_antisymm leads.length_le (not_lt.1 shorter))]
      rfl

/-- The accumulator puts each call streamed one after another back together. -/
theorem indexedRequest_sequentialFragments (draws : Nat → SynthDraw)
    {streamed : List (ToolCall × List String)} (reassembles : ∀ s ∈ streamed, Reassembles s)
    (k : Nat) (below : k < streamed.length) :
    indexedRequest draws (sequentialFragments 0 streamed) k = streamed[k].1 := by
  have call := reassembles _ (List.getElem_mem below)
  have fragments := atIndex_sequentialFragments streamed 0 k below
  rw [Nat.zero_add] at fragments
  have idFound : truthy (some streamed[k].1.id) = some streamed[k].1.id :=
    truthy_eq_some.2 ⟨rfl, call.idNonEmpty⟩
  have chunks : argumentChunks (callFragments k streamed[k].1 streamed[k].2) = streamed[k].2 := by
    simp [argumentChunks, callFragments, List.filterMap_map, Function.comp_def]
  have name : lastNonEmptyName (callFragments k streamed[k].1 streamed[k].2) =
      streamed[k].1.name := by
    have noNames : (streamed[k].2.map fun chunk => (⟨some k, none, none, some chunk⟩ :
        ToolCallDelta)).filterMap (fun d => truthy d.name) = [] :=
      List.filterMap_eq_nil_iff.2 fun d mem => by obtain ⟨_, -, rfl⟩ := List.mem_map.1 mem; rfl
    unfold lastNonEmptyName callFragments
    rw [List.filterMap_cons, noNames]
    conv_rhs => rw [← truthy_some_getD streamed[k].1.name]
    cases truthy (some streamed[k].1.name) <;> rfl
  unfold indexedRequest idSeenAt
  rw [fragments, chunks, name, argumentsUpToComplete_of_incomplete call.incomplete, call.joins]
  simp [callFragments, List.findSome?_cons, idFound]


/-- The tool calls `infer` keeps from calls streamed one after another are the calls that have
a name, in order. -/
theorem streamedToolCalls_sequentialFragments (draws : Nat → SynthDraw)
    {streamed : List (ToolCall × List String)} (reassembles : ∀ s ∈ streamed, Reassembles s)
    (distinct : (streamed.map (·.1.id)).Nodup) :
    streamedToolCalls draws (sequentialFragments 0 streamed) =
      (streamed.map (·.1)).filter (·.hasName) := by
  have indexed : ∀ d ∈ sequentialFragments 0 streamed, d.index ≠ none := fun d mem => by
    obtain ⟨k, below, found⟩ := mem_sequentialFragments mem
    rw [index_of_mem_callFragments found]
    exact Option.some_ne_none _
  have fresh : SyntheticIdsFresh draws (sequentialFragments 0 streamed) :=
    SyntheticIdsFresh.of_unprefixed fun d mem x identified => by
      obtain ⟨k, below, found⟩ := mem_sequentialFragments mem
      rw [id_of_mem_callFragments found identified]
      exact (reassembles _ (List.getElem_mem below)).idFresh
  have requests : (sortedIndices (sequentialFragments 0 streamed)).map
      (indexedRequest draws (sequentialFragments 0 streamed)) = streamed.map (·.1) := by
    rw [sortedIndices_sequentialFragments]
    refine List.ext_getElem (by simp) fun k inRange _ => ?_
    simp only [List.getElem_map, List.getElem_range]
    exact indexedRequest_sequentialFragments draws reassembles k (by simpa using inRange)
  rw [streamedToolCalls, (indexedState_stream draws _ indexed
    (indicesMatchIds_sequentialFragments distinct) fresh).assemble, requests]

-----------------------------------------------------------------------------------------
-- The streamed and the whole reply
-----------------------------------------------------------------------------------------

/-- Read with a stream config, a streamed reply gives what the same reply sent whole gives
without one: the content is the text of its deltas, and the tool calls, streamed one after
another with their index, are put back together and kept or dropped as the whole reply's. -/
theorem readReply_streamed_agrees (config : StreamConfig) (draws : Nat → SynthDraw)
    (events : List StreamEvent) (streamed : List (ToolCall × List String))
    (fragments : streamFragments events = sequentialFragments 0 streamed)
    (reassembles : ∀ s ∈ streamed, Reassembles s) (distinct : (streamed.map (·.1.id)).Nodup) :
    ∃ r r', readReply (some config) draws (.stream events) = .ok r ∧
      readReply none draws (.completion (some ⟨some (String.join (events.map eventText)),
        some (streamed.map (·.1))⟩)) = .ok r' ∧
      r.content = r'.content ∧ r.toolCalls = r'.toolCalls := by
  refine ⟨_, _, rfl, rfl, ?_, ?_⟩
  · show (sinkState config.chunk_size events).1 =
      (truthy (some (String.join (events.map eventText)))).getD ""
    rw [truthy_some_getD, sinkState_content]
  · simp only [fragments, streamedToolCalls_sequentialFragments draws reassembles distinct,
      Option.some_bind, Option.getD_some]


/-- A reply that says it looks something up and calls `search`, whose arguments come in two
chunks, and `finish`. -/
def searchThenFinish : List (ToolCall × List String) :=
  [(⟨"call_a", "search", "\x7b\"q\":\"x\"\x7d"⟩, ["\x7b\"q\":", "\"x\"\x7d"]),
    (⟨"call_b", "finish", "\x7b\x7d"⟩, ["\x7b\x7d"])]

/-- The stream of `searchThenFinish`: text deltas, and fragments that share events. -/
def searchThenFinishEvents : List StreamEvent :=
  [⟨some ⟨some "Looking ", none⟩, none⟩,
    ⟨some ⟨some "it up.", some [⟨some 0, some "call_a", some "search", none⟩]⟩, none⟩,
    ⟨some ⟨none, some [⟨some 0, none, none, some "\x7b\"q\":"⟩]⟩, none⟩,
    ⟨some ⟨none, some [⟨some 0, none, none, some "\"x\"\x7d"⟩,
      ⟨some 1, some "call_b", some "finish", none⟩]⟩, none⟩,
    ⟨some ⟨none, some [⟨some 1, none, none, some "\x7b\x7d"⟩]⟩, some "tool_calls"⟩]

theorem readReply_streamed_agrees_searchThenFinish :
    streamFragments searchThenFinishEvents = sequentialFragments 0 searchThenFinish ∧
      (∀ s ∈ searchThenFinish, Reassembles s) ∧ (searchThenFinish.map (·.1.id)).Nodup ∧
      ∃ r r', readReply (some ⟨JsNumber.ofNat 8⟩) (fun k => ⟨k, "r"⟩)
          (.stream searchThenFinishEvents) = .ok r ∧
        readReply none (fun k => ⟨k, "r"⟩) (.completion (some
          ⟨some (String.join (searchThenFinishEvents.map eventText)),
            some (searchThenFinish.map (·.1))⟩)) = .ok r' ∧
        r.content = r'.content ∧ r.toolCalls = r'.toolCalls := by
  have reassembles : ∀ s ∈ searchThenFinish, Reassembles s := by
    intro s mem
    simp only [searchThenFinish, List.mem_cons, List.mem_singleton, List.not_mem_nil,
      or_false] at mem
    rcases mem with rfl | rfl <;> exact ⟨by decide, by decide, rfl, by decide⟩
  exact ⟨rfl, reassembles, by decide, readReply_streamed_agrees _ _ _ _ rfl reassembles
    (by decide)⟩

end Shipit.Inference.Infer
