import Mathlib.Data.List.Dedup
import Mathlib.Data.List.Sort
import ShipitInference.Streaming.Step

/-! Streams in the OpenAI shape: every fragment carries an index, and ids and indices match
one to one (an id may arrive late, or never). The accumulator then keeps one entry per
index, and assembly returns them in ascending index order.
-/

namespace Shipit.Inference.Streaming

open Shipit.Inference.Js Accumulator

-----------------------------------------------------------------------------------------
-- What the stream says about one index
-----------------------------------------------------------------------------------------

/-- The fragments at one index, in stream order. -/
def atIndex (ds : List ToolCallDelta) (i : Nat) : List ToolCallDelta :=
  ds.filter (·.index = some i)

/-- The id seen at an index: its first truthy id, else the synthetic id drawn when the index
first appeared.
-/
def idSeenAt (draws : Nat → SynthDraw) (ds : List ToolCallDelta) (i : Nat) : String :=
  ((atIndex ds i).findSome? fun d => truthy d.id).getD
    (synthIdForIndex (draws (ds.findIdx (·.index = some i))) i)

/-- The request a stream determines for one index. -/
def indexedRequest (draws : Nat → SynthDraw) (ds : List ToolCallDelta) (i : Nat) : ToolCall :=
  ⟨idSeenAt draws ds i, lastNonEmptyName (atIndex ds i),
    argumentsUpToComplete (argumentChunks (atIndex ds i))⟩

/-- The distinct indices of a stream, ascending. -/
def sortedIndices (ds : List ToolCallDelta) : List Nat :=
  (ds.filterMap (·.index)).dedup.insertionSort (· ≤ ·)

/-- No id appears at two indices and no index carries two ids. -/
def IndicesMatchIds (ds : List ToolCallDelta) : Prop :=
  ∀ d ∈ ds, ∀ d' ∈ ds, ∀ x ∈ truthy d.id, ∀ x' ∈ truthy d'.id, (d.index = d'.index ↔ x = x')

instance : DecidablePred IndicesMatchIds := fun ds => by
  unfold IndicesMatchIds; infer_instance

/-- No id the provider sends equals an id `synthIdForIndex` draws. -/
def SyntheticIdsFresh (draws : Nat → SynthDraw) (ds : List ToolCallDelta) : Prop :=
  ∀ k i, ∀ d ∈ ds, truthy d.id ≠ some (synthIdForIndex (draws k) i)

/-- Every synthetic id starts with \"tool_\". -/
theorem synthIdForIndex_startsWithTool (draw : SynthDraw) (i : Nat) :
    "tool_".data <+: (synthIdForIndex draw i).data := by
  simp only [synthIdForIndex, String.data_append, List.append_assoc]
  exact List.prefix_append _ _

/-- Provider ids that do not start with \"tool_\" are fresh for every draw. -/
theorem SyntheticIdsFresh.of_unprefixed {draws : Nat → SynthDraw} {ds : List ToolCallDelta}
    (h : ∀ d ∈ ds, ∀ x ∈ truthy d.id, ¬ "tool_".data <+: x.data) : SyntheticIdsFresh draws ds :=
  fun k i d member same => h d member _ same (synthIdForIndex_startsWithTool (draws k) i)

theorem IndicesMatchIds.of_append {P : List ToolCallDelta} {d : ToolCallDelta}
    (h : IndicesMatchIds (P ++ [d])) : IndicesMatchIds P :=
  fun a ha b hb => h a (List.mem_append_left _ ha) b (List.mem_append_left _ hb)

theorem SyntheticIdsFresh.of_append {draws : Nat → SynthDraw} {P : List ToolCallDelta}
    {d : ToolCallDelta} (h : SyntheticIdsFresh draws (P ++ [d])) : SyntheticIdsFresh draws P :=
  fun k i a ha => h k i a (List.mem_append_left _ ha)

/-- The call text the fragments at an index accumulate, with the id seen there. -/
def accumulatedAt (draws : Nat → SynthDraw) (ds : List ToolCallDelta) (i : Nat) : ToolCall :=
  let e := (atIndex ds i).foldl ToolAccumulatorEntry.absorb default
  ⟨idSeenAt draws ds i, e.name, e.arguments⟩

theorem accumulatedAt_eq_indexedRequest (draws : Nat → SynthDraw) (ds : List ToolCallDelta)
    (i : Nat) : accumulatedAt draws ds i = indexedRequest draws ds i := by
  simp only [accumulatedAt, indexedRequest,
    foldl_absorb_name_of_blank (atIndex ds i) default rfl,
    foldl_absorb_arguments (atIndex ds i) default rfl]

-----------------------------------------------------------------------------------------
-- One more fragment
-----------------------------------------------------------------------------------------

variable {draws : Nat → SynthDraw} {P : List ToolCallDelta} {d : ToolCallDelta} {i j : Nat}

theorem atIndex_append_singleton :
    atIndex (P ++ [d]) j = atIndex P j ++ if d.index = some j then [d] else [] := by
  by_cases h : d.index = some j <;> simp [atIndex, List.filter_append, h]

theorem atIndex_append_of_ne (h : d.index ≠ some j) : atIndex (P ++ [d]) j = atIndex P j := by
  simp [atIndex_append_singleton, h]

theorem atIndex_append_of_eq (h : d.index = some j) : atIndex (P ++ [d]) j = atIndex P j ++ [d] := by
  simp [atIndex_append_singleton, h]

/-- An index seen in the prefix keeps its first position. -/
theorem findIdx_append_of_seen (seen : ∃ d' ∈ P, d'.index = some j) :
    (P ++ [d]).findIdx (·.index = some j) = P.findIdx (·.index = some j) := by
  have lt : P.findIdx (fun d' => decide (d'.index = some j)) < P.length :=
    List.findIdx_lt_length_of_exists (by simpa only [decide_eq_true_eq] using seen)
  simp [List.findIdx_append, lt]

/-- An index that first appears with the new fragment is first seen at its position. -/
theorem findIdx_append_of_unseen (unseen : ∀ d' ∈ P, d'.index ≠ some j) (h : d.index = some j) :
    (P ++ [d]).findIdx (·.index = some j) = P.length := by
  have none : P.findIdx (·.index = some j) = P.length :=
    List.findIdx_eq_length.mpr (by simpa only [decide_eq_false_iff_not] using unseen)
  simp [List.findIdx_append, none, List.findIdx_cons, h]

theorem accumulatedAt_append_of_ne (seen : ∃ d' ∈ P, d'.index = some j)
    (h : d.index ≠ some j) : accumulatedAt draws (P ++ [d]) j = accumulatedAt draws P j := by
  simp [accumulatedAt, idSeenAt, atIndex_append_of_ne h, findIdx_append_of_seen seen]

theorem accumulatedAt_append_of_eq (h : d.index = some j) :
    accumulatedAt draws (P ++ [d]) j =
      let e := (atIndex P j).foldl ToolAccumulatorEntry.absorb default
      ⟨idSeenAt draws (P ++ [d]) j, (e.absorb d).name, (e.absorb d).arguments⟩ := by
  simp [accumulatedAt, atIndex_append_of_eq h]

-----------------------------------------------------------------------------------------
-- The invariant
-----------------------------------------------------------------------------------------

/-- The accumulator after a prefix `P` of an indexed stream. `byIndex` inverts the entries'
indices; each entry stands for an index of `P` and holds what `P` accumulated there; `byId`
points at entries by their current id and knows every id `P` sent.
-/
structure IndexedState (draws : Nat → SynthDraw) (P : List ToolCallDelta) (acc : Accumulator) :
    Prop where
  byIndex_iff : ∀ i r, acc.byIndex.get? i = some r ↔
    r < acc.heap.length ∧ (acc.entry r).index = some i
  entry_seen : ∀ r < acc.heap.length, ∃ i, (acc.entry r).index = some i ∧ ∃ d ∈ P, d.index = some i
  seen_entry : ∀ d ∈ P, ∀ i, d.index = some i → ∃ r, acc.byIndex.get? i = some r
  entry_call : ∀ r < acc.heap.length, ∀ i, (acc.entry r).index = some i →
    (acc.entry r).toToolCall = accumulatedAt draws P i
  byId_sound : ∀ x r, acc.byId.get? x = some r → r < acc.heap.length ∧ (acc.entry r).id = x
  byId_seen : ∀ d ∈ P, ∀ x, truthy d.id = some x → ∃ r, acc.byId.get? x = some r

theorem indexedState_empty (draws : Nat → SynthDraw) : IndexedState draws [] .empty where
  byIndex_iff i r := by simp [Accumulator.empty]
  entry_seen r h := by simp [Accumulator.empty] at h
  seen_entry d h := by simp at h
  entry_call r h := by simp [Accumulator.empty] at h
  byId_sound x r h := by simp [Accumulator.empty] at h
  byId_seen d h := by simp at h

namespace IndexedState

variable {acc acc' : Accumulator} {r : Nat} {x : String}

theorem entry_unique (st : IndexedState draws P acc) {r r' : Nat} (hr : r < acc.heap.length)
    (hr' : r' < acc.heap.length) (h : (acc.entry r).index = some i)
    (h' : (acc.entry r').index = some i) : r = r' := by
  have a := (st.byIndex_iff i r).mpr ⟨hr, h⟩
  have b := (st.byIndex_iff i r').mpr ⟨hr', h'⟩
  exact Option.some.inj (a.symm.trans b)

theorem seen_of_entry (st : IndexedState draws P acc) (hr : r < acc.heap.length)
    (h : (acc.entry r).index = some j) : ∃ d' ∈ P, d'.index = some j := by
  obtain ⟨k, hk, seen⟩ := st.entry_seen r hr
  rw [h] at hk; cases hk; exact seen

/-- An id the new fragment sends names its own index: a provider id seen at index `j` sits at
the new fragment's index, and a synthetic id cannot equal a provider id.
-/
theorem index_of_idSeenAt (matching : IndicesMatchIds (P ++ [d]))
    (fresh : SyntheticIdsFresh draws (P ++ [d])) (hd : d.index = some i)
    (hx : truthy d.id = some x) (seenAs : idSeenAt draws P j = x) :
    j = i ∧ (atIndex P j).findSome? (fun d => truthy d.id) = some x := by
  unfold idSeenAt at seenAs
  cases first : (atIndex P j).findSome? (fun d => truthy d.id) with
  | none =>
      rw [first, Option.getD_none] at seenAs
      exact absurd (seenAs ▸ hx) (fresh _ _ d (by simp))
  | some y =>
      rw [first, Option.getD_some] at seenAs
      subst seenAs
      obtain ⟨d', member, hy⟩ := List.exists_of_findSome?_eq_some first
      obtain ⟨inP, at_j⟩ := List.mem_filter.mp member
      have same := (matching d (by simp) d' (List.mem_append_left _ inP) _ hx _ hy).mpr rfl
      rw [hd] at same
      exact ⟨(Option.some.inj (same.trans (by simpa using at_j))).symm, rfl⟩

/-- Absorbing the new fragment into the entry of its index, with the entry's id and the
`byId` map as each case leaves them.
-/
theorem absorb_into (st : IndexedState draws P acc) (hr : r < acc.heap.length)
    (hi : (acc.entry r).index = some i) (hd : d.index = some i) (newId : String)
    (length : acc'.heap.length = acc.heap.length) (byIndex : acc'.byIndex = acc.byIndex)
    (entries : ∀ r', acc'.entry r' =
      if r' = r then ({ acc.entry r with id := newId }).absorb d else acc.entry r')
    (newIdOk : newId = idSeenAt draws (P ++ [d]) i)
    (byIdSound : ∀ y r', acc'.byId.get? y = some r' → r' < acc'.heap.length ∧
      (acc'.entry r').id = y)
    (byIdSeen : ∀ d' ∈ P ++ [d], ∀ y, truthy d'.id = some y → ∃ r', acc'.byId.get? y = some r') :
    IndexedState draws (P ++ [d]) acc' where
  byIndex_iff k r' := by
    rw [byIndex, st.byIndex_iff, length, entries]
    by_cases same : r' = r
    · subst same; simp [hi]
    · simp [same]
  entry_seen r' hr' := by
    rw [length] at hr'
    obtain ⟨k, hk, d', member, at_k⟩ := st.entry_seen r' hr'
    refine ⟨k, ?_, d', List.mem_append_left _ member, at_k⟩
    rw [entries]
    split
    next same => subst same; exact hk
    next => exact hk
  seen_entry d' member k hk := by
    rw [byIndex]
    rcases List.mem_append.mp member with inP | isNew
    · exact st.seen_entry d' inP k hk
    · rw [List.mem_singleton.mp isNew, hd] at hk
      cases hk
      exact ⟨r, (st.byIndex_iff i r).mpr ⟨hr, hi⟩⟩
  entry_call r' hr' k hk := by
    rw [length] at hr'
    rw [entries] at hk ⊢
    by_cases same : r' = r
    · subst same
      simp only [if_true, ToolAccumulatorEntry.absorb_index] at hk
      rw [hi] at hk; cases hk
      have old := st.entry_call r' hr i hi
      simp only [ToolAccumulatorEntry.toToolCall, accumulatedAt, ToolCall.mk.injEq] at old
      rw [accumulatedAt_append_of_eq hd, ← newIdOk]
      simp [ToolAccumulatorEntry.toToolCall, ToolAccumulatorEntry.absorb, old.2.1, old.2.2]
    · simp only [same, if_false] at hk ⊢
      have different : d.index ≠ some k := by
        rw [hd]; intro h; cases h
        exact same (st.entry_unique hr' hr hk hi)
      rw [accumulatedAt_append_of_ne (st.seen_of_entry hr' hk) different]
      exact st.entry_call r' hr' k hk
  byId_sound := byIdSound
  byId_seen := byIdSeen

/-- A fragment whose id `byId` knows goes to that id's entry, which is its index's entry. -/
theorem step_by_id (st : IndexedState draws P acc) (matching : IndicesMatchIds (P ++ [d]))
    (fresh : SyntheticIdsFresh draws (P ++ [d])) (hd : d.index = some i)
    (hx : truthy d.id = some x) (found : acc.byId.get? x = some r) :
    IndexedState draws (P ++ [d]) (accumulateToolCallDelta (draws P.length) acc d) := by
  obtain ⟨hr, hid⟩ := st.byId_sound x r found
  obtain ⟨j, hj, -⟩ := st.entry_seen r hr
  have seenAs : idSeenAt draws P j = x := by
    simpa [ToolAccumulatorEntry.toToolCall, accumulatedAt, hid] using
      (congrArg ToolCall.id (st.entry_call r hr j hj)).symm
  obtain ⟨rfl, first⟩ := index_of_idSeenAt matching fresh hd hx seenAs
  have keep : ({ acc.entry r with id := x } : ToolAccumulatorEntry) = acc.entry r := by
    rw [← hid]
  rw [accumulateToolCallDelta_of_found (findEntry_of_id hx found), rekeyEntry_of_same hx hid,
    registerIndex_of_registered (by simp [hj])]
  refine st.absorb_into hr hj hd x length_update rfl ?_ ?_ ?_ ?_
  · intro r'; rw [entry_update hr, keep]
  · simp [idSeenAt, atIndex_append_of_eq hd, List.findSome?_append, first]
  · intro y r' hy
    obtain ⟨h1, h2⟩ := st.byId_sound y r' hy
    refine ⟨by simpa using h1, ?_⟩
    rw [entry_update hr]
    split
    next same => subst same; exact h2
    next => exact h2
  · intro d' member y hy
    rcases List.mem_append.mp member with inP | isNew
    · simpa using st.byId_seen d' inP y hy
    · rw [List.mem_singleton.mp isNew, hx] at hy; cases hy; exact ⟨r, found⟩

/-- A fragment without id goes to its index's entry and changes no id. -/
theorem step_by_index_anonymous (st : IndexedState draws P acc) (hd : d.index = some i)
    (hx : truthy d.id = none) (found : acc.byIndex.get? i = some r) :
    IndexedState draws (P ++ [d]) (accumulateToolCallDelta (draws P.length) acc d) := by
  obtain ⟨hr, hi⟩ := (st.byIndex_iff i r).mp found
  have seen := st.seen_of_entry hr hi
  rw [accumulateToolCallDelta_of_found (by rw [findEntry_of_index (by simp [hx]) hd, found]),
    rekeyEntry_of_none hx, registerIndex_of_registered (by simp [hi])]
  refine st.absorb_into hr hi hd (acc.entry r).id length_update rfl ?_ ?_ ?_ ?_
  · intro r'; rw [entry_update hr]
  · have old := congrArg ToolCall.id (st.entry_call r hr i hi)
    simp only [ToolAccumulatorEntry.toToolCall, accumulatedAt] at old
    simp [old, idSeenAt, atIndex_append_of_eq hd, List.findSome?_append, hx,
      findIdx_append_of_seen seen]
  · intro y r' hy
    obtain ⟨h1, h2⟩ := st.byId_sound y r' hy
    refine ⟨by simpa using h1, ?_⟩
    rw [entry_update hr]
    split
    next same => subst same; exact h2
    next => exact h2
  · intro d' member y hy
    rcases List.mem_append.mp member with inP | isNew
    · simpa using st.byId_seen d' inP y hy
    · rw [List.mem_singleton.mp isNew] at hy; simp [hx] at hy

/-- A fragment that brings its index's id for the first time goes to that index's entry and
moves it from its synthetic id to the new one.
-/
theorem step_by_index_rekey (st : IndexedState draws P acc)
    (matching : IndicesMatchIds (P ++ [d])) (fresh : SyntheticIdsFresh draws (P ++ [d]))
    (hd : d.index = some i) (hx : truthy d.id = some x) (missed : acc.byId.get? x = none)
    (found : acc.byIndex.get? i = some r) :
    IndexedState draws (P ++ [d]) (accumulateToolCallDelta (draws P.length) acc d) := by
  obtain ⟨hr, hi⟩ := (st.byIndex_iff i r).mp found
  have seen := st.seen_of_entry hr hi
  have firstNone : (atIndex P i).findSome? (fun d => truthy d.id) = none := by
    cases first : (atIndex P i).findSome? (fun d => truthy d.id) with
    | none => rfl
    | some y =>
        obtain ⟨d', member, hy⟩ := List.exists_of_findSome?_eq_some first
        obtain ⟨inP, at_i⟩ := List.mem_filter.mp member
        have same : y = x := (matching d' (List.mem_append_left _ inP) d (by simp) _ hy _ hx).mp
          (by rw [hd]; simpa using at_i)
        subst same
        obtain ⟨r', hr'⟩ := st.byId_seen d' inP y hy
        simp [missed] at hr'
  have oldId : (acc.entry r).id = synthIdForIndex (draws (P.findIdx (·.index = some i))) i := by
    have old := congrArg ToolCall.id (st.entry_call r hr i hi)
    simpa [ToolAccumulatorEntry.toToolCall, accumulatedAt, idSeenAt, firstNone] using old
  have ne : (acc.entry r).id ≠ x := by
    rw [oldId]; intro h; exact fresh _ _ d (by simp) (h ▸ hx)
  have missedAll : ∀ y, truthy d.id = some y → acc.byId.get? y = none := by
    intro y hy; rw [hx] at hy; cases hy; exact missed
  rw [accumulateToolCallDelta_of_found (by rw [findEntry_of_index missedAll hd, found]),
    rekeyEntry_of_ne hx ne, registerIndex_of_registered (by simp [hr, hi])]
  have entries := entry_update_update (f := fun e => { e with id := x }) (g := (·.absorb d)) hr
  refine st.absorb_into hr hi hd x (by simp) rfl ?_ ?_ ?_ ?_
  · intro r'; rw [withById_update, withById_entry, entries]
  · simp [idSeenAt, atIndex_append_of_eq hd, List.findSome?_append, firstNone, hx]
  · intro y r' hy
    simp only [withById_update, withById_byId, JsMap.get?_set, JsMap.get?_delete] at hy
    rw [withById_update, withById_entry, entries, withById_heap, length_update, length_update]
    by_cases hyx : y = x
    · subst hyx; simp only [if_true, Option.some.injEq] at hy; subst hy; simpa using hr
    · by_cases hyo : y = (acc.entry r).id
      · simp [hyo] at hy; exact absurd hy.1 ne
      · simp only [hyx, hyo, if_false] at hy
        obtain ⟨h1, h2⟩ := st.byId_sound y r' hy
        have : r' ≠ r := by rintro rfl; exact hyo h2.symm
        simp [this, h1, h2]
  · intro d' member y hy
    simp only [withById_update, withById_byId, JsMap.get?_set, JsMap.get?_delete]
    by_cases hyx : y = x
    · simp [hyx]
    · simp only [hyx, if_false]
      rcases List.mem_append.mp member with inP | isNew
      · have hyo : y ≠ (acc.entry r).id := by
          rw [oldId]; intro h; exact fresh _ _ d' (by simp [inP]) (h ▸ hy)
        simpa [hyo] using st.byId_seen d' inP y hy
      · rw [List.mem_singleton.mp isNew, hx] at hy; cases hy; exact absurd rfl hyx

/-- A fragment at an index not seen before creates that index's entry. -/
theorem step_create (st : IndexedState draws P acc) (hd : d.index = some i)
    (missedAll : ∀ y, truthy d.id = some y → acc.byId.get? y = none)
    (missing : acc.byIndex.get? i = none) :
    IndexedState draws (P ++ [d]) (accumulateToolCallDelta (draws P.length) acc d) := by
  have unseen : ∀ d' ∈ P, d'.index ≠ some i := by
    intro d' member h
    obtain ⟨r, hr⟩ := st.seen_entry d' member i h
    simp [missing] at hr
  have noneAt : atIndex P i = [] :=
    List.filter_eq_nil_iff.mpr (by simpa only [decide_eq_true_eq] using unseen)
  have created : (createEntry (draws P.length) acc d).1.entry acc.heap.length =
      newEntry (draws P.length) acc d := entry_createEntry_self
  have rekeyed : rekeyEntry (createEntry (draws P.length) acc d).1 acc.heap.length d =
      (createEntry (draws P.length) acc d).1 := by
    cases hx : truthy d.id with
    | none => exact rekeyEntry_of_none hx
    | some x => exact rekeyEntry_of_same hx (by simp [created, newEntry, provisionalId, hx])
  rw [accumulateToolCallDelta_of_missing (by rw [findEntry_of_index missedAll hd, missing]),
    rekeyed, registerIndex_of_registered (by simp [created, newEntry, hd])]
  constructor
  · simp only [byIndex_update, byIndex_createEntry_of_some hd, length_update, length_createEntry]
    refine JsMap.inverts_set (fun k r' => ?_) missing (fun k => ?_)
    · rw [st.byIndex_iff]; exact and_congr_right fun lt => by rw [entry_created_of_lt lt]
    · simp [created, newEntry, hd, eq_comm]
  · intro r' bound
    rw [length_update, length_createEntry] at bound
    rcases Nat.lt_succ_iff_lt_or_eq.mp bound with lt | rfl
    · obtain ⟨k, hk, d', member, at_k⟩ := st.entry_seen r' lt
      exact ⟨k, by rw [entry_created_of_lt lt]; exact hk, d', List.mem_append_left _ member, at_k⟩
    · exact ⟨i, by simp [created, newEntry, hd], d, by simp, hd⟩
  · intro d' member k hk
    simp only [byIndex_update, byIndex_createEntry_of_some hd, JsMap.get?_set]
    by_cases hki : k = i
    · simp [hki]
    · simp only [hki, if_false]
      rcases List.mem_append.mp member with inP | isNew
      · exact st.seen_entry d' inP k hk
      · rw [List.mem_singleton.mp isNew, hd] at hk; cases hk; exact absurd rfl hki
  · intro r' bound k hk
    rw [length_update, length_createEntry] at bound
    rcases Nat.lt_succ_iff_lt_or_eq.mp bound with lt | rfl
    · rw [entry_created_of_lt lt] at hk ⊢
      obtain ⟨d', inP, at_k⟩ := st.seen_of_entry lt hk
      have different : d.index ≠ some k := by
        rw [hd]; intro h; cases h
        exact unseen d' inP at_k
      rw [accumulatedAt_append_of_ne ⟨d', inP, at_k⟩ different]
      exact st.entry_call r' lt k hk
    · rw [entry_created_self, ToolAccumulatorEntry.absorb_index] at hk
      simp only [newEntry, hd, Option.some.injEq] at hk
      subst hk
      rw [entry_created_self]
      simp [ToolAccumulatorEntry.toToolCall, accumulatedAt, idSeenAt, atIndex_append_of_eq hd,
        noneAt, findIdx_append_of_unseen unseen hd, newEntry, provisionalId,
        ToolAccumulatorEntry.absorb, hd]
      refine ⟨?_, rfl, rfl⟩
      cases h : truthy d.id <;> simp [List.findSome?, h]
  · intro y r' hy
    simp only [byId_update, byId_createEntry, JsMap.get?_set] at hy
    rw [length_update, length_createEntry]
    by_cases hyp : y = provisionalId (draws P.length) acc d
    · simp only [hyp, if_true, Option.some.injEq] at hy
      subst hy; simp [hyp, created, newEntry]
    · simp only [hyp, if_false] at hy
      obtain ⟨lt, hid⟩ := st.byId_sound y r' hy
      exact ⟨by omega, by rw [entry_created_of_lt lt]; exact hid⟩
  · intro d' member y hy
    simp only [byId_update, byId_createEntry, JsMap.get?_set]
    by_cases hyp : y = provisionalId (draws P.length) acc d
    · simp [hyp]
    · simp only [hyp, if_false]
      rcases List.mem_append.mp member with inP | isNew
      · exact st.byId_seen d' inP y hy
      · rw [List.mem_singleton.mp isNew] at hy
        exact absurd (by simp [provisionalId, hy]) hyp

/-- One fragment of an indexed, one-to-one stream keeps the invariant. -/
theorem step (st : IndexedState draws P acc) (matching : IndicesMatchIds (P ++ [d]))
    (fresh : SyntheticIdsFresh draws (P ++ [d])) (hd : d.index = some i) :
    IndexedState draws (P ++ [d]) (accumulateToolCallDelta (draws P.length) acc d) := by
  by_cases known : ∃ x r, truthy d.id = some x ∧ acc.byId.get? x = some r
  · obtain ⟨x, r, hx, found⟩ := known
    exact st.step_by_id matching fresh hd hx found
  · have missedAll : ∀ y, truthy d.id = some y → acc.byId.get? y = none := by
      intro y hy
      cases h : acc.byId.get? y with
      | none => rfl
      | some r => exact absurd ⟨y, r, hy, h⟩ known
    cases found : acc.byIndex.get? i with
    | none => exact st.step_create hd missedAll found
    | some r =>
        cases hx : truthy d.id with
        | none => exact st.step_by_index_anonymous hd hx found
        | some x => exact st.step_by_index_rekey matching fresh hd hx (missedAll x hx) found

end IndexedState

/-- The invariant holds after every indexed, one-to-one stream. -/
theorem indexedState_stream (draws : Nat → SynthDraw) (ds : List ToolCallDelta)
    (indexed : ∀ d ∈ ds, d.index ≠ none) (matching : IndicesMatchIds ds)
    (fresh : SyntheticIdsFresh draws ds) :
    IndexedState draws ds (accumulateStream draws ds) := by
  induction ds using List.reverseRecOn with
  | nil => exact indexedState_empty draws
  | append_singleton P d ih =>
      obtain ⟨i, hd⟩ := Option.ne_none_iff_exists'.mp (indexed d (by simp))
      rw [accumulateStream_append_singleton]
      exact (ih (fun d' member => indexed d' (List.mem_append_left _ member)) matching.of_append
        fresh.of_append).step matching fresh hd

-----------------------------------------------------------------------------------------
-- Assembly
-----------------------------------------------------------------------------------------

namespace IndexedState

variable {ds : List ToolCallDelta} {acc : Accumulator}

/-- Each entry `byIndex` holds carries its index and the request the stream determines there. -/
theorem value_request (st : IndexedState draws ds acc) {r : Nat} (member : r ∈ acc.byIndex.values) :
    ∃ i, (acc.entry r).index = some i ∧
      (acc.entry r).toToolCall = indexedRequest draws ds i := by
  obtain ⟨i, found⟩ := JsMap.mem_values_iff.mp member
  obtain ⟨hr, hi⟩ := (st.byIndex_iff i r).mp found
  exact ⟨i, hi, (st.entry_call r hr i hi).trans (accumulatedAt_eq_indexedRequest draws ds i)⟩

/-- The indices of the entries `byIndex` holds are the stream's distinct indices. -/
theorem value_indices_perm (st : IndexedState draws ds acc) :
    (acc.byIndex.values.map fun r => (acc.entry r).index.getD 0).Perm
      (ds.filterMap (·.index)).dedup := by
  have keyOf : ∀ r ∈ acc.byIndex.values, ∃ i, acc.byIndex.get? i = some r ∧
      (acc.entry r).index.getD 0 = i := by
    intro r member
    obtain ⟨i, found⟩ := JsMap.mem_values_iff.mp member
    exact ⟨i, found, by simp [((st.byIndex_iff i r).mp found).2]⟩
  have valuesNodup : acc.byIndex.values.Nodup := by
    refine JsMap.values_nodup fun i i' r h h' => ?_
    have a := ((st.byIndex_iff i r).mp h).2
    have b := ((st.byIndex_iff i' r).mp h').2
    exact Option.some.inj (a.symm.trans b)
  refine (List.perm_ext_iff_of_nodup ?_ (List.nodup_dedup _)).mpr fun i => ?_
  · refine valuesNodup.map_on fun r hr r' hr' same => ?_
    obtain ⟨i, found, hi⟩ := keyOf r hr
    obtain ⟨i', found', hi'⟩ := keyOf r' hr'
    rw [hi, hi'] at same; subst same
    exact Option.some.inj (found.symm.trans found')
  · simp only [List.mem_map, List.mem_dedup, List.mem_filterMap]
    constructor
    · rintro ⟨r, member, rfl⟩
      obtain ⟨i, found, hi⟩ := keyOf r member
      obtain ⟨hr, hidx⟩ := (st.byIndex_iff i r).mp found
      obtain ⟨d, inDs, at_i⟩ := st.seen_of_entry hr hidx
      exact ⟨d, inDs, by rw [at_i, ← hi]⟩
    · rintro ⟨d, inDs, at_i⟩
      obtain ⟨r, found⟩ := st.seen_entry d inDs i at_i
      obtain ⟨k, found', hk⟩ := keyOf r (JsMap.mem_values_iff.mpr ⟨i, found⟩)
      have : k = i := by
        have a := ((st.byIndex_iff k r).mp found').2
        have b := ((st.byIndex_iff i r).mp found).2
        exact Option.some.inj (a.symm.trans b)
      exact ⟨r, JsMap.mem_values_iff.mpr ⟨i, found⟩, this ▸ hk⟩

/-- Assembly of an indexed stream: one request per distinct index, ascending. -/
theorem assemble (st : IndexedState draws ds acc) :
    assembleToolCalls acc = (sortedIndices ds).map (indexedRequest draws ds) := by
  by_cases nonempty : acc.byIndex.size > 0
  · let key (e : ToolAccumulatorEntry) : Nat := e.index.getD 0
    have entryKey : ∀ e ∈ acc.byIndex.values.map acc.entry,
        e.index = some (key e) ∧ e.toToolCall = indexedRequest draws ds (key e) := by
      intro e member
      obtain ⟨r, hr, rfl⟩ := List.mem_map.mp member
      obtain ⟨i, hi, call⟩ := st.value_request hr
      exact ⟨by simp [key, hi], by simpa [key, hi] using call⟩
    have keysSorted : ((acc.byIndex.values.map acc.entry).insertionSort
        (fun a b => indexLe a b)).map key = sortedIndices ds := by
      have keysOrder : ∀ a ∈ acc.byIndex.values.map acc.entry,
          ∀ b ∈ acc.byIndex.values.map acc.entry, indexLe a b = true ↔ key a ≤ key b :=
        fun a ha b hb => by simp [indexLe, (entryKey a ha).1, (entryKey b hb).1]
      rw [List.map_insertionSort _ _ key _ keysOrder]
      refine List.eq_of_perm_of_sorted ?_ (List.sorted_insertionSort _ _)
        (List.sorted_insertionSort _ _)
      refine (List.perm_insertionSort _ _).trans (List.Perm.trans ?_ (List.perm_insertionSort _ _).symm)
      simpa only [List.map_map] using st.value_indices_perm
    rw [assembleToolCalls, if_pos nonempty, ← keysSorted, List.map_map]
    refine List.map_congr_left fun e member => (entryKey e ?_).2
    exact (List.mem_insertionSort _).mp member
  · have byIndexEmpty : ∀ i r, acc.byIndex.get? i ≠ some r :=
      fun i r found => nonempty (JsMap.size_pos_iff.mpr ⟨i, r, found⟩)
    have noEntries : acc.heap.length = 0 := by
      by_contra h
      obtain ⟨i, hi, -⟩ := st.entry_seen 0 (Nat.pos_of_ne_zero h)
      exact byIndexEmpty i 0 ((st.byIndex_iff i 0).mpr ⟨Nat.pos_of_ne_zero h, hi⟩)
    have byIdEmpty : acc.byId.values = [] := by
      refine List.eq_nil_iff_forall_not_mem.mpr fun r member => ?_
      obtain ⟨x, found⟩ := JsMap.mem_values_iff.mp member
      have := (st.byId_sound x r found).1; omega
    have noIndices : ds.filterMap (·.index) = [] := by
      refine List.eq_nil_iff_forall_not_mem.mpr fun i member => ?_
      obtain ⟨d, inDs, at_i⟩ := List.mem_filterMap.mp member
      obtain ⟨r, found⟩ := st.seen_entry d inDs i at_i
      exact byIndexEmpty i r found
    simp [assembleToolCalls, nonempty, byIdEmpty, sortedIndices, noIndices]

end IndexedState

/-- An indexed stream whose ids and indices match one to one, with synthetic ids that no
provider id equals, yields one request per distinct index in ascending order: the first id
seen there (else the id drawn when the index appeared), the last non-empty name, and the
argument chunks up to the first prefix that parses as JSON; nameless requests are dropped.
-/
theorem streamedToolCalls_of_indexed (draws : Nat → SynthDraw) (ds : List ToolCallDelta)
    (indexed : ∀ d ∈ ds, d.index ≠ none) (matching : IndicesMatchIds ds)
    (fresh : SyntheticIdsFresh draws ds) :
    streamedToolCalls draws ds =
      ((sortedIndices ds).map (indexedRequest draws ds)).filter (·.hasName) := by
  rw [streamedToolCalls, (indexedState_stream draws ds indexed matching fresh).assemble]

/-- The id arrives after an id-less first fragment and the arguments come in two chunks. -/
theorem streamedToolCalls_of_indexed_lateId :
    streamedToolCalls (fun k => ⟨k, "r"⟩)
        [⟨some 0, none, some "search", none⟩, ⟨some 0, some "abc", none, some "\x7b\"q\":"⟩,
          ⟨some 0, some "abc", none, some "\"x\"\x7d"⟩] =
      [⟨"abc", "search", "\x7b\"q\":\"x\"\x7d"⟩] := by
  rw [streamedToolCalls_of_indexed _ _ (by decide) (by decide)
    (SyntheticIdsFresh.of_unprefixed (by decide))]
  decide

end Shipit.Inference.Streaming
