import Mathlib.Data.List.Dedup
import Mathlib.Data.List.Sort
import ShipitInference.Streaming.Step

/-! Streams whose every fragment carries an id. The accumulator then keeps one entry per id,
indexed by the first index sent with it, and assembly returns one request per id as long as
no index is shared by two ids and indices are sent either for every id or for none.
-/

namespace Shipit.Inference.Streaming

open Shipit.Inference.Js Accumulator

-----------------------------------------------------------------------------------------
-- What the stream says about one id
-----------------------------------------------------------------------------------------

/-- The fragments sent with one id, in stream order. -/
def atId (ds : List ToolCallDelta) (x : String) : List ToolCallDelta :=
  ds.filter (truthy ·.id = some x)

/-- The first index sent with an id. -/
def firstIndexOf (ds : List ToolCallDelta) (x : String) : Option Nat :=
  (atId ds x).findSome? (·.index)

/-- The request a stream determines for one id. -/
def idRequest (ds : List ToolCallDelta) (x : String) : ToolCall :=
  ⟨x, lastNonEmptyName (atId ds x), argumentsUpToComplete (argumentChunks (atId ds x))⟩

/-- The distinct ids of a stream. -/
def distinctIds (ds : List ToolCallDelta) : List String := (ds.filterMap (truthy ·.id)).dedup

/-- Every fragment carries a non-empty id. -/
def IdentifiedFragments (ds : List ToolCallDelta) : Prop := ∀ d ∈ ds, (truthy d.id).isSome

/-- No index is sent with two different ids. -/
def NoSharedIndex (ds : List ToolCallDelta) : Prop :=
  ∀ d ∈ ds, ∀ d' ∈ ds, ∀ i ∈ d.index, d'.index = some i → truthy d.id = truthy d'.id

/-- Either no fragment carries an index, or every id is sent with one at least once. -/
def IndexedIds (ds : List ToolCallDelta) : Prop :=
  (∀ d ∈ ds, d.index = none) ∨
    ∀ d ∈ ds, ∃ d' ∈ ds, truthy d'.id = truthy d.id ∧ d'.index.isSome

instance : DecidablePred IdentifiedFragments := fun ds => by
  unfold IdentifiedFragments; infer_instance

instance : DecidablePred NoSharedIndex := fun ds => by
  unfold NoSharedIndex; infer_instance

instance : DecidablePred IndexedIds := fun ds => by
  unfold IndexedIds; infer_instance

theorem NoSharedIndex.of_append {P : List ToolCallDelta} {d : ToolCallDelta}
    (h : NoSharedIndex (P ++ [d])) : NoSharedIndex P :=
  fun a ha b hb => h a (List.mem_append_left _ ha) b (List.mem_append_left _ hb)

theorem idRequest_eq_callFrom (ds : List ToolCallDelta) (x : String) :
    callFrom x (atId ds x) = idRequest ds x :=
  callFrom_eq x (atId ds x)

-----------------------------------------------------------------------------------------
-- One more fragment
-----------------------------------------------------------------------------------------

variable {P : List ToolCallDelta} {d : ToolCallDelta} {x y : String}

theorem atId_append_of_eq (h : truthy d.id = some x) : atId (P ++ [d]) x = atId P x ++ [d] := by
  simp [atId, List.filter_append, h]

theorem atId_append_of_ne (h : truthy d.id ≠ some y) : atId (P ++ [d]) y = atId P y := by
  simp [atId, List.filter_append, h]

theorem firstIndexOf_append_of_eq (h : truthy d.id = some x) :
    firstIndexOf (P ++ [d]) x = (firstIndexOf P x).or d.index := by
  simp only [firstIndexOf, atId_append_of_eq h, List.findSome?_append]
  cases hd : d.index <;> simp [List.findSome?_cons, hd]

theorem firstIndexOf_append_of_ne (h : truthy d.id ≠ some y) :
    firstIndexOf (P ++ [d]) y = firstIndexOf P y := by
  simp [firstIndexOf, atId_append_of_ne h]

/-- An index recorded for an id was sent with it. -/
theorem sent_of_firstIndexOf {i : Nat} (h : firstIndexOf P x = some i) :
    ∃ d' ∈ P, truthy d'.id = some x ∧ d'.index = some i := by
  obtain ⟨d', member, hi⟩ := List.exists_of_findSome?_eq_some h
  obtain ⟨inP, hx⟩ := List.mem_filter.mp member
  exact ⟨d', inP, by simpa using hx, hi⟩

/-- An id never sent has no fragments. -/
theorem atId_eq_nil (unseen : ∀ d' ∈ P, truthy d'.id ≠ some x) : atId P x = [] :=
  List.filter_eq_nil_iff.mpr (by simpa only [decide_eq_true_eq] using unseen)

-----------------------------------------------------------------------------------------
-- The invariant
-----------------------------------------------------------------------------------------

/-- The accumulator after a prefix `P` of a stream whose fragments all carry ids. `byId` and
`byIndex` invert the entries' ids and indices; each entry stands for an id of `P`, carries the
first index sent with it, and holds what `P` accumulated for it.
-/
structure IdKeyedState (P : List ToolCallDelta) (acc : Accumulator) : Prop where
  byId_iff : ∀ x r, acc.byId.get? x = some r ↔ r < acc.heap.length ∧ (acc.entry r).id = x
  byIndex_iff : ∀ i r, acc.byIndex.get? i = some r ↔
    r < acc.heap.length ∧ (acc.entry r).index = some i
  entry_seen : ∀ r < acc.heap.length, ∃ d ∈ P, truthy d.id = some (acc.entry r).id
  seen_entry : ∀ d ∈ P, ∀ x ∈ truthy d.id, ∃ r, acc.byId.get? x = some r
  entry_index : ∀ r < acc.heap.length, (acc.entry r).index = firstIndexOf P (acc.entry r).id
  entry_call : ∀ r < acc.heap.length,
    (acc.entry r).toToolCall = callFrom (acc.entry r).id (atId P (acc.entry r).id)

theorem idKeyedState_empty : IdKeyedState [] .empty where
  byId_iff x r := by simp [Accumulator.empty]
  byIndex_iff i r := by simp [Accumulator.empty]
  entry_seen r h := by simp [Accumulator.empty] at h
  seen_entry d h := by simp at h
  entry_index r h := by simp [Accumulator.empty] at h
  entry_call r h := by simp [Accumulator.empty] at h

namespace IdKeyedState

variable {acc acc' : Accumulator} {r : Nat} {draw : SynthDraw}

theorem entry_unique (st : IdKeyedState P acc) {r r' : Nat} (hr : r < acc.heap.length)
    (hr' : r' < acc.heap.length) (same : (acc.entry r).id = (acc.entry r').id) : r = r' := by
  have a := (st.byId_iff _ r).mpr ⟨hr, same⟩
  have b := (st.byId_iff _ r').mpr ⟨hr', rfl⟩
  exact Option.some.inj (a.symm.trans b)

/-- Another entry holds another id than the new fragment's. -/
theorem id_ne_of_ne (st : IdKeyedState P acc) (hx : truthy d.id = some x)
    (hr : r < acc.heap.length) (hid : (acc.entry r).id = x) {r' : Nat}
    (hr' : r' < acc.heap.length) (other : r' ≠ r) : truthy d.id ≠ some (acc.entry r').id := by
  rw [hx, ← hid]; intro same
  exact other (st.entry_unique hr' hr (Option.some.inj same).symm)

/-- The entry registered at the new fragment's index holds the new fragment's id, since no
index is shared.
-/
theorem id_of_index (st : IdKeyedState P acc) (noShared : NoSharedIndex (P ++ [d]))
    (hx : truthy d.id = some x) {i : Nat} (hd : d.index = some i)
    (found : acc.byIndex.get? i = some r) : r < acc.heap.length ∧ (acc.entry r).id = x := by
  obtain ⟨hr, hi⟩ := (st.byIndex_iff i r).mp found
  rw [st.entry_index r hr] at hi
  obtain ⟨d', inP, hy, hi'⟩ := sent_of_firstIndexOf hi
  have same := noShared d (by simp) d' (List.mem_append_left _ inP) i hd hi'
  rw [hx, hy] at same
  exact ⟨hr, (Option.some.inj same).symm⟩

/-- Absorbing the new fragment into the entry of its id, which then carries the first index
sent with that id.
-/
theorem absorb_into (st : IdKeyedState P acc) (hx : truthy d.id = some x)
    (hr : r < acc.heap.length) (hid : (acc.entry r).id = x)
    (length : acc'.heap.length = acc.heap.length) (byId : acc'.byId = acc.byId)
    (entries : ∀ r', acc'.entry r' = if r' = r then
      ({ acc.entry r with index := firstIndexOf (P ++ [d]) x }).absorb d else acc.entry r')
    (byIndexIff : ∀ i r', acc'.byIndex.get? i = some r' ↔
      r' < acc'.heap.length ∧ (acc'.entry r').index = some i) :
    IdKeyedState (P ++ [d]) acc' where
  byId_iff y r' := by
    rw [byId, st.byId_iff, length, entries]
    by_cases same : r' = r
    · subst same; simp
    · simp [same]
  byIndex_iff := byIndexIff
  entry_seen r' hr' := by
    rw [length] at hr'
    obtain ⟨d', member, hy⟩ := st.entry_seen r' hr'
    refine ⟨d', List.mem_append_left _ member, ?_⟩
    rw [entries]
    split
    next same => subst same; exact hy
    next => exact hy
  seen_entry d' member y hy := by
    rw [byId]
    rcases List.mem_append.mp member with inP | isNew
    · exact st.seen_entry d' inP y hy
    · rw [List.mem_singleton.mp isNew] at hy
      rw [show y = x from Option.some.inj (hy.symm.trans hx)]
      exact ⟨r, (st.byId_iff x r).mpr ⟨hr, hid⟩⟩
  entry_index r' hr' := by
    rw [length] at hr'
    rw [entries]
    by_cases same : r' = r
    · subst same; simp [hid]
    · simp only [same, if_false]
      rw [firstIndexOf_append_of_ne (st.id_ne_of_ne hx hr hid hr' same)]
      exact st.entry_index r' hr'
  entry_call r' hr' := by
    rw [length] at hr'
    rw [entries]
    by_cases same : r' = r
    · subst same
      have old := st.entry_call r' hr'
      rw [hid] at old
      simp only [if_true, ToolAccumulatorEntry.absorb_id, hid, atId_append_of_eq hx]
      exact toToolCall_absorb (by simpa [ToolAccumulatorEntry.toToolCall, hid] using old) d
    · simp only [same, if_false]
      rw [atId_append_of_ne (st.id_ne_of_ne hx hr hid hr' same)]
      exact st.entry_call r' hr'

/-- A fragment whose id `byId` knows goes to that id's entry; its index is registered when
the entry has none yet.
-/
theorem step_found (st : IdKeyedState P acc) (noShared : NoSharedIndex (P ++ [d]))
    (hx : truthy d.id = some x) (found : acc.byId.get? x = some r) :
    IdKeyedState (P ++ [d]) (accumulateToolCallDelta draw acc d) := by
  obtain ⟨hr, hid⟩ := (st.byId_iff x r).mp found
  have oldIndex := st.entry_index r hr
  rw [hid] at oldIndex
  rw [accumulateToolCallDelta_of_found (findEntry_of_id hx found), rekeyEntry_of_same hx hid]
  by_cases fresh : d.index.isSome ∧ (acc.entry r).index = none
  · obtain ⟨i, hi⟩ := Option.isSome_iff_exists.mp fresh.1
    have newIndex : firstIndexOf (P ++ [d]) x = some i := by
      rw [firstIndexOf_append_of_eq hx, ← oldIndex, fresh.2, hi]; rfl
    have unclaimed : acc.byIndex.get? i = none := by
      cases h : acc.byIndex.get? i with
      | none => rfl
      | some r' =>
          obtain ⟨hr', hid'⟩ := st.id_of_index noShared hx hi h
          obtain rfl := st.entry_unique hr' hr (hid'.trans hid.symm)
          have := ((st.byIndex_iff i r').mp h).2
          rw [fresh.2] at this; cases this
    have entries := entry_update_update (f := fun e => { e with index := some i })
      (g := (·.absorb d)) hr
    rw [registerIndex_of_unregistered hi fresh.2]
    refine st.absorb_into hx hr hid (by simp) rfl (fun r' => by simp [entries, newIndex]) ?_
    simp only [withByIndex_update, withByIndex_byIndex, withByIndex_entry, withByIndex_heap,
      length_update]
    refine JsMap.inverts_set_unkeyed st.byIndex_iff unclaimed hr (by simp [fresh.2])
      (fun r' same k => by simp [entries, same]) (fun k => by simp [entries, eq_comm])
  · have keep : firstIndexOf (P ++ [d]) x = (acc.entry r).index := by
      rw [firstIndexOf_append_of_eq hx, ← oldIndex]
      cases h : (acc.entry r).index with
      | some j => rfl
      | none => simpa [h, Option.isSome_iff_ne_none] using fresh
    have registered : registerIndex acc r d = acc := by
      cases hi : d.index with
      | none => exact registerIndex_of_none hi
      | some i => exact registerIndex_of_registered (by simpa [hi] using fresh)
    rw [registered]
    refine st.absorb_into hx hr hid (by simp) rfl (fun r' => by rw [entry_update hr, keep]) ?_
    intro k r'
    simp only [byIndex_update, st.byIndex_iff, length_update, entry_update hr]
    split <;> simp_all

/-- A fragment with a new id creates its entry, registered under the id and the fragment's
index; no entry holds that index yet, since no index is shared.
-/
theorem step_create (st : IdKeyedState P acc) (noShared : NoSharedIndex (P ++ [d]))
    (hx : truthy d.id = some x) (missing : acc.byId.get? x = none) :
    IdKeyedState (P ++ [d]) (accumulateToolCallDelta draw acc d) := by
  have unseen : ∀ d' ∈ P, truthy d'.id ≠ some x := by
    intro d' member h
    obtain ⟨r, hr⟩ := st.seen_entry d' member x h
    simp [missing] at hr
  have unclaimed : ∀ i, d.index = some i → acc.byIndex.get? i = none := by
    intro i hi
    cases h : acc.byIndex.get? i with
    | none => rfl
    | some r =>
        obtain ⟨hr, hid⟩ := st.id_of_index noShared hx hi h
        simp [(st.byId_iff x r).mpr ⟨hr, hid⟩] at missing
  have missedAll : ∀ y, truthy d.id = some y → acc.byId.get? y = none := by
    intro y hy; rw [hx] at hy; cases hy; exact missing
  have notFound : findEntry acc d = none := by
    cases hi : d.index with
    | none => exact findEntry_of_no_index missedAll hi
    | some i => rw [findEntry_of_index missedAll hi, unclaimed i hi]
  have newId : provisionalId draw acc d = x := by simp [provisionalId, hx]
  have created : (createEntry draw acc d).1.entry acc.heap.length = newEntry draw acc d :=
    entry_createEntry_self
  have registered : registerIndex (createEntry draw acc d).1 acc.heap.length d =
      (createEntry draw acc d).1 := by
    cases hi : d.index with
    | none => exact registerIndex_of_none hi
    | some i => exact registerIndex_of_registered (by simp [created, newEntry, hi])
  rw [accumulateToolCallDelta_of_missing notFound,
    rekeyEntry_of_same hx (by simp [created, newEntry, newId]), registered]
  have newIndex : firstIndexOf (P ++ [d]) x = d.index := by
    rw [firstIndexOf_append_of_eq hx, firstIndexOf, atId_eq_nil unseen]; rfl
  have oldIds : ∀ r' < acc.heap.length, truthy d.id ≠ some (acc.entry r').id := by
    intro r' hr' same
    have known := (st.byId_iff _ r').mpr ⟨hr', rfl⟩
    rw [hx] at same
    rw [← Option.some.inj same, missing] at known; cases known
  constructor
  · simp only [byId_update, byId_createEntry, newId, length_update, length_createEntry]
    refine JsMap.inverts_set (fun y r' => ?_) missing (fun y => ?_)
    · rw [st.byId_iff]; exact and_congr_right fun lt => by rw [entry_created_of_lt lt]
    · simp [created, newEntry, newId, eq_comm]
  · simp only [byIndex_update, length_update, length_createEntry]
    cases hi : d.index with
    | none =>
        rw [byIndex_createEntry_of_none hi]
        refine JsMap.inverts_extend (fun k r' => ?_) (fun k => ?_)
        · rw [st.byIndex_iff]; exact and_congr_right fun lt => by rw [entry_created_of_lt lt]
        · simp [created, newEntry, hi]
    | some i =>
        rw [byIndex_createEntry_of_some hi]
        refine JsMap.inverts_set (fun k r' => ?_) (unclaimed i hi) (fun k => ?_)
        · rw [st.byIndex_iff]; exact and_congr_right fun lt => by rw [entry_created_of_lt lt]
        · simp [created, newEntry, hi, eq_comm]
  · intro r' bound
    rw [length_update, length_createEntry] at bound
    rcases Nat.lt_succ_iff_lt_or_eq.mp bound with lt | rfl
    · obtain ⟨d', member, hy⟩ := st.entry_seen r' lt
      exact ⟨d', List.mem_append_left _ member, by rw [entry_created_of_lt lt]; exact hy⟩
    · exact ⟨d, by simp, by simp [created, newEntry, newId, hx]⟩
  · intro d' member y hy
    simp only [byId_update, byId_createEntry, newId, JsMap.get?_set]
    by_cases hyx : y = x
    · simp [hyx]
    · simp only [hyx, if_false]
      rcases List.mem_append.mp member with inP | isNew
      · exact st.seen_entry d' inP y hy
      · rw [List.mem_singleton.mp isNew] at hy
        exact absurd (Option.some.inj (hy.symm.trans hx)) hyx
  · intro r' bound
    rw [length_update, length_createEntry] at bound
    rcases Nat.lt_succ_iff_lt_or_eq.mp bound with lt | rfl
    · rw [entry_created_of_lt lt, firstIndexOf_append_of_ne (oldIds r' lt)]
      exact st.entry_index r' lt
    · simp [created, newEntry, newId, newIndex]
  · intro r' bound
    rw [length_update, length_createEntry] at bound
    rcases Nat.lt_succ_iff_lt_or_eq.mp bound with lt | rfl
    · rw [entry_created_of_lt lt, atId_append_of_ne (oldIds r' lt)]
      exact st.entry_call r' lt
    · rw [entry_created_self, ToolAccumulatorEntry.absorb_id]
      simp only [newEntry, newId, atId_append_of_eq hx, atId_eq_nil unseen, List.nil_append]
      exact @toToolCall_absorb _ x [] (by rfl) d

/-- One fragment with an id keeps the invariant when no index is shared. -/
theorem step (st : IdKeyedState P acc) (noShared : NoSharedIndex (P ++ [d]))
    (hx : truthy d.id = some x) :
    IdKeyedState (P ++ [d]) (accumulateToolCallDelta draw acc d) := by
  cases found : acc.byId.get? x with
  | none => exact st.step_create noShared hx found
  | some r => exact st.step_found noShared hx found

end IdKeyedState

/-- The invariant holds after every stream whose fragments carry ids and share no index. -/
theorem idKeyedState_stream (draws : Nat → SynthDraw) (ds : List ToolCallDelta)
    (identified : IdentifiedFragments ds) (noShared : NoSharedIndex ds) :
    IdKeyedState ds (accumulateStream draws ds) := by
  induction ds using List.reverseRecOn with
  | nil => exact idKeyedState_empty
  | append_singleton P d ih =>
      obtain ⟨x, hx⟩ := Option.isSome_iff_exists.mp (identified d (by simp))
      rw [accumulateStream_append_singleton]
      exact (ih (fun d' member => identified d' (List.mem_append_left _ member))
        noShared.of_append).step noShared hx

-----------------------------------------------------------------------------------------
-- Assembly
-----------------------------------------------------------------------------------------

namespace IdKeyedState

variable {ds : List ToolCallDelta} {acc : Accumulator}

/-- The entries' ids are the stream's distinct ids, each once. -/
theorem ids_perm (st : IdKeyedState ds acc) :
    ((List.range acc.heap.length).map fun r => (acc.entry r).id).Perm (distinctIds ds) := by
  refine (List.perm_ext_iff_of_nodup ?_ (List.nodup_dedup _)).mpr fun x => ?_
  · exact (List.nodup_range _).map_on fun r hr r' hr' same =>
      st.entry_unique (List.mem_range.mp hr) (List.mem_range.mp hr') same
  · simp only [List.mem_map, List.mem_range, distinctIds, List.mem_dedup, List.mem_filterMap]
    constructor
    · rintro ⟨r, hr, rfl⟩; exact st.entry_seen r hr
    · rintro ⟨d, member, hx⟩
      obtain ⟨r, found⟩ := st.seen_entry d member x hx
      exact ⟨r, (st.byId_iff x r).mp found⟩

/-- Whatever order assembly sorts by, a map that holds every entry once yields one request
per distinct id.
-/
theorem assemble_perm (st : IdKeyedState ds acc) {values : List Nat}
    (all : values.Perm (List.range acc.heap.length))
    (R : ToolAccumulatorEntry → ToolAccumulatorEntry → Prop) [DecidableRel R] :
    (((values.map acc.entry).insertionSort R).map (·.toToolCall)).Perm
      ((distinctIds ds).map (idRequest ds)) := by
  have calls : ∀ r ∈ List.range acc.heap.length,
      (acc.entry r).toToolCall = idRequest ds (acc.entry r).id := fun r hr =>
    (st.entry_call r (List.mem_range.mp hr)).trans (idRequest_eq_callFrom ds _)
  calc (((values.map acc.entry).insertionSort R).map (·.toToolCall)).Perm
        ((values.map acc.entry).map (·.toToolCall)) := (List.perm_insertionSort R _).map _
    _ = (values.map fun r => (acc.entry r).toToolCall) := by rw [List.map_map]; rfl
    List.Perm _ ((List.range acc.heap.length).map fun r => (acc.entry r).toToolCall) :=
        all.map _
    _ = ((List.range acc.heap.length).map fun r => (acc.entry r).id).map (idRequest ds) := by
        rw [List.map_map]; exact List.map_congr_left calls
    List.Perm _ ((distinctIds ds).map (idRequest ds)) := st.ids_perm.map _

/-- `byId` holds every entry once. -/
theorem byId_values_perm (st : IdKeyedState ds acc) :
    acc.byId.values.Perm (List.range acc.heap.length) := by
  refine (List.perm_ext_iff_of_nodup ?_ (List.nodup_range _)).mpr fun r => ?_
  · refine JsMap.values_nodup fun x x' r h h' => ?_
    exact ((st.byId_iff x r).mp h).2.symm.trans ((st.byId_iff x' r).mp h').2
  · rw [JsMap.mem_values_iff, List.mem_range]
    exact ⟨fun ⟨x, found⟩ => ((st.byId_iff x r).mp found).1,
      fun hr => ⟨_, (st.byId_iff _ r).mpr ⟨hr, rfl⟩⟩⟩

/-- When every id is sent with an index, `byIndex` holds every entry once. -/
theorem byIndex_values_perm (st : IdKeyedState ds acc)
    (indexed : ∀ d ∈ ds, ∃ d' ∈ ds, truthy d'.id = truthy d.id ∧ d'.index.isSome) :
    acc.byIndex.values.Perm (List.range acc.heap.length) := by
  have hasIndex : ∀ r < acc.heap.length, ∃ i, (acc.entry r).index = some i := by
    intro r hr
    obtain ⟨d, member, hx⟩ := st.entry_seen r hr
    obtain ⟨d', member', same, hi⟩ := indexed d member
    rw [st.entry_index r hr, ← Option.isSome_iff_exists, firstIndexOf, List.findSome?_isSome_iff]
    exact ⟨d', List.mem_filter.mpr ⟨member', by simp [same, hx]⟩, hi⟩
  refine (List.perm_ext_iff_of_nodup ?_ (List.nodup_range _)).mpr fun r => ?_
  · refine JsMap.values_nodup fun i i' r h h' => ?_
    exact Option.some.inj (((st.byIndex_iff i r).mp h).2.symm.trans ((st.byIndex_iff i' r).mp h').2)
  · rw [JsMap.mem_values_iff, List.mem_range]
    constructor
    · rintro ⟨i, found⟩; exact ((st.byIndex_iff i r).mp found).1
    · intro hr
      obtain ⟨i, hi⟩ := hasIndex r hr
      exact ⟨i, (st.byIndex_iff i r).mpr ⟨hr, hi⟩⟩

/-- A stream that sends no index leaves `byIndex` empty. -/
theorem byIndex_size_of_unindexed (st : IdKeyedState ds acc)
    (unindexed : ∀ d ∈ ds, d.index = none) : ¬ acc.byIndex.size > 0 := by
  intro nonempty
  obtain ⟨i, r, found⟩ := JsMap.size_pos_iff.mp nonempty
  obtain ⟨hr, hi⟩ := (st.byIndex_iff i r).mp found
  rw [st.entry_index r hr] at hi
  obtain ⟨d, member, -, hd⟩ := sent_of_firstIndexOf hi
  simp [unindexed d member] at hd

/-- Assembly of an id-keyed stream: one request per distinct id, in some order. -/
theorem assemble (st : IdKeyedState ds acc) (indexed : IndexedIds ds) :
    (assembleToolCalls acc).Perm ((distinctIds ds).map (idRequest ds)) := by
  unfold assembleToolCalls
  split
  case isTrue nonempty =>
    rcases indexed with unindexed | indexed
    · exact absurd nonempty (st.byIndex_size_of_unindexed unindexed)
    · exact st.assemble_perm (st.byIndex_values_perm indexed) _
  case isFalse => exact st.assemble_perm st.byId_values_perm _

end IdKeyedState

/-- A stream whose fragments all carry ids, where no index is sent with two ids and indices
are sent for every id or for none, yields exactly one request per distinct id with a
non-blank name: that id, its last non-empty name fragment, and its argument chunks up to the
first prefix that parses as JSON.
-/
theorem streamedToolCalls_perm_of_identified (draws : Nat → SynthDraw) (ds : List ToolCallDelta)
    (identified : IdentifiedFragments ds) (noShared : NoSharedIndex ds)
    (indexed : IndexedIds ds) :
    (streamedToolCalls draws ds).Perm (((distinctIds ds).map (idRequest ds)).filter (·.hasName)) :=
  ((idKeyedState_stream draws ds identified noShared).assemble indexed).filter _

/-- Two calls with out-of-order indices: assembly sorts them by index, the other way round
from the order `distinctIds` lists them.
-/
theorem streamedToolCalls_perm_of_identified_outOfOrder :
    (streamedToolCalls (fun k => ⟨k, "r"⟩)
        [⟨some 1, some "b", some "g", some "\x7b\x7d"⟩, ⟨some 0, some "a", some "f", some "[1"⟩,
          ⟨some 0, some "a", none, some "]"⟩]).Perm
      [⟨"b", "g", "\x7b\x7d"⟩, ⟨"a", "f", "[1]"⟩] :=
  (streamedToolCalls_perm_of_identified _ _ (by decide) (by decide) (by decide)).trans
    (List.Perm.of_eq (by decide))

/-- Two ids sent at one index: the second id is routed to the first id's entry by index and
re-keys it, so the first call is lost.
-/
theorem streamedToolCalls_sharedIndex :
    IdentifiedFragments [⟨some 0, some "a", some "f", none⟩, ⟨some 0, some "b", some "g", none⟩] ∧
      streamedToolCalls (fun k => ⟨k, "r"⟩)
        [⟨some 0, some "a", some "f", none⟩, ⟨some 0, some "b", some "g", none⟩] =
        [⟨"b", "g", ""⟩] ∧
      (distinctIds [⟨some 0, some "a", some "f", none⟩, ⟨some 0, some "b", some "g", none⟩]).length
        = 2 := by
  decide

end Shipit.Inference.Streaming
