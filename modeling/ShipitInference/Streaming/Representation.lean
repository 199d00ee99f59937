import ShipitInference.Streaming.IndexKeyed

/-! The representation invariant of the accumulator, for every stream: the two maps agree with
the entries they point to, as long as synthetic ids are fresh.
-/

namespace Shipit.Inference.Streaming

open Shipit.Inference.Js Accumulator

-----------------------------------------------------------------------------------------
-- The invariant
-----------------------------------------------------------------------------------------

/-- The maps of an accumulator and the entries they point to agree. -/
structure KeyedHeap (acc : Accumulator) : Prop where
  byId_sound : ∀ x r, acc.byId.get? x = some r → r < acc.heap.length ∧ (acc.entry r).id = x
  byId_complete : ∀ r < acc.heap.length, acc.byId.get? (acc.entry r).id = some r
  byIndex_sound : ∀ i r, acc.byIndex.get? i = some r →
    r < acc.heap.length ∧ (acc.entry r).index = some i
  order_eq : ∀ r < acc.heap.length, (acc.entry r).order = r
  counter_eq : acc.orderCounter = acc.heap.length

/-- The five conditions on the maps: keys match their entries, every `byIndex` entry is a
`byId` entry, no entry sits under two keys of one map, and the `__order` values are distinct
and below the counter. -/
structure MapsConsistent (acc : Accumulator) : Prop where
  byId_keys : ∀ x r, acc.byId.get? x = some r → r < acc.heap.length ∧ (acc.entry r).id = x
  byIndex_keys : ∀ i r, acc.byIndex.get? i = some r →
    r < acc.heap.length ∧ (acc.entry r).index = some i
  byIndex_in_byId : ∀ i r, acc.byIndex.get? i = some r → ∃ x, acc.byId.get? x = some r
  byId_single : ∀ x y r, acc.byId.get? x = some r → acc.byId.get? y = some r → x = y
  byIndex_single : ∀ i j r, acc.byIndex.get? i = some r → acc.byIndex.get? j = some r → i = j
  orders_distinct : ∀ r < acc.heap.length, ∀ r' < acc.heap.length, r ≠ r' →
    (acc.entry r).order ≠ (acc.entry r').order
  orders_below : ∀ r < acc.heap.length, (acc.entry r).order < acc.orderCounter

namespace KeyedHeap

variable {acc : Accumulator}

theorem mapsConsistent (h : KeyedHeap acc) : MapsConsistent acc where
  byId_keys := h.byId_sound
  byIndex_keys := h.byIndex_sound
  byIndex_in_byId i r found :=
    ⟨_, h.byId_complete r (h.byIndex_sound i r found).1⟩
  byId_single x y r hx hy := (h.byId_sound x r hx).2.symm.trans (h.byId_sound y r hy).2
  byIndex_single i j r hi hj :=
    Option.some.inj ((h.byIndex_sound i r hi).2.symm.trans (h.byIndex_sound j r hj).2)
  orders_distinct r hr r' hr' ne := by rw [h.order_eq r hr, h.order_eq r' hr']; exact ne
  orders_below r hr := by rw [h.order_eq r hr, h.counter_eq]; exact hr

/-- Two entries with one id are one entry. -/
theorem eq_of_id_eq (h : KeyedHeap acc) {r r' : Nat} (hr : r < acc.heap.length)
    (hr' : r' < acc.heap.length) (same : (acc.entry r).id = (acc.entry r').id) : r = r' :=
  Option.some.inj ((h.byId_complete r hr).symm.trans (same ▸ h.byId_complete r' hr'))

theorem empty : KeyedHeap .empty where
  byId_sound x r found := by simp [Accumulator.empty] at found
  byId_complete r hr := by simp [Accumulator.empty] at hr
  byIndex_sound i r found := by simp [Accumulator.empty] at found
  order_eq r hr := by simp [Accumulator.empty] at hr
  counter_eq := rfl

end KeyedHeap

-----------------------------------------------------------------------------------------
-- Each operation of the step keeps the invariant
-----------------------------------------------------------------------------------------

section Operations

variable {acc : Accumulator} {r : Nat} {d : ToolCallDelta} {draw : SynthDraw}

@[simp] theorem length_rekeyEntry : (rekeyEntry acc r d).heap.length = acc.heap.length := by
  unfold rekeyEntry
  split
  · split <;> simp
  · rfl

@[simp] theorem length_registerIndex : (registerIndex acc r d).heap.length = acc.heap.length := by
  unfold registerIndex
  split
  · split <;> simp
  · rfl

/-- A field that the function keeps is kept at every position of the updated heap. -/
theorem entry_update_of_keeps {β : Type} {f : ToolAccumulatorEntry → ToolAccumulatorEntry}
    (field : ToolAccumulatorEntry → β) (keeps : ∀ e, field (f e) = field e)
    (hr : r < acc.heap.length) (r' : Nat) :
    field ((acc.update r f).entry r') = field (acc.entry r') := by
  rw [entry_update hr]
  split
  next same => subst same; exact keeps _
  next => rfl

/-- Changing an entry's name or arguments keeps the invariant. -/
theorem KeyedHeap.update {f : ToolAccumulatorEntry → ToolAccumulatorEntry} (h : KeyedHeap acc)
    (hr : r < acc.heap.length)
    (keeps : ∀ e, (f e).id = e.id ∧ (f e).index = e.index ∧ (f e).order = e.order) :
    KeyedHeap (acc.update r f) := by
  have id := entry_update_of_keeps (·.id) (fun e => (keeps e).1) hr
  have index := entry_update_of_keeps (·.index) (fun e => (keeps e).2.1) hr
  have order := entry_update_of_keeps (·.order) (fun e => (keeps e).2.2) hr
  beta_reduce at id index order
  constructor
  · intro x r' found
    rw [length_update, id]
    exact h.byId_sound x r' found
  · intro r' hr'
    rw [id]
    exact h.byId_complete r' (by simpa using hr')
  · intro i r' found
    rw [length_update, index]
    exact h.byIndex_sound i r' found
  · intro r' hr'
    rw [order]
    exact h.order_eq r' (by simpa using hr')
  · rw [length_update]
    exact h.counter_eq

/-- A new entry keeps the invariant when its provisional id is a free key. An index key it
takes over only loses the entry it pointed to, which `byId` still holds. -/
theorem KeyedHeap.createEntry (h : KeyedHeap acc)
    (freshId : acc.byId.get? (provisionalId draw acc d) = none) :
    KeyedHeap (createEntry draw acc d).1 := by
  constructor
  · intro x r found
    rw [byId_createEntry, JsMap.get?_set] at found
    rw [length_createEntry]
    split at found
    · cases found
      subst x
      exact ⟨Nat.lt_succ_self _, by rw [entry_createEntry_self]; rfl⟩
    · obtain ⟨hr, hid⟩ := h.byId_sound x r found
      exact ⟨Nat.lt_succ_of_lt hr, by rw [entry_createEntry_of_lt hr]; exact hid⟩
  · intro r hr
    rw [length_createEntry] at hr
    rw [byId_createEntry, JsMap.get?_set]
    rcases Nat.lt_succ_iff_lt_or_eq.mp hr with lt | rfl
    · have other : (acc.entry r).id ≠ provisionalId draw acc d := fun same => by
        rw [← same, h.byId_complete r lt] at freshId
        cases freshId
      rw [entry_createEntry_of_lt lt, if_neg other]
      exact h.byId_complete r lt
    · rw [entry_createEntry_self]
      exact if_pos rfl
  · intro i r found
    rw [length_createEntry]
    cases hi : d.index with
    | none =>
      rw [byIndex_createEntry_of_none hi] at found
      obtain ⟨hr, hidx⟩ := h.byIndex_sound i r found
      exact ⟨Nat.lt_succ_of_lt hr, by rw [entry_createEntry_of_lt hr]; exact hidx⟩
    | some j =>
      rw [byIndex_createEntry_of_some hi, JsMap.get?_set] at found
      split at found
      · cases found
        subst i
        exact ⟨Nat.lt_succ_self _, by rw [entry_createEntry_self]; exact hi⟩
      · obtain ⟨hr, hidx⟩ := h.byIndex_sound i r found
        exact ⟨Nat.lt_succ_of_lt hr, by rw [entry_createEntry_of_lt hr]; exact hidx⟩
  · intro r hr
    rw [length_createEntry] at hr
    rcases Nat.lt_succ_iff_lt_or_eq.mp hr with lt | rfl
    · rw [entry_createEntry_of_lt lt]
      exact h.order_eq r lt
    · rw [entry_createEntry_self]
      exact h.counter_eq
  · rw [orderCounter_createEntry, length_createEntry, h.counter_eq]

/-- Moving an entry to a new id keeps the invariant when no entry holds that id. -/
theorem KeyedHeap.rekeyEntry (h : KeyedHeap acc) (hr : r < acc.heap.length)
    (absent : ∀ x, truthy d.id = some x → (acc.entry r).id ≠ x → acc.byId.get? x = none) :
    KeyedHeap (rekeyEntry acc r d) := by
  cases hx : truthy d.id with
  | none => rwa [rekeyEntry_of_none hx]
  | some x =>
    by_cases same : (acc.entry r).id = x
    · rwa [rekeyEntry_of_same hx same]
    rw [rekeyEntry_of_ne hx same]
    have fresh := absent x hx same
    have entries := entry_update (f := fun e => { e with id := x }) hr
    constructor
    · intro y r' found
      simp only [withById_byId, JsMap.get?_set, JsMap.get?_delete] at found
      simp only [withById_heap, length_update, withById_entry, entries]
      split at found
      · cases found
        exact ⟨hr, by simp [← ‹y = x›]⟩
      · split at found
        · cases found
        · obtain ⟨hr', hid⟩ := h.byId_sound y r' found
          have other : r' ≠ r := fun e => ‹¬y = (acc.entry r).id› (e ▸ hid.symm)
          exact ⟨hr', by simp [other, hid]⟩
    · intro r' hr'
      simp only [withById_heap, length_update] at hr'
      simp only [withById_byId, withById_entry, entries, JsMap.get?_set, JsMap.get?_delete]
      by_cases moved : r' = r
      · simp [moved]
      · have notNew : (acc.entry r').id ≠ x := fun e => by
          rw [← e, h.byId_complete r' hr'] at fresh
          cases fresh
        have notOld : (acc.entry r').id ≠ (acc.entry r).id := fun e => moved (h.eq_of_id_eq hr' hr e)
        simp [moved, notNew, notOld, h.byId_complete r' hr']
    · intro i r' found
      obtain ⟨hr', hidx⟩ := h.byIndex_sound i r' found
      simp only [withById_heap, length_update, withById_entry]
      exact ⟨hr', (entry_update_of_keeps (f := fun e => { e with id := x }) (·.index)
        (fun _ => rfl) hr r').trans hidx⟩
    · intro r' hr'
      simp only [withById_heap, length_update] at hr'
      simp only [withById_entry]
      exact (entry_update_of_keeps (f := fun e => { e with id := x }) (·.order) (fun _ => rfl) hr
        r').trans (h.order_eq r' hr')
    · simp only [withById_heap, length_update]
      exact h.counter_eq

/-- Registering an index on an entry that has none keeps the invariant. -/
theorem KeyedHeap.registerIndex (h : KeyedHeap acc) (hr : r < acc.heap.length) :
    KeyedHeap (registerIndex acc r d) := by
  cases hi : d.index with
  | none => rwa [registerIndex_of_none hi]
  | some i =>
    by_cases registered : (acc.entry r).index = none
    swap
    · rwa [registerIndex_of_registered registered]
    rw [registerIndex_of_unregistered hi registered]
    have entries := entry_update (f := fun e => { e with index := some i }) hr
    have keepsId : ∀ r', ((acc.update r fun e => { e with index := some i }).entry r').id =
        (acc.entry r').id := entry_update_of_keeps (·.id) (fun _ => rfl) hr
    constructor
    · intro x r' found
      obtain ⟨hr', hid⟩ := h.byId_sound x r' found
      simp only [withByIndex_heap, length_update, withByIndex_entry]
      exact ⟨hr', (keepsId r').trans hid⟩
    · intro r' hr'
      simp only [withByIndex_heap, length_update] at hr'
      simp only [withByIndex_byId, byId_update, withByIndex_entry, keepsId]
      exact h.byId_complete r' hr'
    · intro j r' found
      simp only [withByIndex_byIndex, JsMap.get?_set] at found
      simp only [withByIndex_heap, length_update, withByIndex_entry, entries]
      split at found
      · cases found
        exact ⟨hr, by simp [‹j = i›]⟩
      · obtain ⟨hr', hidx⟩ := h.byIndex_sound j r' found
        have other : r' ≠ r := fun e => by rw [e, registered] at hidx; cases hidx
        exact ⟨hr', by simp [other, hidx]⟩
    · intro r' hr'
      simp only [withByIndex_heap, length_update] at hr'
      simp only [withByIndex_entry]
      exact (entry_update_of_keeps (f := fun e => { e with index := some i }) (·.order)
        (fun _ => rfl) hr r').trans (h.order_eq r' hr')
    · simp only [withByIndex_heap, length_update]
      exact h.counter_eq

/-- Where the lookup found an entry: under the fragment's id, or, the id being unknown, under
its index. -/
theorem findEntry_cases (found : findEntry acc d = some r) :
    (∃ x, truthy d.id = some x ∧ acc.byId.get? x = some r) ∨
      ((∀ x, truthy d.id = some x → acc.byId.get? x = none) ∧
        ∃ i, d.index = some i ∧ acc.byIndex.get? i = some r) := by
  cases hx : truthy d.id with
  | some x =>
    cases hb : acc.byId.get? x with
    | some r' =>
      simp only [findEntry, hx, hb, Option.some_bind, Option.orElse] at found
      exact .inl ⟨x, rfl, found ▸ hb⟩
    | none =>
      simp only [findEntry, hx, hb, Option.some_bind, Option.orElse] at found
      obtain ⟨i, hi, hr⟩ := Option.bind_eq_some.mp found
      exact .inr ⟨fun x' hx' => by cases hx'; exact hb, i, hi, hr⟩
  | none =>
    simp only [findEntry, hx, Option.none_bind, Option.orElse] at found
    obtain ⟨i, hi, hr⟩ := Option.bind_eq_some.mp found
    exact .inr ⟨fun x' hx' => (by cases hx'), i, hi, hr⟩

/-- The text update of a fragment keeps an entry's id, index and order. -/
theorem absorb_keeps (e : ToolAccumulatorEntry) :
    (e.absorb d).id = e.id ∧ (e.absorb d).index = e.index ∧ (e.absorb d).order = e.order :=
  ⟨rfl, rfl, rfl⟩

/-- One fragment keeps the invariant when the id a new entry would get is a free key. -/
theorem KeyedHeap.step (h : KeyedHeap acc)
    (fresh : findEntry acc d = none → acc.byId.get? (provisionalId draw acc d) = none) :
    KeyedHeap (accumulateToolCallDelta draw acc d) := by
  cases found : findEntry acc d with
  | some r =>
    have hr : r < acc.heap.length := by
      rcases findEntry_cases found with ⟨x, -, byId⟩ | ⟨-, i, -, byIndex⟩
      · exact (h.byId_sound x r byId).1
      · exact (h.byIndex_sound i r byIndex).1
    rw [accumulateToolCallDelta_of_found found]
    refine ((h.rekeyEntry hr ?_).registerIndex (by simpa using hr)).update (by simpa using hr)
      absorb_keeps
    intro x hx other
    rcases findEntry_cases found with ⟨x', hx', byId⟩ | ⟨missed, -⟩
    · rw [hx] at hx'
      cases hx'
      exact absurd (h.byId_sound x r byId).2 other
    · exact missed x hx
  | none =>
    rw [accumulateToolCallDelta_of_missing found]
    refine (((h.createEntry (fresh found)).rekeyEntry (by simp) ?_).registerIndex
      (by simp)).update (by simp) absorb_keeps
    intro x hx other
    rw [entry_createEntry_self] at other
    exact absurd (by simp [newEntry, provisionalId, hx]) other

end Operations

-----------------------------------------------------------------------------------------
-- Streams
-----------------------------------------------------------------------------------------

/-- Synthetic ids are fresh: no fragment carries one, and the ids drawn for two different
fragments of the stream differ. -/
structure FreshSynthIds (draws : Nat → SynthDraw) (ds : List ToolCallDelta) : Prop where
  notSent : SyntheticIdsFresh draws ds
  distinct : ∀ k < ds.length, ∀ k' < ds.length, k ≠ k' →
    ∀ i i', synthIdForIndex (draws k) i ≠ synthIdForIndex (draws k') i'

theorem FreshSynthIds.of_append {draws : Nat → SynthDraw} {P Q : List ToolCallDelta}
    (h : FreshSynthIds draws (P ++ Q)) : FreshSynthIds draws P :=
  ⟨fun k i d member => h.notSent k i d (List.mem_append_left _ member),
    fun k hk k' hk' => h.distinct k (by simp; omega) k' (by simp; omega)⟩

/-- Every key of `byId` is an id a fragment carried or one drawn for an earlier fragment. -/
def KeysDrawn (draws : Nat → SynthDraw) (P : List ToolCallDelta) (acc : Accumulator) : Prop :=
  ∀ x r, acc.byId.get? x = some r →
    (∃ d ∈ P, truthy d.id = some x) ∨ ∃ k < P.length, ∃ i, x = synthIdForIndex (draws k) i

section Keys

variable {acc : Accumulator} {r : Nat} {d : ToolCallDelta} {draw : SynthDraw}

theorem byId_registerIndex : (registerIndex acc r d).byId = acc.byId := by
  unfold registerIndex
  split
  · split <;> rfl
  · rfl

/-- Re-keying adds no key but the fragment's id. -/
theorem keys_rekeyEntry {x : String} {r' : Nat} (found : (rekeyEntry acc r d).byId.get? x = some r') :
    (∃ r'', acc.byId.get? x = some r'') ∨ truthy d.id = some x := by
  cases hx : truthy d.id with
  | none => rw [rekeyEntry_of_none hx] at found; exact .inl ⟨_, found⟩
  | some y =>
    by_cases same : (acc.entry r).id = y
    · rw [rekeyEntry_of_same hx same] at found; exact .inl ⟨_, found⟩
    · rw [rekeyEntry_of_ne hx same] at found
      simp only [withById_byId, JsMap.get?_set, JsMap.get?_delete] at found
      split at found
      · exact .inr (congrArg some ‹x = y›.symm)
      · split at found
        · cases found
        · exact .inl ⟨_, found⟩

/-- A step adds no key but the fragment's id or the provisional id of a new entry. -/
theorem keys_step {x : String} (found : (accumulateToolCallDelta draw acc d).byId.get? x = some r) :
    (∃ r', acc.byId.get? x = some r') ∨ truthy d.id = some x ∨ x = provisionalId draw acc d := by
  cases hf : findEntry acc d with
  | some r₀ =>
    rw [accumulateToolCallDelta_of_found hf, byId_update, byId_registerIndex] at found
    exact (keys_rekeyEntry found).imp_right .inl
  | none =>
    rw [accumulateToolCallDelta_of_missing hf, byId_update, byId_registerIndex] at found
    rcases keys_rekeyEntry found with ⟨r', old⟩ | sent
    · rw [byId_createEntry, JsMap.get?_set] at old
      split at old
      · exact .inr (.inr ‹_›)
      · exact .inl ⟨_, old⟩
    · exact .inr (.inl sent)

end Keys

theorem KeysDrawn.step {draws : Nat → SynthDraw} {P : List ToolCallDelta} {acc : Accumulator}
    {d : ToolCallDelta} (h : KeysDrawn draws P acc) :
    KeysDrawn draws (P ++ [d]) (accumulateToolCallDelta (draws P.length) acc d) := by
  intro x r found
  rcases keys_step found with ⟨r', old⟩ | sent | drawn
  · rcases h x r' old with ⟨d', member, hd'⟩ | ⟨k, hk, i, hx⟩
    · exact .inl ⟨d', List.mem_append_left _ member, hd'⟩
    · exact .inr ⟨k, by simp; omega, i, hx⟩
  · exact .inl ⟨d, by simp, sent⟩
  · cases hx : truthy d.id with
    | some y => exact .inl ⟨d, by simp, by rw [hx, drawn, provisionalId, hx]; rfl⟩
    | none => exact .inr ⟨P.length, by simp, _, by rw [drawn, provisionalId, hx]; rfl⟩

/-- With fresh synthetic ids, the id a new entry would get is a free key. -/
theorem provisionalId_free {draws : Nat → SynthDraw} {P : List ToolCallDelta}
    {acc : Accumulator} {d : ToolCallDelta} (keys : KeysDrawn draws P acc)
    (fresh : FreshSynthIds draws (P ++ [d])) (missing : findEntry acc d = none) :
    acc.byId.get? (provisionalId (draws P.length) acc d) = none := by
  cases hx : truthy d.id with
  | some x =>
    rw [provisionalId, hx, Option.getD_some]
    cases hb : acc.byId.get? x with
    | none => rfl
    | some r => rw [findEntry_of_id hx hb] at missing; cases missing
  | none =>
    rw [provisionalId, hx, Option.getD_none]
    cases hb : acc.byId.get? (synthIdForIndex (draws P.length) (d.index.getD acc.byId.size)) with
    | none => rfl
    | some r =>
      exfalso
      rcases keys _ r hb with ⟨d', member, sent⟩ | ⟨k, hk, i, same⟩
      · exact fresh.notSent _ _ d' (List.mem_append_left _ member) sent
      · exact fresh.distinct P.length (by simp) k (by simp; omega) (by omega) _ _ same

/-- Every stream with fresh synthetic ids reaches an accumulator that keeps the invariant. -/
theorem accumulateStream_keyedHeap (draws : Nat → SynthDraw) (ds : List ToolCallDelta)
    (fresh : FreshSynthIds draws ds) :
    KeyedHeap (accumulateStream draws ds) ∧ KeysDrawn draws ds (accumulateStream draws ds) := by
  induction ds using List.reverseRecOn with
  | nil => exact ⟨KeyedHeap.empty, fun x r found => by cases found⟩
  | append_singleton P d ih =>
    obtain ⟨heap, keys⟩ := ih fresh.of_append
    rw [accumulateStream_append_singleton]
    exact ⟨heap.step (provisionalId_free keys fresh), keys.step⟩

/-- The five conditions on the maps hold after every stream whose synthetic ids are fresh. -/
theorem accumulateStream_mapsConsistent (draws : Nat → SynthDraw) (ds : List ToolCallDelta)
    (fresh : FreshSynthIds draws ds) : MapsConsistent (accumulateStream draws ds) :=
  (accumulateStream_keyedHeap draws ds fresh).1.mapsConsistent

/-- A synthetic id starts with its timestamp. -/
theorem synthIdForIndex_stamp (draw : SynthDraw) (i : Nat) :
    ("tool_" ++ toString draw.now ++ "_").data <+: (synthIdForIndex draw i).data :=
  ⟨(toString i ++ "_" ++ draw.random).data, by simp [synthIdForIndex]⟩

/-- Draws stamped 0 and 1 give different ids, and `mixedStream` sends no `tool_` id. -/
theorem freshSynthIds_mixedStream : FreshSynthIds (fun k => ⟨k, "r"⟩) mixedStream where
  notSent := SyntheticIdsFresh.of_unprefixed (by decide)
  distinct k hk k' hk' ne i i' same := by
    have stamp := synthIdForIndex_stamp ⟨k, "r"⟩ i
    have stamp' := synthIdForIndex_stamp ⟨k', "r"⟩ i'
    rw [same] at stamp
    simp only [mixedStream, List.length_cons, List.length_nil] at hk hk'
    rcases k with _ | _ | k <;> rcases k' with _ | _ | k'
    all_goals first
      | omega
      | exact absurd (( List.prefix_of_prefix_length_le stamp stamp' (by decide)).eq_of_length
          (by decide)) (by decide)

/-- The stream sent with and without an index keeps its maps consistent. -/
theorem accumulateStream_mapsConsistent_mixed :
    FreshSynthIds (fun k => ⟨k, "r"⟩) mixedStream ∧
      MapsConsistent (accumulateStream (fun k => ⟨k, "r"⟩) mixedStream) :=
  ⟨freshSynthIds_mixedStream,
    accumulateStream_mapsConsistent _ _ freshSynthIds_mixedStream⟩

end Shipit.Inference.Streaming
