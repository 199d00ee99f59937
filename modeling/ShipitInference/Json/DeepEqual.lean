import Mathlib.Data.List.Dedup
import Mathlib.Data.List.Sort
import Mathlib.Data.String.Basic
import ShipitInference.Json.Value

/-! Reading an object's members as JavaScript does (the last value given for a key wins), and
deep equality as agreement of `canonical` forms, which ignore the order of members.
-/

namespace Shipit.Inference.Json

-- ---------------------------------------------------------------------------
-- The value a key reads
-- ---------------------------------------------------------------------------

/-- `o[k]` on the object a member list builds: the value of the key's last occurrence. -/
def memberValue {α : Type} (fields : List (String × α)) (k : String) : Option α :=
  ((fields.filter (·.1 = k)).getLast?).map Prod.snd

section MemberValue

variable {α β : Type}

@[simp]
theorem memberValue_nil (k : String) : memberValue ([] : List (String × α)) k = none := rfl

theorem memberValue_append (l₁ l₂ : List (String × α)) (k : String) :
    memberValue (l₁ ++ l₂) k = (memberValue l₂ k).or (memberValue l₁ k) := by
  simp only [memberValue, List.filter_append, List.getLast?_append]
  cases (l₂.filter (·.1 = k)).getLast? <;> rfl

theorem memberValue_singleton (e : String × α) (k : String) :
    memberValue [e] k = if e.1 = k then some e.2 else none := by
  by_cases h : e.1 = k <;> simp [memberValue, List.filter, h]

theorem memberValue_cons (e : String × α) (l : List (String × α)) (k : String) :
    memberValue (e :: l) k = (memberValue l k).or (if e.1 = k then some e.2 else none) := by
  rw [← List.singleton_append, memberValue_append, memberValue_singleton]

/-- A key reads a value exactly when the list names it. -/
theorem memberValue_isSome_iff (l : List (String × α)) (k : String) :
    (memberValue l k).isSome ↔ k ∈ l.map Prod.fst := by
  simp [memberValue, List.getLast?_isSome, List.filter_eq_nil_iff]

theorem mem_of_memberValue {l : List (String × α)} {k : String} {v : α}
    (h : memberValue l k = some v) : (k, v) ∈ l := by
  induction l with
  | nil => simp at h
  | cons e rest ih =>
      rw [memberValue_cons] at h
      cases hr : memberValue rest k with
      | some w =>
          rw [hr] at h
          change some w = some v at h
          exact List.mem_cons_of_mem _ (ih (hr.trans h))
      | none =>
          rw [hr, Option.none_or] at h
          split at h
          · cases h
            exact List.mem_cons.2 (.inl (by subst k; rfl))
          · cases h

/-- Rewriting each member's value, possibly by its key, rewrites the value each key reads. -/
theorem memberValue_map (f : String → α → β) (l : List (String × α)) (k : String) :
    memberValue (l.map fun e => (e.1, f e.1 e.2)) k = (memberValue l k).map (f k) := by
  induction l with
  | nil => rfl
  | cons e rest ih =>
      simp only [List.map_cons, memberValue_cons, ih]
      cases memberValue rest k <;> by_cases h : e.1 = k <;> simp [h]

/-- Dropping the members whose key fails a test: the other keys read what they read. -/
theorem memberValue_filter_key (q : String → Bool) (l : List (String × α)) (k : String) :
    memberValue (l.filter fun e => q e.1) k = if q k then memberValue l k else none := by
  induction l with
  | nil => simp
  | cons e rest ih =>
      by_cases h : e.1 = k
      · by_cases hq : q k <;> simp [List.filter_cons, memberValue_cons, h, hq, ih]
      · by_cases hq : q e.1 <;> simp [List.filter_cons, memberValue_cons, h, hq, ih]

end MemberValue

-- ---------------------------------------------------------------------------
-- Assignment and spreading
-- ---------------------------------------------------------------------------

theorem hasField_iff (fields : Fields) (k : String) :
    hasField fields k = true ↔ k ∈ fields.map Prod.fst := by
  simp [hasField, getField, List.lookup_isSome_iff]

/-- `o[k] = v` changes what `k` reads and nothing else. -/
theorem memberValue_setField (fields : Fields) (k j : String) (v : JsonValue) :
    memberValue (setField fields k v) j = if k = j then some v else memberValue fields j := by
  unfold setField
  split
  case isTrue has =>
    have named : (memberValue fields k).isSome := by
      rw [memberValue_isSome_iff, ← hasField_iff]; exact has
    have reassign : (fun e : String × JsonValue => if e.1 = k then (k, v) else e) =
        fun e => (e.1, (fun k' w => if k' = k then v else w) e.1 e.2) := by
      funext e; by_cases h : e.1 = k <;> simp [h]
    rw [reassign, memberValue_map (fun k' w => if k' = k then v else w)]
    by_cases h : k = j
    · subst h
      obtain ⟨w, hw⟩ := Option.isSome_iff_exists.1 named
      simp [hw]
    · simp [h, Ne.symm h]
  case isFalse => by_cases h : k = j <;> simp [memberValue_append, memberValue_singleton, h]

/-- `{ ...init, ...entries }` reads as `init` followed by `entries`: a later member wins. -/
theorem memberValue_spreadFields (init entries : Fields) (j : String) :
    memberValue (spreadFields init entries) j = memberValue (init ++ entries) j := by
  induction entries generalizing init with
  | nil => simp [spreadFields]
  | cons e rest ih =>
      show memberValue (spreadFields (setField init e.1 e.2) rest) j = _
      rw [ih, memberValue_append, memberValue_setField, ← List.singleton_append,
        ← List.append_assoc, memberValue_append, memberValue_append, memberValue_singleton]
      by_cases h : e.1 = j <;> simp [h]

-- ---------------------------------------------------------------------------
-- Property order
-- ---------------------------------------------------------------------------

/-- Insertion sort keeps the relative order of elements the relation cannot tell apart: the
elements a filter selects keep their order when they are pairwise related. -/
theorem filter_insertionSort {γ : Type} (r : γ → γ → Prop) [DecidableRel r] (p : γ → Bool)
    (l : List γ) (tied : (l.filter p).Pairwise r) :
    (l.insertionSort r).filter p = l.filter p := by
  have kept : List.Sublist (l.filter p) ((l.insertionSort r).filter p) := by
    simpa using (List.sublist_insertionSort tied (List.filter_sublist l)).filter p
  refine (kept.eq_of_length ?_).symm
  rw [← List.countP_eq_length_filter, ← List.countP_eq_length_filter,
    (List.perm_insertionSort r l).countP_eq]

theorem perm_ownEntries {α : Type} (l : List (String × α)) : List.Perm (ownEntries l) l := by
  unfold ownEntries
  refine ((List.perm_insertionSort _ _).append_right _).trans ?_
  simpa using List.filter_append_perm (fun e : String × α => (arrayIndex? e.1).isSome) l

/-- `Object.entries` keeps every occurrence of a key, in order. -/
theorem filter_key_ownEntries {α : Type} (l : List (String × α)) (k : String) :
    (ownEntries l).filter (·.1 = k) = l.filter (·.1 = k) := by
  unfold ownEntries
  rw [List.filter_append, filter_insertionSort, List.filter_filter, List.filter_filter]
  · have sameKey : ∀ (q : Option Nat → Bool) (e : String × α),
        (decide (e.1 = k) && q (arrayIndex? e.1)) = (decide (e.1 = k) && q (arrayIndex? k)) := by
      intro q e; by_cases h : e.1 = k <;> simp [h]
    simp only [sameKey Option.isSome, sameKey Option.isNone]
    cases arrayIndex? k <;> simp
  · refine List.pairwise_of_forall_mem_list fun a ha b hb => ?_
    simp only [List.filter_filter, List.mem_filter, Bool.and_eq_true, decide_eq_true_eq] at ha hb
    rw [ha.2.1, hb.2.1]

theorem memberValue_ownEntries {α : Type} (l : List (String × α)) (k : String) :
    memberValue (ownEntries l) k = memberValue l k := by
  simp only [memberValue, filter_key_ownEntries]

/-- With each key named once, the member `o[k]` finds first is the one an object literal keeps. -/
theorem getField_eq_memberValue {fields : Fields} (distinct : (fields.map Prod.fst).Nodup)
    (k : String) : getField fields k = memberValue fields k := by
  induction fields with
  | nil => rfl
  | cons e rest ih =>
    obtain ⟨k', v⟩ := e
    rw [List.map_cons, List.nodup_cons] at distinct
    have tail := ih distinct.2
    simp only [getField] at tail ⊢
    rw [memberValue_cons, ← tail, List.lookup_cons]
    by_cases same : k' = k
    · subst same
      have absent : rest.lookup k' = none := by
        rw [tail, ← Option.not_isSome_iff_eq_none, memberValue_isSome_iff]; exact distinct.1
      simp [absent]
    · have different : (k == k') = false := by simpa using Ne.symm same
      simp [different, same]

/-- `Object.entries` of an object whose values were rewritten key by key. -/
theorem ownEntries_map {α β : Type} (f : String → α → β) (l : List (String × α)) :
    ownEntries (l.map fun e => (e.1, f e.1 e.2)) = (ownEntries l).map fun e => (e.1, f e.1 e.2) := by
  unfold ownEntries
  rw [List.map_append, List.filter_map, List.filter_map]
  congr 1
  exact (List.map_insertionSort (fun a b : String × α => (arrayIndex? a.1).getD 0 ≤ (arrayIndex? b.1).getD 0)
    (fun a b : String × β => (arrayIndex? a.1).getD 0 ≤ (arrayIndex? b.1).getD 0) _ _
    fun _ _ _ _ => Iff.rfl).symm

/-- `Object.entries` of an object already in that order keeps it: the index keys come out
sorted and the other keys after them. -/
theorem ownEntries_ownEntries {α : Type} (l : List (String × α)) :
    ownEntries (ownEntries l) = ownEntries l := by
  have : IsTotal (String × α) fun a b => (arrayIndex? a.1).getD 0 ≤ (arrayIndex? b.1).getD 0 :=
    ⟨fun _ _ => le_total _ _⟩
  have : IsTrans (String × α) fun a b => (arrayIndex? a.1).getD 0 ≤ (arrayIndex? b.1).getD 0 :=
    ⟨fun _ _ _ => le_trans⟩
  unfold ownEntries
  set S := List.insertionSort (fun a b : String × α => (arrayIndex? a.1).getD 0 ≤ (arrayIndex? b.1).getD 0)
    (l.filter fun e => (arrayIndex? e.1).isSome) with sorted
  set R := l.filter fun e => (arrayIndex? e.1).isNone
  have indexed : ∀ e ∈ S, (arrayIndex? e.1).isSome := fun e member =>
    (List.mem_filter.1 ((List.perm_insertionSort _ _).subset member)).2
  have unindexed : ∀ e ∈ R, (arrayIndex? e.1).isNone := fun e member => (List.mem_filter.1 member).2
  have sSome : S.filter (fun e => (arrayIndex? e.1).isSome) = S := List.filter_eq_self.2 indexed
  have sNone : S.filter (fun e => (arrayIndex? e.1).isNone) = [] :=
    List.filter_eq_nil_iff.2 fun e member => by
      simpa [Option.isSome_iff_ne_none] using indexed e member
  have rSome : R.filter (fun e => (arrayIndex? e.1).isSome) = [] :=
    List.filter_eq_nil_iff.2 fun e member => by simpa using unindexed e member
  have rNone : R.filter (fun e => (arrayIndex? e.1).isNone) = R := List.filter_eq_self.2 unindexed
  rw [List.filter_append, List.filter_append, sSome, sNone, rSome, rNone, List.append_nil,
    List.nil_append, sorted, (List.sorted_insertionSort _ _).insertionSort_eq]

-- ---------------------------------------------------------------------------
-- Deep equality
-- ---------------------------------------------------------------------------

/-- An object's members in a fixed order: its keys sorted, each once with the value it reads. -/
def sortedMembers {α : Type} (fields : List (String × α)) : List (String × α) :=
  ((fields.map Prod.fst).dedup.insertionSort (· ≤ ·)).filterMap
    fun k => (memberValue fields k).map (k, ·)

/-- Member lists whose keys read the same values have the same sorted members. -/
theorem sortedMembers_congr {α : Type} {l l' : List (String × α)}
    (same : ∀ k, memberValue l k = memberValue l' k) : sortedMembers l = sortedMembers l' := by
  have keys : (l.map Prod.fst).dedup.insertionSort (· ≤ ·) =
      (l'.map Prod.fst).dedup.insertionSort (· ≤ ·) := by
    refine List.eq_of_perm_of_sorted ?_ (List.sorted_insertionSort _ _)
      (List.sorted_insertionSort _ _)
    refine (List.perm_insertionSort _ _).trans (List.Perm.trans ?_ (List.perm_insertionSort _ _).symm)
    refine (List.perm_ext_iff_of_nodup (List.nodup_dedup _) (List.nodup_dedup _)).2 fun k => ?_
    simp only [List.mem_dedup, ← memberValue_isSome_iff, same]
  simp only [sortedMembers, keys, same]

mutual

/-- The canonical form of a value. Deep-equal values, those JavaScript cannot tell apart by
their items and members, are those with the same canonical form.
-/
def canonical : JsonValue → JsonValue
  | .array items => .array (canonicalItems items)
  | .object fields => .object (sortedMembers (canonicalMembers fields))
  | v => v

/-- `canonical` item by item. -/
def canonicalItems : List JsonValue → List JsonValue
  | [] => []
  | v :: rest => canonical v :: canonicalItems rest

/-- `canonical` member by member. -/
def canonicalMembers : List (String × JsonValue) → List (String × JsonValue)
  | [] => []
  | (k, v) :: rest => (k, canonical v) :: canonicalMembers rest

end

theorem canonicalItems_eq_map (items : List JsonValue) :
    canonicalItems items = items.map canonical := by
  induction items with
  | nil => rfl
  | cons v rest ih => simp [canonicalItems, ih]

theorem canonicalMembers_eq_map (fields : Fields) :
    canonicalMembers fields = fields.map fun e => (e.1, canonical e.2) := by
  induction fields with
  | nil => rfl
  | cons e rest ih => obtain ⟨k, v⟩ := e; simp [canonicalMembers, ih]

/-- Objects whose keys read deep-equal values are deep-equal. -/
theorem canonical_object_congr {l l' : Fields}
    (same : ∀ k, (memberValue l k).map canonical = (memberValue l' k).map canonical) :
    canonical (.object l) = canonical (.object l') := by
  simp only [canonical, canonicalMembers_eq_map]
  congr 1
  exact sortedMembers_congr fun k => by
    rw [memberValue_map (fun _ v => canonical v), memberValue_map (fun _ v => canonical v)]
    exact same k

/-- Arrays whose items are deep-equal one by one are deep-equal. -/
theorem canonical_array_congr {items items' : List JsonValue}
    (same : items.map canonical = items'.map canonical) :
    canonical (.array items) = canonical (.array items') := by
  simp only [canonical, canonicalItems_eq_map, same]

end Shipit.Inference.Json
