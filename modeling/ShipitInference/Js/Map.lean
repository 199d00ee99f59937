import Mathlib.Data.List.Perm.Basic
import Mathlib.Data.List.Nodup

/-! The JavaScript `Map` as an insertion-ordered association list whose keys stay distinct.
`set` on a present key keeps that key's position; `delete` removes it.
-/

namespace Shipit.Inference.Js

/-- A JavaScript `Map` with keys compared by equality. The entries are in insertion order and
no key occurs twice, which is the one invariant every operation keeps.
-/
structure JsMap (κ : Type) (ν : Type) where
  entries : List (κ × ν)
  keysNodup : (entries.map Prod.fst).Nodup

namespace JsMap

variable {κ ν : Type} [DecidableEq κ]

-----------------------------------------------------------------------------------------
-- Association lists
-----------------------------------------------------------------------------------------

private theorem lookup_cons_self (k : κ) (v : ν) (rest : List (κ × ν)) :
    ((k, v) :: rest).lookup k = some v := by
  simp [List.lookup_cons]

private theorem lookup_cons_of_ne {k k' : κ} (v : ν) (rest : List (κ × ν)) (hk : k ≠ k') :
    ((k', v) :: rest).lookup k = rest.lookup k := by
  have different : (k == k') = false := by simpa using hk
  rw [List.lookup_cons, different]

theorem lookup_eq_none_iff {k : κ} :
    ∀ {l : List (κ × ν)}, l.lookup k = none ↔ k ∉ l.map Prod.fst
  | [] => by simp
  | (k', v) :: rest => by
      by_cases hk : k = k'
      · subst hk; simp [lookup_cons_self]
      · rw [lookup_cons_of_ne v rest hk, lookup_eq_none_iff (l := rest)]
        simp [hk]

theorem lookup_of_mem {k : κ} {v : ν} :
    ∀ {l : List (κ × ν)}, (k, v) ∈ l → (l.map Prod.fst).Nodup → l.lookup k = some v
  | [], member, _ => by simp at member
  | (k', v') :: rest, member, unique => by
      have fresh := (List.nodup_cons.mp unique).1
      rcases List.mem_cons.mp member with same | later
      · cases same; exact lookup_cons_self k v rest
      · have hk : k ≠ k' := by
          rintro rfl
          exact fresh (List.mem_map.mpr ⟨(k, v), later, rfl⟩)
        rw [lookup_cons_of_ne v' rest hk]
        exact lookup_of_mem later (List.nodup_cons.mp unique).2

theorem mem_of_lookup {k : κ} {v : ν} :
    ∀ {l : List (κ × ν)}, l.lookup k = some v → (k, v) ∈ l
  | [], found => by simp at found
  | (k', v') :: rest, found => by
      by_cases hk : k = k'
      · subst hk
        rw [lookup_cons_self] at found
        cases found; exact List.mem_cons_self _ _
      · rw [lookup_cons_of_ne v' rest hk] at found
        exact List.mem_cons_of_mem _ (mem_of_lookup found)

-----------------------------------------------------------------------------------------
-- Operations
-----------------------------------------------------------------------------------------

/-- `new Map()`. -/
def empty : JsMap κ ν := ⟨[], List.nodup_nil⟩

/-- `map.get(k)`, with `undefined` as `none`. -/
def get? (m : JsMap κ ν) (k : κ) : Option ν := m.entries.lookup k

/-- `map.has(k)`. -/
def has (m : JsMap κ ν) (k : κ) : Bool := (m.get? k).isSome

/-- `map.size`. -/
def size (m : JsMap κ ν) : Nat := m.entries.length

/-- `Array.from(map.values())`: values in insertion order. -/
def values (m : JsMap κ ν) : List ν := m.entries.map Prod.snd

private theorem keys_overwrite (l : List (κ × ν)) (k : κ) (v : ν) :
    (l.map (fun e => if e.1 = k then (k, v) else e)).map Prod.fst = l.map Prod.fst := by
  induction l with
  | nil => rfl
  | cons e rest ih =>
      by_cases he : e.1 = k
      · simp [he, ih]
      · simp [he, ih]

/-- `map.set(k, v)`: overwrite in place when `k` is present, append otherwise. -/
def set (m : JsMap κ ν) (k : κ) (v : ν) : JsMap κ ν :=
  if present : m.has k then
    ⟨m.entries.map (fun e => if e.1 = k then (k, v) else e),
      (keys_overwrite m.entries k v).symm ▸ m.keysNodup⟩
  else
    ⟨m.entries ++ [(k, v)], by
      have absent : k ∉ m.entries.map Prod.fst := by
        simpa [has, get?, lookup_eq_none_iff] using present
      simpa [List.nodup_append, absent] using m.keysNodup⟩

/-- `map.delete(k)`. -/
def delete (m : JsMap κ ν) (k : κ) : JsMap κ ν :=
  ⟨m.entries.filter (fun e => e.1 ≠ k),
    m.keysNodup.sublist ((List.filter_sublist _).map Prod.fst)⟩

-----------------------------------------------------------------------------------------
-- Lookup after each operation
-----------------------------------------------------------------------------------------

@[simp] theorem get?_empty (k : κ) : (empty : JsMap κ ν).get? k = none := rfl

theorem has_eq (m : JsMap κ ν) (k : κ) : m.has k = (m.get? k).isSome := rfl

theorem get?_eq_some_iff {m : JsMap κ ν} {k : κ} {v : ν} :
    m.get? k = some v ↔ (k, v) ∈ m.entries :=
  ⟨mem_of_lookup, fun member => lookup_of_mem member m.keysNodup⟩

/-- Setting a key changes exactly that key's value. -/
theorem get?_set (m : JsMap κ ν) (k k' : κ) (v : ν) :
    (m.set k v).get? k' = if k' = k then some v else m.get? k' := by
  by_cases same : k' = k
  · subst same
    simp only [if_true]
    apply get?_eq_some_iff.mpr
    unfold set
    split
    · next present =>
        obtain ⟨v', found⟩ := Option.isSome_iff_exists.mp present
        exact List.mem_map.mpr ⟨(k', v'), get?_eq_some_iff.mp found, by simp⟩
    · simp
  · simp only [same, if_false]
    cases found : m.get? k' with
    | none =>
        apply lookup_eq_none_iff.mpr
        have absent := lookup_eq_none_iff.mp found
        unfold set
        split
        · rwa [keys_overwrite]
        · simpa [same] using absent
    | some v' =>
        apply get?_eq_some_iff.mpr
        have member := get?_eq_some_iff.mp found
        unfold set
        split
        · exact List.mem_map.mpr ⟨(k', v'), member, by simp [same]⟩
        · exact List.mem_append_left _ member

/-- Deleting a key removes exactly that key. -/
theorem get?_delete (m : JsMap κ ν) (k k' : κ) :
    (m.delete k).get? k' = if k' = k then none else m.get? k' := by
  by_cases same : k' = k
  · subst same
    simp only [if_true, delete, get?]
    apply lookup_eq_none_iff.mpr
    simp
  · simp only [same, if_false]
    cases found : m.get? k' with
    | none =>
        apply lookup_eq_none_iff.mpr
        have absent := lookup_eq_none_iff.mp found
        simp only [delete, List.mem_map, List.mem_filter] at absent ⊢
        exact fun ⟨e, ⟨member, _⟩, key⟩ => absent ⟨e, member, key⟩
    | some v' =>
        apply get?_eq_some_iff.mpr
        exact List.mem_filter.mpr ⟨get?_eq_some_iff.mp found, by simpa using same⟩

theorem has_iff_exists {m : JsMap κ ν} {k : κ} : m.has k = true ↔ ∃ v, m.get? k = some v :=
  Option.isSome_iff_exists

-----------------------------------------------------------------------------------------
-- Maps that index a growing list
-----------------------------------------------------------------------------------------

/-- A map that finds each position below `n` by the keys that position has, after position
`n` is added under a key no position had: it finds each position below `n + 1`. -/
theorem inverts_set {m : JsMap κ Nat} {n : Nat} {keyed : Nat → κ → Prop} {k₀ : κ}
    (inv : ∀ k r, m.get? k = some r ↔ r < n ∧ keyed r k) (missing : m.get? k₀ = none)
    (new : ∀ k, keyed n k ↔ k = k₀) :
    ∀ k r, (m.set k₀ n).get? k = some r ↔ r < n + 1 ∧ keyed r k := by
  intro k r
  rw [get?_set]
  by_cases hk : k = k₀
  · subst hk
    simp only [if_true, Option.some.injEq]
    constructor
    · rintro rfl; exact ⟨by omega, (new k).mpr rfl⟩
    · rintro ⟨bound, keyedAt⟩
      rcases Nat.lt_succ_iff_lt_or_eq.mp bound with lt | rfl
      · rw [(inv k r).mpr ⟨lt, keyedAt⟩] at missing; cases missing
      · rfl
  · simp only [hk, if_false, inv]
    constructor
    · rintro ⟨lt, keyedAt⟩; exact ⟨by omega, keyedAt⟩
    · rintro ⟨bound, keyedAt⟩
      rcases Nat.lt_succ_iff_lt_or_eq.mp bound with lt | rfl
      · exact ⟨lt, keyedAt⟩
      · exact absurd ((new k).mp keyedAt) hk

/-- The same map, after a position `r₀ < n` that had no key is given a key `k₀` that no
position had. -/
theorem inverts_set_unkeyed {m : JsMap κ Nat} {n r₀ : Nat} {keyed keyed' : Nat → κ → Prop}
    {k₀ : κ} (inv : ∀ k r, m.get? k = some r ↔ r < n ∧ keyed r k) (missing : m.get? k₀ = none)
    (hr₀ : r₀ < n) (old : ∀ k, ¬ keyed r₀ k) (others : ∀ r, r ≠ r₀ → ∀ k, (keyed' r k ↔ keyed r k))
    (new : ∀ k, keyed' r₀ k ↔ k = k₀) :
    ∀ k r, (m.set k₀ r₀).get? k = some r ↔ r < n ∧ keyed' r k := by
  intro k r
  rw [get?_set]
  by_cases hr : r = r₀
  · subst hr
    by_cases hk : k = k₀
    · simp [hk, hr₀, new]
    · simp only [hk, if_false, inv, new, and_false, iff_false]
      exact fun ⟨_, keyedAt⟩ => old k keyedAt
  · by_cases hk : k = k₀
    · subst hk
      simp only [if_true, Option.some.injEq, others r hr]
      constructor
      · rintro rfl; exact absurd rfl hr
      · intro held; rw [(inv k r).mpr held] at missing; cases missing
    · simp only [hk, if_false, inv, others r hr]

/-- The same map, after a position `n` without keys is added. -/
theorem inverts_extend {m : JsMap κ Nat} {n : Nat} {keyed : Nat → κ → Prop}
    (inv : ∀ k r, m.get? k = some r ↔ r < n ∧ keyed r k) (new : ∀ k, ¬ keyed n k) :
    ∀ k r, m.get? k = some r ↔ r < n + 1 ∧ keyed r k := by
  intro k r
  rw [inv]
  constructor
  · rintro ⟨lt, keyedAt⟩; exact ⟨by omega, keyedAt⟩
  · rintro ⟨bound, keyedAt⟩
    rcases Nat.lt_succ_iff_lt_or_eq.mp bound with lt | rfl
    · exact ⟨lt, keyedAt⟩
    · exact absurd keyedAt (new k)

-----------------------------------------------------------------------------------------
-- Size and values
-----------------------------------------------------------------------------------------

theorem size_pos_iff {m : JsMap κ ν} : 0 < m.size ↔ ∃ k v, m.get? k = some v := by
  simp only [size, List.length_pos_iff_exists_mem, get?_eq_some_iff]
  exact ⟨fun ⟨e, member⟩ => ⟨e.1, e.2, member⟩, fun ⟨k, v, member⟩ => ⟨(k, v), member⟩⟩

theorem mem_values_iff {m : JsMap κ ν} {v : ν} : v ∈ m.values ↔ ∃ k, m.get? k = some v := by
  simp only [values, List.mem_map, get?_eq_some_iff]
  exact ⟨fun ⟨e, member, hv⟩ => ⟨e.1, hv ▸ member⟩, fun ⟨k, member⟩ => ⟨(k, v), member, rfl⟩⟩

/-- A map whose lookup is injective holds each value once. -/
theorem values_nodup {m : JsMap κ ν}
    (injective : ∀ k k' v, m.get? k = some v → m.get? k' = some v → k = k') :
    m.values.Nodup := by
  have pairs : m.entries.Nodup := List.Nodup.of_map Prod.fst m.keysNodup
  refine (List.nodup_map_iff_inj_on pairs).mpr ?_
  intro e member e' member' hv
  have hk := injective e.1 e'.1 e.2 (get?_eq_some_iff.mpr member)
    (get?_eq_some_iff.mpr (hv ▸ member'))
  exact Prod.ext hk hv

end JsMap

end Shipit.Inference.Js
