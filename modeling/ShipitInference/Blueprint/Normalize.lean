import ShipitInference.Json.DeepEqual

/-! `normalizeBlueprintData`, the repair `infer` applies to a structured reply before schema
validation: object-shaped lists become arrays of their entries, with each key as the entry's name.
-/

namespace Shipit.Inference.Blueprint

open Shipit.Inference.Json

/-- `{ ...o }` of an object whose members are given in creation order. -/
def objectOf (members : Fields) : Fields := spreadFields [] (ownEntries members)

/-- The three members that keep only their string values. -/
def isStringListKey (k : String) : Bool :=
  k = "pitfalls" ∨ k = "frameworks" ∨ k = "colorPalette"

/-- `typeof v === 'string'`. -/
def JsonValue.isString : JsonValue → Bool
  | .string _ => true
  | _ => false

/-- `.filter((v): v is string => typeof v === 'string')`. -/
def stringValues (items : List JsonValue) : List JsonValue := items.filter JsonValue.isString

mutual

/-- `normalizeBlueprintData(raw)`: a falsy value or one that is not an object is returned as
is, an array item by item, an object with its members repaired.
-/
def normalizeBlueprintData : JsonValue → JsonValue
  | .array items => .array (normalizeItems items)
  | .object fields => .object (objectOf (normalizeMembers fields))
  | v => v

/-- `raw.map(item => normalizeBlueprintData(item))`. -/
def normalizeItems : List JsonValue → List JsonValue
  | [] => []
  | v :: rest => normalizeBlueprintData v :: normalizeItems rest

/-- The members of `{ ...raw }` after the reassignments, in creation order. -/
def normalizeMembers : List (String × JsonValue) → List (String × JsonValue)
  | [] => []
  | (k, v) :: rest => (k, normalizeMember k v) :: normalizeMembers rest

/-- The value a member ends with: the repairs of `views`, `implementationRoadmap`,
`initialPhase` and the string lists; every other member is kept unnormalised.
-/
def normalizeMember (k : String) : JsonValue → JsonValue
  | .object fields =>
      if k = "views" then .array ((ownEntries (keyedMembers "name" fields)).map Prod.snd)
      else if k = "implementationRoadmap" then
        .array ((ownEntries (keyedMembers "phase" fields)).map Prod.snd)
      else if k = "initialPhase" then .object (objectOf (initialPhaseMembers fields))
      else if isStringListKey k then .array (stringValues ((ownEntries fields).map Prod.snd))
      else .object fields
  | .array items =>
      if k = "views" ∨ k = "implementationRoadmap" then .array (normalizeItems items)
      else if isStringListKey k then .array (stringValues items)
      else .array items
  | v => v

/-- The members of a normalised `initialPhase`, whose object-shaped `files` then become an
array of entries keyed by `path`.
-/
def initialPhaseMembers : List (String × JsonValue) → List (String × JsonValue)
  | [] => []
  | (k, v) :: rest =>
      (k, if k = "files" then filesMember v else normalizeMember k v) :: initialPhaseMembers rest

/-- `initialPhase.files` when it is an object. -/
def filesMember : JsonValue → JsonValue
  | .object fields => .array ((ownEntries (keyedMembers "path" fields)).map Prod.snd)
  | v => v

/-- `Object.entries(o).map(([key, value]) => ...)`, key by key. -/
def keyedMembers (idKey : String) : List (String × JsonValue) → List (String × JsonValue)
  | [] => []
  | (k, v) :: rest => (k, keyedElement idKey k v) :: keyedMembers idKey rest

/-- One entry: an object value without the identifying member gets the key as that member,
in front of its normalised members; any other value is normalised.
-/
def keyedElement (idKey k : String) : JsonValue → JsonValue
  | .object fields =>
      if hasField fields idKey then .object (objectOf (normalizeMembers fields))
      else .object (spreadFields [(idKey, .string k)] (ownEntries (objectOf (normalizeMembers fields))))
  | .array items => .array (normalizeItems items)
  | v => v

end

-- ---------------------------------------------------------------------------
-- Equations
-- ---------------------------------------------------------------------------

@[simp]
theorem normalizeBlueprintData_array (items : List JsonValue) :
    normalizeBlueprintData (.array items) = .array (normalizeItems items) := rfl

@[simp]
theorem normalizeBlueprintData_object (fields : Fields) :
    normalizeBlueprintData (.object fields) = .object (objectOf (normalizeMembers fields)) := rfl

theorem normalizeMember_object (k : String) (fields : Fields) :
    normalizeMember k (.object fields) =
      if k = "views" then .array ((ownEntries (keyedMembers "name" fields)).map Prod.snd)
      else if k = "implementationRoadmap" then
        .array ((ownEntries (keyedMembers "phase" fields)).map Prod.snd)
      else if k = "initialPhase" then .object (objectOf (initialPhaseMembers fields))
      else if isStringListKey k then .array (stringValues ((ownEntries fields).map Prod.snd))
      else .object fields := rfl

theorem normalizeMember_array (k : String) (items : List JsonValue) :
    normalizeMember k (.array items) =
      if k = "views" ∨ k = "implementationRoadmap" then .array (normalizeItems items)
      else if isStringListKey k then .array (stringValues items)
      else .array items := rfl

@[simp]
theorem normalizeMember_string (k s : String) : normalizeMember k (.string s) = .string s := rfl

theorem keyedElement_object (idKey k : String) (fields : Fields) :
    keyedElement idKey k (.object fields) =
      if hasField fields idKey then .object (objectOf (normalizeMembers fields))
      else .object (spreadFields [(idKey, .string k)]
        (ownEntries (objectOf (normalizeMembers fields)))) := rfl

@[simp]
theorem filesMember_object (fields : Fields) :
    filesMember (.object fields) = .array ((ownEntries (keyedMembers "path" fields)).map Prod.snd) :=
  rfl

-- ---------------------------------------------------------------------------
-- Member by member
-- ---------------------------------------------------------------------------

theorem normalizeItems_eq_map (items : List JsonValue) :
    normalizeItems items = items.map normalizeBlueprintData := by
  induction items with
  | nil => rfl
  | cons v rest ih => simp [normalizeItems, ih]

theorem normalizeMembers_eq_map (fields : Fields) :
    normalizeMembers fields = fields.map fun e => (e.1, normalizeMember e.1 e.2) := by
  induction fields with
  | nil => rfl
  | cons e rest ih => obtain ⟨k, v⟩ := e; simp [normalizeMembers, ih]

theorem keyedMembers_eq_map (idKey : String) (fields : Fields) :
    keyedMembers idKey fields = fields.map fun e => (e.1, keyedElement idKey e.1 e.2) := by
  induction fields with
  | nil => rfl
  | cons e rest ih => obtain ⟨k, v⟩ := e; simp [keyedMembers, ih]

theorem initialPhaseMembers_eq_map (fields : Fields) :
    initialPhaseMembers fields = fields.map fun e =>
      (e.1, if e.1 = "files" then filesMember e.2 else normalizeMember e.1 e.2) := by
  induction fields with
  | nil => rfl
  | cons e rest ih => obtain ⟨k, v⟩ := e; simp [initialPhaseMembers, ih]

/-- `{ ...o }` builds the object the members describe: every key reads what it read. -/
@[simp]
theorem memberValue_objectOf (members : Fields) (k : String) :
    memberValue (objectOf members) k = memberValue members k := by
  rw [objectOf, memberValue_spreadFields, List.nil_append, memberValue_ownEntries]

/-- The entries of an object-shaped list, in `Object.entries` order. -/
theorem keyedEntries_eq (idKey : String) (fields : Fields) :
    (ownEntries (keyedMembers idKey fields)).map Prod.snd =
      (ownEntries fields).map fun e => keyedElement idKey e.1 e.2 := by
  rw [keyedMembers_eq_map, ownEntries_map (fun k v => keyedElement idKey k v), List.map_map]
  rfl

theorem stringValues_stringValues (items : List JsonValue) :
    stringValues (stringValues items) = stringValues items := by
  simp [stringValues, List.filter_filter]

/-- A member that is none of the six repaired ones is kept as it is. -/
theorem normalizeMember_of_not_repaired {k : String}
    (plain : k ∉ ["views", "implementationRoadmap", "initialPhase", "pitfalls", "frameworks",
      "colorPalette"]) (v : JsonValue) : normalizeMember k v = v := by
  simp only [List.mem_cons, List.mem_singleton, not_or, List.not_mem_nil] at plain
  obtain ⟨hv, hr, hi, hp, hf, hc, -⟩ := plain
  cases v <;> first
    | rfl
    | simp [normalizeMember_object, normalizeMember_array, isStringListKey, hv, hr, hi, hp, hf, hc]

-- ---------------------------------------------------------------------------
-- Idempotence, up to deep equality
-- ---------------------------------------------------------------------------

section Idempotence

/-- Normalising a value twice is deep-equal to normalising it once. -/
def Settles (v : JsonValue) : Prop :=
  canonical (normalizeBlueprintData (normalizeBlueprintData v)) =
    canonical (normalizeBlueprintData v)

/-- Normalising a member twice under its key is deep-equal to normalising it once. -/
def MemberSettles (e : String × JsonValue) : Prop :=
  canonical (normalizeMember e.1 (normalizeMember e.1 e.2)) = canonical (normalizeMember e.1 e.2)

/-- A repaired entry is left deep-equal by normalisation. -/
def EntrySettles (idKey : String) (e : String × JsonValue) : Prop :=
  canonical (normalizeBlueprintData (keyedElement idKey e.1 e.2)) =
    canonical (keyedElement idKey e.1 e.2)

theorem settles_array {items : List JsonValue} (each : ∀ v ∈ items, Settles v) :
    Settles (.array items) := by
  simp only [Settles, normalizeBlueprintData_array, normalizeItems_eq_map]
  refine canonical_array_congr ?_
  simpa only [List.map_map] using List.map_congr_left each

theorem settles_object {fields : Fields} (each : ∀ e ∈ fields, MemberSettles e) :
    Settles (.object fields) := by
  simp only [Settles, normalizeBlueprintData_object]
  refine canonical_object_congr fun k => ?_
  simp only [memberValue_objectOf, normalizeMembers_eq_map,
    memberValue_map (fun k v => normalizeMember k v)]
  cases hv : memberValue fields k with
  | none => rfl
  | some v => simpa using each (k, v) (mem_of_memberValue hv)

/-- The entries an object-shaped list becomes are left deep-equal when each entry is. -/
theorem settles_entries {idKey : String} {fields : Fields} (each : ∀ e ∈ fields, EntrySettles idKey e) :
    canonical (.array (normalizeItems ((ownEntries (keyedMembers idKey fields)).map Prod.snd))) =
      canonical (.array ((ownEntries (keyedMembers idKey fields)).map Prod.snd)) := by
  rw [keyedEntries_eq, normalizeItems_eq_map]
  refine canonical_array_congr ?_
  simpa only [List.map_map] using
    List.map_congr_left fun e he => each e ((perm_ownEntries fields).mem_iff.1 he)

/-- A repaired `initialPhase` is left deep-equal when each of its members is. -/
theorem settles_initialPhase {fields : Fields} (each : ∀ e ∈ fields, MemberSettles e) :
    MemberSettles ("initialPhase", .object fields) := by
  simp only [MemberSettles, normalizeMember_object, if_neg (by decide : ("initialPhase" : String) ≠ "views"),
    if_neg (by decide : ("initialPhase" : String) ≠ "implementationRoadmap"), if_pos]
  refine canonical_object_congr fun k => ?_
  simp only [memberValue_objectOf, initialPhaseMembers_eq_map,
    memberValue_map (fun k v => if k = "files" then filesMember v else normalizeMember k v)]
  cases hv : memberValue fields k with
  | none => rfl
  | some v =>
      by_cases files : k = "files"
      · subst files; cases v <;> rfl
      · simpa [files] using each (k, v) (mem_of_memberValue hv)

/-- An object entry without its identifying member, once repaired, is left deep-equal when its
members are: the key stands in for the member, and a string is its own normal form. -/
theorem entrySettles_missing {idKey k : String} {fields : Fields}
    (missing : hasField fields idKey = false) (each : ∀ e ∈ fields, MemberSettles e) :
    EntrySettles idKey (k, .object fields) := by
  simp only [EntrySettles, keyedElement_object, missing, Bool.false_eq_true, if_false,
    normalizeBlueprintData_object]
  refine canonical_object_congr fun j => ?_
  simp only [memberValue_objectOf, normalizeMembers_eq_map,
    memberValue_map (fun k v => normalizeMember k v), memberValue_spreadFields,
    memberValue_append, memberValue_ownEntries, memberValue_singleton]
  cases hv : memberValue fields j with
  | none => by_cases h : idKey = j <;> simp [h]
  | some v => simpa using each (j, v) (mem_of_memberValue hv)

mutual

theorem settles : ∀ v : JsonValue, Settles v
  | .array items => settles_array (settles_items items)
  | .object fields => settles_object (settles_members fields)
  | .null => rfl
  | .bool _ => rfl
  | .number _ => rfl
  | .string _ => rfl

theorem settles_items : ∀ items : List JsonValue, ∀ v ∈ items, Settles v
  | [], _, h => absurd h (List.not_mem_nil _)
  | v :: rest, w, h => by
      rcases List.mem_cons.1 h with h | h
      · exact h ▸ settles v
      · exact settles_items rest w h

theorem settles_members : ∀ fields : Fields, ∀ e ∈ fields, MemberSettles e
  | [], _, h => absurd h (List.not_mem_nil _)
  | (k, v) :: rest, e, h => by
      rcases List.mem_cons.1 h with h | h
      · exact h ▸ memberSettles k v
      · exact settles_members rest e h

theorem memberSettles (k : String) : ∀ v : JsonValue, MemberSettles (k, v)
  | .object fields => by
      by_cases views : k = "views"
      · subst views
        simpa [MemberSettles, normalizeMember_object, normalizeMember_array] using settles_entries (settles_keyed "name" fields)
      by_cases roadmap : k = "implementationRoadmap"
      · subst roadmap
        simpa [MemberSettles, normalizeMember_object, normalizeMember_array] using settles_entries (settles_keyed "phase" fields)
      by_cases phase : k = "initialPhase"
      · subst phase; exact settles_initialPhase (settles_members fields)
      by_cases strings : isStringListKey k
      · simp [MemberSettles, normalizeMember_object, normalizeMember_array, views, roadmap, phase,
          strings, stringValues_stringValues]
      · simp [MemberSettles, normalizeMember_object, views, roadmap, phase, strings]
  | .array items => by
      by_cases entries : k = "views" ∨ k = "implementationRoadmap"
      · simp only [MemberSettles, normalizeMember_array, entries, if_true]
        exact settles_array (settles_items items)
      by_cases strings : isStringListKey k
      · simp [MemberSettles, normalizeMember_array, entries, strings, stringValues_stringValues]
      · simp [MemberSettles, normalizeMember_array, entries, strings]
  | .null => rfl
  | .bool _ => rfl
  | .number _ => rfl
  | .string _ => rfl

theorem settles_keyed (idKey : String) : ∀ fields : Fields, ∀ e ∈ fields, EntrySettles idKey e
  | [], _, h => absurd h (List.not_mem_nil _)
  | (k, v) :: rest, e, h => by
      rcases List.mem_cons.1 h with h | h
      · exact h ▸ entrySettles idKey k v
      · exact settles_keyed idKey rest e h

theorem entrySettles (idKey k : String) : ∀ v : JsonValue, EntrySettles idKey (k, v)
  | .object fields => by
      cases named : hasField fields idKey
      · exact entrySettles_missing named (settles_members fields)
      · simpa [EntrySettles, keyedElement_object, named] using settles_object (settles_members fields)
  | .array items => settles_array (settles_items items)
  | .null => rfl
  | .bool _ => rfl
  | .number _ => rfl
  | .string _ => rfl

end

end Idempotence

/-- Normalising a value a second time gives a value deep-equal to the first result. -/
theorem normalizeBlueprintData_idempotent (v : JsonValue) :
    canonical (normalizeBlueprintData (normalizeBlueprintData v)) =
      canonical (normalizeBlueprintData v) :=
  settles v

-- ---------------------------------------------------------------------------
-- What an object becomes
-- ---------------------------------------------------------------------------

/-- What `Object.entries(o).map(...)` makes of the entry `[key, value]` of an object-shaped list
whose items are identified by `idKey`: the value normalised. An object value that has the
identifying member is normalised and keeps the member's value; one that lacks it becomes the
normalised value with the key added as that member.
-/
def RepairedEntry (idKey key : String) (value el : JsonValue) : Prop :=
  match value with
  | .object fields =>
      if hasField fields idKey then
        el = normalizeBlueprintData value ∧
          ∃ members, el = .object members ∧ memberValue members idKey = memberValue fields idKey
      else
        ∃ members, el = .object members ∧ memberValue members idKey = some (.string key) ∧
          canonical (.object (members.filter (·.1 ≠ idKey))) = canonical (normalizeBlueprintData value)
  | _ => el = normalizeBlueprintData value

/-- Each key of a normalised object reads its old value, normalised as the key says. -/
@[simp]
theorem memberValue_normalizeMembers (fields : Fields) (k : String) :
    memberValue (normalizeMembers fields) k = (memberValue fields k).map (normalizeMember k) := by
  rw [normalizeMembers_eq_map, memberValue_map (fun k v => normalizeMember k v)]

theorem memberValue_eq_none_of_hasField {fields : Fields} {k : String}
    (missing : hasField fields k = false) : memberValue fields k = none := by
  rw [← Option.not_isSome_iff_eq_none, memberValue_isSome_iff, ← hasField_iff, missing]
  decide

/-- The repair of one entry meets `RepairedEntry`, for an identifying member that normalisation
keeps as it is.
-/
theorem keyedElement_repaired {idKey : String} (plain : ∀ w, normalizeMember idKey w = w)
    (key : String) : ∀ value, RepairedEntry idKey key value (keyedElement idKey key value)
  | .object fields => by
      cases named : hasField fields idKey
      · simp only [RepairedEntry, keyedElement_object, named, Bool.false_eq_true, if_false]
        refine ⟨_, rfl, ?_, ?_⟩
        · simp [memberValue_spreadFields, memberValue_cons, memberValue_ownEntries,
            memberValue_eq_none_of_hasField named]
        · refine canonical_object_congr fun j => ?_
          rw [memberValue_filter_key (fun k => decide (k ≠ idKey))]
          by_cases h : j = idKey
          · subst h
            simp [memberValue_eq_none_of_hasField named]
          · simp [h, memberValue_spreadFields, memberValue_cons,
              memberValue_ownEntries, Ne.symm h]
      · simp only [RepairedEntry, keyedElement_object, named, if_true]
        exact ⟨rfl, _, rfl,
          by simp [funext plain]⟩
  | .array _ => rfl
  | .null => rfl
  | .bool _ => rfl
  | .number _ => rfl
  | .string _ => rfl

/-- An object-shaped list becomes one repaired element per entry, in `Object.entries` order. -/
theorem keyedEntries_repaired {idKey : String} (plain : ∀ w, normalizeMember idKey w = w)
    (fields : Fields) :
    List.Forall₂ (fun e el => RepairedEntry idKey e.1 e.2 el) (ownEntries fields)
      ((ownEntries (keyedMembers idKey fields)).map Prod.snd) := by
  rw [keyedEntries_eq]
  exact List.forall₂_map_right_iff.2 (List.forall₂_same.2 fun e _ => keyedElement_repaired plain _ _)

theorem normalizeMember_idKey (idKey : String) (named : idKey ∈ ["name", "phase", "path"])
    (w : JsonValue) : normalizeMember idKey w = w := by
  simp only [List.mem_cons, List.mem_singleton, List.not_mem_nil, or_false] at named
  rcases named with rfl | rfl | rfl <;> cases w <;> rfl

/-- `normalizeBlueprintData` on an object: the members other than the six it repairs are kept;
`views`, `implementationRoadmap` and `initialPhase.files` given as objects become one repaired
element per entry, in `Object.entries` order; the three string lists keep exactly their string
members, in order; and no member is added or lost.
-/
theorem normalizeBlueprintData_repairsObject (fields : Fields) :
    ∃ result, normalizeBlueprintData (.object fields) = .object result ∧
      (∀ k, (memberValue result k).isSome = (memberValue fields k).isSome) ∧
      (∀ k, k ∉ ["views", "implementationRoadmap", "initialPhase", "pitfalls", "frameworks",
          "colorPalette"] → memberValue result k = memberValue fields k) ∧
      (∀ key idKey, (key, idKey) ∈ [("views", "name"), ("implementationRoadmap", "phase")] →
        ∀ entries, memberValue fields key = some (.object entries) →
        ∃ elems, memberValue result key = some (.array elems) ∧
          List.Forall₂ (fun e el => RepairedEntry idKey e.1 e.2 el) (ownEntries entries) elems) ∧
      (∀ phase entries, memberValue fields "initialPhase" = some (.object phase) →
        memberValue phase "files" = some (.object entries) →
        ∃ phase' elems, memberValue result "initialPhase" = some (.object phase') ∧
          memberValue phase' "files" = some (.array elems) ∧
          List.Forall₂ (fun e el => RepairedEntry "path" e.1 e.2 el) (ownEntries entries) elems) ∧
      (∀ k, k ∈ ["pitfalls", "frameworks", "colorPalette"] →
        (∀ entries, memberValue fields k = some (.object entries) →
          memberValue result k =
            some (.array (((ownEntries entries).map Prod.snd).filter JsonValue.isString))) ∧
        (∀ items, memberValue fields k = some (.array items) →
          memberValue result k = some (.array (items.filter JsonValue.isString)))) := by
  refine ⟨objectOf (normalizeMembers fields), rfl, fun k => ?_, fun k plain => ?_,
    fun key idKey named entries hv => ?_, fun phase entries hp hf => ?_, fun k strings => ?_⟩
  · simp
  · simp [funext (normalizeMember_of_not_repaired plain)]
  · simp only [List.mem_cons, Prod.mk.injEq, List.mem_singleton, List.not_mem_nil, or_false] at named
    rcases named with ⟨rfl, rfl⟩ | ⟨rfl, rfl⟩
    · exact ⟨_, by simp [hv, normalizeMember_object],
        keyedEntries_repaired (normalizeMember_idKey "name" (by decide)) entries⟩
    · exact ⟨_, by simp [hv, normalizeMember_object],
        keyedEntries_repaired (normalizeMember_idKey "phase" (by decide)) entries⟩
  · refine ⟨objectOf (initialPhaseMembers phase), _, by simp [hp, normalizeMember_object], ?_,
      keyedEntries_repaired (normalizeMember_idKey "path" (by decide)) entries⟩
    simp [initialPhaseMembers_eq_map,
      memberValue_map (fun k v => if k = "files" then filesMember v else normalizeMember k v),
      hf]
  · simp only [List.mem_cons, List.mem_singleton, List.not_mem_nil, or_false] at strings
    rcases strings with rfl | rfl | rfl <;>
      exact ⟨fun entries hv => by
          simp [hv, normalizeMember_object, isStringListKey, stringValues],
        fun items hv => by
          simp [hv, normalizeMember_array, isStringListKey, stringValues]⟩

end Shipit.Inference.Blueprint
