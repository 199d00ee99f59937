import ShipitInference.Json.Parse
import ShipitInference.Json.DeepEqual

/-! Every object `JSON.parse` builds names each key once, since a repeated key overwrites its
member in place.
-/

namespace Shipit.Inference.Json

open Shipit.Inference.Js

-----------------------------------------------------------------------------------------
-- Values whose objects name each key once
-----------------------------------------------------------------------------------------

mutual

/-- Every object in the value names each key once. -/
def distinctKeys : JsonValue → Bool
  | .array items => distinctKeysItems items
  | .object fields => decide (fields.map Prod.fst).Nodup && distinctKeysMembers fields
  | _ => true

def distinctKeysItems : List JsonValue → Bool
  | [] => true
  | v :: rest => distinctKeys v && distinctKeysItems rest

def distinctKeysMembers : List (String × JsonValue) → Bool
  | [] => true
  | (_, v) :: rest => distinctKeys v && distinctKeysMembers rest

end

theorem distinctKeys_array {items : List JsonValue} :
    distinctKeys (.array items) = true ↔ ∀ v ∈ items, distinctKeys v = true := by
  rw [distinctKeys]
  induction items with
  | nil => simp [distinctKeysItems]
  | cons v rest ih => simp [distinctKeysItems, ih]

theorem distinctKeys_object {fields : Fields} :
    distinctKeys (.object fields) = true ↔
      (fields.map Prod.fst).Nodup ∧ ∀ e ∈ fields, distinctKeys e.2 = true := by
  have members : distinctKeysMembers fields = true ↔ ∀ e ∈ fields, distinctKeys e.2 = true := by
    induction fields with
    | nil => simp [distinctKeysMembers]
    | cons e rest ih => obtain ⟨k, v⟩ := e; simp [distinctKeysMembers, ih]
  rw [distinctKeys, Bool.and_eq_true, decide_eq_true_iff, members]

theorem mem_of_getField {fields : Fields} {k : String} {w : JsonValue}
    (read : getField fields k = some w) : (k, w) ∈ fields := by
  induction fields with
  | nil => cases read
  | cons e rest ih =>
    obtain ⟨k', v⟩ := e
    rw [getField, List.lookup_cons] at read
    split at read
    · rename_i same
      cases read
      rw [beq_iff_eq.1 same]
      exact List.mem_cons_self _ _
    · exact List.mem_cons_of_mem _ (ih read)

/-- A property read off a value whose objects name each key once is such a value too. -/
theorem distinctKeys_getProp {v w : JsonValue} {k : String} (distinct : distinctKeys v = true)
    (read : getProp v k = some w) : distinctKeys w = true := by
  cases v with
  | object fields => exact (distinctKeys_object.1 distinct).2 _ (mem_of_getField read)
  | array items =>
    obtain ⟨i, -, item⟩ := Option.bind_eq_some.1 read
    exact distinctKeys_array.1 distinct w (List.get?_mem item)
  | string s =>
    obtain ⟨i, -, c⟩ := Option.bind_eq_some.1 read
    obtain ⟨_, -, rfl⟩ := Option.map_eq_some'.1 c
    rfl
  | _ => cases read

-----------------------------------------------------------------------------------------
-- The lexer
-----------------------------------------------------------------------------------------

/-- A token carries a value whose objects name each key once. -/
def Token.keysDistinct : Token → Bool
  | .scalar v => distinctKeys v
  | _ => true

theorem finishToken_keysDistinct {mode : LexMode} {tokens : List Token}
    (finished : finishToken mode = some tokens) : ∀ t ∈ tokens, t.keysDistinct := by
  unfold finishToken at finished
  split at finished
  · cases finished; simp
  · obtain ⟨d, -, rfl⟩ := Option.map_eq_some'.1 finished; simp [Token.keysDistinct, distinctKeys]
  · generalize String.mk _ = word at finished
    split at finished <;> (try cases finished) <;> simp [Token.keysDistinct, distinctKeys]
  · cases finished

theorem lexBetween_keysDistinct {c : Char} {mode : LexMode} {tokens : List Token}
    (read : lexBetween c = some (mode, tokens)) : ∀ t ∈ tokens, t.keysDistinct := by
  have structural : ∀ (p : Prop) [Decidable p] (t : Token) (rest : Option (LexMode × List Token)),
      (if p then some (LexMode.between, [t]) else rest) = some (mode, tokens) →
      t.keysDistinct = true → (rest = some (mode, tokens) → ∀ t ∈ tokens, t.keysDistinct) →
      ∀ t ∈ tokens, t.keysDistinct := by
    intro p _ t rest read keyed next
    by_cases hp : p
    · rw [if_pos hp] at read; cases read; simpa using keyed
    · rw [if_neg hp] at read; exact next read
  have silent : ∀ (p : Prop) [Decidable p] (m : LexMode) (rest : Option (LexMode × List Token)),
      (if p then some (m, []) else rest) = some (mode, tokens) →
      (rest = some (mode, tokens) → ∀ t ∈ tokens, t.keysDistinct) → ∀ t ∈ tokens, t.keysDistinct := by
    intro p _ m rest read next
    by_cases hp : p
    · rw [if_pos hp] at read; cases read; simp
    · rw [if_neg hp] at read; exact next read
  -- The branches in order: whitespace, the six structural characters, then the first
  -- character of a string, a number and a word.
  unfold lexBetween at read
  refine silent _ _ _ read fun read => ?_
  refine structural _ _ _ read rfl fun read => ?_
  refine structural _ _ _ read rfl fun read => ?_
  refine structural _ _ _ read rfl fun read => ?_
  refine structural _ _ _ read rfl fun read => ?_
  refine structural _ _ _ read rfl fun read => ?_
  refine structural _ _ _ read rfl fun read => ?_
  refine silent _ _ _ read fun read => ?_
  refine silent _ _ _ read fun read => ?_
  refine silent _ _ _ read fun read => ?_
  cases read

theorem lexStep_keysDistinct {mode mode' : LexMode} {c : Char} {tokens : List Token}
    (read : lexStep mode c = some (mode', tokens)) : ∀ t ∈ tokens, t.keysDistinct := by
  have finishing : ∀ m, (do
      let done ← finishToken m
      let (mode, more) ← lexBetween c
      pure (mode, done ++ more)) = some (mode', tokens) → ∀ t ∈ tokens, t.keysDistinct := by
    intro m read
    simp only [Option.bind_eq_bind, Option.bind_eq_some] at read
    obtain ⟨done, finished, ⟨mode'', more⟩, between, read⟩ := read
    cases read
    simp only [List.mem_append]
    rintro t (member | member)
    exacts [finishToken_keysDistinct finished t member, lexBetween_keysDistinct between t member]
  unfold lexStep at read
  split at read
  · exact lexBetween_keysDistinct read
  · split at read
    · cases read; simp
    · exact finishing _ read
  · split at read
    · cases read; simp
    · exact finishing _ read
  · repeat' split at read
    all_goals cases read <;> simp [Token.keysDistinct, distinctKeys]
  · split at read
    · cases read; simp
    · obtain ⟨e, -, read⟩ := Option.map_eq_some'.1 read
      cases read; simp
  · repeat' split at read
    all_goals cases read <;> simp

/-- The lexer's pass only adds tokens whose values name each key once. -/
theorem lexFrom_keysDistinct (cs : List Char) : ∀ {st st' : LexMode × List Token},
    lexFrom st cs = some st' → (∀ t ∈ st.2, t.keysDistinct) → ∀ t ∈ st'.2, t.keysDistinct := by
  induction cs with
  | nil => intro st st' run; cases run; exact id
  | cons c cs ih =>
    intro st st' run before
    rw [lexFrom_cons] at run
    obtain ⟨r, step, run⟩ := Option.bind_eq_some.1 run
    refine ih run fun t member => ?_
    rcases List.mem_append.1 member with old | new
    exacts [before t old, lexStep_keysDistinct step t new]

theorem tokenize_keysDistinct {cs : List Char} {tokens : List Token}
    (lexed : tokenize cs = some tokens) : ∀ t ∈ tokens, t.keysDistinct := by
  rw [tokenize_eq] at lexed
  obtain ⟨r, run, lexed⟩ := Option.bind_eq_some.1 lexed
  obtain ⟨last, finished, lexed⟩ := Option.bind_eq_some.1 lexed
  cases lexed
  intro t member
  rcases List.mem_append.1 member with old | new
  exacts [lexFrom_keysDistinct cs run (by simp) t old, finishToken_keysDistinct finished t new]

-----------------------------------------------------------------------------------------
-- The parser
-----------------------------------------------------------------------------------------

/-- An open container whose members so far name each key once, as do their values. -/
def Frame.KeysDistinct : Frame → Prop
  | .array items => ∀ v ∈ items, distinctKeys v = true
  | .object fields _ => (fields.map Prod.fst).Nodup ∧ ∀ e ∈ fields, distinctKeys e.2 = true

/-- The parser's invariant: every value it holds names each key of each object once. -/
structure Parser.KeysDistinct (p : Parser) : Prop where
  frames : ∀ f ∈ p.stack, f.KeysDistinct
  result : ∀ v ∈ p.result, distinctKeys v = true

/-- `o[k] = v` keeps an object's keys distinct and adds only `v`. -/
theorem setField_keysDistinct {fields : Fields} (distinct : (fields.map Prod.fst).Nodup)
    (values : ∀ e ∈ fields, distinctKeys e.2 = true) (k : String) {v : JsonValue}
    (value : distinctKeys v = true) :
    ((setField fields k v).map Prod.fst).Nodup ∧ ∀ e ∈ setField fields k v, distinctKeys e.2 = true := by
  unfold setField
  split
  · have keys : (fields.map fun e => if e.1 = k then (k, v) else e).map Prod.fst = fields.map Prod.fst := by
      rw [List.map_map]
      exact List.map_congr_left fun e _ => by by_cases h : e.1 = k <;> simp [h]
    refine ⟨keys ▸ distinct, ?_⟩
    simp only [List.mem_map]
    rintro _ ⟨e, member, rfl⟩
    split
    · exact value
    · exact values e member
  · rename_i absent
    rw [hasField_iff] at absent
    refine ⟨?_, ?_⟩
    · simpa [List.nodup_append, absent] using distinct
    · simp only [List.mem_append, List.mem_singleton]
      rintro e (member | rfl)
      exacts [values e member, value]

theorem emit_keysDistinct {v : JsonValue} {stack : List Frame} {p : Parser}
    (emitted : emit v stack = some p) (frames : ∀ f ∈ stack, f.KeysDistinct)
    (value : distinctKeys v = true) : p.KeysDistinct := by
  unfold emit at emitted
  split at emitted
  · cases emitted; exact ⟨by simp, by simpa using value⟩
  · cases emitted
    refine ⟨?_, by simp⟩
    simp only [List.mem_cons, forall_eq_or_imp] at frames ⊢
    refine ⟨?_, frames.2⟩
    have items : ∀ w ∈ _, distinctKeys w = true := frames.1
    simp only [Frame.KeysDistinct, List.mem_append, List.mem_singleton]
    rintro w (member | rfl)
    exacts [items w member, value]
  · cases emitted
    refine ⟨?_, by simp⟩
    simp only [List.mem_cons, forall_eq_or_imp] at frames ⊢
    exact ⟨setField_keysDistinct frames.1.1 frames.1.2 _ value, frames.2⟩
  · cases emitted

theorem beginValue_keysDistinct {stack : List Frame} {t : Token} {p : Parser}
    (begun : beginValue stack t = some p) (frames : ∀ f ∈ stack, f.KeysDistinct)
    (token : t.keysDistinct = true) : p.KeysDistinct := by
  unfold beginValue at begun
  split at begun
  · cases begun
    exact ⟨List.forall_mem_cons.2 ⟨(fun _ h => nomatch h), frames⟩, fun _ h => nomatch h⟩
  · cases begun
    exact ⟨List.forall_mem_cons.2 ⟨⟨List.nodup_nil, (fun _ h => nomatch h)⟩, frames⟩,
      fun _ h => nomatch h⟩
  · exact emit_keysDistinct begun frames token
  · cases begun

theorem closeContainer_keysDistinct {stack : List Frame} {t : Token} {p : Parser}
    (closed : closeContainer stack t = some p) (frames : ∀ f ∈ stack, f.KeysDistinct) :
    p.KeysDistinct := by
  unfold closeContainer at closed
  split at closed
  · simp only [List.mem_cons, forall_eq_or_imp] at frames
    exact emit_keysDistinct closed frames.2 (distinctKeys_array.2 frames.1)
  · simp only [List.mem_cons, forall_eq_or_imp] at frames
    exact emit_keysDistinct closed frames.2 (distinctKeys_object.2 frames.1)
  · cases closed

/-- One token keeps the parser's invariant. -/
theorem feed_keysDistinct {p p' : Parser} {t : Token} (fed : feed p t = some p')
    (invariant : p.KeysDistinct) (token : t.keysDistinct = true) : p'.KeysDistinct := by
  unfold feed at fed
  split at fed
  · exact beginValue_keysDistinct fed invariant.frames token
  · exact closeContainer_keysDistinct fed invariant.frames
  · exact beginValue_keysDistinct fed invariant.frames token
  · exact closeContainer_keysDistinct fed invariant.frames
  case h_5 | h_6 =>
    split at fed
    · rename_i top
      cases fed
      have frames := invariant.frames
      rw [top, List.forall_mem_cons] at frames
      exact ⟨List.forall_mem_cons.2 frames, fun _ h => nomatch h⟩
    · cases fed
  · cases fed; exact ⟨invariant.frames, invariant.result⟩
  · split at fed <;> cases fed <;> exact ⟨invariant.frames, invariant.result⟩
  · exact closeContainer_keysDistinct fed invariant.frames
  · cases fed

/-- The parser's pass keeps its invariant over every token the lexer produces. -/
theorem foldlM_feed_keysDistinct (tokens : List Token) (keyed : ∀ t ∈ tokens, t.keysDistinct) :
    ∀ {p p' : Parser}, tokens.foldlM feed p = some p' → p.KeysDistinct → p'.KeysDistinct := by
  induction tokens with
  | nil => intro p p' run; cases run; exact id
  | cons t rest ih =>
    intro p p' run invariant
    rw [List.foldlM_cons, Option.bind_eq_bind] at run
    obtain ⟨q, fed, run⟩ := Option.bind_eq_some.1 run
    exact ih (fun t' member => keyed t' (List.mem_cons_of_mem _ member)) run
      (feed_keysDistinct fed invariant (keyed t (List.mem_cons_self _ _)))

/-- Every object `JSON.parse` builds names each key once: a repeated key overwrites its member
in place. -/
theorem jsonParse_distinctKeys {text : String} {v : JsonValue} (parsed : jsonParse text = some v) :
    distinctKeys v = true := by
  unfold jsonParse at parsed
  simp only [Option.bind_eq_bind, Option.bind_eq_some] at parsed
  obtain ⟨tokens, lexed, p, run, finished⟩ := parsed
  have invariant := foldlM_feed_keysDistinct tokens (tokenize_keysDistinct lexed) run
    ⟨by simp, by simp⟩
  split at finished
  · exact invariant.result v finished
  · cases finished

end Shipit.Inference.Json
