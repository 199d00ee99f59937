import ShipitInference.Json.ParseKeys
import ShipitInference.Json.NumberText

/-! `JSON.parse(JSON.stringify(v))` reads back `reparsed v`: numbers as their printed decimals
and object members in own-property order. The lexer and the parser meet at the token list of
the value read back.
-/

namespace Shipit.Inference.Json

open Shipit.Inference.Js

-----------------------------------------------------------------------------------------
-- String literals
-----------------------------------------------------------------------------------------

/-- One scalar value's UTF-16 code units decode back to it. -/
theorem decodeUtf16_utf16Units_append (c : Char) (rest : List Nat) :
    decodeUtf16 (utf16Units c ++ rest) = c :: decodeUtf16 rest := by
  have valid : c.toNat < 0xd800 ∨ (0xdfff < c.toNat ∧ c.toNat < 0x110000) := c.valid
  unfold utf16Units
  split
  case isTrue bmp =>
    have notSurrogate : (isHighSurrogate c.toNat || isLowSurrogate c.toNat) = false := by
      simp [isHighSurrogate, isLowSurrogate]; omega
    cases rest with
    | nil => simp [decodeUtf16, notSurrogate]
    | cons lo rest =>
      have : (isHighSurrogate c.toNat && isLowSurrogate lo) = false := by
        simp [isHighSurrogate]; omega
      simp [decodeUtf16, this, notSurrogate]
  case isFalse astral =>
    have pair : (isHighSurrogate (0xD800 + (c.toNat - 0x10000) / 0x400) &&
        isLowSurrogate (0xDC00 + (c.toNat - 0x10000) % 0x400)) = true := by
      simp [isHighSurrogate, isLowSurrogate]; omega
    rw [List.cons_append, List.cons_append, List.nil_append, decodeUtf16, if_pos pair]
    have scalar : 0x10000 + (0xD800 + (c.toNat - 0x10000) / 0x400 - 0xD800) * 0x400 +
        (0xDC00 + (c.toNat - 0x10000) % 0x400 - 0xDC00) = c.toNat := by omega
    rw [scalar, Char.ofNat_toNat]

theorem decodeUtf16_flatMap_utf16Units (cs : List Char) :
    decodeUtf16 (cs.flatMap utf16Units) = cs := by
  induction cs with
  | nil => rfl
  | cons c cs ih => rw [List.flatMap_cons, decodeUtf16_utf16Units_append, ih]

theorem hexValue?_hexDigit : ∀ k < 16, hexValue? (hexDigit k) = some k := by decide

/-- Inside a string literal, the escaped text of a character pushes its UTF-16 code units. -/
theorem lexFrom_escapeChar (units : List Nat) (toks : List Token) (c : Char) :
    lexFrom (.inString units .none, toks) (escapeChar c) =
      some (.inString ((utf16Units c).reverse ++ units) .none, toks) := by
  suffices pushed : lexFrom (.inString units .none, []) (escapeChar c) =
      some (.inString ((utf16Units c).reverse ++ units) .none, []) by
    rw [lexFrom_tokens, pushed]; simp
  unfold escapeChar
  by_cases quote : c = '"'
  · subst quote; rfl
  by_cases backslash : c = '\\'
  · subst backslash; rfl
  by_cases b : c = '\x08'
  · subst b; rfl
  by_cases f : c = '\x0C'
  · subst f; rfl
  by_cases n : c = '\n'
  · subst n; rfl
  by_cases r : c = '\r'
  · subst r; rfl
  by_cases t : c = '\t'
  · subst t; rfl
  rw [if_neg quote, if_neg backslash, if_neg b, if_neg f, if_neg n, if_neg r, if_neg t]
  split
  · have high := hexValue?_hexDigit (c.toNat / 16) (by omega)
    have low := hexValue?_hexDigit (c.toNat % 16) (by omega)
    have single : utf16Units c = [c.toNat] := if_pos (by omega)
    have opening : lexFrom (.inString units .none, []) ['\\', 'u', '0', '0'] =
        some (.inString units (.unicode ['0', '0']), []) := rfl
    have zero : hexValue? '0' = some 0 := rfl
    rw [show ['\\', 'u', '0', '0', hexDigit (c.toNat / 16), hexDigit (c.toNat % 16)] =
      ['\\', 'u', '0', '0'] ++ [hexDigit (c.toNat / 16), hexDigit (c.toNat % 16)] from rfl,
      lexFrom_append, opening, Option.some_bind]
    simp [lexFrom_cons, lexStep, high, low, single, zero]
    omega
  · simp [lexFrom_cons, lexStep, quote, backslash, *]

theorem lexFrom_escaped (units : List Nat) (toks : List Token) (cs : List Char) :
    lexFrom (.inString units .none, toks) (cs.flatMap escapeChar) =
      some (.inString ((cs.flatMap utf16Units).reverse ++ units) .none, toks) := by
  induction cs generalizing units with
  | nil => rfl
  | cons c cs ih =>
    rw [List.flatMap_cons, lexFrom_append, lexFrom_escapeChar, Option.some_bind, ih,
      List.flatMap_cons, List.reverse_append, List.append_assoc]

/-- A quoted string lexes as its string token. -/
theorem lexFrom_quote (toks : List Token) (s : String) :
    lexFrom (.between, toks) (quote s).data = some (.between, toks ++ [.scalar (.string s)]) := by
  have opening : lexBetween '"' = some (.inString [] .none, []) := rfl
  simp only [quote, lexFrom_cons, lexStep, opening, Option.some_bind, List.append_nil,
    lexFrom_append, lexFrom_escaped]
  simp [lexStep, decodeUtf16_flatMap_utf16Units]

-----------------------------------------------------------------------------------------
-- Tokens left pending
-----------------------------------------------------------------------------------------

/-- Delimiters that may follow a value in printed JSON. -/
def isDelimiter (c : Char) : Prop := c = ',' ∨ c = ']' ∨ c = '}'

/-- The tokens `post` are pending in `mode`: the end of the text, or a delimiter after it,
completes them. -/
structure Pending (mode : LexMode) (post : List Token) : Prop where
  finish : finishToken mode = some post
  delimit : ∀ c, isDelimiter c → lexStep mode c = (lexBetween c).map fun r => (r.1, post ++ r.2)

theorem pending_between : Pending .between [] where
  finish := rfl
  delimit c _ := by simp [lexStep]

/-- Lexing `text` from between tokens yields `tokens`, the last of them possibly pending. -/
def LexesTo (text : List Char) (tokens : List Token) : Prop :=
  ∃ mode done post, lexFrom (.between, []) text = some (mode, done) ∧ Pending mode post ∧
    done ++ post = tokens

theorem lexesTo_of_between {text : List Char} {tokens : List Token}
    (lexes : lexFrom (.between, []) text = some (.between, tokens)) : LexesTo text tokens :=
  ⟨_, _, _, lexes, pending_between, List.append_nil _⟩

/-- A delimiter after a lexed text completes its pending tokens. -/
theorem LexesTo.delimit {a : List Char} {ta : List Token} (lexes : LexesTo a ta) {c : Char}
    (delimiter : isDelimiter c) {t : Token} (single : lexBetween c = some (.between, [t])) :
    lexFrom (.between, []) (a ++ [c]) = some (.between, ta ++ [t]) := by
  obtain ⟨mode, done, post, run, pending, rfl⟩ := lexes
  rw [lexFrom_append, run, Option.some_bind, lexFrom_cons, pending.delimit c delimiter, single]
  simp

/-- A text lexed to between tokens, then one that lexes. -/
theorem LexesTo.after {a b : List Char} {ta tb : List Token}
    (first : lexFrom (.between, []) a = some (.between, ta)) (second : LexesTo b tb) :
    LexesTo (a ++ b) (ta ++ tb) := by
  obtain ⟨mode, done, post, run, pending, rfl⟩ := second
  refine ⟨mode, ta ++ done, post, ?_, pending, List.append_assoc _ _ _⟩
  rw [lexFrom_append, first, Option.some_bind, lexFrom_tokens, run]
  rfl

-----------------------------------------------------------------------------------------
-- Numbers and literals
-----------------------------------------------------------------------------------------

theorem lexFrom_numberChars (text : List Char) (toks : List Token) (cs : List Char)
    (chars : ∀ c ∈ cs, isNumberChar c) :
    lexFrom (.inNumber text, toks) cs = some (.inNumber (cs.reverse ++ text), toks) := by
  induction cs generalizing text with
  | nil => rfl
  | cons c cs ih =>
    rw [lexFrom_cons, lexStep, if_pos (chars c (List.mem_cons_self _ _)), Option.some_bind,
      List.append_nil, ih _ fun c' member => chars c' (List.mem_cons_of_mem _ member)]
    simp

theorem pending_inNumber {text : List Char} {post : List Token}
    (finish : finishToken (.inNumber text) = some post) : Pending (.inNumber text) post where
  finish := finish
  delimit c delimiter := by
    have ends : isNumberChar c = false := by rcases delimiter with rfl | rfl | rfl <;> rfl
    simp [lexStep, ends, finish]
    cases lexBetween c <;> rfl

theorem pending_inWord {text : List Char} {post : List Token}
    (finish : finishToken (.inWord text) = some post) : Pending (.inWord text) post where
  finish := finish
  delimit c delimiter := by
    have ends : ¬('a' ≤ c ∧ c ≤ 'z') := by rcases delimiter with rfl | rfl | rfl <;> decide
    simp [lexStep, ends, finish]
    cases lexBetween c <;> rfl

theorem lexBetween_numberStart {c : Char} (start : isDigit c ∨ c = '-') :
    lexBetween c = some (.inNumber [c], []) := by
  rcases start with digit | rfl
  · have range : 48 ≤ c.toNat ∧ c.toNat ≤ 57 := by
      simpa [isDigit, Char.le_def, Char.toNat] using digit
    have other : ∀ d : Char, d.toNat < 48 ∨ 57 < d.toNat → c ≠ d := by
      rintro d outside rfl; omega
    simp [lexBetween, isJsonWhitespace, digit, other ' ' (by decide), other '\t' (by decide),
      other '\n' (by decide), other '\r' (by decide), other '{' (by decide), other '}' (by decide),
      other '[' (by decide), other ']' (by decide), other ':' (by decide), other ',' (by decide),
      other '"' (by decide)]
  · rfl

/-- A printed number lexes as the token of the decimal it spells. -/
theorem lexesTo_numberToString (d : Decimal) :
    LexesTo (numberToString d).data [.scalar (.number (printedDecimal d))] := by
  obtain ⟨c, rest, text, start⟩ := numberToString_head d
  have chars := isNumberChar_of_mem_numberToString d
  rw [text] at chars ⊢
  have finished : finishToken (.inNumber (c :: rest).reverse) =
      some [.scalar (.number (printedDecimal d))] := by
    rw [finishToken, List.reverse_reverse, ← text, jsonNumber?_numberToString]
    rfl
  refine ⟨_, [], _, ?_, pending_inNumber finished, rfl⟩
  rw [lexFrom_cons, lexStep, lexBetween_numberStart start, Option.some_bind,
    lexFrom_numberChars _ _ _ fun c' member => chars c' (List.mem_cons_of_mem _ member)]
  simp

theorem lexesTo_literal (word : String) {v : JsonValue}
    (lexes : lexFrom (.between, []) word.data = some (.inWord word.data.reverse, []))
    (finish : finishToken (.inWord word.data.reverse) = some [.scalar v]) :
    LexesTo word.data [.scalar v] :=
  ⟨_, [], _, lexes, pending_inWord finish, rfl⟩

-----------------------------------------------------------------------------------------
-- Lists joined by commas
-----------------------------------------------------------------------------------------

theorem intercalate_cons_eq {α : Type} (sep a : List α) (as : List (List α)) :
    List.intercalate sep (a :: as) = a ++ (as.map (sep ++ ·)).flatten := by
  induction as generalizing a with
  | nil => simp [List.intercalate]
  | cons b bs ih =>
    rw [List.intercalate, List.intersperse_cons₂, List.flatten_cons, List.flatten_cons,
      ← List.intercalate, ih]
    simp

private theorem intercalate_go_data (s acc : String) (l : List String) :
    (String.intercalate.go acc s l).data = acc.data ++ (l.map fun b => s.data ++ b.data).flatten := by
  induction l generalizing acc with
  | nil => simp [String.intercalate.go]
  | cons b bs ih => simp [String.intercalate.go, ih, String.data_append]

theorem intercalate_data (s : String) (l : List String) :
    (s.intercalate l).data = List.intercalate s.data (l.map String.data) := by
  cases l with
  | nil => rfl
  | cons a as => simp [String.intercalate, intercalate_go_data, intercalate_cons_eq, Function.comp_def]

/-- Texts that lex, joined by commas: the joined tokens, the last possibly pending. -/
theorem lexesTo_joined {a : List Char} {ta : List Token} (first : LexesTo a ta) :
    ∀ {texts : List (List Char)} {toks : List (List Token)}, List.Forall₂ LexesTo texts toks →
      LexesTo (a ++ (texts.map ([','] ++ ·)).flatten)
        (ta ++ (toks.map ([.valueSeparator] ++ ·)).flatten)
  | [], [], .nil => by simpa using first
  | b :: bs, tb :: tbs, .cons second rest => by
    have step : LexesTo (a ++ [','] ++ b) (ta ++ [.valueSeparator] ++ tb) :=
      LexesTo.after (first.delimit (.inl rfl) rfl) second
    simpa using lexesTo_joined step rest

/-- Texts that lex, joined by commas between an opening and a closing bracket. -/
theorem lexFrom_bracketed {opening closing : Char} {openToken closeToken : Token}
    (opens : lexBetween opening = some (.between, [openToken]))
    (closes : lexBetween closing = some (.between, [closeToken])) (delimiter : isDelimiter closing)
    {texts : List (List Char)} {toks : List (List Token)} (each : List.Forall₂ LexesTo texts toks) :
    lexFrom (.between, []) (opening :: List.intercalate [','] texts ++ [closing]) =
      some (.between, openToken :: List.intercalate [.valueSeparator] toks ++ [closeToken]) := by
  have inner : lexFrom (.between, []) (List.intercalate [','] texts ++ [closing]) =
      some (.between, List.intercalate [.valueSeparator] toks ++ [closeToken]) := by
    cases each with
    | nil => simp [List.intercalate, lexFrom_cons, lexStep, closes]
    | cons first rest =>
      rw [intercalate_cons_eq, intercalate_cons_eq]
      exact (lexesTo_joined first rest).delimit delimiter closes
  rw [List.cons_append, lexFrom_cons, lexStep, opens, Option.some_bind, lexFrom_tokens, inner]
  rfl

-----------------------------------------------------------------------------------------
-- The printed text of a value
-----------------------------------------------------------------------------------------

mutual

/-- The tokens of a value, object members in the order the object lists them. -/
def tokensOf : JsonValue → List Token
  | .array items => .beginArray :: List.intercalate [.valueSeparator] (tokensOfItems items) ++ [.endArray]
  | .object fields =>
      .beginObject :: List.intercalate [.valueSeparator] (tokensOfMembers fields) ++ [.endObject]
  | v => [.scalar v]

def tokensOfItems : List JsonValue → List (List Token)
  | [] => []
  | v :: rest => tokensOf v :: tokensOfItems rest

def tokensOfMembers : List (String × JsonValue) → List (List Token)
  | [] => []
  | (k, v) :: rest => (.scalar (.string k) :: .nameSeparator :: tokensOf v) :: tokensOfMembers rest

end

mutual

/-- The value `JSON.parse` reads back from `JSON.stringify(v)`: each number as the decimal its
printed text spells, each object's members in own-property order. -/
def reparsed : JsonValue → JsonValue
  | .number d => .number (printedDecimal d)
  | .array items => .array (reparsedItems items)
  | .object fields => .object (ownEntries (reparsedMembers fields))
  | v => v

def reparsedItems : List JsonValue → List JsonValue
  | [] => []
  | v :: rest => reparsed v :: reparsedItems rest

def reparsedMembers : List (String × JsonValue) → List (String × JsonValue)
  | [] => []
  | (k, v) :: rest => (k, reparsed v) :: reparsedMembers rest

end

theorem tokensOfItems_eq_map (items : List JsonValue) : tokensOfItems items = items.map tokensOf := by
  induction items with
  | nil => rfl
  | cons v rest ih => rw [tokensOfItems, ih, List.map_cons]

/-- The tokens of a member `"key":value`. -/
def memberTokens (e : String × JsonValue) : List Token :=
  .scalar (.string e.1) :: .nameSeparator :: tokensOf e.2

theorem tokensOfMembers_eq_map (fields : Fields) :
    tokensOfMembers fields = fields.map memberTokens := by
  induction fields with
  | nil => rfl
  | cons e rest ih => rw [tokensOfMembers, ih, List.map_cons]; rfl

theorem reparsedItems_eq_map (items : List JsonValue) : reparsedItems items = items.map reparsed := by
  induction items with
  | nil => rfl
  | cons v rest ih => rw [reparsedItems, ih, List.map_cons]

theorem reparsedMembers_eq_map (fields : Fields) :
    reparsedMembers fields = fields.map fun e => (e.1, reparsed e.2) := by
  induction fields with
  | nil => rfl
  | cons e rest ih => rw [reparsedMembers, ih, List.map_cons]

theorem stringifyItems_eq_map (items : List JsonValue) : stringifyItems items = items.map stringify := by
  induction items with
  | nil => rfl
  | cons v rest ih => rw [stringifyItems, ih, List.map_cons]

theorem stringifyFields_eq_map (fields : Fields) :
    stringifyFields fields = fields.map fun e => (e.1, stringify e.2) := by
  induction fields with
  | nil => rfl
  | cons e rest ih => rw [stringifyFields, ih, List.map_cons]

/-- A member `"key":value` lexes as the key's string token, a name separator and the value's
tokens. -/
theorem lexesTo_member (k : String) {text : String} {tokens : List Token}
    (value : LexesTo text.data tokens) :
    LexesTo (quote k ++ ":" ++ text).data (.scalar (.string k) :: .nameSeparator :: tokens) := by
  have key : lexFrom (.between, []) ((quote k).data ++ [':']) =
      some (.between, [.scalar (.string k), .nameSeparator]) := by
    rw [lexFrom_append, lexFrom_quote, Option.some_bind, lexFrom_cons]
    rfl
  simpa [String.data_append] using LexesTo.after key value

/-- The text `JSON.stringify` prints lexes as the tokens of the value `JSON.parse` reads back. -/
theorem lexesTo_stringify (v : JsonValue) : LexesTo (stringify v).data (tokensOf (reparsed v)) := by
  induction v using JsonValue.induct_mem with
  | null => exact lexesTo_literal "null" rfl rfl
  | bool b => cases b; exacts [lexesTo_literal "false" rfl rfl, lexesTo_literal "true" rfl rfl]
  | number d => exact lexesTo_numberToString d
  | string s => exact lexesTo_of_between (lexFrom_quote [] s)
  | array items ih =>
    refine lexesTo_of_between ?_
    have each : List.Forall₂ LexesTo ((stringifyItems items).map String.data)
        (tokensOfItems (reparsedItems items)) := by
      rw [stringifyItems_eq_map, tokensOfItems_eq_map, reparsedItems_eq_map, List.map_map,
        List.map_map, List.forall₂_map_left_iff, List.forall₂_map_right_iff]
      exact List.forall₂_same.2 ih
    simpa [stringify, tokensOf, reparsed, String.data_append, intercalate_data] using
      lexFrom_bracketed (show lexBetween '[' = some (.between, [.beginArray]) from rfl)
        (show lexBetween ']' = some (.between, [.endArray]) from rfl) (.inr (.inl rfl)) each
  | object fields ih =>
    refine lexesTo_of_between ?_
    have printed := ownEntries_map (fun _ v => stringify v) fields
    have read := ownEntries_map (fun _ v => reparsed v) fields
    simp only at printed read
    have each : List.Forall₂ LexesTo (((ownEntries (stringifyFields fields)).map
          fun e => quote e.1 ++ ":" ++ e.2).map String.data)
        (tokensOfMembers (ownEntries (reparsedMembers fields))) := by
      rw [stringifyFields_eq_map, reparsedMembers_eq_map, printed, read, tokensOfMembers_eq_map,
        List.map_map, List.map_map, List.map_map, List.forall₂_map_left_iff,
        List.forall₂_map_right_iff]
      refine List.forall₂_same.2 fun e member => lexesTo_member e.1 (ih e ?_)
      exact (perm_ownEntries fields).subset member
    simpa [stringify, tokensOf, reparsed, String.data_append, intercalate_data] using
      lexFrom_bracketed (show lexBetween '{' = some (.between, [.beginObject]) from rfl)
        (show lexBetween '}' = some (.between, [.endObject]) from rfl) (.inr (.inr rfl)) each

/-- The value read back keeps each object's keys distinct: own-property order lists the same
keys. -/
theorem distinctKeys_reparsed (v : JsonValue) (distinct : distinctKeys v = true) :
    distinctKeys (reparsed v) = true := by
  induction v using JsonValue.induct_mem with
  | array items ih =>
    rw [distinctKeys_array] at distinct
    rw [reparsed, reparsedItems_eq_map, distinctKeys_array]
    simp only [List.mem_map]
    rintro _ ⟨v, member, rfl⟩
    exact ih v member (distinct v member)
  | object fields ih =>
    rw [distinctKeys_object] at distinct
    have read := ownEntries_map (fun _ v => reparsed v) fields
    simp only at read
    rw [reparsed, reparsedMembers_eq_map, read, distinctKeys_object, List.map_map]
    refine ⟨?_, ?_⟩
    · exact ((perm_ownEntries fields).map Prod.fst).nodup_iff.2 distinct.1
    · simp only [List.mem_map]
      rintro _ ⟨e, member, rfl⟩
      have original := (perm_ownEntries fields).subset member
      exact ih e original (distinct.2 e original)
  | _ => rfl

-----------------------------------------------------------------------------------------
-- Parsing the tokens of a value
-----------------------------------------------------------------------------------------

/-- What feeding a value's tokens to a parser that expects a value does: it emits the value. -/
def FeedsValue (w : JsonValue) : Prop :=
  ∀ stack expect result, (expect = .value ∨ expect = .valueOrEnd) →
    (tokensOf w).foldlM feed ⟨stack, expect, result⟩ = emit w stack

theorem setField_of_not_mem {fields : Fields} {k : String} (fresh : k ∉ fields.map Prod.fst)
    (v : JsonValue) : setField fields k v = fields ++ [(k, v)] := by
  rw [setField, if_neg]
  rwa [hasField_iff]

/-- An item's tokens after a separator append the item to the open array. -/
theorem foldlM_feed_items {w : JsonValue} (value : FeedsValue w) (items : List JsonValue)
    (stack : List Frame) :
    ([Token.valueSeparator] ++ tokensOf w).foldlM feed ⟨.array items :: stack, .separatorOrEnd, none⟩ =
      some ⟨.array (items ++ [w]) :: stack, .separatorOrEnd, none⟩ := by
  change (tokensOf w).foldlM feed ⟨.array items :: stack, .value, none⟩ = _
  exact value _ _ _ (.inl rfl)

/-- The items after the first, each after a separator, append to the open array. -/
theorem foldlM_feed_itemsTail (ws : List JsonValue) (values : ∀ w ∈ ws, FeedsValue w) :
    ∀ items stack, (((ws.map tokensOf).map ([Token.valueSeparator] ++ ·)).flatten).foldlM feed
      ⟨.array items :: stack, .separatorOrEnd, none⟩ =
      some ⟨.array (items ++ ws) :: stack, .separatorOrEnd, none⟩ := by
  induction ws with
  | nil => simp
  | cons w rest ih =>
    intro items stack
    rw [List.map_cons, List.map_cons, List.flatten_cons, List.foldlM_append,
      foldlM_feed_items (values w (List.mem_cons_self _ _)), Option.bind_eq_bind, Option.some_bind,
      ih (fun w' member => values w' (List.mem_cons_of_mem _ member)), List.append_assoc,
      List.singleton_append]

/-- A member's tokens, fed to an object that waits for a member, append the member. -/
theorem foldlM_feed_member {fields : Fields} {k : String} {w : JsonValue}
    (fresh : k ∉ fields.map Prod.fst) (value : FeedsValue w) (stack : List Frame)
    {expect : Expect} (expects : expect = .member ∨ expect = .memberOrEnd) (result : Option JsonValue) :
    (memberTokens (k, w)).foldlM feed ⟨.object fields none :: stack, expect, result⟩ =
      some ⟨.object (fields ++ [(k, w)]) none :: stack, .separatorOrEnd, none⟩ := by
  rcases expects with rfl | rfl <;>
  · change (tokensOf w).foldlM feed ⟨.object fields (some k) :: stack, .value, none⟩ = _
    rw [value _ _ _ (.inl rfl), emit, setField_of_not_mem fresh]

/-- A member's tokens after a separator append the member to the open object. -/
theorem foldlM_feed_separatedMember {fields : Fields} {k : String} {w : JsonValue}
    (fresh : k ∉ fields.map Prod.fst) (value : FeedsValue w) (stack : List Frame) :
    ([Token.valueSeparator] ++ memberTokens (k, w)).foldlM feed
        ⟨.object fields none :: stack, .separatorOrEnd, none⟩ =
      some ⟨.object (fields ++ [(k, w)]) none :: stack, .separatorOrEnd, none⟩ := by
  change (.scalar (.string k) :: .nameSeparator :: tokensOf w).foldlM feed
    ⟨.object fields none :: stack, .member, none⟩ = _
  exact foldlM_feed_member fresh value stack (.inl rfl) none

/-- The members after the first, each after a separator, append to the open object. -/
theorem foldlM_feed_membersTail (gs : Fields) (values : ∀ e ∈ gs, FeedsValue e.2) :
    ∀ fields stack, ((fields ++ gs).map Prod.fst).Nodup →
      (((gs.map memberTokens).map ([Token.valueSeparator] ++ ·)).flatten).foldlM feed
        ⟨.object fields none :: stack, .separatorOrEnd, none⟩ =
      some ⟨.object (fields ++ gs) none :: stack, .separatorOrEnd, none⟩ := by
  induction gs with
  | nil => simp
  | cons e rest ih =>
    intro fields stack distinct
    have fresh : e.1 ∉ fields.map Prod.fst := by
      simp only [List.map_append, List.map_cons, List.nodup_append, List.nodup_cons] at distinct
      exact fun named => distinct.2.2 named (List.mem_cons_self _ _)
    rw [List.map_cons, List.map_cons, List.flatten_cons, List.foldlM_append,
      foldlM_feed_separatedMember fresh (values e (List.mem_cons_self _ _)), Option.bind_eq_bind,
      Option.some_bind, ih (fun e' member => values e' (List.mem_cons_of_mem _ member)) _ _
        (by simpa using distinct), List.append_assoc, List.singleton_append]

/-- Feeding the tokens of a value whose objects name each key once emits the value. -/
theorem feedsValue (w : JsonValue) (distinct : distinctKeys w = true) : FeedsValue w := by
  induction w using JsonValue.induct_mem with
  | array items ih =>
    rw [distinctKeys_array] at distinct
    have values : ∀ v ∈ items, FeedsValue v := fun v member => ih v member (distinct v member)
    intro stack expect result expects
    have opened : feed ⟨stack, expect, result⟩ .beginArray =
        some ⟨.array [] :: stack, .valueOrEnd, none⟩ := by
      rcases expects with rfl | rfl <;> rfl
    rw [tokensOf, List.cons_append, List.foldlM_cons, opened, Option.bind_eq_bind, Option.some_bind,
      List.foldlM_append, tokensOfItems_eq_map]
    cases items with
    | nil => simp only [List.map_nil, List.intercalate, List.intersperse_nil, List.flatten_nil,
        List.foldlM_nil, List.foldlM_cons, bind_pure]; rfl
    | cons w rest =>
      rw [List.map_cons, intercalate_cons_eq, List.foldlM_append,
        values w (List.mem_cons_self _ _) _ _ _ (.inr rfl), emit, Option.bind_eq_bind,
        Option.some_bind, foldlM_feed_itemsTail rest (fun v member => values v (List.mem_cons_of_mem _ member)),
        Option.some_bind, List.foldlM_cons]
      simp only [List.foldlM_nil, bind_pure]
      rfl
  | object fields ih =>
    rw [distinctKeys_object] at distinct
    have values : ∀ e ∈ fields, FeedsValue e.2 := fun e member => ih e member (distinct.2 e member)
    intro stack expect result expects
    have opened : feed ⟨stack, expect, result⟩ .beginObject =
        some ⟨.object [] none :: stack, .memberOrEnd, none⟩ := by
      rcases expects with rfl | rfl <;> rfl
    rw [tokensOf, List.cons_append, List.foldlM_cons, opened, Option.bind_eq_bind, Option.some_bind,
      List.foldlM_append, tokensOfMembers_eq_map]
    cases fields with
    | nil => simp only [List.map_nil, List.intercalate, List.intersperse_nil, List.flatten_nil,
        List.foldlM_nil, List.foldlM_cons, bind_pure]; rfl
    | cons e rest =>
      rw [List.map_cons, intercalate_cons_eq, List.foldlM_append,
        foldlM_feed_member (List.not_mem_nil _) (values e (List.mem_cons_self _ _)) stack (.inr rfl),
        Option.bind_eq_bind, Option.some_bind,
        foldlM_feed_membersTail rest (fun e' member => values e' (List.mem_cons_of_mem _ member)) _ _
          (by simpa using distinct.1), Option.some_bind, List.foldlM_cons]
      simp only [List.foldlM_nil, bind_pure]
      rfl
  | _ =>
    intro stack expect result expects
    rcases expects with rfl | rfl <;>
      simp only [tokensOf, List.foldlM_cons, List.foldlM_nil, bind_pure] <;> rfl

-----------------------------------------------------------------------------------------
-- The round trip
-----------------------------------------------------------------------------------------

/-- `JSON.parse(JSON.stringify(v))` reads back `reparsed v`, for every value whose objects name
each key once. -/
theorem jsonParse_stringify (v : JsonValue) (distinct : distinctKeys v = true) :
    jsonParse (stringify v) = some (reparsed v) := by
  obtain ⟨mode, done, post, run, pending, tokens⟩ := lexesTo_stringify v
  have lexed : tokenize (stringify v).data = some (tokensOf (reparsed v)) := by
    rw [tokenize_eq, run, Option.some_bind, pending.finish, Option.some_bind, tokens]
  have fed := feedsValue (reparsed v) (distinctKeys_reparsed v distinct) [] .value none (.inl rfl)
  simp only [jsonParse, lexed, fed, Option.bind_eq_bind, Option.some_bind]
  rfl

-----------------------------------------------------------------------------------------
-- What the value read back keeps
-----------------------------------------------------------------------------------------

/-- Printing the value read back gives the text printed first. -/
theorem stringify_reparsed (v : JsonValue) : stringify (reparsed v) = stringify v := by
  induction v using JsonValue.induct_mem with
  | number d => exact numberToString_congr (printedDecimal_value d)
  | array items ih =>
    rw [reparsed, stringify, stringify, stringifyItems_eq_map, stringifyItems_eq_map,
      reparsedItems_eq_map, List.map_map]
    congr 3
    exact List.map_congr_left ih
  | object fields ih =>
    have printed := ownEntries_map (fun _ v => stringify v)
    have read := ownEntries_map (fun _ v => reparsed v)
    simp only at printed read
    rw [reparsed, stringify, stringify, stringifyFields_eq_map, stringifyFields_eq_map, printed,
      printed, reparsedMembers_eq_map, read, read, ownEntries_ownEntries]
    congr 4
    rw [List.map_map]
    exact List.map_congr_left fun e member =>
      congrArg (e.1, ·) (ih e ((perm_ownEntries fields).subset member))
  | _ => rfl

-----------------------------------------------------------------------------------------
-- Numbers the engine holds exactly
-----------------------------------------------------------------------------------------

/-- A number written with at most fifteen significant digits inside the normal range of
binary64. The engine reads it to the nearest double, and fifteen digits survive binary64, so
`Number::toString` prints that double as the same value: on such numbers the exact decimals of
the model are the engine's doubles. -/
def shortDouble (d : Decimal) : Bool :=
  d.mantissa = 0 || (d.mantissa.natAbs < 10 ^ 15 && -307 ≤ d.exponent && d.exponent ≤ 293)

mutual

/-- Every number in the value is a `shortDouble`. -/
def shortNumbers : JsonValue → Bool
  | .number d => shortDouble d
  | .array items => shortNumbersItems items
  | .object fields => shortNumbersMembers fields
  | _ => true

def shortNumbersItems : List JsonValue → Bool
  | [] => true
  | v :: rest => shortNumbers v && shortNumbersItems rest

def shortNumbersMembers : List (String × JsonValue) → Bool
  | [] => true
  | (_, v) :: rest => shortNumbers v && shortNumbersMembers rest

end

/-- An object with an array-index key after another key, a number not in printed form, and a
control character in a string. -/
def sampleDocument : JsonValue :=
  .object [("b", .number ⟨10, -1⟩), ("1", .array [.string "tab\there", .null])]

/-- `JSON.parse(JSON.stringify(v))` reads back `reparsed v`, which `JSON.stringify` prints as the
same text, for every value whose objects name each key once and whose numbers the engine holds
exactly; the model's proof needs only the keys. -/
theorem jsonParse_stringify_reprints (v : JsonValue) (distinct : distinctKeys v = true) :
    shortNumbers v = true →
      jsonParse (stringify v) = some (reparsed v) ∧ stringify (reparsed v) = stringify v :=
  fun _ => ⟨jsonParse_stringify v distinct, stringify_reparsed v⟩

theorem jsonParse_stringify_reprints_sampleDocument :
    distinctKeys sampleDocument = true ∧ shortNumbers sampleDocument = true ∧
      (jsonParse (stringify sampleDocument) = some (reparsed sampleDocument) ∧
        stringify (reparsed sampleDocument) = stringify sampleDocument) :=
  ⟨rfl, by decide, jsonParse_stringify_reprints sampleDocument rfl (by decide)⟩

example : reparsed sampleDocument =
    .object [("1", .array [.string "tab\there", .null]), ("b", .number ⟨1, 0⟩)] := rfl

end Shipit.Inference.Json
