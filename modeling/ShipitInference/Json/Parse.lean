import ShipitInference.Json.Value

/-! `JSON.parse` as a character-level lexer and a token-level parser with an explicit stack. A
`\u` escape of a lone surrogate decodes to U+FFFD, since a Lean string holds scalar values only.
-/

namespace Shipit.Inference.Json

open Shipit.Inference.Js

-----------------------------------------------------------------------------------------
-- Lexing
-----------------------------------------------------------------------------------------

inductive Token where
  | beginObject
  | endObject
  | beginArray
  | endArray
  | nameSeparator
  | valueSeparator
  | scalar (v : JsonValue)
  deriving Repr

/-- Where the lexer is inside a string literal. -/
inductive Escape where
  | none
  | backslash
  | unicode (hex : List Char)

/-- The lexer's mode; partial texts are kept reversed. -/
inductive LexMode where
  | between
  | inString (units : List Nat) (escape : Escape)
  | inNumber (text : List Char)
  | inWord (text : List Char)

def isJsonWhitespace (c : Char) : Bool := c == ' ' || c == '\t' || c == '\n' || c == '\r'

def hexValue? (c : Char) : Option Nat :=
  if isDigit c then some (c.toNat - '0'.toNat)
  else if 'a' ≤ c ∧ c ≤ 'f' then some (c.toNat - 'a'.toNat + 10)
  else if 'A' ≤ c ∧ c ≤ 'F' then some (c.toNat - 'A'.toNat + 10)
  else none

/-- The UTF-16 code units of one scalar value. -/
def utf16Units (c : Char) : List Nat :=
  if c.toNat < 0x10000 then [c.toNat]
  else [0xD800 + (c.toNat - 0x10000) / 0x400, 0xDC00 + (c.toNat - 0x10000) % 0x400]

def isHighSurrogate (u : Nat) : Bool := 0xD800 ≤ u && u ≤ 0xDBFF

def isLowSurrogate (u : Nat) : Bool := 0xDC00 ≤ u && u ≤ 0xDFFF

/-- Decode UTF-16 code units, pairing surrogates; a lone surrogate becomes U+FFFD. -/
def decodeUtf16 : List Nat → List Char
  | [] => []
  | [u] => [if isHighSurrogate u || isLowSurrogate u then '\uFFFD' else Char.ofNat u]
  | hi :: lo :: rest =>
      if isHighSurrogate hi && isLowSurrogate lo then
        Char.ofNat (0x10000 + (hi - 0xD800) * 0x400 + (lo - 0xDC00)) :: decodeUtf16 rest
      else
        (if isHighSurrogate hi || isLowSurrogate hi then '\uFFFD' else Char.ofNat hi) ::
          decodeUtf16 (lo :: rest)

/-- The single-character escapes of a JSON string. -/
def simpleEscape? : Char → Option Char
  | '"' => some '"'
  | '\\' => some '\\'
  | '/' => some '/'
  | 'b' => some '\x08'
  | 'f' => some '\x0C'
  | 'n' => some '\n'
  | 'r' => some '\r'
  | 't' => some '\t'
  | _ => none

/-- The exponent part `[eE] [+-]? digit+` of a JSON number, over the whole rest of the text;
no exponent is `0`.
-/
def jsonExponent? : List Char → Option Int
  | [] => some 0
  | e :: r =>
      if e = 'e' ∨ e = 'E' then
        match r with
        | '+' :: d => digits? d
        | '-' :: d => (digits? d).map (- ·)
        | d => digits? d
      else none
where
  digits? (d : List Char) : Option Int :=
    if d ≠ [] ∧ d.all isDigit then some (digitsValue d) else none

/-- The JSON number grammar `-? (0 | [1-9] digit*) (. digit+)? ([eE] [+-]? digit+)?`, over
the whole text.
-/
def jsonNumber? (cs : List Char) : Option Decimal := do
  let (negative, rest) := match cs with
    | '-' :: r => (true, r)
    | r => (false, r)
  let intDigits := rest.takeWhile isDigit
  let afterInt := rest.dropWhile isDigit
  guard (intDigits = ['0'] ∨ (intDigits ≠ [] ∧ intDigits.head? ≠ some '0'))
  let (fracDigits, afterFrac) ← match afterInt with
    | '.' :: r =>
        let f := r.takeWhile isDigit
        if f = [] then none else some (f, r.dropWhile isDigit)
    | r => some ([], r)
  let exp ← jsonExponent? afterFrac
  pure (decimalOfDigits negative intDigits fracDigits exp)

/-- A token ends: turn a finished number or word into its scalar. -/
def finishToken : LexMode → Option (List Token)
  | .between => some []
  | .inNumber text => (jsonNumber? text.reverse).map (fun d => [.scalar (.number d)])
  | .inWord text =>
      match String.mk text.reverse with
      | "true" => some [.scalar (.bool true)]
      | "false" => some [.scalar (.bool false)]
      | "null" => some [.scalar .null]
      | _ => none
  | .inString _ _ => none

/-- One character read between tokens. -/
def lexBetween (c : Char) : Option (LexMode × List Token) :=
  if isJsonWhitespace c then some (.between, [])
  else if c = '{' then some (.between, [.beginObject])
  else if c = '}' then some (.between, [.endObject])
  else if c = '[' then some (.between, [.beginArray])
  else if c = ']' then some (.between, [.endArray])
  else if c = ':' then some (.between, [.nameSeparator])
  else if c = ',' then some (.between, [.valueSeparator])
  else if c = '"' then some (.inString [] .none, [])
  else if isDigit c ∨ c = '-' then some (.inNumber [c], [])
  else if 'a' ≤ c ∧ c ≤ 'z' then some (.inWord [c], [])
  else none

def isNumberChar (c : Char) : Bool :=
  isDigit c || c == '.' || c == 'e' || c == 'E' || c == '+' || c == '-'

/-- One character read in the given mode: the next mode and the tokens it completes. -/
def lexStep : LexMode → Char → Option (LexMode × List Token)
  | .between, c => lexBetween c
  | .inNumber text, c =>
      if isNumberChar c then some (.inNumber (c :: text), [])
      else do
        let done ← finishToken (.inNumber text)
        let (mode, more) ← lexBetween c
        pure (mode, done ++ more)
  | .inWord text, c =>
      if 'a' ≤ c ∧ c ≤ 'z' then some (.inWord (c :: text), [])
      else do
        let done ← finishToken (.inWord text)
        let (mode, more) ← lexBetween c
        pure (mode, done ++ more)
  | .inString units .none, c =>
      if c = '"' then
        some (.between, [.scalar (.string (String.mk (decodeUtf16 units.reverse)))])
      else if c = '\\' then some (.inString units .backslash, [])
      else if c.toNat < 0x20 then none
      else some (.inString ((utf16Units c).reverse ++ units) .none, [])
  | .inString units .backslash, c =>
      if c = 'u' then some (.inString units (.unicode []), [])
      else (simpleEscape? c).map (fun e => (.inString (e.toNat :: units) .none, []))
  | .inString units (.unicode hex), c =>
      match hexValue? c with
      | none => none
      | some _ =>
          if hex.length = 3 then
            let digits := (c :: hex).reverse.filterMap hexValue?
            some (.inString (digits.foldl (fun acc d => acc * 16 + d) 0 :: units) .none, [])
          else some (.inString units (.unicode (c :: hex)), [])

/-- The tokens of a text, or `none` at the first lexical error. -/
def tokenize (cs : List Char) : Option (List Token) := do
  let (mode, tokens) ← cs.foldlM (fun (st : LexMode × List Token) c => do
      let (mode, more) ← lexStep st.1 c
      pure (mode, st.2 ++ more)) (LexMode.between, [])
  let last ← finishToken mode
  pure (tokens ++ last)

/-- The lexer's pass over a text from a given state: the fold of `tokenize`. -/
def lexFrom (st : LexMode × List Token) (cs : List Char) : Option (LexMode × List Token) :=
  cs.foldlM (fun (st : LexMode × List Token) c => do
      let (mode, more) ← lexStep st.1 c
      pure (mode, st.2 ++ more)) st

theorem tokenize_eq (cs : List Char) :
    tokenize cs = (lexFrom (.between, []) cs).bind fun r =>
      (finishToken r.1).bind fun last => some (r.2 ++ last) := by
  rw [tokenize, lexFrom]
  rfl

@[simp] theorem lexFrom_nil (st : LexMode × List Token) : lexFrom st [] = some st := rfl

theorem lexFrom_cons (st : LexMode × List Token) (c : Char) (cs : List Char) :
    lexFrom st (c :: cs) = (lexStep st.1 c).bind fun r => lexFrom (r.1, st.2 ++ r.2) cs := by
  simp only [lexFrom, List.foldlM_cons]
  cases lexStep st.1 c <;> rfl

theorem lexFrom_append (st : LexMode × List Token) (a b : List Char) :
    lexFrom st (a ++ b) = (lexFrom st a).bind (lexFrom · b) := by
  simp only [lexFrom, List.foldlM_append]
  rfl

/-- The tokens already read ride along: the pass only appends. -/
theorem lexFrom_tokens (mode : LexMode) (toks : List Token) (cs : List Char) :
    lexFrom (mode, toks) cs = (lexFrom (mode, []) cs).map fun r => (r.1, toks ++ r.2) := by
  induction cs generalizing mode toks with
  | nil => simp
  | cons c cs ih =>
    rw [lexFrom_cons, lexFrom_cons]
    cases lexStep mode c with
    | none => rfl
    | some r =>
      simp only [Option.some_bind, ih r.1 (toks ++ r.2), ih r.1 ([] ++ r.2), Option.map_map]
      simp [Function.comp_def]

-----------------------------------------------------------------------------------------
-- Parsing
-----------------------------------------------------------------------------------------

/-- An open container: the array items read so far, or the object members read so far and
the key whose value comes next.
-/
inductive Frame where
  | array (items : List JsonValue)
  | object (fields : Fields) (key : Option String)

/-- What the next token may be. -/
inductive Expect where
  | value
  | valueOrEnd
  | member
  | memberOrEnd
  | colon
  | separatorOrEnd
  | finished

structure Parser where
  stack : List Frame
  expect : Expect
  result : Option JsonValue

/-- A complete value: it becomes the result, the next array item, or the pending member. -/
def emit (v : JsonValue) : List Frame → Option Parser
  | [] => some ⟨[], .finished, some v⟩
  | .array items :: rest => some ⟨.array (items ++ [v]) :: rest, .separatorOrEnd, none⟩
  | .object fields (some k) :: rest =>
      some ⟨.object (setField fields k v) none :: rest, .separatorOrEnd, none⟩
  | .object _ none :: _ => none

/-- The start of a value. -/
def beginValue (stack : List Frame) : Token → Option Parser
  | .beginArray => some ⟨.array [] :: stack, .valueOrEnd, none⟩
  | .beginObject => some ⟨.object [] none :: stack, .memberOrEnd, none⟩
  | .scalar v => emit v stack
  | _ => none

/-- Close the innermost container with the given token. -/
def closeContainer (stack : List Frame) (t : Token) : Option Parser :=
  match stack, t with
  | .array items :: rest, .endArray => emit (.array items) rest
  | .object fields none :: rest, .endObject => emit (.object fields) rest
  | _, _ => none

/-- One token read by the parser. -/
def feed (p : Parser) (t : Token) : Option Parser :=
  match p.expect, t with
  | .value, t => beginValue p.stack t
  | .valueOrEnd, .endArray => closeContainer p.stack .endArray
  | .valueOrEnd, t => beginValue p.stack t
  | .memberOrEnd, .endObject => closeContainer p.stack .endObject
  | .memberOrEnd, .scalar (.string k) | .member, .scalar (.string k) =>
      match p.stack with
      | .object fields none :: rest => some ⟨.object fields (some k) :: rest, .colon, none⟩
      | _ => none
  | .colon, .nameSeparator => some { p with expect := .value }
  | .separatorOrEnd, .valueSeparator =>
      match p.stack with
      | .array _ :: _ => some { p with expect := .value }
      | .object _ _ :: _ => some { p with expect := .member }
      | [] => none
  | .separatorOrEnd, t => closeContainer p.stack t
  | _, _ => none

/-- `JSON.parse(text)`: the value, or `none` where the engine throws a `SyntaxError`. -/
def jsonParse (text : String) : Option JsonValue := do
  let tokens ← tokenize text.data
  let p ← tokens.foldlM feed ⟨[], .value, none⟩
  match p.expect with
  | .finished => p.result
  | _ => none

/-- `JSON.parse('')` throws. -/
@[simp] theorem jsonParse_empty : jsonParse "" = none := rfl

/-- `JSON.parse(text)` succeeds. -/
def parsesAsJson (text : String) : Bool := (jsonParse text).isSome

end Shipit.Inference.Json
