/-
Compositing.Json.Token — the tokens of a JSON text.

One pass over the characters. A string token keeps its characters with
the escapes still in them until its closing quote is met; `unescape`
then reads them. Escaped halves of a pair outside the basic plane stand
for one character; a half alone makes a string that is no Unicode text.
-/
import Compositing.Json.Number

namespace Compositing.Json

/-- A token of a JSON text. -/
inductive Token where
  | openArray
  | closeArray
  | openObject
  | closeObject
  | comma
  | colon
  /-- A string; `none` if it is no Unicode text. -/
  | text (s : Option String)
  /-- A number or a word. -/
  | scalar (doc : Document)
  /-- No token of JSON. -/
  | fault
  deriving Inhabited

namespace Token

/-- White space between tokens. -/
def isBlank (c : Char) : Bool :=
  c = ' ' || c = '\t' || c = '\n' || c = '\r'

/-- Characters of which words and numbers consist. -/
def isScalarChar (c : Char) : Bool :=
  c.isAlphanum || c = '-' || c = '+' || c = '.'

/-- A word or a number. -/
def ofScalar (word : List Char) : Token :=
  let doc : Document :=
    if word = "null".toList then .null
    else if word = "true".toList then .bool true
    else if word = "false".toList then .bool false
    else Number.read word
  match doc with
  | .broken => .fault
  | doc => .scalar doc

/-! ## Strings -/

/-- The value of a digit of base sixteen. -/
def hexValue? (c : Char) : Option Nat :=
  if c.isDigit then some (c.toNat - '0'.toNat)
  else if 'a' ≤ c ∧ c ≤ 'f' then some (c.toNat - 'a'.toNat + 10)
  else if 'A' ≤ c ∧ c ≤ 'F' then some (c.toNat - 'A'.toNat + 10)
  else none

/-- The value of four digits of base sixteen. -/
def unit? (a b c d : Char) : Option Nat :=
  match hexValue? a, hexValue? b, hexValue? c, hexValue? d with
  | some a, some b, some c, some d =>
    some (((a * 16 + b) * 16 + c) * 16 + d)
  | _, _, _, _ => none

/-- A piece of a string: a character, or half of a pair. -/
inductive Piece where
  | char (c : Char)
  | high (unit : Nat)
  | low (unit : Nat)

/-- The piece that an escaped unit stands for. -/
def Piece.ofUnit (unit : Nat) : Piece :=
  if 0xD800 ≤ unit ∧ unit < 0xDC00 then .high unit
  else if 0xDC00 ≤ unit ∧ unit < 0xE000 then .low unit
  else .char (Char.ofNat unit)

/-- The character of a short escape. -/
def shortEscape? (c : Char) : Option Char :=
  match c with
  | '"' => some '"'
  | '\\' => some '\\'
  | '/' => some '/'
  | 'b' => some (Char.ofNat 8)
  | 'f' => some (Char.ofNat 12)
  | 'n' => some '\n'
  | 'r' => some '\r'
  | 't' => some '\t'
  | _ => none

/-- The pieces of a string, unless it has a control character or an
escape that JSON does not know. -/
def pieces? : List Char → Option (List Piece)
  | [] => some []
  | '\\' :: 'u' :: a :: b :: c :: d :: rest =>
    match unit? a b c d, pieces? rest with
    | some unit, some ps => some (.ofUnit unit :: ps)
    | _, _ => none
  | '\\' :: e :: rest =>
    match shortEscape? e, pieces? rest with
    | some c, some ps => some (.char c :: ps)
    | _, _ => none
  | c :: rest =>
    if c = '\\' ∨ c.toNat < 32 then none
    else (pieces? rest).map (.char c :: ·)

/-- The characters of the pieces, unless a half stands alone. -/
def chars? : List Piece → Option (List Char)
  | [] => some []
  | .char c :: rest => (chars? rest).map (c :: ·)
  | .high h :: .low l :: rest =>
    let code := 0x10000 + (h - 0xD800) * 0x400 + (l - 0xDC00)
    (chars? rest).map (Char.ofNat code :: ·)
  | _ :: _ => none

/-- The string token whose characters stand between the quotes. -/
def ofQuoted (raw : List Char) : Token :=
  match pieces? raw with
  | some ps => .text ((chars? ps).map String.ofList)
  | none => .fault

/-! ## The pass over the text -/

/-- Where in a token the pass stands. -/
inductive Mode where
  | between
  | word (read : List Char)
  | quoted (read : List Char)
  | escaped (read : List Char)

/-- The tokens so far, last first, and the mode. -/
structure Scan where
  tokens : List Token
  mode : Mode

/-- A character that begins a token or stands alone. -/
def begin (tokens : List Token) (c : Char) : Scan :=
  if isBlank c then { tokens := tokens, mode := .between }
  else if c = '"' then { tokens := tokens, mode := .quoted [] }
  else if isScalarChar c then { tokens := tokens, mode := .word [c] }
  else
    let token : Token :=
      match c with
      | '[' => .openArray
      | ']' => .closeArray
      | '\x7b' => .openObject
      | '\x7d' => .closeObject
      | ',' => .comma
      | ':' => .colon
      | _ => .fault
    { tokens := token :: tokens, mode := .between }

/-- One character further. -/
def Scan.step (s : Scan) (c : Char) : Scan :=
  match s.mode with
  | .between => begin s.tokens c
  | .word read =>
    if isScalarChar c then { s with mode := .word (c :: read) }
    else begin (ofScalar read.reverse :: s.tokens) c
  | .quoted read =>
    if c = '"' then
      { tokens := ofQuoted read.reverse :: s.tokens, mode := .between }
    else if c = '\\' then { s with mode := .escaped (c :: read) }
    else { s with mode := .quoted (c :: read) }
  | .escaped read => { s with mode := .quoted (c :: read) }

/-- The tokens when the text ends here. -/
def Scan.finish (s : Scan) : List Token :=
  match s.mode with
  | .between => s.tokens.reverse
  | .word read => (ofScalar read.reverse :: s.tokens).reverse
  | .quoted _ | .escaped _ => (.fault :: s.tokens).reverse

/-- The tokens of a text. -/
def ofText (text : String) : List Token :=
  let start : Scan := { tokens := [], mode := .between }
  (text.toList.foldl Scan.step start).finish

end Token

end Compositing.Json
