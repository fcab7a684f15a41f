/-
Compositing.Program.Calls — the calls that a program text contains.

The text is cut into words, dots, opening brackets and all else; what
stands in quotes or belongs to a number is passed over. A call is a word,
a dot, a word and an opening bracket, unless the first word itself
follows a word and a dot. `calls` lists them in the order of the text,
`referenced` each effect once.
-/
import Compositing.Effect.Id

namespace Compositing.ProgramText

/-- A token of program text. -/
inductive Token where
  | word (chars : List Char)
  | dot
  | openBracket
  | other
  deriving DecidableEq, Repr

/-- What the character last read belongs to. -/
inductive Mode where
  | between
  /-- A word; what is read of it comes last first. -/
  | word (read : List Char)
  | number
  | quoted
  /-- In quotes, behind a backslash. -/
  | escaped
  deriving DecidableEq, Repr

/-- White space between tokens. -/
def isBlank (c : Char) : Bool :=
  c = ' ' || c = '\t' || c = '\n' || c = '\r' || c.toNat = 12

/-- A character that continues a number, whatever it then means. -/
def isNumberRest (c : Char) : Bool :=
  c.isAlphanum || c = '.'

/-- A character that is not part of the token before it: the tokens it
makes, and the mode behind it. One without a role of its own counts once
for each byte of its encoding. -/
def first (c : Char) : List Token × Mode :=
  if isIdentStart c then ([], .word [c])
  else if c.isDigit then ([], .number)
  else if c = '"' then ([], .quoted)
  else if c = '.' then ([.dot], .between)
  else if c = '(' then ([.openBracket], .between)
  else if isBlank c then ([], .between)
  else (List.replicate c.utf8Size .other, .between)

/-- One character further: the tokens that end, and the new mode. -/
def step (mode : Mode) (c : Char) : List Token × Mode :=
  match mode with
  | .between => first c
  | .word read =>
    if isIdentRest c then ([], .word (c :: read))
    else (.word read.reverse :: (first c).1, (first c).2)
  | .number =>
    if isNumberRest c then ([], .number)
    else (.other :: (first c).1, (first c).2)
  | .quoted =>
    if c = '"' then ([.other], .between)
    else if c = '\\' then ([], .escaped)
    else ([], .quoted)
  | .escaped => ([], .quoted)

/-- The tokens that the end of the text ends. -/
def finish : Mode → List Token
  | .between => []
  | .word read => [.word read.reverse]
  | .number | .quoted | .escaped => [.other]

/-- The tokens of a text that is read on in some mode. -/
def tokensFrom : Mode → List Char → List Token
  | mode, [] => finish mode
  | mode, c :: rest =>
    (step mode c).1 ++ tokensFrom (step mode c).2 rest

/-- The tokens of a text. -/
def tokens (chars : List Char) : List Token :=
  tokensFrom .between chars

/-- What stands directly before a token, as far as it matters. -/
inductive Before where
  | anything
  | word
  | wordDot
  deriving DecidableEq, Repr

/-- What stands before the next token. -/
def Before.next : Before → Token → Before
  | _, .word _ => .word
  | .word, .dot => .wordDot
  | _, _ => .anything

/-- The call that begins with the first of the tokens, if one does. -/
def callAt? : Before → List Token → Option EffectId
  | .wordDot, _ => none
  | _, .word space :: .dot :: .word name :: .openBracket :: _ =>
    (EffectId.ofParts (String.ofList space) (String.ofList name)).toOption
  | _, _ => none

/-- The calls in tokens that stand behind others. -/
def callsFrom : Before → List Token → List EffectId
  | _, [] => []
  | before, token :: rest =>
    (callAt? before (token :: rest)).toList ++
      callsFrom (before.next token) rest

/-- Every qualified call in a text, in the order of the text. -/
def calls (text : String) : List EffectId :=
  callsFrom .anything (tokens text.toList)

/-- The effects that a text calls, each once, in the order in which they
first appear. -/
def referenced (text : String) : List EffectId :=
  (calls text).eraseDups

/-! ## Examples -/

example :
    (calls "read(o0).mixer.blend(tex: a.b(x: \"c.d(\")).write(o1)").map
      EffectId.text = ["mixer/blend", "a/b"] := by decide +kernel

example : calls "a.b.c(" = [] := by decide +kernel

end Compositing.ProgramText
