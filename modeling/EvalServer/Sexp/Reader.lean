import EvalServer.Sexp.Basic
import EvalServer.Sexp.Token
import EvalServer.Text.Decimal

/-!
# Reading s-expressions

The reader takes a text character by character. `Reader.accept` says what one token does to the
forms read so far and to the stack of lists and quotes still open; the first error ends reading.
Main definitions: `parse` reads exactly one form, `parseAll` every form with the line it starts on.
-/

namespace EvalServer

/-- Why a text cannot be read. -/
inductive ReadError where
  /-- The text has no form. -/
  | empty
  /-- The text ends inside a list or after a quote. -/
  | unexpectedEnd
  /-- A closing parenthesis that closes nothing. -/
  | unexpected (c : Char) (line : Nat)
  | unterminatedString (line : Nat)
  /-- Something follows the one form asked for. -/
  | trailing (line : Nat)
  | tooDeep (line : Nat)
  deriving Repr, DecidableEq

/-- The line that an error names. -/
def ReadError.line? : ReadError → Option Nat
  | .empty | .unexpectedEnd => none
  | .unexpected _ line | .unterminatedString line | .trailing line | .tooDeep line => some line

namespace Sexp

/-- The number of lists and quotes that may be open at once. -/
def maxDepth : Nat := 256

/-- The value of an atom: a number if it reads as one, else a name. -/
def ofAtom (name : List Char) : Sexp :=
  if name = ['n', 'i', 'l'] then .nil
  else if name = ['t'] then .t
  else match name with
    | ':' :: c :: rest => .keyword (String.ofList (c :: rest))
    | _ => match Text.Decimal.toInt64? name with
      | some n => .int n
      | none => .symbol (String.ofList name)

end Sexp

/-- A list or quote that is still open; the items of a list are kept latest first. -/
inductive OpenForm where
  | list (items : List Sexp)
  | quote
  deriving Repr

/-- What has been read so far. -/
structure Reader where
  /-- Whether a second form is an error. -/
  single : Bool
  mode : Token.Mode := .between
  line : Nat := 1
  /-- The open lists and quotes, innermost first. -/
  stack : List OpenForm := []
  /-- The line on which the outermost open form starts. -/
  start : Nat := 1
  /-- The complete forms with their lines, latest first. -/
  forms : List (Nat × Sexp) := []
  deriving Repr

namespace Reader

/-- Hands a complete value to the innermost open form, closing the quotes it completes. -/
def complete (r : Reader) (v : Sexp) : List OpenForm → Reader
  | [] => { r with stack := [], forms := (r.start, v) :: r.forms }
  | .quote :: outer => complete r v.quoted outer
  | .list items :: outer => { r with stack := .list (v :: items) :: outer }

def open? (r : Reader) (line : Nat) (form : OpenForm) : Except ReadError Reader :=
  if Sexp.maxDepth ≤ r.stack.length then .error (.tooDeep line)
  else .ok { r with stack := form :: r.stack }

/-- What one token does, the start of a form being noted. -/
def acceptInner (r : Reader) (line : Nat) : Token → Except ReadError Reader
  | .opening => r.open? line (.list [])
  | .quote => r.open? line .quote
  | .closing => match r.stack with
    | .list items :: outer => .ok (r.complete (.list items.reverse) outer)
    | _ => .error (.unexpected ')' line)
  | .string text => .ok (r.complete (.str (String.ofList text)) r.stack)
  | .atom name => .ok (r.complete (Sexp.ofAtom name) r.stack)
  | .unclosed => .error (.unterminatedString line)

/-- What one token does. -/
def accept (r : Reader) (token : Token.Located) : Except ReadError Reader :=
  if r.stack.isEmpty then
    if r.single && !r.forms.isEmpty then .error (.trailing token.1)
    else acceptInner { r with start := token.1 } token.1 token.2
  else acceptInner r token.1 token.2

/-- What tokens do, one after another. -/
def acceptAll : Reader → List Token.Located → Except ReadError Reader
  | r, [] => .ok r
  | r, token :: rest => match r.accept token with
    | .error e => .error e
    | .ok r => acceptAll r rest

def feed (r : Reader) (c : Char) : Except ReadError Reader :=
  let (tokens, mode) := Token.scan r.mode r.line c
  acceptAll { r with mode, line := Token.lineAfter r.line c } tokens

def feedAll : Reader → List Char → Except ReadError Reader
  | r, [] => .ok r
  | r, c :: rest => match r.feed c with
    | .error e => .error e
    | .ok r => feedAll r rest

/-- The forms read, in order, once the text has ended. -/
def finish (r : Reader) : Except ReadError (List (Nat × Sexp)) :=
  match acceptAll r (Token.scanEnd r.mode r.line) with
  | .error e => .error e
  | .ok r => if r.stack.isEmpty then .ok r.forms.reverse else .error .unexpectedEnd

def run (single : Bool) (cs : List Char) : Except ReadError (List (Nat × Sexp)) :=
  match feedAll { single } cs with
  | .error e => .error e
  | .ok r => r.finish

end Reader

namespace Sexp

/-- Reads every form of a text, each with the line it starts on. -/
def parseAll (text : String) : Except ReadError (List (Nat × Sexp)) :=
  Reader.run false text.toList

/-- Reads the one form of a text. -/
def parse (text : String) : Except ReadError Sexp :=
  match Reader.run true text.toList with
  | .error e => .error e
  | .ok [] => .error .empty
  | .ok ((_, v) :: _) => .ok v

end Sexp

def ReadError.message : ReadError → String
  | .empty => "empty input"
  | .unexpectedEnd => "unexpected end of input"
  | .unexpected c line =>
    "unexpected '" ++ c.toString ++ "' at line " ++ Text.Decimal.natText line
  | .unterminatedString line => "unterminated string starting at line " ++ Text.Decimal.natText line
  | .trailing line => "trailing input at line " ++ Text.Decimal.natText line
  | .tooDeep line =>
    "nesting deeper than " ++ Text.Decimal.natText Sexp.maxDepth ++ " at line "
      ++ Text.Decimal.natText line

end EvalServer
