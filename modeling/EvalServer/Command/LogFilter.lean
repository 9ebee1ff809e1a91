import EvalServer.Pattern.Check
import EvalServer.Text.Decimal

/-!
# Log filters

Which log messages are shown is given by directives between commas. A directive is a level, or a
target with an optional span between brackets and an optional level after an equals sign; a span
may have a field between braces, whose value is a number or a pattern. The server does not start
with a filter that cannot be understood.
-/

namespace EvalServer.LogFilter

def levelNames : List String := ["off", "error", "warn", "info", "debug", "trace"]

/-- A text without the sign at its front. -/
def unsigned : List Char → List Char
  | '+' :: rest | '-' :: rest => rest
  | cs => cs

/-- Whether a text is a level: empty, a name in any case, or a number up to five. -/
def isLevel (cs : List Char) : Bool :=
  let digits := if cs.head? = some '-' then cs else unsigned cs
  cs.isEmpty || levelNames.contains (String.ofList (cs.map Char.toLower)) ||
    (Text.Decimal.toNatUpTo? 5 digits).isSome

/-- Whether a text is a number in floating point: a sign, digits with a point among or beside
them, and an exponent, all but the digits optional; or a name in any case. -/
def isNumber (cs : List Char) : Bool :=
  let cs := unsigned cs
  let whole := cs.takeWhile Char.isDigit
  let rest := cs.drop whole.length
  let fraction := (if rest.head? = some '.' then rest.tail else []).takeWhile Char.isDigit
  let rest := if rest.head? = some '.' then rest.drop (fraction.length + 1) else rest
  let isExponent := match rest with
    | [] => true
    | 'e' :: power | 'E' :: power =>
      let digits := unsigned power
      !digits.isEmpty && digits.all Char.isDigit
    | _ => false
  ["inf", "infinity", "nan"].contains (String.ofList (cs.map Char.toLower)) ||
    !(whole.isEmpty && fraction.isEmpty) && isExponent

/-- Whether a field can be understood: a name, and a value after an equals sign; what follows
another equals sign is not looked at. -/
def isField (cs : List Char) : Bool :=
  match cs.dropWhile (· ≠ '=') with
  | [] => true
  | _ :: rest =>
    let value := rest.takeWhile (· ≠ '=')
    isNumber value || Pattern.isValid value

/-- What comes of reading a filter. -/
inductive Verdict where
  | accepted
  | refused
  /-- A character had to be cut in two. -/
  | aborted
  deriving Repr, DecidableEq

def Verdict.ofBool (b : Bool) : Verdict :=
  if b then .accepted else .refused

/-- The verdict on two things, the second of which is looked at only if the first is accepted. -/
def Verdict.next (first second : Verdict) : Verdict :=
  if first = .accepted then second else first

/-- What follows the first `count` bytes, if they end with a character. -/
def dropBytes? : List Char → (count : Nat) → Option (List Char)
  | cs, 0 => some cs
  | [], _ + 1 => none
  | c :: rest, count + 1 =>
    if c.utf8Size ≤ count + 1 then dropBytes? rest (count + 1 - c.utf8Size) else none

def takeBytes? (cs : List Char) (count : Nat) : Option (List Char) :=
  (dropBytes? cs count).map fun rest => cs.take (cs.length - rest.length)

/-- The part of a text between two numbers of bytes. -/
def slice? (text : List Char) (start stop : Nat) : Option (List Char) :=
  (dropBytes? text start).bind fun cs => takeBytes? cs (stop - start)

/-- Where in a directive its reader is, and where the part that it reads has started. -/
inductive Place where
  | target
  | span (start : Nat)
  | field (start : Nat)
  | fieldsEnd
  | spanEnd
  | level (start : Nat)
  deriving Repr, DecidableEq

/-- The verdict on what is left of a directive at an offset. Parts are taken from `text` by their
offsets. -/
def judge (text : List Char) : Place → (offset : Nat) → List Char → Verdict
  | .target, _, [] => .accepted
  | .spanEnd, _, [] => .accepted
  | .level start, _, [] => (dropBytes? text start).elim .aborted fun cs => .ofBool (isLevel cs)
  | _, _, [] => .refused
  | place, offset, c :: rest =>
    let after := offset + c.utf8Size
    let part (start : Nat) (isGood : List Char → Bool) : Verdict :=
      (slice? text start offset).elim .aborted fun cs => .ofBool (isGood cs)
    match place, c with
    | .target, '=' => (part 0 fun _ => true).next (judge text (.level after) after rest)
    | .target, '[' => (part 0 fun _ => true).next (judge text (.span after) after rest)
    | .target, _ => judge text .target after rest
    | .span start, ']' => (part start fun _ => true).next (judge text .spanEnd after rest)
    | .span start, '\x7b' => (part start fun _ => true).next (judge text (.field after) after rest)
    | .span start, _ => judge text (.span start) after rest
    | .field start, '\x7d' =>
      (part start fun cs => !cs.isEmpty && isField cs).next (judge text .fieldsEnd after rest)
    | .field start, _ => judge text (.field start) after rest
    | .fieldsEnd, ']' => judge text .spanEnd after rest
    | .fieldsEnd, _ => .refused
    | .spanEnd, '=' => judge text (.level after) after rest
    | .spanEnd, _ => .refused
    | .level start, _ => judge text (.level start) after rest

def mayStart (c : Char) : Bool :=
  c = '-' || c = ':' || c = '_' || Text.isAlphanumeric c

/-- The verdict on a directive. Blanks around it are not read, but offsets are counted without the
blanks before it, while the parts between them are taken from the directive with its blanks. -/
def judgeDirective (text : List Char) : Verdict :=
  let trimmed := ((text.dropWhile Text.isBlank).reverse.dropWhile Text.isBlank).reverse
  match trimmed with
  | [] => .refused
  | '[' :: rest => judge text (.span 1) 1 rest
  | c :: rest => if mayStart c then judge text .target c.utf8Size rest else .refused

/-- The verdict on a filter: that on the first directive that is not accepted. -/
def judgeAll (filter : String) : Verdict :=
  let directives := (filter.splitOn ",").map String.toList
  (directives.filter (!·.isEmpty)).foldl (fun v cs => v.next (judgeDirective cs)) .accepted

end EvalServer.LogFilter
