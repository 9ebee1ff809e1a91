/-!
# Package separators in requests

Editors write the operator of an evaluation request as `package:name`; programs know it as
`package/name`. `expand` rewrites that one colon in the text of a request and leaves every other
text as it is.
-/

namespace EvalServer.Frame.Operator

/-- How the text of an evaluation request starts, up to the name of its operator. -/
def opening : List Char :=
  "(:emacs-rex (".toList

/-- An ASCII letter or digit. -/
def isAlphanumeric (c : Char) : Bool :=
  c.isAlpha || c.isDigit

/-- The text after `start`, if `text` starts with it. -/
def after? : List Char → List Char → Option (List Char)
  | [], text => some text
  | _ :: _, [] => none
  | a :: start, c :: text => if a = c then after? start text else none

/-- A package name: a letter and at least one letter or digit. -/
def isPackage : List Char → Bool
  | c :: _ :: _ => c.isAlpha
  | _ => false

/-- A slash for the colon after a package name at the front. -/
def expandFront (rest : List Char) : List Char :=
  let package := rest.takeWhile isAlphanumeric
  match rest.drop package.length with
  | ':' :: name => if isPackage package then package ++ '/' :: name else rest
  | _ => rest

/-- The text of a message with a slash after the package of a request's operator. -/
def expand (text : List Char) : List Char :=
  match after? opening text with
  | some rest => opening ++ expandFront rest
  | none => text

def expandText (text : String) : String :=
  String.ofList (expand text.toList)

end EvalServer.Frame.Operator
