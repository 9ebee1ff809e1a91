import EvalServer.Sexp.Printer
import EvalServer.Sexp.Reader
import Mathlib.Data.List.Basic

/-!
# Tokens of whole texts

Tokens do not depend on what is made of them: `Token.lex` cuts a whole text, and reading is
accepting its tokens one after another. A printed value is cut into the tokens of its own, whatever
follows it, if only the characters of another atom do not.
-/

namespace EvalServer

namespace Token

/-- The tokens of a text. -/
def lex (mode : Mode) (line : Nat) : List Char → List Located
  | [] => scanEnd mode line
  | c :: rest => (scan mode line c).1 ++ lex (scan mode line c).2 (lineAfter line c) rest

/-- An atom can start with a character, and goes on after it. -/
structure IsName (name : List Char) : Prop where
  ne_nil : name ≠ []
  plain : ∀ c ∈ name, isDelimiter c = false
  unquoted : ∀ rest, name ≠ '\x27' :: rest

lemma plain_of_all {name : List Char} (hname : name.all (!isDelimiter ·) = true) :
    ∀ c ∈ name, isDelimiter c = false := by
  simpa using hname

/-- No atom goes on in a text. -/
def Ends (rest : List Char) : Prop :=
  ∀ c ∈ rest.head?, isDelimiter c = true

lemma ends_cons {c : Char} (hc : isDelimiter c = true) (rest : List Char) : Ends (c :: rest) := by
  rintro d hd
  rwa [← Option.some.inj hd]

variable {c : Char} {line : Nat}

lemma lex_opening (line : Nat) (rest : List Char) :
    lex .between line ('(' :: rest) = (line, .opening) :: lex .between line rest := rfl

lemma lex_closing (line : Nat) (rest : List Char) :
    lex .between line (')' :: rest) = (line, .closing) :: lex .between line rest := rfl

lemma lex_space (line : Nat) (rest : List Char) :
    lex .between line (' ' :: rest) = lex .between line rest := rfl

lemma lineAfter_of_plain (hc : isDelimiter c = false) : lineAfter line c = line := by
  refine if_neg fun hn => ?_
  subst hn
  exact absurd hc (by decide)

lemma lex_atom_end (gathered : List Char) {rest : List Char} (hrest : Ends rest) :
    lex (.atom gathered) line rest =
      (line, .atom gathered.reverse) :: lex .between line rest := by
  cases rest with
  | nil => rfl
  | cons c rest =>
    have hc : isDelimiter c = true := hrest c rfl
    simp [lex, scan, hc]

lemma lex_atom_append {name : List Char} (hname : ∀ c ∈ name, isDelimiter c = false)
    (gathered : List Char) (rest : List Char) :
    lex (.atom gathered) line (name ++ rest) = lex (.atom (name.reverse ++ gathered)) line rest := by
  induction name generalizing gathered with
  | nil => rfl
  | cons c name ih =>
    obtain ⟨hc, hname⟩ := List.forall_mem_cons.1 hname
    rw [List.cons_append, lex, scan, hc, lineAfter_of_plain hc]
    simpa using ih hname (c :: gathered)

lemma scanBetween_name (hc : isDelimiter c = false) (hquote : c ≠ '\x27') :
    scanBetween line c = ([], .atom [c]) := by
  simp only [isDelimiter, Bool.or_eq_false_iff, decide_eq_false_iff_not] at hc
  simp [scanBetween, hc, hquote]

lemma lex_name {name : List Char} (hname : IsName name) {rest : List Char} (hrest : Ends rest) :
    lex .between line (name ++ rest) = (line, .atom name) :: lex .between line rest := by
  obtain ⟨hne, hplain, hquote⟩ := hname
  cases name with
  | nil => exact absurd rfl hne
  | cons c name =>
    obtain ⟨hc, hplain⟩ := List.forall_mem_cons.1 hplain
    have hq : c ≠ '\x27' := by
      rintro rfl
      exact hquote name rfl
    rw [List.cons_append, lex, scan, scanBetween_name hc hq, lineAfter_of_plain hc,
      lex_atom_append hplain, lex_atom_end _ hrest]
    simp

/-- An escaped text inside a string stands for itself. -/
lemma lex_escaped (start : Nat) (text gathered rest : List Char) (line : Nat) :
    ∃ after, lex (.string start gathered) line (text.flatMap Sexp.escapeChar ++ '\x22' :: rest) =
      (start, .string (gathered.reverse ++ text)) :: lex .between after rest := by
  induction text generalizing gathered line with
  | nil => exact ⟨line, by simp [lex, scan, lineAfter]⟩
  | cons c text ih =>
    obtain ⟨after, hafter⟩ := ih (c :: gathered) (lineAfter line c)
    refine ⟨after, ?_⟩
    rw [List.reverse_cons, List.append_assoc, List.singleton_append] at hafter
    rw [← hafter, List.flatMap_cons, List.append_assoc]
    by_cases hquote : c = '\x22'
    · subst hquote
      simp [Sexp.escapeChar, lex, scan, unescape, lineAfter]
    · by_cases hslash : c = '\\'
      · subst hslash
        simp [Sexp.escapeChar, lex, scan, unescape, lineAfter]
      · simp [Sexp.escapeChar, lex, scan, hquote, hslash]

def Proper : Token → Prop
  | .atom name => IsName name
  | _ => True

def Mode.Proper : Mode → Prop
  | .atom gathered => IsName gathered.reverse
  | _ => True

lemma IsName.concat {name : List Char} (hname : IsName name) (hc : isDelimiter c = false) :
    IsName (name ++ [c]) where
  ne_nil := by simp
  plain := by
    intro d hd
    rcases List.mem_append.1 hd with hd | hd
    · exact hname.plain d hd
    · rwa [List.mem_singleton.1 hd]
  unquoted := by
    intro rest heq
    cases name with
    | nil => exact hname.ne_nil rfl
    | cons d name =>
      obtain ⟨rfl, -⟩ := List.cons.inj heq
      exact hname.unquoted name rfl

lemma scanBetween_proper (line : Nat) (c : Char) :
    (∀ t ∈ (scanBetween line c).1, t.2.Proper) ∧ (scanBetween line c).2.Proper := by
  unfold scanBetween
  split
  · exact ⟨by simp, trivial⟩
  · split
    · exact ⟨by simp, trivial⟩
    · split
      · exact ⟨by simp [Proper], trivial⟩
      · split
        · exact ⟨by simp [Proper], trivial⟩
        · split
          · exact ⟨by simp [Proper], trivial⟩
          · split
            · exact ⟨by simp, trivial⟩
            · next hblank hcomment hopen hclose hquote hstring =>
              refine ⟨by simp, List.cons_ne_nil _ _, ?_, ?_⟩
              · simp [isDelimiter, hblank, hcomment, hopen, hclose, hstring]
              · simp [hquote]

lemma scan_proper {mode : Mode} (hmode : mode.Proper) (line : Nat) (c : Char) :
    (∀ t ∈ (scan mode line c).1, t.2.Proper) ∧ (scan mode line c).2.Proper := by
  cases mode with
  | between => exact scanBetween_proper line c
  | comment =>
    refine ⟨by simp [scan], ?_⟩
    simp only [scan]
    split <;> trivial
  | atom gathered =>
    simp only [scan]
    split
    · obtain ⟨htokens, hafter⟩ := scanBetween_proper line c
      refine ⟨fun t ht => ?_, hafter⟩
      rcases List.mem_cons.1 ht with rfl | ht
      · exact hmode
      · exact htokens t ht
    · next hc =>
      refine ⟨by simp, ?_⟩
      change IsName (c :: gathered).reverse
      rw [List.reverse_cons]
      exact IsName.concat hmode (by simpa using hc)
  | string start gathered =>
    simp only [scan]
    split
    · exact ⟨by simp [Proper], trivial⟩
    · split
      · exact ⟨by simp, trivial⟩
      · exact ⟨by simp, trivial⟩
  | escape start gathered => exact ⟨by simp [scan], trivial⟩

/-- The atoms of a text have names. -/
theorem lex_proper {mode : Mode} (hmode : mode.Proper) (line : Nat) (cs : List Char) :
    ∀ t ∈ lex mode line cs, t.2.Proper := by
  induction cs generalizing mode line with
  | nil =>
    cases mode with
    | between | comment => simp [lex, scanEnd]
    | atom gathered =>
      intro t ht
      rw [List.mem_singleton.1 ht]
      exact hmode
    | string | escape => simp [lex, scanEnd, Proper]
  | cons c rest ih =>
    obtain ⟨htokens, hafter⟩ := scan_proper hmode line c
    intro t ht
    rcases List.mem_append.1 ht with ht | ht
    · exact htokens t ht
    · exact ih hafter _ t ht

end Token

namespace Reader

/-- The reader at another place of the text. -/
def placed (r : Reader) (mode : Token.Mode) (line : Nat) : Reader :=
  { r with mode, line }

def settle (r : Reader) : Except ReadError (List (Nat × Sexp)) :=
  if r.stack.isEmpty then .ok r.forms.reverse else .error .unexpectedEnd

section place

variable (r : Reader) (mode : Token.Mode) (line : Nat)

lemma complete_placed (v : Sexp) (stack : List OpenForm) :
    (r.placed mode line).complete v stack = (r.complete v stack).placed mode line := by
  induction stack generalizing v with
  | nil => rfl
  | cons form outer ih =>
    cases form with
    | quote => exact ih v.quoted
    | list items => rfl

lemma acceptInner_placed (n : Nat) (token : Token) :
    (r.placed mode line).acceptInner n token =
      (r.acceptInner n token).map (·.placed mode line) := by
  cases token with
  | opening | quote =>
    unfold acceptInner open?
    change (if Sexp.maxDepth ≤ r.stack.length then _ else _) = _
    split <;> rfl
  | closing =>
    obtain ⟨single, oldMode, oldLine, stack, start, forms⟩ := r
    cases stack with
    | nil => rfl
    | cons form outer =>
      cases form with
      | quote => rfl
      | list items => exact congrArg Except.ok (complete_placed _ mode line _ outer)
  | string text => exact congrArg Except.ok (r.complete_placed mode line _ _)
  | atom name => exact congrArg Except.ok (r.complete_placed mode line _ _)
  | unclosed => rfl

lemma accept_placed (token : Token.Located) :
    (r.placed mode line).accept token = (r.accept token).map (·.placed mode line) := by
  unfold accept
  change (if r.stack.isEmpty then if r.single && !r.forms.isEmpty then _ else _ else _) = _
  split
  · split
    · rfl
    · exact acceptInner_placed { r with start := token.1 } mode line token.1 token.2
  · exact acceptInner_placed r mode line token.1 token.2

lemma acceptAll_placed (tokens : List Token.Located) :
    (r.placed mode line).acceptAll tokens = (r.acceptAll tokens).map (·.placed mode line) := by
  induction tokens generalizing r with
  | nil => rfl
  | cons token rest ih =>
    rw [acceptAll, acceptAll, accept_placed]
    cases r.accept token with
    | error e => rfl
    | ok r' => exact ih r'

end place

lemma acceptAll_append (r : Reader) (front rest : List Token.Located) :
    r.acceptAll (front ++ rest) = (r.acceptAll front).bind (·.acceptAll rest) := by
  induction front generalizing r with
  | nil => rfl
  | cons token front ih =>
    rw [List.cons_append, acceptAll, acceptAll]
    cases r.accept token with
    | error e => rfl
    | ok r' => exact ih r'

lemma feedAll_eq (r : Reader) (cs : List Char) :
    (r.feedAll cs).bind finish = (r.acceptAll (Token.lex r.mode r.line cs)).bind settle := by
  induction cs generalizing r with
  | nil =>
    change finish r = (r.acceptAll (Token.scanEnd r.mode r.line)).bind settle
    unfold finish
    cases r.acceptAll (Token.scanEnd r.mode r.line) <;> rfl
  | cons c rest ih =>
    have hfeed : r.feed c = (r.acceptAll (Token.scan r.mode r.line c).1).map
        (·.placed (Token.scan r.mode r.line c).2 (Token.lineAfter r.line c)) :=
      r.acceptAll_placed _ _ _
    -- the place is set after the tokens of the character, which do not look at it
    rw [feedAll, hfeed, Token.lex, acceptAll_append]
    cases r.acceptAll (Token.scan r.mode r.line c).1 with
    | error e => rfl
    | ok r' =>
      refine (ih (r'.placed _ _)).trans ?_
      rw [acceptAll_placed]
      change ((r'.acceptAll (Token.lex (Token.scan r.mode r.line c).2 (Token.lineAfter r.line c)
        rest)).map _).bind settle = (r'.acceptAll _).bind settle
      cases r'.acceptAll (Token.lex (Token.scan r.mode r.line c).2 (Token.lineAfter r.line c)
        rest) <;> rfl

/-- Reading a text is accepting its tokens. -/
theorem run_eq (single : Bool) (cs : List Char) :
    run single cs = (acceptAll { single } (Token.lex .between 1 cs)).bind settle := by
  rw [← feedAll_eq { single } cs, run]
  cases feedAll { single } cs <;> rfl

end Reader

end EvalServer
