import EvalServer.Proofs.Sexp.Lexing

/-!
# Printing and reading

A value is readable if its lists are not too deep in each other and its names read as what they
are. Exactly the readable values print as a text that reads as the value, and reading gives
readable values only.
-/

namespace EvalServer

namespace Sexp

/-- A name that reads as a symbol. -/
structure IsSymbol (name : List Char) : Prop extends Token.IsName name where
  not_nil : name ≠ ['n', 'i', 'l']
  not_t : name ≠ ['t']
  not_keyword : ∀ c rest, name ≠ ':' :: c :: rest
  not_int : Text.Decimal.toInt64? name = none

mutual

/-- All names in a value read as what they are. -/
def Legible : Sexp → Prop
  | .nil | .t | .int _ | .str _ => True
  | .symbol name => IsSymbol name.toList
  | .keyword name => name.toList ≠ [] ∧ ∀ c ∈ name.toList, Token.isDelimiter c = false
  | .list items => LegibleAll items

def LegibleAll : List Sexp → Prop
  | [] => True
  | item :: rest => Legible item ∧ LegibleAll rest

end

mutual

/-- How many lists of a value are in each other. -/
def nesting : Sexp → Nat
  | .nil | .t | .int _ | .str _ | .symbol _ | .keyword _ => 0
  | .list items => nestingAll items + 1

def nestingAll : List Sexp → Nat
  | [] => 0
  | item :: rest => max (nesting item) (nestingAll rest)

end

def Readable (v : Sexp) : Prop :=
  v.nesting ≤ maxDepth ∧ v.Legible

lemma legibleAll_iff {items : List Sexp} : LegibleAll items ↔ ∀ v ∈ items, v.Legible := by
  induction items with
  | nil => simp [LegibleAll]
  | cons v rest ih => simp [LegibleAll, ih]

lemma nestingAll_le_iff {items : List Sexp} {n : Nat} :
    nestingAll items ≤ n ↔ ∀ v ∈ items, v.nesting ≤ n := by
  induction items with
  | nil => simp [nestingAll]
  | cons v rest ih =>
    rw [nestingAll, Nat.max_le, ih]
    simp

/-- A list fits where its items fit one level deeper. -/
lemma nesting_list_le_iff {items : List Sexp} {n : Nat} :
    (Sexp.list items).nesting ≤ n + 1 ↔ ∀ v ∈ items, v.nesting ≤ n := by
  rw [nesting, Nat.add_le_add_iff_right, nestingAll_le_iff]

/-! ## Names -/

lemma isSymbol_quote : IsSymbol ['q', 'u', 'o', 't', 'e'] where
  ne_nil := by decide
  plain := Token.plain_of_all (by decide)
  unquoted := by simp
  not_nil := by decide
  not_t := by decide
  not_keyword := by simp
  not_int := by decide

lemma legible_quoted {v : Sexp} (hv : v.Legible) : v.quoted.Legible :=
  ⟨isSymbol_quote, hv, trivial⟩

lemma nesting_quoted (v : Sexp) : v.quoted.nesting = v.nesting + 1 := by
  simp [quoted, nesting, nestingAll]

lemma legible_ofAtom {name : List Char} (hname : Token.IsName name) : (ofAtom name).Legible := by
  unfold ofAtom
  split
  · trivial
  · next hnil =>
    split
    · trivial
    · next ht =>
      split
      · next c rest =>
        refine ⟨by simp, fun d hd => hname.plain d ?_⟩
        rw [String.toList_ofList] at hd
        exact List.mem_cons_of_mem _ hd
      · next hkeyword =>
        split
        · trivial
        · next hint =>
          change IsSymbol (String.ofList name).toList
          rw [String.toList_ofList]
          exact ⟨hname, hnil, ht, hkeyword, hint⟩

lemma nesting_ofAtom (name : List Char) : (ofAtom name).nesting = 0 := by
  unfold ofAtom
  split
  · rfl
  · split
    · rfl
    · split
      · rfl
      · split <;> rfl

lemma plain_digit {c : Char} (hc : ∃ d, d < 10 ∧ c = Text.Decimal.digit d) :
    Token.isDelimiter c = false ∧ c ≠ '\x27' ∧ c ≠ ':' ∧ c ≠ 'n' ∧ c ≠ 't' := by
  obtain ⟨d, hd, rfl⟩ := hc
  revert d
  decide

lemma digits_ofNat (n : Nat) :
    ∀ c ∈ Text.Decimal.ofNat n, ∃ d, d < 10 ∧ c = Text.Decimal.digit d := by
  induction n using Nat.strongRecOn with
  | ind n ih =>
    unfold Text.Decimal.ofNat
    split
    · next h =>
      intro c hc
      exact ⟨n, h, List.mem_singleton.1 hc⟩
    · next h =>
      intro c hc
      rcases List.mem_append.1 hc with hc | hc
      · exact ih (n / 10) (by omega) c hc
      · exact ⟨n % 10, Nat.mod_lt _ (by decide), List.mem_singleton.1 hc⟩

/-- The characters of an integer are a minus sign or digits. -/
lemma plain_ofInt (i : Int) : ∀ c ∈ Text.Decimal.ofInt i,
    Token.isDelimiter c = false ∧ c ≠ '\x27' ∧ c ≠ ':' ∧ c ≠ 'n' ∧ c ≠ 't' := by
  cases i with
  | ofNat n => exact fun c hc => plain_digit (digits_ofNat n c hc)
  | negSucc n =>
    intro c hc
    rcases List.mem_cons.1 hc with rfl | hc
    · decide
    · exact plain_digit (digits_ofNat (n + 1) c hc)

lemma ofInt_ne_nil (i : Int) : Text.Decimal.ofInt i ≠ [] := by
  cases i with
  | ofNat n => exact Text.Decimal.ofNat_ne_nil n
  | negSucc n => exact List.cons_ne_nil _ _

lemma isName_ofInt (i : Int) : Token.IsName (Text.Decimal.ofInt i) where
  ne_nil := ofInt_ne_nil i
  plain := fun c hc => (plain_ofInt i c hc).1
  unquoted := by
    intro rest heq
    exact (plain_ofInt i '\x27' (heq ▸ List.mem_cons_self)).2.1 rfl

lemma fit?_toInt (n : Int64) : Integer.fit? n.toInt = some n := by
  rw [Integer.fit?, if_pos ⟨n.le_toInt, n.toInt_lt⟩, Int64.ofInt_toInt]

lemma ofAtom_ofInt (n : Int64) : ofAtom (Text.Decimal.ofInt n.toInt) = .int n := by
  have hplain := plain_ofInt n.toInt
  have hread : Text.Decimal.toInt64? (Text.Decimal.ofInt n.toInt) = some n := by
    rw [Text.Decimal.toInt64?_eq, Text.Decimal.toInt?_ofInt, Option.bind_some, fit?_toInt]
  have hnil : Text.Decimal.ofInt n.toInt ≠ ['n', 'i', 'l'] := fun heq =>
    (hplain 'n' (heq ▸ List.mem_cons_self)).2.2.2.1 rfl
  have ht : Text.Decimal.ofInt n.toInt ≠ ['t'] := fun heq =>
    (hplain 't' (heq ▸ List.mem_cons_self)).2.2.2.2 rfl
  unfold ofAtom
  rw [if_neg hnil, if_neg ht]
  split
  · next c rest heq => exact absurd rfl (hplain ':' (heq ▸ List.mem_cons_self)).2.2.1
  · rw [hread]

lemma ofAtom_symbol {name : String} (hname : IsSymbol name.toList) :
    ofAtom name.toList = .symbol name := by
  unfold ofAtom
  rw [if_neg hname.not_nil, if_neg hname.not_t]
  split
  · next c rest heq => exact absurd heq (hname.not_keyword c rest)
  · rw [hname.not_int, String.ofList_toList]

lemma ofAtom_keyword {name : String} (hname : name.toList ≠ []) :
    ofAtom (':' :: name.toList) = .keyword name := by
  obtain ⟨c, rest, heq⟩ := List.exists_cons_of_ne_nil hname
  have hread : ofAtom (':' :: c :: rest) = .keyword (String.ofList (c :: rest)) := rfl
  rw [heq, hread, ← heq, String.ofList_toList]

/-! ## Tokens of printed values -/

mutual

def tokens : Sexp → List Token
  | .nil => [.atom (chars .nil)]
  | .t => [.atom (chars .t)]
  | .int n => [.atom (chars (.int n))]
  | .str text => [.string text.toList]
  | .symbol name => [.atom (chars (.symbol name))]
  | .keyword name => [.atom (chars (.keyword name))]
  | .list items => .opening :: (tokensAll items ++ [.closing])

def tokensAll : List Sexp → List Token
  | [] => []
  | item :: rest => tokens item ++ tokensAll rest

end

open Token

lemma lex_atom {v : Sexp} (htokens : v.tokens = [.atom v.chars]) (hname : IsName v.chars)
    {rest : List Char} (hrest : Ends rest) (line : Nat) :
    ∃ found after, lex .between line (v.chars ++ rest) = found ++ lex .between after rest ∧
      found.map Prod.snd = v.tokens := by
  refine ⟨[(line, .atom v.chars)], line, lex_name hname hrest, ?_⟩
  rw [htokens]
  rfl

mutual

theorem lex_chars : ∀ (v : Sexp), v.Legible → ∀ (rest : List Char), Ends rest → ∀ (line : Nat),
    ∃ found after, lex .between line (v.chars ++ rest) = found ++ lex .between after rest ∧
      found.map Prod.snd = v.tokens
  | .nil, _, rest, hrest, line =>
    lex_atom rfl ⟨by decide, plain_of_all (by decide), by simp [chars]⟩ hrest line
  | .t, _, rest, hrest, line =>
    lex_atom rfl ⟨by decide, plain_of_all (by decide), by simp [chars]⟩ hrest line
  | .int n, _, rest, hrest, line => lex_atom (v := .int n) rfl (isName_ofInt n.toInt) hrest line
  | .symbol name, hname, rest, hrest, line =>
    lex_atom (v := .symbol name) rfl hname.toIsName hrest line
  | .keyword name, hname, rest, hrest, line => by
    refine lex_atom (v := .keyword name) rfl ⟨List.cons_ne_nil _ _, ?_, by simp [chars]⟩ hrest line
    exact List.forall_mem_cons.2 ⟨by decide, hname.2⟩
  | .str text, _, rest, _, line => by
    obtain ⟨after, hafter⟩ := lex_escaped line text.toList [] rest line
    refine ⟨[(line, .string text.toList)], after, ?_, rfl⟩
    rw [chars, List.cons_append, List.append_assoc]
    exact hafter
  | .list items, hitems, rest, _, line => by
    obtain ⟨found, after, hlex, hfound⟩ := lex_charsAll items hitems rest line
    refine ⟨(line, .opening) :: (found ++ [(after, .closing)]), after, ?_, by simp [tokens, hfound]⟩
    rw [chars, List.cons_append, List.append_assoc, List.singleton_append, lex_opening, hlex,
      lex_closing, List.cons_append, List.append_assoc, List.singleton_append]

theorem lex_charsAll : ∀ (items : List Sexp), LegibleAll items → ∀ (rest : List Char) (line : Nat),
    ∃ found after, lex .between line (charsAll items ++ ')' :: rest) =
      found ++ lex .between after (')' :: rest) ∧ found.map Prod.snd = tokensAll items
  | [], _, rest, line => ⟨[], line, rfl, rfl⟩
  | [item], hitems, rest, line => by
    have hends : Ends (')' :: rest) := ends_cons (by decide) rest
    obtain ⟨found, after, hlex, hfound⟩ := lex_chars item hitems.1 _ hends line
    exact ⟨found, after, hlex, by simp [tokensAll, hfound]⟩
  | item :: next :: others, hitems, rest, line => by
    have hends : Ends (' ' :: (charsAll (next :: others) ++ ')' :: rest)) :=
      ends_cons (by decide) _
    obtain ⟨found, after, hlex, hfound⟩ := lex_chars item hitems.1 _ hends line
    obtain ⟨found', after', hlex', hfound'⟩ := lex_charsAll (next :: others) hitems.2 rest after
    refine ⟨found ++ found', after', ?_, ?_⟩
    · rw [charsAll, List.append_assoc, List.cons_append, hlex, lex_space, hlex', List.append_assoc]
      exact List.cons_ne_nil _ _
    · rw [tokensAll, List.map_append, hfound, hfound']

end

end Sexp

/-! ## Accepting the tokens of a value -/

namespace Reader

/-- Another form may start. -/
def Ready (r : Reader) : Prop :=
  r.stack = [] → r.single = true → r.forms = []

def withStack (r : Reader) (stack : List OpenForm) : Reader :=
  { r with stack }

/-- A form starts on a line if none is open. -/
def begin (r : Reader) (line : Nat) : Reader :=
  if r.stack.isEmpty then { r with start := line } else r

lemma begin_of_open {r : Reader} {form : OpenForm} {outer : List OpenForm} (line : Nat)
    (hstack : r.stack = form :: outer) : r.begin line = r := by
  rw [begin, hstack]
  rfl

lemma stack_begin (r : Reader) (line : Nat) : (r.begin line).stack = r.stack := by
  rw [begin]
  split <;> rfl

lemma accept_eq {r : Reader} (hready : r.Ready) (line : Nat) (token : Token) :
    r.accept (line, token) = (r.begin line).acceptInner line token := by
  unfold accept begin
  split
  · next hempty =>
    have hfree : ¬ (r.single && !r.forms.isEmpty) = true := by
      have hforms := hready (List.isEmpty_iff.1 hempty)
      cases hsingle : r.single with
      | false => simp
      | true => simp [hforms hsingle]
    rw [if_neg hfree]
  · rfl

lemma complete_withStack (r : Reader) (v : Sexp) (stack' stack : List OpenForm) :
    (r.withStack stack').complete v stack = r.complete v stack := by
  induction stack generalizing v with
  | nil => rfl
  | cons form outer ih =>
    cases form with
    | quote => exact ih v.quoted
    | list items => rfl

lemma ready_of_open {r : Reader} {form : OpenForm} {outer : List OpenForm}
    (hstack : r.stack = form :: outer) : r.Ready := by
  intro hempty
  rw [hstack] at hempty
  cases hempty

lemma acceptInner_opening (r : Reader) (line : Nat) :
    r.acceptInner line .opening = r.open? line (.list []) := rfl

lemma acceptInner_quote (r : Reader) (line : Nat) :
    r.acceptInner line .quote = r.open? line .quote := rfl

section opening

variable {r : Reader} {token : Token} {form : OpenForm}

lemma accept_open (hready : r.Ready)
    (htoken : ∀ (r : Reader) line, r.acceptInner line token = r.open? line form) (line : Nat)
    (hdepth : r.stack.length < Sexp.maxDepth) :
    r.accept (line, token) = .ok ((r.begin line).withStack (form :: r.stack)) := by
  rw [accept_eq hready, htoken, open?, stack_begin, if_neg (Nat.not_le_of_lt hdepth)]
  rfl

lemma accept_open_deep (hready : r.Ready)
    (htoken : ∀ (r : Reader) line, r.acceptInner line token = r.open? line form) (line : Nat)
    (hdepth : Sexp.maxDepth ≤ r.stack.length) :
    r.accept (line, token) = .error (.tooDeep line) := by
  rw [accept_eq hready, htoken, open?, stack_begin, if_pos hdepth]

end opening

lemma accept_closing {r : Reader} {items : List Sexp} {outer : List OpenForm} (line : Nat)
    (hstack : r.stack = .list items :: outer) :
    r.accept (line, .closing) = .ok (r.complete (.list items.reverse) outer) := by
  rw [accept_eq (ready_of_open hstack), begin_of_open line hstack, acceptInner, hstack]

lemma acceptAll_cons {r r' : Reader} {token : Token.Located} (h : r.accept token = .ok r')
    (rest : List Token.Located) : r.acceptAll (token :: rest) = r'.acceptAll rest := by
  rw [acceptAll, h]

lemma acceptAll_cons_error {r : Reader} {token : Token.Located} {e : ReadError}
    (h : r.accept token = .error e) (rest : List Token.Located) :
    r.acceptAll (token :: rest) = .error e := by
  rw [acceptAll, h]

lemma acceptAll_append_ok {r r' : Reader} {front : List Token.Located}
    (h : r.acceptAll front = .ok r') (rest : List Token.Located) :
    r.acceptAll (front ++ rest) = r'.acceptAll rest := by
  rw [acceptAll_append, h]
  rfl

lemma acceptAll_append_error {r : Reader} {front : List Token.Located} {e : ReadError}
    (h : r.acceptAll front = .error e) (rest : List Token.Located) :
    r.acceptAll (front ++ rest) = .error e := by
  rw [acceptAll_append, h]
  rfl

/-- What the tokens of a value do wherever a form may start. -/
structure Reads (found : List Token.Located) (v : Sexp) : Prop where
  fits : ∀ r : Reader, r.Ready → v.nesting + r.stack.length ≤ Sexp.maxDepth →
    ∃ line, found.head?.map Prod.fst = some line ∧
      r.acceptAll found = .ok ((r.begin line).complete v r.stack)
  deep : ∀ r : Reader, r.Ready → r.stack.length ≤ Sexp.maxDepth →
    Sexp.maxDepth < v.nesting + r.stack.length → ∃ line, r.acceptAll found = .error (.tooDeep line)

/-- What the tokens of values do inside a list: they are gathered there, latest first. -/
structure ReadsAll (found : List Token.Located) (items : List Sexp) : Prop where
  fits : ∀ (r : Reader) (before : List Sexp) (outer : List OpenForm),
    r.stack = .list before :: outer → Sexp.nestingAll items + r.stack.length ≤ Sexp.maxDepth →
    r.acceptAll found = .ok (r.withStack (.list (items.reverse ++ before) :: outer))
  deep : ∀ (r : Reader) (before : List Sexp) (outer : List OpenForm),
    r.stack = .list before :: outer → r.stack.length ≤ Sexp.maxDepth →
    Sexp.maxDepth < Sexp.nestingAll items + r.stack.length →
    ∃ line, r.acceptAll found = .error (.tooDeep line)

lemma reads_single {v : Sexp} {token : Token} (hflat : v.nesting = 0)
    (htoken : ∀ (r : Reader) line, r.acceptInner line token = .ok (r.complete v r.stack))
    (line : Nat) : Reads [(line, token)] v where
  fits r hready _ := by
    refine ⟨line, rfl, ?_⟩
    rw [acceptAll, accept_eq hready, htoken, stack_begin]
    rfl
  deep r _ _ _ := by omega

section nested

variable {found front last : List Token.Located} {v : Sexp} {items : List Sexp}

lemma Reads.quoted (h : Reads found v) (line : Nat) : Reads ((line, .quote) :: found) v.quoted where
  fits r hready hdepth := by
    rw [Sexp.nesting_quoted] at hdepth
    have hopen := accept_open hready acceptInner_quote line (by omega)
    obtain ⟨line', -, hinside⟩ := h.fits ((r.begin line).withStack (.quote :: r.stack))
      (ready_of_open rfl) (by simp only [withStack, List.length_cons]; omega)
    rw [begin_of_open line' rfl] at hinside
    refine ⟨line, rfl, ?_⟩
    rw [acceptAll_cons hopen, hinside]
    exact congrArg Except.ok (complete_withStack _ _ _ (.quote :: r.stack))
  deep r hready _ hdepth := by
    rw [Sexp.nesting_quoted] at hdepth
    rcases Nat.lt_or_ge r.stack.length Sexp.maxDepth with hlt | hge
    · obtain ⟨line', hinside⟩ := h.deep ((r.begin line).withStack (.quote :: r.stack))
        (ready_of_open rfl) hlt (by simp only [withStack, List.length_cons]; omega)
      refine ⟨line', ?_⟩
      rw [acceptAll_cons (accept_open hready acceptInner_quote line hlt), hinside]
    · exact ⟨line, acceptAll_cons_error
        (accept_open_deep hready acceptInner_quote line hge) _⟩

lemma ReadsAll.list (h : ReadsAll found items) (line line' : Nat) :
    Reads ((line, .opening) :: (found ++ [(line', .closing)])) (.list items) where
  fits r hready hdepth := by
    rw [Sexp.nesting] at hdepth
    have hopen := accept_open hready acceptInner_opening line (by omega)
    have hinside := h.fits ((r.begin line).withStack (.list [] :: r.stack)) [] r.stack rfl
      (by simp only [withStack, List.length_cons]; omega)
    rw [List.append_nil] at hinside
    have hclose := accept_closing (r := (r.begin line).withStack (.list items.reverse :: r.stack))
      line' rfl
    rw [complete_withStack, List.reverse_reverse] at hclose
    refine ⟨line, rfl, ?_⟩
    rw [acceptAll_cons hopen, acceptAll_append_ok hinside]
    exact acceptAll_cons hclose []
  deep r hready _ hdepth := by
    rw [Sexp.nesting] at hdepth
    rcases Nat.lt_or_ge r.stack.length Sexp.maxDepth with hlt | hge
    · obtain ⟨line', hinside⟩ := h.deep ((r.begin line).withStack (.list [] :: r.stack)) [] r.stack
        rfl hlt (by simp only [withStack, List.length_cons]; omega)
      refine ⟨line', ?_⟩
      rw [acceptAll_cons (accept_open hready acceptInner_opening line hlt),
        acceptAll_append_error hinside]
    · exact ⟨line, acceptAll_cons_error
        (accept_open_deep hready acceptInner_opening line hge) _⟩

lemma readsAll_nil : ReadsAll [] [] where
  fits r before outer hstack _ := by
    rw [List.reverse_nil, List.nil_append, ← hstack]
    rfl
  deep r before outer _ hopen hdepth := by
    rw [Sexp.nestingAll] at hdepth
    omega

lemma Reads.cons (h : Reads front v) (hrest : ReadsAll last items) :
    ReadsAll (front ++ last) (v :: items) where
  fits r before outer hstack hdepth := by
    rw [Sexp.nestingAll] at hdepth
    obtain ⟨line, -, hitem⟩ := h.fits r (ready_of_open hstack) (by omega)
    rw [begin_of_open line hstack, hstack] at hitem
    have hlast := hrest.fits (r.withStack (.list (v :: before) :: outer)) (v :: before) outer rfl
      (by rw [hstack] at hdepth; simp only [withStack, List.length_cons] at *; omega)
    rw [acceptAll_append_ok hitem, List.reverse_cons, List.append_assoc]
    exact hlast
  deep r before outer hstack hopen hdepth := by
    rw [Sexp.nestingAll] at hdepth
    rcases Nat.lt_or_ge Sexp.maxDepth (v.nesting + r.stack.length) with hdeep | hfits
    · obtain ⟨line, hitem⟩ := h.deep r (ready_of_open hstack) hopen hdeep
      exact ⟨line, acceptAll_append_error hitem last⟩
    · obtain ⟨line, -, hitem⟩ := h.fits r (ready_of_open hstack) hfits
      rw [begin_of_open line hstack, hstack] at hitem
      rw [hstack, List.length_cons] at hopen hdepth hfits
      obtain ⟨line', hlast⟩ := hrest.deep (r.withStack (.list (v :: before) :: outer)) (v :: before)
        outer rfl hopen (by simp only [withStack, List.length_cons]; omega)
      exact ⟨line', (acceptAll_append_ok hitem last).trans hlast⟩

end nested

lemma reads_of_map {v : Sexp} {token : Token} (hflat : v.nesting = 0)
    (htoken : ∀ (r : Reader) line, r.acceptInner line token = .ok (r.complete v r.stack))
    {found : List Token.Located} (hfound : found.map Prod.snd = [token]) : Reads found v := by
  obtain ⟨⟨line, token⟩, rfl, rfl⟩ := List.map_eq_singleton_iff.1 hfound
  exact reads_single hflat htoken line

mutual

theorem reads_tokens : ∀ (v : Sexp), v.Legible → ∀ (found : List Token.Located),
    found.map Prod.snd = v.tokens → Reads found v
  | .nil, _, _, hfound => reads_of_map rfl (fun _ _ => rfl) hfound
  | .t, _, _, hfound => reads_of_map rfl (fun _ _ => rfl) hfound
  | .int n, _, _, hfound => reads_of_map rfl
    (fun r line => by rw [acceptInner, Sexp.chars, Sexp.ofAtom_ofInt]) hfound
  | .symbol name, hname, _, hfound => reads_of_map rfl
    (fun r line => by rw [acceptInner, Sexp.chars, Sexp.ofAtom_symbol hname]) hfound
  | .keyword name, hname, _, hfound => reads_of_map rfl
    (fun r line => by rw [acceptInner, Sexp.chars, Sexp.ofAtom_keyword hname.1]) hfound
  | .str text, _, _, hfound => reads_of_map rfl
    (fun r line => by rw [acceptInner, String.ofList_toList]) hfound
  | .list items, hitems, found, hfound => by
    obtain ⟨⟨line, _⟩, inner, rfl, rfl, hinner⟩ := List.map_eq_cons_iff.1 hfound
    obtain ⟨front, last, rfl, hfront, hlast⟩ := List.map_eq_append_iff.1 hinner
    obtain ⟨⟨line', _⟩, rfl, rfl⟩ := List.map_eq_singleton_iff.1 hlast
    exact (reads_tokensAll items hitems front hfront).list line line'

theorem reads_tokensAll : ∀ (items : List Sexp), Sexp.LegibleAll items →
    ∀ (found : List Token.Located), found.map Prod.snd = Sexp.tokensAll items → ReadsAll found items
  | [], _, found, hfound => by
    rw [Sexp.tokensAll, List.map_eq_nil_iff] at hfound
    subst hfound
    exact readsAll_nil
  | item :: rest, hitems, found, hfound => by
    obtain ⟨front, last, rfl, hfront, hlast⟩ := List.map_eq_append_iff.1 hfound
    exact (reads_tokens item hitems.1 front hfront).cons (reads_tokensAll rest hitems.2 last hlast)

end

/-! ## Values of accepted tokens -/

/-- The open forms are not too many, and what they hold fits at their depth. -/
def Fits : List OpenForm → Prop
  | [] => True
  | form :: outer => outer.length < Sexp.maxDepth ∧
      (∀ items, form = .list items → ∀ v ∈ items,
        v.Legible ∧ v.nesting + outer.length + 1 ≤ Sexp.maxDepth) ∧ Fits outer

/-- What has been read can be read. -/
structure Sound (r : Reader) : Prop where
  stack : Fits r.stack
  forms : ∀ p ∈ r.forms, p.2.Readable

lemma Sound.complete {r : Reader} (hforms : ∀ p ∈ r.forms, p.2.Readable) {v : Sexp}
    (hv : v.Legible) {stack : List OpenForm} (hstack : Fits stack)
    (hdepth : v.nesting + stack.length ≤ Sexp.maxDepth) : (r.complete v stack).Sound := by
  induction stack generalizing v with
  | nil =>
    refine ⟨trivial, fun p hp => ?_⟩
    rcases List.mem_cons.1 hp with rfl | hp
    · exact ⟨hdepth, hv⟩
    · exact hforms p hp
  | cons form outer ih =>
    obtain ⟨hlt, hitems, houter⟩ := hstack
    rw [List.length_cons] at hdepth
    cases form with
    | quote =>
      refine ih (Sexp.legible_quoted hv) houter ?_
      rw [Sexp.nesting_quoted]
      omega
    | list items =>
      refine ⟨⟨hlt, ?_, houter⟩, hforms⟩
      rintro _ ⟨⟩ w hw
      rcases List.mem_cons.1 hw with rfl | hw
      · exact ⟨hv, by omega⟩
      · exact hitems items rfl w hw

lemma Sound.open? {r r' : Reader} (hr : r.Sound) {line : Nat} {form : OpenForm}
    (hform : ∀ items, form = .list items → items = []) (hopen : r.open? line form = .ok r') :
    r'.Sound := by
  unfold Reader.open? at hopen
  split at hopen
  · cases hopen
  · next hdepth =>
    cases hopen
    refine ⟨⟨Nat.lt_of_not_le hdepth, ?_, hr.stack⟩, hr.forms⟩
    intro items hitems v hv
    rw [hform items hitems] at hv
    cases hv

lemma Fits.length_le {stack : List OpenForm} (hstack : Fits stack) :
    stack.length ≤ Sexp.maxDepth := by
  cases stack with
  | nil => exact Nat.zero_le _
  | cons form outer => exact hstack.1

lemma Sound.acceptInner {r r' : Reader} (hr : r.Sound) {line : Nat} {token : Token}
    (htoken : token.Proper) (haccept : r.acceptInner line token = .ok r') : r'.Sound := by
  have hflat : ∀ v : Sexp, v.Legible → v.nesting = 0 → (r.complete v r.stack).Sound := by
    intro v hv hnesting
    refine .complete hr.forms hv hr.stack ?_
    rw [hnesting, Nat.zero_add]
    exact hr.stack.length_le
  cases token with
  | opening => exact hr.open? (by rintro _ ⟨⟩; rfl) haccept
  | quote => exact hr.open? (by rintro _ ⟨⟩) haccept
  | string text =>
    cases haccept
    exact hflat (.str _) trivial rfl
  | atom name =>
    cases haccept
    exact hflat _ (Sexp.legible_ofAtom htoken) (Sexp.nesting_ofAtom name)
  | unclosed => cases haccept
  | closing =>
    unfold Reader.acceptInner at haccept
    simp only at haccept
    split at haccept
    · next items outer hstack =>
      cases haccept
      have hfits := hr.stack
      rw [hstack] at hfits
      obtain ⟨hlt, hitems, houter⟩ := hfits
      refine .complete hr.forms ?_ houter ?_
      · exact Sexp.legibleAll_iff.2 fun v hv => (hitems items rfl v (List.mem_reverse.1 hv)).1
      · have hnesting : Sexp.nestingAll items.reverse ≤ Sexp.maxDepth - (outer.length + 1) := by
          refine Sexp.nestingAll_le_iff.2 fun v hv => ?_
          have hdepth := (hitems items rfl v (List.mem_reverse.1 hv)).2
          omega
        rw [Sexp.nesting]
        omega
    · cases haccept

lemma Sound.acceptAll {r r' : Reader} (hr : r.Sound) {found : List Token.Located}
    (hfound : ∀ t ∈ found, t.2.Proper) (haccept : r.acceptAll found = .ok r') : r'.Sound := by
  induction found generalizing r with
  | nil =>
    cases haccept
    exact hr
  | cons t rest ih =>
    obtain ⟨ht, hrest⟩ := List.forall_mem_cons.1 hfound
    rw [Reader.acceptAll] at haccept
    split at haccept
    · cases haccept
    · next r₁ hr₁ =>
      refine ih ?_ hrest haccept
      unfold Reader.accept at hr₁
      split at hr₁
      · split at hr₁
        · cases hr₁
        · exact Sound.acceptInner (r := { r with start := t.1 }) ⟨hr.stack, hr.forms⟩ ht hr₁
      · exact hr.acceptInner ht hr₁

end Reader

namespace Sexp

lemma parse_print {v : Sexp} (hv : v.Readable) : parse v.print = .ok v := by
  have hends : Token.Ends [] := by simp [Token.Ends]
  obtain ⟨found, after, hlex, hfound⟩ := lex_chars v hv.2 [] hends 1
  have hnone : Token.lex .between after [] = [] := rfl
  rw [hnone, List.append_nil, List.append_nil] at hlex
  obtain ⟨line, -, haccept⟩ := (Reader.reads_tokens v hv.2 found hfound).fits { single := true }
    (fun _ _ => rfl) hv.1
  rw [parse, print, String.toList_ofList, Reader.run_eq, hlex, haccept]
  rfl

lemma readable_of_run {single : Bool} {cs : List Char} {forms : List (Nat × Sexp)}
    (hrun : Reader.run single cs = .ok forms) : ∀ p ∈ forms, p.2.Readable := by
  have hproper : Token.Mode.Proper .between := trivial
  have hstart : Reader.Sound { single } := ⟨trivial, by simp⟩
  rw [Reader.run_eq] at hrun
  cases haccept : Reader.acceptAll { single } (Token.lex .between 1 cs) with
  | error e =>
    rw [haccept] at hrun
    cases hrun
  | ok r =>
    have hsound := hstart.acceptAll (Token.lex_proper hproper 1 cs) haccept
    rw [haccept] at hrun
    simp only [Except.bind, Reader.settle] at hrun
    split at hrun
    · cases hrun
      exact fun p hp => hsound.forms p (List.mem_reverse.1 hp)
    · cases hrun

lemma readable_of_parseAll {text : String} {forms : List (Nat × Sexp)}
    (hparse : parseAll text = .ok forms) : ∀ p ∈ forms, p.2.Readable :=
  readable_of_run hparse

lemma readable_of_parse {text : String} {v : Sexp} (hparse : parse text = .ok v) :
    v.Readable := by
  unfold parse at hparse
  split at hparse
  · cases hparse
  · cases hparse
  · next line w rest hrun =>
    cases hparse
    exact readable_of_run hrun (line, v) List.mem_cons_self

/-- Exactly the readable values print as a text that reads as the value, and every value that is
read from any text is one of them. -/
theorem parse_print_iff_readable :
    (∀ v : Sexp, parse v.print = .ok v ↔ v.Readable) ∧
    ∀ (text : String) (v : Sexp), parse text = .ok v → v.Readable ∧ parse v.print = .ok v := by
  refine ⟨fun v => ⟨readable_of_parse, parse_print⟩, fun text v hparse => ?_⟩
  have hv := readable_of_parse hparse
  exact ⟨hv, parse_print hv⟩

theorem parse_print_mixed : ∃ v : Sexp,
    parse "('a +7 ; rest\n \"x\\\"y\" :k nil ())" = .ok v ∧ v.Readable ∧ parse v.print = .ok v := by
  have hparse : parse "('a +7 ; rest\n \"x\\\"y\" :k nil ())" =
      .ok (.list [.list [.symbol "quote", .symbol "a"], .int 7, .str "x\"y", .keyword "k", .nil,
        .list []]) := by
    decide +kernel
  exact ⟨_, hparse, parse_print_iff_readable.2 _ _ hparse⟩

end Sexp

end EvalServer
