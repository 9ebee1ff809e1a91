import EvalServer.Proofs.Sexp.Grammar
import EvalServer.Proofs.Sexp.RoundTrip

/-!
# The reader recognizes the grammar

Along a derivation the reader does what the grammar says, up to the depth it allows. Where a text
has no form, no way of reading on gives one, so nothing else is read.
-/

namespace EvalServer

namespace Sexp

open Token Reader

variable {cs rest text : List Char} {v : Sexp} {items : List Sexp}

mutual

/-- The tokens of a form start on its line and read as its value; its newlines count. -/
theorem Form.reads : ∀ {cs : List Char} {v : Sexp} {rest : List Char}, Form cs v rest →
    ∀ line, ∃ found after, lex .between line cs = found ++ lex .between after rest ∧
      Reads found v ∧ found.head?.map Prod.fst = some line ∧
      after + rest.count '\n' = line + cs.count '\n'
  | _, _, _, .list htrivia hforms, line => by
    obtain ⟨between, hbetween, hlines⟩ := lex_trivia_lines htrivia line
    obtain ⟨found, close, after, hlex, hfound, hlines'⟩ := hforms.reads between
    refine ⟨_, after, ?_, hfound.list line close, rfl, ?_⟩
    · rw [lex_opening, hbetween, hlex, List.cons_append, List.append_assoc, List.singleton_append]
    · rw [hlines', hlines, List.count_cons_of_ne (by decide)]
  | _, _, _, .quote htrivia hform, line => by
    obtain ⟨between, hbetween, hlines⟩ := lex_trivia_lines htrivia line
    obtain ⟨found, after, hlex, hfound, -, hlines'⟩ := hform.reads between
    refine ⟨_, after, ?_, hfound.quoted line, rfl, ?_⟩
    · rw [lex_quote, hbetween, hlex, List.cons_append]
    · rw [hlines', hlines, List.count_cons_of_ne (by decide)]
  | _, _, _, @Form.string _ text _ hquoted, line => by
    obtain ⟨after, hafter, hlines⟩ := lex_quoted_lines hquoted line [] line
    refine ⟨[(line, .string text)], after, hafter, reads_single rfl (fun _ _ => rfl) line, rfl, ?_⟩
    rw [hlines, List.count_cons_of_ne (by decide)]
  | _, _, _, @Form.atom name rest hname hrest, line => by
    refine ⟨_, line, lex_name hname hrest, reads_single (nesting_ofAtom _) (fun _ _ => rfl) line,
      rfl, ?_⟩
    -- a newline would end the atom
    have hnone : name.count '\n' = 0 :=
      List.count_eq_zero.2 fun hmem => absurd (hname.plain _ hmem) (by decide)
    rw [List.count_append, hnone, Nat.zero_add]

theorem Forms.reads : ∀ {cs : List Char} {items : List Sexp} {rest : List Char},
    Forms cs items rest → ∀ line, ∃ found close after, lex .between line cs =
      found ++ (close, .closing) :: lex .between after rest ∧ ReadsAll found items ∧
      after + rest.count '\n' = line + cs.count '\n'
  | _, _, _, .nil rest, line => by
    refine ⟨[], line, line, lex_closing line rest, readsAll_nil, ?_⟩
    rw [List.count_cons_of_ne (by decide)]
  | _, _, _, .cons hform htrivia hforms, line => by
    obtain ⟨front, between, hlex, hfront, -, hlines⟩ := hform.reads line
    obtain ⟨between', hbetween, hlines'⟩ := lex_trivia_lines htrivia between
    obtain ⟨last, close, after, hlex', hlast, hlines''⟩ := hforms.reads between'
    refine ⟨front ++ last, close, after, ?_, hfront.cons hlast, by omega⟩
    rw [hlex, hbetween, hlex', List.append_assoc]

end

/-- A form is read where it starts; its newlines count. -/
lemma Form.acceptAll_lines (h : Form cs v rest) {r : Reader} (hready : r.Ready)
    (hdepth : v.nesting + r.stack.length ≤ maxDepth) (line : Nat) :
    ∃ after, r.acceptAll (lex .between line cs) =
      ((r.begin line).complete v r.stack).acceptAll (lex .between after rest) ∧
      after + rest.count '\n' = line + cs.count '\n' := by
  obtain ⟨found, after, hlex, hfound, hhead, hlines⟩ := h.reads line
  obtain ⟨start, hstart, haccept⟩ := hfound.fits r hready hdepth
  obtain rfl : start = line := Option.some.inj (hstart.symm.trans hhead)
  exact ⟨after, by rw [hlex, acceptAll_append_ok haccept], hlines⟩

lemma Form.acceptAll (h : Form cs v rest) {r : Reader} (hready : r.Ready)
    (hdepth : v.nesting + r.stack.length ≤ maxDepth) (line : Nat) :
    ∃ start after, r.acceptAll (lex .between line cs) =
      ((r.begin start).complete v r.stack).acceptAll (lex .between after rest) := by
  obtain ⟨after, hafter, -⟩ := h.acceptAll_lines hready hdepth line
  exact ⟨line, after, hafter⟩

lemma Form.acceptAll_deep (h : Form cs v rest) {r : Reader} (hready : r.Ready)
    (hopen : r.stack.length ≤ maxDepth) (hdepth : maxDepth < v.nesting + r.stack.length)
    (line : Nat) : ∃ place, r.acceptAll (lex .between line cs) = .error (.tooDeep place) := by
  obtain ⟨found, after, hlex, hfound, -⟩ := h.reads line
  obtain ⟨place, haccept⟩ := hfound.deep r hready hopen hdepth
  exact ⟨place, by rw [hlex, acceptAll_append_error haccept]⟩

lemma Quoted.length_lt (h : Quoted cs text rest) : rest.length < cs.length := by
  induction h with
  | close => exact Nat.lt_succ_self _
  | plain _ _ _ ih => exact Nat.lt_succ_of_lt ih
  | newline _ ih | tab _ ih | escaped _ _ _ ih => exact Nat.lt_succ_of_lt (Nat.lt_succ_of_lt ih)

mutual

theorem Form.length_lt : ∀ {cs : List Char} {v : Sexp} {rest : List Char}, Form cs v rest →
    rest.length < cs.length
  | _, _, _, .list htrivia hforms =>
    Nat.lt_succ_of_lt (Nat.lt_of_lt_of_le hforms.length_lt htrivia.length_le)
  | _, _, _, .quote htrivia hform =>
    Nat.lt_succ_of_lt (Nat.lt_of_lt_of_le hform.length_lt htrivia.length_le)
  | _, _, _, .string hquoted => Nat.lt_succ_of_lt hquoted.length_lt
  | _, _, _, .atom hname _ => by
    have hname := List.length_pos_iff.2 hname.ne_nil
    rw [List.length_append]
    omega

theorem Forms.length_lt : ∀ {cs : List Char} {items : List Sexp} {rest : List Char},
    Forms cs items rest → rest.length < cs.length
  | _, _, _, .nil _ => Nat.lt_succ_self _
  | _, _, _, .cons hform htrivia hforms =>
    Nat.lt_of_lt_of_le hforms.length_lt
      (Nat.le_trans htrivia.length_le (Nat.le_of_lt hform.length_lt))

end

/-! ## Texts without a form -/

/-- No form comes of a text that is read inside the open forms. -/
def Stuck (r : Reader) (cs : List Char) : Prop :=
  ∀ line, ∃ e, (r.acceptAll (lex .between line cs)).bind settle = .error e

lemma stuck_of_error {r : Reader} (h : ∀ line, ∃ e, r.acceptAll (lex .between line cs) = .error e) :
    Stuck r cs := by
  intro line
  obtain ⟨e, he⟩ := h line
  exact ⟨e, by rw [he]; rfl⟩

lemma stuck_trivia {r : Reader} (h : Trivia cs rest) (hstuck : Stuck r rest) : Stuck r cs := by
  intro line
  obtain ⟨after, hafter⟩ := lex_trivia h line
  rw [hafter]
  exact hstuck after

lemma stuck_nil {r : Reader} {form : OpenForm} {outer : List OpenForm}
    (hstack : r.stack = form :: outer) : Stuck r [] := by
  intro line
  refine ⟨.unexpectedEnd, ?_⟩
  change settle r = _
  rw [settle, hstack]
  rfl

/-- Nothing closes here. -/
lemma stuck_closing {r : Reader} (hready : r.Ready)
    (hstack : ∀ items outer, r.stack ≠ .list items :: outer) (rest : List Char) :
    Stuck r (')' :: rest) := by
  refine stuck_of_error fun line => ⟨.unexpected ')' line, ?_⟩
  rw [lex_closing]
  refine acceptAll_cons_error ?_ _
  rw [accept_eq hready, acceptInner, stack_begin]
  split
  · next items outer h => exact absurd h (hstack items outer)
  · rfl

/-- A form that is too deep is no way on, and after another one the text must not be stuck. -/
lemma Form.stuck (h : Form cs v rest) {r : Reader} (hready : r.Ready)
    (hopen : r.stack.length ≤ maxDepth)
    (hrest : ∀ start, v.nesting + r.stack.length ≤ maxDepth →
      Stuck ((r.begin start).complete v r.stack) rest) : Stuck r cs := by
  intro line
  rcases Nat.lt_or_ge maxDepth (v.nesting + r.stack.length) with hdeep | hfits
  · obtain ⟨place, hplace⟩ := h.acceptAll_deep hready hopen hdeep line
    exact ⟨.tooDeep place, by rw [hplace]; rfl⟩
  · obtain ⟨start, after, hafter⟩ := h.acceptAll hready hfits line
    rw [hafter]
    exact hrest start hfits after

lemma stuck_open {r : Reader} {token : Token} {form : OpenForm} {c : Char} (hready : r.Ready)
    (htoken : ∀ (r : Reader) line, r.acceptInner line token = r.open? line form)
    (hlex : ∀ line, lex .between line (c :: rest) = (line, token) :: lex .between line rest)
    (hrest : ∀ line, r.stack.length < maxDepth →
      Stuck ((r.begin line).withStack (form :: r.stack)) rest) : Stuck r (c :: rest) := by
  intro line
  rw [hlex]
  rcases Nat.lt_or_ge r.stack.length maxDepth with hlt | hge
  · rw [acceptAll_cons (accept_open hready htoken line hlt)]
    exact hrest line hlt line
  · have hdeep := accept_open_deep hready htoken line hge
    exact ⟨.tooDeep line, by rw [acceptAll_cons_error hdeep]; rfl⟩

lemma stuck_quote {r : Reader} (h : Trivia cs rest) (hready : r.Ready)
    (hrest : ∀ (r' : Reader) outer, r'.stack = .quote :: outer → r'.stack.length ≤ maxDepth →
      Stuck r' rest) : Stuck r ('\x27' :: cs) :=
  stuck_open hready acceptInner_quote (lex_quote · cs) fun _ hlt =>
    stuck_trivia h (hrest _ r.stack rfl hlt)

lemma stuck_unclosed {r : Reader} (hready : r.Ready)
    (h : ∀ start gathered line, lex (.string start gathered) line cs = [(start, .unclosed)]) :
    Stuck r ('\x22' :: cs) := by
  refine stuck_of_error fun line => ⟨.unterminatedString line, ?_⟩
  have hlex : lex .between line ('\x22' :: cs) = [(line, .unclosed)] := h line [] line
  rw [hlex]
  refine acceptAll_cons_error ?_ _
  rw [accept_eq hready, acceptInner]

mutual

/-- Where a form may start, there is one or the reader is stuck. -/
theorem form_or_stuck : ∀ cs : List Char, Stops cs → cs ≠ [] → (∀ rest, cs ≠ ')' :: rest) →
    (∃ v rest, Form cs v rest) ∨
      ∀ r : Reader, r.Ready → r.stack.length ≤ maxDepth → Stuck r cs
  | [], _, hne, _ => absurd rfl hne
  | c :: cs, hstops, _, hclosing => by
    obtain ⟨hblank, hcomment⟩ := hstops c rfl
    by_cases hopening : c = '('
    · rw [hopening]
      rcases forms_or_stuck cs with ⟨inside, items, rest, htrivia, hforms⟩ | hstuck
      · exact .inl ⟨_, rest, .list htrivia hforms⟩
      · refine .inr fun r hready _ => ?_
        exact stuck_open hready acceptInner_opening (lex_opening · cs) fun line hlt =>
          hstuck _ [] r.stack rfl hlt
    · by_cases hquote : c = '\x27'
      · rw [hquote]
        obtain ⟨next, htrivia, hnext⟩ := exists_trivia cs
        have hlength := htrivia.length_le
        by_cases hend : next = []
        · subst hend
          refine .inr fun r hready _ => stuck_quote htrivia hready fun _ _ hstack _ => ?_
          exact stuck_nil hstack
        · by_cases hclose : ∃ rest, next = ')' :: rest
          · obtain ⟨rest, rfl⟩ := hclose
            refine .inr fun r hready _ => stuck_quote htrivia hready fun r' _ hstack _ => ?_
            exact stuck_closing (ready_of_open hstack) (by simp [hstack]) rest
          · have hinner := form_or_stuck next hnext hend (not_exists.1 hclose)
            rcases hinner with ⟨v, rest, hform⟩ | hstuck
            · exact .inl ⟨_, rest, .quote htrivia hform⟩
            · refine .inr fun r hready _ => stuck_quote htrivia hready fun r' _ hstack hopen => ?_
              exact hstuck r' (ready_of_open hstack) hopen
      · by_cases hstring : c = '\x22'
        · rw [hstring]
          rcases exists_quoted cs with ⟨text, rest, hquoted⟩ | hunclosed
          · exact .inl ⟨_, rest, .string hquoted⟩
          · exact .inr fun r hready _ => stuck_unclosed hready hunclosed
        · have hclose : c ≠ ')' := by
            rintro rfl
            exact hclosing cs rfl
          have hplain : isDelimiter c = false := by
            simp [isDelimiter, hblank, hcomment, hopening, hstring, hclose]
          obtain ⟨name, rest, heq, hname, hrest⟩ := exists_name hplain hquote cs
          rw [heq]
          exact .inl ⟨_, rest, .atom hname hrest⟩
-- a list looks for its first form in the text after trivia, which need not be shorter
termination_by cs => 2 * cs.length

/-- After the start of a list, it goes on to its end or the reader is stuck. -/
theorem forms_or_stuck (cs : List Char) :
    (∃ inside items rest, Trivia cs inside ∧ Forms inside items rest) ∨
      ∀ (r : Reader) (before : List Sexp) (outer : List OpenForm),
        r.stack = .list before :: outer → r.stack.length ≤ maxDepth → Stuck r cs := by
  obtain ⟨next, htrivia, hnext⟩ := exists_trivia cs
  have hlength := htrivia.length_le
  by_cases hend : next = []
  · subst hend
    exact .inr fun r _ _ hstack _ => stuck_trivia htrivia (stuck_nil hstack)
  · by_cases hclose : ∃ rest, next = ')' :: rest
    · obtain ⟨rest, rfl⟩ := hclose
      exact .inl ⟨_, [], rest, htrivia, .nil rest⟩
    · rcases form_or_stuck next hnext hend (not_exists.1 hclose) with ⟨v, rest, hform⟩ | hstuck
      · have hshort := hform.length_lt
        rcases forms_or_stuck rest with ⟨inside, items, rest', htrivia', hforms⟩ | hstuck
        · exact .inl ⟨next, _, rest', htrivia, .cons hform htrivia' hforms⟩
        · refine .inr fun r before outer hstack hopen => stuck_trivia htrivia ?_
          -- the form is read into the list, and what comes after it is stuck there
          refine hform.stuck (ready_of_open hstack) hopen fun start _ => ?_
          rw [begin_of_open start hstack, hstack]
          rw [hstack] at hopen
          exact hstuck _ (v :: before) outer rfl hopen
      · refine .inr fun r _ _ hstack hopen => stuck_trivia htrivia ?_
        exact hstuck r (ready_of_open hstack) hopen
termination_by 2 * cs.length + 1

end

/-! ## Whole texts -/

/-- Where trivia ends a token starts, on the line of its first character. -/
lemma exists_token (hstops : Stops cs) (hne : cs ≠ []) (line : Nat) :
    ∃ token tokens, lex .between line cs = (line, token) :: tokens := by
  obtain ⟨c, cs, rfl⟩ := List.exists_cons_of_ne_nil hne
  obtain ⟨hblank, hcomment⟩ := hstops c rfl
  by_cases hplain : isDelimiter c = false ∧ c ≠ '\x27'
  · obtain ⟨name, rest, heq, hname, hrest⟩ := exists_name hplain.1 hplain.2 cs
    exact ⟨_, _, heq ▸ lex_name hname hrest⟩
  · have hmark : c = '(' ∨ c = ')' ∨ c = '\x27' ∨ c = '\x22' := by
      by_contra hmark
      simp only [not_or] at hmark
      exact hplain ⟨by simp [isDelimiter, hblank, hcomment, hmark], hmark.2.2.1⟩
    rcases hmark with rfl | rfl | rfl | rfl
    · exact ⟨_, _, lex_opening line cs⟩
    · exact ⟨_, _, lex_closing line cs⟩
    · exact ⟨_, _, lex_quote line cs⟩
    · rcases exists_quoted cs with ⟨text, rest, hquoted⟩ | hunclosed
      · obtain ⟨after, hafter⟩ := lex_quoted hquoted line [] line
        exact ⟨_, _, hafter⟩
      · exact ⟨_, _, hunclosed line [] line⟩

variable {source : String}

lemma parse_of_error {e : ReadError}
    (h : (acceptAll { single := true } (lex .between 1 source.toList)).bind settle = .error e) :
    parse source = .error e := by
  rw [parse, run_eq, h]

lemma parse_of_stuck {r : Reader} (hr : r = { single := true }) (h : Stuck r source.toList) :
    ∃ e, parse source = .error e := by
  subst hr
  obtain ⟨e, he⟩ := h 1
  exact ⟨e, parse_of_error he⟩

lemma parse_of_trivia (h : Trivia source.toList []) : parse source = .error .empty := by
  obtain ⟨after, hafter⟩ := lex_trivia h 1
  rw [parse, run_eq, hafter]
  rfl

section form

variable (htrivia : Trivia source.toList cs) (hform : Form cs v rest)

include htrivia hform

lemma parse_of_deep (hdepth : maxDepth < v.nesting) :
    ∃ line, parse source = .error (.tooDeep line) := by
  obtain ⟨start, hstart⟩ := lex_trivia htrivia 1
  obtain ⟨line, hline⟩ := hform.acceptAll_deep (r := { single := true }) (fun _ _ => rfl)
    (Nat.zero_le _) hdepth start
  exact ⟨line, parse_of_error (by rw [hstart, hline]; rfl)⟩

/-- After a form of the text only its rest is left to read. -/
lemma acceptAll_form (hdepth : v.nesting ≤ maxDepth) :
    ∃ start after, acceptAll { single := true } (lex .between 1 source.toList) =
      Reader.acceptAll { single := true, start, forms := [(start, v)] }
        (lex .between after rest) := by
  obtain ⟨before, hbefore⟩ := lex_trivia htrivia 1
  obtain ⟨start, after, hafter⟩ := hform.acceptAll (r := { single := true }) (fun _ _ => rfl)
    hdepth before
  exact ⟨start, after, hbefore ▸ hafter⟩

lemma parse_of_form (hdepth : v.nesting ≤ maxDepth) (hrest : Trivia rest []) :
    parse source = .ok v := by
  obtain ⟨start, between, haccept⟩ := acceptAll_form htrivia hform hdepth
  obtain ⟨after, hafter⟩ := lex_trivia hrest between
  rw [parse, run_eq, haccept, hafter]
  rfl

lemma parse_of_trailing (hdepth : v.nesting ≤ maxDepth) (hrest : ¬ Trivia rest []) :
    ∃ line, parse source = .error (.trailing line) := by
  obtain ⟨start, between, haccept⟩ := acceptAll_form htrivia hform hdepth
  obtain ⟨next, hnext, hstops⟩ := exists_trivia rest
  obtain ⟨after, hafter⟩ := lex_trivia hnext between
  have hne : next ≠ [] := by
    rintro rfl
    exact hrest hnext
  obtain ⟨token, tokens, htoken⟩ := exists_token hstops hne after
  refine ⟨after, parse_of_error ?_⟩
  rw [haccept, hafter, htoken, acceptAll_cons_error (e := .trailing after) rfl]
  rfl

end form

lemma derives_of_parse (hparse : parse source = .ok v) :
    Derives source v ∧ v.nesting ≤ maxDepth := by
  have hfail : ∀ {e}, parse source ≠ .error e := by simp [hparse]
  obtain ⟨next, htrivia, hstops⟩ := exists_trivia source.toList
  have hstuck : ∀ r : Reader, r = { single := true } → ¬ Stuck r next := by
    intro r hr h
    obtain ⟨e, he⟩ := parse_of_stuck hr (stuck_trivia htrivia h)
    exact hfail he
  have hne : next ≠ [] := by
    rintro rfl
    exact hfail (parse_of_trivia htrivia)
  have hclosing : ∀ rest, next ≠ ')' :: rest := by
    rintro rest rfl
    exact hstuck _ rfl (stuck_closing (fun _ _ => rfl) (by simp) rest)
  rcases form_or_stuck next hstops hne hclosing with ⟨w, rest, hform⟩ | hnone
  · rcases Nat.lt_or_ge maxDepth w.nesting with hdeep | hdepth
    · obtain ⟨line, hline⟩ := parse_of_deep htrivia hform hdeep
      exact absurd hline hfail
    · by_cases hrest : Trivia rest []
      · have hw := parse_of_form htrivia hform hdepth hrest
        rw [hparse] at hw
        cases hw
        exact ⟨⟨next, rest, htrivia, hform, hrest⟩, hdepth⟩
      · obtain ⟨line, hline⟩ := parse_of_trailing htrivia hform hdepth hrest
        exact absurd hline hfail
  · exact absurd (hnone _ (fun _ _ => rfl) (Nat.zero_le _)) (hstuck _ rfl)

end Sexp

namespace Token

/-- The tokens that are still to come of the characters gathered so far. -/
def Mode.pending : Mode → Nat
  | .between | .comment => 0
  | .atom _ | .string _ _ | .escape _ _ => 1

lemma scanBetween_length (line : Nat) (c : Char) :
    (scanBetween line c).1.length + (scanBetween line c).2.pending ≤ 1 := by
  unfold scanBetween
  repeat' split
  all_goals simp [Mode.pending]

lemma scan_length (mode : Mode) (line : Nat) (c : Char) :
    (scan mode line c).1.length + (scan mode line c).2.pending ≤ mode.pending + 1 := by
  have hbetween := scanBetween_length line c
  cases mode with
  | between => exact Nat.le_trans hbetween (Nat.le_add_left _ _)
  | comment =>
    simp only [scan]
    split <;> simp [Mode.pending]
  | atom gathered =>
    simp only [scan]
    split
    · change (scanBetween line c).1.length + 1 + (scanBetween line c).2.pending ≤ 1 + 1
      omega
    · simp [Mode.pending]
  | string start gathered =>
    simp only [scan]
    repeat' split
    all_goals simp [Mode.pending]
  | escape start gathered => simp [scan, Mode.pending]

/-- Every token takes a character at least. -/
lemma lex_length_le (mode : Mode) (line : Nat) (cs : List Char) :
    (lex mode line cs).length ≤ cs.length + mode.pending := by
  induction cs generalizing mode line with
  | nil => cases mode <;> simp [lex, scanEnd, Mode.pending]
  | cons c rest ih =>
    have hscan := scan_length mode line c
    have hrest := ih (scan mode line c).2 (lineAfter line c)
    rw [lex, List.length_append, List.length_cons]
    omega

end Token

namespace Sexp

open Token

/-- The reader accepts exactly the texts of one form that is not too deep, with its value. A form
that is too deep, no form at all and a rest after the form each give their own error. A form takes a
character at least, and reading is accepting at most as many tokens as the text has characters. -/
theorem parse_recognizes :
    (∀ source v, parse source = .ok v ↔ Derives source v ∧ v.nesting ≤ maxDepth) ∧
    (∀ source v, Derives source v → maxDepth < v.nesting →
      ∃ line, parse source = .error (.tooDeep line)) ∧
    (∀ source : String, Trivia source.toList [] → parse source = .error .empty) ∧
    (∀ (source : String) cs v rest, Trivia source.toList cs → Form cs v rest →
      v.nesting ≤ maxDepth → ¬ Trivia rest [] → ∃ line, parse source = .error (.trailing line)) ∧
    (∀ cs v rest, Form cs v rest → rest.length < cs.length) ∧
    ∀ source : String,
      Reader.run true source.toList =
        (Reader.acceptAll { single := true } (lex .between 1 source.toList)).bind Reader.settle ∧
      (lex .between 1 source.toList).length ≤ source.toList.length := by
  refine ⟨fun source v => ⟨derives_of_parse, ?_⟩, ?_, fun _ => parse_of_trivia,
    fun _ _ _ _ => parse_of_trailing, fun _ _ _ => Form.length_lt, fun source => ?_⟩
  · rintro ⟨⟨cs, rest, htrivia, hform, hrest⟩, hdepth⟩
    exact parse_of_form htrivia hform hdepth hrest
  · rintro source v ⟨cs, rest, htrivia, hform, -⟩ hdepth
    exact parse_of_deep htrivia hform hdepth
  · exact ⟨Reader.run_eq true _, lex_length_le .between 1 _⟩

/-- Lists in each other around an empty one. -/
def nested : Nat → Sexp
  | 0 => .list []
  | n + 1 => .list [nested n]

lemma nesting_nested (n : Nat) : (nested n).nesting = n + 1 := by
  induction n with
  | zero => rfl
  | succ n ih => simp [nested, nesting, nestingAll, ih]

lemma legible_nested (n : Nat) : (nested n).Legible := by
  induction n with
  | zero => trivial
  | succ n ih => exact ⟨ih, trivial⟩

/-- Opening `n + 1` lists and closing them is a form. -/
lemma form_nested (n : Nat) (rest : List Char) :
    Form ((nested n).chars ++ rest) (nested n) rest := by
  induction n generalizing rest with
  | zero => exact .list (.none _) (.nil rest)
  | succ n ih =>
    have hinside : Forms ((nested n).chars ++ ')' :: rest) [nested n] rest :=
      .cons (ih (')' :: rest)) (.none _) (.nil rest)
    rw [nested, chars, charsAll, List.cons_append, List.append_assoc]
    exact .list (.none _) hinside

lemma derives_nested (n : Nat) : Derives (nested n).print (nested n) := by
  refine ⟨(nested n).chars ++ [], [], ?_, form_nested n [], .none []⟩
  rw [print, String.toList_ofList, List.append_nil]
  exact .none _

theorem parse_recognizes_nested :
    parse (nested 255).print = .ok (nested 255) ∧
    (∃ line, parse (nested 256).print = .error (.tooDeep line)) ∧
    parse " ; nothing" = .error .empty ∧
    (∃ line, parse "'a \"b\"" = .error (.trailing line)) ∧
    [' ', 'b'].length < ['\x27', 'a', ' ', 'b'].length := by
  obtain ⟨hok, hdeep, hempty, htrailing, hshorter, -⟩ := parse_recognizes
  have hname : IsName ['a'] := ⟨by decide, plain_of_all (by decide), by simp⟩
  have hquoted : ∀ c, isDelimiter c = true → ∀ rest,
      Form ('\x27' :: 'a' :: c :: rest) (Sexp.quoted (.symbol "a")) (c :: rest) := by
    intro c hc rest
    have hatom : Form ('a' :: c :: rest) (.symbol "a") (c :: rest) :=
      .atom hname (ends_cons hc rest)
    exact .quote (.none _) hatom
  have hmore : ¬ Trivia " \"b\"".toList [] := by
    intro h
    obtain ⟨after, hafter⟩ := lex_trivia h 1
    have hstring : lex .between 1 " \"b\"".toList ≠ [] := by decide
    exact hstring hafter
  refine ⟨(hok _ _).2 ⟨derives_nested 255, ?_⟩, hdeep _ _ (derives_nested 256) ?_,
    hempty _ (.blank rfl (.lastComment (by decide))),
    htrailing "'a \"b\"" _ _ _ (.none _) (hquoted ' ' rfl _) (by decide) hmore,
    hshorter _ _ _ (hquoted ' ' rfl _)⟩
  · exact Nat.le_of_eq (nesting_nested 255)
  · exact Nat.lt_of_lt_of_eq (Nat.lt_succ_self 256) (nesting_nested 256).symm

end Sexp

end EvalServer
