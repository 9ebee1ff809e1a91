import EvalServer.Proofs.Sexp.Lines

/-!
# Where reading fails

A text that cannot be read has a first place where that shows: a parenthesis that closes nothing,
the quote of a string without an end, a list or quote too many, or the end of the text inside a
form. These places are defined along the grammar, and every text either has its forms or such a
place. The reader stops there and names the line of the place.
-/

namespace EvalServer

namespace Sexp

open Token Reader

/-- What is wrong at a place of a text. -/
inductive Fault where
  | unexpectedEnd
  | closing
  | unclosed
  | tooDeep
  deriving DecidableEq

/-- The error that names a line for a fault. -/
def Fault.error (line : Nat) : Fault → ReadError
  | .unexpectedEnd => .unexpectedEnd
  | .closing => .unexpected ')' line
  | .unclosed => .unterminatedString line
  | .tooDeep => .tooDeep line

mutual

/-- No form can be read where one should start, inside `depth` lists and quotes: what is wrong, and
the text from the place on where it is. -/
inductive Fails : (depth : Nat) → List Char → Fault → List Char → Prop
  | nothing (depth : Nat) : Fails depth [] .unexpectedEnd []
  | closing (depth : Nat) (rest : List Char) : Fails depth (')' :: rest) .closing (')' :: rest)
  | unclosed {depth : Nat} {cs : List Char} : (∀ text rest, ¬ Quoted cs text rest) →
      Fails depth ('\x22' :: cs) .unclosed ('\x22' :: cs)
  | deepList {depth : Nat} (cs : List Char) : maxDepth ≤ depth →
      Fails depth ('(' :: cs) .tooDeep ('(' :: cs)
  | deepQuote {depth : Nat} (cs : List Char) : maxDepth ≤ depth →
      Fails depth ('\x27' :: cs) .tooDeep ('\x27' :: cs)
  | list {depth : Nat} {cs inside place : List Char} {fault : Fault} : depth < maxDepth →
      Trivia cs inside → FailsInside (depth + 1) inside fault place →
      Fails depth ('(' :: cs) fault place
  | quote {depth : Nat} {cs next place : List Char} {fault : Fault} : depth < maxDepth →
      Trivia cs next → Fails (depth + 1) next fault place → Fails depth ('\x27' :: cs) fault place

/-- The forms of a list cannot be read up to the parenthesis that closes it. -/
inductive FailsInside : (depth : Nat) → List Char → Fault → List Char → Prop
  | here {depth : Nat} {cs place : List Char} {fault : Fault} : (∀ rest, cs ≠ ')' :: rest) →
      Fails depth cs fault place → FailsInside depth cs fault place
  | later {depth : Nat} {cs between next place : List Char} {v : Sexp} {fault : Fault} :
      Form cs v between → v.nesting + depth ≤ maxDepth → Trivia between next →
      FailsInside depth next fault place → FailsInside depth cs fault place

end

/-- The forms of a text cannot all be read: the first fault after forms that can. -/
inductive Broken : List Char → Fault → List Char → Prop
  | here {cs start place : List Char} {fault : Fault} : Trivia cs start → start ≠ [] →
      Fails 0 start fault place → Broken cs fault place
  | later {cs start rest place : List Char} {v : Sexp} {fault : Fault} : Trivia cs start →
      Form start v rest → v.nesting ≤ maxDepth → Broken rest fault place → Broken cs fault place

/-- A text is not one form: it has none, the first cannot be read, or something follows it. -/
inductive Refused (cs : List Char) : ReadError → Prop
  | empty : Trivia cs [] → Refused cs .empty
  | first {start place : List Char} {fault : Fault} : Trivia cs start → start ≠ [] →
      Fails 0 start fault place → Refused cs (fault.error (lineOf cs place))
  | trailing {start rest next : List Char} {v : Sexp} : Trivia cs start → Form start v rest →
      v.nesting ≤ maxDepth → Trivia rest next → Stops next → next ≠ [] →
      Refused cs (.trailing (lineOf cs next))

variable {cs start rest next place : List Char} {v : Sexp} {fault : Fault} {depth : Nat}
  {items : List (List Char × Sexp)}

/-! ## Places of a text -/

mutual

theorem Fails.suffix : ∀ {depth : Nat} {cs : List Char} {fault : Fault} {place : List Char},
    Fails depth cs fault place → place <:+ cs
  | _, _, _, _, .nothing _ | _, _, _, _, .closing _ _ | _, _, _, _, .unclosed _
  | _, _, _, _, .deepList _ _ | _, _, _, _, .deepQuote _ _ => List.suffix_rfl
  | _, _, _, _, .list _ htrivia hinside =>
    (hinside.suffix.trans htrivia.suffix).trans (List.suffix_cons ..)
  | _, _, _, _, .quote _ htrivia hnext =>
    (hnext.suffix.trans htrivia.suffix).trans (List.suffix_cons ..)

theorem FailsInside.suffix : ∀ {depth : Nat} {cs : List Char} {fault : Fault} {place : List Char},
    FailsInside depth cs fault place → place <:+ cs
  | _, _, _, _, .here _ hfails => hfails.suffix
  | _, _, _, _, .later hform _ htrivia hinside =>
    (hinside.suffix.trans htrivia.suffix).trans hform.suffix

end

lemma Broken.suffix (h : Broken cs fault place) : place <:+ cs := by
  induction h with
  | here htrivia _ hfails => exact hfails.suffix.trans htrivia.suffix
  | later htrivia hform _ _ ih => exact (ih.trans hform.suffix).trans htrivia.suffix

lemma lineOf_eq (h : place <:+ cs) {line : Nat}
    (hline : line + place.count '\n' = 1 + cs.count '\n') : line = lineOf cs place := by
  obtain ⟨before, rfl⟩ := h
  rw [lineOf_append]
  rw [List.count_append] at hline
  omega

lemma lineOf_le (cs : List Char) (h : rest.length ≤ start.length) :
    lineOf cs start ≤ lineOf cs rest := by
  have hstart : cs.take (cs.length - start.length) <+: cs.take (cs.length - rest.length) :=
    List.take_prefix_take_left (by omega)
  exact Nat.add_le_add_left (hstart.sublist.count_le _) 1

/-! ## Every text has its forms or a fault -/

mutual

/-- Where a form may start there is one that is not too deep, or a fault. -/
theorem form_or_fails (cs : List Char) (hstops : Stops cs) (depth : Nat)
    (hdepth : depth ≤ maxDepth) : (∃ v rest, Form cs v rest ∧ v.nesting + depth ≤ maxDepth) ∨
      ∃ fault place, Fails depth cs fault place := by
  match cs with
  | [] => exact .inr ⟨_, _, .nothing depth⟩
  | c :: cs =>
    obtain ⟨hblank, hcomment⟩ := hstops c rfl
    by_cases hopening : c = '('
    · subst hopening
      rcases Nat.lt_or_ge depth maxDepth with hlt | hge
      · rcases forms_or_fails cs (depth + 1) hlt with
          ⟨inside, items, rest, htrivia, hforms, hnesting⟩ | ⟨inside, fault, place, htrivia, hfails⟩
        · refine .inl ⟨_, rest, .list htrivia hforms, ?_⟩
          rw [nesting]
          omega
        · exact .inr ⟨fault, place, .list hlt htrivia hfails⟩
      · exact .inr ⟨_, _, .deepList cs hge⟩
    · by_cases hquote : c = '\x27'
      · subst hquote
        rcases Nat.lt_or_ge depth maxDepth with hlt | hge
        · obtain ⟨next, htrivia, hnext⟩ := exists_trivia cs
          have hlength := htrivia.length_le
          rcases form_or_fails next hnext (depth + 1) hlt with
            ⟨v, rest, hform, hnesting⟩ | ⟨fault, place, hfails⟩
          · refine .inl ⟨_, rest, .quote htrivia hform, ?_⟩
            rw [nesting_quoted]
            omega
          · exact .inr ⟨fault, place, .quote hlt htrivia hfails⟩
        · exact .inr ⟨_, _, .deepQuote cs hge⟩
      · by_cases hstring : c = '\x22'
        · subst hstring
          by_cases hquoted : ∃ text rest, Quoted cs text rest
          · obtain ⟨text, rest, hquoted⟩ := hquoted
            exact .inl ⟨_, rest, .string hquoted, by rwa [nesting, Nat.zero_add]⟩
          · exact .inr ⟨_, _, .unclosed fun text rest h => hquoted ⟨text, rest, h⟩⟩
        · by_cases hclose : c = ')'
          · subst hclose
            exact .inr ⟨_, _, .closing depth cs⟩
          · have hplain : isDelimiter c = false := by
              simp [isDelimiter, hblank, hcomment, hopening, hstring, hclose]
            obtain ⟨name, rest, heq, hname, hrest⟩ := exists_name hplain hquote cs
            rw [heq]
            exact .inl ⟨_, rest, .atom hname hrest, by rwa [nesting_ofAtom, Nat.zero_add]⟩
-- a list looks for its first form in the text after trivia, which need not be shorter
termination_by 2 * cs.length

/-- A list that has been opened has its forms and its end, or a fault. -/
theorem forms_or_fails (cs : List Char) (depth : Nat) (hdepth : depth ≤ maxDepth) :
    (∃ inside items rest, Trivia cs inside ∧ Forms inside items rest ∧
      nestingAll items + depth ≤ maxDepth) ∨
      ∃ inside fault place, Trivia cs inside ∧ FailsInside depth inside fault place := by
  obtain ⟨inside, htrivia, hstops⟩ := exists_trivia cs
  have hlength := htrivia.length_le
  by_cases hclose : ∃ rest, inside = ')' :: rest
  · obtain ⟨rest, rfl⟩ := hclose
    refine .inl ⟨_, [], rest, htrivia, .nil rest, ?_⟩
    rwa [nestingAll, Nat.zero_add]
  · rcases form_or_fails inside hstops depth hdepth with
      ⟨v, between, hform, hnesting⟩ | ⟨fault, place, hfails⟩
    · have hshort := hform.length_lt
      rcases forms_or_fails between depth hdepth with
        ⟨next, items, rest, hbetween, hforms, hall⟩ | ⟨next, fault, place, hbetween, hfails⟩
      · refine .inl ⟨inside, v :: items, rest, htrivia, .cons hform hbetween hforms, ?_⟩
        rw [nestingAll]
        omega
      · exact .inr ⟨inside, fault, place, htrivia, .later hform hnesting hbetween hfails⟩
    · exact .inr ⟨inside, fault, place, htrivia, .here (not_exists.1 hclose) hfails⟩
termination_by 2 * cs.length + 1

end

/-- The forms of a text are all there and not too deep, or it is broken. -/
theorem contents_or_broken (cs : List Char) :
    (∃ items, Contents cs items ∧ ∀ item ∈ items, item.2.nesting ≤ maxDepth) ∨
      ∃ fault place, Broken cs fault place := by
  induction hn : cs.length using Nat.strongRecOn generalizing cs with
  | ind n ih =>
    obtain ⟨start, htrivia, hstops⟩ := exists_trivia cs
    have hlength := htrivia.length_le
    by_cases hend : start = []
    · subst hend
      exact .inl ⟨[], .nil htrivia, by simp⟩
    · rcases form_or_fails start hstops 0 (Nat.zero_le _) with
        ⟨v, rest, hform, hdepth⟩ | ⟨fault, place, hfails⟩
      · have hshort := hform.length_lt
        rcases ih rest.length (by omega) rest rfl with
          ⟨items, hitems, hdepths⟩ | ⟨fault, place, hbroken⟩
        · exact .inl ⟨_, .cons htrivia hform hitems, List.forall_mem_cons.2 ⟨hdepth, hdepths⟩⟩
        · exact .inr ⟨fault, place, .later htrivia hform hdepth hbroken⟩
      · exact .inr ⟨fault, place, .here htrivia hend hfails⟩

/-! ## The reader stops at faults -/

/-- The reader takes a form: the text does not end outside all forms, and closes no list. -/
structure Expects (r : Reader) (cs : List Char) : Prop where
  ready : r.Ready
  inside : cs = [] → r.stack ≠ []
  unclosing : ∀ rest, cs = ')' :: rest → ∀ items outer, r.stack ≠ .list items :: outer

lemma expects_quote {r : Reader} {outer : List OpenForm} (hstack : r.stack = .quote :: outer)
    (cs : List Char) : Expects r cs where
  ready := ready_of_open hstack
  inside _ := by simp [hstack]
  unclosing _ _ := by simp [hstack]

lemma expects_top {r : Reader} (hready : r.Ready) (hstack : r.stack = []) (hne : cs ≠ []) :
    Expects r cs where
  ready := hready
  inside hnil := absurd hnil hne
  unclosing _ _ := by simp [hstack]

lemma bind_settle_error {r : Reader} {found : List Token.Located} {e : ReadError}
    (h : r.acceptAll found = .error e) : (r.acceptAll found).bind settle = .error e := by
  rw [h]
  rfl

lemma lex_unclosed (h : ∀ text rest, ¬ Quoted cs text rest) (line : Nat) :
    lex .between line ('\x22' :: cs) = [(line, .unclosed)] := by
  rcases exists_quoted cs with ⟨text, rest, hquoted⟩ | hnone
  · exact absurd hquoted (h text rest)
  · exact hnone line [] line

mutual

/-- Where a form fails the reader stops, with the line of the place. -/
theorem Fails.stops : ∀ {depth : Nat} {cs : List Char} {fault : Fault} {place : List Char},
    Fails depth cs fault place → ∀ r : Reader, Expects r cs → r.stack.length = depth →
    ∀ line, ∃ found, (r.acceptAll (lex .between line cs)).bind settle = .error (fault.error found) ∧
      found + place.count '\n' = line + cs.count '\n'
  | _, _, _, _, .nothing _, r, hexpects, _, line => by
    obtain ⟨form, outer, hstack⟩ := List.exists_cons_of_ne_nil (hexpects.inside rfl)
    refine ⟨line, ?_, rfl⟩
    change settle r = _
    rw [settle, hstack]
    rfl
  | _, _, _, _, .closing _ rest, r, hexpects, _, line => by
    refine ⟨line, bind_settle_error ?_, rfl⟩
    rw [lex_closing]
    refine acceptAll_cons_error ?_ _
    rw [accept_eq hexpects.ready, acceptInner, stack_begin]
    split
    · next items outer h => exact absurd h (hexpects.unclosing rest rfl items outer)
    · rfl
  | _, _, _, _, .unclosed hnone, r, hexpects, _, line => by
    refine ⟨line, bind_settle_error ?_, rfl⟩
    rw [lex_unclosed hnone]
    refine acceptAll_cons_error ?_ _
    rw [accept_eq hexpects.ready, acceptInner]
    rfl
  | _, _, _, _, .deepList cs hdepth, r, hexpects, hlength, line => by
    refine ⟨line, bind_settle_error ?_, rfl⟩
    rw [lex_opening]
    exact acceptAll_cons_error
      (accept_open_deep hexpects.ready acceptInner_opening line (hlength ▸ hdepth)) _
  | _, _, _, _, .deepQuote cs hdepth, r, hexpects, hlength, line => by
    refine ⟨line, bind_settle_error ?_, rfl⟩
    rw [lex_quote]
    exact acceptAll_cons_error
      (accept_open_deep hexpects.ready acceptInner_quote line (hlength ▸ hdepth)) _
  | _, _, _, _, .list hdepth htrivia hfails, r, hexpects, hlength, line => by
    obtain ⟨after, hafter, hlines⟩ := lex_trivia_lines htrivia line
    have hopen := accept_open hexpects.ready acceptInner_opening line (hlength ▸ hdepth)
    obtain ⟨found, hfound, hlines'⟩ := hfails.stops
      ((r.begin line).withStack (.list [] :: r.stack)) [] r.stack rfl (by simp [hlength]) after
    refine ⟨found, ?_, ?_⟩
    · rw [lex_opening, acceptAll_cons hopen, hafter, hfound]
    · rw [hlines', hlines, List.count_cons_of_ne (by decide)]
  | _, _, _, _, .quote hdepth htrivia hfails, r, hexpects, hlength, line => by
    obtain ⟨after, hafter, hlines⟩ := lex_trivia_lines htrivia line
    have hopen := accept_open hexpects.ready acceptInner_quote line (hlength ▸ hdepth)
    obtain ⟨found, hfound, hlines'⟩ := hfails.stops
      ((r.begin line).withStack (.quote :: r.stack)) (expects_quote rfl _)
      (by simp [withStack, hlength]) after
    refine ⟨found, ?_, ?_⟩
    · rw [lex_quote, acceptAll_cons hopen, hafter, hfound]
    · rw [hlines', hlines, List.count_cons_of_ne (by decide)]

theorem FailsInside.stops : ∀ {depth : Nat} {cs : List Char} {fault : Fault} {place : List Char},
    FailsInside depth cs fault place → ∀ (r : Reader) (before : List Sexp) (outer : List OpenForm),
    r.stack = .list before :: outer → outer.length + 1 = depth →
    ∀ line, ∃ found, (r.acceptAll (lex .between line cs)).bind settle = .error (fault.error found) ∧
      found + place.count '\n' = line + cs.count '\n'
  | _, cs, _, _, .here hclosing hfails, r, before, outer, hstack, hlength, line => by
    have hexpects : Expects r cs := {
      ready := ready_of_open hstack
      inside := fun _ => by simp [hstack]
      unclosing := fun rest hrest => absurd hrest (hclosing rest) }
    exact hfails.stops r hexpects (by rw [hstack, List.length_cons, hlength]) line
  | _, _, _, _, .later (v := v) hform hdepth htrivia hfails, r, before, outer, hstack, hlength,
      line => by
    have hready : r.Ready := ready_of_open hstack
    have hfits : v.nesting + r.stack.length ≤ maxDepth := by
      rw [hstack, List.length_cons, hlength]
      exact hdepth
    obtain ⟨between, hbetween, hlines⟩ := hform.acceptAll_lines hready hfits line
    obtain ⟨after, hafter, hlines'⟩ := lex_trivia_lines htrivia between
    rw [begin_of_open line hstack, hstack] at hbetween
    obtain ⟨found, hfound, hlines''⟩ := hfails.stops (r.complete v (.list before :: outer))
      (v :: before) outer rfl hlength after
    refine ⟨found, ?_, by omega⟩
    rw [hbetween, hafter]
    exact hfound

end

/-! ## Reading all forms -/

/-- After the forms that have been read the reader gets those of the text, with their lines. -/
lemma Contents.acceptAll (h : Contents cs items) (hdepth : ∀ item ∈ items, item.2.nesting ≤ maxDepth)
    (before : List Char) {r : Reader} (hsingle : r.single = false) (hstack : r.stack = []) :
    (r.acceptAll (lex .between (1 + before.count '\n') cs)).bind settle =
      .ok (r.forms.reverse ++ located (before ++ cs) items) := by
  induction h generalizing before r with
  | nil htrivia =>
    obtain ⟨line, hline, -⟩ := lex_trivia_lines htrivia (1 + before.count '\n')
    rw [hline]
    change settle r = _
    rw [settle, hstack]
    simp [located]
  | @cons cs start rest v items htrivia hform _ ih =>
    obtain ⟨hv, hdepths⟩ := List.forall_mem_cons.1 hdepth
    have hready : r.Ready := fun _ hone => by simp [hsingle] at hone
    obtain ⟨line, hline, hlines⟩ := lex_trivia_lines htrivia (1 + before.count '\n')
    have hfits : v.nesting + r.stack.length ≤ maxDepth := by simpa [hstack] using hv
    obtain ⟨after, hafter, hlines'⟩ := hform.acceptAll_lines hready hfits line
    obtain ⟨front, rfl⟩ := htrivia.suffix
    obtain ⟨inside, rfl⟩ := hform.suffix
    simp only [List.count_append] at hlines hlines'
    have hhere : line = 1 + (before ++ front).count '\n' := by
      rw [List.count_append]
      omega
    have hnext : after = 1 + (before ++ front ++ inside).count '\n' := by
      rw [List.count_append, List.count_append]
      omega
    have hbegin : (r.begin line).complete v r.stack =
        { r with stack := [], start := line, forms := (line, v) :: r.forms } := by
      simp [begin, complete, hstack]
    have hplace : lineOf (before ++ (front ++ (inside ++ rest))) (inside ++ rest) = line := by
      rw [← List.append_assoc, lineOf_append, hhere]
    have hrest := ih hdepths (before ++ front ++ inside)
      (r := { r with stack := [], start := line, forms := (line, v) :: r.forms }) hsingle rfl
    rw [hline, hafter, hbegin, hnext, hrest]
    simp [located, hplace]

/-- The reader of all forms stops where the text is broken. -/
lemma Broken.acceptAll (h : Broken cs fault place) {r : Reader} (hsingle : r.single = false)
    (hstack : r.stack = []) (line : Nat) : ∃ found,
    (r.acceptAll (lex .between line cs)).bind settle = .error (fault.error found) ∧
      found + place.count '\n' = line + cs.count '\n' := by
  induction h generalizing r line with
  | here htrivia hne hfails =>
    have hready : r.Ready := fun _ hone => by simp [hsingle] at hone
    obtain ⟨after, hafter, hlines⟩ := lex_trivia_lines htrivia line
    obtain ⟨found, hfound, hlines'⟩ :=
      hfails.stops r (expects_top hready hstack hne) (by rw [hstack]; rfl) after
    exact ⟨found, by rw [hafter, hfound], by omega⟩
  | @later cs start rest place v fault htrivia hform hdepth _ ih =>
    have hready : r.Ready := fun _ hone => by simp [hsingle] at hone
    obtain ⟨between, hbetween, hlines⟩ := lex_trivia_lines htrivia line
    have hfits : v.nesting + r.stack.length ≤ maxDepth := by simpa [hstack] using hdepth
    obtain ⟨after, hafter, hlines'⟩ := hform.acceptAll_lines hready hfits between
    have hbegin : (r.begin between).complete v r.stack =
        { r with stack := [], start := between, forms := (between, v) :: r.forms } := by
      simp [begin, complete, hstack]
    obtain ⟨found, hfound, hlines''⟩ := ih
      (r := { r with stack := [], start := between, forms := (between, v) :: r.forms })
      hsingle rfl after
    refine ⟨found, ?_, by omega⟩
    rw [hbetween, hafter, hbegin, hfound]

lemma parseAll_of_contents {source : String} (h : Contents source.toList items)
    (hdepth : ∀ item ∈ items, item.2.nesting ≤ maxDepth) :
    parseAll source = .ok (located source.toList items) := by
  rw [parseAll, run_eq]
  exact h.acceptAll hdepth [] (r := { single := false }) rfl rfl

lemma parseAll_of_broken {source : String} (h : Broken source.toList fault place) :
    parseAll source = .error (fault.error (lineOf source.toList place)) := by
  obtain ⟨found, hfound, hlines⟩ := h.acceptAll (r := { single := false }) rfl rfl 1
  rw [parseAll, run_eq, hfound, lineOf_eq h.suffix hlines]

theorem parseAll_eq_ok_iff {source : String} {forms : List (Nat × Sexp)} :
    parseAll source = .ok forms ↔ ∃ items, Contents source.toList items ∧
      (∀ item ∈ items, item.2.nesting ≤ maxDepth) ∧ forms = located source.toList items := by
  constructor
  · intro h
    rcases contents_or_broken source.toList with ⟨items, hitems, hdepth⟩ | ⟨fault, place, hbroken⟩
    · rw [parseAll_of_contents hitems hdepth] at h
      exact ⟨items, hitems, hdepth, (Except.ok.inj h).symm⟩
    · rw [parseAll_of_broken hbroken] at h
      cases h
  · rintro ⟨items, hitems, hdepth, rfl⟩
    exact parseAll_of_contents hitems hdepth

theorem parseAll_eq_error_iff {source : String} {e : ReadError} :
    parseAll source = .error e ↔ ∃ fault place, Broken source.toList fault place ∧
      e = fault.error (lineOf source.toList place) := by
  constructor
  · intro h
    rcases contents_or_broken source.toList with ⟨items, hitems, hdepth⟩ | ⟨fault, place, hbroken⟩
    · rw [parseAll_of_contents hitems hdepth] at h
      cases h
    · rw [parseAll_of_broken hbroken] at h
      exact ⟨fault, place, hbroken, (Except.error.inj h).symm⟩
  · rintro ⟨fault, place, hbroken, rfl⟩
    exact parseAll_of_broken hbroken

end Sexp

end EvalServer
