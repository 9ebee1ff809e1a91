import EvalServer.Proofs.Sexp.Faults

/-!
# Texts one after another

Forms and faults of a text stay what they are when lines are put before it, and forms also when
lines are put after it. So a text of several parts is read part by part, with the lines of each part
counted from the start of the whole.
-/

namespace EvalServer

/-- The error of a text that starts some lines further down. -/
def ReadError.down (lines : Nat) : ReadError → ReadError
  | .empty => .empty
  | .unexpectedEnd => .unexpectedEnd
  | .unexpected c line => .unexpected c (line + lines)
  | .unterminatedString line => .unterminatedString (line + lines)
  | .trailing line => .trailing (line + lines)
  | .tooDeep line => .tooDeep (line + lines)

namespace Sexp

open Token Reader

variable {cs rest next start place text more before : List Char} {v : Sexp} {fault : Fault}
  {items others : List (List Char × Sexp)}

/-! ## More lines after a text -/

lemma Trivia.append (h : Trivia cs rest) (hne : rest ≠ []) (more : List Char) :
    Trivia (cs ++ more) (rest ++ more) := by
  induction h with
  | none => exact .none _
  | blank hc _ ih => exact .blank hc (ih hne)
  | comment hbody _ ih =>
    rw [List.cons_append, List.append_assoc, List.cons_append]
    exact .comment hbody (ih hne)
  | lastComment => exact absurd rfl hne

/-- A text of trivia ends with its last line. -/
lemma Trivia.append_line (h : Trivia cs []) (more : List Char) :
    Trivia (cs ++ '\n' :: more) more := by
  have hline : Trivia ('\n' :: more) more := .blank rfl (.none more)
  generalize hend : [] = rest at h
  induction h with
  | none =>
    subst hend
    exact hline
  | blank hc _ ih => exact .blank hc (ih hend)
  | comment hbody _ ih =>
    rw [List.cons_append, List.append_assoc, List.cons_append]
    exact .comment hbody (ih hend)
  | lastComment hbody => exact .comment hbody (.none more)

lemma Trivia.trans (h : Trivia cs next) (hnext : Trivia next rest) : Trivia cs rest := by
  induction h with
  | none => exact hnext
  | blank hc _ ih => exact .blank hc (ih hnext)
  | comment hbody _ ih => exact .comment hbody (ih hnext)
  | lastComment hbody =>
    cases hnext
    exact .lastComment hbody

lemma Quoted.append (h : Quoted cs text rest) (more : List Char) :
    Quoted (cs ++ more) text (rest ++ more) := by
  induction h with
  | close => exact .close _
  | plain hquote hslash _ ih => exact .plain hquote hslash ih
  | newline _ ih => exact .newline ih
  | tab _ ih => exact .tab ih
  | escaped hn ht _ ih => exact .escaped hn ht ih

lemma Form.ne_nil (h : Form cs v rest) : cs ≠ [] :=
  List.ne_nil_of_length_pos (Nat.zero_lt_of_lt h.length_lt)

lemma Forms.ne_nil {values : List Sexp} (h : Forms cs values rest) : cs ≠ [] :=
  List.ne_nil_of_length_pos (Nat.zero_lt_of_lt h.length_lt)

mutual

/-- A form stays what it is if the line ends behind the text. -/
theorem Form.append_line : ∀ {cs : List Char} {v : Sexp} {rest : List Char}, Form cs v rest →
    ∀ more, Form (cs ++ '\n' :: more) v (rest ++ '\n' :: more)
  | _, _, _, .list htrivia hforms, more =>
    .list (htrivia.append hforms.ne_nil _) (hforms.append_line more)
  | _, _, _, .quote htrivia hform, more =>
    .quote (htrivia.append hform.ne_nil _) (hform.append_line more)
  | _, _, _, .string hquoted, more => .string (hquoted.append _)
  | _, _, _, @Form.atom _ rest hname hrest, more => by
    rw [List.append_assoc]
    refine .atom hname ?_
    cases rest with
    | nil => exact ends_cons rfl more
    | cons c rest => exact ends_cons (hrest c rfl) _

theorem Forms.append_line : ∀ {cs : List Char} {values : List Sexp} {rest : List Char},
    Forms cs values rest → ∀ more, Forms (cs ++ '\n' :: more) values (rest ++ '\n' :: more)
  | _, _, _, .nil _, _ => .nil _
  | _, _, _, .cons hform htrivia hforms, more =>
    .cons (hform.append_line more) (htrivia.append hforms.ne_nil _) (hforms.append_line more)

end

/-! ## Two texts -/

lemma Contents.after_trivia (h : Contents next items) (htrivia : Trivia cs next) :
    Contents cs items := by
  cases h with
  | nil hend => exact .nil (htrivia.trans hend)
  | cons hstart hform hrest => exact .cons (htrivia.trans hstart) hform hrest

lemma Broken.after_trivia (h : Broken next fault place) (htrivia : Trivia cs next) :
    Broken cs fault place := by
  cases h with
  | here hstart hne hfails => exact .here (htrivia.trans hstart) hne hfails
  | later hstart hform hdepth hrest => exact .later (htrivia.trans hstart) hform hdepth hrest

/-- The forms of a text that goes on, each with the longer text from it on. -/
def extended (items : List (List Char × Sexp)) (more : List Char) : List (List Char × Sexp) :=
  items.map fun item => (item.1 ++ more, item.2)

lemma Contents.append (h : Contents cs items) (hmore : Contents more others) :
    Contents (cs ++ '\n' :: more) (extended items ('\n' :: more) ++ others) := by
  induction h with
  | nil htrivia => exact hmore.after_trivia (htrivia.append_line more)
  | cons htrivia hform _ ih =>
    exact .cons (htrivia.append hform.ne_nil _) (hform.append_line more) ih

lemma Contents.append_broken (h : Contents cs items)
    (hdepth : ∀ item ∈ items, item.2.nesting ≤ maxDepth) (hmore : Broken more fault place) :
    Broken (cs ++ '\n' :: more) fault place := by
  induction h with
  | nil htrivia => exact hmore.after_trivia (htrivia.append_line more)
  | cons htrivia hform _ ih =>
    obtain ⟨hv, hdepths⟩ := List.forall_mem_cons.1 hdepth
    exact .later (htrivia.append hform.ne_nil _) (hform.append_line more) hv (ih hdepths)

/-! ## Lines of two texts -/

lemma lineOf_extended (h : start <:+ cs) (more : List Char) :
    lineOf (cs ++ more) (start ++ more) = lineOf cs start := by
  obtain ⟨front, rfl⟩ := h
  rw [List.append_assoc, lineOf_append, lineOf_append]

lemma lineOf_down (h : start <:+ more) (cs : List Char) :
    lineOf (cs ++ '\n' :: more) start = lineOf more start + (cs.count '\n' + 1) := by
  obtain ⟨front, rfl⟩ := h
  have hsplit : cs ++ '\n' :: (front ++ start) = (cs ++ '\n' :: front) ++ start := by simp
  rw [hsplit, lineOf_append, lineOf_append, List.count_append, List.count_cons_self]
  omega

lemma located_extended (h : ∀ item ∈ items, item.1 <:+ cs) (more : List Char) :
    located (cs ++ more) (extended items more) = located cs items := by
  rw [located, extended, List.map_map]
  refine List.map_congr_left fun item hitem => ?_
  rw [Function.comp_apply, lineOf_extended (h item hitem)]

lemma located_down (h : ∀ item ∈ items, item.1 <:+ more) (cs : List Char) :
    located (cs ++ '\n' :: more) items =
      (located more items).map fun p => (p.1 + (cs.count '\n' + 1), p.2) := by
  rw [located, located, List.map_map]
  refine List.map_congr_left fun item hitem => ?_
  rw [Function.comp_apply, lineOf_down (h item hitem)]

lemma error_down (fault : Fault) (line lines : Nat) :
    fault.error (line + lines) = (fault.error line).down lines := by
  cases fault <;> rfl

/-- Behind a text that can be read, another is read as it is alone, some lines further down. -/
theorem parseAll_append {source more : String} {forms : List (Nat × Sexp)}
    (h : parseAll source = .ok forms) :
    parseAll (source ++ "\n" ++ more) =
      ((parseAll more).mapError (·.down (source.toList.count '\n' + 1))).map
        fun others => forms ++ others.map fun p => (p.1 + (source.toList.count '\n' + 1), p.2) := by
  obtain ⟨items, hitems, hdepth, rfl⟩ := parseAll_eq_ok_iff.1 h
  have hlist : (source ++ "\n" ++ more).toList = source.toList ++ '\n' :: more.toList := by
    simp [String.toList_append]
  rcases contents_or_broken more.toList with ⟨others, hothers, hdepths⟩ | ⟨fault, place, hbroken⟩
  · have hall := hitems.append hothers
    have hfit : ∀ item ∈ extended items ('\n' :: more.toList) ++ others,
        item.2.nesting ≤ maxDepth := by
      intro item hitem
      rcases List.mem_append.1 hitem with hitem | hitem
      · obtain ⟨item, hmem, rfl⟩ := List.mem_map.1 hitem
        exact hdepth item hmem
      · exact hdepths item hitem
    rw [← hlist] at hall
    rw [parseAll_of_contents hall hfit, parseAll_of_contents hothers hdepths, hlist, located,
      List.map_append, ← located, ← located, located_extended hitems.suffix,
      located_down hothers.suffix]
    rfl
  · have hall := hitems.append_broken hdepth hbroken
    rw [← hlist] at hall
    rw [parseAll_of_broken hall, parseAll_of_broken hbroken, hlist, lineOf_down hbroken.suffix,
      error_down]
    rfl

/-! ## One form -/

lemma parse_of_refused {source : String} {e : ReadError} (h : Refused source.toList e) :
    parse source = .error e := by
  have hready : Reader.Ready { single := true } := fun _ _ => rfl
  cases h with
  | empty htrivia => exact parse_of_trivia htrivia
  | @first start place fault htrivia hne hfails =>
    obtain ⟨between, hbetween, hlines⟩ := lex_trivia_lines htrivia 1
    obtain ⟨found, hfound, hlines'⟩ :=
      hfails.stops { single := true } (expects_top hready rfl hne) rfl between
    have hline := lineOf_eq (hfails.suffix.trans htrivia.suffix) (hlines'.trans hlines)
    exact parse_of_error (by rw [hbetween, hfound, hline])
  | @trailing start rest next v htrivia hform hdepth hbetween hstops hne =>
    obtain ⟨before, hbefore, hlines⟩ := lex_trivia_lines htrivia 1
    obtain ⟨after, hafter, hlines'⟩ :=
      hform.acceptAll_lines (r := { single := true }) hready hdepth before
    obtain ⟨line, hline, hlines''⟩ := lex_trivia_lines hbetween after
    obtain ⟨token, tokens, htoken⟩ := exists_token hstops hne line
    have hplace : next <:+ source.toList :=
      (hbetween.suffix.trans hform.suffix).trans htrivia.suffix
    have hhere := lineOf_eq hplace (by omega : line + next.count '\n' = _)
    refine parse_of_error ?_
    rw [hbefore, hafter, hline, htoken, acceptAll_cons_error (e := .trailing line) rfl, hhere]
    rfl

/-- A text is one form that is not too deep, or there is a reason why it is not. -/
lemma derives_or_refused (source : String) :
    (∃ v, Derives source v ∧ v.nesting ≤ maxDepth) ∨ ∃ e, Refused source.toList e := by
  obtain ⟨start, htrivia, hstops⟩ := exists_trivia source.toList
  by_cases hend : start = []
  · subst hend
    exact .inr ⟨_, .empty htrivia⟩
  · rcases form_or_fails start hstops 0 (Nat.zero_le _) with
      ⟨v, rest, hform, hdepth⟩ | ⟨fault, place, hfails⟩
    · obtain ⟨next, hrest, hnext⟩ := exists_trivia rest
      by_cases hlast : next = []
      · subst hlast
        exact .inl ⟨v, ⟨start, rest, htrivia, hform, hrest⟩, hdepth⟩
      · exact .inr ⟨_, .trailing htrivia hform hdepth hrest hnext hlast⟩
    · exact .inr ⟨_, .first htrivia hend hfails⟩

theorem parse_eq_error_iff {source : String} {e : ReadError} :
    parse source = .error e ↔ Refused source.toList e := by
  refine ⟨fun h => ?_, parse_of_refused⟩
  rcases derives_or_refused source with ⟨v, ⟨start, rest, htrivia, hform, hrest⟩, hdepth⟩ | ⟨e', he⟩
  · rw [parse_of_form htrivia hform hdepth hrest] at h
    cases h
  · rw [parse_of_refused he] at h
    exact Except.error.inj h ▸ he

/-- A text is one form exactly if it has one form in all. -/
lemma parse_eq_ok_iff {source : String} :
    parse source = .ok v ↔ ∃ line, parseAll source = .ok [(line, v)] := by
  constructor
  · intro h
    obtain ⟨⟨start, rest, htrivia, hform, hrest⟩, hdepth⟩ := derives_of_parse h
    exact ⟨_, parseAll_of_contents (.cons htrivia hform (.nil hrest)) (by simpa using hdepth)⟩
  · rintro ⟨line, h⟩
    obtain ⟨items, hitems, hdepth, hforms⟩ := parseAll_eq_ok_iff.1 h
    cases hitems with
    | nil => cases hforms
    | cons htrivia hform hrest =>
      cases hrest with
      | cons => cases hforms
      | nil hend =>
        cases hforms
        exact parse_of_form htrivia hform (hdepth _ List.mem_cons_self) hend

lemma parse_eq_empty_iff {source : String} :
    parse source = .error .empty ↔ parseAll source = .ok [] := by
  constructor
  · intro h
    have hrefused := parse_eq_error_iff.1 h
    generalize hnone : ReadError.empty = e at hrefused
    cases hrefused with
    | empty htrivia => exact parseAll_of_contents (.nil htrivia) (by simp)
    | @first start place fault => cases fault <;> cases hnone
    | trailing => cases hnone
  · intro h
    obtain ⟨items, hitems, -, hforms⟩ := parseAll_eq_ok_iff.1 h
    cases hitems with
    | nil htrivia => exact parse_of_trivia htrivia
    | cons => cases hforms

lemma Contents.lines_sorted (h : Contents cs items) {whole : List Char} :
    ((located whole items).map Prod.fst).Pairwise (· ≤ ·) := by
  induction h with
  | nil => exact .nil
  | cons _ hform hrest ih =>
    refine List.pairwise_cons.2 ⟨fun line hline => ?_, ih⟩
    obtain ⟨p, hp, rfl⟩ := List.mem_map.1 hline
    obtain ⟨item, hitem, rfl⟩ := List.mem_map.1 hp
    exact lineOf_le whole
      (Nat.le_trans (hrest.suffix item hitem).length_le (Nat.le_of_lt hform.length_lt))

/-- Reading all forms of a text gives exactly its forms, each with one more than the newlines before
its first character, or its first fault with one more than the newlines before the place. Reading
one form fails in the same places, or where something follows the form. A text behind another one
is read as it is alone, further down by the lines of the first. One form is read exactly from texts
that have one in all, and none is found exactly in texts that have none. -/
theorem parseAll_lines :
    (∀ source forms, parseAll source = .ok forms ↔ ∃ items, Contents source.toList items ∧
      (∀ item ∈ items, item.2.nesting ≤ maxDepth) ∧ forms = located source.toList items) ∧
    (∀ source forms, parseAll source = .ok forms → (forms.map Prod.fst).Pairwise (· ≤ ·)) ∧
    (∀ source e, parseAll source = .error e ↔ ∃ fault place,
      Broken source.toList fault place ∧ e = fault.error (lineOf source.toList place)) ∧
    (∀ source e, parse source = .error e ↔ Refused source.toList e) ∧
    (∀ source more forms, parseAll source = .ok forms → parseAll (source ++ "\n" ++ more) =
      ((parseAll more).mapError (·.down (source.toList.count '\n' + 1))).map
        fun others => forms ++ others.map fun p => (p.1 + (source.toList.count '\n' + 1), p.2)) ∧
    (∀ source v, parse source = .ok v ↔ ∃ line, parseAll source = .ok [(line, v)]) ∧
    ∀ source, parse source = .error .empty ↔ parseAll source = .ok [] := by
  refine ⟨fun _ _ => parseAll_eq_ok_iff, fun source forms h => ?_, fun _ _ => parseAll_eq_error_iff,
    fun _ _ => parse_eq_error_iff, fun _ _ _ => parseAll_append, fun _ _ => parse_eq_ok_iff,
    fun _ => parse_eq_empty_iff⟩
  obtain ⟨items, hitems, -, rfl⟩ := parseAll_eq_ok_iff.1 h
  exact hitems.lines_sorted

/-- Two forms on three lines, and behind them a string that does not end. -/
theorem parseAll_lines_unclosed :
    parseAll "(a\n;b )\n c) 'd" = .ok [(1, .list [.symbol "a", .symbol "c"]),
      (3, .list [.symbol "quote", .symbol "d"])] ∧
    [1, 3].Pairwise (· ≤ ·) ∧
    parseAll ("(a\n;b )\n c) 'd" ++ "\n" ++ "x\n \"y") = .error (.unterminatedString 5) := by
  obtain ⟨-, hsorted, -, -, happend, -⟩ := parseAll_lines
  have hfront : parseAll "(a\n;b )\n c) 'd" = .ok [(1, .list [.symbol "a", .symbol "c"]),
      (3, .list [.symbol "quote", .symbol "d"])] := by
    decide +kernel
  have hopen : parseAll "x\n \"y" = .error (.unterminatedString 2) := by
    decide +kernel
  have hlines : "(a\n;b )\n c) 'd".toList.count '\n' = 2 := by
    decide +kernel
  refine ⟨hfront, hsorted _ _ hfront, ?_⟩
  rw [happend _ _ _ hfront, hopen, hlines]
  rfl

end Sexp

end EvalServer
