import EvalServer.Proofs.Sexp.Recognition

/-!
# The lines of forms

What a text contains is a list of forms with trivia around them, each with the text from it on. The
reader of whole texts gives these forms, each with the line on which it starts.
-/

namespace EvalServer

namespace Sexp

open Token Reader

/-- The forms of a text, each with the text from it on. -/
inductive Contents : List Char → List (List Char × Sexp) → Prop
  | nil {cs : List Char} : Trivia cs [] → Contents cs []
  | cons {cs start rest : List Char} {v : Sexp} {items : List (List Char × Sexp)} :
      Trivia cs start → Form start v rest → Contents rest items → Contents cs ((start, v) :: items)

/-- The line on which the last part of a text starts. -/
def lineOf (cs start : List Char) : Nat :=
  1 + (cs.take (cs.length - start.length)).count '\n'

/-- Forms with their lines. -/
def located (cs : List Char) (items : List (List Char × Sexp)) : List (Nat × Sexp) :=
  items.map fun item => (lineOf cs item.1, item.2)

variable {cs start rest text : List Char} {v : Sexp} {items : List (List Char × Sexp)}

lemma lineOf_append (before start : List Char) :
    lineOf (before ++ start) start = 1 + before.count '\n' := by
  simp [lineOf]

/-! ## Parts of a text -/

lemma Trivia.suffix (h : Trivia cs rest) : rest <:+ cs := by
  induction h with
  | none => exact List.suffix_rfl
  | blank _ _ ih => exact ih.trans (List.suffix_cons ..)
  | comment _ _ ih =>
    exact (ih.trans (List.suffix_cons ..)).trans
      ((List.suffix_append ..).trans (List.suffix_cons ..))
  | lastComment => exact List.nil_suffix

lemma Quoted.suffix (h : Quoted cs text rest) : rest <:+ cs := by
  induction h with
  | close => exact List.suffix_cons ..
  | plain _ _ _ ih => exact ih.trans (List.suffix_cons ..)
  | newline _ ih | tab _ ih | escaped _ _ _ ih =>
    exact ih.trans ((List.suffix_cons ..).trans (List.suffix_cons ..))

mutual

theorem Form.suffix : ∀ {cs : List Char} {v : Sexp} {rest : List Char}, Form cs v rest → rest <:+ cs
  | _, _, _, .list htrivia hforms =>
    (hforms.suffix.trans htrivia.suffix).trans (List.suffix_cons ..)
  | _, _, _, .quote htrivia hform => (hform.suffix.trans htrivia.suffix).trans (List.suffix_cons ..)
  | _, _, _, .string hquoted => hquoted.suffix.trans (List.suffix_cons ..)
  | _, _, _, .atom _ _ => List.suffix_append ..

theorem Forms.suffix : ∀ {cs : List Char} {items : List Sexp} {rest : List Char},
    Forms cs items rest → rest <:+ cs
  | _, _, _, .nil _ => List.suffix_cons ..
  | _, _, _, .cons hform htrivia hforms =>
    (hforms.suffix.trans htrivia.suffix).trans hform.suffix

end

lemma Contents.suffix (h : Contents cs items) : ∀ item ∈ items, item.1 <:+ cs := by
  induction h with
  | nil => simp
  | cons htrivia hform _ ih =>
    refine List.forall_mem_cons.2 ⟨htrivia.suffix, fun item hmem => ?_⟩
    exact ((ih item hmem).trans hform.suffix).trans htrivia.suffix

/-! ## Reading all forms -/

/-- Between forms, a reader that takes any number of them gets those that are still to come. -/
lemma contents_of_acceptAll (before : List Char) {r : Reader} {forms : List (Nat × Sexp)}
    (hsingle : r.single = false) (hstack : r.stack = [])
    (h : (r.acceptAll (lex .between (1 + before.count '\n') cs)).bind settle = .ok forms) :
    ∃ items, Contents cs items ∧ forms = r.forms.reverse ++ located (before ++ cs) items := by
  induction hn : cs.length using Nat.strongRecOn generalizing cs r before with
  | ind n ih =>
    have hready : r.Ready := fun _ hone => by
      rw [hsingle] at hone
      cases hone
    obtain ⟨start, htrivia, hstops⟩ := exists_trivia cs
    obtain ⟨line, hline, hlines⟩ := lex_trivia_lines htrivia (1 + before.count '\n')
    rw [hline] at h
    have hstuck : ¬ Stuck r start := by
      intro hstuck
      obtain ⟨e, he⟩ := hstuck line
      rw [he] at h
      cases h
    by_cases hend : start = []
    · subst hend
      replace h : settle r = .ok forms := h
      rw [settle, hstack] at h
      cases h
      exact ⟨[], .nil htrivia, by simp [located]⟩
    · have hclosing : ∀ rest, start ≠ ')' :: rest := by
        rintro rest rfl
        exact hstuck (stuck_closing hready (by simp [hstack]) rest)
      rcases form_or_stuck start hstops hend hclosing with ⟨v, rest, hform⟩ | hnone
      · rcases Nat.lt_or_ge maxDepth (v.nesting + r.stack.length) with hdeep | hdepth
        · obtain ⟨place, hplace⟩ := hform.acceptAll_deep hready (by simp [hstack]) hdeep line
          rw [hplace] at h
          cases h
        · obtain ⟨after, hafter, hlines'⟩ := hform.acceptAll_lines hready hdepth line
          obtain ⟨front, hfront⟩ := htrivia.suffix
          obtain ⟨inside, hinside⟩ := hform.suffix
          subst hfront hinside
          simp only [List.count_append] at hlines hlines'
          have hhere : line = 1 + (before ++ front).count '\n' := by
            rw [List.count_append]
            omega
          have hnext : after = 1 + (before ++ front ++ inside).count '\n' := by
            rw [List.count_append, List.count_append]
            omega
          have hbegin : (r.begin line).complete v r.stack =
              { r with stack := [], start := line, forms := (line, v) :: r.forms } := by
            simp [begin, complete, hstack]
          rw [hafter, hbegin, hnext] at h
          have hlength := hform.length_lt
          simp only [List.length_append] at hn hlength
          obtain ⟨items, hitems, hforms⟩ := ih rest.length (by omega) (before ++ front ++ inside)
            (r := { r with stack := [], start := line, forms := (line, v) :: r.forms })
            hsingle rfl h rfl
          refine ⟨_, .cons htrivia hform hitems, ?_⟩
          have hline : lineOf (before ++ (front ++ (inside ++ rest))) (inside ++ rest) = line := by
            rw [← List.append_assoc, lineOf_append, hhere]
          rw [hforms]
          simp [located, hline]
      · exact absurd (hnone r hready (by simp [hstack])) hstuck

/-- All forms of a text are read, each with its line. -/
theorem contents_of_parseAll {source : String} {forms : List (Nat × Sexp)}
    (h : parseAll source = .ok forms) :
    ∃ items, Contents source.toList items ∧ forms = located source.toList items := by
  rw [parseAll, run_eq] at h
  obtain ⟨items, hitems, hforms⟩ :=
    contents_of_acceptAll [] (r := { single := false }) rfl rfl h
  exact ⟨items, hitems, by simpa using hforms⟩

end Sexp

end EvalServer
