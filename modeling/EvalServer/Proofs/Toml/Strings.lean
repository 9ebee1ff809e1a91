import EvalServer.Toml.Literal
import Mathlib.Tactic.Lemma

/-!
# Strings survive writing

Whatever a string holds, and whichever form it is written in, it is read back, and the reader stops
right behind it.
-/

namespace EvalServer.Toml.Literal

/-! ## Escapes -/

lemma codePoint?_upperHex : ∀ n, n < 128 → codePoint? (upperHex n) = some (Char.ofNat n) := by
  decide

lemma lt_of_needsEscape {c : Char} (h : needsEscape c = true) : c.toNat < 128 := by
  simp only [needsEscape, isPlain, Bool.and_eq_true, Bool.not_eq_true', Bool.or_eq_false_iff,
    Bool.and_eq_false_iff, decide_eq_false_iff_not] at h
  omega

/-- A reader between double quotes: it takes escapes for what they stand for, and plain characters
for themselves. -/
structure Unescapes (read : List Char → Option (List Char × List Char)) : Prop where
  short : ∀ letter c rest, escape? letter = some c →
    read ('\\' :: letter :: rest) = prepend c (read rest)
  long : ∀ digits c rest, digits.length = 4 → codePoint? digits = some c →
    read ('\\' :: 'u' :: digits ++ rest) = prepend c (read rest)
  plain : ∀ c rest, isPlain c = true → c ≠ '\x22' → c ≠ '\\' →
    read (c :: rest) = prepend c (read rest)

lemma Unescapes.escaped {read : List Char → Option (List Char × List Char)} (h : Unescapes read)
    (c : Char) (rest : List Char) : read (escaped c ++ rest) = prepend c (read rest) := by
  unfold Literal.escaped
  split
  case h_1 | h_2 | h_3 | h_4 | h_5 | h_6 | h_7 => exact h.short _ _ _ rfl
  case h_8 hnewline _ _ hquote hbackslash =>
    split
    · next hescape =>
      refine h.long _ _ _ ?_ ?_
      · rfl
      · rw [codePoint?_upperHex _ (lt_of_needsEscape hescape), Char.ofNat_toNat]
    · next hescape =>
      have hne : c ≠ '\n' := hnewline
      have hplain : isPlain c = true := by
        simpa [needsEscape, hne] using hescape
      exact h.plain c rest hplain hquote hbackslash

lemma eq_of_length {digits : List Char} (h : digits.length = 4) :
    ∃ a b c d, digits = [a, b, c, d] := by
  match digits, h with
  | [a, b, c, d], _ => exact ⟨a, b, c, d, rfl⟩

lemma unescapes_readBasic : Unescapes readBasic where
  short letter c rest h := by
    unfold escape? at h
    split at h
    case h_8 => cases h
    all_goals
      cases h
      rfl
  long digits c rest hlength h := by
    obtain ⟨a₁, a₂, a₃, a₄, rfl⟩ := eq_of_length hlength
    change (codePoint? [a₁, a₂, a₃, a₄]).bind _ = _
    rw [h]
    rfl
  plain c rest hplain hquote hbackslash := by
    rw [readBasic]
    · rw [hplain, Bool.true_and, if_pos (decide_eq_true hbackslash)]
    all_goals simp_all

lemma ne_of_isPlain {c : Char} (hplain : isPlain c = true) : c ≠ '\r' ∧ c ≠ '\n' := by
  constructor
  all_goals
    rintro rfl
    exact absurd hplain (by decide)

lemma unescapes_readLines : Unescapes (readLines .text) where
  short letter c rest h := by
    unfold escape? at h
    split at h
    case h_8 => cases h
    all_goals
      cases h
      rfl
  long digits c rest hlength h := by
    obtain ⟨a₁, a₂, a₃, a₄, rfl⟩ := eq_of_length hlength
    change (codePoint? [a₁, a₂, a₃, a₄]).bind _ = _
    rw [h]
    rfl
  plain c rest hplain hquote hbackslash := by
    obtain ⟨hreturn, hnewline⟩ := ne_of_isPlain hplain
    rw [readLines]
    · rw [hplain, Bool.true_and, if_pos (decide_eq_true hbackslash)]
    all_goals simp_all

/-! ## Strings on one line -/

lemma body_cons (quotes : Nat) (c : Char) (text : List Char) :
    body false quotes (c :: text) = escaped c ++ body false 0 text := by
  simp [body]

lemma readBasic_body (text rest : List Char) :
    readBasic (body false 0 text ++ '\x22' :: rest) = some (text, rest) := by
  induction text with
  | nil => rfl
  | cons c text ih =>
    rw [body_cons, List.append_assoc, unescapes_readBasic.escaped, ih]
    rfl

lemma readPlain_append {text : List Char} (hplain : ∀ c ∈ text, isPlain c = true)
    (hquote : '\x27' ∉ text) (rest : List Char) :
    readPlain (text ++ '\x27' :: rest) = some (text, rest) := by
  induction text with
  | nil => rfl
  | cons c text ih =>
    rw [List.forall_mem_cons] at hplain
    rw [List.mem_cons, not_or] at hquote
    rw [List.cons_append, readPlain, if_pos hplain.1, ih hplain.2 hquote.2]
    · rfl
    · exact fun h => hquote.1 h.symm

/-! ## Strings on several lines -/

/-- A reader between triple quotes. -/
structure Spans (quote : Char) (read : List Char → Option (List Char × List Char)) : Prop where
  closes : ∀ rest, read (quote :: quote :: quote :: rest) = some (closing quote rest)
  opens : ∀ rest, ¬ [quote, quote] <+: rest → read (quote :: rest) = prepend quote (read rest)
  newline : ∀ rest, read ('\n' :: rest) = prepend '\n' (read rest)

section Spans

variable {quote c : Char} {read : List Char → Option (List Char × List Char)} {q : Nat}
  {rest : List Char}

/-- Up to two quotes before another character stand for themselves. -/
lemma Spans.quotes (h : Spans quote read) (hq : q ≤ 2) (hc : c ≠ quote) (rest : List Char) :
    read (List.replicate q quote ++ c :: rest) =
      (read (c :: rest)).map fun r => (List.replicate q quote ++ r.1, r.2) := by
  match q, hq with
  | 0, _ => simp
  | 1, _ =>
    change read (quote :: c :: rest) = _
    rw [h.opens _ (by simp [List.cons_prefix_cons, Ne.symm hc])]
    rfl
  | 2, _ =>
    change read (quote :: quote :: c :: rest) = _
    rw [h.opens _ (by simp [List.cons_prefix_cons, Ne.symm hc]),
      h.opens _ (by simp [List.cons_prefix_cons, Ne.symm hc])]
    cases read (c :: rest) <;> rfl

lemma closing_replicate (hq : q ≤ 2) (hrest : rest.head? ≠ some quote) :
    closing quote (List.replicate q quote ++ rest) = (List.replicate q quote, rest) := by
  cases rest with
  | nil => match q, hq with
    | 0, _ => rfl
    | 1, _ | 2, _ => simp [closing]
  | cons c rest =>
    have hc : c ≠ quote := by simpa using hrest
    match q, hq with
    | 0, _ => cases rest <;> simp [closing, hc]
    | 1, _ | 2, _ => simp [closing, hc]

/-- Up to two quotes before the closing ones stand for themselves. -/
lemma Spans.closed (h : Spans quote read) (hq : q ≤ 2) (hrest : rest.head? ≠ some quote) :
    read (List.replicate q quote ++ ([quote, quote, quote] ++ rest)) =
      some (List.replicate q quote, rest) := by
  have hmove : List.replicate q quote ++ ([quote, quote, quote] ++ rest) =
      quote :: quote :: quote :: (List.replicate q quote ++ rest) := by
    rw [← List.append_assoc, show [quote, quote, quote] = List.replicate 3 quote from rfl,
      List.replicate_append_replicate, Nat.add_comm, ← List.replicate_append_replicate,
      List.append_assoc]
    rfl
  rw [hmove, h.closes, closing_replicate hq hrest]

end Spans

lemma spans_readLines : Spans '\x22' (readLines .text) where
  closes rest := rfl
  opens rest hrest := by
    rw [readLines]
    · rfl
    all_goals simp_all
    rintro rest rfl
    exact hrest ⟨rest, rfl⟩
  newline rest := rfl

lemma spans_readPlainLines : Spans '\x27' readPlainLines where
  closes rest := rfl
  opens rest hrest := by
    rw [readPlainLines]
    · rfl
    all_goals simp_all
    rintro rest rfl
    exact hrest ⟨rest, rfl⟩
  newline rest := rfl

lemma exists_escaped (c : Char) :
    ∃ d rest, escaped c = d :: rest ∧ d ≠ '\x22' ∧ d ≠ '\n' ∧ d ≠ '\r' := by
  unfold escaped
  split
  case h_1 | h_2 | h_3 | h_4 | h_5 | h_6 | h_7 =>
    exact ⟨_, _, rfl, by decide, by decide, by decide⟩
  case h_8 hnewline _ hreturn hquote _ =>
    split
    · exact ⟨_, _, rfl, by decide, by decide, by decide⟩
    · exact ⟨_, _, rfl, hquote, hnewline, hreturn⟩

/-- What stands for the first character of a string over several lines, and for the others. -/
lemma body_cases (q : Nat) (c : Char) (text : List Char) :
    (c = '\x22' ∧ q < 2 ∧ body true q (c :: text) = c :: body true (q + 1) text) ∨
    (c = '\n' ∧ body true q (c :: text) = c :: body true 0 text) ∨
    body true q (c :: text) = escaped c ++ body true 0 text := by
  rw [body, Bool.true_and, Bool.and_true]
  split
  · next hquote =>
    split
    · next hq => exact .inl ⟨hquote, of_decide_eq_true hq, rfl⟩
    · exact .inr (.inr rfl)
  · split
    · next hnewline => exact .inr (.inl ⟨of_decide_eq_true hnewline, rfl⟩)
    · exact .inr (.inr rfl)

-- The run of quotes that the writer counts is still before the reader, which may not stop inside
-- it: so the induction is over the rest of the text, for every run that may stand before it.
lemma readLines_body {q : Nat} (hq : q ≤ 2) (text : List Char) {rest : List Char}
    (hrest : rest.head? ≠ some '\x22') :
    readLines .text (List.replicate q '\x22' ++
        (body true q text ++ (['\x22', '\x22', '\x22'] ++ rest))) =
      some (List.replicate q '\x22' ++ text, rest) := by
  induction text generalizing q with
  | nil =>
    rw [List.append_nil]
    exact spans_readLines.closed hq hrest
  | cons c text ih =>
    have hafter : readLines .text (body true 0 text ++ (['\x22', '\x22', '\x22'] ++ rest)) =
        some (text, rest) := ih (Nat.zero_le 2)
    rcases body_cases q c text with ⟨rfl, hq, hbody⟩ | ⟨rfl, hbody⟩ | hbody
    · rw [hbody]
      simpa [List.replicate_succ'] using ih (q := q + 1) hq
    · rw [hbody, List.cons_append, spans_readLines.quotes hq (by decide), spans_readLines.newline,
        hafter]
      rfl
    · obtain ⟨d, more, hescaped, hd, -⟩ := exists_escaped c
      rw [hbody, List.append_assoc, hescaped, List.cons_append, spans_readLines.quotes hq hd,
        ← List.cons_append, ← hescaped, unescapes_readLines.escaped, hafter]
      rfl

lemma readPlainLines_plain {c : Char} (hplain : isPlain c = true) (hc : c ≠ '\x27')
    (rest : List Char) : readPlainLines (c :: rest) = prepend c (readPlainLines rest) := by
  obtain ⟨hreturn, hnewline⟩ := ne_of_isPlain hplain
  rw [readPlainLines]
  · rw [if_pos hplain]
  all_goals simp_all

lemma readPlainLines_append {q : Nat} {text rest : List Char}
    (hplain : ∀ c ∈ text, isPlain c = true ∨ c = '\n') (hquotes : longestRun '\x27' q text ≤ 2)
    (hrest : rest.head? ≠ some '\x27') :
    readPlainLines (List.replicate q '\x27' ++ (text ++ (['\x27', '\x27', '\x27'] ++ rest))) =
      some (List.replicate q '\x27' ++ text, rest) := by
  induction text generalizing q with
  | nil =>
    rw [List.append_nil]
    exact spans_readPlainLines.closed hquotes hrest
  | cons c text ih =>
    rw [List.forall_mem_cons] at hplain
    rw [longestRun] at hquotes
    split at hquotes
    · next hc =>
      subst hc
      simpa [List.replicate_succ'] using ih hplain.2 hquotes
    · next hc =>
      obtain ⟨hq, hquotes⟩ := Nat.max_le.1 hquotes
      have hafter : readPlainLines (text ++ (['\x27', '\x27', '\x27'] ++ rest)) =
          some (text, rest) := ih hplain.2 hquotes
      have hhere : readPlainLines (c :: (text ++ (['\x27', '\x27', '\x27'] ++ rest))) =
          some (c :: text, rest) := by
        rcases hplain.1 with hc' | rfl
        · rw [readPlainLines_plain hc' hc, hafter]
          rfl
        · rw [spans_readPlainLines.newline, hafter]
          rfl
      rw [List.cons_append, spans_readPlainLines.quotes hq hc, hhere]
      rfl

/-! ## All forms -/

section forms

variable {text rest : List Char}

lemma le_longestRun (c : Char) (q : Nat) (text : List Char) : q ≤ longestRun c q text := by
  induction text generalizing q with
  | nil => exact Nat.le_refl q
  | cons d text ih =>
    rw [longestRun]
    split
    · exact Nat.le_of_succ_le (ih (q + 1))
    · exact Nat.le_max_left q _

lemma not_mem_of_longestRun {c : Char} (h : longestRun c 0 text = 0) : c ∉ text := by
  induction text with
  | nil => exact List.not_mem_nil
  | cons d text ih =>
    rw [longestRun] at h
    split at h
    · have hle := le_longestRun c (0 + 1) text
      omega
    · next hd =>
      rw [List.mem_cons, not_or]
      exact ⟨fun hc => hd hc.symm, ih (by simpa using h)⟩

/-- Without control characters, all but the line feeds are plain. -/
lemma plain_of_any (h : text.any needsEscape = false) :
    ∀ c ∈ text, isPlain c = true ∨ c = '\n' := by
  intro c hc
  have hescape := List.any_eq_false.1 h c hc
  by_cases hplain : isPlain c = true
  · exact .inl hplain
  · exact .inr (by simpa [needsEscape, hplain] using hescape)

lemma read_double {more : List Char} (hmore : ¬ ['\x22', '\x22'] <+: more) :
    read ('\x22' :: more) = readBasic more := by
  rw [read]
  · rfl
  all_goals simp_all
  rintro rest rfl
  exact hmore ⟨rest, rfl⟩

lemma read_single {more : List Char} (hmore : ¬ ['\x27', '\x27'] <+: more) :
    read ('\x27' :: more) = readPlain more := by
  rw [read]
  · rfl
  all_goals simp_all
  rintro rest rfl
  exact hmore ⟨rest, rfl⟩

lemma read_basic (text : List Char) (hrest : rest.head? ≠ some '\x22') :
    read (enclose ['\x22'] false (body false 0 text) ++ rest) = some (text, rest) := by
  have hbody : ¬ ['\x22', '\x22'] <+: body false 0 text ++ '\x22' :: rest := by
    cases text with
    | nil => cases rest with
      | nil => simp [body]
      | cons c rest => simpa [body, List.cons_prefix_cons, eq_comm] using hrest
    | cons c text =>
      obtain ⟨d, more, hescaped, hd, -⟩ := exists_escaped c
      rw [body_cons, hescaped]
      simp [List.cons_prefix_cons, hd.symm]
  have hform : enclose ['\x22'] false (body false 0 text) ++ rest =
      '\x22' :: (body false 0 text ++ '\x22' :: rest) := by
    simp [enclose]
  rw [hform, read_double hbody, readBasic_body]

lemma read_plain (hplain : ∀ c ∈ text, isPlain c = true) (hquote : '\x27' ∉ text)
    (hrest : rest.head? ≠ some '\x27') :
    read (enclose ['\x27'] false text ++ rest) = some (text, rest) := by
  have htext : ¬ ['\x27', '\x27'] <+: text ++ '\x27' :: rest := by
    cases text with
    | nil => cases rest with
      | nil => simp
      | cons c rest => simpa [List.cons_prefix_cons, eq_comm] using hrest
    | cons c text =>
      rw [List.mem_cons, not_or] at hquote
      simp [List.cons_prefix_cons, hquote.1]
  have hform : enclose ['\x27'] false text ++ rest = '\x27' :: (text ++ '\x27' :: rest) := by
    simp [enclose]
  rw [hform, read_single htext, readPlain_append hplain hquote]

lemma dropLineEnd_of_head {cs : List Char} (hnewline : cs.head? ≠ some '\n')
    (hreturn : cs.head? ≠ some '\r') : dropLineEnd cs = cs := by
  unfold dropLineEnd
  split <;> simp_all

lemma dropLineEnd_body (hnewline : '\n' ∉ text) (hrest : rest.head? = some '\x22') :
    dropLineEnd (body true 0 text ++ rest) = body true 0 text ++ rest := by
  suffices h : (body true 0 text ++ rest).head? ≠ some '\n' ∧
      (body true 0 text ++ rest).head? ≠ some '\r' from dropLineEnd_of_head h.1 h.2
  cases text with
  | nil => simp [body, hrest]
  | cons c text =>
    rw [List.mem_cons, not_or] at hnewline
    obtain ⟨d, more, hescaped, -, hd⟩ := exists_escaped c
    rcases body_cases 0 c text with ⟨rfl, -, hbody⟩ | ⟨rfl, -⟩ | hbody
    · simp [hbody]
    · exact absurd rfl hnewline.1
    · simpa [hbody, hescaped] using hd

lemma dropLineEnd_plain (hplain : ∀ c ∈ text, isPlain c = true ∨ c = '\n')
    (hnewline : '\n' ∉ text) (hrest : rest.head? = some '\x27') :
    dropLineEnd (text ++ rest) = text ++ rest := by
  suffices h : (text ++ rest).head? ≠ some '\n' ∧ (text ++ rest).head? ≠ some '\r' from
    dropLineEnd_of_head h.1 h.2
  cases text with
  | nil => simp [hrest]
  | cons c text =>
    rw [List.mem_cons, not_or] at hnewline
    have hc := ne_of_isPlain ((hplain c List.mem_cons_self).resolve_right (Ne.symm hnewline.1))
    simpa [and_comm] using hc

lemma read_lines (text : List Char) (hrest : rest.head? ≠ some '\x22') :
    read (enclose ['\x22', '\x22', '\x22'] (text.contains '\n') (body true 0 text) ++ rest) =
      some (text, rest) := by
  have hread : readLines .text (body true 0 text ++ (['\x22', '\x22', '\x22'] ++ rest)) =
      some (text, rest) := readLines_body (Nat.zero_le 2) text hrest
  rw [← hread]
  simp only [enclose, List.append_assoc]
  change readLines .text (dropLineEnd (_ ++ _)) = _
  split
  · rfl
  · next hnewline =>
    exact congrArg (readLines .text) (dropLineEnd_body (by simpa using hnewline) rfl)

lemma read_plainLines (hplain : ∀ c ∈ text, isPlain c = true ∨ c = '\n')
    (hquotes : longestRun '\x27' 0 text ≤ 2) (hrest : rest.head? ≠ some '\x27') :
    read (enclose ['\x27', '\x27', '\x27'] (text.contains '\n') text ++ rest) =
      some (text, rest) := by
  have hread : readPlainLines (text ++ (['\x27', '\x27', '\x27'] ++ rest)) = some (text, rest) :=
    readPlainLines_append hplain hquotes hrest
  rw [← hread]
  simp only [enclose, List.append_assoc]
  change readPlainLines (dropLineEnd (_ ++ _)) = _
  split
  · rfl
  · next hnewline =>
    have hquote : (['\x27', '\x27', '\x27'] ++ rest).head? = some '\x27' := rfl
    have hdrop := dropLineEnd_plain hplain (by simpa using hnewline) hquote
    exact congrArg readPlainLines hdrop

/-- Whatever is written is read back, up to where it ends. -/
theorem read_write (text : List Char) (hdouble : rest.head? ≠ some '\x22')
    (hsingle : rest.head? ≠ some '\x27') : read (write text ++ rest) = some (text, rest) := by
  simp only [write]
  split
  · exact read_basic text hdouble
  · split
    · next h =>
      simp only [Bool.and_eq_true, Bool.not_eq_true', decide_eq_true_eq] at h
      obtain ⟨⟨hcontrol, hsingles⟩, hnewline⟩ := h
      have hplain : ∀ c ∈ text, isPlain c = true := fun c hc =>
        (plain_of_any hcontrol c hc).resolve_right fun hc' => by simp_all
      exact read_plain hplain (not_mem_of_longestRun hsingles) hsingle
    · split
      · exact read_lines text hdouble
      · split
        · next h =>
          simp only [Bool.and_eq_true, Bool.not_eq_true', decide_eq_true_eq] at h
          exact read_plainLines (plain_of_any h.1) h.2 hsingle
        · split
          · next h => exact h ▸ read_lines text hdouble
          · exact read_basic text hdouble

end forms

end EvalServer.Toml.Literal
