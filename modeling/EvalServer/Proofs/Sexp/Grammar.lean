import EvalServer.Proofs.Sexp.Lexing
import Mathlib.Data.List.TakeWhile

/-!
# The grammar of forms

Trivia and forms are defined by what they leave of a text, with no reader in sight. This file
follows the derivations through the tokens: trivia has none, and where no form starts, the tokens
of the text say so.
-/

namespace EvalServer.Sexp

/-- Blanks and comments in front of a rest; a comment goes to the end of its line or of the text. -/
inductive Trivia : List Char → List Char → Prop
  | none (rest : List Char) : Trivia rest rest
  | blank {c : Char} {cs rest : List Char} : Text.isBlank c = true → Trivia cs rest →
      Trivia (c :: cs) rest
  | comment {body cs rest : List Char} : '\n' ∉ body → Trivia cs rest →
      Trivia (';' :: (body ++ '\n' :: cs)) rest
  | lastComment {body : List Char} : '\n' ∉ body → Trivia (';' :: body) []

/-- The characters after the quote that starts a string, what they stand for and the rest. -/
inductive Quoted : List Char → List Char → List Char → Prop
  | close (rest : List Char) : Quoted ('\x22' :: rest) [] rest
  | plain {c : Char} {cs text rest : List Char} : c ≠ '\x22' → c ≠ '\\' → Quoted cs text rest →
      Quoted (c :: cs) (c :: text) rest
  | newline {cs text rest : List Char} : Quoted cs text rest →
      Quoted ('\\' :: 'n' :: cs) ('\n' :: text) rest
  | tab {cs text rest : List Char} : Quoted cs text rest →
      Quoted ('\\' :: 't' :: cs) ('\t' :: text) rest
  | escaped {c : Char} {cs text rest : List Char} : c ≠ 'n' → c ≠ 't' → Quoted cs text rest →
      Quoted ('\\' :: c :: cs) (c :: text) rest

mutual

/-- A form in front of a rest, with its value. An atom goes on as long as it can. -/
inductive Form : List Char → Sexp → List Char → Prop
  | list {cs inside rest : List Char} {items : List Sexp} : Trivia cs inside →
      Forms inside items rest → Form ('(' :: cs) (.list items) rest
  | quote {cs next rest : List Char} {v : Sexp} : Trivia cs next → Form next v rest →
      Form ('\x27' :: cs) v.quoted rest
  | string {cs text rest : List Char} : Quoted cs text rest →
      Form ('\x22' :: cs) (.str (String.ofList text)) rest
  | atom {name rest : List Char} : Token.IsName name → Token.Ends rest →
      Form (name ++ rest) (ofAtom name) rest

/-- The forms up to the parenthesis that closes a list, each with trivia after it. -/
inductive Forms : List Char → List Sexp → List Char → Prop
  | nil (rest : List Char) : Forms (')' :: rest) [] rest
  | cons {cs between next rest : List Char} {v : Sexp} {items : List Sexp} : Form cs v between →
      Trivia between next → Forms next items rest → Forms cs (v :: items) rest

end

/-- A text that is one form between trivia. -/
def Derives (text : String) (v : Sexp) : Prop :=
  ∃ cs rest, Trivia text.toList cs ∧ Form cs v rest ∧ Trivia rest []

/-! ## Trivia -/

variable {cs rest : List Char} {c : Char}

lemma Trivia.length_le (h : Trivia cs rest) : rest.length ≤ cs.length := by
  induction h with
  | none => exact Nat.le_refl _
  | blank _ _ ih => exact Nat.le_trans ih (Nat.le_succ _)
  | comment _ _ ih =>
    simp only [List.length_cons, List.length_append]
    omega
  | lastComment => exact Nat.zero_le _

/-- No trivia starts a text. -/
def Stops (cs : List Char) : Prop :=
  ∀ c ∈ cs.head?, Text.isBlank c = false ∧ c ≠ ';'

lemma stops_nil : Stops [] := by
  simp [Stops]

lemma stops_cons (hc : Text.isBlank c = false) (hcomment : c ≠ ';') : Stops (c :: cs) := by
  rintro d hd
  obtain rfl : c = d := Option.some.inj hd
  exact ⟨hc, hcomment⟩

/-- All trivia in front of a text can be taken off. -/
lemma exists_trivia (cs : List Char) : ∃ rest, Trivia cs rest ∧ Stops rest := by
  induction hn : cs.length using Nat.strongRecOn generalizing cs with
  | ind n ih =>
    cases cs with
    | nil => exact ⟨[], .none [], stops_nil⟩
    | cons c cs =>
      rw [List.length_cons] at hn
      by_cases hc : Text.isBlank c = true
      · obtain ⟨rest, htrivia, hstops⟩ := ih cs.length (by omega) cs rfl
        exact ⟨rest, .blank hc htrivia, hstops⟩
      · by_cases hcomment : c = ';'
        · subst hcomment
          by_cases hline : '\n' ∈ cs
          · obtain ⟨body, next, rfl, hbody⟩ := List.eq_append_cons_of_mem hline
            rw [List.length_append, List.length_cons] at hn
            obtain ⟨rest, htrivia, hstops⟩ := ih next.length (by omega) next rfl
            exact ⟨rest, .comment hbody htrivia, hstops⟩
          · exact ⟨[], .lastComment hline, stops_nil⟩
        · exact ⟨c :: cs, .none _, stops_cons (by simpa using hc) hcomment⟩

end EvalServer.Sexp

namespace EvalServer.Token

variable {c : Char} {line : Nat} {cs rest text : List Char}

lemma lineAfter_add (line : Nat) (c : Char) (cs : List Char) :
    lineAfter line c + cs.count '\n' = line + (c :: cs).count '\n' := by
  unfold lineAfter
  split
  · next hc =>
    subst hc
    simp
    omega
  · next hc => rw [List.count_cons_of_ne hc]

lemma lex_blank (hc : Text.isBlank c = true) (line : Nat) (rest : List Char) :
    lex .between line (c :: rest) = lex .between (lineAfter line c) rest := by
  simp [lex, scan, scanBetween, hc]

lemma lex_comment {body : List Char} (hbody : '\n' ∉ body) (line : Nat) (rest : List Char) :
    lex .comment line (body ++ rest) = lex .comment line rest := by
  induction body with
  | nil => rfl
  | cons c body ih =>
    have hc : c ≠ '\n' := (List.ne_of_not_mem_cons hbody).symm
    have hbody : '\n' ∉ body := List.not_mem_of_not_mem_cons hbody
    simp [lex, scan, lineAfter, hc, ih hbody]

lemma lex_quote (line : Nat) (rest : List Char) :
    lex .between line ('\x27' :: rest) = (line, .quote) :: lex .between line rest := rfl

lemma lex_semicolon (line : Nat) (rest : List Char) :
    lex .between line (';' :: rest) = lex .comment line rest := rfl

/-- Trivia has no tokens; its newlines count. -/
lemma lex_trivia_lines (h : Sexp.Trivia cs rest) (line : Nat) :
    ∃ after, lex .between line cs = lex .between after rest ∧
      after + rest.count '\n' = line + cs.count '\n' := by
  induction h generalizing line with
  | none => exact ⟨line, rfl, rfl⟩
  | @blank c cs rest hc _ ih =>
    obtain ⟨after, hafter, hlines⟩ := ih (lineAfter line c)
    refine ⟨after, (lex_blank hc line _).trans hafter, ?_⟩
    rw [hlines, lineAfter_add]
  | @comment body cs rest hbody _ ih =>
    obtain ⟨after, hafter, hlines⟩ := ih (line + 1)
    refine ⟨after, ?_, ?_⟩
    · rw [lex_semicolon, lex_comment hbody]
      exact hafter
    · have hnone : body.count '\n' = 0 := List.count_eq_zero.2 hbody
      simp [hlines, hnone]
      omega
  | @lastComment body hbody =>
    have hlex := lex_comment hbody line []
    rw [List.append_nil] at hlex
    have hnone : body.count '\n' = 0 := List.count_eq_zero.2 hbody
    exact ⟨line, (lex_semicolon line body).trans hlex, by simp [hnone]⟩

lemma lex_trivia (h : Sexp.Trivia cs rest) (line : Nat) :
    ∃ after, lex .between line cs = lex .between after rest := by
  obtain ⟨after, hafter, -⟩ := lex_trivia_lines h line
  exact ⟨after, hafter⟩

lemma unescape_eq (hn : c ≠ 'n') (ht : c ≠ 't') : unescape c = c := by
  rw [unescape, if_neg hn, if_neg ht]

/-- A string is one token; its newlines count. -/
lemma lex_quoted_lines (h : Sexp.Quoted cs text rest) (start : Nat) (gathered : List Char)
    (line : Nat) :
    ∃ after, lex (.string start gathered) line cs =
      (start, .string (gathered.reverse ++ text)) :: lex .between after rest ∧
      after + rest.count '\n' = line + cs.count '\n' := by
  induction h generalizing gathered line with
  | close => exact ⟨line, by simp [lex, scan, lineAfter], by simp⟩
  | @plain c cs text rest hquote hslash _ ih =>
    obtain ⟨after, hafter, hlines⟩ := ih (c :: gathered) (lineAfter line c)
    exact ⟨after, by simpa [lex, scan, hquote, hslash] using hafter, by rw [hlines, lineAfter_add]⟩
  | newline _ ih =>
    obtain ⟨after, hafter, hlines⟩ := ih ('\n' :: gathered) line
    exact ⟨after, by simpa [lex, scan, unescape, lineAfter] using hafter, by simpa using hlines⟩
  | tab _ ih =>
    obtain ⟨after, hafter, hlines⟩ := ih ('\t' :: gathered) line
    exact ⟨after, by simpa [lex, scan, unescape, lineAfter] using hafter, by simpa using hlines⟩
  | @escaped c cs text rest hn ht _ ih =>
    obtain ⟨after, hafter, hlines⟩ := ih (c :: gathered) (lineAfter line c)
    refine ⟨after, by simpa [lex, scan, unescape_eq hn ht, lineAfter] using hafter, ?_⟩
    rw [hlines, lineAfter_add]
    simp

lemma lex_quoted (h : Sexp.Quoted cs text rest) (start : Nat) (gathered : List Char) (line : Nat) :
    ∃ after, lex (.string start gathered) line cs =
      (start, .string (gathered.reverse ++ text)) :: lex .between after rest := by
  obtain ⟨after, hafter, -⟩ := lex_quoted_lines h start gathered line
  exact ⟨after, hafter⟩

lemma exists_quoted_escape (h : Sexp.Quoted cs text rest) (c : Char) :
    ∃ text', Sexp.Quoted ('\\' :: c :: cs) text' rest := by
  by_cases hn : c = 'n'
  · subst hn
    exact ⟨_, .newline h⟩
  · by_cases ht : c = 't'
    · subst ht
      exact ⟨_, .tab h⟩
    · exact ⟨_, .escaped hn ht h⟩

/-- A string that does not end is the last token. -/
lemma exists_quoted (cs : List Char) : (∃ text rest, Sexp.Quoted cs text rest) ∨
    ∀ start gathered line, lex (.string start gathered) line cs = [(start, .unclosed)] := by
  induction hn : cs.length using Nat.strongRecOn generalizing cs with
  | ind n ih =>
    match cs with
    | [] => exact .inr fun _ _ _ => rfl
    | c :: cs =>
      rw [List.length_cons] at hn
      by_cases hquote : c = '\x22'
      · exact .inl ⟨[], cs, hquote ▸ .close cs⟩
      · by_cases hslash : c = '\\'
        · subst hslash
          match cs with
          | [] => exact .inr fun _ _ _ => rfl
          | d :: cs =>
            rw [List.length_cons] at hn
            rcases ih cs.length (by omega) cs rfl with ⟨text, rest, h⟩ | h
            · obtain ⟨text', h'⟩ := exists_quoted_escape h d
              exact .inl ⟨text', rest, h'⟩
            · exact .inr fun _ _ _ => by simp [lex, scan, h]
        · rcases ih cs.length (by omega) cs rfl with ⟨text, rest, h⟩ | h
          · exact .inl ⟨c :: text, rest, .plain hquote hslash h⟩
          · exact .inr fun _ _ _ => by simp [lex, scan, hquote, hslash, h]

lemma exists_plain (cs : List Char) :
    ∃ front rest, cs = front ++ rest ∧ (∀ c ∈ front, isDelimiter c = false) ∧ Ends rest := by
  refine ⟨cs.takeWhile (!isDelimiter ·), cs.dropWhile (!isDelimiter ·),
    List.takeWhile_append_dropWhile.symm, fun d hd => ?_, fun d hd => ?_⟩
  · simpa using List.mem_takeWhile_imp hd
  · have hhead := List.head?_dropWhile_not (!isDelimiter ·) cs
    rw [Option.mem_def.1 hd] at hhead
    simpa using hhead

/-- An atom goes on as long as it can. -/
lemma exists_name (hc : isDelimiter c = false) (hquote : c ≠ '\x27') (cs : List Char) :
    ∃ name rest, c :: cs = name ++ rest ∧ IsName name ∧ Ends rest := by
  obtain ⟨front, rest, rfl, hplain, hends⟩ := exists_plain cs
  refine ⟨c :: front, rest, rfl, ⟨List.cons_ne_nil _ _, ?_, ?_⟩, hends⟩
  · exact List.forall_mem_cons.2 ⟨hc, hplain⟩
  · rintro _ ⟨⟩
    exact hquote rfl

end EvalServer.Token
