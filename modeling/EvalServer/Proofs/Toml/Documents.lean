import EvalServer.Proofs.Toml.Numbers
import EvalServer.Proofs.Toml.Strings
import EvalServer.Toml.Writer

/-!
# Documents survive writing

A document of entries whose keys are plain and all different is read back as the table of these
entries, in their order.
-/

namespace EvalServer.Toml

variable {rest : List Char}

/-- Readers may read as many items as there are characters, which is enough for all of them. -/
lemma length_le_flatMap {α : Type} {write : α → List Char} (hwrite : ∀ a, write a ≠ [])
    (items : List α) : items.length ≤ (items.flatMap write).length := by
  induction items with
  | nil => exact Nat.le_refl 0
  | cons a items ih =>
    have ha : 0 < (write a).length := List.length_pos_iff.2 (hwrite a)
    rw [List.flatMap_cons, List.length_append, List.length_cons]
    omega

/-! ## Strings and arrays of strings -/

/-- What a reader of strings may stop before. -/
def Unquoted (rest : List Char) : Prop :=
  rest.head? ≠ some '\x22' ∧ rest.head? ≠ some '\x27'

lemma exists_quoted (text : String) : ∃ quote more, (quoted text).toList = quote :: more ∧
    (quote = '\x22' ∨ quote = '\x27') := by
  rw [quoted, String.toList_ofList]
  simp only [Literal.write]
  repeat' split
  all_goals exact ⟨_, _, rfl, by simp⟩

lemma readScalar_string (text : String) (hrest : Unquoted rest) :
    readScalar ((quoted text).toList ++ rest) = some (.string text, rest) := by
  have hread : Literal.read ((quoted text).toList ++ rest) = some (text.toList, rest) := by
    rw [quoted, String.toList_ofList]
    exact Literal.read_write text.toList hrest.1 hrest.2
  obtain ⟨quote, more, hquoted, rfl | rfl⟩ := exists_quoted text
  · rw [hquoted] at hread ⊢
    rw [List.cons_append] at hread ⊢
    simp only [readScalar, hread, Option.map_some, String.ofList_toList]
  · rw [hquoted] at hread ⊢
    rw [List.cons_append] at hread ⊢
    simp only [readScalar, hread, Option.map_some, String.ofList_toList]

lemma skipLines_mark {c : Char} (hc : c ∉ ['\n', '\r', '#', ' ', '\t']) (rest : List Char) :
    skipLines false (c :: rest) = some (c :: rest) := by
  simp only [List.mem_cons, List.not_mem_nil, or_false, not_or] at hc
  rw [skipLines]
  · simp [hc]
  all_goals simp_all

lemma readValue_scalar (depth : Nat) {cs : List Char} (hbracket : cs.head? ≠ some '[')
    (hbrace : cs.head? ≠ some '\x7b') : readValue depth cs = readScalar cs := by
  rw [readValue.eq_def]
  split
  · simp at hbracket
  · simp at hbrace
  · rfl

lemma readValue_string (depth : Nat) (text : String) (hrest : Unquoted rest) :
    readValue depth ((quoted text).toList ++ rest) = some (.string text, rest) := by
  rw [← readScalar_string text hrest]
  obtain ⟨quote, more, hquoted, rfl | rfl⟩ := exists_quoted text <;>
    exact readValue_scalar depth (by simp [hquoted]) (by simp [hquoted])

lemma skipLines_string (text : String) (rest : List Char) :
    skipLines false ((quoted text).toList ++ rest) = some ((quoted text).toList ++ rest) := by
  obtain ⟨quote, more, hquoted, rfl | rfl⟩ := exists_quoted text <;>
    rw [hquoted] <;> exact skipLines_mark (by decide) _

section elements

variable {element : List Char → Option (Value × List Char)} {limit : Nat}
  {cs start more : List Char} {v : Value}

lemma readElements_comma (hstart : skipLines false start = some cs) (hcs : cs.head? ≠ some ']')
    (helement : element cs = some (v, ',' :: more)) :
    readElements element (limit + 1) start =
      (readElements element limit more).map fun r => (v :: r.1, r.2) := by
  rw [readElements, hstart]
  simp only [Option.bind_eq_bind, Option.bind_some]
  split
  · simp at hcs
  · rw [helement, Option.bind_some, skipLines_mark (by decide), Option.bind_some]
    change (readElements element limit more).bind (fun r => some (v :: r.1, r.2)) = _
    cases readElements element limit more <;> rfl

lemma readElements_last (hstart : skipLines false start = some cs) (hcs : cs.head? ≠ some ']')
    (helement : element cs = some (v, ']' :: more)) :
    readElements element (limit + 1) start = some ([v], more) := by
  rw [readElements, hstart]
  simp only [Option.bind_eq_bind, Option.bind_some]
  split
  · simp at hcs
  · rw [helement, Option.bind_some, skipLines_mark (by decide)]
    rfl

lemma readElements_end (hstart : skipLines false start = some (']' :: more)) :
    readElements element (limit + 1) start = some ([], more) := by
  rw [readElements, hstart]
  rfl

end elements

lemma head_quoted (text : String) (rest : List Char) {c : Char} (hdouble : c ≠ '\x22')
    (hsingle : c ≠ '\x27') : ((quoted text).toList ++ rest).head? ≠ some c := by
  obtain ⟨quote, more, hquoted, rfl | rfl⟩ := exists_quoted text
  · simpa [hquoted] using hdouble.symm
  · simpa [hquoted] using hsingle.symm

/-- What stands for an element of an array that spans lines. -/
def elementLine (text : String) : List Char :=
  ("    " ++ quoted text ++ ",\n").toList

lemma elementLine_eq (text : String) (rest : List Char) : elementLine text ++ rest =
    ' ' :: ' ' :: ' ' :: ' ' :: ((quoted text).toList ++ ',' :: '\n' :: rest) := by
  simp [elementLine]

lemma readElements_lines (depth : Nat) {limit : Nat} {texts : List String}
    (hlimit : texts.length < limit) (rest : List Char) :
    readElements (readValue depth) limit ('\n' :: (texts.flatMap elementLine ++ ']' :: rest)) =
      some (texts.map .string, rest) := by
  induction texts generalizing limit with
  | nil =>
    obtain ⟨limit, rfl⟩ : ∃ k, limit = k + 1 := ⟨limit - 1, by omega⟩
    exact readElements_end (skipLines_mark (by decide) rest)
  | cons text texts ih =>
    obtain ⟨limit, rfl⟩ : ∃ k, limit = k + 1 := ⟨limit - 1, by omega⟩
    have hstart :
        skipLines false ('\n' :: ((text :: texts).flatMap elementLine ++ ']' :: rest)) =
          some ((quoted text).toList ++
            ',' :: '\n' :: (texts.flatMap elementLine ++ ']' :: rest)) := by
      rw [← skipLines_string, List.flatMap_cons, List.append_assoc, elementLine_eq]
      simp [skipLines]
    rw [readElements_comma hstart (head_quoted text _ (by decide) (by decide))
      (readValue_string depth text (by simp [Unquoted])), ih (Nat.lt_of_succ_lt_succ hlimit)]
    rfl

lemma readValue_array (depth : Nat) (cs : List Char) : readValue (depth + 1) ('[' :: cs) =
    (readElements (readValue depth) (cs.length + 1) cs).map fun r => (.array r.1, r.2) :=
  rfl

lemma readValue_strings (depth : Nat) (texts : List String) (rest : List Char) :
    readValue (depth + 1) ((Entry.strings texts).print.toList ++ rest) =
      some (.array (texts.map .string), rest) := by
  match texts with
  | [] =>
    have hprint : (Entry.strings []).print.toList ++ rest = '[' :: ']' :: rest := rfl
    rw [hprint, readValue_array, readElements_end (skipLines_mark (by decide) rest)]
    rfl
  | [text] =>
    have hprint : (Entry.strings [text]).print.toList ++ rest =
        '[' :: ((quoted text).toList ++ ']' :: rest) := by
      simp [Entry.print]
    rw [hprint, readValue_array, readElements_last (skipLines_string text _)
      (head_quoted text _ (by decide) (by decide))
      (readValue_string depth text (by simp [Unquoted]))]
    rfl
  | text :: other :: texts =>
    have hprint : (Entry.strings (text :: other :: texts)).print.toList ++ rest =
        '[' :: '\n' :: ((text :: other :: texts).flatMap elementLine ++ ']' :: rest) := by
      delta elementLine
      simp [Entry.print, List.flatMap_map]
    have hline : ∀ text, elementLine text ≠ [] := by simp [elementLine]
    have hlength := length_le_flatMap hline (text :: other :: texts)
    rw [hprint, readValue_array, readElements_lines]
    · rfl
    · simp only [List.length_cons, List.length_append] at hlength ⊢
      omega

/-- Anything that is written is read, up to the end of its line. -/
lemma readValue_print (depth : Nat) {e : Entry} (he : ∀ n, e = .integer n → n < 0x8000000000000000)
    (rest : List Char) :
    readValue (depth + 1) (e.print.toList ++ '\n' :: rest) = some (e.value, '\n' :: rest) := by
  cases e with
  | string text => exact readValue_string (depth + 1) text (by simp [Unquoted])
  | integer n =>
    obtain ⟨c, ds, hcs, hc⟩ := exists_digit n
    have hhead : ((Entry.integer n).print.toList ++ '\n' :: rest).head? = some c := by
      simp [Entry.print, hcs]
    have hne {d : Char} (hd : (Text.Decimal.digit? d).isSome = false) :
        ((Entry.integer n).print.toList ++ '\n' :: rest).head? ≠ some d := by
      simpa [hhead] using ne_of_digit hc hd
    rw [readValue_scalar _ (hne (by decide)) (hne (by decide))]
    exact readScalar_integer (he n rfl) rest
  | boolean b => cases b <;> rfl
  | strings texts => exact readValue_strings depth texts _

/-! ## Keys -/

/-- Keys that need no quotes. -/
def PlainKey (key : String) : Prop :=
  key ≠ "" ∧ ∀ c ∈ key.toList, isKeyCharacter c = true

lemma exists_key {key : String} (h : PlainKey key) : ∃ c cs, key.toList = c :: cs ∧
    isKeyCharacter c = true := by
  cases hkey : key.toList with
  | nil => exact absurd (String.toList_eq_nil_iff.1 hkey) h.1
  | cons c cs => exact ⟨c, cs, rfl, h.2 c (by simp [hkey])⟩

lemma ne_of_key {c : Char} (hc : isKeyCharacter c = true) :
    c ∉ ['\n', '\r', '#', ' ', '\t', '[', '\x22', '\x27', '\ufeff'] := by
  intro hmem
  simp only [List.mem_cons, List.not_mem_nil, or_false] at hmem
  rcases hmem with rfl | rfl | rfl | rfl | rfl | rfl | rfl | rfl | rfl <;>
    exact absurd hc (by decide)

lemma readKey_plain {key : String} (h : PlainKey key) (limit : Nat) (rest : List Char) :
    readKey (limit + 1) (key.toList ++ ' ' :: '=' :: rest) = some ([key], '=' :: rest) := by
  obtain ⟨c, cs, hkey, hc⟩ := exists_key h
  have hne := ne_of_key hc
  simp only [List.mem_cons, List.not_mem_nil, or_false, not_or] at hne
  have hblanks : skipBlanks (key.toList ++ ' ' :: '=' :: rest) =
      key.toList ++ ' ' :: '=' :: rest := by
    simp [skipBlanks, hkey, hne]
  have hshort : Literal.readShort (key.toList ++ ' ' :: '=' :: rest) = none := by
    rw [hkey, List.cons_append, Literal.readShort] <;> simp [hne]
  have htake : (key.toList ++ ' ' :: '=' :: rest).takeWhile isKeyCharacter = key.toList := by
    rw [List.takeWhile_append_of_pos h.2]
    simp [isKeyCharacter]
  have hdrop : (key.toList ++ ' ' :: '=' :: rest).dropWhile isKeyCharacter =
      ' ' :: '=' :: rest := by
    rw [List.dropWhile_append_of_pos h.2]
    simp [isKeyCharacter]
  have hpart : readKeyPart (key.toList ++ ' ' :: '=' :: rest) = some (key, ' ' :: '=' :: rest) := by
    simp [readKeyPart, hshort, htake, hdrop, h.1]
  rw [readKey, hblanks, hpart]
  rfl

/-! ## Lines -/

/-- What stands for an entry of a document. -/
def entryLine (entry : String × Entry) : List Char :=
  (entry.1 ++ " = " ++ entry.2.print ++ "\n").toList

/-- Entries that a document can hold: the key needs no quotes, and numbers are within 64 bits. -/
def Writable (entry : String × Entry) : Prop :=
  PlainKey entry.1 ∧ ∀ n, entry.2 = .integer n → n < 0x8000000000000000

lemma entryLine_eq (entry : String × Entry) (rest : List Char) : entryLine entry ++ rest =
    entry.1.toList ++ ' ' :: '=' :: ' ' :: (entry.2.print.toList ++ '\n' :: rest) := by
  simp [entryLine]

lemma exists_print (e : Entry) : ∃ c more, e.print.toList = c :: more ∧ c ≠ ' ' ∧ c ≠ '\t' := by
  match e with
  | .string text =>
    obtain ⟨quote, more, hquoted, rfl | rfl⟩ := exists_quoted text <;>
      exact ⟨_, more, hquoted, by decide⟩
  | .integer n =>
    obtain ⟨c, ds, hcs, hc⟩ := exists_digit n
    exact ⟨c, ds, hcs, ne_of_digit hc (by decide), ne_of_digit hc (by decide)⟩
  | .boolean true | .boolean false | .strings [] => exact ⟨_, _, rfl, by decide⟩
  | .strings [text] => exact ⟨'[', _, by simp [Entry.print]; rfl, by decide⟩
  | .strings (_ :: _ :: _) => exact ⟨'[', _, by simp [Entry.print]; rfl, by decide⟩

lemma skipBlanks_print (e : Entry) (rest : List Char) :
    skipBlanks (' ' :: (e.print.toList ++ rest)) = e.print.toList ++ rest := by
  obtain ⟨c, more, hprint, hspace, htab⟩ := exists_print e
  simp [skipBlanks, hprint, hspace, htab]

/-- A line adds its entry to the table, which has no entry of that key yet. -/
lemma line_entryLine {t : Table} {entry : String × Entry} (hentry : Writable entry)
    (hnew : t.lookup entry.1 = none) (rest : List Char) :
    ({ root := t } : Draft).line (entryLine entry ++ rest) =
      some ({ root := t ++ [(entry.1, entry.2.value)] }, '\n' :: rest) := by
  obtain ⟨c, cs, hkey, hc⟩ := exists_key hentry.1
  have hbracket : c ≠ '[' := fun h => ne_of_key hc (by simp [h])
  have hline : ({ root := t } : Draft).line (entryLine entry ++ rest) =
      ({ root := t } : Draft).entry (entryLine entry ++ rest) := by
    rw [entryLine_eq, hkey, List.cons_append, Draft.line] <;> simp [hbracket]
  rw [hline, Draft.entry, entryLine_eq, depthLimit, readKey_plain hentry.1]
  simp [Number.mark?, skipBlanks_print, readValue_print _ hentry.2, splitKey, Table.descend,
    Table.add, hnew]

lemma skipLines_entryLine {entry : String × Entry} (hentry : Writable entry) (rest : List Char) :
    skipLines false (entryLine entry ++ rest) = some (entryLine entry ++ rest) := by
  obtain ⟨c, cs, hkey, hc⟩ := exists_key hentry.1
  have hne := ne_of_key hc
  rw [entryLine_eq, hkey]
  exact skipLines_mark (fun hmem => hne (by simp_all)) _

lemma lines_entryLines {t : Table} {entries : List (String × Entry)} {limit : Nat}
    (hlimit : entries.length < limit) (hentries : ∀ entry ∈ entries, Writable entry)
    (hkeys : (t.map Prod.fst ++ entries.map Prod.fst).Nodup) :
    Draft.lines limit { root := t } (entries.flatMap entryLine) =
      some { root := t ++ entries.map fun entry => (entry.1, entry.2.value) } := by
  induction entries generalizing t limit with
  | nil =>
    obtain ⟨limit, rfl⟩ : ∃ k, limit = k + 1 := ⟨limit - 1, by omega⟩
    simp [Draft.lines, skipLines]
  | cons entry entries ih =>
    obtain ⟨limit, rfl⟩ : ∃ k, limit = k + 1 := ⟨limit - 1, by omega⟩
    rw [List.forall_mem_cons] at hentries
    rw [List.map_cons, List.append_cons] at hkeys
    -- `t` has the entries read so far, none of which has the key of this one.
    have hnew : t.lookup entry.1 = none := by
      simp only [List.lookup_eq_none_iff, bne_iff_ne]
      intro other hother heq
      have hkey : entry.1 ∈ t.map Prod.fst := heq ▸ List.mem_map_of_mem hother
      exact (List.nodup_append.1 (List.nodup_append.1 hkeys).1).2.2 _ hkey _ (by simp) rfl
    have hend : endLine ('\n' :: entries.flatMap entryLine) = some (entries.flatMap entryLine) :=
      rfl
    rw [List.flatMap_cons, Draft.lines, skipLines_entryLine hentries.1]
    simp only [Option.bind_eq_bind, Option.bind_some]
    split
    · next hnil => simp [entryLine_eq] at hnil
    · rw [line_entryLine hentries.1 hnew, Option.bind_some, hend, Option.bind_some,
        ih (Nat.lt_of_succ_lt_succ hlimit) hentries.2 (by simpa using hkeys)]
      simp

/-- A document that is written is read as the table of its entries. -/
theorem parse?_print {entries : List (String × Entry)}
    (hentries : ∀ entry ∈ entries, Writable entry) (hkeys : (entries.map Prod.fst).Nodup) :
    parse? (print entries) = some (entries.map fun entry => (entry.1, entry.2.value)) := by
  have hprint : (print entries).toList = entries.flatMap entryLine := by
    rw [print, String.toList_join, List.flatMap_map]
    rfl
  have hline : ∀ entry, entryLine entry ≠ [] := by simp [entryLine]
  have hlines := lines_entryLines (t := []) (Nat.lt_succ_of_le (length_le_flatMap hline entries))
    hentries hkeys
  unfold parse?
  rw [hprint]
  split
  · next heq =>
    cases entries with
    | nil => simp at heq
    | cons entry entries =>
      obtain ⟨c, cs, hkey, hc⟩ := exists_key (hentries entry List.mem_cons_self).1
      rw [List.flatMap_cons, entryLine_eq, hkey] at heq
      exact absurd (by simp [(List.cons.inj heq).1]) (ne_of_key hc)
  · exact congrArg (Option.map Draft.root) hlines

end EvalServer.Toml
