import EvalServer.Proofs.Frame.Stream
import Mathlib.Data.Nat.Digits.Defs

/-!
# What is read off a stream

The result of a read is a matter of the bytes to come alone: whether they are enough for a header,
whether six digits stand there, whether what these announce follows and is a text, and what that
text is parsed as. How the bytes are cut into pieces and where reads are interrupted changes
nothing, and a read that fails changes the result exactly if it comes before the bytes wanted.
-/

namespace EvalServer

namespace Delivery

variable {d : Delivery} {need : Nat}

lemma putBack_append (bs : List UInt8) (d more : Delivery) :
    putBack bs (d ++ more) = putBack bs d ++ more := by
  unfold putBack
  split <;> rfl

lemma length_gather_le {bs : List UInt8} {rest : Delivery} (h : d.gather need = (.ok bs, rest)) :
    bs.length ≤ need := by
  induction d generalizing need bs with
  | nil =>
    cases h
    exact Nat.zero_le _
  | cons a d ih =>
    by_cases hzero : need = 0
    · subst hzero
      cases h
      exact Nat.le_refl _
    · cases a with
      | interrupted => exact ih (by simpa only [gather, if_neg hzero] using h)
      | failure description => simp [gather, hzero] at h
      | bytes piece =>
        by_cases hpiece : piece = []
        · subst hpiece
          simp only [gather, if_neg hzero, Prod.mk.injEq, Except.ok.injEq] at h
          obtain ⟨rfl, -⟩ := h
          exact Nat.zero_le _
        · rcases Nat.lt_or_ge piece.length need with hshort | henough
          · rw [gather_short hpiece hshort, Prod.mk.injEq] at h
            obtain ⟨hresult, hrest⟩ := h
            cases hlater : (gather (need - piece.length) d).1 with
            | error description => simp [hlater, Except.map] at hresult
            | ok later =>
              have hle := ih (Prod.ext hlater hrest)
              simp only [hlater, Except.map, Except.ok.injEq] at hresult
              rw [← hresult, List.length_append]
              omega
          · rw [gather_enough hzero henough] at h
            cases h
            exact List.length_take_le need piece

/-- All the bytes asked for, or a failure that came before: what arrives later does not matter. -/
lemma gather_append {result : Except String (List UInt8)} {rest : Delivery}
    (h : d.gather need = (result, rest)) (hdecided : ∀ bs, result = .ok bs → bs.length = need)
    (more : Delivery) : (d ++ more).gather need = (result, rest ++ more) := by
  induction d generalizing need result with
  | nil =>
    cases h
    obtain rfl : need = 0 := (hdecided [] rfl).symm
    cases more <;> simp [gather]
  | cons a d ih =>
    by_cases hzero : need = 0
    · subst hzero
      simp only [gather, if_true, Prod.mk.injEq] at h
      obtain ⟨rfl, rfl⟩ := h
      simp [gather]
    · cases a with
      | interrupted =>
        simp only [gather, if_neg hzero, List.cons_append] at h ⊢
        exact ih h hdecided
      | failure description =>
        simp only [gather, if_neg hzero, List.cons_append, Prod.mk.injEq] at h ⊢
        exact ⟨h.1, congrArg (· ++ more) h.2⟩
      | bytes bs =>
        by_cases hbs : bs = []
        · subst hbs
          simp only [gather, if_neg hzero, Prod.mk.injEq] at h
          exact absurd (hdecided [] h.1.symm).symm hzero
        · rcases Nat.lt_or_ge bs.length need with hshort | henough
          · rw [gather_short hbs hshort] at h
            rw [List.cons_append, gather_short hbs hshort]
            obtain ⟨hresult, hrest⟩ := Prod.mk.inj h
            -- what is still to be gathered is decided as well
            have hdecided' : ∀ bs', (gather (need - bs.length) d).1 = .ok bs' →
                bs'.length = need - bs.length := by
              intro bs' hbs'
              have hall := hdecided (bs ++ bs') (by rw [← hresult, hbs']; rfl)
              rw [List.length_append] at hall
              omega
            rw [ih (Prod.ext rfl hrest) hdecided', hresult]
          · rw [gather_enough hzero henough] at h
            rw [List.cons_append, gather_enough hzero henough, putBack_append]
            obtain ⟨hresult, hrest⟩ := Prod.mk.inj h
            rw [hresult, hrest]

/-- A read that fails before enough bytes have come is the end of gathering. -/
lemma gather_failure (hd : d.Smooth) (hneed : d.content.length < need) (description : String)
    (after : Delivery) :
    (d ++ .failure description :: after).gather need = (.error description, after) := by
  have hzero : need ≠ 0 := Nat.ne_zero_of_lt hneed
  induction d generalizing need with
  | nil => simp only [List.nil_append, gather, if_neg hzero]
  | cons a d ih =>
    obtain ⟨ha, hd'⟩ := List.forall_mem_cons.1 hd
    rcases ha with rfl | ⟨bs, rfl, hbs⟩
    · have hrest := ih hd' hneed hzero
      simpa only [List.cons_append, gather, if_neg hzero] using hrest
    · have hlength : bs.length + (content d).length < need := by
        simpa only [content, List.length_append] using hneed
      have hneed' : (content d).length < need - bs.length := by
        omega
      have hrest := ih hd' hneed' (by omega)
      rw [List.cons_append, gather_short hbs (by omega), hrest]
      rfl

/-- Of bytes that are there none but those asked for are touched, nor what comes after them. -/
lemma gather_whole (hd : d.Smooth) (hneed : need ≤ d.content.length) : ∃ rest : Delivery,
    rest.Smooth ∧ rest.content = d.content.drop need ∧
      ∀ more : Delivery, (d ++ more).gather need = (.ok (d.content.take need), rest ++ more) := by
  obtain ⟨rest, hgather, hrest, hcontent⟩ := gather_smooth hd need
  refine ⟨rest, hrest, hcontent, gather_append hgather ?_⟩
  rintro _ ⟨⟩
  exact List.length_take_of_le hneed

end Delivery

namespace Frame

/-! ## Headers -/

/-- The value of a hexadecimal digit of either case. -/
def digitValue? (b : UInt8) : Option Nat :=
  "0123456789abcdef".toList.idxOf? (Char.ofNat b.toNat).toLower

/-- Six digits stand at the front of some bytes, and to the base sixteen they make `size`. -/
def Announces (s : List UInt8) (size : Nat) : Prop :=
  ∃ digits : List Nat, (s.take headerLength).map digitValue? = digits.map some ∧
    digits.length = headerLength ∧ size = Nat.ofDigits 16 digits.reverse

lemma value?_byte (b : UInt8) :
    Text.Hexadecimal.value? (Char.ofNat b.toNat) = digitValue? b := by
  have hall : ∀ n < 256, Text.Hexadecimal.value? (Char.ofNat (UInt8.ofNat n).toNat) =
      digitValue? (UInt8.ofNat n) := by
    decide +kernel
  have hb := hall b.toNat b.toNat_lt
  rwa [b.ofNat_toNat] at hb

lemma numberFrom_eq_some {n m : Nat} {bytes : List UInt8} :
    Text.Hexadecimal.numberFrom n (bytes.map fun b => Char.ofNat b.toNat) = some m ↔
      ∃ digits : List Nat, bytes.map digitValue? = digits.map some ∧
        m = digits.foldl (fun n d => n * 16 + d) n := by
  induction bytes generalizing n with
  | nil =>
    constructor
    · rintro ⟨⟩
      exact ⟨[], rfl, rfl⟩
    · rintro ⟨digits, hdigits, rfl⟩
      obtain rfl : digits = [] := List.map_eq_nil_iff.1 hdigits.symm
      rfl
  | cons b bytes ih =>
    rw [List.map_cons, Text.Hexadecimal.numberFrom, value?_byte, Option.bind_eq_some_iff]
    constructor
    · rintro ⟨d, hd, hrest⟩
      obtain ⟨digits, hdigits, rfl⟩ := ih.1 hrest
      exact ⟨d :: digits, by rw [List.map_cons, hd, hdigits, List.map_cons], rfl⟩
    · rintro ⟨digits, hdigits, rfl⟩
      cases digits with
      | nil => cases hdigits
      | cons d digits =>
        obtain ⟨hd, hrest⟩ := List.cons.inj hdigits
        exact ⟨d, hd, ih.2 ⟨digits, hrest, rfl⟩⟩

lemma foldl_eq_ofDigits (digits : List Nat) :
    digits.foldl (fun n d => n * 16 + d) 0 = Nat.ofDigits 16 digits.reverse := by
  rw [Nat.ofDigits_eq_foldr, List.foldr_reverse]
  congr
  funext n d
  simp only [Nat.cast_id]
  omega

variable {coding : Coding} {s : List UInt8} {size : Nat} {d : Delivery}

lemma length_le_of_announces (h : Announces s size) : headerLength ≤ s.length := by
  obtain ⟨digits, hdigits, hlength, -⟩ := h
  have hmap := congrArg List.length hdigits
  rw [List.length_map, List.length_map, List.length_take] at hmap
  omega

/-- A header is the number that its digits make. -/
lemma parseHeader_eq_ok : parseHeader (s.take headerLength) = .ok size ↔ Announces s size := by
  constructor
  · intro h
    unfold parseHeader at h
    split at h
    · next hlength =>
      split at h
      · next n hn =>
        cases h
        obtain ⟨digits, hdigits, rfl⟩ := numberFrom_eq_some.1 hn
        have hmap := congrArg List.length hdigits
        rw [List.length_map, List.length_map, hlength] at hmap
        exact ⟨digits, hdigits, hmap.symm, foldl_eq_ofDigits digits⟩
      · cases h
    · cases h
  · intro h
    have hlength := length_le_of_announces h
    obtain ⟨digits, hdigits, -, rfl⟩ := h
    have hnumber := numberFrom_eq_some.2 ⟨digits, hdigits, (foldl_eq_ofDigits digits).symm⟩
    rw [parseHeader, if_pos (List.length_take_of_le hlength), hnumber]

lemma announces_unique {size' : Nat} (h : Announces s size) (h' : Announces s size') :
    size = size' := by
  have heq := (parseHeader_eq_ok.2 h).symm.trans (parseHeader_eq_ok.2 h')
  exact Except.ok.inj heq

lemma exists_digits_iff {bytes : List UInt8} :
    (∃ digits : List Nat, bytes.map digitValue? = digits.map some) ↔
      ∀ b ∈ bytes, digitValue? b ≠ none := by
  induction bytes with
  | nil => exact ⟨fun _ => by simp, fun _ => ⟨[], rfl⟩⟩
  | cons b bytes ih =>
    rw [List.forall_mem_cons, ← ih]
    constructor
    · rintro ⟨digits, hdigits⟩
      cases digits with
      | nil => cases hdigits
      | cons d digits =>
        obtain ⟨hd, hrest⟩ := List.cons.inj hdigits
        exact ⟨by rw [hd]; exact Option.some_ne_none d, digits, hrest⟩
    · rintro ⟨hb, digits, hdigits⟩
      obtain ⟨d, hd⟩ := Option.ne_none_iff_exists'.1 hb
      exact ⟨d :: digits, by rw [List.map_cons, hd, hdigits, List.map_cons]⟩

/-- Enough bytes for a header are one, or a byte among them is no digit. -/
lemma announces_or (hlength : headerLength ≤ s.length) :
    (∃ size, Announces s size) ∨
      (∃ b ∈ s.take headerLength, digitValue? b = none) ∧
        parseHeader (s.take headerLength) = .error (.invalidHeader (s.take headerLength)) := by
  by_cases hall : ∀ b ∈ s.take headerLength, digitValue? b ≠ none
  · left
    obtain ⟨digits, hdigits⟩ := exists_digits_iff.2 hall
    have hmap := congrArg List.length hdigits
    rw [List.length_map, List.length_map, List.length_take_of_le hlength] at hmap
    exact ⟨_, digits, hdigits, hmap.symm, rfl⟩
  · right
    push Not at hall
    refine ⟨hall, ?_⟩
    have hnone : Text.Hexadecimal.numberFrom 0
        ((s.take headerLength).map fun b => Char.ofNat b.toNat) = none := by
      rw [Option.eq_none_iff_forall_ne_some]
      intro n hn
      obtain ⟨digits, hdigits, -⟩ := numberFrom_eq_some.1 hn
      obtain ⟨b, hb, hb'⟩ := hall
      exact exists_digits_iff.1 ⟨digits, hdigits⟩ b hb hb'
    rw [parseHeader, if_pos (List.length_take_of_le hlength), hnone]

lemma not_announces_of_none (h : ∃ b ∈ s.take headerLength, digitValue? b = none) :
    ¬ Announces s size := by
  rintro ⟨digits, hdigits, -⟩
  obtain ⟨b, hb, hb'⟩ := h
  exact exists_digits_iff.1 ⟨digits, hdigits⟩ b hb hb'

/-! ## Messages -/

/-- A whole frame stands at the front of some bytes, and this is its payload. -/
def Bears (s payload : List UInt8) : Prop :=
  ∃ size, Announces s size ∧ size ≤ s.length - headerLength ∧
    payload = (s.drop headerLength).take size

/-- More bytes are wanted than there are. -/
def Wanting (s : List UInt8) : Prop :=
  s.length < headerLength ∨ ∃ size, Announces s size ∧ s.length < headerLength + size

/-- What some bytes are read as, and how many of them are taken. -/
structure Classified (coding : Coding) (s : List UInt8) (result : Except FramingError Sexp)
    (taken : Nat) : Prop where
  closed_iff : result = .error .closed ↔ s = []
  truncated_iff : ∀ expected received, result = .error (.truncated expected received) ↔
    (expected = headerLength ∧ received = s.length ∧ 0 < s.length ∧ s.length < headerLength) ∨
    (Announces s expected ∧ received = s.length - headerLength ∧ received < expected)
  invalidHeader_iff : ∀ bytes, result = .error (.invalidHeader bytes) ↔
    headerLength ≤ s.length ∧ bytes = s.take headerLength ∧ ∃ b ∈ bytes, digitValue? b = none
  decoding_iff : ∀ system, result = .error (.decoding system) ↔
    system = coding ∧ ∃ payload, Bears s payload ∧ ¬ ∃ text, coding.encode text = .ok payload
  malformed_iff : ∀ e, result = .error (.malformed e) ↔
    ∃ payload text, Bears s payload ∧ coding.encode text = .ok payload ∧
      Sexp.parse (Operator.expandText text) = .error e
  ok_iff : ∀ v, result = .ok v ↔
    ∃ payload text, Bears s payload ∧ coding.encode text = .ok payload ∧
      Sexp.parse (Operator.expandText text) = .ok v
  not_io : ∀ description, result ≠ .error (.io description)
  taken_truncated : ∀ expected received, result = .error (.truncated expected received) →
    taken = s.length
  taken_invalidHeader : ∀ bytes, result = .error (.invalidHeader bytes) → taken = headerLength
  taken_frame : ∀ payload, Bears s payload → taken = headerLength + payload.length

/-- What is read off some bytes, and how many of them are taken. -/
def readBytes (coding : Coding) (s : List UInt8) : Except FramingError Sexp × Nat :=
  if s = [] then (.error .closed, 0)
  else if s.length < headerLength then (.error (.truncated headerLength s.length), s.length)
  else match parseHeader (s.take headerLength) with
    | .error e => (.error e, headerLength)
    | .ok size =>
      if s.length - headerLength < size then
        (.error (.truncated size (s.length - headerLength)), s.length)
      else (message coding ((s.drop headerLength).take size), headerLength + size)

lemma bears_iff (hsize : Announces s size) (henough : size ≤ s.length - headerLength)
    {payload : List UInt8} : Bears s payload ↔ payload = (s.drop headerLength).take size := by
  constructor
  · rintro ⟨size', hsize', -, rfl⟩
    rw [announces_unique hsize hsize']
  · rintro rfl
    exact ⟨size, hsize, henough, rfl⟩

lemma not_bears_of_wanting (h : Wanting s) {payload : List UInt8} : ¬ Bears s payload := by
  rintro ⟨size, hsize, henough, -⟩
  have hlength := length_le_of_announces hsize
  rcases h with hshort | ⟨size', hsize', hshort⟩
  · omega
  · have heq := announces_unique hsize hsize'
    omega

section message

variable {payload : List UInt8}

lemma message_eq_decoding {system : Coding} : message coding payload = .error (.decoding system) ↔
    system = coding ∧ ¬ ∃ text, coding.encode text = .ok payload := by
  simp only [← Coding.decode_eq_some_iff, message]
  cases coding.decode payload with
  | none => simp [eq_comm]
  | some text => cases h : Sexp.parse (Operator.expandText text) <;> simp [h]

lemma message_eq_malformed {e : ReadError} : message coding payload = .error (.malformed e) ↔
    ∃ text, coding.encode text = .ok payload ∧
      Sexp.parse (Operator.expandText text) = .error e := by
  simp only [← Coding.decode_eq_some_iff, message]
  cases coding.decode payload with
  | none => simp
  | some text => cases h : Sexp.parse (Operator.expandText text) <;> simp [h]

lemma message_eq_ok {v : Sexp} : message coding payload = .ok v ↔
    ∃ text, coding.encode text = .ok payload ∧ Sexp.parse (Operator.expandText text) = .ok v := by
  simp only [← Coding.decode_eq_some_iff, message]
  cases coding.decode payload with
  | none => simp
  | some text => cases h : Sexp.parse (Operator.expandText text) <;> simp [h]

/-- Once its payload is there, nothing is wrong with a frame but its text. -/
lemma message_error {e : FramingError} (h : message coding payload = .error e) :
    e = .decoding coding ∨ ∃ e', e = .malformed e' := by
  unfold message at h
  split at h
  · cases h
    exact .inl rfl
  · split at h
    · next e' _ =>
      cases h
      exact .inr ⟨e', rfl⟩
    · cases h

end message

lemma classified_empty : Classified coding [] (.error .closed) 0 := by
  have hwanting : Wanting [] := .inl (by decide)
  have hannounces : ∀ size, ¬ Announces [] size := fun size h =>
    absurd (length_le_of_announces h) (by decide)
  have hbears : ∀ payload, ¬ Bears [] payload := fun payload => not_bears_of_wanting hwanting
  constructor <;> simp [hannounces, hbears, headerLength]

lemma classified_header (hempty : s ≠ []) (hshort : s.length < headerLength) :
    Classified coding s (.error (.truncated headerLength s.length)) s.length := by
  have hannounces : ∀ size, ¬ Announces s size := fun size h =>
    absurd (length_le_of_announces h) (Nat.not_le_of_lt hshort)
  have hbears : ∀ payload, ¬ Bears s payload := fun payload => not_bears_of_wanting (.inl hshort)
  have hpos : 0 < s.length := List.length_pos_iff.2 hempty
  constructor <;> simp [hannounces, hbears, hempty, hshort, hpos, eq_comm]

lemma classified_invalid (hlength : headerLength ≤ s.length)
    (hnone : ∃ b ∈ s.take headerLength, digitValue? b = none) :
    Classified coding s (.error (.invalidHeader (s.take headerLength))) headerLength := by
  have hannounces : ∀ size, ¬ Announces s size := fun size => not_announces_of_none hnone
  have hbears : ∀ payload, ¬ Bears s payload := fun payload ⟨size, h, _⟩ => hannounces size h
  have hempty : s ≠ [] := List.ne_nil_of_length_pos (Nat.lt_of_lt_of_le (by decide) hlength)
  constructor
  case invalidHeader_iff =>
    intro bytes
    constructor
    · rintro ⟨⟩
      exact ⟨hlength, rfl, hnone⟩
    · rintro ⟨-, rfl, -⟩
      rfl
  all_goals simp [hannounces, hbears, hempty, hlength]

lemma classified_short (hsize : Announces s size) (hshort : s.length - headerLength < size) :
    Classified coding s (.error (.truncated size (s.length - headerLength))) s.length := by
  have hlength := length_le_of_announces hsize
  have hempty : s ≠ [] := List.ne_nil_of_length_pos (Nat.lt_of_lt_of_le (by decide) hlength)
  have hbears : ∀ payload, ¬ Bears s payload := fun payload =>
    not_bears_of_wanting (.inr ⟨size, hsize, by omega⟩)
  have hdigits : ¬ ∃ b ∈ s.take headerLength, digitValue? b = none := fun h =>
    not_announces_of_none h hsize
  constructor
  case truncated_iff =>
    intro expected received
    constructor
    · rintro ⟨⟩
      exact .inr ⟨hsize, rfl, hshort⟩
    · rintro (⟨-, -, -, hlt⟩ | ⟨hexpected, rfl, -⟩)
      · exact absurd hlt (Nat.not_lt_of_le hlength)
      · rw [announces_unique hsize hexpected]
  case invalidHeader_iff =>
    intro bytes
    constructor
    · rintro ⟨⟩
    · rintro ⟨-, rfl, hnone⟩
      exact absurd hnone hdigits
  all_goals simp [hbears, hempty]

lemma classified_whole (hsize : Announces s size) (henough : size ≤ s.length - headerLength) :
    Classified coding s (message coding ((s.drop headerLength).take size))
      (headerLength + size) := by
  have hlength := length_le_of_announces hsize
  have hempty : s ≠ [] := List.ne_nil_of_length_pos (Nat.lt_of_lt_of_le (by decide) hlength)
  have hbears : ∀ payload, Bears s payload ↔ payload = (s.drop headerLength).take size :=
    fun payload => bears_iff hsize henough
  have hpayload : ((s.drop headerLength).take size).length = size := by
    rw [List.length_take, List.length_drop]
    omega
  have hdigits : ¬ ∃ b ∈ s.take headerLength, digitValue? b = none := fun h =>
    not_announces_of_none h hsize
  have hother : ∀ e, message coding ((s.drop headerLength).take size) = .error e →
      e = .decoding coding ∨ ∃ e', e = .malformed e' := fun e => message_error
  constructor
  case truncated_iff =>
    intro expected received
    constructor
    · intro h
      simpa using hother _ h
    · rintro (⟨-, -, -, hlt⟩ | ⟨hexpected, rfl, hlt⟩)
      · exact absurd hlt (Nat.not_lt_of_le hlength)
      · rw [announces_unique hexpected hsize] at hlt
        exact absurd henough (Nat.not_le_of_lt hlt)
  case invalidHeader_iff =>
    intro bytes
    constructor
    · intro h
      simpa using hother _ h
    · rintro ⟨-, rfl, hnone⟩
      exact absurd hnone hdigits
  case closed_iff => exact ⟨fun h => by simpa using hother _ h, fun h => absurd h hempty⟩
  case decoding_iff => simp [hbears, message_eq_decoding]
  case malformed_iff => simp [hbears, message_eq_malformed]
  case ok_iff => simp [hbears, message_eq_ok]
  case not_io => exact fun description h => by simpa using hother _ h
  case taken_truncated => exact fun expected received h => by simpa using hother _ h
  case taken_invalidHeader => exact fun bytes h => by simpa using hother _ h
  case taken_frame =>
    intro payload h
    rw [(hbears payload).1 h, hpayload]

lemma readBytes_classified (coding : Coding) (s : List UInt8) :
    Classified coding s (readBytes coding s).1 (readBytes coding s).2 := by
  by_cases hempty : s = []
  · rw [readBytes, if_pos hempty, hempty]
    exact classified_empty
  · by_cases hshort : s.length < headerLength
    · rw [readBytes, if_neg hempty, if_pos hshort]
      exact classified_header hempty hshort
    · have hlength : headerLength ≤ s.length := Nat.le_of_not_lt hshort
      rcases announces_or hlength with ⟨size, hsize⟩ | ⟨hnone, hheader⟩
      · rcases Nat.lt_or_ge (s.length - headerLength) size with hfew | henough
        · simp only [readBytes, if_neg hempty, if_neg hshort, parseHeader_eq_ok.2 hsize, if_pos hfew]
          exact classified_short hsize hfew
        · simp only [readBytes, if_neg hempty, if_neg hshort, parseHeader_eq_ok.2 hsize,
            if_neg (Nat.not_lt_of_le henough)]
          exact classified_whole hsize henough
      · simp only [readBytes, if_neg hempty, if_neg hshort, hheader]
        exact classified_invalid hlength hnone

/-! ## Reads -/

lemma read_of_short {digits : List UInt8} {rest : Delivery} (hshort : digits.length < headerLength)
    (h : d.gather headerLength = (.ok digits, rest)) :
    read coding d = ((readBytes coding digits).1, rest) := by
  cases digits with
  | nil => rw [read, h, readBytes, if_pos rfl]
  | cons b digits =>
    rw [readBytes, if_neg (List.cons_ne_nil b digits), if_pos hshort, read, h]
    exact if_pos hshort

lemma read_of_header (coding : Coding) {digits : List UInt8} {d' : Delivery}
    (hlength : digits.length = headerLength)
    (h : d.gather headerLength = (.ok digits, d')) :
    read coding d = match parseHeader digits with
      | .error e => (.error e, d')
      | .ok size => readPayload coding size d' := by
  cases digits with
  | nil => cases hlength
  | cons b digits =>
    rw [read, h]
    exact if_neg (Nat.not_lt_of_le (Nat.le_of_eq hlength.symm))

lemma readBytes_of_announces (coding : Coding) (hsize : Announces s size) : readBytes coding s =
    if s.length - headerLength < size then
      (.error (.truncated size (s.length - headerLength)), s.length)
    else (message coding ((s.drop headerLength).take size), headerLength + size) := by
  have hlength := length_le_of_announces hsize
  have hempty : s ≠ [] := List.ne_nil_of_length_pos (Nat.lt_of_lt_of_le (by decide) hlength)
  rw [readBytes, if_neg hempty, if_neg (Nat.not_lt_of_le hlength), parseHeader_eq_ok.2 hsize]

/-- A frame that is there, or a header that is none, is read off the front of any delivery. -/
lemma read_enough (coding : Coding) (hd : d.Smooth) (henough : ¬ Wanting d.content) :
    ∃ rest : Delivery, rest.Smooth ∧
      rest.content = d.content.drop (readBytes coding d.content).2 ∧
      ∀ more : Delivery, read coding (d ++ more) =
        ((readBytes coding d.content).1, rest ++ more) := by
  have hlength : headerLength ≤ d.content.length := Nat.le_of_not_lt fun h => henough (.inl h)
  obtain ⟨d', hd', hcontent', hheader⟩ := Delivery.gather_whole hd hlength
  have hread := fun more => read_of_header coding
    (List.length_take_of_le hlength) (hheader more)
  rcases announces_or hlength with ⟨size, hsize⟩ | ⟨-, hinvalid⟩
  · have hsuffices : headerLength + size ≤ d.content.length :=
      Nat.le_of_not_lt fun h => henough (.inr ⟨size, hsize, h⟩)
    have hpayload : size ≤ d'.content.length := by
      rw [hcontent', List.length_drop]
      omega
    obtain ⟨rest, hrest, hcontent, hgather⟩ := Delivery.gather_whole hd' hpayload
    rw [hcontent', List.length_drop] at hpayload
    have hbytes := readBytes_of_announces coding hsize
    rw [if_neg (Nat.not_lt_of_le hpayload)] at hbytes
    refine ⟨rest, hrest, by rw [hcontent, hcontent', List.drop_drop, hbytes], fun more => ?_⟩
    have hfull : ¬ ((d.content.drop headerLength).take size).length < size := by
      rw [List.length_take, List.length_drop]
      omega
    rw [hread, parseHeader_eq_ok.2 hsize, hbytes]
    simp only [readPayload, hgather, hcontent', if_neg hfull]
  · have hempty : d.content ≠ [] :=
      List.ne_nil_of_length_pos (Nat.lt_of_lt_of_le (by decide) hlength)
    have hbytes : readBytes coding d.content =
        (.error (.invalidHeader (d.content.take headerLength)), headerLength) := by
      rw [readBytes, if_neg hempty, if_neg (Nat.not_lt_of_le hlength), hinvalid]
    refine ⟨d', hd', by rw [hcontent', hbytes], fun more => ?_⟩
    rw [hread, hinvalid, hbytes]

/-- Where bytes are wanting, what comes after them decides: the end or a failure. -/
lemma read_wanting (coding : Coding) (hd : d.Smooth) (hwanting : Wanting d.content) :
    (∃ rest : Delivery, read coding d = ((readBytes coding d.content).1, rest) ∧ rest.Smooth ∧
      rest.content = d.content.drop (readBytes coding d.content).2) ∧
    ∀ (description : String) (after : Delivery),
      read coding (d ++ .failure description :: after) = (.error (.io description), after) := by
  by_cases hshort : d.content.length < headerLength
  · obtain ⟨rest, hgather, hrest, hcontent⟩ := Delivery.gather_smooth hd headerLength
    rw [List.take_of_length_le (Nat.le_of_lt hshort)] at hgather
    rw [List.drop_of_length_le (Nat.le_of_lt hshort)] at hcontent
    have htaken : (readBytes coding d.content).2 = d.content.length := by
      unfold readBytes
      split
      · next h => rw [h, List.length_nil]
      · rfl
    refine ⟨⟨rest, read_of_short hshort hgather, hrest, ?_⟩, fun description after => ?_⟩
    · rw [hcontent, htaken, List.drop_length]
    · rw [read, Delivery.gather_failure hd hshort]
  · obtain ⟨size, hsize, hfew⟩ := hwanting.resolve_left hshort
    have hlength : headerLength ≤ d.content.length := Nat.le_of_not_lt hshort
    obtain ⟨d', hd', hcontent', hheader⟩ := Delivery.gather_whole hd hlength
    have hread := fun more => read_of_header coding
      (List.length_take_of_le hlength) (hheader more)
    have hlength' : d'.content.length < size := by
      rw [hcontent', List.length_drop]
      omega
    have hbytes := readBytes_of_announces coding hsize
    rw [if_pos (by omega)] at hbytes
    constructor
    · obtain ⟨rest, hgather, hrest, hcontent⟩ := Delivery.gather_smooth hd' size
      rw [List.take_of_length_le (Nat.le_of_lt hlength')] at hgather
      refine ⟨rest, ?_, hrest, ?_⟩
      · have hall := hread []
        rw [List.append_nil, List.append_nil, parseHeader_eq_ok.2 hsize] at hall
        rw [hall, hbytes]
        rw [hcontent', List.length_drop] at hlength'
        simp only [readPayload, hgather, hcontent', List.length_drop, if_pos hlength']
      · rw [hcontent, List.drop_of_length_le (Nat.le_of_lt hlength'), hbytes, List.drop_length]
    · intro description after
      rw [hread, parseHeader_eq_ok.2 hsize]
      simp only [readPayload, Delivery.gather_failure hd' hlength']

/-- A result that does not tell of too few bytes is the same whatever arrives later. -/
theorem read_append {result : Except FramingError Sexp} {rest : Delivery}
    (h : read coding d = (result, rest)) (hclosed : result ≠ .error .closed)
    (htruncated : ∀ expected received, result ≠ .error (.truncated expected received))
    (more : Delivery) : read coding (d ++ more) = (result, rest ++ more) := by
  cases hgather : d.gather headerLength with
  | mk digits d' =>
    cases digits with
    | error description =>
      rw [read, hgather] at h
      cases h
      rw [read, Delivery.gather_append hgather (by simp) more]
    | ok digits =>
      have hle := Delivery.length_gather_le hgather
      by_cases hshort : digits.length < headerLength
      · -- the end of the stream, inside a header or before it
        rw [read_of_short hshort hgather] at h
        obtain ⟨rfl, -⟩ := Prod.mk.inj h
        unfold readBytes at hclosed htruncated
        split at hclosed
        · exact absurd rfl hclosed
        · next hempty =>
          rw [if_neg hempty, if_pos hshort] at htruncated
          exact absurd rfl (htruncated _ _)
      · have hlength : digits.length = headerLength := by omega
        have hheader := Delivery.gather_append hgather (by rintro _ ⟨⟩; exact hlength) more
        rw [read_of_header coding hlength hgather] at h
        rw [read_of_header coding hlength hheader]
        cases hparse : parseHeader digits with
        | error e =>
          rw [hparse] at h
          cases h
          rfl
        | ok size =>
          simp only [hparse, readPayload] at h ⊢
          cases hgather' : d'.gather size with
          | mk payload d'' =>
            rw [hgather'] at h
            cases payload with
            | error description =>
              cases h
              rw [Delivery.gather_append hgather' (by simp) more]
            | ok payload =>
              have hle' := Delivery.length_gather_le hgather'
              by_cases hfew : payload.length < size
              · simp only [if_pos hfew, Prod.mk.injEq] at h
                exact absurd h.1.symm (htruncated _ _)
              · have hall := Delivery.gather_append hgather'
                  (by rintro _ ⟨⟩; omega) more
                simp only [if_neg hfew, Prod.mk.injEq] at h
                obtain ⟨rfl, rfl⟩ := h
                simp only [hall, if_neg hfew]

lemma readAll_append {limit : Nat} {vs : List Sexp} {rest : Delivery}
    (h : readAll coding limit d = (vs, none, rest)) (more : Delivery) :
    readAll coding limit (d ++ more) = (vs, none, rest ++ more) := by
  induction limit generalizing d vs with
  | zero =>
    cases h
    rfl
  | succ limit ih =>
    rw [readAll] at h ⊢
    cases hread : read coding d with
    | mk result d' =>
      rw [hread] at h
      cases result with
      | error e => cases h
      | ok v =>
        rw [read_append hread (by simp) (by simp)]
        rcases hafter : readAll coding limit d' with ⟨ws, e, after⟩
        simp only [hafter] at h
        cases h
        simp only [ih hafter]

/-- Every sequence of bytes has one result and one number of bytes taken, however it is delivered. A
read that fails where bytes are wanting is the result instead, and nothing that comes after enough
bytes is touched. -/
theorem read_classified (coding : Coding) (s : List UInt8) :
    ∃ result taken, Classified coding s result taken ∧
      (∀ d : Delivery, d.Smooth → d.content = s →
        ∃ rest, read coding d = (result, rest) ∧ rest.Smooth ∧ rest.content = s.drop taken) ∧
      (∀ front : Delivery, front.Smooth → front.content = s → Wanting s →
        ∀ (description : String) (after : Delivery),
          read coding (front ++ .failure description :: after) =
            (.error (.io description), after)) ∧
      ∀ front : Delivery, front.Smooth → front.content = s → ¬ Wanting s →
        ∃ rest : Delivery, rest.Smooth ∧ rest.content = s.drop taken ∧
          ∀ more : Delivery, read coding (front ++ more) = (result, rest ++ more) := by
  refine ⟨_, _, readBytes_classified coding s, ?_, ?_, ?_⟩
  · rintro d hd rfl
    by_cases hwanting : Wanting d.content
    · exact (read_wanting coding hd hwanting).1
    · obtain ⟨rest, hrest, hcontent, hread⟩ := read_enough coding hd hwanting
      have hall := hread []
      rw [List.append_nil, List.append_nil] at hall
      exact ⟨rest, hall, hrest, hcontent⟩
  · rintro front hfront rfl hwanting
    exact (read_wanting coding hfront hwanting).2
  · rintro front hfront rfl henough
    exact read_enough coding hfront henough

/-- A header in capitals and a character of two bytes, both cut in two, and a connection that is
reset too early. -/
theorem read_classified_pieces :
    let frame := Text.Utf8.encode "00000C(:ping \"é\")".toList
    (∃ rest, read .utf8 [.bytes (frame.take 4), .interrupted, .bytes ((frame.drop 4).take 11),
        .interrupted, .bytes (frame.drop 15)] = (.ok (.list [.keyword "ping", .str "é"]), rest) ∧
      rest.content = []) ∧
    ∀ after, read .utf8 (.bytes (frame.take 10) :: .failure "reset" :: after) =
      (.error (.io "reset"), after) := by
  intro frame
  have hwhole : Announces frame 12 :=
    ⟨[0, 0, 0, 0, 0, 12], by decide +kernel, rfl, by decide⟩
  have hpart : Announces (frame.take 10) 12 :=
    ⟨[0, 0, 0, 0, 0, 12], by decide +kernel, rfl, by decide⟩
  constructor
  · obtain ⟨result, taken, hclassified, hread, -⟩ := read_classified .utf8 frame
    have hbears : Bears frame ((frame.drop headerLength).take 12) :=
      ⟨12, hwhole, by decide +kernel, rfl⟩
    have hresult : result = .ok (.list [.keyword "ping", .str "é"]) :=
      (hclassified.ok_iff _).2 ⟨_, "(:ping \"é\")", hbears, by decide +kernel, by decide +kernel⟩
    have htaken : frame.drop taken = [] := by
      rw [hclassified.taken_frame _ hbears]
      decide +kernel
    have hpieces : frame.take 4 ≠ [] ∧ (frame.drop 4).take 11 ≠ [] ∧ frame.drop 15 ≠ [] := by
      decide +kernel
    obtain ⟨rest, hrest, -, hcontent⟩ := hread [.bytes (frame.take 4), .interrupted,
      .bytes ((frame.drop 4).take 11), .interrupted, .bytes (frame.drop 15)]
      (by simp [Delivery.Smooth, hpieces]) (by decide +kernel)
    exact ⟨rest, hresult ▸ hrest, hcontent.trans htaken⟩
  · obtain ⟨result, taken, -, -, hfailure, -⟩ := read_classified .utf8 (frame.take 10)
    have hwanting : Wanting (frame.take 10) := .inr ⟨12, hpart, by decide +kernel⟩
    have hpiece : frame.take 10 ≠ [] := by
      decide +kernel
    exact hfailure [.bytes (frame.take 10)] (by simp [Delivery.Smooth, hpiece])
      (List.append_nil _) hwanting "reset"

end Frame

end EvalServer
