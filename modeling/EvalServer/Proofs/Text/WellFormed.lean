import EvalServer.Proofs.Frame.Coding

/-!
# Well-formed bytes

A coding system is a bijection between the texts that it encodes and the bytes that it decodes.
Which texts and bytes these are is said without the coder: Latin-1 has the characters up to U+00FF
and any bytes; UTF-8 has any characters, and the bytes that are sequences of the shortest form for
code points of characters, one after another.
-/

namespace EvalServer

namespace Text.Utf8

/-! ## Sequences -/

/-- The bytes of a sequence and the code point in them. The high bits of the first byte say how many
of the form `10xxxxxx` follow, and the bits left over are those of the code point. -/
inductive Sequence : List UInt8 → Nat → Prop
  | one {a : Nat} : a < 0x80 → Sequence [.ofNat a] a
  | two {a b : Nat} : a < 32 → b < 64 →
    Sequence [.ofNat (0xC0 + a), .ofNat (0x80 + b)] (a * 64 + b)
  | three {a b c : Nat} : a < 16 → b < 64 → c < 64 →
    Sequence [.ofNat (0xE0 + a), .ofNat (0x80 + b), .ofNat (0x80 + c)] ((a * 64 + b) * 64 + c)
  | four {a b c d : Nat} : a < 8 → b < 64 → c < 64 → d < 64 →
    Sequence [.ofNat (0xF0 + a), .ofNat (0x80 + b), .ofNat (0x80 + c), .ofNat (0x80 + d)]
      (((a * 64 + b) * 64 + c) * 64 + d)

/-- The least code point that needs a sequence of some length. -/
def least : (length : Nat) → Nat
  | 0 | 1 => 0
  | 2 => 0x80
  | 3 => 0x800
  | _ => 0x10000

/-- A sequence of the shortest form, for the code point of a character. -/
structure Proper (bytes : List UInt8) (code : Nat) : Prop where
  sequence : Sequence bytes code
  shortest : least bytes.length ≤ code
  not_surrogate : ¬ (0xD800 ≤ code ∧ code ≤ 0xDFFF)
  bounded : code ≤ 0x10FFFF

/-- Bytes that are proper sequences one after another, and the code points in them. -/
inductive Spells : List UInt8 → List Nat → Prop
  | nil : Spells [] []
  | cons {bytes rest : List UInt8} {code : Nat} {codes : List Nat} :
    Proper bytes code → Spells rest codes → Spells (bytes ++ rest) (code :: codes)

def WellFormed (bytes : List UInt8) : Prop :=
  ∃ codes, Spells bytes codes

lemma sequence_encodeChar (c : Char) :
    Sequence (encodeChar c) c.toNat ∧ least (encodeChar c).length ≤ c.toNat := by
  have hbounds := toNat_bounds c
  simp only [encodeChar]
  generalize c.toNat = n at hbounds ⊢
  split
  · next hone => exact ⟨.one hone, Nat.zero_le n⟩
  · next hone =>
    split
    · next htwo =>
      refine ⟨?_, Nat.le_of_not_lt hone⟩
      have hsequence := Sequence.two (a := n / 64) (b := n % 64) (by omega) (by omega)
      rwa [show n / 64 * 64 + n % 64 = n by omega] at hsequence
    · next htwo =>
      split
      · next hthree =>
        refine ⟨?_, Nat.le_of_not_lt htwo⟩
        have hsequence := Sequence.three (a := n / 4096) (b := n / 64 % 64) (c := n % 64)
          (by omega) (by omega) (by omega)
        rwa [show (n / 4096 * 64 + n / 64 % 64) * 64 + n % 64 = n by omega] at hsequence
      · next hthree =>
        refine ⟨?_, Nat.le_of_not_lt hthree⟩
        have hsequence := Sequence.four (a := n / 262144) (b := n / 4096 % 64) (c := n / 64 % 64)
          (d := n % 64) (by omega) (by omega) (by omega) (by omega)
        rwa [show ((n / 262144 * 64 + n / 4096 % 64) * 64 + n / 64 % 64) * 64 + n % 64 = n
          by omega] at hsequence

lemma proper_encodeChar (c : Char) : Proper (encodeChar c) c.toNat := by
  have hbounds := toNat_bounds c
  obtain ⟨hsequence, hshortest⟩ := sequence_encodeChar c
  exact ⟨hsequence, hshortest, by omega, by omega⟩

lemma Proper.eq_encodeChar {bytes : List UInt8} {code : Nat} (h : Proper bytes code) :
    bytes = encodeChar (Char.ofNat code) ∧ (Char.ofNat code).toNat = code := by
  obtain ⟨hsequence, hshortest, hsurrogate, hbounded⟩ := h
  have hcode : (Char.ofNat code).toNat = code := toNat_ofNat (by omega)
  refine ⟨?_, hcode⟩
  simp only [encodeChar, hcode]
  cases hsequence with
  | one ha => rw [if_pos ha]
  | @two a b ha hb =>
    change 0x80 ≤ _ at hshortest
    rw [if_neg (by omega), if_pos (by omega), show (a * 64 + b) / 64 = a by omega,
      show (a * 64 + b) % 64 = b by omega]
  | @three a b c ha hb hc =>
    change 0x800 ≤ _ at hshortest
    rw [if_neg (by omega), if_neg (by omega), if_pos (by omega),
      show ((a * 64 + b) * 64 + c) / 4096 = a by omega,
      show ((a * 64 + b) * 64 + c) / 64 % 64 = b by omega,
      show ((a * 64 + b) * 64 + c) % 64 = c by omega]
  | @four a b c d ha hb hc hd =>
    change 0x10000 ≤ _ at hshortest
    rw [if_neg (by omega), if_neg (by omega), if_neg (by omega),
      show (((a * 64 + b) * 64 + c) * 64 + d) / 262144 = a by omega,
      show (((a * 64 + b) * 64 + c) * 64 + d) / 4096 % 64 = b by omega,
      show (((a * 64 + b) * 64 + c) * 64 + d) / 64 % 64 = c by omega,
      show (((a * 64 + b) * 64 + c) * 64 + d) % 64 = d by omega]

lemma spells_encode (cs : List Char) : Spells (encode cs) (cs.map Char.toNat) := by
  induction cs with
  | nil => exact .nil
  | cons c cs ih => exact .cons (proper_encodeChar c) ih

lemma Spells.eq_encode {bytes : List UInt8} {codes : List Nat} (h : Spells bytes codes) :
    ∃ cs, bytes = encode cs ∧ cs.map Char.toNat = codes := by
  induction h with
  | nil => exact ⟨[], rfl, rfl⟩
  | @cons _ _ code _ hproper _ ih =>
    obtain ⟨cs, rfl, rfl⟩ := ih
    obtain ⟨rfl, hcode⟩ := hproper.eq_encodeChar
    exact ⟨Char.ofNat code :: cs, rfl, by rw [List.map_cons, hcode]⟩

/-- Bytes are read as the characters whose code points they spell. -/
theorem decode?_eq_some_iff {bytes : List UInt8} {cs : List Char} :
    decode? bytes = some cs ↔ Spells bytes (cs.map Char.toNat) := by
  constructor
  · intro h
    rw [← encode_of_decode? h]
    exact spells_encode cs
  · intro h
    obtain ⟨others, rfl, hothers⟩ := h.eq_encode
    rw [decode?_encode, List.map_inj_right (fun _ _ => Char.toNat_inj.1) |>.1 hothers]

end Text.Utf8

namespace Coding

open Text.Utf8

lemma wide_eq_none_iff {cs : List Char} :
    cs.find? (fun c => 256 ≤ c.toNat) = none ↔ ∀ c ∈ cs, c.toNat ≤ 0xFF := by
  simp only [List.find?_eq_none, decide_eq_true_eq, Nat.not_le, Nat.lt_succ_iff]

lemma map_ofNat {cs : List Char} (hcs : ∀ c ∈ cs, c.toNat ≤ 0xFF) :
    (cs.map fun c => UInt8.ofNat c.toNat).map UInt8.toNat = cs.map Char.toNat := by
  rw [List.map_map, List.map_inj_left]
  exact fun c hc => UInt8.toNat_ofNat_of_lt' (Nat.lt_succ_of_le (hcs c hc))

lemma narrow_of_map {bytes : List UInt8} {cs : List Char}
    (h : bytes.map UInt8.toNat = cs.map Char.toNat) : ∀ c ∈ cs, c.toNat ≤ 0xFF := by
  intro c hc
  have hmem := List.mem_map_of_mem (f := Char.toNat) hc
  rw [← h] at hmem
  obtain ⟨b, -, hb⟩ := List.mem_map.1 hmem
  rw [← hb]
  exact Nat.le_of_lt_succ b.toNat_lt

/-- Latin-1 has one byte a character, with its code point. -/
lemma encodeLatin1_eq_ok_iff {cs : List Char} {bytes : List UInt8} :
    encodeLatin1 cs = .ok bytes ↔ bytes.map UInt8.toNat = cs.map Char.toNat := by
  unfold encodeLatin1
  constructor
  · intro h
    split at h
    · cases h
    · next hnone =>
      cases h
      exact map_ofNat (wide_eq_none_iff.1 hnone)
  · intro h
    have hnarrow := narrow_of_map h
    rw [wide_eq_none_iff.2 hnarrow]
    exact congrArg Except.ok
      ((List.map_inj_right fun _ _ => UInt8.toNat_inj.1).1 ((map_ofNat hnarrow).trans h.symm))

lemma encodeLatin1_eq_error_iff {cs : List Char} {e : EncodingError} :
    encodeLatin1 cs = .error e ↔ ∃ front c rest, cs = front ++ c :: rest ∧
      (∀ d ∈ front, d.toNat ≤ 0xFF) ∧ 0xFF < c.toNat ∧ e = .unrepresentable c .latin1 := by
  unfold encodeLatin1
  constructor
  · intro h
    split at h
    · next c hwide =>
      cases h
      obtain ⟨hc, front, rest, rfl, hfront⟩ := List.find?_eq_some_iff_append.1 hwide
      refine ⟨front, c, rest, rfl, fun d hd => ?_, Nat.lt_of_succ_le (of_decide_eq_true hc), rfl⟩
      simpa [Nat.lt_succ_iff] using hfront d hd
    · cases h
  · rintro ⟨front, c, rest, rfl, hfront, hc, rfl⟩
    have hwide : decide (256 ≤ c.toNat) = true := decide_eq_true hc
    rw [List.find?_append, wide_eq_none_iff.2 hfront, Option.none_or, List.find?_cons, hwide]

/-- The two halves of each coding system undo each other, wherever either is defined. -/
structure Inverse (text : String) (bytes : List UInt8) : Prop where
  utf8_text : ∃ encoded, utf8.encode text = .ok encoded ∧ utf8.decode encoded = some text
  utf8_decodes : (∃ decoded, utf8.decode bytes = some decoded) ↔ WellFormed bytes
  utf8_bytes : ∀ decoded, utf8.decode bytes = some decoded →
    Spells bytes (decoded.toList.map Char.toNat) ∧ utf8.encode decoded = .ok bytes
  latin1_encodes : (∃ encoded, latin1.encode text = .ok encoded) ↔
    ∀ c ∈ text.toList, c.toNat ≤ 0xFF
  /-- The first character that has no byte is named. -/
  latin1_fails : ∀ e, latin1.encode text = .error e ↔ ∃ front c rest,
    text.toList = front ++ c :: rest ∧ (∀ d ∈ front, d.toNat ≤ 0xFF) ∧ 0xFF < c.toNat ∧
      e = .unrepresentable c .latin1
  latin1_text : ∀ encoded, latin1.encode text = .ok encoded →
    encoded.map UInt8.toNat = text.toList.map Char.toNat ∧ latin1.decode encoded = some text
  latin1_bytes : ∃ decoded, latin1.decode bytes = some decoded ∧
    latin1.encode decoded = .ok bytes

lemma decode_utf8_eq_some_iff {bytes : List UInt8} {text : String} :
    utf8.decode bytes = some text ↔ Spells bytes (text.toList.map Char.toNat) := by
  rw [decode_eq_some_iff, encode, Except.ok.injEq, ← decode?_eq_some_iff]
  exact ⟨fun h => h ▸ decode?_encode _, encode_of_decode?⟩

theorem coders_inverse (text : String) (bytes : List UInt8) : Inverse text bytes where
  utf8_text := ⟨_, rfl, decode_encode rfl⟩
  utf8_decodes := by
    constructor
    · rintro ⟨decoded, h⟩
      exact ⟨_, decode_utf8_eq_some_iff.1 h⟩
    · rintro ⟨codes, h⟩
      obtain ⟨cs, rfl, -⟩ := h.eq_encode
      exact ⟨String.ofList cs, decode_eq_some_iff.2 (by rw [encode, String.toList_ofList])⟩
  utf8_bytes decoded h := ⟨decode_utf8_eq_some_iff.1 h, decode_eq_some_iff.1 h⟩
  latin1_encodes := by
    constructor
    · rintro ⟨encoded, h⟩
      exact narrow_of_map (encodeLatin1_eq_ok_iff.1 h)
    · intro hnarrow
      exact ⟨_, encodeLatin1_eq_ok_iff.2 (map_ofNat hnarrow)⟩
  latin1_fails _ := encodeLatin1_eq_error_iff
  latin1_text _ h := ⟨encodeLatin1_eq_ok_iff.1 h, decode_encode h⟩
  latin1_bytes := ⟨_, rfl, decode_eq_some_iff.1 rfl⟩

end Coding

end EvalServer
