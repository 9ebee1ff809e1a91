import EvalServer.Frame.Basic
import Mathlib.Tactic.Lemma

/-!
# Payloads and headers survive the wire

What a coding system encodes it decodes to the same text, and it decodes nothing else; a header is
read as the length it was written for.
-/

namespace EvalServer

namespace Text.Utf8

/-! ## Bytes of a character

The bits of a character are cut into groups of six behind the bits of its leading byte. -/

lemma toNat_continuation : ∀ j, j < 64 → (UInt8.ofNat (0x80 + j)).toNat % 64 = j := by
  decide

lemma isContinuation_ofNat : ∀ j, j < 64 → isContinuation (UInt8.ofNat (0x80 + j)) = true := by
  decide

lemma continuations_succ (count code : Nat) {j : Nat} (hj : j < 64) (rest : List UInt8) :
    continuations (count + 1) code (UInt8.ofNat (0x80 + j) :: rest) =
      continuations count (code * 64 + j) rest := by
  rw [continuations, isContinuation_ofNat j hj, toNat_continuation j hj]
  rfl

lemma front_one {n : Nat} (hn : n < 0x80) (rest : List UInt8) :
    front (UInt8.ofNat n) rest = .char (Char.ofNat n) rest := by
  have hsmall : ∀ k, k < 0x80 → UInt8.ofNat k < 0x80 ∧ (UInt8.ofNat k).toNat = k := by decide
  obtain ⟨hlt, hnat⟩ := hsmall n hn
  rw [front, if_pos hlt, hnat]

/-- A leading byte with `count` continuation bytes, the first of which is within bounds. -/
lemma front_lead {b low high : UInt8} {count bits j : Nat} {rest : List UInt8}
    (hb : ¬ b < 0x80) (hlead : lead? b = some (count + 1, low, high))
    (hbits : leadBits b (count + 1) = bits) (hj : j < 64)
    (hlow : low ≤ UInt8.ofNat (0x80 + j)) (hhigh : UInt8.ofNat (0x80 + j) ≤ high) :
    front b (UInt8.ofNat (0x80 + j) :: rest) = continuations count (bits * 64 + j) rest := by
  have hbounds : (low ≤ UInt8.ofNat (0x80 + j) && UInt8.ofNat (0x80 + j) ≤ high) = true := by
    rw [decide_eq_true hlow, decide_eq_true hhigh, Bool.and_self]
  simp only [front, if_neg hb, hlead, hbounds, if_true, hbits, toNat_continuation j hj,
    Nat.add_sub_cancel]

lemma front_two {k j : Nat} (hk : 2 ≤ k) (hk' : k < 32) (hj : j < 64) (rest : List UInt8) :
    front (UInt8.ofNat (0xC0 + k)) (UInt8.ofNat (0x80 + j) :: rest) =
      .char (Char.ofNat (k * 64 + j)) rest := by
  have hlead : ∀ k, k < 32 → 2 ≤ k → ¬ UInt8.ofNat (0xC0 + k) < 0x80 ∧
      lead? (UInt8.ofNat (0xC0 + k)) = some (1, 0x80, 0xBF) ∧
      leadBits (UInt8.ofNat (0xC0 + k)) 1 = k := by decide
  have hbounds : ∀ j, j < 64 → 0x80 ≤ UInt8.ofNat (0x80 + j) ∧ UInt8.ofNat (0x80 + j) ≤ 0xBF := by
    decide
  obtain ⟨hb, hlead, hbits⟩ := hlead k hk' hk
  rw [front_lead hb hlead hbits hj (hbounds j hj).1 (hbounds j hj).2]
  rfl

lemma front_three {k j i : Nat} (hk : k < 16) (hj : j < 64) (hi : i < 64)
    (hshort : k = 0 → 32 ≤ j) (hsurrogate : k = 13 → j < 32) (rest : List UInt8) :
    front (UInt8.ofNat (0xE0 + k)) (UInt8.ofNat (0x80 + j) :: UInt8.ofNat (0x80 + i) :: rest) =
      .char (Char.ofNat ((k * 64 + j) * 64 + i)) rest := by
  have hlead : ∀ k, k < 16 → ¬ UInt8.ofNat (0xE0 + k) < 0x80 ∧
      lead? (UInt8.ofNat (0xE0 + k)) =
        some (2, if k = 0 then 0xA0 else 0x80, if k = 13 then 0x9F else 0xBF) ∧
      leadBits (UInt8.ofNat (0xE0 + k)) 2 = k := by decide
  have hlow : ∀ j, j < 64 → 0x80 ≤ UInt8.ofNat (0x80 + j) ∧
      (32 ≤ j → 0xA0 ≤ UInt8.ofNat (0x80 + j)) := by decide
  have hhigh : ∀ j, j < 64 → UInt8.ofNat (0x80 + j) ≤ 0xBF ∧
      (j < 32 → UInt8.ofNat (0x80 + j) ≤ 0x9F) := by decide
  obtain ⟨hb, hlead, hbits⟩ := hlead k hk
  rw [front_lead hb hlead hbits hj, continuations_succ 0 _ hi]
  · rfl
  · split
    · next h => exact (hlow j hj).2 (hshort h)
    · exact (hlow j hj).1
  · split
    · next h => exact (hhigh j hj).2 (hsurrogate h)
    · exact (hhigh j hj).1

lemma front_four {k j i h : Nat} (hk : k < 5) (hj : j < 64) (hi : i < 64) (hh : h < 64)
    (hshort : k = 0 → 16 ≤ j) (hlong : k = 4 → j < 16) (rest : List UInt8) :
    front (UInt8.ofNat (0xF0 + k)) (UInt8.ofNat (0x80 + j) :: UInt8.ofNat (0x80 + i) ::
        UInt8.ofNat (0x80 + h) :: rest) =
      .char (Char.ofNat (((k * 64 + j) * 64 + i) * 64 + h)) rest := by
  have hlead : ∀ k, k < 5 → ¬ UInt8.ofNat (0xF0 + k) < 0x80 ∧
      lead? (UInt8.ofNat (0xF0 + k)) =
        some (3, if k = 0 then 0x90 else 0x80, if k = 4 then 0x8F else 0xBF) ∧
      leadBits (UInt8.ofNat (0xF0 + k)) 3 = k := by decide
  have hlow : ∀ j, j < 64 → 0x80 ≤ UInt8.ofNat (0x80 + j) ∧
      (16 ≤ j → 0x90 ≤ UInt8.ofNat (0x80 + j)) := by decide
  have hhigh : ∀ j, j < 64 → UInt8.ofNat (0x80 + j) ≤ 0xBF ∧
      (j < 16 → UInt8.ofNat (0x80 + j) ≤ 0x8F) := by decide
  obtain ⟨hb, hlead, hbits⟩ := hlead k hk
  rw [front_lead hb hlead hbits hj, continuations_succ 1 _ hi, continuations_succ 0 _ hh]
  · rfl
  · split
    · next h => exact (hlow j hj).2 (hshort h)
    · exact (hlow j hj).1
  · split
    · next h => exact (hhigh j hj).2 (hlong h)
    · exact (hhigh j hj).1

lemma toNat_bounds (c : Char) : c.toNat < 0xD800 ∨ 0xDFFF < c.toNat ∧ c.toNat < 0x110000 :=
  c.valid

lemma front_encodeChar (c : Char) (rest : List UInt8) :
    ∃ b bytes, encodeChar c = b :: bytes ∧ front b (bytes ++ rest) = .char c rest := by
  have hbounds := toNat_bounds c
  have hc : Char.ofNat c.toNat = c := Char.ofNat_toNat c
  simp only [encodeChar]
  split
  · next h => exact ⟨_, _, rfl, by rw [List.nil_append, front_one h, hc]⟩
  · split
    · next h =>
      refine ⟨_, _, rfl, ?_⟩
      have hcode : c.toNat / 64 * 64 + c.toNat % 64 = c.toNat := by omega
      rw [List.cons_append, List.nil_append, front_two (by omega) (by omega) (by omega), hcode, hc]
    · split
      · next h =>
        refine ⟨_, _, rfl, ?_⟩
        have hcode : (c.toNat / 4096 * 64 + c.toNat / 64 % 64) * 64 + c.toNat % 64 = c.toNat := by
          omega
        rw [List.cons_append, List.cons_append, List.nil_append,
          front_three (by omega) (by omega) (by omega) (by omega) (by omega), hcode, hc]
      · refine ⟨_, _, rfl, ?_⟩
        have hcode : ((c.toNat / 262144 * 64 + c.toNat / 4096 % 64) * 64 + c.toNat / 64 % 64) * 64
            + c.toNat % 64 = c.toNat := by omega
        rw [List.cons_append, List.cons_append, List.cons_append, List.nil_append,
          front_four (by omega) (by omega) (by omega) (by omega) (by omega) (by omega), hcode, hc]

/-- Every text is read back from its bytes. -/
theorem decode?_encode (cs : List Char) : decode? (encode cs) = some cs := by
  induction cs with
  | nil => exact decode?_nil
  | cons c cs ih =>
    obtain ⟨b, bytes, hencode, hfront⟩ := front_encodeChar c (encode cs)
    change decode? (encodeChar c ++ encode cs) = _
    rw [hencode, List.cons_append, decode?_of_char hfront, ih]
    rfl

/-! ## Characters of bytes -/

lemma ofNat_add_sub {b : UInt8} {m : Nat} (hm : m ≤ b.toNat) :
    b = UInt8.ofNat (m + (b.toNat - m)) := by
  rw [Nat.add_sub_cancel' hm, b.ofNat_toNat]

lemma toNat_ofNat {n : Nat} (hn : n < 0xD800 ∨ 0xDFFF < n ∧ n < 0x110000) :
    (Char.ofNat n).toNat = n := by
  rw [Char.ofNat, dif_pos hn]
  rfl

lemma exists_continuation {b : UInt8} (hb : isContinuation b = true) :
    ∃ j < 64, b = UInt8.ofNat (0x80 + j) := by
  have hbounds : 0x80 ≤ b.toNat ∧ b.toNat ≤ 0xBF := by
    simpa [isContinuation, UInt8.le_iff_toNat_le] using hb
  exact ⟨b.toNat - 0x80, by omega, ofNat_add_sub hbounds.1⟩

/-- Which bytes lead others, and what bounds the first of those. -/
lemma lead?_cases {b : UInt8} {lead : Nat × UInt8 × UInt8} (h : lead? b = some lead) :
    (∃ k, 2 ≤ k ∧ k < 32 ∧ b = UInt8.ofNat (0xC0 + k) ∧ lead = (1, 0x80, 0xBF)) ∨
    (∃ k < 16, b = UInt8.ofNat (0xE0 + k) ∧
      lead = (2, if k = 0 then 0xA0 else 0x80, if k = 13 then 0x9F else 0xBF)) ∨
    ∃ k < 5, b = UInt8.ofNat (0xF0 + k) ∧
      lead = (3, if k = 0 then 0x90 else 0x80, if k = 4 then 0x8F else 0xBF) := by
  simp only [lead?, UInt8.lt_iff_toNat_lt, UInt8.toNat_inj.symm, UInt8.reduceToNat] at h
  have hlow : 0xC2 ≤ b.toNat ∧ b.toNat ≤ 0xF4 := by grind
  rcases Nat.lt_or_ge b.toNat 0xE0 with htwo | hthree
  · exact .inl ⟨b.toNat - 0xC0, by omega, by omega, ofNat_add_sub (by omega), by grind⟩
  · rcases Nat.lt_or_ge b.toNat 0xF0 with hthree' | hfour
    · exact .inr (.inl ⟨b.toNat - 0xE0, by omega, ofNat_add_sub hthree, by grind⟩)
    · exact .inr (.inr ⟨b.toNat - 0xF0, by omega, ofNat_add_sub hfour, by grind⟩)

lemma lead?_bounds {b low high : UInt8} {count : Nat} (h : lead? b = some (count, low, high)) :
    0x80 ≤ low.toNat ∧ high.toNat ≤ 0xBF := by
  rcases lead?_cases h with ⟨k, -, -, -, heq⟩ | ⟨k, -, -, heq⟩ | ⟨k, -, -, heq⟩
  · cases heq
    decide
  · cases heq
    constructor <;> split <;> decide
  · cases heq
    constructor <;> split <;> decide

lemma exists_continuations {count code : Nat} {bytes rest : List UInt8} {c : Char}
    (h : continuations (count + 1) code bytes = .char c rest) : ∃ j < 64, ∃ after,
      bytes = UInt8.ofNat (0x80 + j) :: after ∧
      continuations count (code * 64 + j) after = .char c rest := by
  cases bytes with
  | nil => cases h
  | cons b after =>
    by_cases hb : isContinuation b = true
    · obtain ⟨j, hj, rfl⟩ := exists_continuation hb
      rw [continuations_succ count code hj] at h
      exact ⟨j, hj, after, rfl, h⟩
    · rw [continuations, if_neg hb] at h
      cases h

/-- A character whose encoding has more bytes than one, with the first two of them. -/
lemma exists_front {b : UInt8} {bytes rest : List UInt8} {c : Char} (hb : ¬ b < 0x80)
    (h : front b bytes = .char c rest) : ∃ count low high, lead? b = some (count, low, high) ∧
      ∃ j < 64, low.toNat ≤ 0x80 + j ∧ 0x80 + j ≤ high.toNat ∧ ∃ after,
        bytes = UInt8.ofNat (0x80 + j) :: after ∧
        continuations (count - 1) (leadBits b count * 64 + j) after = .char c rest := by
  rw [front, if_neg hb] at h
  split at h
  · cases h
  · next count low high hlead =>
    split at h
    · cases h
    · next c₁ after =>
      split at h
      · next hwithin =>
        simp only [Bool.and_eq_true, decide_eq_true_eq, UInt8.le_iff_toNat_le] at hwithin
        obtain ⟨hlow, hhigh⟩ := lead?_bounds hlead
        have hc₁ : isContinuation c₁ = true := by
          simp only [isContinuation, Bool.and_eq_true, decide_eq_true_eq, UInt8.le_iff_toNat_le,
            UInt8.reduceToNat]
          omega
        obtain ⟨j, hj, rfl⟩ := exists_continuation hc₁
        have hnat : (UInt8.ofNat (0x80 + j)).toNat = 0x80 + j :=
          UInt8.toNat_ofNat_of_lt' (by change 0x80 + j < 256; omega)
        rw [hnat] at hwithin
        rw [toNat_continuation j hj] at h
        exact ⟨count, low, high, hlead, j, hj, hwithin.1, hwithin.2, after, rfl, h⟩
      · cases h

lemma leadBits_two : ∀ k, k < 32 → leadBits (UInt8.ofNat (0xC0 + k)) 1 = k := by
  decide

lemma leadBits_three : ∀ k, k < 16 → leadBits (UInt8.ofNat (0xE0 + k)) 2 = k := by
  decide

lemma leadBits_four : ∀ k, k < 5 → leadBits (UInt8.ofNat (0xF0 + k)) 3 = k := by
  decide

/-- The character at the front of some bytes is encoded as the bytes that are taken for it. -/
lemma encodeChar_front {b : UInt8} {bytes rest : List UInt8} {c : Char}
    (h : front b bytes = .char c rest) : encodeChar c ++ rest = b :: bytes := by
  by_cases hb : b < 0x80
  · rw [front, if_pos hb] at h
    cases h
    have hnat : b.toNat < 0x80 := hb
    simp only [encodeChar, toNat_ofNat (.inl (Nat.lt_trans hnat (by decide))), hnat, if_true,
      b.ofNat_toNat, List.singleton_append]
  · obtain ⟨count, low, high, hlead, j, hj, hlow, hhigh, after, rfl, hafter⟩ := exists_front hb h
    rcases lead?_cases hlead with ⟨k, hk, hk', rfl, heq⟩ | ⟨k, hk, rfl, heq⟩ | ⟨k, hk, rfl, heq⟩
    · cases heq
      rw [leadBits_two k hk'] at hafter
      cases hafter
      have hcode : (Char.ofNat (k * 64 + j)).toNat = k * 64 + j := toNat_ofNat (by omega)
      simp only [encodeChar, hcode]
      rw [if_neg (by omega), if_pos (by omega), show (k * 64 + j) / 64 = k by omega,
        show (k * 64 + j) % 64 = j by omega]
      rfl
    · cases heq
      rw [leadBits_three k hk] at hafter
      obtain ⟨i, hi, more, rfl, hmore⟩ := exists_continuations hafter
      cases hmore
      have hshort : k = 0 → 32 ≤ j := by
        rintro rfl
        have hlow : 0xA0 ≤ 0x80 + j := hlow
        omega
      have hsurrogate : k = 13 → j < 32 := by
        rintro rfl
        have hhigh : 0x80 + j ≤ 0x9F := hhigh
        omega
      have hcode : (Char.ofNat ((k * 64 + j) * 64 + i)).toNat = (k * 64 + j) * 64 + i :=
        toNat_ofNat (by omega)
      simp only [encodeChar, hcode]
      rw [if_neg (by omega), if_neg (by omega), if_pos (by omega),
        show ((k * 64 + j) * 64 + i) / 4096 = k by omega,
        show ((k * 64 + j) * 64 + i) / 64 % 64 = j by omega,
        show ((k * 64 + j) * 64 + i) % 64 = i by omega]
      rfl
    · cases heq
      rw [leadBits_four k hk] at hafter
      obtain ⟨i, hi, more, rfl, hmore⟩ := exists_continuations hafter
      obtain ⟨n, hn, last, rfl, hlast⟩ := exists_continuations hmore
      cases hlast
      have hshort : k = 0 → 16 ≤ j := by
        rintro rfl
        have hlow : 0x90 ≤ 0x80 + j := hlow
        omega
      have hlong : k = 4 → j < 16 := by
        rintro rfl
        have hhigh : 0x80 + j ≤ 0x8F := hhigh
        omega
      have hcode : (Char.ofNat (((k * 64 + j) * 64 + i) * 64 + n)).toNat =
          ((k * 64 + j) * 64 + i) * 64 + n := toNat_ofNat (by omega)
      simp only [encodeChar, hcode]
      rw [if_neg (by omega), if_neg (by omega), if_neg (by omega),
        show (((k * 64 + j) * 64 + i) * 64 + n) / 262144 = k by omega,
        show (((k * 64 + j) * 64 + i) * 64 + n) / 4096 % 64 = j by omega,
        show (((k * 64 + j) * 64 + i) * 64 + n) / 64 % 64 = i by omega,
        show (((k * 64 + j) * 64 + i) * 64 + n) % 64 = n by omega]
      rfl

/-- Only what a text is encoded as is read as that text. -/
theorem encode_of_decode? {bytes : List UInt8} {cs : List Char} (h : decode? bytes = some cs) :
    encode cs = bytes := by
  induction cs generalizing bytes with
  | nil =>
    cases bytes with
    | nil => rfl
    | cons b bytes =>
      cases hfront : front b bytes with
      | char c rest =>
        rw [decode?_of_char hfront] at h
        simp at h
      | illFormed rest =>
        rw [decode?_of_illFormed hfront] at h
        cases h
  | cons c cs ih =>
    cases bytes with
    | nil => simp at h
    | cons b bytes =>
      cases hfront : front b bytes with
      | char c' rest =>
        rw [decode?_of_char hfront, Option.map_eq_some_iff] at h
        obtain ⟨more, hmore, heq⟩ := h
        cases heq
        change encodeChar c ++ encode cs = _
        rw [ih hmore, encodeChar_front hfront]
      | illFormed rest =>
        rw [decode?_of_illFormed hfront] at h
        cases h

end Text.Utf8

namespace Coding

lemma decode_encodeLatin1 {cs : List Char} {bytes : List UInt8}
    (h : encodeLatin1 cs = .ok bytes) : bytes.map (fun b => Char.ofNat b.toNat) = cs := by
  unfold encodeLatin1 at h
  split at h
  · cases h
  · next hnone =>
    cases h
    rw [List.map_map, List.map_congr_left (g := id), List.map_id]
    intro c hc
    have hsmall : c.toNat < 256 := by simpa using List.find?_eq_none.1 hnone c hc
    change Char.ofNat (UInt8.ofNat c.toNat).toNat = c
    rw [UInt8.toNat_ofNat', Nat.mod_eq_of_lt hsmall, Char.ofNat_toNat]

theorem decode_encode {coding : Coding} {text : String} {bytes : List UInt8}
    (h : coding.encode text = .ok bytes) : coding.decode bytes = some text := by
  cases coding with
  | utf8 =>
    cases h
    rw [decode, Text.Utf8.decode?_encode, Option.map_some, String.ofList_toList]
  | latin1 =>
    rw [decode, decode_encodeLatin1 h, String.ofList_toList]

/-- Bytes are valid in a coding system if some text is encoded as them. -/
theorem decode_eq_some_iff {coding : Coding} {bytes : List UInt8} {text : String} :
    coding.decode bytes = some text ↔ coding.encode text = .ok bytes := by
  refine ⟨fun h => ?_, decode_encode⟩
  cases coding with
  | utf8 =>
    rw [decode, Option.map_eq_some_iff] at h
    obtain ⟨cs, hcs, rfl⟩ := h
    rw [encode, String.toList_ofList, Text.Utf8.encode_of_decode? hcs]
  | latin1 =>
    cases h
    have hsmall : ∀ b : UInt8, (Char.ofNat b.toNat).toNat = b.toNat := fun b =>
      Text.Utf8.toNat_ofNat (.inl (Nat.lt_trans b.toNat_lt (by decide)))
    have hnone : (bytes.map fun b => Char.ofNat b.toNat).find? (fun c => 256 ≤ c.toNat) = none := by
      rw [List.find?_eq_none]
      intro c hc
      obtain ⟨b, -, rfl⟩ := List.mem_map.1 hc
      have hb := b.toNat_lt
      simp only [hsmall, decide_eq_true_eq]
      omega
    rw [encode, encodeLatin1, String.toList_ofList, hnone, List.map_map]
    have hback : (fun c => UInt8.ofNat c.toNat) ∘ (fun b : UInt8 => Char.ofNat b.toNat) = id := by
      funext b
      simp only [Function.comp_apply, hsmall, b.ofNat_toNat, id_eq]
    simp only [hback, List.map_id]

end Coding

namespace Frame

lemma length_header (n : Nat) : (header n).length = headerLength := by
  rw [header, List.length_map, Text.Hexadecimal.length_digits]

lemma toNat_digit : ∀ d, d < 16 → Char.ofNat (UInt8.ofNat (Text.Hexadecimal.digit d).toNat).toNat =
    Text.Hexadecimal.digit d := by
  decide

lemma map_digits (count n : Nat) : (Text.Hexadecimal.digits count n).map
    (fun c => Char.ofNat (UInt8.ofNat c.toNat).toNat) = Text.Hexadecimal.digits count n := by
  induction count generalizing n with
  | zero => rfl
  | succ count ih =>
    rw [Text.Hexadecimal.digits, List.map_append, ih, List.map_singleton,
      toNat_digit _ (Nat.mod_lt _ (by decide))]

theorem parseHeader_header {n : Nat} (hn : n ≤ maxPayload) : parseHeader (header n) = .ok n := by
  have hread : Text.Hexadecimal.numberFrom 0 ((header n).map fun b => Char.ofNat b.toNat) =
      some n := by
    rw [header, List.map_map]
    refine (congrArg _ (map_digits headerLength n)).trans ?_
    rw [Text.Hexadecimal.numberFrom_digits]
    exact congrArg some (Nat.mod_eq_of_lt (Nat.lt_succ_of_le hn))
  rw [parseHeader, if_pos (length_header n), hread]

end Frame

end EvalServer
