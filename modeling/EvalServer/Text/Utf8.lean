/-!
# UTF-8

Decoding of bytes as UTF-8, strictly and with replacement. `front` is the one rule both share: it
takes the first character, or a maximal ill-formed part, off a byte list. `decode?_of_char` and
`decode?_of_illFormed` say how the text of bytes follows from what stands at their front.
-/

namespace EvalServer.Text.Utf8

/-- What stands at the front of a non-empty byte list. -/
inductive Front where
  | char (c : Char) (rest : List UInt8)
  /-- Bytes that no well-formed sequence starts with, up to the first byte that does not fit. -/
  | illFormed (rest : List UInt8)

/-- A byte of the form `10xxxxxx`. -/
def isContinuation (b : UInt8) : Bool :=
  0x80 ≤ b && b ≤ 0xBF

/-- The number of continuation bytes after a leading byte, and the bounds of the first of them. -/
def lead? (b : UInt8) : Option (Nat × UInt8 × UInt8) :=
  if b < 0xC2 then none
  else if b < 0xE0 then some (1, 0x80, 0xBF)
  else if b = 0xE0 then some (2, 0xA0, 0xBF)
  else if b = 0xED then some (2, 0x80, 0x9F)
  else if b < 0xF0 then some (2, 0x80, 0xBF)
  else if b = 0xF0 then some (3, 0x90, 0xBF)
  else if b < 0xF4 then some (3, 0x80, 0xBF)
  else if b = 0xF4 then some (3, 0x80, 0x8F)
  else none

/-- The payload bits of a leading byte that `count` continuation bytes follow. -/
def leadBits (b : UInt8) (count : Nat) : Nat :=
  b.toNat % (64 >>> count)

/-- Takes `count` continuation bytes more onto the code point read so far. -/
def continuations : Nat → Nat → List UInt8 → Front
  | 0, code, rest => .char (Char.ofNat code) rest
  | count + 1, code, b :: rest =>
    if isContinuation b then continuations count (code * 64 + b.toNat % 64) rest
    else .illFormed (b :: rest)
  | _ + 1, _, [] => .illFormed []

/-- The character or the ill-formed part at the front of `b :: rest`. -/
def front (b : UInt8) (rest : List UInt8) : Front :=
  if b < 0x80 then .char (Char.ofNat b.toNat) rest
  else match lead? b with
    | none => .illFormed rest
    | some (count, low, high) =>
      match rest with
      | [] => .illFormed []
      | c :: after =>
        if low ≤ c && c ≤ high then
          continuations (count - 1) (leadBits b count * 64 + c.toNat % 64) after
        else .illFormed rest

theorem continuations_shorter (count code : Nat) (bytes : List UInt8) :
    (∀ c rest, continuations count code bytes = .char c rest → rest.length ≤ bytes.length) ∧
    (∀ rest, continuations count code bytes = .illFormed rest → rest.length ≤ bytes.length) := by
  induction count generalizing code bytes with
  | zero => simp [continuations]
  | succ count ih =>
    cases bytes with
    | nil => simp [continuations]
    | cons b rest =>
      by_cases hb : isContinuation b
      · have := ih (code * 64 + b.toNat % 64) rest
        simp only [continuations, hb, if_true, List.length_cons]
        exact ⟨fun c r h => Nat.le_succ_of_le (this.1 c r h),
          fun r h => Nat.le_succ_of_le (this.2 r h)⟩
      · simp [continuations, hb]

/-- The front of a byte list takes at least its first byte. -/
theorem front_shorter (b : UInt8) (bytes : List UInt8) :
    (∀ c rest, front b bytes = .char c rest → rest.length ≤ bytes.length) ∧
    (∀ rest, front b bytes = .illFormed rest → rest.length ≤ bytes.length) := by
  unfold front
  split
  · simp
  · split
    · simp
    · next count low high _ =>
      split
      · simp
      · next c after =>
        split
        · have := continuations_shorter (count - 1) (leadBits b count * 64 + c.toNat % 64) after
          exact ⟨fun d r h => Nat.le_succ_of_le (this.1 d r h),
            fun r h => Nat.le_succ_of_le (this.2 r h)⟩
        · simp

/-- The text of well-formed bytes behind the characters of `read`, which stand in reverse. -/
def decodeOnto? (read : List Char) : List UInt8 → Option (List Char)
  | [] => some read.reverse
  | b :: bytes =>
    match _h : front b bytes with
    | .char c rest => decodeOnto? (c :: read) rest
    | .illFormed _ => none
termination_by bytes => bytes.length
decreasing_by
  have := (front_shorter b bytes).1 c rest _h
  simp only [List.length_cons]
  omega

/-- The text of well-formed bytes, and nothing for any others. -/
def decode? (bytes : List UInt8) : Option (List Char) :=
  decodeOnto? [] bytes

/-- What was read before stands in front of the text of the bytes. -/
theorem decodeOnto?_eq (read : List Char) (bytes : List UInt8) :
    decodeOnto? read bytes = (decode? bytes).map (read.reverse ++ ·) := by
  suffices h : ∀ more, decodeOnto? (more ++ read) bytes
      = (decodeOnto? more bytes).map (read.reverse ++ ·) from h []
  intro more
  fun_induction decodeOnto? more bytes with
  | case1 more => simp [decodeOnto?]
  | case2 more b bytes c rest h ih =>
    rw [decodeOnto?]
    split
    · next h' => simp_all
    · next h' => simp_all
  | case3 more b bytes rest h =>
    rw [decodeOnto?]
    split
    · next h' => simp_all
    · rfl

@[simp] theorem decode?_nil : decode? [] = some [] := by
  simp [decode?, decodeOnto?]

theorem decode?_of_char {b : UInt8} {bytes rest : List UInt8} {c : Char}
    (h : front b bytes = .char c rest) : decode? (b :: bytes) = (decode? rest).map (c :: ·) := by
  rw [decode?, decodeOnto?]
  split
  · next c' rest' h' =>
    obtain ⟨rfl, rfl⟩ : c' = c ∧ rest' = rest := by simp_all
    simp [decodeOnto?_eq]
  · next h' => simp_all

theorem decode?_of_illFormed {b : UInt8} {bytes rest : List UInt8}
    (h : front b bytes = .illFormed rest) : decode? (b :: bytes) = none := by
  rw [decode?, decodeOnto?]
  split
  · next h' => simp_all
  · rfl

/-- The text of any bytes behind the characters of `read`, which stand in reverse. -/
def decodeLossyOnto (read : List Char) : List UInt8 → List Char
  | [] => read.reverse
  | b :: bytes =>
    match _h : front b bytes with
    | .char c rest => decodeLossyOnto (c :: read) rest
    | .illFormed rest => decodeLossyOnto (Char.ofNat 0xFFFD :: read) rest
termination_by bytes => bytes.length
decreasing_by
  · have := (front_shorter b bytes).1 c rest _h
    simp only [List.length_cons]
    omega
  · have := (front_shorter b bytes).2 rest _h
    simp only [List.length_cons]
    omega

/-- The text of any bytes, with U+FFFD in place of each maximal ill-formed part. -/
def decodeLossy (bytes : List UInt8) : List Char :=
  decodeLossyOnto [] bytes

def encodeChar (c : Char) : List UInt8 :=
  let n := c.toNat
  if n < 0x80 then [UInt8.ofNat n]
  else if n < 0x800 then [UInt8.ofNat (0xC0 + n / 64), UInt8.ofNat (0x80 + n % 64)]
  else if n < 0x10000 then
    [UInt8.ofNat (0xE0 + n / 4096), UInt8.ofNat (0x80 + n / 64 % 64), UInt8.ofNat (0x80 + n % 64)]
  else
    [UInt8.ofNat (0xF0 + n / 262144), UInt8.ofNat (0x80 + n / 4096 % 64),
     UInt8.ofNat (0x80 + n / 64 % 64), UInt8.ofNat (0x80 + n % 64)]

def encode (cs : List Char) : List UInt8 :=
  cs.flatMap encodeChar

end EvalServer.Text.Utf8
