import EvalServer.Frame.Delivery
import EvalServer.Proofs.Frame.Coding
import EvalServer.Proofs.Frame.Operator
import Mathlib.Data.List.Forall2

/-!
# Frames of a stream

A delivery that only brings bytes, in whatever pieces and with whatever interruptions, is as good
as its bytes: `gather` takes what it is asked for off their front. So reading takes one frame after
another off the frames of any values, and says in the end that the stream is closed.
-/

namespace EvalServer

namespace Delivery

/-- The bytes that are still to come. -/
def content : Delivery → List UInt8
  | [] => []
  | .bytes bs :: rest => bs ++ content rest
  | .interrupted :: rest => content rest
  | .failure _ :: rest => content rest

/-- No read fails, and none tells of an end before the last bytes have come. -/
def Smooth (d : Delivery) : Prop :=
  ∀ a ∈ d, a = .interrupted ∨ ∃ bs, a = .bytes bs ∧ bs ≠ []

lemma smooth_putBack {d : Delivery} (hd : d.Smooth) (bs : List UInt8) : (putBack bs d).Smooth := by
  unfold putBack
  split
  · exact hd
  · next hbs => exact List.forall_mem_cons.2 ⟨.inr ⟨bs, rfl, by simpa using hbs⟩, hd⟩

lemma content_putBack (bs : List UInt8) (d : Delivery) :
    (putBack bs d).content = bs ++ d.content := by
  unfold putBack
  split
  · next hbs => rw [List.isEmpty_iff.1 hbs, List.nil_append]
  · rfl

lemma gather_enough {need : Nat} (hneed : need ≠ 0) {bs : List UInt8} (h : need ≤ bs.length)
    (d : Delivery) :
    gather need (.bytes bs :: d) = (.ok (bs.take need), putBack (bs.drop need) d) := by
  have hbs : bs ≠ [] := by
    rintro rfl
    exact hneed (Nat.le_zero.1 h)
  rw [gather, if_neg hneed, if_pos h]
  exact hbs

lemma gather_short {need : Nat} {bs : List UInt8} (hbs : bs ≠ []) (h : bs.length < need)
    (d : Delivery) : gather need (.bytes bs :: d) =
      ((gather (need - bs.length) d).1.map (bs ++ ·), (gather (need - bs.length) d).2) := by
  rw [gather, if_neg (Nat.ne_zero_of_lt h), if_neg (Nat.not_le_of_lt h)]
  exact hbs

/-- What is gathered is taken off the bytes to come, however they come. -/
lemma gather_smooth {d : Delivery} (hd : d.Smooth) (need : Nat) :
    ∃ rest, d.gather need = (.ok (d.content.take need), rest) ∧ rest.Smooth ∧
      rest.content = d.content.drop need := by
  induction d generalizing need with
  | nil => exact ⟨[], by simp [gather, content], hd, by simp [content]⟩
  | cons a d ih =>
    obtain ⟨ha, hd'⟩ := List.forall_mem_cons.1 hd
    by_cases hneed : need = 0
    · subst hneed
      exact ⟨a :: d, by simp [gather], hd, rfl⟩
    · rcases ha with rfl | ⟨bs, rfl, hbs⟩
      · obtain ⟨rest, hgather, hrest, hcontent⟩ := ih hd' need
        exact ⟨rest, by rw [gather, if_neg hneed, hgather]; rfl, hrest, hcontent⟩
      · rcases Nat.lt_or_ge bs.length need with hshort | henough
        -- what a short read leaves to gather comes with the next ones
        · obtain ⟨rest, hgather, hrest, hcontent⟩ := ih hd' (need - bs.length)
          refine ⟨rest, ?_, hrest, ?_⟩
          · rw [gather_short hbs hshort, hgather, content, List.take_append,
              List.take_of_length_le (Nat.le_of_lt hshort)]
            rfl
          · rw [hcontent, content, List.drop_append, List.drop_eq_nil_of_le (Nat.le_of_lt hshort),
              List.nil_append]
        · refine ⟨_, ?_, smooth_putBack hd' (bs.drop need), ?_⟩
          · rw [gather_enough hneed henough, content, List.take_append_of_le_length henough]
          · rw [content_putBack, content, List.drop_append_of_le_length henough]

end Delivery

namespace Frame

variable {coding : Coding} {v : Sexp} {frame more : List UInt8} {d : Delivery}

lemma exists_payload (h : encode coding v = .ok frame) :
    ∃ payload, coding.encode v.print = .ok payload ∧ payload.length ≤ maxPayload ∧
      frame = header payload.length ++ payload := by
  unfold encode at h
  split at h
  · cases h
  · next payload hpayload =>
    simp only [ofPayload] at h
    split at h
    · next hsize =>
      cases h
      exact ⟨payload, hpayload, hsize, rfl⟩
    · cases h

lemma message_payload (hv : v.Readable) {payload : List UInt8}
    (h : coding.encode v.print = .ok payload) : message coding payload = .ok (shim v) := by
  rw [message, Coding.decode_encode h]
  simp only [Operator.parse_expandText hv]

/-- One read takes exactly one frame. -/
theorem read_frame (hv : v.Readable) (hframe : encode coding v = .ok frame) (hd : d.Smooth)
    (hcontent : d.content = frame ++ more) :
    ∃ rest, read coding d = (.ok (shim v), rest) ∧ rest.Smooth ∧ rest.content = more := by
  obtain ⟨payload, hpayload, hsize, rfl⟩ := exists_payload hframe
  have hlength := length_header payload.length
  rw [List.append_assoc] at hcontent
  -- first the header, then as many bytes as it tells
  obtain ⟨d', hgather, hd', hcontent'⟩ := Delivery.gather_smooth hd headerLength
  rw [hcontent, List.take_left' hlength] at hgather
  rw [hcontent, List.drop_left' hlength] at hcontent'
  obtain ⟨rest, hgather', hrest, hmore⟩ := Delivery.gather_smooth hd' payload.length
  rw [hcontent', List.take_left] at hgather'
  rw [hcontent', List.drop_left] at hmore
  refine ⟨rest, ?_, hrest, hmore⟩
  have hread : readPayload coding payload.length d' = (.ok (shim v), rest) := by
    rw [readPayload, hgather']
    simp only [Nat.lt_irrefl, if_false, message_payload hv hpayload]
  obtain ⟨b, bytes, hbytes⟩ := List.exists_cons_of_ne_nil
    (List.ne_nil_of_length_pos (l := header payload.length) (by rw [hlength]; decide))
  rw [read, hgather, hbytes]
  simp only [← hbytes, hlength, Nat.lt_irrefl, if_false, parseHeader_header hsize]
  exact hread

lemma read_closed (coding : Coding) (hd : d.Smooth) (hcontent : d.content = []) :
    ∃ rest, read coding d = (.error .closed, rest) ∧ rest.Smooth ∧ rest.content = [] := by
  obtain ⟨rest, hgather, hrest, hmore⟩ := Delivery.gather_smooth hd headerLength
  rw [hcontent, List.take_nil] at hgather
  rw [hcontent, List.drop_nil] at hmore
  exact ⟨rest, by rw [read, hgather], hrest, hmore⟩

/-- Reading goes on where it has stopped. -/
lemma readAll_add {n : Nat} {vs : List Sexp} {rest : Delivery}
    (h : readAll coding n d = (vs, none, rest)) (m : Nat) : readAll coding (n + m) d =
      (vs ++ (readAll coding m rest).1, (readAll coding m rest).2) := by
  induction n generalizing d vs with
  | zero =>
    cases h
    rw [Nat.zero_add, List.nil_append]
  | succ n ih =>
    rw [Nat.succ_add, readAll]
    rw [readAll] at h
    cases hread : read coding d with
    | mk result d' =>
      rw [hread] at h
      cases result with
      | error e => cases h
      | ok v =>
        rcases hafter : readAll coding n d' with ⟨ws, e, after⟩
        simp only [hafter] at h
        cases h
        simp only [ih hafter]
        rfl

lemma readAll_take {vs : List Sexp} {frames : List (List UInt8)} (hvs : ∀ v ∈ vs, v.Readable)
    (hframes : List.Forall₂ (fun v frame => encode coding v = .ok frame) vs frames)
    (hd : d.Smooth) (hcontent : d.content = frames.flatten) {i : Nat} (hi : i ≤ vs.length) :
    ∃ rest, readAll coding i d = ((vs.take i).map shim, none, rest) ∧ rest.Smooth ∧
      rest.content = (frames.drop i).flatten := by
  induction hframes generalizing i d with
  | nil =>
    obtain rfl : i = 0 := Nat.le_zero.1 hi
    exact ⟨d, rfl, hd, hcontent⟩
  | @cons v frame vs frames hframe _ ih =>
    cases i with
    | zero => exact ⟨d, rfl, hd, hcontent⟩
    | succ i =>
      obtain ⟨hv, hvs⟩ := List.forall_mem_cons.1 hvs
      obtain ⟨d', hread, hd', hcontent'⟩ := read_frame hv hframe hd hcontent
      obtain ⟨rest, hall, hrest⟩ := ih hvs hd' hcontent' (Nat.le_of_succ_le_succ hi)
      refine ⟨rest, ?_, hrest⟩
      simp only [readAll, hread, hall]
      rfl

/-- The frames of values that read as printed are read one by one, however they are delivered: each
call takes exactly one of them and gives its value with the operator's package rewritten, and after
the last the stream is closed. -/
theorem readAll_frames (coding : Coding) {vs : List Sexp} {frames : List (List UInt8)} {d : Delivery}
    (hvs : ∀ v ∈ vs, Sexp.parse v.print = .ok v)
    (hframes : List.Forall₂ (fun v frame => encode coding v = .ok frame) vs frames)
    (hd : d.Smooth) (hcontent : d.content = frames.flatten) :
    (∀ i ≤ vs.length, ∃ rest, readAll coding i d = ((vs.take i).map shim, none, rest) ∧
      rest.content = (frames.drop i).flatten) ∧
    ∃ rest, readAll coding (vs.length + 1) d = (vs.map shim, some .closed, rest) ∧
      rest.content = [] := by
  have htake := fun {i} => readAll_take (i := i) (fun v hv => Sexp.readable_of_parse (hvs v hv))
    hframes hd hcontent
  refine ⟨fun i hi => ?_, ?_⟩
  · obtain ⟨rest, hall, -, hrest⟩ := htake hi
    exact ⟨rest, hall, hrest⟩
  · obtain ⟨d', hall, hd', hcontent'⟩ := htake (Nat.le_refl _)
    rw [List.take_length] at hall
    rw [List.drop_eq_nil_of_le (Nat.le_of_eq hframes.length_eq.symm), List.flatten_nil] at hcontent'
    obtain ⟨rest, hread, -, hrest⟩ := read_closed coding hd' hcontent'
    refine ⟨rest, ?_, hrest⟩
    rw [readAll_add hall 1, readAll, hread, List.append_nil]

/-- Two frames in three pieces, the second of which ends inside a character. -/
theorem readAll_frames_split :
    let first := header 19 ++ Text.Utf8.encode "(:emacs-rex (ab:c))".toList
    let second := header 4 ++ Text.Utf8.encode "\"é\"".toList
    ∃ rest, readAll .utf8 3 [.bytes (first.take 5), .interrupted,
        .bytes (first.drop 5 ++ second.take 8), .interrupted, .interrupted,
        .bytes (second.drop 8)] =
      ([.list [.keyword "emacs-rex", .list [.symbol "ab/c"]], .str "é"], some .closed, rest) ∧
      rest.content = [] := by
  intro first second
  have hvs : ∀ v ∈ [Sexp.list [.keyword "emacs-rex", .list [.symbol "ab:c"]], .str "é"],
      Sexp.parse v.print = .ok v := by
    decide +kernel
  have hfirst : encode .utf8 (.list [.keyword "emacs-rex", .list [.symbol "ab:c"]]) = .ok first := by
    decide +kernel
  have hsecond : encode .utf8 (.str "é") = .ok second := by
    decide +kernel
  have hpieces : first.take 5 ≠ [] ∧ first.drop 5 ++ second.take 8 ≠ [] ∧ second.drop 8 ≠ [] := by
    decide +kernel
  have hshim : ([.list [.keyword "emacs-rex", .list [.symbol "ab:c"]], .str "é"] : List Sexp).map shim =
      [.list [.keyword "emacs-rex", .list [.symbol "ab/c"]], .str "é"] := by
    decide +kernel
  rw [← hshim]
  refine (readAll_frames .utf8 hvs (.cons hfirst (.cons hsecond .nil)) ?_ ?_).2
  · simp [Delivery.Smooth, hpieces]
  · simp only [Delivery.content, List.append_nil, List.flatten_cons, List.flatten_nil,
      List.append_assoc, List.take_append_drop]
    rw [← List.append_assoc, List.take_append_drop]

end Frame

end EvalServer
