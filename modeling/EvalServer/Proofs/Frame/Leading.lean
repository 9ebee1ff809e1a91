import EvalServer.Proofs.Frame.Classification

/-!
# Frames at the front of a stream

Some bytes begin with a frame or they do not, and what follows a frame may begin with another: so
there is one longest sequence of messages whose frames stand at the front of a stream. To read a
delivery frame by frame is to go through that sequence, as far as no read fails.
-/

namespace EvalServer

namespace Delivery

variable {d : Delivery}

/-- What arrives before a read fails. -/
def untilFailure (d : Delivery) : Delivery :=
  d.takeWhile fun
    | .failure _ => false
    | _ => true

/-- Some read fails. -/
def Fails (d : Delivery) : Prop :=
  ∃ description, .failure description ∈ d

lemma smooth_untilFailure (hd : .bytes [] ∉ d) : d.untilFailure.Smooth := by
  intro a ha
  have hmem : a ∈ d := (List.takeWhile_sublist _).subset ha
  have hkind := List.mem_takeWhile_imp ha
  cases a with
  | interrupted => exact .inl rfl
  | bytes bs => exact .inr ⟨bs, rfl, fun hbs => hd (hbs ▸ hmem)⟩
  | failure description => cases hkind

/-- What does not fail is all that arrives. -/
lemma untilFailure_of_not_fails (h : ¬ d.Fails) : d.untilFailure = d := by
  refine List.takeWhile_eq_self_iff.2 fun a ha => ?_
  cases a with
  | failure description => exact absurd ⟨description, ha⟩ h
  | interrupted | bytes => rfl

lemma Smooth.not_fails (h : d.Smooth) : ¬ d.Fails := by
  rintro ⟨description, hmem⟩
  simpa using h _ hmem

/-- After what arrives first comes a read that fails, if one fails at all. -/
lemma exists_failure (h : d.Fails) :
    ∃ description more, d = d.untilFailure ++ .failure description :: more := by
  induction d with
  | nil =>
    obtain ⟨description, hmem⟩ := h
    cases hmem
  | cons a d ih =>
    cases a with
    | failure description => exact ⟨description, d, rfl⟩
    | interrupted | bytes =>
      obtain ⟨description, hmem⟩ := h
      obtain ⟨description, more, hd⟩ := ih ⟨description, by simpa using hmem⟩
      refine ⟨description, more, ?_⟩
      rw [untilFailure, List.takeWhile_cons_of_pos rfl, List.cons_append]
      exact congrArg _ hd

lemma untilFailure_append {front : Delivery} (hfront : front.Smooth) (description : String)
    (more : Delivery) : (front ++ .failure description :: more).untilFailure = front := by
  have hall : ∀ a ∈ front, (match a with | .failure _ => false | _ => true) = true := by
    intro a ha
    rcases hfront a ha with rfl | ⟨bs, rfl, -⟩ <;> rfl
  rw [untilFailure, List.takeWhile_append_of_pos hall]
  exact List.append_nil front

end Delivery

namespace Frame

variable {coding : Coding} {s rest : List UInt8} {v : Sexp} {vs : List Sexp} {taken : Nat}

/-- Some bytes begin with a whole frame, which takes that many of them, and this is its message. -/
def Begins (coding : Coding) (s : List UInt8) (v : Sexp) (taken : Nat) : Prop :=
  ∃ payload text, Bears s payload ∧ coding.encode text = .ok payload ∧
    Sexp.parse (Operator.expandText text) = .ok v ∧ taken = headerLength + payload.length

/-- Some bytes are the frames of messages, one after another, and then the rest. -/
inductive Leads (coding : Coding) : List UInt8 → List Sexp → List UInt8 → Prop
  | nil (s : List UInt8) : Leads coding s [] s
  | cons {s rest : List UInt8} {v : Sexp} {vs : List Sexp} {taken : Nat} : Begins coding s v taken →
      Leads coding (s.drop taken) vs rest → Leads coding s (v :: vs) rest

/-- These are all the messages whose frames stand at the front of some bytes. -/
def Longest (coding : Coding) (s : List UInt8) (vs : List Sexp) : Prop :=
  ∀ vs' rest, Leads coding s vs' rest → vs' <+: vs

lemma begins_iff : Begins coding s v taken ↔ readBytes coding s = (.ok v, taken) := by
  have hclassified := readBytes_classified coding s
  constructor
  · rintro ⟨payload, text, hbears, htext, hparse, rfl⟩
    exact Prod.ext ((hclassified.ok_iff v).2 ⟨payload, text, hbears, htext, hparse⟩)
      (hclassified.taken_frame payload hbears)
  · intro h
    rw [h] at hclassified
    obtain ⟨payload, text, hbears, htext, hparse⟩ := (hclassified.ok_iff v).1 rfl
    exact ⟨payload, text, hbears, htext, hparse, hclassified.taken_frame payload hbears⟩

lemma Begins.taken_le (h : Begins coding s v taken) : 0 < taken ∧ taken ≤ s.length := by
  obtain ⟨payload, text, ⟨size, hsize, henough, rfl⟩, -, -, rfl⟩ := h
  have hlength := length_le_of_announces hsize
  rw [List.length_take, List.length_drop]
  constructor
  · exact Nat.lt_of_lt_of_le (by decide) (Nat.le_add_right headerLength _)
  · omega

/-- What more bytes are wanted for begins with no frame. -/
lemma not_begins_of_wanting (h : Wanting s) : ¬ Begins coding s v taken := by
  rintro ⟨payload, text, hbears, -⟩
  exact not_bears_of_wanting h hbears

lemma Leads.append {mid : List UInt8} {ws : List Sexp} (h : Leads coding s vs mid)
    (h' : Leads coding mid ws rest) : Leads coding s (vs ++ ws) rest := by
  induction h with
  | nil => exact h'
  | cons hv _ ih => exact .cons hv (ih h')

/-- Frames after which no other begins are all there are. -/
lemma Leads.longest (h : Leads coding s vs rest) (hend : ∀ v taken, ¬ Begins coding rest v taken) :
    Longest coding s vs := by
  intro vs' rest' h'
  induction h' generalizing vs with
  | nil => exact List.nil_prefix
  | cons hv _ ih =>
    cases h with
    | nil => exact absurd hv (hend _ _)
    | cons hv₁ hvs =>
      -- the bytes tell which frame they begin with
      have heq := (begins_iff.1 hv).symm.trans (begins_iff.1 hv₁)
      simp only [Prod.mk.injEq, Except.ok.injEq] at heq
      obtain ⟨rfl, rfl⟩ := heq
      exact List.prefix_cons_inj _ |>.2 (ih hvs)

/-- The frames at the front of some bytes come to an end, where no other begins. -/
theorem exists_leads (coding : Coding) (s : List UInt8) :
    ∃ vs rest, Leads coding s vs rest ∧ ∀ v taken, ¬ Begins coding rest v taken := by
  induction hlength : s.length using Nat.strong_induction_on generalizing s with
  | _ n ih =>
    by_cases hbegins : ∃ v taken, Begins coding s v taken
    · obtain ⟨v, taken, hv⟩ := hbegins
      obtain ⟨hpos, hle⟩ := hv.taken_le
      obtain ⟨vs, rest, hleads, hend⟩ := ih (s.drop taken).length
        (by rw [List.length_drop]; omega) (s.drop taken) rfl
      exact ⟨v :: vs, rest, .cons hv hleads, hend⟩
    · exact ⟨[], s, .nil s, fun v taken hv => hbegins ⟨v, taken, hv⟩⟩

/-! ## Reading -/

section reading

variable {d d' : Delivery}

/-- Enough bytes for a result are read before any read fails. -/
lemma read_untilFailure (coding : Coding) (hd : .bytes [] ∉ d)
    (henough : ¬ Wanting d.untilFailure.content) :
    ∃ rest : Delivery, read coding d = ((readBytes coding d.untilFailure.content).1, rest) ∧
      rest.untilFailure.content =
        d.untilFailure.content.drop (readBytes coding d.untilFailure.content).2 ∧
      .bytes [] ∉ rest ∧ (rest.Fails ↔ d.Fails) := by
  have hfront := Delivery.smooth_untilFailure hd
  obtain ⟨back, hback, hcontent, hread⟩ := read_enough coding hfront henough
  have hfine : .bytes [] ∉ back := by
    intro hmem
    simpa using hback _ hmem
  by_cases hfails : d.Fails
  · obtain ⟨description, more, hcut⟩ := Delivery.exists_failure hfails
    have hmore : .bytes [] ∉ more := by
      intro hmem
      rw [hcut] at hd
      exact hd (List.mem_append_right _ (List.mem_cons_of_mem _ hmem))
    refine ⟨back ++ .failure description :: more, ?_, ?_, ?_, iff_of_true ?_ hfails⟩
    · conv_lhs => rw [hcut]
      exact hread _
    · rw [Delivery.untilFailure_append hback, hcontent]
    · simp [hfine, hmore]
    · exact ⟨description, by simp⟩
  · have hall := hread []
    rw [List.append_nil, List.append_nil] at hall
    refine ⟨back, ?_, ?_, hfine, iff_of_false hback.not_fails hfails⟩
    · conv_lhs => rw [← Delivery.untilFailure_of_not_fails hfails]
      exact hall
    · rw [Delivery.untilFailure_of_not_fails hback.not_fails, hcontent]

/-- Too few bytes are the cause of an error exactly where more are wanted. -/
lemma readBytes_of_wanting (coding : Coding) (hwanting : Wanting s) :
    (readBytes coding s).1 = .error .closed ∨
      ∃ expected received, (readBytes coding s).1 = .error (.truncated expected received) := by
  have hclassified := readBytes_classified coding s
  by_cases hempty : s = []
  · exact .inl (hclassified.closed_iff.2 hempty)
  · have hpos : 0 < s.length := List.length_pos_iff.2 hempty
    by_cases hshort : s.length < headerLength
    · exact .inr ⟨_, _, (hclassified.truncated_iff _ _).2 (.inl ⟨rfl, rfl, hpos, hshort⟩)⟩
    · obtain ⟨size, hsize, hfew⟩ := hwanting.resolve_left hshort
      exact .inr ⟨_, _, (hclassified.truncated_iff _ _).2 (.inr ⟨hsize, rfl, by omega⟩)⟩

lemma readBytes_of_not_wanting (coding : Coding) (henough : ¬ Wanting s) :
    (readBytes coding s).1 ≠ .error .closed ∧
      ∀ expected received, (readBytes coding s).1 ≠ .error (.truncated expected received) := by
  have hclassified := readBytes_classified coding s
  constructor
  · intro h
    exact henough (.inl (by rw [hclassified.closed_iff.1 h]; decide))
  · intro expected received h
    rcases (hclassified.truncated_iff expected received).1 h with
      ⟨-, -, -, hshort⟩ | ⟨hsize, hreceived, hfew⟩
    · exact henough (.inl hshort)
    · have hlength := length_le_of_announces hsize
      exact henough (.inr ⟨expected, hsize, by omega⟩)

/-- A message that is read is that of the frame that the bytes begin with, and the next read goes on
behind it. -/
theorem read_eq_ok {rest : Delivery} (hd : .bytes [] ∉ d) (h : read coding d = (.ok v, rest)) :
    ∃ taken, Begins coding d.untilFailure.content v taken ∧
      rest.untilFailure.content = d.untilFailure.content.drop taken ∧
      .bytes [] ∉ rest ∧ (rest.Fails ↔ d.Fails) := by
  by_cases hwanting : Wanting d.untilFailure.content
  · -- too few bytes are an error, whether a read fails behind them or not
    obtain ⟨⟨rest', hread, -⟩, hfailure⟩ :=
      read_wanting coding (Delivery.smooth_untilFailure hd) hwanting
    by_cases hfails : d.Fails
    · obtain ⟨description, more, hcut⟩ := Delivery.exists_failure hfails
      rw [hcut, hfailure description more] at h
      cases h
    · rw [Delivery.untilFailure_of_not_fails hfails] at hread hwanting
      rw [hread, Prod.mk.injEq] at h
      rcases readBytes_of_wanting coding hwanting with herror | ⟨_, _, herror⟩
      · rw [herror] at h
        cases h.1
      · rw [herror] at h
        cases h.1
  · obtain ⟨rest', hread, hcontent, hfine, hfails⟩ :=
      read_untilFailure coding hd hwanting
    rw [h, Prod.mk.injEq] at hread
    obtain ⟨hresult, rfl⟩ := hread
    exact ⟨_, begins_iff.2 (Prod.ext hresult.symm rfl), hcontent, hfine, hfails⟩

/-- Where no message is read the bytes begin with no frame. The error tells of too few bytes exactly
if more are wanted and no read has failed. -/
theorem read_eq_error {e : FramingError} {rest : Delivery} (hd : .bytes [] ∉ d)
    (h : read coding d = (.error e, rest)) :
    (∀ v taken, ¬ Begins coding d.untilFailure.content v taken) ∧
      ((e = .closed ∨ ∃ expected received, e = .truncated expected received) ↔
        Wanting d.untilFailure.content ∧ ¬ d.Fails) := by
  by_cases hwanting : Wanting d.untilFailure.content
  · refine ⟨fun v taken => not_begins_of_wanting hwanting, ?_⟩
    obtain ⟨⟨rest', hread, -⟩, hfailure⟩ :=
      read_wanting coding (Delivery.smooth_untilFailure hd) hwanting
    by_cases hfails : d.Fails
    · obtain ⟨description, more, hcut⟩ := Delivery.exists_failure hfails
      rw [hcut, hfailure description more] at h
      cases h
      simp [hfails]
    · rw [Delivery.untilFailure_of_not_fails hfails] at hread hwanting ⊢
      rw [hread, Prod.mk.injEq] at h
      have hshort := readBytes_of_wanting coding hwanting
      simp only [h.1, Except.error.injEq] at hshort
      exact iff_of_true hshort ⟨hwanting, hfails⟩
  · obtain ⟨rest', hread, -⟩ := read_untilFailure coding hd hwanting
    rw [h, Prod.mk.injEq] at hread
    have henough := readBytes_of_not_wanting coding hwanting
    rw [← hread.1] at henough
    refine ⟨fun v taken hv => ?_, iff_of_false ?_ fun hboth => hwanting hboth.1⟩
    · rw [begins_iff.1 hv] at hread
      cases hread.1
    · rintro (rfl | ⟨expected, received, rfl⟩)
      · exact henough.1 rfl
      · exact henough.2 expected received rfl

/-- What is read frame by frame leads what arrives before a read fails. -/
theorem leads_readAll {rest : Delivery} (hd : .bytes [] ∉ d)
    (h : readAll coding vs.length d = (vs, none, rest)) :
    Leads coding d.untilFailure.content vs rest.untilFailure.content ∧ .bytes [] ∉ rest ∧
      (rest.Fails ↔ d.Fails) := by
  induction vs generalizing d with
  | nil =>
    cases h
    exact ⟨.nil _, hd, .rfl⟩
  | cons v vs ih =>
    rw [List.length_cons, readAll] at h
    cases hread : read coding d with
    | mk result d' =>
      rw [hread] at h
      cases result with
      | error e => cases h
      | ok v' =>
        simp only [Prod.mk.injEq, List.cons.injEq] at h
        obtain ⟨⟨rfl, hvs⟩, hnone, hrest⟩ := h
        obtain ⟨taken, hbegins, hcontent, hfine, hfails⟩ := read_eq_ok hd hread
        obtain ⟨hleads, hfine', hfails'⟩ := ih hfine (Prod.ext hvs (Prod.ext hnone hrest))
        rw [hcontent] at hleads
        exact ⟨.cons hbegins hleads, hfine', hfails'.trans hfails⟩

end reading

end Frame

end EvalServer
