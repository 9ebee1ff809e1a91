import EvalServer.Handshake
import EvalServer.Proofs.Frame.Classification
import EvalServer.Server.Visit

/-!
# The handshake

What the secret is, what it takes to present it, and what is left of the connection then. Whether
it has been presented is decided by the first frame: what arrives later changes nothing.
-/

namespace EvalServer

namespace Handshake

/-- The first line of a text: what precedes its first newline, less one carriage return there. -/
def FirstLine (text line : List Char) : Prop :=
  ('\n' ∉ text ∧ line = text) ∨
    ∃ before after, text = before ++ '\n' :: after ∧ '\n' ∉ before ∧
      (before = line ++ ['\r'] ∨ before = line ∧ line.getLast? ≠ some '\r')

/-- What a secret file comes to: the secret, or that none is required, or why nobody may pass. -/
inductive Loads (files : File.Store) :
    Option String → Except AuthenticationError (Option String) → Prop
  | unset : Loads files none (.ok none)
  | missing {path : String} : (∀ node, files.find path ≠ .ok node) →
      Loads files (some path) (.ok none)
  | line {path text secret : String} :
      files.find path = .ok (.file (Text.Utf8.encode text.toList)) →
      FirstLine text.toList secret.toList → Loads files (some path) (.ok (some secret))
  | directory {path : String} : files.find path = .ok .directory →
      Loads files (some path) (.error (.unreadableSecret path .isDirectory))
  | notText {path : String} {bytes : List UInt8} : files.find path = .ok (.file bytes) →
      (∀ text : String, bytes ≠ Text.Utf8.encode text.toList) →
      Loads files (some path) (.error (.unreadableSecret path .notText))

lemma takeWhile_newline {before after : List Char} (h : '\n' ∉ before) :
    (before ++ '\n' :: after).takeWhile (· ≠ '\n') = before := by
  rw [List.takeWhile_append_of_pos]
  · simp
  · intro c hc
    simpa using fun heq : c = '\n' => h (heq ▸ hc)

lemma firstLine_of_newline {text : String} {before after : List Char}
    (htext : text.toList = before ++ '\n' :: after) (hbefore : '\n' ∉ before) :
    (File.firstLine text).toList =
      if before.getLast? = some '\r' then before.dropLast else before := by
  have hlength : before.length < text.length := by
    rw [← String.length_toList, htext, List.length_append, List.length_cons]
    omega
  simp only [File.firstLine, htext, takeWhile_newline hbefore, hlength, decide_true, Bool.true_and]
  by_cases hreturn : before.getLast? = some '\r'
  · simp [hreturn]
  · simp [hreturn]

lemma firstLine_iff {text : String} {line : List Char} :
    FirstLine text.toList line ↔ (File.firstLine text).toList = line := by
  by_cases hnewline : '\n' ∈ text.toList
  · -- only the first newline ends the line
    have cut : ∀ before after, text.toList = before ++ '\n' :: after → '\n' ∉ before →
        ((before = line ++ ['\r'] ∨ before = line ∧ line.getLast? ≠ some '\r') ↔
          (File.firstLine text).toList = line) := by
      intro before after htext hbefore
      rw [firstLine_of_newline htext hbefore]
      constructor
      · rintro (rfl | ⟨rfl, hlast⟩)
        · simp
        · rw [if_neg hlast]
      · rintro rfl
        by_cases hlast : before.getLast? = some '\r'
        · rw [if_pos hlast]
          left
          obtain ⟨front, rfl⟩ := List.getLast?_eq_some_iff.1 hlast
          rw [List.dropLast_concat]
        · rw [if_neg hlast]
          exact .inr ⟨rfl, hlast⟩
    constructor
    · rintro (⟨habsent, -⟩ | ⟨before, after, htext, hbefore, hline⟩)
      · exact absurd hnewline habsent
      · exact (cut before after htext hbefore).1 hline
    · intro hline
      obtain ⟨before, after, htext, hbefore⟩ := List.eq_append_cons_of_mem hnewline
      exact .inr ⟨before, after, htext, hbefore, (cut before after htext hbefore).2 hline⟩
  · have hwhole : (File.firstLine text).toList = text.toList := by
      have htake : text.toList.takeWhile (· ≠ '\n') = text.toList := by
        rw [List.takeWhile_eq_self_iff]
        intro c hc
        simpa using fun heq : c = '\n' => hnewline (heq ▸ hc)
      simp only [File.firstLine, htake, String.length_toList, Nat.lt_irrefl, decide_false,
        Bool.false_and, Bool.false_eq_true, if_false, String.toList_ofList]
    rw [hwhole]
    constructor
    · rintro (⟨-, rfl⟩ | ⟨before, after, htext, -, -⟩)
      · rfl
      · exact absurd (htext ▸ by simp) hnewline
    · rintro rfl
      exact .inl ⟨hnewline, rfl⟩

lemma readText_file {files : File.Store} {path : String} {bytes : List UInt8}
    (hfind : files.find path = .ok (.file bytes)) :
    (∃ text : String, bytes = Text.Utf8.encode text.toList ∧ files.readText path = .ok text) ∨
      (∀ text : String, bytes ≠ Text.Utf8.encode text.toList) ∧
        files.readText path = .error .notText := by
  rw [File.Store.readText, hfind]
  cases hdecode : Text.Utf8.decode? bytes with
  | some cs =>
    refine .inl ⟨String.ofList cs, ?_, by simp only [hdecode]⟩
    rw [String.toList_ofList, Text.Utf8.encode_of_decode? hdecode]
  | none =>
    refine .inr ⟨fun text heq => ?_, by simp only [hdecode]⟩
    rw [heq, Text.Utf8.decode?_encode] at hdecode
    cases hdecode

lemma loads_loadSecret (files : File.Store) (path : Option String) :
    Loads files path (loadSecret files path) := by
  cases path with
  | none => exact .unset
  | some path =>
    cases hfind : files.find path with
    | error e =>
      simp only [loadSecret, File.Store.pathExists, hfind, Bool.false_eq_true, if_false]
      exact .missing fun node hnode => by rw [hfind] at hnode; cases hnode
    | ok node =>
      simp only [loadSecret, File.Store.pathExists, hfind, if_true]
      cases node with
      | directory =>
        simp only [File.Store.readText, hfind]
        exact .directory hfind
      | file bytes =>
        rcases readText_file hfind with ⟨text, rfl, hread⟩ | ⟨hnone, hread⟩
        · rw [hread]
          exact .line hfind (firstLine_iff.2 rfl)
        · rw [hread]
          exact .notText hfind hnone

lemma loadSecret_of_loads {files : File.Store} {path : Option String}
    {result : Except AuthenticationError (Option String)} (h : Loads files path result) :
    loadSecret files path = result := by
  cases h with
  | unset => rfl
  | @missing path hnone =>
    cases hfind : files.find path with
    | ok node => exact absurd hfind (hnone node)
    | error e =>
      simp only [loadSecret, File.Store.pathExists, hfind, Bool.false_eq_true, if_false]
  | line hfind hline =>
    simp only [loadSecret, File.Store.pathExists, File.Store.readText, hfind, if_true,
      Text.Utf8.decode?_encode, String.ofList_toList]
    rw [String.toList_inj.1 (firstLine_iff.1 hline)]
  | directory hfind =>
    simp only [loadSecret, File.Store.pathExists, File.Store.readText, hfind, if_true]
  | notText hfind hnone =>
    simp only [loadSecret, File.Store.pathExists, hfind, if_true]
    rcases readText_file hfind with ⟨text, rfl, -⟩ | ⟨-, hread⟩
    · exact absurd rfl (hnone text)
    · rw [hread]

/-- The secret is looked up as the file has it. -/
theorem loadSecret_iff {files : File.Store} {path : Option String}
    {result : Except AuthenticationError (Option String)} :
    loadSecret files path = result ↔ Loads files path result := by
  constructor
  · rintro rfl
    exact loads_loadSecret files path
  · exact loadSecret_of_loads

section presenting

variable {coding : Coding} {secret : String} {d rest : Delivery}

/-- A whole frame with the secret as a string stands at the front of what arrives, and what is left
are the bytes after that frame and all that arrives later. -/
def Presents (coding : Coding) (secret : String) (d rest : Delivery) : Prop :=
  ∃ front back more payload text, d = front ++ more ∧ rest = back ++ more ∧ front.Smooth ∧
    Frame.Bears front.content payload ∧ coding.encode text = .ok payload ∧
    Sexp.parse (Frame.Operator.expandText text) = .ok (.str secret) ∧ back.Smooth ∧
    back.content = front.content.drop (Frame.headerLength + payload.length)

/-- What arrives, up to the first read that fails or tells of an end. -/
lemma exists_smooth (d : Delivery) (hd : .bytes [] ∉ d) : ∃ front : Delivery, front.Smooth ∧
    (d = front ∨ ∃ description more, d = front ++ .failure description :: more) := by
  induction d with
  | nil => exact ⟨[], by simp [Delivery.Smooth], .inl rfl⟩
  | cons a d ih =>
    rw [List.mem_cons, not_or] at hd
    by_cases ha : ∃ description, a = .failure description
    · obtain ⟨description, rfl⟩ := ha
      exact ⟨[], by simp [Delivery.Smooth], .inr ⟨description, d, rfl⟩⟩
    · obtain ⟨front, hfront, hcut⟩ := ih hd.2
      refine ⟨a :: front, List.forall_mem_cons.2 ⟨?_, hfront⟩, ?_⟩
      · cases a with
        | failure description => exact absurd ⟨description, rfl⟩ ha
        | interrupted => exact .inl rfl
        | bytes bs => exact .inr ⟨bs, rfl, fun h => hd.1 (h ▸ rfl)⟩
      · rcases hcut with rfl | ⟨description, more, rfl⟩
        · exact .inl rfl
        · exact .inr ⟨description, more, rfl⟩

lemma presents_of_read (hd : .bytes [] ∉ d)
    (h : Frame.read coding d = (.ok (.str secret), rest)) : Presents coding secret d rest := by
  obtain ⟨front, hfront, hcut⟩ := exists_smooth d hd
  have hclassified := Frame.readBytes_classified coding front.content
  -- the frame is there before any read fails
  obtain ⟨more, rfl, hread⟩ : ∃ more, d = front ++ more ∧
      ∃ back : Delivery, back.Smooth ∧
        back.content = front.content.drop (Frame.readBytes coding front.content).2 ∧
        Frame.read coding d = ((Frame.readBytes coding front.content).1, back ++ more) := by
    by_cases hwanting : Frame.Wanting front.content
    · obtain ⟨⟨back, hread, hback, hcontent⟩, hfailure⟩ :=
        Frame.read_wanting coding hfront hwanting
      rcases hcut with rfl | ⟨description, more, rfl⟩
      · exact ⟨[], by simp, back, hback, hcontent, by simpa using hread⟩
      · rw [hfailure description more] at h
        cases h
    · obtain ⟨back, hback, hcontent, hread⟩ := Frame.read_enough coding hfront hwanting
      rcases hcut with rfl | ⟨description, more, rfl⟩
      · exact ⟨[], by simp, back, hback, hcontent, by simpa using hread []⟩
      · exact ⟨_, rfl, back, hback, hcontent, hread _⟩
  obtain ⟨back, hback, hcontent, hread⟩ := hread
  rw [h, Prod.mk.injEq] at hread
  obtain ⟨hresult, rfl⟩ := hread
  obtain ⟨payload, text, hbears, htext, hparse⟩ := (hclassified.ok_iff _).1 hresult.symm
  refine ⟨front, back, more, payload, text, rfl, rfl, hfront, hbears, htext, hparse, hback, ?_⟩
  rw [hcontent, hclassified.taken_frame payload hbears]

lemma read_of_presents (h : Presents coding secret d rest) :
    ∃ rest', Frame.read coding d = (.ok (.str secret), rest') := by
  obtain ⟨front, back, more, payload, text, rfl, -, hfront, hbears, htext, hparse, -, -⟩ := h
  have hclassified := Frame.readBytes_classified coding front.content
  have hresult := (hclassified.ok_iff _).2 ⟨payload, text, hbears, htext, hparse⟩
  have henough : ¬ Frame.Wanting front.content := fun h => Frame.not_bears_of_wanting h hbears
  obtain ⟨back, -, -, hread⟩ := Frame.read_enough coding hfront henough
  exact ⟨_, hresult ▸ hread more⟩

lemma authenticate_eq_ok : authenticate coding (some secret) d = (.ok (), rest) ↔
    Frame.read coding d = (.ok (.str secret), rest) := by
  unfold authenticate
  cases hread : Frame.read coding d with
  | mk result rest' =>
    cases result with
    | error e => simp
    | ok v =>
      by_cases hv : v = .str secret
      · simp [hv]
      · simp [hv]

/-- Who presents the secret passes, and only who does; no more is read than that frame. -/
theorem passes_iff (hd : .bytes [] ∉ d) :
    (∃ rest, authenticate coding (some secret) d = (.ok (), rest)) ↔
      ∃ rest, Presents coding secret d rest := by
  simp only [authenticate_eq_ok]
  constructor
  · rintro ⟨rest, hread⟩
    exact ⟨rest, presents_of_read hd hread⟩
  · rintro ⟨rest, h⟩
    exact read_of_presents h

lemma authenticate_append {secret : Option String} {result : Except AuthenticationError Unit}
    (h : authenticate coding secret d = (result, rest))
    (hdecided : ∀ e, result = .error e → Server.isShortage e = false) (more : Delivery) :
    authenticate coding secret (d ++ more) = (result, rest ++ more) := by
  cases secret with
  | none =>
    cases h
    rfl
  | some secret =>
    cases hread : Frame.read coding d with
    | mk value rest' =>
      have happend : (∀ e, value = .error e → e.isShortage = false) →
          Frame.read coding (d ++ more) = (value, rest' ++ more) := by
        intro hvalue
        refine Frame.read_append hread ?_ ?_ more
        · rintro rfl
          cases hvalue _ rfl
        · rintro expected received rfl
          cases hvalue _ rfl
      cases value with
      | error e =>
        simp only [authenticate, hread, Prod.mk.injEq] at h
        obtain ⟨rfl, rfl⟩ := h
        have hvalue := happend fun e' he' => by
          cases he'
          exact hdecided _ rfl
        simp only [authenticate, hvalue]
      | ok v =>
        have hvalue := happend (by simp)
        simp only [authenticate, hread] at h
        simp only [authenticate, hvalue]
        split at h
        · next hv =>
          cases h
          rw [if_pos hv]
        · next hv =>
          cases h
          rw [if_neg hv]

lemma Presents.append (h : Presents coding secret d rest) (more : Delivery) :
    Presents coding secret (d ++ more) (rest ++ more) := by
  obtain ⟨front, back, more', payload, text, rfl, rfl, hrest⟩ := h
  exact ⟨front, back, more' ++ more, payload, text, by simp, by simp, hrest⟩

/-- Of all strings that can be sent only the secret lets its sender pass. -/
theorem presents_iff_of_frame {presented : String} {frame after : List UInt8} {front : Delivery}
    (hframe : Frame.encode coding (.str presented) = .ok frame) (hfront : front.Smooth)
    (hcontent : front.content = frame ++ after) (more : Delivery) :
    (∃ rest, Presents coding secret (front ++ more) rest) ↔ presented = secret := by
  have hreadable : (Sexp.str presented).Readable := ⟨Nat.zero_le _, trivial⟩
  obtain ⟨back, hread, -, -⟩ := Frame.read_frame hreadable hframe hfront hcontent
  replace hread : Frame.read coding front = (.ok (.str presented), back) := hread
  constructor
  · rintro ⟨rest, h⟩
    obtain ⟨rest', hread'⟩ := read_of_presents h
    rw [Frame.read_append hread (by simp) (by simp), Prod.mk.injEq, Except.ok.injEq] at hread'
    exact Sexp.str.inj hread'.1
  · rintro rfl
    have hnone : .bytes [] ∉ front := by
      intro hmem
      rcases hfront _ hmem with h | ⟨bs, h, hbs⟩
      · cases h
      · exact hbs (Arrival.bytes.inj h).symm
    exact ⟨_, (presents_of_read hnone hread).append more⟩

end presenting

end Handshake

end EvalServer
