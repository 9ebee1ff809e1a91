import EvalServer.Message.Client
import Mathlib.Algebra.Group.Nat.Defs
import Mathlib.Tactic.Lemma

/-!
# The shapes of client messages

The messages an editor may send, said without the function that reads them: `Thread.SpeltBy` lists
the spellings of a designator and `ClientEvent.SentAs` the shapes of an event. A message is taken
for an event exactly if it has one of the event's shapes, and any other message for an unknown event
that carries it. So an event that is rendered is understood again, and messages that are understood
alike differ in nothing but spelling.
-/

namespace EvalServer

namespace Thread

/-- The names that stand for any actor. -/
def anyNames : List String := ["default", "all"]

/-- The names that stand for the REPL. -/
def replNames : List String := ["repl", "repl-thread"]

/-- A name may be given as a keyword, a string or a symbol. -/
def Word (name : String) (v : Sexp) : Prop :=
  v = .keyword name ∨ v = .str name ∨ v = .symbol name

/-- The spellings of a designator. -/
inductive SpeltBy : Thread → Sexp → Prop
  | any : SpeltBy .any .t
  | anyName {name : String} {v : Sexp} : Word name v → name ∈ anyNames → SpeltBy .any v
  | replName {name : String} {v : Sexp} : Word name v → name ∈ replNames → SpeltBy .repl v
  | id {number : Nat} {n : Int64} : n.toInt = number → SpeltBy (.id number) (.int n)
  | name {name : String} {v : Sexp} : Word name v → name ∉ anyNames → name ∉ replNames →
      SpeltBy (.name name) v

/-- A designator whose number fits a word and whose name stands for itself. -/
def Plain : Thread → Prop
  | .any | .repl => True
  | .id n => n < 2 ^ 63
  | .name text => text ∉ anyNames ∧ text ∉ replNames

/-- The spelling of a designator that is documented first. -/
def toSexp : Thread → Sexp
  | .any => .t
  | .repl => .keyword "repl-thread"
  | .id n => .int (Int64.ofNat n)
  | .name text => .str text

lemma ofSexp?_word {name : String} {v : Sexp} (h : Word name v) :
    ofSexp? v = some (ofName name) := by
  rcases h with rfl | rfl | rfl <;> rfl

lemma ofName_any {name : String} (h : name ∈ anyNames) : ofName name = .any := by
  apply if_pos
  simpa [anyNames] using h

lemma ofName_repl {name : String} (h : name ∈ replNames) : ofName name = .repl := by
  have hname : name = "repl" ∨ name = "repl-thread" := by simpa [replNames] using h
  rcases hname with rfl | rfl <;> rfl

lemma ofName_name {name : String} (hany : name ∉ anyNames) (hrepl : name ∉ replNames) :
    ofName name = .name name := by
  have hany' : ¬ (name = "default" ∨ name = "all") := by simpa [anyNames] using hany
  have hrepl' : ¬ (name = "repl" ∨ name = "repl-thread") := by simpa [replNames] using hrepl
  rw [ofName, if_neg hany', if_neg hrepl']

lemma speltBy_ofName {name : String} {v : Sexp} (h : Word name v) : (ofName name).SpeltBy v := by
  by_cases hany : name ∈ anyNames
  · rw [ofName_any hany]
    exact .anyName h hany
  · by_cases hrepl : name ∈ replNames
    · rw [ofName_repl hrepl]
      exact .replName h hrepl
    · rw [ofName_name hany hrepl]
      exact .name h hany hrepl

/-- A value is read as a designator exactly if it spells it. -/
theorem ofSexp?_eq_some_iff {v : Sexp} {thread : Thread} :
    ofSexp? v = some thread ↔ thread.SpeltBy v := by
  constructor
  · intro h
    cases v with
    | t =>
      cases h
      exact .any
    | int n =>
      simp only [ofSexp?] at h
      split at h <;> cases h
      apply SpeltBy.id
      omega
    | keyword name =>
      cases h
      exact speltBy_ofName (.inl rfl)
    | str name =>
      cases h
      exact speltBy_ofName (.inr (.inl rfl))
    | symbol name =>
      cases h
      exact speltBy_ofName (.inr (.inr rfl))
    | nil | list => cases h
  · intro h
    cases h with
    | any => rfl
    | anyName hword hname => rw [ofSexp?_word hword, ofName_any hname]
    | replName hword hname => rw [ofSexp?_word hword, ofName_repl hname]
    | name hword hany hrepl => rw [ofSexp?_word hword, ofName_name hany hrepl]
    | @id number n hn =>
      have hnumber : n.toInt.toNat = number := by omega
      rw [ofSexp?, if_pos (by omega), hnumber]

lemma SpeltBy.unique {thread thread' : Thread} {v : Sexp} (h : thread.SpeltBy v)
    (h' : thread'.SpeltBy v) : thread = thread' := by
  apply Option.some.inj
  rw [← ofSexp?_eq_some_iff.2 h, ofSexp?_eq_some_iff.2 h']

lemma speltBy_toSexp {thread : Thread} (h : thread.Plain) : thread.SpeltBy thread.toSexp := by
  cases thread with
  | any => exact .any
  | repl => exact .replName (.inl rfl) (by decide)
  | id n =>
    apply SpeltBy.id
    exact Int64.toInt_ofNat_of_lt h
  | name text => exact .name (.inr (.inl rfl)) h.1 h.2

end Thread

namespace ClientEvent

/-- The event is one that the server acts on. -/
def IsKnown : ClientEvent → Prop
  | .unknown _ => False
  | _ => True

/-- A namespace is named by a string, and the default one also by `nil`. -/
inductive NamedBy : String → Sexp → Prop
  | default : NamedBy defaultNamespace .nil
  | text (ns : String) : NamedBy ns (.str ns)

/-- The shapes of an event: the keyword at the head of a list and what follows it. -/
inductive SentAs : ClientEvent → Sexp → Prop
  | evaluate {package : String} {thread : Thread} {ns designator : Sexp} (form : Sexp)
      (id : Int64) : NamedBy package ns → thread.SpeltBy designator →
      SentAs (.evaluate form package thread id)
        (.list [.keyword "emacs-rex", form, ns, designator, .int id])
  | interrupt {thread : Thread} {designator : Sexp} : thread.SpeltBy designator →
      SentAs (.interrupt thread) (.list [.keyword "emacs-interrupt", designator])
  | returnString {thread : Thread} {designator : Sexp} {tag : Nat} {n : Int64} (text : String) :
      thread.SpeltBy designator → n.toInt = tag →
      SentAs (.returnString thread tag text)
        (.list [.keyword "emacs-return-string", designator, .int n, .str text])
  | returnValue {thread : Thread} {designator : Sexp} {tag : Nat} {n : Int64} (value : Sexp) :
      thread.SpeltBy designator → n.toInt = tag →
      SentAs (.returnValue thread tag value)
        (.list [.keyword "emacs-return", designator, .int n, value])

/-- The numbers of an event fit words, and its designator stands for itself. -/
def Plain : ClientEvent → Prop
  | .evaluate _ _ thread _ | .interrupt thread => thread.Plain
  | .returnString thread tag _ | .returnValue thread tag _ => thread.Plain ∧ tag < 2 ^ 63
  | .unknown _ => True

/-- The message that is documented for an event. -/
def toSexp : ClientEvent → Sexp
  | .evaluate form package thread id =>
    .list [.keyword "emacs-rex", form, .str package, thread.toSexp, .int id]
  | .interrupt thread => .list [.keyword "emacs-interrupt", thread.toSexp]
  | .returnString thread tag text =>
    .list [.keyword "emacs-return-string", thread.toSexp, .int (Int64.ofNat tag), .str text]
  | .returnValue thread tag value =>
    .list [.keyword "emacs-return", thread.toSexp, .int (Int64.ofNat tag), value]
  | .unknown message => message

/-- Two spellings of one designator. -/
def SameThread (d d' : Sexp) : Prop :=
  ∃ thread : Thread, thread.SpeltBy d ∧ thread.SpeltBy d'

/-- The same namespace, the default one perhaps once by `nil` and once by its name. -/
def SameNamespace (ns ns' : Sexp) : Prop :=
  ns = ns' ∨ (ns = .nil ∧ ns' = .str defaultNamespace) ∨ (ns = .str defaultNamespace ∧ ns' = .nil)

/-- Two messages differ at most in the spelling of a designator or of the default namespace. -/
inductive Alike : Sexp → Sexp → Prop
  | evaluate {ns ns' d d' : Sexp} (form id : Sexp) : SameNamespace ns ns' → SameThread d d' →
      Alike (.list [.keyword "emacs-rex", form, ns, d, id])
        (.list [.keyword "emacs-rex", form, ns', d', id])
  | interrupt {d d' : Sexp} : SameThread d d' →
      Alike (.list [.keyword "emacs-interrupt", d]) (.list [.keyword "emacs-interrupt", d'])
  | returnString {d d' : Sexp} (tag text : Sexp) : SameThread d d' →
      Alike (.list [.keyword "emacs-return-string", d, tag, text])
        (.list [.keyword "emacs-return-string", d', tag, text])
  | returnValue {d d' : Sexp} (tag value : Sexp) : SameThread d d' →
      Alike (.list [.keyword "emacs-return", d, tag, value])
        (.list [.keyword "emacs-return", d', tag, value])

variable {m m' : Sexp} {e : ClientEvent}

/-! ## Fields -/

lemma namespace?_eq_some_iff {v : Sexp} {ns : String} : namespace? v = some ns ↔ NamedBy ns v := by
  constructor
  · intro h
    cases v with
    | nil =>
      cases h
      exact .default
    | str text =>
      cases h
      exact .text _
    | t | int | symbol | keyword | list => cases h
  · intro h
    cases h <;> rfl

lemma NamedBy.same {ns ns' : Sexp} {package : String} (h : NamedBy package ns)
    (h' : NamedBy package ns') : SameNamespace ns ns' := by
  cases h with
  | default =>
    cases h' with
    | default => exact .inl rfl
    | text => exact .inr (.inl ⟨rfl, rfl⟩)
  | text =>
    cases h' with
    | default => exact .inr (.inr ⟨rfl, rfl⟩)
    | text => exact .inl rfl

lemma NamedBy.of_same {ns ns' : Sexp} {package : String} (h : NamedBy package ns)
    (hsame : SameNamespace ns ns') : NamedBy package ns' := by
  rcases hsame with rfl | ⟨rfl, rfl⟩ | ⟨rfl, rfl⟩
  · exact h
  · cases h with
    | default => exact .text defaultNamespace
  · cases h
    exact .default

lemma of_sameThread {thread : Thread} {d d' : Sexp} (h : thread.SpeltBy d)
    (hsame : SameThread d d') : thread.SpeltBy d' := by
  obtain ⟨thread', hd, hd'⟩ := hsame
  rw [h.unique hd]
  exact hd'

lemma tag?_eq_some_iff {v : Sexp} {tag : Nat} :
    tag? v = some tag ↔ ∃ n : Int64, v = .int n ∧ n.toInt = tag := by
  constructor
  · intro h
    obtain ⟨n, hv, hn⟩ := Option.bind_eq_some_iff.1 h
    cases v with
    | int k =>
      cases hv
      refine ⟨n, rfl, ?_⟩
      split at hn <;> cases hn
      omega
    | nil | t | str | symbol | keyword | list => cases hv
  · rintro ⟨n, rfl, hn⟩
    have htag : n.toInt.toNat = tag := by omega
    rw [tag?, Sexp.int?, Option.bind_some, if_pos (by omega), htag]

/-! ## Messages -/

lemma ofParts?_of_sentAs {head : String} {arguments : List Sexp}
    (h : e.SentAs (.list (.keyword head :: arguments))) : ofParts? head arguments = some e := by
  cases h with
  | evaluate form id hns hthread =>
    simp [ofParts?, namespace?_eq_some_iff.2 hns, Thread.ofSexp?_eq_some_iff.2 hthread, Sexp.int?]
  | interrupt hthread => simp [ofParts?, Thread.ofSexp?_eq_some_iff.2 hthread]
  | returnString text hthread htag =>
    simp [ofParts?, Thread.ofSexp?_eq_some_iff.2 hthread, tag?_eq_some_iff.2 ⟨_, rfl, htag⟩,
      Sexp.str?]
  | returnValue value hthread htag =>
    simp [ofParts?, Thread.ofSexp?_eq_some_iff.2 hthread, tag?_eq_some_iff.2 ⟨_, rfl, htag⟩]

lemma sentAs_of_ofParts? {head : String} {arguments : List Sexp}
    (h : ofParts? head arguments = some e) : e.SentAs (.list (.keyword head :: arguments)) := by
  unfold ofParts? at h
  split at h
  · next form ns thread id =>
    simp only [Option.bind_eq_bind, Option.bind_eq_some_iff, Option.pure_def,
      Option.some.injEq] at h
    obtain ⟨package, hns, spec, hthread, n, hid, rfl⟩ := h
    cases id with
    | int k =>
      cases hid
      exact .evaluate form n (namespace?_eq_some_iff.1 hns) (Thread.ofSexp?_eq_some_iff.1 hthread)
    | nil | t | str | symbol | keyword | list => cases hid
  · next thread =>
    simp only [Option.bind_eq_bind, Option.bind_eq_some_iff, Option.pure_def,
      Option.some.injEq] at h
    obtain ⟨spec, hthread, rfl⟩ := h
    exact .interrupt (Thread.ofSexp?_eq_some_iff.1 hthread)
  · next thread tag text =>
    simp only [Option.bind_eq_bind, Option.bind_eq_some_iff, Option.pure_def,
      Option.some.injEq] at h
    obtain ⟨spec, hthread, number, htag, words, htext, rfl⟩ := h
    obtain ⟨n, rfl, hn⟩ := tag?_eq_some_iff.1 htag
    cases text with
    | str text =>
      cases htext
      exact .returnString words (Thread.ofSexp?_eq_some_iff.1 hthread) hn
    | nil | t | int | symbol | keyword | list => cases htext
  · next thread tag value =>
    simp only [Option.bind_eq_bind, Option.bind_eq_some_iff, Option.pure_def,
      Option.some.injEq] at h
    obtain ⟨spec, hthread, number, htag, rfl⟩ := h
    obtain ⟨n, rfl, hn⟩ := tag?_eq_some_iff.1 htag
    exact .returnValue value (Thread.ofSexp?_eq_some_iff.1 hthread) hn
  · cases h

lemma SentAs.headed (h : e.SentAs m) :
    ∃ head arguments, m = .list (.keyword head :: arguments) := by
  cases h <;> exact ⟨_, _, rfl⟩

lemma SentAs.isKnown (h : e.SentAs m) : e.IsKnown := by
  cases h <;> trivial

/-- A message that has a shape of an event is taken for it. -/
lemma ofSexp_of_sentAs (h : e.SentAs m) : ofSexp m = e := by
  obtain ⟨head, arguments, rfl⟩ := h.headed
  have hparts := ofParts?_of_sentAs h
  simp [ofSexp, Sexp.items?, Sexp.keyword?, hparts]

/-- A message that has no shape of an event is unknown. -/
lemma ofSexp_of_not_sentAs (h : ∀ e, ¬ SentAs e m) : ofSexp m = .unknown m := by
  cases m with
  | list items =>
    cases items with
    | nil => rfl
    | cons head arguments =>
      cases head with
      | keyword keyword =>
        have hparts : ofParts? keyword arguments = none := by
          apply Option.eq_none_iff_forall_not_mem.2
          intro e he
          exact h e (sentAs_of_ofParts? he)
        simp [ofSexp, Sexp.items?, Sexp.keyword?, hparts]
      | nil | t | int | str | symbol | list => rfl
  | nil | t | int | str | symbol | keyword => rfl

lemma sentAs_of_ofSexp (hknown : e.IsKnown) (h : ofSexp m = e) : e.SentAs m := by
  by_cases hshape : ∃ e, SentAs e m
  · obtain ⟨e', he'⟩ := hshape
    rw [← h, ofSexp_of_sentAs he']
    exact he'
  · have hnone : ∀ e, ¬ SentAs e m := fun e he => hshape ⟨e, he⟩
    rw [ofSexp_of_not_sentAs hnone] at h
    subst h
    exact absurd hknown id

lemma sentAs_toSexp (hknown : e.IsKnown) (hplain : e.Plain) : e.SentAs e.toSexp := by
  cases e with
  | evaluate form package thread id =>
    exact .evaluate form id (.text package) (Thread.speltBy_toSexp hplain)
  | interrupt thread => exact .interrupt (Thread.speltBy_toSexp hplain)
  | returnString thread tag text =>
    exact .returnString text (Thread.speltBy_toSexp hplain.1) (Int64.toInt_ofNat_of_lt hplain.2)
  | returnValue thread tag value =>
    exact .returnValue value (Thread.speltBy_toSexp hplain.1) (Int64.toInt_ofNat_of_lt hplain.2)
  | unknown message => exact absurd hknown id

lemma alike_of_sentAs (h : e.SentAs m) (h' : e.SentAs m') : Alike m m' := by
  cases h with
  | evaluate form id hns hthread =>
    cases h' with
    | evaluate _ _ hns' hthread' =>
      exact .evaluate form (.int id) (hns.same hns') ⟨_, hthread, hthread'⟩
  | interrupt hthread =>
    cases h' with
    | interrupt hthread' => exact .interrupt ⟨_, hthread, hthread'⟩
  | returnString text hthread htag =>
    cases h' with
    | returnString _ hthread' htag' =>
      rw [Int64.toInt_inj.1 (htag'.trans htag.symm)]
      exact .returnString _ (.str text) ⟨_, hthread, hthread'⟩
  | returnValue value hthread htag =>
    cases h' with
    | returnValue _ hthread' htag' =>
      rw [Int64.toInt_inj.1 (htag'.trans htag.symm)]
      exact .returnValue _ value ⟨_, hthread, hthread'⟩

lemma SentAs.of_alike (h : e.SentAs m) (halike : Alike m m') : e.SentAs m' := by
  generalize hm : m = m₁ at halike
  cases h with
  | evaluate form id hns hthread =>
    cases halike with
    | evaluate _ _ hsame hspelt =>
      cases hm
      exact .evaluate form id (hns.of_same hsame) (of_sameThread hthread hspelt)
    | interrupt | returnString | returnValue => simp at hm
  | interrupt hthread =>
    cases halike with
    | interrupt hspelt =>
      cases hm
      exact .interrupt (of_sameThread hthread hspelt)
    | evaluate | returnString | returnValue => simp at hm
  | returnString text hthread htag =>
    cases halike with
    | returnString _ _ hspelt =>
      cases hm
      exact .returnString text (of_sameThread hthread hspelt) htag
    | evaluate | interrupt | returnValue => simp at hm
  | returnValue value hthread htag =>
    cases halike with
    | returnValue _ _ hspelt =>
      cases hm
      exact .returnValue value (of_sameThread hthread hspelt) htag
    | evaluate | interrupt | returnString => simp at hm

/-- A message is unknown, and carried along, exactly if it has no shape of an event; it is taken for
an event exactly if it has one of that event's shapes. An event that is rendered is understood
again, and messages are understood alike exactly if they differ in nothing but spelling. -/
theorem ofSexp_exact :
    (∀ m v, ofSexp m = .unknown v ↔ v = m ∧ ∀ e, ¬ SentAs e m) ∧
    (∀ m e, e.IsKnown → (ofSexp m = e ↔ e.SentAs m)) ∧
    (∀ e, e.IsKnown → e.Plain → ofSexp e.toSexp = e) ∧
    (∀ m m', (ofSexp m).IsKnown → (ofSexp m' = ofSexp m ↔ Alike m m')) := by
  refine ⟨fun m v => ⟨fun h => ?_, ?_⟩, fun m e hknown => ?_, fun e hknown hplain => ?_,
    fun m m' hknown => ?_⟩
  · have hnone : ∀ e, ¬ SentAs e m := by
      intro e he
      have hknown := he.isKnown
      rw [← ofSexp_of_sentAs he, h] at hknown
      exact hknown
    rw [ofSexp_of_not_sentAs hnone] at h
    cases h
    exact ⟨rfl, hnone⟩
  · rintro ⟨rfl, hnone⟩
    exact ofSexp_of_not_sentAs hnone
  · exact ⟨sentAs_of_ofSexp hknown, ofSexp_of_sentAs⟩
  · exact ofSexp_of_sentAs (sentAs_toSexp hknown hplain)
  · have hsent := sentAs_of_ofSexp hknown rfl
    constructor
    · intro h
      exact alike_of_sentAs hsent (sentAs_of_ofSexp hknown h)
    · intro halike
      exact ofSexp_of_sentAs (hsent.of_alike halike)

/-- A request in the default namespace for an actor by its name, and two messages that ask for a
line in the REPL, one of which spells out what the other leaves to its reader. -/
theorem ofSexp_exact_spelt :
    ofSexp (toSexp (.evaluate .nil "user" (.name "worker-4") 7)) =
      .evaluate .nil "user" (.name "worker-4") 7 ∧
    ofSexp (.list
        [.keyword "emacs-rex", .list [.symbol "read-line"], .nil, .symbol "repl", .int 1]) =
      ofSexp (.list [.keyword "emacs-rex", .list [.symbol "read-line"], .str "user",
        .keyword "repl-thread", .int 1]) := by
  obtain ⟨-, hsent, hround, halike⟩ := ofSexp_exact
  constructor
  · exact hround (.evaluate .nil "user" (.name "worker-4") 7) trivial ⟨by decide, by decide⟩
  · apply (halike _ _ _).2
    · apply Alike.evaluate
      · exact .inr (.inr ⟨rfl, rfl⟩)
      · exact ⟨.repl, .replName (.inl rfl) (by decide), .replName (.inr (.inr rfl)) (by decide)⟩
    · exact trivial

end ClientEvent

end EvalServer
