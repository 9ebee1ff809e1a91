import EvalServer.Proofs.Frame.Leading
import EvalServer.Proofs.Session.Leaving

/-!
# What the reader forwards

A log tells what has come for the reader of a session and what it has made of it. Whatever else
happens, it passes over messages until it is told to start, and from then on tells control of the
message of each frame at the front of what has come, up to where no frame begins. There it stops,
for good, and the session closes.
-/

namespace EvalServer

open Traffic

/-- What the reader tells control of a message from the client. -/
def Message.heard (v : Sexp) : Message :=
  .client (.ofSexp v)

/-- What has come for the reader of a session, and what it has made of it. -/
structure ReaderLog where
  /-- What has come over the connection. -/
  came : Delivery
  /-- What has entered and left the reader's mailbox. -/
  mail : History := []
  /-- What has entered and left control's mailbox; the reader is named where it is the sender. -/
  desk : History := []
  /-- Whether the reader has ended by a step of its own. -/
  stopped : Bool := false

/-- The bytes that have come before a read fails. -/
def ReaderLog.stream (log : ReaderLog) : List UInt8 :=
  log.came.untilFailure.content

namespace World

def note (w : World) (x : Occurrence) (w' : World) (log : ReaderLog) : ReaderLog where
  came := log.came ++ x.brings
  mail := log.mail ++ mailEvents none w.readerQueue w'.readerQueue
  desk := log.desk ++
    mailEvents (if x.isReaders then some w.session.readerId else none) w.controlQueue w'.controlQueue
  stopped := log.stopped || (x.isReaders && w'.session.reader = .ended)

/-- Occurrences one after the other, if they can be, and the log with what they add to it. -/
def follow? (w : World) (log : ReaderLog) : List Occurrence → Option (ReaderLog × World)
  | [] => some (log, w)
  | x :: rest => do
    let w' ← w.occur? x
    w'.follow? (w.note x w' log) rest

/-- What the reader has put into control's mailbox. -/
def forwarded (w : World) (log : ReaderLog) : List Message :=
  log.desk.sentBy w.session.readerId

variable {w w' last : World} {coding : Coding} {log log' : ReaderLog} {xs : List Occurrence}
  {x : Occurrence}

theorem follow_induction {P : ReaderLog → World → Prop} (start : P log w)
    (next : ∀ log₁ w₁ x w₂, P log₁ w₁ → w₁.occur? x = some w₂ → P (w₁.note x w₂ log₁) w₂)
    (hrun : w.follow? log xs = some (log', last)) : P log' last := by
  induction xs generalizing w log with
  | nil =>
    cases hrun
    exact start
  | cons x rest ih =>
    simp only [follow?, Option.bind_eq_bind, Option.bind_eq_some_iff] at hrun
    obtain ⟨w₁, hx, hrest⟩ := hrun
    exact ih (next log w x w₁ start hx) hrest

/-! ## The log -/

section logs

/-- The reader passes over messages, and does nothing else, until it takes a start message; it takes
none after that. -/
def Heeds (w : World) (log : ReaderLog) : Prop :=
  ∃ ignored, .start ∉ ignored ∧
    ((log.mail.taken = ignored ∧ w.session.reader ≠ .reading ∧ w.forwarded log = [] ∧
        w.session.connection.inbound = log.came) ∨
      (log.mail.taken = ignored ++ [.start] ∧ w.session.reader ∈ [.reading, .ended]))

/-- The reader has forwarded the messages of the first frames of what has come, and what it has not
read is what follows them. If it has stopped, then because of what it found there. -/
def Attends (w : World) (coding : Coding) (log : ReaderLog) : Prop :=
  ∃ vs rest, Frame.readAll coding vs.length log.came = (vs, none, rest) ∧
    w.forwarded log = vs.map .heard ∧
    (w.session.reader ≠ .ended → w.session.connection.inbound = rest) ∧
    (log.stopped = true → w.session.reader = .ended ∧ ∃ e back,
      Frame.read coding rest = (.error e, back) ∧
        (e.isShortage = true → w.session.connection.ended = true))

/-- What the log says of a session at any time. -/
structure Noted (coding : Coding) (log : ReaderLog) (w : World) : Prop where
  begun : w.Begun
  coding_eq : w.session.host.coding = coding
  fine : .bytes [] ∉ log.came
  mail : log.mail.taken ++ w.readerQueue = log.mail.sent.map Prod.snd
  desk : log.desk.taken ++ w.controlQueue = log.desk.sent.map Prod.snd
  heeds : w.Heeds log
  attends : w.Attends coding log
  killed : w.session.reader = .ended → log.stopped = true ∨ w.session.readerKilled = true

/-- A mailbox that is accounted for stays so. -/
lemma Moves.accounts {h : History} {before after : List Message} (hmoves : Moves before after)
    (sender : Option ActorId) (haccount : h.taken ++ before = h.sent.map Prod.snd) :
    (h ++ mailEvents sender before after).taken ++ after =
      (h ++ mailEvents sender before after).sent.map Prod.snd := by
  rw [History.taken_append, History.sent_append, List.map_append, List.append_assoc,
    hmoves.account, ← haccount, List.append_assoc]

lemma sent_mailEvents (sender : Option ActorId) (before after : List Message) :
    (mailEvents sender before after).sent = (after.drop before.length).map (sender, ·) := by
  simp [mailEvents, History.sent, -List.map_drop, -List.map_take]

lemma taken_mailEvents (sender : Option ActorId) (before after : List Message) :
    (mailEvents sender before after).taken = before.take (before.length - after.length) := by
  simp [mailEvents, History.taken, -List.map_drop, -List.map_take]

lemma bytes_notMem_brings (x : Occurrence) : .bytes [] ∉ x.brings := by
  unfold Occurrence.brings Delivery.arrived
  split
  · split
    · simp
    · next hne => simpa using fun h => hne h.symm
  · simp

end logs

/-! ## Steps of others -/

section others

lemma note_of_others (hx : x.isReaders = false) : (w.note x w' log).stopped = log.stopped ∧
    (w.note x w' log).desk = log.desk ++ mailEvents none w.controlQueue w'.controlQueue := by
  simp [note, hx]

/-- What anybody but the reader puts into control's mailbox the reader has not forwarded. -/
lemma Spares.forwarded (hspares : w.Spares x.brings w') (hx : x.isReaders = false) :
    w'.forwarded (w.note x w' log) = w.forwarded log := by
  have hnobody : (mailEvents none w.controlQueue w'.controlQueue).sentBy w.session.readerId = [] := by
    rw [History.sentBy, sent_mailEvents, List.filterMap_map]
    exact List.filterMap_eq_nil_iff.2 fun _ _ => rfl
  rw [World.forwarded, World.forwarded, hspares.ids.1, (note_of_others hx).2,
    History.sentBy_append, hnobody, List.append_nil]

/-- Nobody but the reader takes messages from its mailbox. -/
lemma Spares.taken (hspares : w.Spares x.brings w') :
    (w.note x w' log).mail.taken = log.mail.taken := by
  have hlength := hspares.queue.length_le
  rw [note, History.taken_append, taken_mailEvents, Nat.sub_eq_zero_of_le hlength, List.take_zero,
    List.append_nil]

lemma Heeds.spares (hheeds : w.Heeds log) (hspares : w.Spares x.brings w')
    (hx : x.isReaders = false) : w'.Heeds (w.note x w' log) := by
  obtain ⟨ignored, hignored, h⟩ := hheeds
  refine ⟨ignored, hignored, ?_⟩
  rw [hspares.taken, hspares.forwarded hx]
  rcases h with ⟨htaken, hreader, hnone, hinbound⟩ | ⟨htaken, hreader⟩
  · refine .inl ⟨htaken, ?_, hnone, by rw [hspares.inbound, hinbound, note]⟩
    rcases hspares.reader with hsame | ⟨-, hwaiting⟩ | ⟨-, -, hended⟩
    · rwa [hsame]
    · simp [hwaiting]
    · simp [hended]
  · refine .inr ⟨htaken, ?_⟩
    rcases hspares.reader with hsame | ⟨habsent, -⟩ | ⟨-, -, hended⟩
    · rwa [hsame]
    · simp [habsent] at hreader
    · simp [hended]

lemma Attends.spares (hattends : w.Attends coding log) (hspares : w.Spares x.brings w')
    (hx : x.isReaders = false) : w'.Attends coding (w.note x w' log) := by
  obtain ⟨vs, rest, hread, hforwarded, hinbound, hstopped⟩ := hattends
  refine ⟨vs, rest ++ x.brings, Frame.readAll_append hread _, ?_, fun hreader => ?_, fun hstop => ?_⟩
  · rw [hspares.forwarded hx, hforwarded]
  · rw [hspares.inbound, hinbound (mt hspares.ended_of_ended hreader)]
  · rw [(note_of_others hx).1] at hstop
    obtain ⟨hended, e, back, herror, hshort⟩ := hstopped hstop
    refine ⟨hspares.ended_of_ended hended, ?_⟩
    by_cases he : e.isShortage = true
    · -- nothing comes after the end of the connection
      obtain ⟨hnothing, hended'⟩ := hspares.ended (hshort he)
      rw [hnothing, List.append_nil]
      exact ⟨e, back, herror, fun _ => hended'⟩
    · refine ⟨e, _, Frame.read_append herror ?_ ?_ _, fun h => absurd h he⟩
      · rintro ⟨⟩
        exact he rfl
      · rintro expected received ⟨⟩
        exact he rfl

lemma Noted.spares (h : Noted coding log w) (hx : x.isReaders = false)
    (hoccur : w.occur? x = some w') : Noted coding (w.note x w' log) w' := by
  have hspares := occur_spares h.begun.sound h.begun.staged hx hoccur
  have hmail := fun {a} => occur_mail (a := a) h.begun.sound hoccur
  refine {
    begun := h.begun.occur hoccur
    coding_eq := by rw [hspares.host, h.coding_eq]
    fine := by simp [note, h.fine, bytes_notMem_brings x]
    mail := ?_
    desk := ?_
    heeds := h.heeds.spares hspares hx
    attends := h.attends.spares hspares hx
    killed := fun hended => ?_ }
  · refine Moves.accounts ?_ _ h.mail
    rw [readerQueue, readerQueue, hspares.ids.1]
    exact hmail (by simp [Session.numbers])
  · refine Moves.accounts ?_ _ h.desk
    rw [controlQueue, controlQueue, hspares.ids.2]
    exact hmail (by simp [Session.numbers])
  · rw [(note_of_others hx).1]
    rcases hspares.reader with hsame | ⟨-, hwaiting⟩ | ⟨-, hkilled, -⟩
    · exact (h.killed (hsame ▸ hended)).imp_right hspares.killed
    · rw [hended] at hwaiting
      cases hwaiting
    · exact .inr (hspares.killed hkilled)

end others

/-! ## Steps of the reader -/

section reading

lemma came_reading : (w.note .reading w' log).came = log.came :=
  List.append_nil _

lemma Reads.same (h : w.Reads w') : w'.session.host = w.session.host ∧
    w'.session.readerId = w.session.readerId ∧ w'.session.controlId = w.session.controlId := by
  cases h with
  | heed _ _ _ hsession | hear _ _ _ _ hsession | stop _ _ _ _ _ hsession => simp [hsession]

/-- What the reader puts into control's mailbox it forwards. -/
lemma Reads.forwarded (h : w.Reads w') (messages : List Message)
    (hqueue : w'.controlQueue = w.controlQueue ++ messages) :
    w'.forwarded (w.note .reading w' log) = w.forwarded log ++ messages := by
  have hown : (mailEvents (some w.session.readerId) w.controlQueue w'.controlQueue).sentBy
      w.session.readerId = messages := by
    rw [hqueue, mailEvents_append, History.sentBy, History.sent, List.filterMap_map,
      List.filterMap_filterMap]
    simp
  rw [World.forwarded, World.forwarded, h.same.2.1, note, History.sentBy_append]
  exact congrArg _ hown

lemma taken_reading (hqueue : w'.readerQueue = w.readerQueue) :
    (w.note .reading w' log).mail.taken = log.mail.taken := by
  rw [note, hqueue, mailEvents_self, List.append_nil]

lemma Heeds.started (hheeds : w.Heeds log) (hreading : w.session.reader = .reading) :
    ∃ ignored, .start ∉ ignored ∧ log.mail.taken = ignored ++ [.start] := by
  obtain ⟨ignored, hignored, ⟨-, hreader, -⟩ | ⟨htaken, -⟩⟩ := hheeds
  · exact absurd hreading hreader
  · exact ⟨ignored, hignored, htaken⟩

lemma Heeds.reads (hheeds : w.Heeds log) (h : w.Reads w') : w'.Heeds (w.note .reading w' log) := by
  cases h with
  | @heed m _ hwaiting hmail hqueue hsession =>
    have hreads : w.Reads w' := .heed hwaiting hmail hqueue hsession
    have htaken' : (w.note .reading w' log).mail.taken = log.mail.taken ++ [m] := by
      rw [note, hmail, mailEvents_cons, History.taken_append]
      rfl
    obtain ⟨ignored, hignored, ⟨htaken, -, hnone, hinbound⟩ | ⟨-, hreader⟩⟩ := hheeds
    · by_cases hstart : m = .start
      · refine ⟨ignored, hignored, .inr ⟨?_, by simp [hsession, hstart]⟩⟩
        rw [htaken', htaken, hstart]
      · refine ⟨ignored ++ [m], ?_, .inl ⟨?_, ?_, ?_, ?_⟩⟩
        · simpa [hignored] using Ne.symm hstart
        · rw [htaken', htaken]
        · simp [hsession, hstart]
        · rw [hreads.forwarded [] (by rw [hqueue, List.append_nil]), hnone, List.append_nil]
        · rw [came_reading, hsession, hinbound]
    · simp [hwaiting] at hreader
  | hear hreading _ hmail _ hsession =>
    obtain ⟨ignored, hignored, htaken⟩ := hheeds.started hreading
    exact ⟨ignored, hignored, .inr ⟨(taken_reading hmail).trans htaken, by simp [hsession, hreading]⟩⟩
  | stop hreading _ _ hmail _ hsession =>
    obtain ⟨ignored, hignored, htaken⟩ := hheeds.started hreading
    exact ⟨ignored, hignored, .inr ⟨(taken_reading hmail).trans htaken, by simp [hsession]⟩⟩

lemma stopped_reading (hstopped : log.stopped = true → w.session.reader = .ended)
    (hgoing : w.session.reader ≠ .ended) :
    (w.note .reading w' log).stopped = true ↔ w'.session.reader = .ended := by
  have hnot : log.stopped = false := by
    rw [← Bool.not_eq_true]
    exact mt hstopped hgoing
  simp [note, hnot, Occurrence.isReaders]

lemma Attends.reads (hattends : w.Attends coding log) (hcoding : w.session.host.coding = coding)
    (h : w.Reads w') : w'.Attends coding (w.note .reading w' log) := by
  obtain ⟨vs, rest, hread, hforwarded, hinbound, hstopped⟩ := hattends
  have hsofar : ∀ messages, w'.controlQueue = w.controlQueue ++ messages →
      w'.forwarded (w.note .reading w' log) = vs.map .heard ++ messages := by
    intro messages hqueue
    rw [h.forwarded messages hqueue, hforwarded]
  have hstop : w.session.reader ≠ .ended →
      ((w.note .reading w' log).stopped = true ↔ w'.session.reader = .ended) :=
    stopped_reading fun hstops => (hstopped hstops).1
  cases h with
  | @heed m _ hwaiting hmail hqueue hsession =>
    refine ⟨vs, rest, by rwa [came_reading], ?_, fun _ => ?_, fun hstops => ?_⟩
    · rw [hsofar [] (by rw [hqueue, List.append_nil]), List.append_nil]
    · rw [hsession]
      exact hinbound (by simp [hwaiting])
    · rw [hstop (by simp [hwaiting]), hsession] at hstops
      simp only at hstops
      split at hstops <;> cases hstops
  | @hear v inbound _ hreading hframe hmail hqueue hsession =>
    have hrest := hinbound (by simp [hreading])
    rw [hcoding, hrest] at hframe
    refine ⟨vs ++ [v], inbound, ?_, ?_, fun _ => by rw [hsession], fun hstops => ?_⟩
    · rw [came_reading, List.length_append, Frame.readAll_add hread]
      simp [Frame.readAll, hframe]
    · rw [hsofar [.heard v] hqueue, List.map_append]
      rfl
    · rw [hstop (by simp [hreading]), hsession] at hstops
      simp [hreading] at hstops
  | @stop e inbound _ hreading hframe hshort hmail hqueue hsession =>
    have hrest := hinbound (by simp [hreading])
    rw [hcoding, hrest] at hframe
    refine ⟨vs, rest, by rwa [came_reading], ?_, fun hne => ?_, fun _ => ⟨?_, e, inbound, hframe, ?_⟩⟩
    · rw [hsofar [] (by rw [hqueue, List.append_nil]), List.append_nil]
    · exact absurd (by rw [hsession]) hne
    · rw [hsession]
    · rw [hsession]
      exact hshort

lemma Noted.reads (h : Noted coding log w) (hx : x.isReaders = true)
    (hoccur : w.occur? x = some w') : Noted coding (w.note x w' log) w' := by
  obtain rfl := Occurrence.eq_reading hx
  have hreads : w.Reads w' := reader_reads h.begun.sound hoccur
  obtain ⟨hhost, hreaderId, hcontrolId⟩ := hreads.same
  have hmail := fun {a} => occur_mail (a := a) h.begun.sound hoccur
  refine {
    begun := h.begun.occur hoccur
    coding_eq := by rw [hhost, h.coding_eq]
    fine := by rw [came_reading]; exact h.fine
    mail := ?_
    desk := ?_
    heeds := h.heeds.reads hreads
    attends := h.attends.reads h.coding_eq hreads
    killed := fun hended => .inl ?_ }
  · refine Moves.accounts ?_ _ h.mail
    rw [readerQueue, readerQueue, hreaderId]
    exact hmail (by simp [Session.numbers])
  · refine Moves.accounts ?_ _ h.desk
    rw [controlQueue, controlQueue, hcontrolId]
    exact hmail (by simp [Session.numbers])
  · simp [note, Occurrence.isReaders, hended]

end reading

/-! ## Runs -/

section runs

lemma Noted.occur (h : Noted coding log w) (hoccur : w.occur? x = some w') :
    Noted coding (w.note x w' log) w' := by
  cases hx : x.isReaders with
  | false => exact h.spares hx hoccur
  | true => exact h.reads hx hoccur

lemma Noted.follow (h : Noted coding log w) (hrun : w.follow? log xs = some (log', last)) :
    Noted coding log' last :=
  follow_induction (P := Noted coding) h (fun _ _ _ _ hnoted hoccur => hnoted.occur hoccur) hrun

lemma opened_noted {image : Image} (hfresh : image.mailboxes.Fresh) (id : Nat) (host : Host)
    (wantsOutput : Bool) (outputPort : Option UInt16) {connection : Connection}
    (hfine : .bytes [] ∉ connection.inbound) :
    Noted host.coding { came := connection.inbound }
      (opened image id host wantsOutput outputPort connection) where
  begun := opened_begun hfresh id host wantsOutput outputPort connection
  coding_eq := rfl
  fine := hfine
  mail := hfresh _ (Nat.lt_succ_self _)
  desk := (opened_blank hfresh id host wantsOutput outputPort connection).queue_eq
  heeds := ⟨[], by simp, .inl ⟨rfl, by simp [opened, start, goServe, change, Session.create], rfl, rfl⟩⟩
  attends := ⟨[], _, rfl, rfl, fun _ => rfl, by simp⟩
  killed h := by cases h

end runs

/-! ## What is forwarded -/

section forwarding

/-- The frames at the front of what has come are those of the messages that the reader has forwarded
and of those that it has still to forward, and no other follows. As long as there are any left, it
forwards the next of them in one step. After the last it stops, unless it waits for more bytes, as
it does where these might go on to be a frame and the client has not ended its direction. -/
structure Splits (coding : Coding) (log : ReaderLog) (w : World) (vs left : List Sexp)
    (rest : List UInt8) : Prop where
  forwarded : w.forwarded log = vs.map .heard
  leads : Frame.Leads coding log.stream (vs ++ left) rest
  longest : Frame.Longest coding log.stream (vs ++ left)
  next : w.session.reader = .reading → ∀ v more, left = v :: more → ∃ w',
    w.step? .reader = some w' ∧ w'.session.reader = .reading ∧
      w'.controlQueue = w.controlQueue ++ [.heard v]
  halt : w.session.reader = .reading → left = [] →
    (w.step? .reader = none ↔
      Frame.Wanting rest ∧ ¬ log.came.Fails ∧ w.session.connection.ended = false) ∧
    ∀ w', w.step? .reader = some w' →
      w'.session.reader = .ended ∧ w'.controlQueue = w.controlQueue
  stopped : log.stopped = true → left = [] ∧
    (Frame.Wanting rest → log.came.Fails ∨ w.session.connection.ended = true)

/-- What the reader makes of what comes for it. -/
structure Forwards (coding : Coding) (log : ReaderLog) (w : World) : Prop where
  /-- Messages leave the reader's mailbox in the order in which they enter it. -/
  mail : log.mail.taken ++ w.readerQueue = log.mail.sent.map Prod.snd
  /-- So do they leave control's, the reader's among those of others. -/
  desk : log.desk.taken ++ w.controlQueue = log.desk.sent.map Prod.snd
  heeds : w.Heeds log
  /-- Until it is told to start the reader goes on as long as there are messages. -/
  waits : w.session.reader = .waiting → (w.step? .reader = none ↔ w.readerQueue = [])
  splits : ∃ vs left rest, Splits coding log w vs left rest
  /-- If the reader has not stopped by itself it ends only where it is killed. -/
  ends : w.session.reader = .ended → log.stopped = true ∨ w.session.readerKilled = true
  /-- Once it has ended it forwards nothing more. -/
  stays : w.session.reader = .ended → ∀ xs log' last, w.follow? log xs = some (log', last) →
    last.session.reader = .ended ∧ last.forwarded log' = w.forwarded log
  /-- Then the service need only go on to close the session and leave. -/
  closes : w.session.reader = .ended → ∃ n last,
    w.run? (List.replicate n .serve) = some last ∧ last.session.service = .ended ∧
      last.session.closed = true

lemma isShortage_iff {e : FramingError} : e.isShortage = true ↔
    e = .closed ∨ ∃ expected received, e = .truncated expected received := by
  cases e <;> simp [FramingError.isShortage]

lemma step_reading_ok {v : Sexp} {back : Delivery} (hreading : w.session.reader = .reading)
    (hread : Frame.read w.session.host.coding w.session.connection.inbound = (.ok v, back)) :
    ∃ w', w.step? .reader = some w' := by
  simp [step?, readerStep?, readFrame?, hreading, hread]

lemma step_reading_error {e : FramingError} {back : Delivery}
    (hreading : w.session.reader = .reading)
    (hread : Frame.read w.session.host.coding w.session.connection.inbound = (.error e, back)) :
    w.step? .reader = none ↔ e.isShortage = true ∧ w.session.connection.ended = false := by
  simp [step?, readerStep?, readFrame?, hreading, hread]

lemma waits_iff (hwaiting : w.session.reader = .waiting) :
    w.step? .reader = none ↔ w.readerQueue = [] := by
  rw [readerQueue, ← Mailboxes.receive?_eq_none_iff]
  cases hreceive : w.image.mailboxes.receive? w.session.readerId <;>
    simp [step?, readerStep?, hwaiting, receive?, hreceive]

lemma Reads.of_ok {v : Sexp} {back : Delivery} (h : w.Reads w')
    (hreading : w.session.reader = .reading)
    (hread : Frame.read w.session.host.coding w.session.connection.inbound = (.ok v, back)) :
    w'.session.reader = .reading ∧ w'.controlQueue = w.controlQueue ++ [.heard v] := by
  cases h with
  | heed hwaiting =>
    rw [hreading] at hwaiting
    cases hwaiting
  | hear _ hread' _ hqueue hsession =>
    obtain ⟨⟨⟩, -⟩ := Prod.mk.inj (hread.symm.trans hread')
    exact ⟨by rw [hsession, hreading], hqueue⟩
  | stop _ hread' =>
    rw [hread] at hread'
    cases hread'

lemma Reads.of_error {e : FramingError} {back : Delivery} (h : w.Reads w')
    (hreading : w.session.reader = .reading)
    (hread : Frame.read w.session.host.coding w.session.connection.inbound = (.error e, back)) :
    w'.session.reader = .ended ∧ w'.controlQueue = w.controlQueue := by
  cases h with
  | heed hwaiting =>
    rw [hreading] at hwaiting
    cases hwaiting
  | hear _ hread' =>
    rw [hread] at hread'
    cases hread'
  | stop _ _ _ _ hqueue hsession => exact ⟨by rw [hsession], hqueue⟩

lemma Noted.splits (h : Noted coding log w) : ∃ vs left rest, Splits coding log w vs left rest := by
  obtain ⟨vs, behind, hall, hforwarded, hinbound, hstopped⟩ := h.attends
  obtain ⟨hleads, hfine, hfails⟩ := Frame.leads_readAll h.fine hall
  obtain ⟨left, rest, hleft, hend⟩ := Frame.exists_leads coding behind.untilFailure.content
  have hwhole := hleads.append hleft
  -- what the reader finds is what follows the frames of the messages that it has forwarded
  have hfinds : w.session.reader = .reading → ∀ result back,
      Frame.read coding behind = (result, back) →
      Frame.read w.session.host.coding w.session.connection.inbound = (result, back) := by
    intro hreading result back hread
    rw [h.coding_eq, hinbound (by simp [hreading]), hread]
  refine ⟨vs, left, rest, hforwarded, hwhole, hwhole.longest hend, ?next, ?halt, ?stopped⟩
  case next =>
    rintro hreading v more rfl
    cases hleft with
    | cons hv _ =>
      cases hread : Frame.read coding behind with
      | mk result back =>
        cases result with
        | error e => exact absurd hv ((Frame.read_eq_error hfine hread).1 _ _)
        | ok v' =>
          obtain ⟨taken, hv', -⟩ := Frame.read_eq_ok hfine hread
          obtain rfl : v' = v := by
            have hsame := (Frame.begins_iff.1 hv').symm.trans (Frame.begins_iff.1 hv)
            simpa using congrArg Prod.fst hsame
          have hfound := hfinds hreading _ _ hread
          obtain ⟨w', hstep⟩ := step_reading_ok hreading hfound
          obtain ⟨hreader, hqueue⟩ := (reader_reads h.begun.sound hstep).of_ok hreading hfound
          exact ⟨w', hstep, hreader, hqueue⟩
  case halt =>
    rintro hreading rfl
    cases hleft
    cases hread : Frame.read coding behind with
    | mk result back =>
      cases result with
      | ok v =>
        obtain ⟨taken, hv, -⟩ := Frame.read_eq_ok hfine hread
        exact absurd hv (hend _ _)
      | error e =>
        have hfound := hfinds hreading _ _ hread
        have hshort := (Frame.read_eq_error hfine hread).2
        rw [← isShortage_iff, hfails] at hshort
        refine ⟨?_, fun w' hstep => (reader_reads h.begun.sound hstep).of_error hreading hfound⟩
        rw [step_reading_error hreading hfound, hshort, and_assoc]
  case stopped =>
    intro hstop
    obtain ⟨-, e, back, hread, hshort⟩ := hstopped hstop
    obtain ⟨hnone, herror⟩ := Frame.read_eq_error hfine hread
    cases hleft with
    | cons hv _ => exact absurd hv (hnone _ _)
    | nil =>
      refine ⟨rfl, fun hwanting => or_iff_not_imp_left.2 fun hsmooth => hshort ?_⟩
      rw [isShortage_iff, herror, hfails]
      exact ⟨hwanting, hsmooth⟩

/-- What has ended stays so, whatever else happens. -/
lemma Noted.stays (h : Noted coding log w) (hended : w.session.reader = .ended)
    (hrun : w.follow? log xs = some (log', last)) :
    last.session.reader = .ended ∧ last.forwarded log' = w.forwarded log := by
  refine (follow_induction (P := fun log₁ w₁ => Noted coding log₁ w₁ ∧
    w₁.session.reader = .ended ∧ w₁.forwarded log₁ = w.forwarded log) ⟨h, hended, rfl⟩ ?_ hrun).2
  rintro log₁ w₁ x w₂ ⟨hnoted, hended₁, hsame⟩ hoccur
  refine ⟨hnoted.occur hoccur, ?_⟩
  cases hx : x.isReaders with
  | false =>
    have hspares := occur_spares hnoted.begun.sound hnoted.begun.staged hx hoccur
    exact ⟨hspares.ended_of_ended hended₁, (hspares.forwarded hx).trans hsame⟩
  | true =>
    obtain rfl := Occurrence.eq_reading hx
    simp [occur?, happen?, turn?, step?, readerStep?, hended₁] at hoccur

/-- Whatever else happens in a session, whatever comes over its connection and in whichever pieces,
and whatever messages are sent to its reader, the reader passes over these until it is told to start
and then forwards the messages of the frames at the front of what comes, each once and in their
order, and no other. It stops where no frame begins; it forwards nothing after that, whatever
follows, and the session closes. -/
theorem reader_forwards {image : Image} {id : Nat} {host : Host} {wantsOutput : Bool}
    {outputPort : Option UInt16} {connection : Connection} (hfresh : image.mailboxes.Fresh)
    (hfine : .bytes [] ∉ connection.inbound)
    (hrun : (opened image id host wantsOutput outputPort connection).follow?
      { came := connection.inbound } xs = some (log, w)) : Forwards host.coding log w := by
  have h := (opened_noted hfresh id host wantsOutput outputPort hfine).follow hrun
  exact {
    mail := h.mail
    desk := h.desk
    heeds := h.heeds
    waits := waits_iff
    splits := h.splits
    ends := h.killed
    stays := fun hended _ _ _ => h.stays hended
    closes := h.begun.leaves }

/-- Some bytes come. -/
def sampleBytes (text : String) : Occurrence :=
  .happening (.turn (.step (.deliver (.bytes (Text.Utf8.encode text.toList)))))

/-- Beside another session, a message that is not for it comes to the reader before it is told to
start, and the second frame in two pieces; the third cannot be parsed, and the fourth could be. -/
def sampleReading : List Occurrence :=
  [.elsewhere { mailboxes := ⟨4, [⟨3, [.start]⟩]⟩ }, .notice (.emit (.writeString "early" none)),
    sampleBytes "000004(:a)0000"] ++
  List.replicate 5 (.happening (.turn (.step .serve))) ++ List.replicate 3 .reading ++
  [.happening (.post (.result 3 .abort 1)), sampleBytes "04(:b)000002))000004(:c)"] ++
  List.replicate 2 .reading

theorem reader_forwards_unparsable : ∃ log w,
    sample.follow? { came := [] } sampleReading = some (log, w) ∧ Forwards .utf8 log w ∧
    log.stopped = true ∧ log.mail.taken.length = 2 ∧ w.controlQueue.length = 3 ∧
    (w.forwarded log).length = 2 := by
  have hall : (sample.follow? { came := [] } sampleReading).any (fun (log, w) =>
      log.stopped = true ∧ log.mail.taken.length = 2 ∧ w.controlQueue.length = 3 ∧
      (w.forwarded log).length = 2) = true := by
    decide +kernel
  obtain ⟨⟨log, w⟩, hrun, hshows⟩ := (Option.any_eq_true _ _).1 hall
  exact ⟨log, w, hrun, reader_forwards (fun _ _ => rfl) (by simp) hrun, of_decide_eq_true hshows⟩

end forwarding

end World

end EvalServer
