import EvalServer.Proofs.Session.Results
import EvalServer.Proofs.Session.Turns

/-!
# Requests and their answers

For every run of a session, with its turns in any order and kills at any time: what an evaluator
has sent is the start of one block for each request that it was handed, in their order, and the
returns that control writes are the first of the results of these blocks, in the order in which
they came.
-/

namespace EvalServer

namespace World

open Traffic

section opened

variable {image : Image} {id : Nat} {host : Host} {wantsOutput : Bool} {outputPort : Option UInt16}
  {connection : Connection} {turns : List Turn} {h : History} {last : World}

/-- Every actor has sent the start of the blocks of the requests that it was handed: the console
events of an evaluation of the request's form in its namespace, what the client must know about the
outcome, and one result with the request's id. Control takes all messages in the order in which
they were sent, and writes its returns in the order of the results. -/
theorem sent_prefix_blocks (hfresh : image.mailboxes.Fresh)
    (hrun : (opened image id host wantsOutput outputPort connection).play? turns = some (h, last)) :
    (∀ a, ∃ vs : List Evaluation,
      vs.map Evaluation.work = h.handedTo a ∧
      (∀ v ∈ vs, v.Genuine host wantsOutput a) ∧
      h.sentBy a <+: vs.flatMap (·.block a) ∧
      h.hintedBy a <+: vs.filterMap Evaluation.hints? ∧
      h.resultsOf a <+: vs.map fun v => (v.status, v.work.id)) ∧
    h.sent.map Prod.snd = h.taken ++ last.controlQueue ∧
    h.returns <+: h.results.map Prod.snd := by
  obtain ⟨hblank, hrun⟩ := opened_run hfresh hrun
  have hledger := Ledger.run hblank hrun
  have hbooks := Books.run hblank hrun
  have hhost : last.traffic.host = host := hrun.same.1
  have hwants : last.traffic.wantsOutput = wantsOutput := hrun.same.2
  refine ⟨fun a => ?_, hbooks.mail, hbooks.returned.isPrefix⟩
  obtain ⟨vs, hworks, hgenuine, hsent, hhinted⟩ := hledger.exists_evaluations a
  rw [hhost, hwants] at hgenuine
  have hresults : h.resultsOf a <+: vs.map fun v => (v.status, v.work.id) := by
    rw [← results_of_blocks hgenuine]
    exact (hbooks.resultsOf_isPrefix hledger a).trans ((hsent.filterMap _).map _)
  exact ⟨vs, hworks, hgenuine, hsent, hhinted, hresults⟩

end opened

/-- Two workers get a request each, and the second answers first. -/
def swappedTurns : List Turn :=
  let answer (worker : ActorId) (job : Nat) : List Turn :=
    List.replicate 2 (.step (.evaluator worker)) ++ List.replicate 2 (.step (.job job)) ++
      List.replicate 3 (.step (.evaluator worker))
  sampleStart ++ sampleMessage "(:emacs-rex (swank/x) nil t 1)" ++
    sampleMessage "(:emacs-rex (swank/x) nil t 2)" ++ List.replicate 6 (.step .control) ++
    answer 5 0 ++ answer 4 1 ++ List.replicate 8 (.step .control)

theorem sent_prefix_blocks_swapped :
    ∃ h last, sample.play? swappedTurns = some (h, last) ∧
      h.returns = [(.abort, 2), (.abort, 1)] ∧
      (∀ a, ∃ vs : List Evaluation,
        vs.map Evaluation.work = h.handedTo a ∧
        (∀ v ∈ vs, v.Genuine sample.session.host false a) ∧
        h.sentBy a <+: vs.flatMap (·.block a) ∧
        h.hintedBy a <+: vs.filterMap Evaluation.hints? ∧
        h.resultsOf a <+: vs.map fun v => (v.status, v.work.id)) ∧
      h.sent.map Prod.snd = h.taken ++ last.controlQueue ∧
      h.returns <+: h.results.map Prod.snd := by
  have hreturns : (sample.play? swappedTurns).map (fun p => p.1.returns) =
      some [(.abort, 2), (.abort, 1)] := by
    decide +kernel
  obtain ⟨⟨h, last⟩, hrun, hreturns⟩ := Option.map_eq_some_iff.1 hreturns
  have hfresh : Mailboxes.Fresh {} := fun _ _ => rfl
  exact ⟨h, last, hrun, hreturns, sent_prefix_blocks hfresh hrun⟩

end World

end EvalServer
