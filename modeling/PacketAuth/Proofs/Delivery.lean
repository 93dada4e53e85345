import PacketAuth.Proofs.Custody
import PacketAuth.Proofs.Entry
import PacketAuth.Proofs.Operation

/-! One job after the other: what a host is after its engine has handed back one more job to the
call that waits for it. -/
namespace PacketAuth

namespace Call

/-- A busy answer is the only one that does not end a call. -/
theorem react_of_not_busy (c : Call) {job : Job} (h : job.outcome ≠ .busy) :
    c.react job = .settle job false := by
  rw [react, if_neg fun both => h both.1]

/-- A job that is not done fails its call, with the code for its outcome. -/
theorem ending_of_not_done (c : Call) {job : Job} (h : job.outcome ≠ .done) :
    (c.ending job).reply =
      .failed c.request ⟨.engineFailed job.outcome.failureCode, none⟩ :=
  (c.ending_of_error (Job.verdict_of_not_done h)).1

end Call

namespace Host
variable {σ : Type} {E : Engine σ}

theorem reply?_of_call {h : Host σ} {ticket : Nat} {c : Call} (hc : h.calls[ticket]? = some c) :
    h.reply? ticket = c.reply := by
  rw [reply?, hc, Option.bind_some]

theorem reply?_of_waiting {h : Host σ} {ticket : Nat} {c : Call} (hc : h.calls[ticket]? = some c)
    (hw : c.isWaiting = true) : h.reply? ticket = none :=
  (reply?_of_call hc).trans (Option.isNone_iff_eq_none.mp hw)

/-- A host whose engine has handed back one more job. -/
def handOver (E : Engine σ) (step : Step σ Job) (h : Host σ) : Host σ :=
  deliver E step.answer { h with engine := step.state, log := step.events.reverse ++ h.log }

theorem deliverNext_succ {h : Host σ} {step : Step σ Job}
    (hs : E.handBack h.now h.engine = some step) (n : Nat) :
    h.deliverNext E (n + 1) = (h.handOver E step).deliverNext E n := by
  rw [deliverNext, hs]
  rfl

/-- What becomes of a host when a call that waits gets its job back: the job is tried again, or it
ends the call. -/
inductive HandedOver (E : Engine σ) (h : Host σ) (step : Step σ Job) (ticket : Nat) (c : Call) :
    Host σ → Prop
  | resubmitted (busy : step.answer.outcome = .busy)
      (allowed : c.retry.allows step.answer.retries = true) (log : List Event) :
      HandedOver E h step ticket c
        { h with
          engine := (E.submit step.answer.rearm c.retry.backoff h.now step.state).state
          services := h.services.modify c.request.service (·.count .busyRetries)
          log }
  | concluded {job : Job} {exhausted : Bool} (settled : c.react step.answer = .settle job exhausted)
      (log : List Event) :
      HandedOver E h step ticket c
        { h with
          engine := E.release job step.state
          services := h.services.modify c.request.service (c.credit job)
          calls := h.calls.set ticket { c with slot := .taken, reply := some (c.ending job).reply }
          log }

/-- A job that comes back with a final outcome ends its call. -/
theorem HandedOver.ended {h h' : Host σ} {step : Step σ Job} {ticket : Nat} {c : Call}
    (handed : HandedOver E h step ticket c h') (hb : step.answer.outcome ≠ .busy) :
    ∃ log, h' =
      { h with
        engine := E.release step.answer step.state
        services := h.services.modify c.request.service (c.credit step.answer)
        calls := h.calls.set ticket
          { c with slot := .taken, reply := some (c.ending step.answer).reply }
        log } := by
  cases handed with
  | resubmitted busy => exact absurd busy hb
  | concluded settled log =>
    rw [c.react_of_not_busy hb] at settled
    cases settled
    exact ⟨log, rfl⟩

theorem handOver_spec {h : Host σ} {step : Step σ Job} {ticket : Nat} {c : Call}
    (hj : step.answer.recipient = some (.call ticket)) (hc : h.calls[ticket]? = some c)
    (hw : c.isWaiting = true) (hp : c.slot = .pending) :
    HandedOver E h step ticket c (h.handOver E step) := by
  obtain ⟨log, handed⟩ : ∃ log, h.handOver E step =
      World.passed E ticket c step.answer log
        { h with engine := step.state, log := step.events.reverse ++ h.log } :=
    World.deliver_of_call E hj hc
  rw [handed, World.passed]
  cases hreact : c.react step.answer with
  | resubmit job =>
    obtain ⟨busy, -, allowed, rfl⟩ := Call.react_eq_resubmit hreact
    exact .resubmitted busy allowed log
  | settle job exhausted =>
    dsimp only
    rw [if_pos hp, if_pos hw]
    exact .concluded hreact log

end Host

namespace World
variable {h : Host Software} {hand : List Job}

/-- A job in the queue belongs to a call that waits for it. -/
theorem Custody.call_of_queued (custody : Custody ⟨h, hand⟩) {j : Job}
    (hj : j ∈ h.engine.queued) :
    ∃ ticket c, h.calls[ticket]? = some c ∧ c.isWaiting = true ∧ c.slot = .pending ∧
      j.recipient = some (.call ticket) := by
  obtain ⟨ticket, c, hc, hw, htoken⟩ := mem_waitingTokens.mp (custody.queued j hj)
  exact ⟨ticket, c, hc, hw, (custody.slots c (List.mem_of_getElem? hc)).mpr hw,
    (Prod.mk.inj htoken).1⟩

/-- With the worker at rest, the job of a call that waits is in the queue. -/
theorem Custody.queued_of_call (custody : Custody ⟨h, []⟩) (hr : h.engine.returning = [])
    {ticket : Nat} {c : Call} (hc : h.calls[ticket]? = some c) (hw : c.isWaiting = true) :
    ∃ j ∈ h.engine.queued, j.recipient = some (.call ticket) := by
  obtain ⟨j, hj, htoken⟩ := List.mem_map.mp ((custody.settled ⟨rfl, hr⟩).mem_iff.mpr
    (mem_waitingTokens.mpr ⟨ticket, c, hc, hw, rfl⟩))
  exact ⟨j, hj, (Prod.mk.inj htoken).1⟩

/-- With nothing in the queue either, no call waits. -/
theorem Custody.ended_of_idle (custody : Custody ⟨h, []⟩) (hr : h.engine.returning = [])
    (hq : h.engine.queue = []) : ∀ c ∈ h.calls, c.isWaiting = false := by
  intro c hc
  obtain ⟨ticket, hget⟩ := List.getElem?_of_mem hc
  refine eq_false_of_ne_true fun hw => ?_
  obtain ⟨j, hj, -⟩ := custody.queued_of_call hr hget hw
  rw [Software.queued, hq] at hj
  cases hj

/-- Whatever comes back from a running engine goes to a call that waits for it. -/
theorem Custody.handOver (custody : Custody ⟨h, hand⟩) (hr : h.engine.isShutDown = false)
    {step : Step Software Job} (hs : h.engine.handBack h.now = some step) :
    ∃ ticket c, h.calls[ticket]? = some c ∧ c.isWaiting = true ∧
      step.answer.recipient = some (.call ticket) ∧
      Host.HandedOver Software.engine h step ticket c (h.handOver Software.engine step) := by
  obtain ⟨q, hq, output, outcome, hanswer⟩ := Software.handBack_of_queue hr hs
  obtain ⟨ticket, c, hc, hw, hp, hj⟩ := custody.call_of_queued (List.mem_map_of_mem hq)
  have own : step.answer.recipient = some (.call ticket) := by
    rw [hanswer]
    exact hj
  exact ⟨ticket, c, hc, hw, own, Host.handOver_spec own hc hw hp⟩

theorem run_handOver {σ : Type} {R : Rules σ} {h : Host σ} {step : Step σ Job}
    (hs : R.engine.handBack h.now h.engine = some step) (hand : List Job) :
    Run R ⟨h, hand⟩ ⟨h.handOver R.engine step, hand⟩ := by
  have run := run_deliverNext (R := R) 1 h hand
  rwa [Host.deliverNext_succ hs] at run

end World
end PacketAuth
