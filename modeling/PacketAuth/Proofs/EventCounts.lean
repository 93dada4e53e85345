import PacketAuth.Proofs.Operation
import PacketAuth.Proofs.ServiceEvents
import PacketAuth.Proofs.Sessions

/-! The log of a host against the counters of its engine and of its services. What an engine logs it
also counts, except that a queued job is logged when it comes and when it goes, and the jobs that
are still queued at the end of the engine only by their number. -/
namespace PacketAuth

namespace Event

/-- How many jobs the worker took out of the queue when it went. -/
def drained? : Event → Option Nat
  | engineStopping n => some n
  | _ => none

/-- How many jobs were drained at the end of the engine. -/
def drainedJobs (log : List Event) : Nat := (log.filterMap drained?).sum

@[simp] theorem drainedJobs_nil : drainedJobs [] = 0 := rfl

@[simp] theorem drainedJobs_cons (e : Event) (log : List Event) :
    drainedJobs (e :: log) = e.drained?.getD 0 + drainedJobs log := by
  rw [drainedJobs, List.filterMap_cons]
  cases e.drained? with
  | none => rw [Option.getD_none, Nat.zero_add, drainedJobs]
  | some n => rw [Option.getD_some, List.sum_cons, drainedJobs]

end Event

open Event

namespace Software

/-- The log tells of the sessions that the engine opened and of the jobs that it found busy or
cancelled, and of each job that was queued what became of it. -/
structure Told (s : Software) (log : List Event) : Prop where
  created : logged "session created" log = s.accounting.sessionsCreated
  cancelled : logged "queued job cancelled" log = s.accounting.cancellations
  busy : log.countP isBusy = s.accounting.busyOutcomes
  queued : logged "job queued" log =
    logged "job processed" log + s.accounting.cancellations + s.queue.length + drainedJobs log

namespace Told
variable {s : Software} {log : List Event}

theorem fresh (capacity : Capacity) :
    Told (World.fresh capacity).host.engine (World.fresh capacity).host.log := by
  constructor <;> rfl

theorem createSession (h : Told s log) (key : AuthKey) :
    Told (s.createSession key).state ((s.createSession key).events.reverse ++ log) := by
  obtain ⟨created, cancelled, busy, queued⟩ := h
  obtain ⟨hqueue, -, -, haccounting⟩ := createSession_frame key s
  have hevents := createSession_events key s
  cases hanswer : (s.createSession key).answer <;>
    rw [hanswer] at haccounting hevents <;>
    constructor <;>
    simp [hqueue, haccounting, hevents, Accounting.record, wording, isBusy, drained?] <;>
    assumption

theorem acquire (h : Told s log) : Told s.acquire.state (s.acquire.events.reverse ++ log) := by
  obtain ⟨created, cancelled, busy, queued⟩ := h
  rw [Software.acquire_def]
  split
  · exact ⟨created, cancelled, busy, queued⟩
  · dsimp only
    split <;> exact ⟨created, cancelled, busy, queued⟩

theorem submit (h : Told s log) (job : Job) (delay now : Nat) :
    Told (s.submit job delay now).state ((s.submit job delay now).events.reverse ++ log) := by
  obtain ⟨created, cancelled, busy, queued⟩ := h
  cases shut : s.isShutDown with
  | true =>
    rw [submit_of_shutDown shut]
    exact ⟨created, cancelled, busy, queued⟩
  | false =>
    rw [submit_of_running shut]
    constructor <;>
      simp [record, Accounting.record, wording, isBusy, drained?] <;>
      omega

theorem handBack (h : Told s log) {now : Nat} {step : Step Software Job}
    (hstep : s.handBack now = some step) : Told step.state (step.events.reverse ++ log) := by
  obtain ⟨created, cancelled, busy, queued⟩ := h
  obtain ⟨job, rest, -, -, rfl⟩ | ⟨before, q, after, -, hqueue, rfl⟩ := handBack_cases hstep
  · exact ⟨created, cancelled, busy, queued⟩
  · obtain ⟨output, outcome, hanswer, hworked, faults, hstate⟩ :=
      work_spec q.job { s with queue := before ++ after }
    have hlength : s.queue.length = (before ++ after).length + 1 := by
      simp only [hqueue, List.length_append, List.length_cons]
      omega
    rw [hlength] at queued
    rw [hstate, work_events, hanswer]
    cases outcome with
    | pending => exact absurd rfl hworked.1
    | _ =>
      constructor <;>
        simp [record, entryOf, Accounting.record, wording, isBusy, drained?,
          -List.length_append] <;>
        omega

theorem cancel (h : Told s log) (id : JobId) :
    Told (s.cancel id).state ((s.cancel id).events.reverse ++ log) := by
  obtain ⟨created, cancelled, busy, queued⟩ := h
  obtain ⟨-, hcancel⟩ | ⟨before, q, after, hqueue, -, hcancel⟩ := s.cancel_cases id <;>
    rw [hcancel]
  · exact ⟨created, cancelled, busy, queued⟩
  · simp only [hqueue, List.length_append, List.length_cons] at queued
    constructor <;>
      simp [record, Accounting.record, wording, isBusy, drained?] <;>
      omega

theorem service (h : Told s log) {e : Event} (he : e.isEngine = false) : Told s (e :: log) := by
  obtain ⟨created, cancelled, busy, queued⟩ := h
  cases e with
  | engineStarted | sessionCreated | jobQueued | jobProcessed | jobCancelled | engineStopping =>
    cases he
  | _ => constructor <;> simpa [wording, isBusy, drained?]

/-- What the worker takes out of the queue when it goes is drained. -/
theorem change (h : Told s log) {step : Step Software Unit} (hc : Change s step) :
    Told step.state (step.events.reverse ++ log) := by
  obtain ⟨created, cancelled, busy, queued⟩ := h
  cases hc with
  | stop =>
    obtain ⟨-, -, hstop⟩ | hstop := s.stop_cases <;> rw [hstop]
    · constructor <;> simp [wording, isBusy, drained?] <;> omega
    · exact ⟨created, cancelled, busy, queued⟩
  | _ => exact ⟨created, cancelled, busy, queued⟩

end Told

theorem logs_told : promptRules.Logs Told where
  service he h := h.service he
  change hc h := h.change hc
  createSession key h := h.createSession key
  acquire h := h.acquire
  submit job delay now h := h.submit job delay now
  handBack hstep h := h.handBack hstep
  release _ h := ⟨h.created, h.cancelled, h.busy, h.queued⟩
  cancel id h := h.cancel id

end Software

namespace World

/-- Whatever was done with a new engine through services, with no call ended while its job was
coming back: when no job is in the engine's hand, each event was logged as often as it was counted.
Of the jobs that were queued each was processed, cancelled or drained, or is queued still. -/
theorem log_agrees_with_counters {capacity : Capacity} {w : World Software}
    (run : Run Software.promptRules (fresh capacity) w) (hw : w.hand = []) :
    let a := w.host.engine.accounting
    let total := Service.total w.host.services
    let events := fun text => logged text w.host.log
    events "request rejected" = total .malformed ∧
      events "tag mismatch" = total .verifiedFail ∧
      events "wait interrupted" = total .interrupted ∧
      events "engine busy, resubmitting" = total .busyRetries ∧
      (events "busy retries exhausted" : Int) = (a.busyOutcomes : Int) - total .busyRetries ∧
      (events "lane session opened" = events "session created" ∧
        events "session created" = total .sessionsCreated ∧
        total .sessionsCreated = a.sessionsCreated) ∧
      (events "lane session creation failed" = total .sessionFailures ∧
        total .sessionFailures = a.sessionFailures) ∧
      events "queued job cancelled" = a.cancellations ∧
      events "job queued" = events "job processed" + a.cancellations +
        w.host.engine.queue.length + drainedJobs w.host.log := by
  intro a total events
  have seen := Run.effects run
  have services := (Told.fresh capacity).effects (.fresh capacity) (fresh_balanced capacity) seen
  have engine := Software.logs_told.effects seen (Software.Told.fresh capacity)
  obtain ⟨registered, -⟩ := (Registered.fresh capacity).effects
    (Relation.ReflTransGen.mono (fun _ _ => Effect.unprompted) _ _ seen)
  have told (c : Stats.Counter) {text : String} (hc : c.wording? = some text) :
      events text = total c := (logged_eq_tally hc).trans (services.counted c text hc)
  have opened : total .sessionsCreated = a.sessionsCreated :=
    registered.opened.trans registered.created.symm
  have created : events "session created" = total .sessionsCreated :=
    engine.created.trans opened.symm
  -- with nothing in hand, each busy job was tried again or given up
  have exhausted : a.busyOutcomes = total .busyRetries + events "busy retries exhausted" := by
    have pursued : w.host.log.countP isBusy =
        w.hand.countP (·.outcome = .busy) + tally .busyRetries w.host.log +
          events "busy retries exhausted" := services.pursued
    have retried : tally .busyRetries w.host.log = total .busyRetries :=
      services.counted .busyRetries _ rfl
    rwa [hw, List.countP_nil, Nat.zero_add, engine.busy, retried] at pursued
  exact ⟨told .malformed rfl, told .verifiedFail rfl, told .interrupted rfl, told .busyRetries rfl,
    by omega, ⟨(told .sessionsCreated rfl).trans created.symm, created, opened⟩,
    ⟨told .sessionFailures rfl, registered.failures.symm⟩, engine.cancelled, engine.queued⟩

/-- Of two calls on a paused engine that is shut down, the one that came before is queued and then
drained; the one that comes after is not queued. -/
theorem drained_job_was_queued :
    ∃ w, Run Software.promptRules (fresh {}) w ∧ w.hand = [] ∧
      w.host.engine.accounting.dispatches = 2 ∧ drainedJobs w.host.log = 1 ∧
      logged "job queued" w.host.log = 1 := by
  let s : Service := .create {} (.ofSeed 1)
  let s' : Service :=
    (s.updateLane ⟨0⟩ fun l => { l with session := some ⟨1⟩ }).count .sessionsCreated
  let r : Request := ⟨0, ⟨0⟩, .write, List.replicate 20 0, 20, none⟩
  let installed : World Software := ⟨((fresh {}).host.install { key := some (.ofSeed 1) }).2, []⟩
  let entered : World Software := ⟨(installed.host.enter Software.engine s r).2, []⟩
  let closed : World Software :=
    ⟨{ entered.host with engine := entered.host.engine.shutDown }, []⟩
  let stopped : World Software := ⟨(closed.host.onEngine Software.stop).2, []⟩
  let both : World Software := ⟨(stopped.host.enter Software.engine s' r).2, []⟩
  let final : World Software := ⟨both.host.drain Software.engine, []⟩
  have entering : Run Software.promptRules (fresh {}) entered :=
    (Relation.ReflTransGen.single (.install (fresh {}) _)).tail
      (.enter (R := Software.promptRules) installed (s := s) (r := r) rfl)
  have stopping : Run Software.promptRules entered stopped :=
    (Relation.ReflTransGen.single
      (Next.change (R := Software.promptRules) entered (.shutDown _))).tail
      (Next.change (R := Software.promptRules) closed (.stop _))
  have reach : Run Software.promptRules (fresh {}) final :=
    ((entering.trans stopping).tail
      (.enter (R := Software.promptRules) stopped (s := s') (r := r) rfl)).trans
      (run_drain both.host [])
  have hdrained : drainedJobs final.host.log = 1 := by decide +kernel
  have hrest : logged "job processed" final.host.log +
      final.host.engine.accounting.cancellations + final.host.engine.queue.length = 0 := by
    decide +kernel
  obtain ⟨-, -, -, -, -, -, -, -, hqueued⟩ := log_agrees_with_counters reach rfl
  exact ⟨final, reach, rfl, by decide +kernel, hdrained, hqueued.trans (by rw [hrest, hdrained])⟩

end World
end PacketAuth
