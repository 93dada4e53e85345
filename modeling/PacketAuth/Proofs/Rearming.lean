import PacketAuth.Proofs.Custody
import PacketAuth.Proofs.Persistence

/-! Busy answers, dealt with one lock at a time. The engine looks whether the caller of a busy job
is there, and submits the job after that. The caller may leave in between: it finds nothing to take
back, and the job goes into the queue for nobody. -/
namespace PacketAuth

/-- A world, and the jobs that are armed again and not in the queue yet. -/
structure Rearming where
  world : World Software
  armed : List Job := []

namespace Rearming

/-- A turn in the world, or a part of what a busy answer brings about. A job whose retries are
exhausted is failed and stays in hand; any other is armed, and submitted in a turn of its own. -/
inductive Next : Rearming → Rearming → Prop
  | turn {w v : World Software} (armed : List Job) (h : World.Next Software.rules w v) :
      Next ⟨w, armed⟩ ⟨v, armed⟩
  | exhaust (h : Host Software) (before : List Job) {job job' : Job} (after armed : List Job)
      {ticket : Nat} {c : Call} (hr : job.recipient = some (.call ticket))
      (hc : h.calls[ticket]? = some c) (hx : c.react job = .settle job' true) :
      Next ⟨⟨h, before ++ job :: after⟩, armed⟩
        ⟨⟨h.noteExhausted job', before ++ job' :: after⟩, armed⟩
  | rearm (h : Host Software) (before : List Job) {job job' : Job} (after armed : List Job)
      {ticket : Nat} {c : Call} (hr : job.recipient = some (.call ticket))
      (hc : h.calls[ticket]? = some c) (hx : c.react job = .resubmit job') :
      Next ⟨⟨h, before ++ job :: after⟩, armed⟩
        ⟨⟨h.noteRetry c job', before ++ after⟩, armed ++ [job']⟩
  | resubmit (w : World Software) (before : List Job) {job : Job} (after : List Job)
      {ticket : Nat} {c : Call} (hr : job.recipient = some (.call ticket))
      (hc : w.host.calls[ticket]? = some c) :
      Next ⟨w, before ++ job :: after⟩
        ⟨⟨w.host.resubmit Software.engine c job, w.hand⟩, before ++ after⟩

abbrev Run : Rearming → Rearming → Prop := Relation.ReflTransGen Next

/-- No call ends while its job is armed. -/
def Patient (w v : Rearming) : Prop :=
  ∀ job ∈ w.armed, ∀ ticket c c', job.recipient = some (.call ticket) →
    w.world.host.calls[ticket]? = some c → c.isWaiting = true →
    v.world.host.calls[ticket]? = some c' → c'.isWaiting = true

abbrev PatientRun : Rearming → Rearming → Prop :=
  Relation.ReflTransGen fun w v => Next w v ∧ Patient w v

def fresh (capacity : Capacity) : Rearming := ⟨World.fresh capacity, []⟩

/-- The worker rests, and no job is on its way back into the queue. -/
def IsAtRest (w : Rearming) : Prop := w.world.IsAtRest ∧ w.armed = []

section Steps
variable {h : Host Software} {before after armed : List Job} {job job' : Job} {ticket : Nat}
  {c : Call}

theorem deliver_eq_settle (hr : job.recipient = some (.call ticket))
    (hc : h.calls[ticket]? = some c) :
    h.deliver Software.engine job = h.settle Software.engine ticket c job := by
  rw [Host.deliver, hr]
  simp only [hc]

/-- A busy answer that is tried again takes two turns here, and leaves the same behind. -/
theorem run_resubmitted (hr : job.recipient = some (.call ticket))
    (hc : h.calls[ticket]? = some c) (hx : c.react job = .resubmit job') :
    Run ⟨⟨h, before ++ job :: after⟩, armed⟩
      ⟨⟨h.deliver Software.engine job, before ++ after⟩, armed⟩ := by
  obtain ⟨-, -, -, rfl⟩ := Call.react_eq_resubmit hx
  have own : job.rearm.recipient = some (.call ticket) := hr
  have submitted := Next.resubmit ⟨h.noteRetry c job.rearm, before ++ after⟩ armed [] own hc
  rw [List.append_nil] at submitted
  rw [deliver_eq_settle hr hc, Host.settle, hx]
  exact .head (.rearm h before after armed hr hc hx) (.single submitted)

/-- So does one too many. -/
theorem run_exhausted (hr : job.recipient = some (.call ticket))
    (hc : h.calls[ticket]? = some c) (hx : c.react job = .settle job' true) :
    Run ⟨⟨h, before ++ job :: after⟩, armed⟩
      ⟨⟨h.deliver Software.engine job, before ++ after⟩, armed⟩ := by
  have settled := Call.react_exhausted hx
  have hr' : job'.recipient = some (.call ticket) := by rw [settled, ← hr, Job.complete]
  have decided : c.react job' = .settle job' false :=
    Call.react_of_decided (by rw [settled]; exact nofun)
  have delivered : h.deliver Software.engine job =
      (h.noteExhausted job').deliver Software.engine job' := by
    rw [deliver_eq_settle hr hc, deliver_eq_settle (h := h.noteExhausted job') hr' hc,
      Host.settle, Host.settle, hx, decided]
    rfl
  rw [delivered]
  exact .head (.exhaust h before after armed hr hc hx) (.single (.turn armed (.deliver _ _ _ _)))

end Steps

end Rearming

namespace World

/-- More jobs in hand hinder no turn. -/
theorem Next.ahead {w v : World Software} (armed : List Job) (n : Next Software.rules w v) :
    Next Software.rules ⟨w.host, armed ++ w.hand⟩ ⟨v.host, armed ++ v.hand⟩ := by
  cases n with
  | install _ b => exact .install ⟨w.host, armed ++ w.hand⟩ b
  | ensureSession _ hs l => exact .ensureSession ⟨w.host, armed ++ w.hand⟩ hs l
  | enter _ hs => exact .enter ⟨w.host, armed ++ w.hand⟩ hs
  | take _ h =>
    rw [← List.append_assoc]
    exact .take ⟨w.host, armed ++ w.hand⟩ h
  | deliver h before job after =>
    rw [← List.append_assoc, ← List.append_assoc]
    exact .deliver h (armed ++ before) job after
  | look _ => exact .look (R := Software.rules) ⟨w.host, armed ++ w.hand⟩ trivial
  | pass _ instant => exact .pass ⟨w.host, armed ++ w.hand⟩ instant
  | trigger _ i reason => exact .trigger ⟨w.host, armed ++ w.hand⟩ i reason
  | reset _ i => exact .reset ⟨w.host, armed ++ w.hand⟩ i
  | dropService _ i => exact .dropService ⟨w.host, armed ++ w.hand⟩ i
  | change _ h => exact .change (R := Software.rules) ⟨w.host, armed ++ w.hand⟩ h

end World

namespace Rearming
variable {w v : Rearming}

/-- The world, with the armed jobs in hand as well. -/
def whole (w : Rearming) : World Software := ⟨w.world.host, w.armed ++ w.world.hand⟩

theorem IsAtRest.whole (rest : w.IsAtRest) : w.whole = w.world := by
  rw [Rearming.whole, rest.2, List.nil_append]

theorem run_whole {w v : World Software} (armed : List Job) (n : World.Next Software.rules w v) :
    World.Run Software.rules (whole ⟨w, armed⟩) (whole ⟨v, armed⟩) := .single (n.ahead armed)

/-- Every job that is out is in one place, also while it is armed. -/
theorem Next.accounted (h : w.whole.Accounted) (n : Next w v) : v.whole.Accounted := by
  cases n with
  | turn armed n => exact h.run (run_whole armed n)
  | @exhaust host before job job' after armed ticket c hr hc hx =>
    have token : job'.token = job.token := by rw [Call.react_exhausted hx, Job.token_complete]
    refine h.move .refl rfl rfl ?_
    simp only [World.afloat, whole, List.map_append, List.map_cons, token]
    exact .refl _
  | @rearm host before job job' after armed ticket c hr hc hx =>
    have token : job'.token = job.token := by
      rw [(Call.react_eq_resubmit hx).2.2.2, Job.token_rearm]
    refine h.move .refl rfl rfl ?_
    simp only [World.afloat, whole, List.map_append, List.map_cons, token, List.append_assoc,
      List.cons_append, List.nil_append]
    exact List.Perm.append_left _ (List.Perm.append_left _ List.perm_middle.symm)
  | resubmit world before after hr hc =>
    exact h.resubmitted (List.append_assoc _ _ _) rfl rfl rfl rfl (List.append_assoc _ _ _)

theorem Run.accounted {capacity : Capacity} (r : Run (fresh capacity) w) :
    w.whole.Accounted := by
  induction r with
  | refl => exact .fresh capacity
  | tail _ next ih => exact next.accounted ih

/-- A call waits for each job that is queued or armed. -/
structure Awaited (w : Rearming) : Prop where
  custody : w.whole.Custody
  armed : ∀ j ∈ w.armed, j.token ∈ waitingTokens w.world.host.calls

/-- Patience keeps the calls of armed jobs waiting. -/
theorem Awaited.turned {w v : World Software} {armed : List Job} (h : Awaited ⟨w, armed⟩)
    (n : World.Next Software.rules w v) (patient : Patient ⟨w, armed⟩ ⟨v, armed⟩) :
    ∀ j ∈ armed, j.token ∈ waitingTokens v.host.calls := by
  intro j hj
  obtain ⟨ticket, c, hc, hw, token⟩ := mem_waitingTokens.mp (h.armed j hj)
  obtain ⟨c', hc', persists⟩ := (n.effects.persists).call ticket c hc
  refine mem_waitingTokens.mpr ⟨ticket, c', hc', ?_, persists.job ▸ token⟩
  exact patient j hj ticket c c' (Prod.mk.inj token).1 hc hw hc'

theorem Awaited.next (h : Awaited w) (n : Next w v) (patient : Patient w v) : Awaited v := by
  have accounted := n.accounted h.custody.toAccounted
  cases n with
  | turn armed n => exact ⟨h.custody.run (run_whole armed n), h.turned n patient⟩
  | exhaust => exact ⟨⟨accounted, h.custody.queued, h.custody.failing⟩, h.armed⟩
  | @rearm host before job job' after armed ticket c hr hc hx =>
    obtain ⟨-, there, -, rfl⟩ := Call.react_eq_resubmit hx
    refine ⟨⟨accounted, h.custody.queued, h.custody.failing⟩, fun j hj => ?_⟩
    rcases List.mem_append.mp hj with hj | hj
    · exact h.armed j hj
    · rw [List.mem_singleton.mp hj, Job.token_rearm]
      have out : job ∈ (whole ⟨⟨host, before ++ job :: after⟩, armed⟩).afloat := by
        simp [World.afloat, whole]
      rcases h.custody.owner out hr hc with ⟨waits, -, own⟩ | ⟨-, left⟩
      · exact mem_waitingTokens.mpr ⟨ticket, c, hc, waits, Prod.ext hr own.symm⟩
      · simp [left, Slot.isAbandoned] at there
  | @resubmit world before job after ticket c hr hc =>
    refine ⟨⟨accounted, fun j hj => ?_, ?_⟩, fun j hj => h.armed j (mem_of_removed hj)⟩
    · rcases Software.queued_submit_subset _ _ _ _ hj with old | rfl
      · exact h.custody.queued j old
      · exact h.armed j (List.mem_append_right _ List.mem_cons_self)
    · exact Software.keeps_failsOnlyAtEnd.submit _ _ _ h.custody.failing

theorem PatientRun.awaited {capacity : Capacity} (r : PatientRun (fresh capacity) w) :
    Awaited w := by
  induction r with
  | refl => exact ⟨.fresh capacity, nofun⟩
  | tail _ next ih => exact ih.next next.1 next.2

/-- What happens turn by turn, with no job ever armed, is patient. -/
theorem PatientRun.ofRun {w v : World Software} (run : World.Run Software.rules w v) :
    PatientRun ⟨w, []⟩ ⟨v, []⟩ := by
  induction run with
  | refl => exact .refl
  | tail _ next ih => exact ih.tail ⟨.turn [] next, nofun⟩

theorem filter_isWaiting {calls : List Call} (ended : ∀ c ∈ calls, c.isWaiting = false) :
    calls.filter Call.isWaiting = [] :=
  List.filter_eq_nil_iff.mpr fun c hc => by simp [ended c hc]

/-- While its job is armed, a call may end; the job is then queued for nobody. So when all is at
rest, the jobs that are out are those in the queue: one for each call that waits, and the ones that
were left so. If no call ends while its job is armed, the latter are none, and with no call waiting
nothing is out. -/
theorem queue_matches_waiting_calls {capacity : Capacity} (rest : w.IsAtRest) :
    (Run (fresh capacity) w → w.world.Matched) ∧
    (PatientRun (fresh capacity) w → w.world.Matched ∧ w.world.orphans = [] ∧
      ((∀ c ∈ w.world.host.calls, c.isWaiting = false) →
        w.world.host.engine.accounting.jobsOutstanding = 0 ∧ w.world.host.engine.queue = [])) := by
  have matched {w : Rearming} (rest : w.IsAtRest) (h : w.whole.Accounted) : w.world.Matched := by
    rw [rest.whole] at h
    exact h.matched rest.1
  refine ⟨fun run => matched rest run.accounted, fun run => ?_⟩
  have awaited := PatientRun.awaited run
  have books := matched rest awaited.custody.toAccounted
  have none : w.world.orphans = [] := (rest.whole ▸ awaited.custody).orphans
  refine ⟨books, none, fun ended => ?_⟩
  have empty : w.world.host.engine.queue.length = 0 := by
    rw [books.length, none, filter_isWaiting ended]
    rfl
  exact ⟨by rw [books.gauge, empty]; rfl, List.length_eq_zero_iff.mp empty⟩

/-- The interrupt of a call is triggered, and the call ends, while its busy job is armed for a retry
in an hour. -/
theorem exists_overtaken :
    ∃ w : Rearming, Run (fresh {}) w ∧ w.IsAtRest ∧
      (∀ c ∈ w.world.host.calls, c.isWaiting = false) ∧
      w.world.host.engine.accounting.jobsOutstanding = 1 ∧
      w.world.host.engine.queue.length = 1 := by
  let b : Builder := { key := some (.ofSeed 1), config := { retry := { backoff := 3600000 } } }
  let s : Service := .create b.config (.ofSeed 1)
  let r : Request := ⟨0, ⟨0⟩, .write, List.replicate 20 0, 20, some 0⟩
  let installed : World Software := ⟨((World.fresh {}).host.install b).2, []⟩
  let busy : World Software := ⟨installed.host.mapEngine (Software.injectBusy 1), []⟩
  let entered : World Software := ⟨(busy.host.enter Software.engine s r).2, []⟩
  let c : Call := (entered.host.calls[0]?).get (by decide +kernel)
  let step := (entered.host.engine.handBack entered.host.now).get (by decide +kernel)
  let taken : Host Software := { entered.host with
    engine := step.state, log := step.events.reverse ++ entered.host.log }
  let job := step.answer.rearm
  let armed : Host Software := taken.noteRetry c job
  let triggered : Host Software := armed.setInterrupt 0
    ((armed.interrupts 0).trigger ⟨.user, none⟩).2
  let left : Host Software := triggered.look Software.engine 0
  let ended : Call := (left.calls[0]?).get (by decide +kernel)
  let w : Rearming := ⟨⟨left.resubmit Software.engine ended job, []⟩, []⟩
  have turned {u v : World Software} (n : World.Next Software.rules u v) : Run ⟨u, []⟩ ⟨v, []⟩ :=
    .single (.turn [] n)
  have entering : Run (fresh {}) ⟨entered, []⟩ :=
    (turned (.install (World.fresh {}) b)).trans ((turned (World.Next.change (R := Software.rules)
      installed (.injectBusy _ 1))).trans (turned (.enter busy (s := s) (r := r) rfl)))
  have given : entered.host.engine.handBack entered.host.now = some step :=
    (Option.some_get _).symm
  have taking : World.Next Software.rules entered ⟨taken, [step.answer]⟩ := .take entered given
  have own : step.answer.recipient = some (.call 0) := by decide +kernel
  have retried : c.react step.answer = .resubmit job := by decide +kernel
  have arming : Run (fresh {}) ⟨⟨armed, []⟩, [job]⟩ :=
    (entering.trans (turned taking)).tail
      (.rearm taken [] [] [] own (Option.some_get _).symm retried)
  have leaving : Run (fresh {}) ⟨⟨left, []⟩, [job]⟩ :=
    (arming.tail (.turn [job] (.trigger ⟨armed, []⟩ 0 ⟨.user, none⟩))).tail
      (.turn [job] (.look (R := Software.rules) ⟨triggered, []⟩ trivial))
  have still : job.recipient = some (.call 0) := own
  have queued : Run (fresh {}) w :=
    leaving.tail (.resubmit ⟨left, []⟩ [] [] still (Option.some_get _).symm)
  refine ⟨w, queued, ⟨⟨rfl, ?_⟩, rfl⟩, ?_, ?_, ?_⟩ <;> decide +kernel

/-- No call waits any more, and yet a job is out. -/
theorem overtaken_job_is_out :
    ¬ ∀ w : Rearming, Run (fresh {}) w → w.IsAtRest →
      (∀ c ∈ w.world.host.calls, c.isWaiting = false) →
      w.world.host.engine.accounting.jobsOutstanding = 0 := by
  intro never
  obtain ⟨w, run, rest, ended, out, -⟩ := exists_overtaken
  rw [never w run rest ended] at out
  cases out

/-- Such a job is counted as one that was left; the job of a call on a paused engine is not. -/
theorem overtaken_and_paused_job :
    (∃ w, Run (fresh {}) w ∧ w.IsAtRest ∧ (∀ c ∈ w.world.host.calls, c.isWaiting = false) ∧
      w.world.orphans.length = 1) ∧
    ∃ w, PatientRun (fresh {}) w ∧ w.IsAtRest ∧ w.world.host.engine.queue.length = 1 ∧
      w.world.orphans = [] := by
  constructor
  · obtain ⟨w, run, rest, ended, -, queued⟩ := exists_overtaken
    have books := (queue_matches_waiting_calls rest).1 run
    refine ⟨w, run, rest, ended, ?_⟩
    rw [← queued, books.length, filter_isWaiting ended, List.length_nil, Nat.zero_add]
  · let r : Request := ⟨0, ⟨0⟩, .write, List.replicate 20 0, 20, none⟩
    let paused : World Software := ⟨(World.fresh {}).host.mapEngine Software.pause, []⟩
    let installed : World Software := ⟨(paused.host.install { key := some (.ofSeed 1) }).2, []⟩
    have pausing := World.Next.change (R := Software.rules) (World.fresh {}) (.pause _)
    have entering := World.Next.enter (R := Software.rules) installed
      (s := .create {} (.ofSeed 1)) (r := r) rfl
    have run := PatientRun.ofRun (.head pausing (.head (.install paused _) (.single entering)))
    obtain ⟨books, none, -⟩ := (queue_matches_waiting_calls ⟨⟨rfl, rfl⟩, rfl⟩).2 run
    exact ⟨_, run, ⟨⟨rfl, rfl⟩, rfl⟩, by rw [books.length, none]; rfl, none⟩

end Rearming
end PacketAuth
