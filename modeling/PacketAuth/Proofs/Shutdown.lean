import PacketAuth.Proofs.Delivery
import PacketAuth.Proofs.Interruption

/-! The end of an engine. It fails every job it has and every job it gets, opens no more sessions,
and nothing that is done to it afterwards brings it back. -/
namespace PacketAuth

/-- A call that was failed in the engine with a code of its own. -/
def Call.failedWith (code : Int32) (c : Call) : Call :=
  { c with slot := .taken, reply := some (.failed c.request ⟨.engineFailed code, none⟩) }

namespace Software

/-- Nothing that is done with an engine at its end sets it going again or opens a session. -/
theorem keeps_shutDown (sessions : Sessions) :
    Rules.Keeps rules fun s => s.isShutDown = true ∧ s.sessions = sessions where
  change hchange h := ⟨hchange.isShutDown h.1, hchange.frame.2.2.2.2.sessions.trans h.2⟩
  createSession key s h := by
    obtain ⟨e, refused⟩ := createSession_of_shutDown key h.1
    exact ⟨(createSession_isShutDown key s).trans h.1,
      (createSession_error refused).sessions.trans h.2⟩
  acquire h := ⟨(acquire_isShutDown _).trans h.1, (acquire_sameSessions _).sessions.trans h.2⟩
  submit job delay now s h :=
    ⟨(submit_isShutDown job delay now s).trans h.1,
      (submit_sameSessions job delay now s).sessions.trans h.2⟩
  handBack hstep h :=
    ⟨(handBack_isShutDown hstep).trans h.1, (handBack_sameSessions hstep).sessions.trans h.2⟩
  release _ _ h := h
  cancel id s h := by
    simp only [rules, engine, cancel]
    split <;> exact h

end Software

theorem World.Run.shutDown {w w' : World Software} (r : Run Software.rules w w')
    (h : w.host.engine.isShutDown = true) :
    w'.host.engine.isShutDown = true ∧ w'.host.engine.sessions = w.host.engine.sessions :=
  (Software.keeps_shutDown _).run r ⟨h, rfl⟩

namespace Host
variable {h h' : Host Software} {hand : List Job}

/-- The engine at its end fails the call whose job comes back first, if the call still waits. -/
theorem handOver_of_shutDown (custody : World.Custody ⟨h, hand⟩)
    (closed : h.engine.isShutDown = true) {job : Job} {rest : List Job}
    (hj : h.engine.returning = job :: rest) :
    ∃ step ticket c, h.engine.handBack h.now = some step ∧
      job.recipient = some (.call ticket) ∧ h.calls[ticket]? = some c ∧
      (h.handOver Software.engine step).engine.returning = rest ∧
      (h.handOver Software.engine step).engine.queue = h.engine.queue ∧
      (h.handOver Software.engine step).calls =
        if c.isWaiting then h.calls.set ticket (c.failedWith Code.shutDown) else h.calls := by
  have taken := Software.handBack_of_shutDown closed h.now
  simp only [hj, List.head?_cons, Option.map_some, List.tail_cons] at taken
  have mem : job ∈ World.afloat ⟨h, hand⟩ := by simp [World.afloat, Software.inside, hj]
  obtain ⟨ticket, c, hr, hc, -⟩ := custody.call_of_mem mem
  have failed : (job.complete (.failed Code.shutDown)).outcome ≠ .busy := Outcome.noConfusion
  have pending := custody.slots c (List.mem_of_getElem? hc)
  let step : Step Software Job :=
    ⟨job.complete (.failed Code.shutDown),
      ({ h.engine with returning := rest } : Software).record .jobFailed, []⟩
  obtain ⟨log, handed⟩ : ∃ log, h.handOver Software.engine step =
      World.passed Software.engine ticket c step.answer log
        { h with engine := step.state, log := step.events.reverse ++ h.log } :=
    World.deliver_of_call Software.engine hr hc
  refine ⟨step, ticket, c, taken, hr, hc, ?_⟩
  rw [handed, World.passed, c.react_of_not_busy failed]
  dsimp only
  by_cases hw : c.isWaiting = true
  · have undone : step.answer.outcome ≠ .done := Outcome.noConfusion
    rw [if_pos (pending.mpr hw), if_pos hw, if_pos hw, c.ending_of_not_done undone]
    exact ⟨rfl, rfl, rfl⟩
  · rw [if_neg fun hp => hw (pending.mp hp), if_neg hw]
    dsimp only
    split <;> exact ⟨rfl, rfl, rfl⟩

/-- It fails one call after the other, in the order in which their jobs came to it. -/
theorem deliverNext_of_shutDown (n : Nat) (custody : World.Custody ⟨h, hand⟩)
    (closed : h.engine.isShutDown = true) :
    (h.deliverNext Software.engine n).engine.returning = h.engine.returning.drop n ∧
      (h.deliverNext Software.engine n).engine.queue = h.engine.queue ∧
      ∀ (ticket : Nat) (c : Call), h.calls[ticket]? = some c →
        (h.deliverNext Software.engine n).calls[ticket]? = some
          (if c.isWaiting ∧ some (.call ticket) ∈ (h.engine.returning.take n).map Job.recipient then
            c.failedWith Code.shutDown else c) := by
  induction n generalizing h with
  | zero => exact ⟨rfl, rfl, fun ticket c hc => by simpa [deliverNext] using hc⟩
  | succ n ih =>
    cases hj : h.engine.returning with
    | nil =>
      have none : h.engine.handBack h.now = none := by
        rw [Software.handBack_of_shutDown closed, hj]
        rfl
      rw [deliverNext_of_none none]
      exact ⟨hj, rfl, fun ticket c hc => by simpa using hc⟩
    | cons job rest =>
      obtain ⟨step, t, d, taken, hr, hd, hrest, hqueue, hcalls⟩ :=
        handOver_of_shutDown custody closed hj
      have run : World.Run Software.rules ⟨h, hand⟩ ⟨h.handOver Software.engine step, hand⟩ :=
        World.run_handOver taken hand
      obtain ⟨hrest', hqueue', hcalls'⟩ := ih (custody.run run) (World.Run.shutDown run closed).1
      rw [deliverNext_succ taken, hrest', hrest, hqueue', hqueue]
      refine ⟨rfl, rfl, fun ticket c hc => ?_⟩
      rw [hrest] at hcalls'
      rw [List.take_succ_cons, List.map_cons, hr]
      by_cases first : t = ticket
      · subst first
        obtain rfl : c = d := Option.some.inj (hc.symm.trans hd)
        cases hw : c.isWaiting with
        | true =>
          have ended : (h.handOver Software.engine step).calls[t]? =
              some (c.failedWith Code.shutDown) := by
            rw [hcalls, hw, if_pos rfl, List.getElem?_set_self (List.getElem?_eq_some_iff.mp hc).1]
          rw [if_pos ⟨rfl, List.mem_cons_self⟩]
          exact (hcalls' t _ ended).trans (by rw [if_neg fun waits => Bool.false_ne_true waits.1])
        | false =>
          rw [hw, if_neg Bool.false_ne_true] at hcalls
          rw [if_neg fun waits => Bool.false_ne_true waits.1]
          exact (hcalls' t c (hcalls ▸ hc)).trans
            (by rw [hw, if_neg fun waits => Bool.false_ne_true waits.1])
      · have same : (h.handOver Software.engine step).calls[ticket]? = some c := by
          rw [hcalls]
          split
          · rw [List.getElem?_set_ne first, hc]
          · exact hc
        have other : (some (Recipient.call ticket)) ≠ some (.call t) := by simpa using Ne.symm first
        simpa [List.mem_cons, other] using hcalls' ticket c same

/-- An engine at its end, with its worker gone and nothing left to do. -/
structure Spent (h : Host Software) : Prop where
  custody : World.Custody ⟨h, []⟩
  closed : h.engine.isShutDown = true
  inside : h.engine.inside = []

/-- When all jobs have come back, every call that waited has failed. -/
theorem drain_of_shutDown (custody : World.Custody ⟨h, []⟩) (closed : h.engine.isShutDown = true)
    (gone : h.engine.queue = []) :
    (h.drain Software.engine).Spent ∧
      ∀ (ticket : Nat) (c : Call), h.calls[ticket]? = some c → c.isWaiting = true →
        (h.drain Software.engine).calls[ticket]? = some (c.failedWith Code.shutDown) := by
  have run := World.run_drain (R := Software.rules) h []
  have enough : h.engine.returning.length ≤ Software.engine.backlog h.engine := by
    simp only [Software.engine]
    omega
  obtain ⟨hrest, hqueue, hcalls⟩ :=
    deliverNext_of_shutDown (Software.engine.backlog h.engine) custody closed
  refine ⟨⟨custody.run run, (World.Run.shutDown run closed).1, ?_⟩, fun ticket c hc hw => ?_⟩
  · rw [Host.drain, Software.inside, Software.queued, hrest, hqueue, gone,
      List.drop_of_length_le enough]
    rfl
  · obtain ⟨j, hj, hr, -⟩ := custody.job_of_waiting hc hw
    have mem : j ∈ h.engine.returning := by
      simpa [World.afloat, Software.inside, Software.queued, gone] using hj
    rw [Host.drain, hcalls ticket c hc, List.take_of_length_le enough,
      if_pos ⟨hw, List.mem_map.mpr ⟨j, mem, hr⟩⟩]

namespace Spent

theorem outstanding (a : h.Spent) :
    h.engine.pool.outstanding = 0 ∧ h.engine.accounting.jobsOutstanding = 0 := by
  have none : (⟨h, []⟩ : World Software).afloat = [] := by
    rw [World.afloat, a.inside]
    rfl
  have pool := a.custody.outstanding
  have gauge := a.custody.gauge
  rw [none] at pool gauge
  exact ⟨pool, gauge⟩

theorem returning (a : h.Spent) : h.engine.returning = [] := (List.append_eq_nil_iff.mp a.inside).1

theorem queue (a : h.Spent) : h.engine.queue = [] :=
  List.map_eq_nil_iff.mp (List.append_eq_nil_iff.mp a.inside).2

theorem handBack (a : h.Spent) (now : Nat) : h.engine.handBack now = none := by
  rw [Software.handBack_of_shutDown a.closed, a.returning]
  rfl

theorem drain (a : h.Spent) : h.drain Software.engine = h := drain_of_none (a.handBack h.now)

/-- No call waits, so none finds anything when it looks. -/
theorem still (a : h.Spent) (ticket : Nat) : h.look Software.engine ticket = h :=
  look_of_ended fun c hc =>
    a.custody.ended_of_idle a.returning a.queue c (List.mem_of_getElem? hc)

theorem of_run (a : h.Spent) (run : World.Run Software.rules ⟨h, []⟩ ⟨h', []⟩)
    (hi : h'.engine.inside = h.engine.inside) : h'.Spent :=
  ⟨a.custody.run run, (World.Run.shutDown run a.closed).1, hi.trans a.inside⟩

variable {s : Service} {r : Request}

/-- A request that is let in after all fails in the engine, before its call first looks. -/
theorem entered (a : h.Spent) (hs : h.services[r.service]? = some s) {ticket : Nat}
    (he : h.enter Software.engine s r = (.ok ticket, h')) :
    (h'.drain Software.engine).Spent ∧
      h.start Software.engine s r = (.ok ticket, h'.drain Software.engine) ∧
      h.perform Software.engine s r =
        (some (.failed r ⟨.engineFailed Code.shutDown, none⟩), h'.drain Software.engine) := by
  have run : World.Run Software.rules ⟨h, []⟩ ⟨h', []⟩ :=
    World.entered_run (R := Software.rules) (w := ⟨h, []⟩) .refl hs he
  obtain ⟨lane, regions, session, opened, job, hp, ho, ha, rfl, hcalls, -, hengine⟩ := enter_ok he
  obtain ⟨hqueue, -, -, hshut⟩ := openSession_software ho
  have closed : opened.engine.acquire.state.isShutDown = true :=
    (Software.acquire_isShutDown _).trans (hshut.trans a.closed)
  have gone : h'.engine.queue = [] := by
    rw [hengine]
    refine (congrArg (·.state.queue) (Software.submit_of_shutDown closed _ 0 h.now)).trans ?_
    exact (Software.acquire_queue _).trans (hqueue.trans a.queue)
  have hc : h'.calls[h.calls.length]? = some (r.call s regions job h.now) := by
    rw [hcalls, List.getElem?_concat_length]
  obtain ⟨spent, failed⟩ :=
    drain_of_shutDown (a.custody.run run) (World.Run.shutDown run a.closed).1 gone
  have reply : (h'.drain Software.engine).reply? h.calls.length =
      some (.failed r ⟨.engineFailed Code.shutDown, none⟩) := by
    rw [reply?, failed _ _ hc rfl]
    rfl
  have started : h.start Software.engine s r = (.ok h.calls.length, h'.drain Software.engine) := by
    rw [start, he]
    exact congrArg (Prod.mk _) (spent.still _)
  exact ⟨spent, started, perform_of_reply started reply⟩

/-- One that is turned away leaves the jobs alone. -/
theorem refused (a : h.Spent) (hs : h.services[r.service]? = some s) {f : Failure}
    (he : h.enter Software.engine s r = (.error f, h')) : h'.Spent := by
  have next := World.Next.enter (R := Software.rules) ⟨h, []⟩ hs
  rw [show Software.rules.engine = Software.engine from rfl, he] at next
  exact a.of_run (.single next) (enter_error_inside he)

theorem requested (a : h.Spent) (hs : h.services[r.service]? = some s) :
    (h.start Software.engine s r).2.Spent ∧ (h.perform Software.engine s r).2.Spent := by
  cases he : h.enter Software.engine s r with
  | mk answer h' =>
    cases answer with
    | error f =>
      rw [perform, start, he]
      exact ⟨a.refused hs he, a.refused hs he⟩
    | ok ticket =>
      obtain ⟨spent, started, performed⟩ := a.entered hs he
      rw [started, performed]
      exact ⟨spent, spent⟩

theorem advance (a : h.Spent) (instant : Nat) : (h.advance Software.engine instant).Spent := by
  have later : ({ h with now := max h.now instant } : Host Software).Spent :=
    a.of_run (.single (.pass ⟨h, []⟩ instant)) rfl
  have drained := later.drain
  rw [advance_of_still] <;> rw [drained]
  · exact later
  · exact later.still
  · exact later.custody.held

end Spent

/-- What is done to a host in one go, while no other call is under way. -/
inductive Act {σ : Type} (R : Rules σ) (h : Host σ) : Host σ → Prop
  | install (b : Builder) : Act R h (h.install b).2
  | ensureSession {i : Nat} {s : Service} (hs : h.services[i]? = some s)
      (l : LaneId) : Act R h (h.ensureSession R.engine i s l).2
  | start {s : Service} {r : Request} (hs : h.services[r.service]? = some s) :
      Act R h (h.start R.engine s r).2
  | perform {s : Service} {r : Request} (hs : h.services[r.service]? = some s) :
      Act R h (h.perform R.engine s r).2
  | trigger (i : Nat) (reason : CancelReason) : Act R h (h.trigger R.engine i reason)
  | reset (i : Nat) : Act R h (h.resetInterrupt i)
  | dropService (i : Nat) : Act R h (h.dropService R.engine i)
  | advance (instant : Nat) : Act R h (h.advance R.engine instant)
  | drain : Act R h (h.drain R.engine)
  | change {step : Step σ Unit} (hc : R.change h.engine step) :
      Act R h { h with engine := step.state, log := step.events.reverse ++ h.log }

/-- Each of these is a run. -/
theorem Act.run {σ : Type} {R : Rules σ} {h h' : Host σ}
    (looks : ∀ h ticket, R.mayLook ⟨h, []⟩ ticket) (held : h.isHeld = true) (act : h.Act R h') :
    World.Run R ⟨h, []⟩ ⟨h', []⟩ := by
  cases act with
  | install b => exact .single (.install ⟨h, []⟩ b)
  | ensureSession hs l => exact .single (.ensureSession ⟨h, []⟩ hs l)
  | start hs => exact World.run_start looks hs
  | perform hs => exact World.run_perform looks held hs
  | trigger i reason => exact World.run_trigger looks i reason h
  | reset i => exact .single (.reset ⟨h, []⟩ i)
  | dropService i =>
    rw [Host.dropService,
      closeUnused_of_held (h := h.updateService i fun s => { s with isHeld := false }) held]
    exact .single (.dropService ⟨h, []⟩ i)
  | advance instant => exact World.run_advance looks held instant
  | drain => exact World.run_drain h []
  | change hc => exact .single (.change ⟨h, []⟩ hc)

/-- Whatever is done to a spent engine, it stays spent. -/
theorem Spent.act (a : h.Spent) (act : h.Act Software.rules h') : h'.Spent := by
  have run := act.run (fun _ _ => trivial) a.custody.held
  cases act with
  | install b =>
    refine a.of_run run ?_
    rw [Host.install]
    split <;> rfl
  | ensureSession hs l =>
    refine a.of_run run ?_
    rw [Host.ensureSession]
    split
    · rfl
    · exact openSession_inside rfl
  | start hs => exact (a.requested hs).1
  | perform hs => exact (a.requested hs).2
  | trigger i reason =>
    have triggered := a.of_run (.single (.trigger ⟨h, []⟩ i reason)) rfl
    rw [show h.trigger Software.rules.engine i reason = _ from
      looks_of_still triggered.still _]
    exact triggered
  | reset i => exact a.of_run run rfl
  | dropService i =>
    have dropped := a.of_run (.single (.dropService ⟨h, []⟩ i)) rfl
    rw [show h.dropService Software.rules.engine i = _ from
      closeUnused_of_held dropped.custody.held]
    exact dropped
  | advance instant => exact a.advance instant
  | drain => rwa [show h.drain Software.rules.engine = h from a.drain]
  | change hc => exact a.of_run run hc.frame.1

/-- The same for any number of acts. -/
theorem Spent.acts (a : h.Spent) (acts : Relation.ReflTransGen (Act Software.rules) h h') :
    h'.Spent ∧ World.Run Software.rules ⟨h, []⟩ ⟨h', []⟩ := by
  induction acts with
  | refl => exact ⟨a, .refl⟩
  | tail _ act ih =>
    obtain ⟨spent, run⟩ := ih
    exact ⟨spent.act act, run.trans (act.run (fun _ _ => trivial) spent.custody.held)⟩

/-- Why a well-formed request fails on an engine at its end. -/
def shutOut (h : Host Software) (lane : Lane) : FailureKind :=
  if lane.session = none then .sessionCreationFailed
  else if h.engine.capacity.jobs = 0 then .engineUnavailable
  else .engineFailed Code.shutDown

/-- An engine at its end at rest: no call waits, and all that is well-formed is performed, fails,
and leaves no job behind. -/
structure Final (h : Host Software) : Prop where
  queue : h.engine.queue = []
  ended : ∀ c ∈ h.calls, c.isWaiting = false
  outstanding : h.engine.accounting.jobsOutstanding = 0
  fails : ∀ (s : Service) (r : Request), h.services[r.service]? = some s →
    ∀ hlane : r.lane.index.toNat < s.lanes.length,
      s.config.layout.prefixLength + Tag.size ≤ r.length → r.length ≤ r.buffer.length →
      ∃ f h', h.perform Software.engine s r = (some (.failed r f), h') ∧
        f.kind = h.shutOut s.lanes[r.lane.index.toNat] ∧ h'.engine.queue = [] ∧
        h'.engine.accounting.jobsOutstanding = 0

namespace Spent
variable {s : Service} {r : Request}

theorem perform_of_error (a : h.Spent) (hs : h.services[r.service]? = some s) {f : Failure}
    (he : h.enter Software.engine s r = (.error f, h')) :
    h.perform Software.engine s r = (some (.failed r f), h') ∧ h'.Spent := by
  rw [perform, start, he]
  exact ⟨rfl, a.refused hs he⟩

/-- The failure of a request depends on its lane first, and then on the capacity. -/
theorem perform (a : h.Spent) (hs : h.services[r.service]? = some s) {lane : Lane}
    {regions : Regions} (hp : s.prepare r = .ok (lane, regions)) :
    ∃ f h', h.perform Software.engine s r = (some (.failed r f), h') ∧
      f.kind = h.shutOut lane ∧ h'.Spent := by
  rw [shutOut]
  cases hl : lane.session with
  | none =>
    obtain ⟨e, refused⟩ := Software.createSession_of_shutDown s.key a.closed
    obtain ⟨h', he, -⟩ := enter_of_refused (E := Software.engine) hp hl refused
    obtain ⟨performed, spent⟩ := a.perform_of_error hs he
    exact ⟨_, h', performed, rfl, spent⟩
  | some session =>
    rw [if_neg nofun]
    cases ha : h.engine.acquire.answer with
    | none =>
      have full := (Software.acquire_eq_none_iff _).mp ha
      rw [a.outstanding.1, Nat.le_zero] at full
      obtain ⟨h', he, -⟩ := enter_of_starved (E := Software.engine) hp hl ha
      obtain ⟨performed, spent⟩ := a.perform_of_error hs he
      exact ⟨_, h', performed, (if_pos full).symm, spent⟩
    | some job =>
      have free : h.engine.capacity.jobs ≠ 0 := by
        intro full
        have none := (Software.acquire_eq_none_iff h.engine).mpr (full ▸ Nat.zero_le _)
        rw [ha] at none
        cases none
      obtain ⟨log, he⟩ := enter_of_session (E := Software.engine) hp hl ha
      obtain ⟨spent, -, performed⟩ := a.entered hs he
      exact ⟨_, _, performed, (if_neg free).symm, spent⟩

theorem final (a : h.Spent) : h.Final := by
  refine ⟨a.queue, a.custody.ended_of_idle a.returning a.queue, a.outstanding.2,
    fun s r hs hlane hmin hfit => ?_⟩
  have hp : s.prepare r = .ok (s.lanes[r.lane.index.toNat],
      ⟨⟨s.config.layout.tagOffset, s.config.layout.tagOffset + Tag.size⟩,
        ⟨s.config.layout.prefixLength, r.length⟩⟩) := by
    rw [Service.prepare, Service.lane, List.getElem?_eq_getElem hlane, Layout.split_eq_ok hmin hfit]
    rfl
  obtain ⟨f, h', performed, kind, spent⟩ := a.perform hs hp
  exact ⟨f, h', performed, kind, spent.queue, spent.outstanding.2⟩

end Spent
end Host

namespace World
variable {w w' : World Software} {h : Host Software} {hand : List Job} {ticket : Nat}

/-- The host after the worker of an engine at its end has passed on what it had in hand, and has
gone with all that is in the queue. -/
def atEnd (w : World Software) : Host Software :=
  ((w.passOn Software.engine).onEngine Software.stop).2.drain Software.engine

/-- As `Software.rules`, but of the calls behind the first `n` none looks while its job is coming
back: the engine at its end fails that job before the caller waits for it. -/
def lateRules (n : Nat) : Rules Software :=
  { Software.rules with
    mayLook := fun w ticket => n ≤ ticket →
      ∀ job ∈ w.host.engine.returning ++ w.hand, job.recipient ≠ some (.call ticket) }

theorem Effect.unrestrained {n : Nat} (e : Effect (lateRules n) w w') :
    Effect Software.rules w w' :=
  Effect.mono (R := lateRules n) rfl (fun _ _ h => h) (fun _ _ _ _ _ _ => trivial) e

/-- What the engine at its end owes to the calls that came too late: their jobs are never queued,
come back failed, and fail the calls. -/
structure TurnsAway (n : Nat) (w : World Software) : Prop where
  custody : Custody w
  closed : w.host.engine.isShutDown = true
  known : n ≤ w.host.calls.length
  queued : ∀ j ∈ w.host.engine.queued, ∀ ticket, j.recipient = some (.call ticket) → ticket < n
  failed : ∀ j ∈ w.hand, ∀ ticket, n ≤ ticket → j.recipient = some (.call ticket) →
    j.outcome = .failed Code.shutDown
  replies : ∀ (ticket : Nat) (c : Call), n ≤ ticket → w.host.calls[ticket]? = some c →
    ∀ reply, c.reply = some reply → reply = .failed c.request ⟨.engineFailed Code.shutDown, none⟩

namespace TurnsAway
variable {n : Nat}

theorem keep (h : TurnsAway n w) (custody : Custody w')
    (closed : w'.host.engine.isShutDown = true) (hc : w'.host.calls = w.host.calls)
    (hq : ∀ j ∈ w'.host.engine.queued, j ∈ w.host.engine.queued)
    (hh : ∀ j ∈ w'.hand, j ∈ w.hand ∨ j.outcome = .failed Code.shutDown) : TurnsAway n w' where
  custody := custody
  closed := closed
  known := hc ▸ h.known
  queued j hj := h.queued j (hq j hj)
  failed j hj ticket late hr := (hh j hj).elim (fun old => h.failed j old ticket late hr) id
  replies ticket c late hget := h.replies ticket c late (hc ▸ hget)

/-- A call that waits ends with the failure, or came before. -/
theorem answered (h : TurnsAway n w) (custody : Custody w')
    (closed : w'.host.engine.isShutDown = true) {c c' : Call} {reply : Reply}
    (hget : w.host.calls[ticket]? = some c) (hc : w'.host.calls = w.host.calls.set ticket c')
    (hreply : c'.reply = some reply) (hr : c'.request = c.request)
    (hq : ∀ j ∈ w'.host.engine.queued, j ∈ w.host.engine.queued)
    (hh : ∀ j ∈ w'.hand, j ∈ w.hand)
    (late : n ≤ ticket → reply = .failed c.request ⟨.engineFailed Code.shutDown, none⟩) :
    TurnsAway n w' where
  custody := custody
  closed := closed
  known := by
    rw [hc, List.length_set]
    exact h.known
  queued j hj := h.queued j (hq j hj)
  failed j hj := h.failed j (hh j hj)
  replies t d after hd other hother := by
    rw [hc] at hd
    by_cases same : ticket = t
    · subst same
      rw [List.getElem?_set_self (List.getElem?_eq_some_iff.mp hget).1] at hd
      obtain rfl := Option.some.inj hd
      obtain rfl := Option.some.inj (hreply.symm.trans hother)
      rw [late after, hr]
    · rw [List.getElem?_set_ne same] at hd
      exact h.replies t d after hd other hother

theorem passed {host host' : Host Software} {before after : List Job} {job : Job}
    (h : TurnsAway n ⟨host, before ++ job :: after⟩) (custody : Custody ⟨host', before ++ after⟩)
    (closed : host'.engine.isShutDown = true)
    (s : Settlement Software.engine host job host') : TurnsAway n ⟨host', before ++ after⟩ := by
  have mem : job ∈ before ++ job :: after := List.mem_append_right before List.mem_cons_self
  have rest : ∀ j ∈ before ++ after, j ∈ before ++ job :: after := fun _ => mem_of_removed
  cases s with
  | strayed => exact h.keep custody closed rfl (fun _ hj => hj) fun j hj => .inl (rest j hj)
  | resubmitted hj hc hb ha hr hq =>
    subst hq
    refine h.keep custody closed rfl (fun j hj => ?_) fun j hj => .inl (rest j hj)
    rwa [show (Software.engine.submit job.rearm _ host.now host.engine).state.queued =
      host.engine.queued from congrArg (·.state.queued)
        (Software.submit_of_shutDown h.closed _ _ _)] at hj
  | @finished job' ticket c exhausted hj hc hw hp hr =>
    refine h.answered custody closed hc rfl rfl rfl (fun _ hj => hj) rest fun late => ?_
    have failed := h.failed job mem ticket late hj
    rw [c.react_of_not_busy (by rw [failed]; exact nofun)] at hr
    cases hr
    rw [c.ending_of_not_done (by rw [failed]; exact nofun), failed]
    rfl
  | stranded hj hc hw hp hr =>
    rw [(h.custody.slots _ (List.mem_of_getElem? hc)).mp hp] at hw
    cases hw
  | refused hj hc hp hr =>
    refine h.keep custody closed rfl (fun j hj => ?_) fun j hj => .inl (rest j hj)
    revert hj
    dsimp only
    split <;> exact id

theorem effect (h : TurnsAway n w) (e : Effect (lateRules n) w w') : TurnsAway n w' := by
  have custody : Custody w' := h.custody.effect e.unrestrained
  have closed : w'.host.engine.isShutDown = true :=
    ((Software.keeps_shutDown w.host.engine.sessions).effect e.unrestrained ⟨h.closed, rfl⟩).1
  cases e with
  | aside | installed | misconfigured | dropped | rejected =>
    exact h.keep custody closed rfl (fun _ hj => hj) fun _ hj => .inl hj
  | changed _ hchange =>
    exact h.keep custody closed rfl
      (fun _ hj => List.map_subset Queued.job hchange.queue_subset hj) fun _ hj => .inl hj
  | opened | notOpened =>
    exact h.keep custody closed rfl (fun _ => Software.queued_createSession_subset)
      fun _ hj => .inl hj
  | starved =>
    exact h.keep custody closed rfl (fun _ => Software.queued_acquire_subset) fun _ hj => .inl hj
  | admitted _ hs hl hr ho ha hq =>
    subst hq
    refine ⟨custody, closed, ?_, fun j hj => h.queued j ?_, h.failed, fun t c late hc => ?_⟩
    · rw [List.length_append]
      exact Nat.le_add_right_of_le h.known
    · have shut := (Software.acquire_isShutDown w.host.engine).trans h.closed
      exact Software.queued_acquire_subset (congrArg (j ∈ ·.state.queued)
        (Software.submit_of_shutDown shut _ 0 w.host.now) ▸ hj)
    · intro reply hreply
      rcases Nat.lt_or_ge t w.host.calls.length with old | new
      · rw [List.getElem?_append_left old] at hc
        exact h.replies t c late hc reply hreply
      · rw [List.getElem?_append_right new, List.getElem?_singleton] at hc
        split at hc
        · obtain rfl := Option.some.inj hc
          cases hreply
        · cases hc
  | taken _ hstep =>
    obtain ⟨job, others, -, hreturning, rfl⟩ | ⟨-, -, -, running, -⟩ :=
      Software.handBack_cases hstep
    · refine h.keep custody closed rfl (fun _ hj => hj) fun j hj => ?_
      refine (List.mem_append.mp hj).imp_right fun new => ?_
      rw [List.mem_singleton.mp new]
      rfl
    · rw [h.closed] at running
      cases running
  | passed host before after s => exact h.passed custody closed s
  | collected _ hl hc hw hp =>
    rw [(h.custody.slots _ (List.mem_of_getElem? hc)).mpr hw] at hp
    cases hp
  | @left _ ticket c reason hl hc hw hp =>
    refine h.answered custody closed hc rfl rfl rfl
      (fun _ hj => List.map_subset _ (Software.withdraw_queue _ _) hj) (fun _ hj => hj)
      fun late => ?_
    -- the job of a call that came late is never in the queue, so the call does not look
    obtain ⟨j, hj, hr, -⟩ := h.custody.job_of_waiting hc hw
    rcases List.mem_append.mp hj with inside | hand
    · rcases List.mem_append.mp inside with returning | queued
      · exact absurd hr (hl late j (List.mem_append_left _ returning))
      · exact absurd (h.queued j queued ticket hr) (Nat.not_lt.mpr late)
    · exact absurd hr (hl late j (List.mem_append_right _ hand))

theorem effects (h : TurnsAway n w) (e : Effects (lateRules n) w w') : TurnsAway n w' := by
  induction e with
  | refl => exact h
  | tail _ effect ih => exact ih.effect effect

end TurnsAway

end World
end PacketAuth
