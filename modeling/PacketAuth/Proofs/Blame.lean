import PacketAuth.Proofs.Draining
import PacketAuth.Proofs.Rejection
import PacketAuth.Proofs.Shutdown
import PacketAuth.Proofs.Tolerance

/-! Whom a failure of the engine is to blame on. The engine never finds fault with a job itself,
since every job in its queue is one that it can process; so a call fails in the engine for a failure
that was injected, for the end of the engine, or for one busy answer too many. -/
namespace PacketAuth

namespace Software

/-- Every failure that is pending has one of some codes. -/
def Injects (C : Int32 → Prop) (s : Software) : Prop := 0 < s.faults.jobs → C s.faults.code

/-- As `rules`, but no failure is injected with any but some codes. -/
def injecting (C : Int32 → Prop) : Rules Software where
  engine := engine
  change s step := Change s step ∧ step.state.Injects C

/-- If every code will do, nothing is forbidden. -/
theorem injecting_any : injecting (fun _ => True) = rules := by
  simp [injecting, rules, Injects]

variable {C : Int32 → Prop}

/-- The worker uses up one failure at a time, and leaves the code. -/
theorem Injects.work {s : Software} (h : s.Injects C) (job : Job) :
    (work job s).state.Injects C := by
  unfold Software.work Faults.next
  split_ifs with busy jobs
  · exact h
  · exact fun _ => h jobs
  · exact h

theorem keeps_injects : (injecting C).Keeps (Injects C) where
  change hchange _ := hchange.2
  createSession key s h := by
    simp only [injecting, engine, createSession]
    split_ifs <;> exact h
  acquire {s} h := by
    simp only [injecting, engine, acquire_def]
    split
    · exact h
    · split <;> exact h
  submit job delay now s h := by
    obtain ⟨queue, returning, hs, -⟩ := s.submit_frame job delay now
    simp only [injecting, engine, hs]
    exact h
  handBack {_ s _} hstep h := by
    obtain ⟨job, rest, -, -, rfl⟩ | ⟨before, q, after, -, -, rfl⟩ := handBack_cases hstep
    · exact h
    · have rest : ({ s with queue := before ++ after } : Software).Injects C := h
      exact rest.work q.job
  release _ _ h := h
  cancel id s h := by
    simp only [injecting, engine, cancel]
    split <;> exact h

/-- Why the engine may give back a job that it did not process. -/
inductive Excuses (C : Int32 → Prop) (s : Software) : Outcome → Prop
  | busy : Excuses C s .busy
  | injected {code : Int32} (h : C code) : Excuses C s (.failed code)
  | shutDown (h : s.isShutDown = true) : Excuses C s (.failed Code.shutDown)

theorem Excuses.mono {s s' : Software} {outcome : Outcome} (h : s.Excuses C outcome)
    (hs : s.isShutDown = true → s'.isShutDown = true) : s'.Excuses C outcome := by
  cases h with
  | busy => exact .busy
  | injected h => exact .injected h
  | shutDown h => exact .shutDown (hs h)

theorem Excuses.not_done {s : Software} {outcome : Outcome} (h : s.Excuses C outcome) :
    outcome ≠ .done := by
  cases h <;> simp

/-- The worker has an excuse, or it processes the job. -/
theorem work_excused {s : Software} (h : s.Injects C) (job : Job) :
    s.Excuses C (work job s).answer.outcome ∨
      (work job s).answer.outcome = (job.process s.sessions).2 := by
  unfold work Faults.next
  split_ifs with busy jobs
  · exact .inl .busy
  · exact .inl (.injected (h jobs))
  · exact .inr rfl

/-- So has an engine that is at its end. -/
theorem handBack_excused {s : Software} (h : s.Injects C) {now : Nat} {step : Step Software Job}
    (hs : s.handBack now = some step) :
    ∃ job ∈ s.inside, ∃ output outcome, step.answer = { job with output, outcome } ∧
      (s.Excuses C outcome ∨ outcome = (job.process s.sessions).2) := by
  obtain ⟨job, rest, shut, hr, rfl⟩ | ⟨before, q, after, -, hq, rfl⟩ := handBack_cases hs
  · exact ⟨job, by simp [inside, hr], job.output, _, rfl, .inl (.shutDown shut)⟩
  · have rest : ({ s with queue := before ++ after } : Software).Injects C := h
    obtain ⟨output, outcome, hanswer, -⟩ := work_spec q.job { s with queue := before ++ after }
    refine ⟨q.job, by simp [inside, queued, hq], output, outcome, hanswer, ?_⟩
    have excused := work_excused rest q.job
    rw [hanswer] at excused
    exact excused.imp_left fun e => e.mono id

end Software

namespace World
variable {C : Int32 → Prop} {w w' : World Software}

/-- A call that is told of a failure in the engine got no tag. -/
theorem verdict_of_failsAs {c : Call} {job : Job} {code : Int32}
    (h : (c.ending job).reply.FailsAs (.engineFailed code)) :
    ∃ f, job.verdict = .error f ∧ f.kind = .engineFailed code := by
  cases hv : job.verdict with
  | error f =>
    rw [(c.ending_of_error hv).1, Reply.failsAs_failed] at h
    exact ⟨f, rfl, h⟩
  | ok tag =>
    refine absurd h ?_
    cases hc : c.request.command with
    | write => simp [c.ending_of_write hv hc, Reply.FailsAs]
    | read =>
      rw [c.ending_of_read hv hc]
      split <;> simp [Reply.FailsAs, Reply.failed]

theorem Effect.unrestricted (e : Effect (Software.injecting C) w w') :
    Effect Software.rules w w' :=
  Effect.mono (R := Software.injecting C) rfl (fun _ _ h => h.1) (fun _ _ _ _ _ h => h) e

/-- Nothing is struck from the log. -/
theorem Effect.log_subset {σ : Type} {R : Rules σ} {w w' : World σ} (e : Effect R w w') :
    w.host.log ⊆ w'.host.log := by
  intro event logged
  cases e with
  | aside | dropped => exact logged
  | changed | installed | misconfigured | opened | notOpened | rejected | starved | admitted | taken |
    collected | left => simp [logged]
  | passed host before after s =>
    cases s with
    | strayed => exact logged
    | resubmitted | finished | stranded | refused => simp [show event ∈ host.log from logged]

/-- Where a reply comes from: it was there before, its call left, or its call got its job back. -/
inductive Replying (w w' : World Software) (ticket : Nat) (reply : Reply) : Prop
  | kept {c : Call} (hc : w.host.calls[ticket]? = some c) (hr : c.reply = some reply)
  | left (r : Request) (context : String)
      (hr : reply = .failed r ⟨.waitInterrupted, some context⟩)
  | settled {c : Call} {job job' : Job} {exhausted : Bool} (hmem : job ∈ w.hand)
      (hj : job.recipient = some (.call ticket)) (hc : w.host.calls[ticket]? = some c)
      (hp : c.slot = .pending) (hs : c.react job = .settle job' exhausted)
      (hr : reply = (c.ending job').reply)
      (hl : exhausted = true → .retriesExhausted job'.id job'.retries ∈ w'.host.log)

theorem Effect.replying (custody : Custody w) (e : Effect Software.rules w w') {ticket : Nat}
    {c' : Call} {reply : Reply} (hc : w'.host.calls[ticket]? = some c')
    (hr : c'.reply = some reply) : Replying w w' ticket reply := by
  cases e with
  | aside | installed | misconfigured | dropped | changed | opened | notOpened | rejected |
    starved | taken => exact .kept hc hr
  | admitted =>
    rcases getElem?_append_singleton hc with old | ⟨-, rfl⟩
    · exact .kept old hr
    · cases hr
  | collected _ hl hget hw hp =>
    have pending := (custody.slots _ (List.mem_of_getElem? hget)).mpr hw
    rw [pending] at hp
    cases hp
  | left =>
    rcases getElem?_set_eq_some hc with ⟨rfl, rfl⟩ | old
    · exact .left _ _ (Option.some.inj hr).symm
    · exact .kept old hr
  | passed host before after s =>
    cases s with
    | strayed | resubmitted | refused => exact .kept hc hr
    | stranded hj hget hw hp =>
      have waiting := (custody.slots _ (List.mem_of_getElem? hget)).mp hp
      rw [waiting] at hw
      cases hw
    | finished hj hget hw hp hs =>
      rcases getElem?_set_eq_some hc with ⟨rfl, rfl⟩ | old
      · refine .settled (List.mem_append_right _ List.mem_cons_self) hj hget hp hs
          (Option.some.inj hr).symm ?_
        rintro rfl
        simp
      · exact .kept old hr

/-- A job in hand was in hand before, or the engine has just given it back. -/
theorem Effect.hand_origin (e : Effect Software.rules w w') {j : Job} (hj : j ∈ w'.hand) :
    j ∈ w.hand ∨ ∃ step, w.host.engine.handBack w.host.now = some step ∧ j = step.answer := by
  cases e with
  | taken _ hstep =>
    rcases List.mem_append.mp hj with hj | hj
    · exact .inl hj
    · exact .inr ⟨_, hstep, List.mem_singleton.mp hj⟩
  | passed host before after s => exact .inl (mem_of_removed hj)
  | _ => exact .inl hj

/-- Where a job that the engine has comes from: it had it before, it was submitted for a new call,
or it is tried again. -/
inductive Entering (w : World Software) (j : Job) : Prop
  | kept (h : j ∈ w.host.engine.inside)
  | admitted {s : Service} {r : Request} {regions : Regions} {session : SessionHandle} {job : Job}
      (ha : w.host.engine.acquire.answer = some job)
      (hj : j = r.fill s regions session w.host.calls.length job)
  | again {ticket : Nat} {c : Call} {job : Job} (hr : job.recipient = some (.call ticket))
      (hc : w.host.calls[ticket]? = some c) (allowed : c.retry.allows job.retries = true)
      (hj : j = job.rearm)

theorem Effect.entering (e : Effect Software.rules w w') {j : Job}
    (hj : j ∈ w'.host.engine.inside) : Entering w j := by
  cases e with
  | aside | installed | misconfigured | dropped | rejected | collected => exact .kept hj
  | changed _ hchange => exact .kept (hchange.frame.1 ▸ hj)
  | opened | notOpened => exact .kept (Software.createSession_inside _ w.host.engine ▸ hj)
  | starved => exact .kept (Software.acquire_inside w.host.engine ▸ hj)
  | admitted _ hs hl hr ho ha hsubmit =>
    subst hsubmit
    rcases Software.inside_submit_subset hj with hj | rfl
    · exact .kept (Software.acquire_inside w.host.engine ▸ hj)
    · exact .admitted ha rfl
  | taken _ hstep =>
    obtain ⟨before, job, after, output, outcome, hold, -, -, queue, returning, faults, -, hnew, -⟩ :=
      Software.handBack_spec hstep
    exact .kept (hold ▸ mem_of_removed (hnew ▸ hj))
  | passed host before after s =>
    cases s with
    | strayed | finished | stranded => exact .kept hj
    | resubmitted hr hc hb ha allowed hsubmit =>
      subst hsubmit
      rcases Software.inside_submit_subset hj with hj | rfl
      · exact .kept hj
      · exact .again hr hc allowed rfl
    | refused =>
      dsimp only at hj
      split at hj <;> exact .kept hj
  | left => exact .kept (Software.inside_withdraw_subset hj)

/-- Why a call may report a code of the engine. -/
inductive Blames (C : Int32 → Prop) (w : World Software) (c : Call) : Int32 → Prop
  | injected {code : Int32} (h : C code) : Blames C w c (if 0 < code then code else 5)
  | shutDown (h : w.host.engine.isShutDown = true) : Blames C w c 58
  | exhausted {m : Nat} (hm : c.retry.maxRetries = some m)
      (hl : .retriesExhausted c.job m ∈ w.host.log) : Blames C w c 35

theorem Blames.persists {c c' : Call} {code : Int32} (h : Blames C w c code) (p : c.Persists c') :
    Blames C w c' code := by
  cases h with
  | injected h => exact .injected h
  | shutDown h => exact .shutDown h
  | exhausted hm hl => exact .exhausted (p.retry ▸ hm) (p.job ▸ hl)

theorem Effect.isShutDown (e : Effect Software.rules w w')
    (h : w.host.engine.isShutDown = true) : w'.host.engine.isShutDown = true :=
  ((Software.keeps_shutDown _).effect e ⟨h, rfl⟩).1

theorem Blames.effect {c : Call} {code : Int32} (h : Blames C w c code)
    (e : Effect Software.rules w w') : Blames C w' c code := by
  cases h with
  | injected h => exact .injected h
  | shutDown h => exact .shutDown (e.isShutDown h)
  | exhausted hm hl => exact .exhausted hm (e.log_subset hl)

/-- Whatever excuses a job in the end is to blame. -/
theorem Blames.of_excuse {c : Call} {outcome : Outcome} (h : w.host.engine.Excuses C outcome)
    (decided : outcome ≠ .busy) : Blames C w c outcome.failureCode := by
  cases h with
  | busy => exact absurd rfl decided
  | injected h => exact .injected h
  | shutDown h => exact .shutDown h

/-- All is well with the jobs of an engine and with the codes that were reported for them. -/
structure Proper (C : Int32 → Prop) (w : World Software) : Prop where
  keyed : Keyed w
  unused : ∀ j ∈ w.host.engine.pool.free, ∃ id, j = .fresh id
  injects : w.host.engine.Injects C
  pending : ∀ j ∈ w.host.engine.inside, j.outcome = .pending
  tolerated : ∀ j ∈ w.afloat, ∀ (ticket : Nat) (c : Call),
    j.recipient = some (.call ticket) → w.host.calls[ticket]? = some c →
    c.retry.Tolerates j.retries
  returned : ∀ j ∈ w.hand, j.outcome = .done ∨ w.host.engine.Excuses C j.outcome
  replied : ∀ (ticket : Nat) (c : Call) (reply : Reply) (code : Int32),
    w.host.calls[ticket]? = some c → c.reply = some reply →
    reply.FailsAs (.engineFailed code) → Blames C w c code

namespace Proper

theorem fresh (capacity : Capacity) : Proper C (World.fresh capacity) where
  keyed := .fresh capacity
  unused := by simp [World.fresh, Software.start]
  injects := by simp [World.fresh, Software.start, Software.Injects]
  pending := nofun
  tolerated := nofun
  returned := by simp [World.fresh]
  replied := by simp [World.fresh]

/-- A job that the engine has gets done, if it is processed. -/
theorem process_done (h : Proper C w) {j : Job} (hj : j ∈ w.host.engine.inside) :
    (j.process w.host.engine.sessions).2 = .done := by
  have out : j ∈ w.afloat := List.mem_append_left _ hj
  obtain ⟨ticket, c, hr, hc, -⟩ := h.keyed.custody.call_of_mem out
  obtain ⟨s, serves, split⟩ := h.keyed.calls ticket c hc
  exact (h.keyed.filled j out ticket c s hr serves).process_done h.keyed.distinct split

/-- A job that was acquired was not used before. -/
theorem acquired (h : Proper C w) {job : Job} (ha : w.host.engine.acquire.answer = some job) :
    ∃ id, job = .fresh id := by
  obtain ⟨free, nextJob, -, ⟨hfree, -⟩ | ⟨-, -, rfl, -⟩⟩ := Software.acquire_eq_some ha
  · exact h.unused job (by simp [hfree])
  · exact ⟨_, rfl⟩

theorem pending_effect (h : Proper C w) (e : Effect Software.rules w w') :
    ∀ j ∈ w'.host.engine.inside, j.outcome = .pending := by
  intro j hj
  cases e.entering hj with
  | kept old => exact h.pending j old
  | admitted ha hj =>
    obtain ⟨id, rfl⟩ := h.acquired ha
    rw [hj]
    rfl
  | again _ _ _ hj => rw [hj, Job.rearm_outcome]

/-- A call and its job that were there before keep to the policy. -/
theorem tolerated_before (h : Proper C w) (e : Effect Software.rules w w') {j : Job}
    (hj : j ∈ w.afloat) {ticket : Nat} {c' : Call} (hr : j.recipient = some (.call ticket))
    (hc' : w'.host.calls[ticket]? = some c') : c'.retry.Tolerates j.retries := by
  obtain ⟨t, d, ht, hd, -⟩ := h.keyed.custody.call_of_mem hj
  obtain rfl : t = ticket := by simpa [hr] using ht.symm
  obtain ⟨c, hc, persists⟩ := e.call_before (List.getElem?_eq_some_iff.mp hd).1 hc'
  rw [persists.retry]
  exact h.tolerated j hj t c hr hc

theorem tolerated_effect (h : Proper C w) (e : Effect Software.rules w w') :
    ∀ j ∈ w'.afloat, ∀ ticket c, j.recipient = some (.call ticket) →
      w'.host.calls[ticket]? = some c → c.retry.Tolerates j.retries := by
  intro j hj ticket c' hr hc'
  rcases List.mem_append.mp hj with hj | hj
  · cases e.entering hj with
    | kept old => exact h.tolerated_before e (List.mem_append_left _ old) hr hc'
    | admitted ha hj =>
      obtain ⟨id, rfl⟩ := h.acquired ha
      rw [hj]
      exact fun m _ => Nat.zero_le m
    | @again t c job hown hc allowed hj =>
      rw [hj] at hr ⊢
      obtain rfl : t = ticket := by simpa [Job.rearm, hown] using hr
      rw [(e.persists.of_ticket hc hc').retry]
      intro m hm
      exact Nat.le_trans (Nat.min_le_left _ _) ((c.retry.allows_iff _).mp allowed m hm)
  · rcases e.hand_origin hj with old | ⟨step, hstep, rfl⟩
    · exact h.tolerated_before e (List.mem_append_right _ old) hr hc'
    · obtain ⟨before, job, after, output, outcome, hold, hanswer, -⟩ :=
        Software.handBack_spec hstep
      rw [hanswer] at hr ⊢
      have out : job ∈ w.afloat := by simp [afloat, hold]
      exact h.tolerated_before e out hr hc'

theorem returned_effect (h : Proper C w) (e : Effect Software.rules w w') :
    ∀ j ∈ w'.hand, j.outcome = .done ∨ w'.host.engine.Excuses C j.outcome := by
  intro j hj
  rcases e.hand_origin hj with old | ⟨step, hstep, rfl⟩
  · exact (h.returned j old).imp_right fun excused => excused.mono e.isShutDown
  · obtain ⟨job, had, output, outcome, hanswer, excused | processed⟩ :=
      Software.handBack_excused h.injects hstep
    · rw [hanswer]
      exact .inr (excused.mono e.isShutDown)
    · rw [hanswer]
      exact .inl (processed.trans (h.process_done had))

/-- A call that had enough of busy answers had as many as its policy allows. -/
theorem maxRetries_of_settled (h : Proper C w) {job job' : Job} {exhausted : Bool} {ticket : Nat}
    {c : Call} (hj : job ∈ w.hand) (hr : job.recipient = some (.call ticket))
    (hc : w.host.calls[ticket]? = some c) (hp : c.slot = .pending) (busy : job.outcome = .busy)
    (settled : c.react job = .settle job' exhausted) :
    c.job = job.id ∧ c.retry.maxRetries = some job.retries ∧ exhausted = true := by
  have out : job ∈ w.afloat := List.mem_append_right _ hj
  obtain ⟨refused, rfl⟩ := Call.settle_of_busy hp busy settled
  have limit : ¬ c.retry.Tolerates (job.retries + 1) := by
    rw [← RetryPolicy.allows_iff, refused]
    exact Bool.false_ne_true
  refine ⟨?_, RetryPolicy.maxRetries_of_exhausted (h.tolerated job out ticket c hr hc) limit, rfl⟩
  rcases h.keyed.custody.owner out hr hc with ⟨-, -, own⟩ | ⟨-, left⟩
  · exact own
  · rw [hp] at left
    cases left

/-- The job that a call got back has an excuse, if it brings no tag. -/
theorem excused_of_verdict (h : Proper C w) {job : Job} {ticket : Nat} {c : Call} {f : Failure}
    (hj : job ∈ w.hand) (hr : job.recipient = some (.call ticket))
    (hc : w.host.calls[ticket]? = some c) (hv : job.verdict = .error f) :
    w.host.engine.Excuses C job.outcome ∧ f.kind = .engineFailed job.outcome.failureCode := by
  rcases h.returned job hj with done | excused
  · obtain ⟨s, serves, -⟩ := h.keyed.calls ticket c hc
    obtain ⟨tag, carried, -⟩ := h.keyed.carried job hj ticket c s hr serves done
    rw [carried] at hv
    cases hv
  · rw [Job.verdict_of_not_done excused.not_done] at hv
    cases hv
    exact ⟨excused, rfl⟩

theorem replied_effect (h : Proper C w) (e : Effect Software.rules w w') :
    ∀ (ticket : Nat) (c : Call) (reply : Reply) (code : Int32),
      w'.host.calls[ticket]? = some c → c.reply = some reply →
      reply.FailsAs (.engineFailed code) → Blames C w' c code := by
  intro ticket c' reply code hc' hreply fails
  cases e.replying h.keyed.custody hc' hreply with
  | kept hc old =>
    have blames := h.replied ticket _ reply code hc old fails
    exact (blames.effect e).persists (e.persists.of_ticket hc hc')
  | left r context hr =>
    rw [hr, Reply.failsAs_failed] at fails
    cases fails
  | @settled c job job' exhausted hmem hj hc hp hs hr hl =>
    refine Blames.persists ?_ (e.persists.of_ticket hc hc')
    rw [hr] at fails
    obtain ⟨f, verdict, kind⟩ := verdict_of_failsAs fails
    -- the job itself decides the call, or its last busy answer was one too many
    rcases Call.settle_of_pending hp hs with ⟨decided, rfl⟩ | ⟨busy, rfl⟩
    · obtain ⟨excused, failure⟩ := h.excused_of_verdict hmem hj hc verdict
      obtain rfl : job'.outcome.failureCode = code := by
        simpa [kind] using failure.symm
      exact (Blames.of_excuse excused decided).effect e
    · obtain ⟨own, bound, rfl⟩ := h.maxRetries_of_settled hmem hj hc hp busy hs
      cases verdict
      cases kind
      exact .exhausted bound (own ▸ hl rfl)

theorem effect (h : Proper C w) (e : Effect (Software.injecting C) w w') : Proper C w' where
  keyed := h.keyed.effect e.unrestricted
  unused := Software.keeps_fresh.effect e.unrestricted h.unused
  injects := Software.keeps_injects.effect e h.injects
  pending := h.pending_effect e.unrestricted
  tolerated := h.tolerated_effect e.unrestricted
  returned := h.returned_effect e.unrestricted
  replied := h.replied_effect e.unrestricted

theorem effects (h : Proper C w) (e : Effects (Software.injecting C) w w') : Proper C w' := by
  induction e with
  | refl => exact h
  | tail _ effect ih => exact ih.effect effect

end Proper

/-- A job that the engine can process, for a call that waits for it on some service. -/
structure WellFormed (w : World Software) (j : Job) (ticket : Nat) (c : Call) (s : Service) :
    Prop where
  serves : w.Serves ticket c s
  waiting : c.isWaiting = true
  recipient : j.recipient = some (.call ticket)
  outcome : j.outcome = .pending
  input : s.config.layout.prefixLength + j.input.length = c.request.length
  descriptor : ∃ session, j.descriptor = some ⟨session, s.key, 0, j.input.length, 0⟩ ∧
    w.host.engine.sessions.key? session = some s.key
  retries : ∀ m, s.config.retry.maxRetries = some m → j.retries ≤ m

namespace Proper

theorem wellFormed (h : Proper C w) (engaged : Engaged w) {j : Job}
    (hj : j ∈ w.host.engine.queued) : ∃ ticket c s, WellFormed w j ticket c s := by
  have had : j ∈ w.host.engine.inside := List.mem_append_right _ hj
  have out : j ∈ w.afloat := List.mem_append_left _ had
  obtain ⟨ticket, c, hc, hw, -, hr⟩ := h.keyed.custody.call_of_queued hj
  obtain ⟨s, serves, split⟩ := h.keyed.calls ticket c hc
  obtain ⟨s', hs', policy⟩ := engaged ticket c hc
  obtain rfl : s = s' := Option.some.inj (serves.service.symm.trans hs')
  have filled := h.keyed.filled j out ticket c s hr serves
  obtain ⟨session, hd, hmem⟩ := filled.descriptor
  have full : j.input.length = c.regions.payload.length := by
    rw [filled.input, Layout.maskedPayload_length split]
  obtain ⟨long, -, regions⟩ := Layout.split_ok split
  refine ⟨ticket, c, s, serves, hw, hr, h.pending j had, ?_, ?_, ?_⟩
  · simp only [full, regions, Region.length]
    omega
  · rw [full]
    exact ⟨session, hd, Sessions.key?_of_mem h.keyed.distinct hmem⟩
  · rw [← policy]
    exact h.tolerated j out ticket c hr hc

/-- The worker finds a tag for every job in the queue. -/
theorem processed (h : Proper C w) {j : Job} (hj : j ∈ w.host.engine.queued) :
    (j.process w.host.engine.sessions).2 = .done ∧
      ∃ tag, ((j.process w.host.engine.sessions).1.complete .done).verdict = .ok tag := by
  have done := h.process_done (List.mem_append_right _ hj)
  obtain ⟨output, outcome, processed, worked⟩ := Software.process_spec w.host.engine.sessions j
  rw [processed] at done ⊢
  obtain rfl : outcome = .done := done
  obtain ⟨tag, d, key, verdict, -⟩ := Software.Worked.verdict worked
  exact ⟨rfl, tag, verdict⟩

end Proper

/-- A call that fails in the engine while it is performed was let in, and has something to blame. -/
theorem Proper.blames_of_performed (h : Proper C w) {s : Service} {r : Request}
    (hs : w.host.services[r.service]? = some s) {reply : Reply} {h' : Host Software}
    (hp : w.host.perform Software.engine s r = (some reply, h')) {code : Int32}
    (fails : reply.FailsAs (.engineFailed code)) :
    ∃ c, h'.calls[w.host.calls.length]? = some c ∧ c.request = r ∧
      Blames C ⟨h', w.hand⟩ c code := by
  cases he : w.host.enter Software.engine s r with
  | mk answer entered =>
    cases answer with
    | error f =>
      rw [Host.perform, Host.start, he] at hp
      cases (Prod.mk.inj hp).1
      rw [Reply.failsAs_failed] at fails
      rcases Host.enter_error he with kind | kind | kind | kind <;> simp [kind] at fails
    | ok ticket =>
      obtain ⟨lane, regions, session, opened, job, -, -, -, rfl, hcalls, -⟩ := Host.enter_ok he
      have entering := entered_run (R := Software.injecting C) .refl hs he
      have held := (Run.isHeld entering).trans h.keyed.custody.held
      have looks : ∀ h ticket, (Software.injecting C).mayLook ⟨h, w.hand⟩ ticket :=
        fun _ _ => trivial
      obtain ⟨run, hreply⟩ := run_performed (R := Software.injecting C) looks he held
      rw [show (Software.injecting C).engine = Software.engine from rfl, hp] at run hreply
      obtain ⟨c, hc, answered⟩ := Option.bind_eq_some_iff.mp hreply.symm
      have final := h.effects (Run.effects (entering.trans run))
      have new : entered.calls[w.host.calls.length]? = some (r.call s regions job w.host.now) := by
        simp [hcalls]
      have persists := (Run.effects run).persists.of_ticket new hc
      exact ⟨c, hc, persists.request, final.replied _ c reply code hc answered fails⟩

/-- Whatever callers, the engine and the clock do, the engine can process each job in its queue: the
job belongs to a call that waits for it, its input is as long as the payload of the request, its
session is one for the key of the service, and it was not retried more often than the policy of the
service allows. So a job comes back done, or busy, or failed by an injected failure or by the end of
the engine; and one of these last two, or one busy answer too many, is what a call has to blame for
the code that it reports. -/
theorem queued_jobs_are_well_formed {capacity : Capacity}
    (reach : Run Software.rules (fresh capacity) w) :
    (∀ j ∈ w.host.engine.queued, (∃ ticket c s, WellFormed w j ticket c s) ∧
      (j.process w.host.engine.sessions).2 = .done ∧
      ∃ tag, ((j.process w.host.engine.sessions).1.complete .done).verdict = .ok tag) ∧
    ∀ C, Run (Software.injecting C) (fresh capacity) w →
      (∀ j ∈ w.hand, j.outcome = .done ∨ w.host.engine.Excuses C j.outcome) ∧
      (∀ (ticket : Nat) (c : Call) (reply : Reply) (code : Int32),
        w.host.calls[ticket]? = some c → c.reply = some reply →
        reply.FailsAs (.engineFailed code) → Blames C w c code) ∧
      ∀ (s : Service) (r : Request) (reply : Reply) (h' : Host Software) (code : Int32),
        w.host.services[r.service]? = some s →
        w.host.perform Software.engine s r = (some reply, h') →
        reply.FailsAs (.engineFailed code) →
        ∃ c, h'.calls[w.host.calls.length]? = some c ∧ c.request = r ∧
          Blames C ⟨h', w.hand⟩ c code := by
  constructor
  · intro j hj
    have engaged : Engaged w := Engaged.effects (by simp [Engaged, fresh]) (Run.effects reach)
    rw [← Software.injecting_any] at reach
    have proper := (Proper.fresh capacity).effects (Run.effects reach)
    exact ⟨proper.wellFormed engaged hj, proper.processed hj⟩
  · intro C restricted
    have proper := (Proper.fresh (C := C) capacity).effects (Run.effects restricted)
    exact ⟨proper.returned, proper.replied, fun s r reply h' code hs hp fails =>
      proper.blames_of_performed hs hp fails⟩

/-- A failure is injected while a job waits in the queue of a paused engine. The call fails, with
another code than the one injected, which is not positive. -/
theorem injected_failure_is_to_blame :
    ∃ (w w' : World Software) (j : Job) (c : Call) (reply : Reply),
      Run Software.rules (fresh {}) w ∧ w.host.engine.queued = [j] ∧
      (∃ ticket c s, WellFormed w j ticket c s) ∧
      Run (Software.injecting (· = -3)) (fresh {}) w' ∧ w'.host.calls[0]? = some c ∧
      c.reply = some reply ∧ reply.FailsAs (.engineFailed 5) ∧ Blames (· = -3) w' c 5 := by
  let b : Builder := { key := some (.ofSeed 1) }
  let s : Service := .create {} (.ofSeed 1)
  let r : Request := ⟨0, ⟨0⟩, .write, List.replicate 20 0, 20, none⟩
  let paused : World Software :=
    ⟨{ (fresh {}).host with engine := (fresh {}).host.engine.pause }, []⟩
  let installed : World Software := ⟨(paused.host.install b).2, []⟩
  let w : World Software := ⟨(installed.host.enter Software.engine s r).2, []⟩
  let troubled : World Software :=
    ⟨{ w.host with engine := w.host.engine.injectJobFailures 1 (-3) }, []⟩
  let resumed : World Software :=
    ⟨{ troubled.host with engine := troubled.host.engine.resume }, []⟩
  let w' : World Software := ⟨resumed.host.drain Software.engine, []⟩
  have waiting (D : Int32 → Prop) : Run (Software.injecting D) (fresh {}) w := by
    have quiet : Run (Software.injecting D) (fresh {}) paused :=
      .single (Next.change (R := Software.injecting D) (fresh {}) ⟨.pause _, nofun⟩)
    exact (quiet.tail (.install paused b)).tail (.enter installed (s := s) (r := r) rfl)
  have failing (D : Int32 → Prop) (hD : D (-3)) : Run (Software.injecting D) (fresh {}) w' := by
    have injected : Run (Software.injecting D) (fresh {}) troubled :=
      (waiting D).tail (Next.change (R := Software.injecting D) w
        ⟨.injectJobFailures _ 1 (-3), fun _ => hD⟩)
    exact (injected.tail (Next.change (R := Software.injecting D) _
      ⟨.resume _, fun _ => hD⟩)).trans (run_drain resumed.host [])
  have reach : Run Software.rules (fresh {}) w := Software.injecting_any ▸ waiting _
  have reach' : Run Software.rules (fresh {}) w' := Software.injecting_any ▸ failing _ trivial
  obtain ⟨j, hj⟩ : ∃ j, w.host.engine.queued = [j] := ⟨_, rfl⟩
  have told : (w'.host.reply? 0).map Reply.result = some (.error ⟨.engineFailed 5, none⟩) := by
    decide +kernel
  obtain ⟨reply, replied, hresult⟩ := Option.map_eq_some_iff.mp told
  obtain ⟨c, hc, hreply⟩ := Option.bind_eq_some_iff.mp replied
  have fails : reply.FailsAs (.engineFailed 5) := ⟨_, hresult, rfl⟩
  obtain ⟨queue, -⟩ := queued_jobs_are_well_formed reach
  obtain ⟨-, restricted⟩ := queued_jobs_are_well_formed reach'
  obtain ⟨-, blames, -⟩ := restricted (· = -3) (failing _ rfl)
  have formed := (queue j (by simp [hj])).1
  exact ⟨w, w', j, c, reply, reach, hj, formed, failing _ rfl, hc, hreply, fails,
    blames 0 c reply 5 hc hreply fails⟩

end World
end PacketAuth
