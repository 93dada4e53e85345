import PacketAuth.Proofs.Custody
import Mathlib.Algebra.GroupWithZero.Nat

/-! The counters of an engine against those of its services. Each effect is a posting to one ledger
that draws the two together, and every posting keeps the ledger balanced. -/
namespace PacketAuth

/-- What a counter comes to over all services. -/
def Service.total (services : List Service) (c : Stats.Counter) : Nat :=
  (services.map fun s => s.stats.get c).sum

namespace Service

theorem total_append (services : List Service) (s : Service) (c : Stats.Counter) :
    total (services ++ [s]) c = total services c + s.stats.get c := by
  simp [total]

theorem total_modify {services : List Service} {i : Nat} (hi : i < services.length)
    {f : Service → Service} {d : Stats.Counter} (hf : ∀ s, (f s).stats = s.stats.count d)
    (c : Stats.Counter) :
    total (services.modify i f) c = total services c + if d = c then 1 else 0 := by
  unfold total
  induction services generalizing i with
  | nil => simp at hi
  | cons s services ih =>
    cases i with
    | zero =>
      simp only [List.modify_zero_cons, List.map_cons, List.sum_cons, hf, Stats.get_count]
      omega
    | succ i =>
      have rest := ih (Nat.lt_of_succ_lt_succ hi)
      simp only [List.modify_succ_cons, List.map_cons, List.sum_cons, rest]
      omega

theorem total_count {services : List Service} {i : Nat} (hi : i < services.length)
    (d c : Stats.Counter) :
    total (services.modify i (·.count d)) c = total services c + if d = c then 1 else 0 :=
  total_modify hi (fun _ => rfl) c

theorem total_modify_of_same (services : List Service) (i : Nat) {f : Service → Service}
    {c : Stats.Counter} (hf : ∀ s, (f s).stats.get c = s.stats.get c) :
    total (services.modify i f) c = total services c := by
  unfold total
  induction services generalizing i with
  | nil => simp
  | cons s services ih =>
    cases i with
    | zero => simp [hf]
    | succ i => simp [ih]

end Service

/-- The counters of an engine and of its services that have to agree, and where the jobs are. -/
structure Ledger where
  dispatches : Nat
  acquired : Nat
  starved : Nat
  busy : Nat
  completions : Nat
  failures : Nat
  cancellations : Nat
  retries : Nat
  decided : Nat
  interrupted : Nat
  failed : Nat
  queued : Nat
  done : Nat
  undone : Nat

namespace Ledger

structure Balanced (l : Ledger) : Prop where
  dispatches : l.dispatches = l.busy + l.completions + l.failures + l.cancellations + l.queued
  attempts : l.dispatches = l.acquired + l.retries
  decided : l.completions = l.decided + l.done
  interrupted : l.cancellations = l.interrupted
  failed : l.failed + l.undone + l.retries = l.starved + l.failures + l.busy

/-- What may be entered in a ledger. -/
inductive Posting (l : Ledger) : Ledger → Prop
  | nothing : Posting l l
  | starved : Posting l { l with starved := l.starved + 1, failed := l.failed + 1 }
  | admitted : Posting l
      { l with
        acquired := l.acquired + 1, dispatches := l.dispatches + 1, queued := l.queued + 1 }
  | takenDone {n : Nat} (h : l.queued = n + 1) : Posting l
      { l with queued := n, completions := l.completions + 1, done := l.done + 1 }
  | takenBusy {n : Nat} (h : l.queued = n + 1) : Posting l
      { l with queued := n, busy := l.busy + 1, undone := l.undone + 1 }
  | takenFailed {n : Nat} (h : l.queued = n + 1) : Posting l
      { l with queued := n, failures := l.failures + 1, undone := l.undone + 1 }
  | resubmitted {n : Nat} (h : l.undone = n + 1) : Posting l
      { l with
        undone := n, retries := l.retries + 1, dispatches := l.dispatches + 1
        queued := l.queued + 1 }
  | decided {n : Nat} (h : l.done = n + 1) : Posting l
      { l with done := n, decided := l.decided + 1 }
  | failed {n : Nat} (h : l.undone = n + 1) : Posting l
      { l with undone := n, failed := l.failed + 1 }
  | cancelled {n : Nat} (h : l.queued = n + 1) : Posting l
      { l with
        queued := n, cancellations := l.cancellations + 1, interrupted := l.interrupted + 1 }

theorem Posting.of_eq {l l' : Ledger} (h : l' = l) : Posting l l' := h ▸ .nothing

theorem Balanced.posting {l l' : Ledger} (h : Balanced l) (p : Posting l l') : Balanced l' := by
  obtain ⟨hdispatches, hattempts, hdecided, hinterrupted, hfailed⟩ := h
  cases p <;> constructor <;> grind

end Ledger

namespace World

theorem Effect.unprompted {w w' : World Software} (e : Effect Software.promptRules w w') :
    Effect Software.rules w w' :=
  Effect.mono (R := Software.promptRules) rfl (fun _ _ h => h) (fun _ _ _ _ _ _ => trivial) e

def ledger (w : World Software) : Ledger where
  dispatches := w.host.engine.accounting.dispatches
  acquired := w.host.engine.accounting.jobsAcquired
  starved := w.host.engine.accounting.acquireFailures
  busy := w.host.engine.accounting.busyOutcomes
  completions := w.host.engine.accounting.completions
  failures := w.host.engine.accounting.failures
  cancellations := w.host.engine.accounting.cancellations
  retries := Service.total w.host.services .busyRetries
  decided := Service.total w.host.services .generated +
    Service.total w.host.services .verifiedOk + Service.total w.host.services .verifiedFail
  interrupted := Service.total w.host.services .interrupted
  failed := Service.total w.host.services .engineFailures
  queued := w.host.engine.inside.length
  done := w.hand.countP (·.outcome = .done)
  undone := w.hand.countP (·.outcome ≠ .done)

/-- While no call is left with its job on the way back: every call is on a service, every job that
is out is waited for, and one in hand that is done carries a tag. -/
structure Prompt (w : World Software) : Prop where
  custody : Custody w
  served : ∀ c ∈ w.host.calls, c.request.service < w.host.services.length
  awaited : ∀ j ∈ w.afloat, j.token ∈ waitingTokens w.host.calls
  tagged : ∀ j ∈ w.hand, j.outcome = .done → ∃ tag, j.verdict = .ok tag

namespace Prompt
variable {w w' : World Software}

theorem fresh (capacity : Capacity) : Prompt (World.fresh capacity) where
  custody := .fresh capacity
  served := by simp [World.fresh]
  awaited := nofun
  tagged := by simp [World.fresh]

theorem congr (h : Prompt w) (custody : Custody w')
    (hs : w.host.services.length ≤ w'.host.services.length)
    (hc : w'.host.calls = w.host.calls) (hi : w'.host.engine.inside = w.host.engine.inside)
    (hh : w'.hand = w.hand) : Prompt w' where
  custody := custody
  served := by
    rw [hc]
    exact fun c hmem => Nat.lt_of_lt_of_le (h.served c hmem) hs
  awaited := by
    rw [hc, afloat, hi, hh]
    exact h.awaited
  tagged := by
    rw [hh]
    exact h.tagged

/-- The call of a job in hand. -/
theorem call_of_hand (h : Prompt w) {j : Job} (hj : j ∈ w.hand) :
    ∃ (ticket : Nat) (c : Call), j.recipient = some (.call ticket) ∧
      w.host.calls[ticket]? = some c ∧ c.isWaiting = true ∧ c.slot = .pending ∧ c.job = j.id := by
  obtain ⟨ticket, c, hc, hw, htoken⟩ :=
    mem_waitingTokens.mp (h.awaited j (List.mem_append_right _ hj))
  obtain ⟨hr, hid⟩ := Prod.mk.inj htoken
  exact ⟨ticket, c, hr, hc, hw, (h.custody.slots c (List.mem_of_getElem? hc)).mpr hw, hid.symm⟩

theorem slot_of_hand (h : Prompt w) {j : Job} (hj : j ∈ w.hand) {ticket : Nat} {c : Call}
    (hr : j.recipient = some (.call ticket)) (hc : w.host.calls[ticket]? = some c) :
    c.slot = .pending := by
  obtain ⟨ticket', d, hr', hd, -, hp, -⟩ := h.call_of_hand hj
  obtain rfl : ticket = ticket' := by simpa [hr] using hr'
  obtain rfl : c = d := by simpa [hc] using hd
  exact hp

theorem admitted (h : Prompt w) (custody : Custody w') {s : Service} {r : Request}
    {regions : Regions} {session : SessionHandle} {job : Job}
    (hr : w.host.services[r.service]? = some s)
    (he : w'.host.engine = (Software.submit (r.fill s regions session w.host.calls.length job) 0
      w.host.now w.host.engine.acquire.state).state)
    (hs : w'.host.services = w.host.services)
    (hc : w'.host.calls = w.host.calls ++ [r.call s regions job w.host.now])
    (hh : w'.hand = w.hand) : Prompt w' where
  custody := custody
  served := by
    intro c hmem
    rw [hs]
    rw [hc] at hmem
    rcases List.mem_append.mp hmem with hmem | hmem
    · exact h.served c hmem
    · rw [List.mem_singleton.mp hmem]
      exact (List.getElem?_eq_some_iff.mp hr).1
  awaited := by
    intro j hj
    rw [hc, waitingTokens_append _ rfl]
    rw [afloat, he, hh] at hj
    rcases List.mem_append.mp hj with hj | hj
    · rcases Software.inside_submit_subset hj with hj | rfl
      · rw [Software.acquire_inside] at hj
        exact List.mem_append_left _ (h.awaited j (List.mem_append_left _ hj))
      · exact List.mem_append_right _ (List.mem_singleton.mpr rfl)
    · exact List.mem_append_left _ (h.awaited j (List.mem_append_right _ hj))
  tagged := by
    rw [hh]
    exact h.tagged

theorem taken (h : Prompt w) (custody : Custody w') {now : Nat}
    {step : PacketAuth.Step Software Job} (hstep : w.host.engine.handBack now = some step)
    (he : w'.host.engine = step.state) (hs : w'.host.services = w.host.services)
    (hc : w'.host.calls = w.host.calls) (hh : w'.hand = w.hand ++ [step.answer]) : Prompt w' := by
  obtain ⟨before, job, after, output, outcome, hold, hanswer, hworked, queue, returning, faults, -,
    hnew, -⟩ := Software.handBack_spec hstep
  refine ⟨custody, ?_, fun j hj => ?_, fun j hj hdone => ?_⟩
  · rw [hc, hs]
    exact h.served
  · rw [hc]
    rw [afloat, he, hnew, hh] at hj
    rcases List.mem_append.mp hj with hj | hj
    · refine h.awaited j (List.mem_append_left _ ?_)
      rw [hold]
      exact mem_of_removed hj
    · rcases List.mem_append.mp hj with hj | hj
      · exact h.awaited j (List.mem_append_right _ hj)
      · have token : step.answer.token = job.token := by rw [hanswer]; rfl
        rw [List.mem_singleton.mp hj, token]
        exact h.awaited job (List.mem_append_left _ (by simp [hold]))
  · rw [hh] at hj
    rcases List.mem_append.mp hj with hj | hj
    · exact h.tagged j hj hdone
    · rw [List.mem_singleton.mp hj, hanswer] at hdone ⊢
      obtain rfl : outcome = .done := hdone
      obtain ⟨tag, -, -, hverdict, -⟩ := hworked.verdict
      exact ⟨tag, hverdict⟩

/-- A job that was on the way back is submitted anew. -/
theorem resubmitted (h : Prompt w) (custody : Custody w') {before after : List Job} {job : Job}
    {delay now : Nat} (hw : w.hand = before ++ job :: after)
    (he : w'.host.engine = (Software.submit job.rearm delay now w.host.engine).state)
    (hs : w'.host.services.length = w.host.services.length)
    (hc : w'.host.calls = w.host.calls) (hh : w'.hand = before ++ after) : Prompt w' := by
  have sub : ∀ j ∈ w'.hand, j ∈ w.hand := by
    intro j hj
    rw [hw]
    rw [hh] at hj
    exact mem_of_removed hj
  refine ⟨custody, ?_, fun j hj => ?_, fun j hj => h.tagged j (sub j hj)⟩
  · rw [hc, hs]
    exact h.served
  · rw [hc]
    rw [afloat, he] at hj
    rcases List.mem_append.mp hj with hj | hj
    · rcases Software.inside_submit_subset hj with hj | rfl
      · exact h.awaited j (List.mem_append_left _ hj)
      · exact h.awaited job (List.mem_append_right _ (by simp [hw]))
    · exact h.awaited j (List.mem_append_right _ (sub j hj))

/-- A call may end when none of the jobs that stay out is its. -/
theorem ended (h : Prompt w) (custody : Custody w') {ticket : Nat} {c c' : Call}
    (hget : w.host.calls[ticket]? = some c) (hw : c.isWaiting = true)
    (hc : w'.host.calls = w.host.calls.set ticket c') (hw' : c'.isWaiting = false)
    (hr : c'.request = c.request) (hs : w'.host.services.length = w.host.services.length)
    (hh : w'.hand ⊆ w.hand)
    (ha : ∀ j ∈ w'.afloat, j ∈ w.afloat ∧ j.token ≠ (some (.call ticket), c.job)) : Prompt w' := by
  refine ⟨custody, fun d hd => ?_, fun j hj => ?_, fun j hj => h.tagged j (hh hj)⟩
  · rw [hs]
    rw [hc] at hd
    rcases List.mem_or_eq_of_mem_set hd with hd | rfl
    · exact h.served d hd
    · rw [hr]
      exact h.served c (List.mem_of_getElem? hget)
  · obtain ⟨hmem, other⟩ := ha j hj
    rw [hc]
    exact (List.mem_cons.mp ((waitingTokens_set hget hw hw').mem_iff.mp
      (h.awaited j hmem))).resolve_left other

theorem finished (h : Prompt w) (custody : Custody w') {before after : List Job} {job : Job}
    {ticket : Nat} {c c' : Call} (hhand : w.hand = before ++ job :: after)
    (hj : job.recipient = some (.call ticket)) (hget : w.host.calls[ticket]? = some c)
    (hc : w'.host.calls = w.host.calls.set ticket c') (hw' : c'.isWaiting = false)
    (hr : c'.request = c.request) (hs : w'.host.services.length = w.host.services.length)
    (hi : w'.host.engine.inside = w.host.engine.inside) (hh : w'.hand = before ++ after) :
    Prompt w' := by
  obtain ⟨ticket', d, hj', hget', hw, -, hid⟩ := h.call_of_hand (j := job) (by simp [hhand])
  obtain rfl : ticket = ticket' := by simpa [hj] using hj'
  obtain rfl : c = d := by simpa [hget] using hget'
  have token : job.token = (some (.call ticket), c.job) := by rw [Job.token, hj, hid]
  have sub : w'.hand ⊆ w.hand := by
    intro j hmem
    rw [hhand]
    rw [hh] at hmem
    exact mem_of_removed hmem
  have hperm : (w.afloat.map Job.token).Perm (job.token :: w'.afloat.map Job.token) := by
    simp only [afloat, hi, hhand, hh, List.map_append, List.map_cons]
    rw [← List.append_assoc, ← List.append_assoc]
    exact List.perm_middle
  have unique := (List.nodup_cons.mp (hperm.nodup_iff.mp h.custody.tokens_nodup)).1
  refine h.ended custody hget hw hc hw' hr hs sub fun j hmem => ⟨?_, fun heq => ?_⟩
  · rw [afloat, hi] at hmem
    rcases List.mem_append.mp hmem with hmem | hmem
    · exact List.mem_append_left _ hmem
    · exact List.mem_append_right _ (sub hmem)
  · exact unique (token ▸ heq ▸ List.mem_map_of_mem hmem)

/-- A call that leaves takes its job with it, which is in the queue. -/
theorem left (h : Prompt w) (custody : Custody w') {ticket : Nat} {c c' : Call}
    (hl : ∀ job ∈ w.host.engine.returning ++ w.hand, job.recipient ≠ some (.call ticket))
    (hget : w.host.calls[ticket]? = some c) (hw : c.isWaiting = true)
    (he : w'.host.engine = Software.engine.withdraw c.job w.host.engine)
    (hc : w'.host.calls = w.host.calls.set ticket c') (hw' : c'.isWaiting = false)
    (hr : c'.request = c.request) (hs : w'.host.services.length = w.host.services.length)
    (hh : w'.hand = w.hand) : Prompt w' := by
  have back : ∀ j ∈ w.host.engine.returning ++ w.hand,
      j ∈ w.afloat ∧ j.token ≠ (some (.call ticket), c.job) := by
    refine fun j hj => ⟨?_, fun heq => hl j hj (congrArg Prod.fst heq)⟩
    simp only [afloat, Software.inside, List.mem_append] at hj ⊢
    tauto
  refine h.ended custody hget hw hc hw' hr hs (hh ▸ List.Subset.refl _) fun j hj => ?_
  rw [afloat, he, hh, Software.inside] at hj
  rcases List.mem_append.mp hj with hj | hj
  · rcases List.mem_append.mp hj with hj | hj
    · rw [Software.withdraw_returning] at hj
      exact back j (List.mem_append_left _ hj)
    · refine ⟨List.mem_append_left _ (List.mem_append_right _
        (List.map_subset _ (Software.withdraw_queue c.job _) hj)), fun heq => ?_⟩
      exact Software.withdraw_removes h.custody.ids_nodup_queued hj (congrArg Prod.snd heq)
  · exact back j (List.mem_append_right _ hj)

/-- What becomes of sessions is not entered. -/
theorem ledger_of_createSession {i : Nat} {s : Service} {key : AuthKey} {f : Service → Service}
    {d : Stats.Counter} (hi : w.host.services[i]? = some s)
    (he : w'.host.engine = (Software.createSession key w.host.engine).state)
    (hs : w'.host.services = w.host.services.modify i f)
    (hf : ∀ s, (f s).stats = s.stats.count d) (hd : d = .sessionsCreated ∨ d = .sessionFailures)
    (hh : w'.hand = w.hand) : w'.ledger = w.ledger := by
  have total := Service.total_modify (List.getElem?_eq_some_iff.mp hi).1 hf
  obtain ⟨-, -, -, haccounting⟩ := Software.createSession_frame key w.host.engine
  have hinside := Software.createSession_inside key w.host.engine
  cases hanswer : (Software.createSession key w.host.engine).answer <;>
    rcases hd with rfl | rfl <;>
    simp [ledger, he, hs, hh, total, hinside, haccounting, hanswer, Accounting.record]

theorem posting_starved {i : Nat} {s : Service} (hi : w.host.services[i]? = some s)
    (ha : w.host.engine.acquire.answer = none) (he : w'.host.engine = w.host.engine.acquire.state)
    (hs : w'.host.services = w.host.services.modify i (·.count .engineFailures))
    (hh : w'.hand = w.hand) : w.ledger.Posting w'.ledger := by
  have total := Service.total_count (List.getElem?_eq_some_iff.mp hi).1 .engineFailures
  have entry : w'.ledger = { w.ledger with
      starved := w.ledger.starved + 1, failed := w.ledger.failed + 1 } := by
    simp [ledger, he, hs, hh, total, Software.acquire_none_state ha, Software.record,
      Software.inside, Software.queued, Accounting.record]
  rw [entry]
  exact .starved

theorem posting_admitted {job filled : Job} {delay now : Nat}
    (ha : w.host.engine.acquire.answer = some job)
    (he : w'.host.engine = (Software.submit filled delay now w.host.engine.acquire.state).state)
    (hs : w'.host.services = w.host.services) (hh : w'.hand = w.hand) :
    w.ledger.Posting w'.ledger := by
  obtain ⟨free, nextJob, hstate, -⟩ := Software.acquire_eq_some ha
  obtain ⟨queue, returning, hsubmit, hinside⟩ :=
    Software.submit_frame filled delay now w.host.engine.acquire.state
  have hlength := hinside.length_eq
  rw [Software.acquire_inside, List.length_append, List.length_singleton] at hlength
  have entry : w'.ledger = { w.ledger with
      acquired := w.ledger.acquired + 1
      dispatches := w.ledger.dispatches + 1
      queued := w.ledger.queued + 1 } := by
    simp only [ledger, he, hs, hh, hlength]
    rw [hsubmit, hstate]
    rfl
  rw [entry]
  exact .admitted

theorem posting_taken {now : Nat} {step : PacketAuth.Step Software Job}
    (hstep : w.host.engine.handBack now = some step) (he : w'.host.engine = step.state)
    (hs : w'.host.services = w.host.services) (hh : w'.hand = w.hand ++ [step.answer]) :
    w.ledger.Posting w'.ledger := by
  obtain ⟨before, job, after, output, outcome, hold, hanswer, hworked, queue, returning, faults,
    hstate, hnew, -⟩ := Software.handBack_spec hstep
  have hqueued : w.ledger.queued = (before ++ after).length + 1 := by
    simp only [ledger, hold, List.length_append, List.length_cons]
    omega
  have accounting : step.state.accounting =
      w.host.engine.accounting.record (Software.entryOf outcome) := by
    rw [hstate]
    rfl
  cases outcome with
  | pending => exact absurd rfl hworked.1
  | done =>
    have entry : w'.ledger = { w.ledger with
        queued := (before ++ after).length
        completions := w.ledger.completions + 1
        done := w.ledger.done + 1 } := by
      simp [ledger, he, hnew, accounting, hs, hh, hanswer, Software.entryOf, Accounting.record]
    rw [entry]
    exact .takenDone hqueued
  | busy =>
    have entry : w'.ledger = { w.ledger with
        queued := (before ++ after).length
        busy := w.ledger.busy + 1
        undone := w.ledger.undone + 1 } := by
      simp [ledger, he, hnew, accounting, hs, hh, hanswer, Software.entryOf, Accounting.record]
    rw [entry]
    exact .takenBusy hqueued
  | failed code =>
    have entry : w'.ledger = { w.ledger with
        queued := (before ++ after).length
        failures := w.ledger.failures + 1
        undone := w.ledger.undone + 1 } := by
      simp [ledger, he, hnew, accounting, hs, hh, hanswer, Software.entryOf, Accounting.record]
    rw [entry]
    exact .takenFailed hqueued

theorem posting_resubmitted (h : Prompt w) {before after : List Job} {job : Job} {ticket : Nat}
    {c : Call} {delay now : Nat} (hhand : w.hand = before ++ job :: after)
    (hget : w.host.calls[ticket]? = some c) (hb : job.outcome = .busy)
    (he : w'.host.engine = (Software.submit job.rearm delay now w.host.engine).state)
    (hs : w'.host.services = w.host.services.modify c.request.service (·.count .busyRetries))
    (hh : w'.hand = before ++ after) : w.ledger.Posting w'.ledger := by
  have served := h.served c (List.mem_of_getElem? hget)
  have hundone : w.ledger.undone = (before ++ after).countP (·.outcome ≠ .done) + 1 := by
    simp only [ledger, hhand, List.countP_append, List.countP_cons, hb]
    simp
    omega
  obtain ⟨queue, returning, hsubmit, hinside⟩ :=
    Software.submit_frame job.rearm delay now w.host.engine
  have hlength := hinside.length_eq
  rw [List.length_append, List.length_singleton] at hlength
  have accounting : (Software.submit job.rearm delay now w.host.engine).state.accounting =
      w.host.engine.accounting.record .jobDispatched := by
    rw [hsubmit]
    rfl
  have entry : w'.ledger = { w.ledger with
      undone := (before ++ after).countP (·.outcome ≠ .done)
      retries := w.ledger.retries + 1
      dispatches := w.ledger.dispatches + 1
      queued := w.ledger.queued + 1 } := by
    simp [ledger, he, hs, hh, hhand, hb, hlength, accounting, Service.total_count served,
      Accounting.record]
  rw [entry]
  exact .resubmitted hundone

theorem posting_finished (h : Prompt w) {before after : List Job} {job job' : Job} {ticket : Nat}
    {c : Call} {exhausted : Bool} (hhand : w.hand = before ++ job :: after)
    (hget : w.host.calls[ticket]? = some c) (hp : c.slot = .pending)
    (hr : c.react job = .settle job' exhausted)
    (he : w'.host.engine = w.host.engine.release job')
    (hs : w'.host.services = w.host.services.modify c.request.service (c.credit job'))
    (hh : w'.hand = before ++ after) : w.ledger.Posting w'.ledger := by
  have served := h.served c (List.mem_of_getElem? hget)
  have total := Service.total_modify served (c.credit_stats job')
  by_cases hd : job.outcome = .done
  · obtain rfl : job' = job := by
      rcases Call.settle_of_pending hp hr with ⟨-, heq⟩ | ⟨hb, -⟩
      · exact heq
      · rw [hb] at hd
        cases hd
    obtain ⟨tag, hverdict⟩ := h.tagged job' (by simp [hhand]) hd
    have hdone : w.ledger.done = (before ++ after).countP (·.outcome = .done) + 1 := by
      simp only [ledger, hhand, List.countP_append, List.countP_cons, hd]
      simp
      omega
    have entry : w'.ledger = { w.ledger with
        done := (before ++ after).countP (·.outcome = .done)
        decided := w.ledger.decided + 1 } := by
      rcases Call.ending_counter_of_ok (c := c) hverdict with hk | hk | hk <;>
        simp [ledger, he, hs, hh, hhand, hd, total, hk, Software.release, Software.takeBack,
          Software.record, Software.inside, Software.queued, Accounting.record] <;> omega
    rw [entry]
    exact .decided hdone
  · have hd' : job'.outcome ≠ .done := by
      rcases Call.settle_of_pending hp hr with ⟨-, rfl⟩ | ⟨-, rfl⟩
      · exact hd
      · simp
    obtain ⟨-, hk⟩ := c.ending_of_error (Job.verdict_of_not_done hd')
    have hundone : w.ledger.undone = (before ++ after).countP (·.outcome ≠ .done) + 1 := by
      simp only [ledger, hhand, List.countP_append, List.countP_cons]
      simp [hd]
      omega
    have entry : w'.ledger = { w.ledger with
        undone := (before ++ after).countP (·.outcome ≠ .done)
        failed := w.ledger.failed + 1 } := by
      simp [ledger, he, hs, hh, hhand, hd, total, hk, Software.release, Software.takeBack,
        Software.record, Software.inside, Software.queued, Accounting.record]
    rw [entry]
    exact .failed hundone

/-- The job of a call that leaves is in the queue, so it is cancelled. -/
theorem posting_left (h : Prompt w) {ticket : Nat} {c : Call}
    (hl : ∀ job ∈ w.host.engine.returning ++ w.hand, job.recipient ≠ some (.call ticket))
    (hget : w.host.calls[ticket]? = some c) (hw : c.isWaiting = true)
    (he : w'.host.engine = Software.engine.withdraw c.job w.host.engine)
    (hs : w'.host.services = w.host.services.modify c.request.service (·.count .interrupted))
    (hh : w'.hand = w.hand) : w.ledger.Posting w'.ledger := by
  have served := h.served c (List.mem_of_getElem? hget)
  obtain ⟨deserted, books, -⟩ := h.custody.books
  have mem : (some (.call ticket), c.job) ∈ w.afloat.map Job.token :=
    books.mem_iff.mpr (List.mem_append_left _ (mem_waitingTokens.mpr ⟨ticket, c, hget, hw, rfl⟩))
  obtain ⟨j, hj, htoken⟩ := List.mem_map.mp mem
  obtain ⟨hrecipient, hid⟩ := Prod.mk.inj htoken
  have hqueued : j ∈ w.host.engine.queued := by
    rcases List.mem_append.mp hj with hinside | hhand
    · refine (List.mem_append.mp hinside).resolve_left fun hreturning => ?_
      exact hl j (List.mem_append_left _ hreturning) hrecipient
    · exact absurd hrecipient (hl j (List.mem_append_right _ hhand))
  cases hr : Queue.remove c.job w.host.engine.queue with
  | none =>
    obtain ⟨q, hq, rfl⟩ := List.mem_map.mp hqueued
    exact absurd hid (Queue.remove_eq_none hr q hq)
  | some found =>
    obtain ⟨job, rest⟩ := found
    obtain ⟨before, q, after, hqueue, hrest, -, -⟩ := Queue.remove_eq_some hr
    have hlength : w.ledger.queued = (w.host.engine.returning.length + rest.length) + 1 := by
      simp only [ledger, Software.inside, Software.queued, List.length_map, hqueue, hrest,
        List.length_append, List.length_cons]
      omega
    have entry : w'.ledger = { w.ledger with
        queued := w.host.engine.returning.length + rest.length
        cancellations := w.ledger.cancellations + 1
        interrupted := w.ledger.interrupted + 1 } := by
      simp [ledger, he, hs, hh, Service.total_count served, Engine.withdraw, Software.engine,
        Software.cancel, hr, Software.release, Software.takeBack, Software.record, Software.inside,
        Software.queued, Accounting.record]
    rw [entry]
    exact .cancelled hlength

theorem passed {host host' : Host Software} {before after : List Job} {job : Job}
    (h : Prompt ⟨host, before ++ job :: after⟩) (custody : Custody ⟨host', before ++ after⟩)
    (s : Settlement Software.engine host job host') :
    Prompt ⟨host', before ++ after⟩ ∧
      (ledger ⟨host, before ++ job :: after⟩).Posting (ledger ⟨host', before ++ after⟩) := by
  have mem : job ∈ before ++ job :: after := List.mem_append_right before List.mem_cons_self
  cases s with
  | strayed handedBack hj =>
    obtain ⟨ticket, c, hr, hc, -⟩ := h.call_of_hand mem
    have := hj ticket hr
    rw [hc] at this
    cases this
  | resubmitted hj hc hb ha hr hq =>
    exact ⟨h.resubmitted custody rfl (congrArg Step.state hq.symm) (by simp) rfl rfl,
      h.posting_resubmitted rfl hc hb (congrArg Step.state hq.symm) rfl rfl⟩
  | finished hj hc hw hp hr =>
    exact ⟨h.finished custody rfl hj hc rfl rfl rfl (by simp) rfl rfl,
      h.posting_finished rfl hc hp hr rfl rfl rfl⟩
  | stranded hj hc hw hp hr =>
    have waiting := (h.custody.slots _ (List.mem_of_getElem? hc)).mp hp
    rw [waiting] at hw
    cases hw
  | refused hj hc hp hr => exact absurd (h.slot_of_hand mem hj hc) hp

/-- Each effect is a posting, and leaves no call behind whose job is in the engine's hand. -/
theorem effect (h : Prompt w) (e : Effect Software.promptRules w w') :
    Prompt w' ∧ w.ledger.Posting w'.ledger := by
  have custody : Custody w' := h.custody.effect e.unprompted
  cases e with
  | aside | misconfigured => exact ⟨h.congr custody (Nat.le_refl _) rfl rfl rfl, .nothing⟩
  | installed _ hb =>
    refine ⟨h.congr custody (by simp) rfl rfl rfl, .of_eq ?_⟩
    obtain ⟨-, key, rfl⟩ := build_ok hb
    simp [ledger, Service.total_append, Service.create, Stats.get]
  | dropped _ i =>
    refine ⟨h.congr custody (by simp) rfl rfl rfl, .of_eq ?_⟩
    simp [ledger, Service.total_modify_of_same]
  | changed _ hchange =>
    obtain ⟨hi, -, -, ha, -⟩ := hchange.frame
    refine ⟨h.congr custody (Nat.le_refl _) rfl hi rfl, .of_eq ?_⟩
    simp [ledger, hi, ha]
  | opened _ hs =>
    refine ⟨h.congr custody (by simp) rfl (Software.createSession_inside _ w.host.engine) rfl,
      .of_eq ?_⟩
    exact ledger_of_createSession hs rfl rfl (fun _ => rfl) (.inl rfl) rfl
  | notOpened _ hs =>
    refine ⟨h.congr custody (by simp) rfl (Software.createSession_inside _ w.host.engine) rfl,
      .of_eq ?_⟩
    exact ledger_of_createSession hs rfl rfl (fun _ => rfl) (.inr rfl) rfl
  | rejected _ hs =>
    have total := Service.total_count (List.getElem?_eq_some_iff.mp hs).1 .malformed
    refine ⟨h.congr custody (by simp) rfl rfl rfl, .of_eq ?_⟩
    simp [ledger, total]
  | starved _ hs ha =>
    exact ⟨h.congr custody (by simp) rfl (Software.acquire_inside _) rfl,
      posting_starved hs ha rfl rfl rfl⟩
  | admitted _ hs hl hr ho ha hq =>
    exact ⟨h.admitted custody hs (congrArg Step.state hq.symm) rfl rfl rfl,
      posting_admitted ha (congrArg Step.state hq.symm) rfl rfl⟩
  | taken _ hstep =>
    exact ⟨h.taken custody hstep rfl rfl rfl rfl, posting_taken hstep rfl rfl rfl⟩
  | passed host before after s => exact h.passed custody s
  | collected _ hl hc hw hp =>
    have pending := (h.custody.slots _ (List.mem_of_getElem? hc)).mpr hw
    rw [pending] at hp
    cases hp
  | left _ hl hc hw hp =>
    exact ⟨h.left custody hl hc hw rfl rfl rfl rfl (by simp) rfl,
      h.posting_left hl hc hw rfl rfl rfl⟩

theorem effects (h : Prompt w) (b : w.ledger.Balanced) (e : Effects Software.promptRules w w') :
    Prompt w' ∧ w'.ledger.Balanced := by
  induction e with
  | refl => exact ⟨h, b⟩
  | tail _ effect ih =>
    obtain ⟨prompt, balanced⟩ := ih
    obtain ⟨prompt', posting⟩ := prompt.effect effect
    exact ⟨prompt', balanced.posting posting⟩

end Prompt

theorem fresh_balanced (capacity : Capacity) : (fresh capacity).ledger.Balanced := by
  constructor <;> rfl

/-- Whatever was done with a new engine through services, with no call ended while its job was on
the way back: with the worker at rest, the counters of the engine and of all its services account
for each other. -/
theorem counters_balance {capacity : Capacity} {w : World Software}
    (r : Run Software.promptRules (fresh capacity) w) (hw : w.IsAtRest) :
    let e := w.host.engine
    let a := e.accounting
    let total := Service.total w.host.services
    a.dispatches = a.busyOutcomes + a.completions + a.failures + a.cancellations + e.queue.length ∧
      a.dispatches = a.jobsAcquired + total .busyRetries ∧
      a.completions = total .generated + total .verifiedOk + total .verifiedFail ∧
      a.cancellations = total .interrupted ∧
      (total .engineFailures : Int) =
        a.acquireFailures + a.failures + ((a.busyOutcomes : Int) - total .busyRetries) := by
  intro e a total
  obtain ⟨-, balanced⟩ := (Prompt.fresh capacity).effects (fresh_balanced capacity) r.effects
  have hdone : w.ledger.done = 0 := by simp [ledger, hw.1]
  have hundone : w.ledger.undone = 0 := by simp [ledger, hw.1]
  have hqueued : w.ledger.queued = e.queue.length := by
    simp [ledger, Software.inside, Software.queued, hw.2, e]
  have hdispatches := balanced.dispatches
  rw [hqueued] at hdispatches
  have hdecided := balanced.decided
  have hfailed := balanced.failed
  rw [hdone] at hdecided
  rw [hundone] at hfailed
  refine ⟨hdispatches, balanced.attempts, hdecided, balanced.interrupted, ?_⟩
  change total .engineFailures + 0 + total .busyRetries =
    a.acquireFailures + a.failures + a.busyOutcomes at hfailed
  omega

/-- A call on a paused engine that was interrupted: its job was cancelled. -/
theorem interrupted_call_is_cancelled :
    ∃ w, Run Software.promptRules (fresh {}) w ∧ w.hand = [] ∧
      Service.total w.host.services .interrupted = 1 ∧
      w.host.engine.accounting.cancellations = 1 ∧ w.host.engine.accounting.dispatches = 1 := by
  let b : Builder := { key := some (.ofSeed 1) }
  let s : Service := .create {} (.ofSeed 1)
  let r : Request := ⟨0, ⟨0⟩, .write, List.replicate 20 0, 20, some 0⟩
  let paused : World Software :=
    ⟨{ (fresh {}).host with engine := (fresh {}).host.engine.pause }, []⟩
  let installed : World Software := ⟨(paused.host.install b).2, []⟩
  let entered : World Software := ⟨(installed.host.enter Software.engine s r).2, []⟩
  let triggered : World Software :=
    ⟨entered.host.setInterrupt 0 ((entered.host.interrupts 0).trigger ⟨.shutdown, none⟩).2, []⟩
  have entering : Run Software.promptRules (fresh {}) entered :=
    ((Relation.ReflTransGen.single (Next.change (R := Software.promptRules) (fresh {})
      (.pause _))).tail (.install paused b)).tail
      (.enter installed (s := s) (r := r) rfl)
  have leaving : Run Software.promptRules (fresh {}) ⟨triggered.host.look Software.engine 0, []⟩ :=
    (entering.tail (.trigger entered 0 ⟨.shutdown, none⟩)).tail
      (.look triggered fun job hmem => absurd hmem List.not_mem_nil)
  let final := triggered.host.look Software.engine 0
  have hinterrupted : Service.total final.services .interrupted = 1 := by decide
  have hretries : Service.total final.services .busyRetries = 0 := by decide
  have hacquired : final.engine.accounting.jobsAcquired = 1 := by decide
  obtain ⟨-, hattempts, -, hcancellations, -⟩ := counters_balance leaving ⟨rfl, rfl⟩
  rw [hacquired, hretries] at hattempts
  exact ⟨_, leaving, rfl, hinterrupted, hcancellations.trans hinterrupted, hattempts⟩

end World
end PacketAuth
