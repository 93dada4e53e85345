import PacketAuth.Proofs.Serving
import PacketAuth.Proofs.Sessions

/-! Schedules. Calls that were started while the engine was paused get the replies that each of them
would have got alone, whatever else goes on, and leave the same counts behind in any order. -/
namespace PacketAuth

theorem eq_of_perm_of_length_le_one {α : Type} {xs ys : List α} (h : xs.Perm ys)
    (hl : xs.length ≤ 1) : xs = ys := by
  match xs with
  | [] => exact h.nil_eq
  | [x] => exact List.singleton_perm.mp h

/-- As `Software.rules`, but the engine stays free of faults. -/
def Software.calm : Rules Software where
  engine := engine
  change s step := Change s step ∧ step.state.Untroubled

/-- Nothing ends the wait of a call before its job comes back. -/
structure Call.Patient (c : Call) : Prop where
  uninterrupted : c.request.interrupt = none
  unlimited : c.deadline = none

/-- A patient call has nothing to look at but its slot. -/
theorem Call.Patient.arrival {σ : Type} {c : Call} (h : c.Patient) (hp : c.slot = .pending)
    (host : Host σ) : host.arrival c = none := by
  simp [Host.arrival, hp, h.uninterrupted, h.unlimited, Slot.look]

theorem Call.Patient.persists {c c' : Call} (h : c.Patient) (p : c.Persists c') : c'.Patient :=
  ⟨by rw [p.request, h.uninterrupted], by rw [p.deadline, h.unlimited]⟩

/-- A well-formed request on an open lane, with nothing that would end its wait early. -/
structure Service.Ready (s : Service) (r : Request) : Prop where
  lane : ∃ lane session, s.lanes[r.lane.index.toNat]? = some lane ∧ lane.session = some session
  unlimited : s.config.waitTimeout = none
  uninterrupted : r.interrupt = none
  long : s.config.layout.prefixLength + Tag.size ≤ r.length
  fits : r.length ≤ r.buffer.length

/-- The counters of an engine after a job was acquired and submitted. -/
def Accounting.started (a : Accounting) : Accounting :=
  (a.record .jobAcquired).record .jobDispatched

namespace Host
variable {h h' h'' : Host Software} {hand : List Job} {r : Request} {rs rs' : List Request}
  {s : Service}

/-- Starts requests one after the other. -/
def startAll : List Request → Host Software → Host Software
  | [], h => h
  | r :: rs, h =>
    match h.services[r.service]? with
    | none => startAll rs h
    | some s => startAll rs (h.start Software.engine s r).2

/-- A host after requests were started on it, and nothing else happened. -/
structure Started (h : Host Software) (rs : List Request) (h' : Host Software) : Prop where
  services : h'.services = h.services
  now : h'.now = h.now
  requests : h'.calls.map Call.request = h.calls.map Call.request ++ rs
  old : ∀ ticket < h.calls.length, h'.calls[ticket]? = h.calls[ticket]?
  replies : ∀ ticket, h'.reply? ticket = h.reply? ticket
  accounting : h'.engine.accounting = Accounting.started^[rs.length] h.engine.accounting
  ready : h'.engine.ready h'.now = h.engine.ready h.now ++
    (List.range' h.calls.length rs.length).map fun ticket => some (.call ticket)
  untroubled : h'.engine.Untroubled
  paused : h'.engine.paused = h.engine.paused
  outstanding : h'.engine.pool.outstanding = h.engine.pool.outstanding + rs.length
  capacity : h'.engine.capacity = h.engine.capacity

theorem Started.refl (hu : h.engine.Untroubled) : h.Started [] h where
  services := rfl
  now := rfl
  requests := (List.append_nil _).symm
  old _ _ := rfl
  replies _ := rfl
  accounting := rfl
  ready := (List.append_nil _).symm
  untroubled := hu
  paused := rfl
  outstanding := rfl
  capacity := rfl

theorem Started.calls_length (a : h.Started rs h') :
    h'.calls.length = h.calls.length + rs.length := by
  simpa using congrArg List.length a.requests

theorem Started.trans (a : h.Started rs h') (b : h'.Started rs' h'') :
    h.Started (rs ++ rs') h'' where
  services := b.services.trans a.services
  now := b.now.trans a.now
  requests := by rw [b.requests, a.requests, List.append_assoc]
  old ticket known := (b.old ticket (by rw [a.calls_length]; omega)).trans (a.old ticket known)
  replies ticket := (b.replies ticket).trans (a.replies ticket)
  accounting := by
    rw [b.accounting, a.accounting, List.length_append, Nat.add_comm, Function.iterate_add_apply]
  ready := by
    rw [b.ready, a.ready, List.append_assoc, ← List.map_append, a.calls_length,
      List.length_append, List.range'_append_1]
  untroubled := b.untroubled
  paused := b.paused.trans a.paused
  outstanding := by rw [b.outstanding, a.outstanding, List.length_append, Nat.add_assoc]
  capacity := b.capacity.trans a.capacity

/-- A call that has come in has no reply yet. -/
theorem reply?_append {σ : Type} {h h' : Host σ} {c : Call} (hc : h'.calls = h.calls ++ [c])
    (hr : c.reply = none) (ticket : Nat) : h'.reply? ticket = h.reply? ticket := by
  rw [reply?, reply?, hc]
  rcases Nat.lt_trichotomy ticket h.calls.length with hlt | rfl | hgt
  · rw [List.getElem?_append_left hlt]
  · simp [hr]
  · rw [List.getElem?_eq_none (by rw [List.length_append]; exact hgt),
      List.getElem?_eq_none (Nat.le_of_lt hgt)]

/-- A request that is started on a paused engine is let in, and waits. -/
theorem started_one (ready : s.Ready r) (hu : h.engine.Untroubled)
    (hp : h.engine.paused = true)
    (room : h.engine.pool.outstanding < h.engine.capacity.jobs) :
    ∃ h', h.enter Software.engine s r = (.ok h.calls.length, h') ∧
      (h.start Software.engine s r).2 = h' ∧ h.Started [r] h' := by
  obtain ⟨lane, session, hlane, hsession⟩ := ready.lane
  obtain ⟨regions, prepared⟩ : ∃ regions, s.prepare r = .ok (lane, regions) := by
    rw [Service.prepare, Service.lane, hlane, Layout.split_eq_ok ready.long ready.fits]
    exact ⟨_, rfl⟩
  obtain ⟨job, ha⟩ := Option.ne_none_iff_exists'.mp fun hnone =>
    absurd ((Software.acquire_eq_none_iff h.engine).mp hnone) (Nat.not_le.mpr room)
  obtain ⟨free, nextJob, hstate, -⟩ := Software.acquire_eq_some ha
  obtain ⟨log, entered⟩ := enter_of_session (E := Software.engine) prepared hsession ha
  refine ⟨_, entered, ?_, ?_⟩
  · have patient : (r.call s regions job h.now).Patient :=
      ⟨ready.uninterrupted, by rw [Request.call, ready.unlimited]; rfl⟩
    rw [start_of_paused entered (Software.handBack_of_paused ?_ ?_ _)]
    · exact look_of_arrival_none List.getElem?_concat_length (patient.arrival rfl _)
    · exact (Software.submit_untroubled (Software.acquire_untroubled hu) _ _ _).running
    · exact (Software.submit_paused _ _ _ _).trans ((Software.acquire_paused h.engine).trans hp)
  · have submitted : ∀ job : Job, (Software.submit job 0 h.now h.engine.acquire.state).state =
        { (h.engine.acquire.state.record .jobDispatched) with
          queue := h.engine.queue ++ [⟨job, none⟩] } := by
      intro job
      rw [← Software.acquire_queue,
        Software.submit_of_running (Software.acquire_untroubled hu).running]
      rfl
    dsimp only [Software.engine]
    rw [submitted, hstate]
    exact
      { services := rfl
        now := rfl
        requests := by simp [Request.call]
        old := fun _ known => List.getElem?_append_left known
        replies := reply?_append rfl rfl
        accounting := rfl
        ready := by simp [Software.ready, Queued.isReady, Request.fill]
        untroubled := ⟨hu.running, hu.busy, hu.jobs⟩
        paused := rfl
        outstanding := rfl
        capacity := rfl }

theorem startAll_cons (hs : h.services[r.service]? = some s) :
    h.startAll (r :: rs) = (h.start Software.engine s r).2.startAll rs := by
  rw [startAll, hs]

theorem startAll_append (rs rs' : List Request) (h : Host Software) :
    h.startAll (rs ++ rs') = (h.startAll rs).startAll rs' := by
  induction rs generalizing h with
  | nil => rfl
  | cons r rs ih =>
    rw [List.cons_append, startAll, startAll]
    cases h.services[r.service]? with
    | none => exact ih h
    | some s => exact ih _

theorem run_startAll (rs : List Request) (h : Host Software) (hand : List Job) :
    World.Run Software.calm ⟨h, hand⟩ ⟨h.startAll rs, hand⟩ := by
  induction rs generalizing h with
  | nil => exact .refl
  | cons r rs ih =>
    rw [startAll]
    cases hs : h.services[r.service]? with
    | none => exact ih h
    | some s => exact (World.run_start (R := Software.calm) (fun _ _ => trivial) hs).trans (ih _)

/-- Requests that can be let in are all let in while there are jobs for them. -/
theorem started_all (ready : ∀ r ∈ rs, ∃ s, h.services[r.service]? = some s ∧ s.Ready r)
    (hu : h.engine.Untroubled) (hp : h.engine.paused = true)
    (room : h.engine.pool.outstanding + rs.length ≤ h.engine.capacity.jobs) :
    h.Started rs (h.startAll rs) := by
  induction rs generalizing h with
  | nil => exact .refl hu
  | cons r rs ih =>
    obtain ⟨⟨s, hs, hr⟩, hrest⟩ := List.forall_mem_cons.mp ready
    rw [List.length_cons] at room
    obtain ⟨h', -, hstart, started⟩ := started_one hr hu hp (by omega)
    rw [startAll_cons hs, hstart]
    refine started.trans (ih ?_ started.untroubled (started.paused.trans hp) ?_)
    · rw [started.services]
      exact hrest
    · rw [started.outstanding, started.capacity, List.length_singleton]
      omega

/-- Each request was let in at some time, and the others came before and after it. -/
theorem entered_among (ready : ∀ r ∈ rs, ∃ s, h.services[r.service]? = some s ∧ s.Ready r)
    (hu : h.engine.Untroubled) (hp : h.engine.paused = true)
    (room : h.engine.pool.outstanding + rs.length ≤ h.engine.capacity.jobs) {k : Nat}
    (hk : rs[k]? = some r) (hs : h.services[r.service]? = some s) :
    ∃ h₁ h₂, (∀ hand, World.Run Software.calm ⟨h, hand⟩ ⟨h₁, hand⟩) ∧ h₁.services = h.services ∧
      h₁.engine.Untroubled ∧ h₁.enter Software.engine s r = (.ok (h.calls.length + k), h₂) ∧
      ∀ hand, World.Run Software.calm ⟨h₂, hand⟩ ⟨h.startAll rs, hand⟩ := by
  obtain ⟨hlt, rfl⟩ := List.getElem?_eq_some_iff.mp hk
  have cut : rs = rs.take k ++ rs[k] :: rs.drop (k + 1) := by
    rw [← List.drop_eq_getElem_cons, List.take_append_drop]
  have length : (rs.take k).length = k := List.length_take_of_le (Nat.le_of_lt hlt)
  obtain ⟨s', hs', hr⟩ := ready rs[k] (List.getElem_mem hlt)
  obtain rfl : s' = s := Option.some.inj (hs'.symm.trans hs)
  have before : h.Started (rs.take k) (h.startAll (rs.take k)) :=
    started_all (fun r hr => ready r (List.mem_of_mem_take hr)) hu hp (by omega)
  obtain ⟨h₂, entered, hstart, -⟩ := started_one hr before.untroubled (before.paused.trans hp) (by
    rw [before.outstanding, before.capacity, length]
    omega)
  refine ⟨_, h₂, run_startAll (rs.take k) h, before.services, before.untroubled, ?_, ?_⟩
  · rw [entered, before.calls_length, length]
  · intro hand
    have rest := run_startAll (rs.drop (k + 1)) h₂ hand
    rwa [← hstart, ← startAll_cons (by rw [before.services]; exact hs), ← startAll_append,
      ← cut, hstart] at rest

/-- The requests of calls that have come in, by their tickets. -/
theorem filterMap_range' {α : Type} (xs ys : List α) :
    (List.range' xs.length ys.length).filterMap (fun i => (xs ++ ys)[i]?) = ys := by
  induction ys generalizing xs with
  | nil => rfl
  | cons y ys ih =>
    have rest := ih (xs ++ [y])
    rw [List.length_append, List.length_singleton, List.append_assoc] at rest
    rw [List.length_cons, List.range'_succ, List.filterMap_cons]
    simpa using rest

/-- Whom the worker will answer has a call. -/
theorem call_of_ready (keyed : World.Keyed ⟨h, hand⟩) {recipient : Option Recipient}
    (hr : recipient ∈ h.engine.ready h.now) :
    ∃ ticket, recipient = some (.call ticket) ∧ ticket < h.calls.length := by
  obtain ⟨q, hq, rfl⟩ := List.mem_map.mp hr
  have queued : q.job ∈ h.engine.queued := List.mem_map_of_mem (List.mem_of_mem_filter hq)
  obtain ⟨ticket, c, hc, -, htoken⟩ := mem_waitingTokens.mp (keyed.custody.queued _ queued)
  obtain ⟨hrecipient, -⟩ : q.job.recipient = some (.call ticket) ∧ q.job.id = c.job :=
    Prod.mk.inj htoken
  exact ⟨ticket, hrecipient, (List.getElem?_eq_some_iff.mp hc).1⟩

/-- The worker will answer the requests that were there, and then those that were started. -/
theorem Started.requestOf_ready (a : h.Started rs h') (keyed : World.Keyed ⟨h, hand⟩) :
    (h'.engine.ready h'.now).filterMap h'.requestOf =
      (h.engine.ready h.now).filterMap h.requestOf ++ rs := by
  have old : ∀ recipient ∈ h.engine.ready h.now,
      h'.requestOf recipient = h.requestOf recipient := by
    intro recipient hr
    obtain ⟨ticket, rfl, known⟩ := call_of_ready keyed hr
    rw [requestOf, requestOf, a.requests, List.getElem?_append_left]
    rwa [List.length_map]
  rw [a.ready, List.filterMap_append, List.filterMap_congr old, List.filterMap_map]
  congr 1
  have new : (h'.requestOf ∘ fun ticket => some (Recipient.call ticket)) =
      fun ticket => (h.calls.map Call.request ++ rs)[ticket]? := by
    funext ticket
    rw [Function.comp, requestOf, a.requests]
  rw [new, ← List.length_map Call.request]
  exact filterMap_range' _ _

/-- The lane of a service. -/
def lane? {σ : Type} (i : Nat) (l : LaneId) (h : Host σ) : Option Lane :=
  h.services[i]?.bind fun s => s.lanes[l.index.toNat]?

end Host

/-- The reply to a request that got its tag. -/
def Service.answer (s : Service) (r : Request) : Reply :=
  match r.command with
  | .write =>
    ⟨.ok (), r.buffer.take s.config.layout.tagOffset ++ s.tagOf r ++
      r.buffer.drop (s.config.layout.tagOffset + Tag.size)⟩
  | .read =>
    if (r.buffer.drop s.config.layout.tagOffset).take Tag.size = s.tagOf r then ⟨.ok (), r.buffer⟩
    else .failed r ⟨.authenticationMismatch, some r.lane.text⟩

/-- Only one reply follows the tag of a request and passed the engine. -/
theorem Reply.Follows.eq_answer {reply : Reply} {s : Service} {r : Request}
    (h : reply.Follows s r) (passed : reply.PassedEngine) : reply = s.answer r := by
  unfold Service.answer
  cases hc : r.command with
  | write => exact (h.written hc passed).1
  | read =>
    dsimp only
    split
    · rename_i same
      exact h.verified hc passed same
    · rename_i differs
      exact h.refused hc passed differs

namespace World

theorem Effects.ofUndisturbed {ticket : Nat} {w v : World Software}
    (e : Effects (Software.undisturbed ticket) w v) : Effects Software.rules w v :=
  Relation.ReflTransGen.mono (fun _ _ => Effect.ofUndisturbed) _ _ e

/-- What goes on around an engine free of faults does not disturb a patient call. -/
theorem Keyed.undisturbs {w v : World Software} (keyed : Keyed w) {ticket : Nat} {c : Call}
    (hc : w.host.calls[ticket]? = some c) (p : c.Patient) (e : Effects Software.calm w v) :
    Effects (Software.undisturbed ticket) w v := by
  induction e with
  | refl => exact .refl
  | @tail v v' _ step ih =>
    have known : Keyed v := keyed.effects (Effects.ofUndisturbed ih)
    obtain ⟨c', hc', kept⟩ := ih.persists.call ticket c hc
    refine ih.tail (Effect.mono (R := Software.calm) rfl (fun _ _ h => h) ?_ step)
    rintro t d hd hw ha - rfl
    obtain rfl : d = c' := Option.some.inj (hd.symm.trans hc')
    have pending := (known.custody.slots d (List.mem_of_getElem? hd)).mpr hw
    rw [(p.persists kept).arrival pending] at ha
    cases ha

variable {h h₂ : Host Software} {hand : List Job} {s : Service} {r : Request} {ticket : Nat}

/-- A request that was let in on an engine without faults gets the reply that it deserves, whatever
happens around it, and it gets it once the worker has done what there is to do. -/
theorem answered_of_entered (keyed : Keyed ⟨h, hand⟩) (hu : h.engine.Untroubled)
    (hs : h.services[r.service]? = some s) (ready : s.Ready r)
    (he : h.enter Software.engine s r = (.ok ticket, h₂)) {v : World Software}
    (run : Run Software.calm ⟨h₂, hand⟩ v) :
    (∀ reply, v.host.reply? ticket = some reply → reply = s.answer r ∧ reply.PassedEngine) ∧
      (v.host.engine.paused = false →
        (v.drained Software.engine).reply? ticket = some (s.answer r)) := by
  obtain ⟨undisturbed, -⟩ := undisturbed_of_entered keyed hu hs he
  obtain ⟨-, regions, -, -, job, -, -, -, rfl, hcalls, -, -⟩ := Host.enter_ok he
  have hget : h₂.calls[h.calls.length]? = some (r.call s regions job h.now) := by
    rw [hcalls, List.getElem?_concat_length]
  have patient : (r.call s regions job h.now).Patient :=
    ⟨ready.uninterrupted, by rw [Request.call, ready.unlimited]; rfl⟩
  have follows : ∀ v, Effects (Software.undisturbed h.calls.length) ⟨h₂, hand⟩ v →
      ∀ reply, v.host.reply? h.calls.length = some reply →
        reply = s.answer r ∧ reply.PassedEngine := by
    intro v e reply hreply
    have passed := (undisturbed.effects e).passed reply hreply
    have follows := follows_of_entered keyed hs he (Effects.ofUndisturbed e) hreply
    exact ⟨follows.eq_answer passed, passed⟩
  have e := undisturbed.keyed.undisturbs hget patient (Run.effects run)
  refine ⟨follows v e, fun running => ?_⟩
  obtain ⟨reply, hreply, -⟩ := (undisturbed.effects e).drained running
  have drained := e.trans (Run.effects (run_drained (R := Software.undisturbed _) v))
  rw [hreply, (follows _ drained reply hreply).1]

theorem Effect.ofCalm {w v : World Software} (e : Effect Software.calm w v) :
    Effect Software.rules w v :=
  Effect.mono (R := Software.calm) rfl (fun _ _ h => h.1) (fun _ _ _ _ _ _ => trivial) e

theorem Effects.ofCalm {w v : World Software} (e : Effects Software.calm w v) :
    Effects Software.rules w v :=
  Relation.ReflTransGen.mono (fun _ _ => Effect.ofCalm) _ _ e

/-- A request that can be let in gets the reply that it deserves when it is performed at once. -/
theorem performed_of_ready (keyed : Keyed ⟨h, hand⟩) (hu : h.engine.Untroubled)
    (hp : h.engine.paused = false) (hs : h.services[r.service]? = some s) (ready : s.Ready r)
    (room : h.engine.pool.outstanding < h.engine.capacity.jobs) :
    (h.perform Software.engine s r).1 = some (s.answer r) ∧ (s.answer r).PassedEngine := by
  obtain ⟨lane, session, hlane, hsession⟩ := ready.lane
  obtain ⟨hlt, rfl⟩ := List.getElem?_eq_some_iff.mp hlane
  obtain ⟨ticket, h', he⟩ := entered_of_free (w := ⟨h, hand⟩) hlt ready.long ready.fits room
    (.inl (by rw [hsession]; rfl))
  obtain ⟨reply, hperform, -, passed⟩ := performed_of_entered keyed hu hp hs he
  have same : reply = s.answer r := (follows_of_performed keyed hs hperform).eq_answer passed
  exact ⟨by rw [hperform, same], same ▸ passed⟩

/-- What is passed on goes behind all that is in the queue. -/
theorem Settlement.appends {h h' : Host Software} {job : Job} (hu : h.engine.Untroubled)
    (s : Settlement Software.engine h job h') :
    h'.engine.Untroubled ∧ h'.now = h.now ∧ ∃ more, h'.engine.queue = h.engine.queue ++ more ∧
      ∀ q ∈ more, q.job.recipient = job.recipient := by
  cases s with
  | strayed | finished | stranded =>
    exact ⟨⟨hu.running, hu.busy, hu.jobs⟩, rfl, [], (List.append_nil _).symm, nofun⟩
  | resubmitted _ _ _ _ _ hq =>
    subst hq
    refine ⟨Software.submit_untroubled hu _ _ _, rfl, _,
      congrArg (·.state.queue) (Software.submit_of_running hu.running _ _ _), fun q hq => ?_⟩
    rw [List.mem_singleton.mp hq]
    rfl
  | refused =>
    dsimp only
    split <;>
      exact ⟨⟨hu.running, hu.busy, hu.jobs⟩, rfl, [], (List.append_nil _).symm, nofun⟩

theorem passOn_appends (hand : List Job) (hu : h.engine.Untroubled) :
    let h' := passOn Software.engine ⟨h, hand⟩
    h'.engine.Untroubled ∧ h'.now = h.now ∧ ∃ more, h'.engine.queue = h.engine.queue ++ more ∧
      ∀ q ∈ more, ∃ job ∈ hand, q.job.recipient = job.recipient := by
  induction hand generalizing h with
  | nil => exact ⟨hu, rfl, [], (List.append_nil _).symm, nofun⟩
  | cons job hand ih =>
    obtain ⟨untroubled, now, more, queue, own⟩ :=
      (settlement_deliver Software.engine h job).appends hu
    obtain ⟨untroubled', now', more', queue', own'⟩ := ih untroubled
    refine ⟨untroubled', now'.trans now, more ++ more', queue'.trans ?_, fun q hq => ?_⟩
    · rw [queue, List.append_assoc]
    · rcases List.mem_append.mp hq with hq | hq
      · exact ⟨job, List.mem_cons_self, own q hq⟩
      · obtain ⟨k, hk, same⟩ := own' q hq
        exact ⟨k, List.mem_cons_of_mem _ hk, same⟩

/-- Passing on a job leaves all requests as they are. -/
theorem Settlement.requests {E : Engine Software} {h h' : Host Software} {job : Job}
    (s : Settlement E h job h') : h'.calls.map Call.request = h.calls.map Call.request := by
  cases s with
  | strayed | resubmitted | refused => rfl
  | finished _ hc | stranded _ hc => exact requests_of_set hc rfl

theorem passOn_requests (E : Engine Software) (w : World Software) :
    (passOn E w).calls.map Call.request = w.host.calls.map Call.request := by
  obtain ⟨h, hand⟩ := w
  induction hand generalizing h with
  | nil => rfl
  | cons job hand ih => exact (ih _).trans (settlement_deliver E h job).requests

/-- Two hosts with the same counts, the same first `n` calls, and the same jobs behind those that
were in their queues. -/
structure Abreast (n : Nat) (xs ys : List Queued) (h g : Host Software) : Prop where
  services : h.services = g.services
  accounting : h.engine.accounting = g.engine.accounting
  now : h.now = g.now
  running : h.engine.isShutDown = false ∧ g.engine.isShutDown = false
  held : h.isHeld = true ∧ g.isHeld = true
  known : n ≤ h.calls.length
  calls : ∀ ticket < n, h.calls[ticket]? = g.calls[ticket]?
  queue : ∃ more, h.engine.queue = xs ++ more ∧ g.engine.queue = ys ++ more

namespace Abreast
variable {n : Nat} {xs ys : List Queued} {g : Host Software}

theorem set {calls calls' : List Call} {c : Call} (hk : n ≤ calls.length)
    (hc : ∀ ticket < n, calls[ticket]? = calls'[ticket]?) (d : Call) (ht : ticket < n)
    (hget : calls[ticket]? = some c) :
    n ≤ (calls.set ticket d).length ∧
      ∀ t < n, (calls.set ticket d)[t]? = (calls'.set ticket d)[t]? := by
  refine ⟨by rwa [List.length_set], fun t lt => ?_⟩
  by_cases same : ticket = t
  · subst same
    have there' := hc ticket ht ▸ hget
    rw [List.getElem?_set_self (List.getElem?_eq_some_iff.mp hget).1,
      List.getElem?_set_self (List.getElem?_eq_some_iff.mp there').1]
  · rw [List.getElem?_set_ne same, List.getElem?_set_ne same, hc t lt]

/-- Passing on a job of one of these calls does the same to both. -/
theorem deliver (a : Abreast n xs ys h g) {job : Job} (hr : job.recipient = some (.call ticket))
    (ht : ticket < n) :
    Abreast n xs ys (h.deliver Software.engine job) (g.deliver Software.engine job) := by
  obtain ⟨c, hc⟩ : ∃ c, h.calls[ticket]? = some c :=
    ⟨_, List.getElem?_eq_getElem (Nat.lt_of_lt_of_le ht a.known)⟩
  have hc' : g.calls[ticket]? = some c := a.calls ticket ht ▸ hc
  obtain ⟨log, eq⟩ := deliver_of_call Software.engine hr hc
  obtain ⟨log', eq'⟩ := deliver_of_call Software.engine hr hc'
  obtain ⟨more, queue, queue'⟩ := a.queue
  have used (h : Host Software) (held : h.isHeld = true) : h.isEngineInUse = true := by
    simp [Host.isEngineInUse, held]
  rw [eq, eq', passed, passed]
  cases c.react job with
  | resubmit job =>
    have submitted := Software.submit_of_running a.running.1 job c.retry.backoff h.now
    have submitted' := Software.submit_of_running a.running.2 job c.retry.backoff h.now
    dsimp only [Software.engine]
    rw [submitted, ← a.now, submitted']
    refine ⟨congrArg (List.modify · _ _) a.services,
      congrArg (·.record .jobDispatched) a.accounting, rfl, a.running, a.held, a.known, a.calls,
      more ++ [⟨job, if c.retry.backoff = 0 then none else some (h.now + c.retry.backoff)⟩], ?_, ?_⟩
    · exact (congrArg (· ++ _) queue).trans (List.append_assoc _ _ _)
    · exact (congrArg (· ++ _) queue').trans (List.append_assoc _ _ _)
  | settle job exhausted =>
    dsimp only
    split
    · split
      · obtain ⟨known, calls⟩ := set a.known a.calls
          { c with slot := .taken, reply := some (c.ending job).reply } ht hc
        exact ⟨congrArg (List.modify · _ _) a.services, congrArg (·.record .jobReleased) a.accounting,
          a.now, a.running, a.held, known, calls, more, queue, queue'⟩
      · obtain ⟨known, calls⟩ := set a.known a.calls { c with slot := .completed job } ht hc
        exact ⟨a.services, a.accounting, a.now, a.running, a.held, known, calls, more, queue, queue'⟩
    · rw [used h a.held.1, used g a.held.2]
      exact ⟨a.services, congrArg (·.record .jobReleased) a.accounting, a.now, a.running, a.held,
        a.known, a.calls, more, queue, queue'⟩

theorem passOn (a : Abreast n xs ys h g)
    (old : ∀ job ∈ hand, ∃ ticket, job.recipient = some (.call ticket) ∧ ticket < n) :
    Abreast n xs ys (passOn Software.engine ⟨h, hand⟩) (passOn Software.engine ⟨g, hand⟩) := by
  induction hand generalizing h g with
  | nil => exact a
  | cons job hand ih =>
    obtain ⟨⟨ticket, hr, ht⟩, others⟩ := List.forall_mem_cons.mp old
    exact ih (a.deliver hr ht) others

end Abreast

section Batch
variable {rs : List Request} (keyed : Keyed ⟨h, hand⟩) (started : h.Started rs (h.startAll rs))

/-- The engine that is resumed after requests were started, with all that it had in hand passed
on. -/
def resumedAfter (rs : List Request) (w : World Software) : Host Software :=
  passOn Software.engine ⟨(w.host.startAll rs).mapEngine Software.resume, w.hand⟩

include keyed started

omit started in
/-- The jobs in hand are for calls that came in before. -/
theorem early_of_hand {job : Job} (hj : job ∈ hand) :
    ∃ ticket, job.recipient = some (.call ticket) ∧ ticket < h.calls.length := by
  obtain ⟨ticket, c, hr, hc, -⟩ := keyed.custody.call_of_mem (List.mem_append_right _ hj)
  exact ⟨ticket, hr, (List.getElem?_eq_some_iff.mp hc).1⟩

omit started in
theorem resumed_of_keyed (rs : List Request) :
    Keyed ⟨(h.startAll rs).mapEngine Software.resume, hand⟩ :=
  (keyed.effects (Effects.ofCalm (Run.effects (h.run_startAll rs hand)))).effect
    (Effect.changed (R := Software.rules) _ (.resume _))

/-- The worker sets to work when the engine is resumed. -/
theorem atWork_of_started : (resumedAfter rs ⟨h, hand⟩).AtWork := by
  have calm : ((h.startAll rs).mapEngine Software.resume).engine.Untroubled :=
    ⟨started.untroubled.running, started.untroubled.busy, started.untroubled.jobs⟩
  exact ⟨(resumed_of_keyed keyed rs).run (run_passOn (R := Software.rules) _),
    (passOn_appends hand calm).1, passOn_paused _⟩

/-- The calls that were started come after all others, in their order, and only those whose jobs
were in hand can come behind them. -/
theorem ready_of_started {more : List Queued}
    (queue : (resumedAfter rs ⟨h, hand⟩).engine.queue = (h.startAll rs).engine.queue ++ more) :
    let resumed := resumedAfter rs ⟨h, hand⟩
    let behind := (more.filter (·.isReady h.now)).map (·.job.recipient)
    resumed.engine.ready resumed.now = h.engine.ready h.now ++
        (List.range' h.calls.length rs.length).map (fun ticket => some (.call ticket)) ++ behind ∧
      ∀ recipient ∈ behind, ∃ ticket, recipient = some (.call ticket) ∧ ticket < h.calls.length := by
  intro resumed behind
  have calm : ((h.startAll rs).mapEngine Software.resume).engine.Untroubled :=
    ⟨started.untroubled.running, started.untroubled.busy, started.untroubled.jobs⟩
  obtain ⟨-, now, more', queue', own⟩ := passOn_appends hand calm
  obtain rfl : more' = more := List.append_cancel_left (queue'.symm.trans queue)
  refine ⟨?_, fun recipient hr => ?_⟩
  · rw [Software.ready, show resumed.engine.queue = _ from queue, List.filter_append,
      List.map_append, show resumed.now = _ from now.trans started.now, ← started.ready,
      started.now]
    rfl
  · obtain ⟨q, hq, rfl⟩ := List.mem_map.mp hr
    obtain ⟨job, hj, same⟩ := own q (List.mem_of_mem_filter hq)
    obtain ⟨ticket, hr, ht⟩ := early_of_hand keyed hj
    exact ⟨ticket, same.trans hr, ht⟩

/-- Calls are answered in the order in which they were started. -/
theorem answered_in_order (n : Nat) :
    ∃ m, ∀ k < rs.length,
      (((resumedAfter rs ⟨h, hand⟩).deliverNext Software.engine n).reply?
        (h.calls.length + k)).isSome = true ↔ k < m := by
  have served := (atWork_of_started keyed started).deliverNext n
  have calm : ((h.startAll rs).mapEngine Software.resume).engine.Untroubled :=
    ⟨started.untroubled.running, started.untroubled.busy, started.untroubled.jobs⟩
  obtain ⟨-, -, more, queue, -⟩ := passOn_appends hand calm
  obtain ⟨ready, early⟩ := ready_of_started keyed started queue
  refine ⟨n - (h.engine.ready h.now).length, fun k hk => ?_⟩
  have fresh : (resumedAfter rs ⟨h, hand⟩).reply? (h.calls.length + k) = none := by
    have apart : ∀ job ∈ hand, job.recipient ≠ some (.call (h.calls.length + k)) := by
      intro job hj hr
      obtain ⟨ticket, hr', old⟩ := early_of_hand keyed hj
      obtain rfl : h.calls.length + k = ticket := by simpa [hr] using hr'
      exact absurd old (Nat.not_lt.mpr (Nat.le_add_right _ _))
    rw [Host.reply?, resumedAfter, passOn_other Software.engine ⟨_, hand⟩ apart]
    refine (started.replies _).trans ?_
    rw [Host.reply?, List.getElem?_eq_none (Nat.le_add_right _ _)]
    rfl
  have other : ∀ others : List (Option Recipient), (∀ recipient ∈ others, ∃ ticket,
      recipient = some (.call ticket) ∧ ticket < h.calls.length) →
      some (.call (h.calls.length + k)) ∉ others := by
    intro others known hmem
    obtain ⟨ticket, same, old⟩ := known _ hmem
    cases same
    omega
  have before := other _ fun recipient hr => Host.call_of_ready keyed hr
  have after := other _ early
  rw [served.replied, fresh, ready, List.take_append, List.take_append, List.mem_append,
    List.mem_append, or_iff_left (fun hmem => after (List.mem_of_mem_take hmem)),
    or_iff_right (fun hmem => before (List.mem_of_mem_take hmem)), ← List.map_take]
  simp only [Option.isSome_none, Bool.false_eq_true, false_or, List.mem_map, Option.some.injEq,
    Recipient.call.injEq, exists_eq_right]
  simp only [List.mem_take_iff_getElem, List.getElem_range', List.length_range', Nat.one_mul,
    Nat.add_left_cancel_iff, exists_prop, exists_eq_right]
  omega

/-- Whom the worker will answer has a request that came before, or one of those that were
started. -/
theorem requestOf_resumed {behind : List (Option Recipient)}
    (old : ∀ recipient ∈ behind, ∃ ticket, recipient = some (.call ticket) ∧
      ticket < h.calls.length) :
    (h.engine.ready h.now ++ (List.range' h.calls.length rs.length).map (fun ticket =>
        some (Recipient.call ticket)) ++ behind).filterMap (resumedAfter rs ⟨h, hand⟩).requestOf =
      (h.engine.ready h.now).filterMap h.requestOf ++ rs ++ behind.filterMap h.requestOf := by
  have requests : (resumedAfter rs ⟨h, hand⟩).calls.map Call.request =
      (h.startAll rs).calls.map Call.request := passOn_requests Software.engine _
  have same := Host.requestOf_congr requests
  have known : ∀ recipient ∈ behind, (h.startAll rs).requestOf recipient = h.requestOf recipient := by
    intro recipient hr
    obtain ⟨ticket, rfl, early⟩ := old recipient hr
    rw [Host.requestOf, Host.requestOf, started.requests, List.getElem?_append_left]
    rwa [List.length_map]
  rw [same, List.filterMap_append, ← started.ready, started.requestOf_ready keyed,
    List.filterMap_congr known]

/-- What the worker leaves behind does not depend on the order in which the calls were started. -/
theorem drained_of_perm {rs' : List Request} (started' : h.Started rs' (h.startAll rs'))
    (perm : rs.Perm rs') :
    let final := fun rs => (resumedAfter rs ⟨h, hand⟩).drain Software.engine
    (final rs').engine.accounting = (final rs).engine.accounting ∧
      ∃ before after services,
        (final rs).services = Service.serveAll (before ++ rs ++ after) services ∧
        (final rs').services = Service.serveAll (before ++ rs' ++ after) services := by
  intro final
  have abreast : Abreast h.calls.length (h.startAll rs).engine.queue (h.startAll rs').engine.queue
      ((h.startAll rs).mapEngine Software.resume) ((h.startAll rs').mapEngine Software.resume) :=
    { services := started.services.trans started'.services.symm
      accounting := by
        refine started.accounting.trans ?_
        rw [perm.length_eq]
        exact started'.accounting.symm
      now := started.now.trans started'.now.symm
      running := ⟨started.untroubled.running, started'.untroubled.running⟩
      held := ⟨(resumed_of_keyed keyed rs).custody.held, (resumed_of_keyed keyed rs').custody.held⟩
      known := started.calls_length ▸ Nat.le_add_right _ _
      calls := fun ticket known => (started.old ticket known).trans (started'.old ticket known).symm
      queue := ⟨[], (List.append_nil _).symm, (List.append_nil _).symm⟩ }
  have resumed := abreast.passOn fun job (hj : job ∈ hand) => early_of_hand keyed hj
  obtain ⟨more, queue, queue'⟩ := resumed.queue
  obtain ⟨ready, old⟩ := ready_of_started keyed started queue
  obtain ⟨ready', -⟩ := ready_of_started keyed started' queue'
  have served := (atWork_of_started keyed started).drain
  have served' := (atWork_of_started keyed started').drain
  refine ⟨?_, (h.engine.ready h.now).filterMap h.requestOf,
    ((more.filter (·.isReady h.now)).map (·.job.recipient)).filterMap h.requestOf,
    (resumedAfter rs ⟨h, hand⟩).services, ?_, ?_⟩
  · refine served'.accounting.trans (Eq.trans ?_ served.accounting.symm)
    rw [ready, ready', show (resumedAfter rs' ⟨h, hand⟩).engine.accounting = _ from
      resumed.accounting.symm]
    simp only [List.length_append, List.length_map, List.length_range', perm.length_eq]
    rfl
  · rw [served.services, ready, requestOf_resumed keyed started old]
  · rw [served'.services, ready', requestOf_resumed keyed started' old,
      show (resumedAfter rs' ⟨h, hand⟩).services = _ from resumed.services.symm]
    rfl

end Batch

/-- Calls that come in on a paused engine without faults, with open lanes and jobs for all of them,
are answered when it is resumed as each would be alone, whatever else goes on around them. They are
answered in the order in which they came. Any other order leaves the same counts behind if the jobs
that the worker had in hand come back at the same point, and the same tag in every lane with one
read at most. -/
theorem schedule_does_not_matter {capacity : Capacity} {w : World Software}
    (reach : Run Software.rules (fresh capacity) w) (hu : w.host.engine.Untroubled)
    {rs : List Request} (ready : ∀ r ∈ rs, ∃ s, w.host.services[r.service]? = some s ∧ s.Ready r)
    (room : w.host.engine.pool.outstanding + rs.length ≤ w.host.engine.capacity.jobs) :
    let paused : World Software := ⟨w.host.mapEngine Software.pause, w.hand⟩
    let started := fun rs => paused.host.startAll rs
    let resumed := fun rs => resumedAfter rs paused
    let final := fun rs => (resumed rs).drain Software.engine
    let first := w.host.calls.length
    (started rs).calls.map Call.request = w.host.calls.map Call.request ++ rs ∧
    (∀ k r s, rs[k]? = some r → w.host.services[r.service]? = some s →
      ∃ reply, ((w.host.mapEngine Software.resume).perform Software.engine s r).1 = some reply ∧
        reply.PassedEngine ∧ (final rs).reply? (first + k) = some reply ∧
        ∀ v, Run Software.calm ⟨started rs, w.hand⟩ v →
          (∀ reply', v.host.reply? (first + k) = some reply' → reply' = reply) ∧
          (v.host.engine.paused = false →
            (v.drained Software.engine).reply? (first + k) = some reply)) ∧
    (∀ n, ∃ m, ∀ k < rs.length,
      (((resumed rs).deliverNext Software.engine n).reply? (first + k)).isSome = true ↔ k < m) ∧
    (∀ rs', rs.Perm rs' →
      (final rs').engine.accounting = (final rs).engine.accounting ∧
      (∀ i : Nat, (final rs').services[i]?.map Service.stats =
        (final rs).services[i]?.map Service.stats) ∧
      ∀ i l, (rs.filter (·.reads i l)).length ≤ 1 →
        (final rs').lane? i l = (final rs).lane? i l) := by
  intro pausedWorld started resumed final first
  have keyed : Keyed w := (Keyed.fresh capacity).run reach
  have paused : Keyed ⟨w.host.mapEngine Software.pause, w.hand⟩ :=
    keyed.effect (Effect.changed (R := Software.rules) _ (.pause _))
  have calm : (w.host.mapEngine Software.pause).engine.Untroubled := ⟨hu.running, hu.busy, hu.jobs⟩
  have batch : ∀ rs', rs.Perm rs' → (w.host.mapEngine Software.pause).Started rs' (started rs') :=
    fun rs' perm => Host.started_all (fun r hr => ready r (perm.mem_iff.mpr hr)) calm rfl
      (perm.length_eq ▸ room)
  have own := batch rs (.refl rs)
  refine ⟨own.requests, fun k r s hk hs => ?_, answered_in_order paused own,
    fun rs' perm => ?_⟩
  · have running : Keyed ⟨w.host.mapEngine Software.resume, w.hand⟩ :=
      keyed.effect (Effect.changed (R := Software.rules) _ (.resume _))
    obtain ⟨s', hs', hr⟩ := ready r (List.mem_of_getElem? hk)
    obtain rfl : s' = s := Option.some.inj (hs'.symm.trans hs)
    have hlt := (List.getElem?_eq_some_iff.mp hk).1
    have free : w.host.engine.pool.outstanding < w.host.engine.capacity.jobs := by omega
    obtain ⟨hreply, passed⟩ := performed_of_ready running ⟨hu.running, hu.busy, hu.jobs⟩ rfl hs
      hr free
    obtain ⟨h₁, h₂, before, services, untroubled, entered, after⟩ :=
      Host.entered_among (h := w.host.mapEngine Software.pause) ready calm rfl room hk hs
    have keyed₁ : Keyed ⟨h₁, w.hand⟩ := paused.effects (Effects.ofCalm (Run.effects (before w.hand)))
    have answered := fun v (run : Run Software.calm ⟨h₂, w.hand⟩ v) =>
      answered_of_entered keyed₁ untroubled (services ▸ hs) hr entered run
    refine ⟨s'.answer r, hreply, passed, ?_, fun v run => ?_⟩
    · exact (answered ⟨(started rs).mapEngine Software.resume, w.hand⟩ ((after w.hand).tail
        (Next.change (R := Software.calm) ⟨started rs, w.hand⟩
          ⟨.resume _, own.untroubled.running, own.untroubled.busy, own.untroubled.jobs⟩))).2 rfl
    · obtain ⟨same, drained⟩ := answered v ((after w.hand).trans run)
      exact ⟨fun reply' hr' => (same reply' hr').1, drained⟩
  · obtain ⟨accounting, before, after, services, same, same'⟩ :=
      drained_of_perm paused own (batch rs' perm) perm
    refine ⟨accounting, fun i => ?_, fun i l single => ?_⟩
    · change ((resumedAfter rs' pausedWorld).drain Software.engine).services[i]?.map _ =
        ((resumedAfter rs pausedWorld).drain Software.engine).services[i]?.map _
      rw [same, same']
      exact Service.serveAll_stats_perm ((perm.symm.append_left _).append_right _) _ i
    · change ((resumedAfter rs' pausedWorld).drain Software.engine).lane? i l =
        ((resumedAfter rs pausedWorld).drain Software.engine).lane? i l
      rw [Host.lane?, Host.lane?, same, same']
      refine Service.serveAll_lane_congr ?_ _
      simp only [List.filter_append]
      rw [eq_of_perm_of_length_le_one (perm.filter (·.reads i l)) single]

/-- A write and a read on two lanes: each gets its reply in either order. -/
theorem write_and_read_in_either_order :
    ∃ w r q, Run Software.rules (fresh {}) w ∧ r.command = .write ∧ q.command = .read ∧
      r.lane ≠ q.lane ∧
      let final := fun rs => (resumedAfter rs ⟨w.host.mapEngine Software.pause, w.hand⟩).drain
        Software.engine
      (∃ reply, (final [r, q]).reply? 0 = some reply ∧ (final [q, r]).reply? 1 = some reply) ∧
      (∃ reply, (final [r, q]).reply? 1 = some reply ∧ (final [q, r]).reply? 0 = some reply) ∧
      (final [q, r]).engine.accounting = (final [r, q]).engine.accounting := by
  let s : Service := .create {} (.ofSeed 1)
  let s₁ : Service := s.enrol ⟨0⟩ ⟨1⟩
  let s₂ : Service := s₁.enrol ⟨1⟩ ⟨2⟩
  let installed : World Software := ⟨((fresh {}).host.install { key := some (.ofSeed 1) }).2, []⟩
  let opened : World Software := ⟨(installed.host.ensureSession Software.engine 0 s ⟨0⟩).2, []⟩
  let w : World Software := ⟨(opened.host.ensureSession Software.engine 0 s₁ ⟨1⟩).2, []⟩
  have opening : Run Software.rules (fresh {}) opened :=
    (Relation.ReflTransGen.single (.install (fresh {}) _)).tail
      (.ensureSession installed (s := s) rfl ⟨0⟩)
  have reach : Run Software.rules (fresh {}) w :=
    opening.tail (.ensureSession opened (s := s₁) rfl ⟨1⟩)
  let r : Request := ⟨0, ⟨0⟩, .write, List.replicate 20 0, 20, none⟩
  let q : Request := ⟨0, ⟨1⟩, .read, List.replicate 20 0, 20, none⟩
  have hs : w.host.services[0]? = some s₂ := rfl
  have readyWrite : s₂.Ready r := ⟨⟨_, ⟨1⟩, rfl, rfl⟩, rfl, rfl, by decide, by decide⟩
  have readyRead : s₂.Ready q := ⟨⟨_, ⟨2⟩, rfl, rfl⟩, rfl, rfl, by decide, by decide⟩
  have hu : w.host.engine.Untroubled := ⟨rfl, rfl, rfl⟩
  have ready : ∀ x ∈ [r, q], ∃ s, w.host.services[x.service]? = some s ∧ s.Ready x := by
    simpa using ⟨⟨s₂, hs, readyWrite⟩, ⟨s₂, hs, readyRead⟩⟩
  have ready' : ∀ x ∈ [q, r], ∃ s, w.host.services[x.service]? = some s ∧ s.Ready x := by
    simpa using ⟨⟨s₂, hs, readyRead⟩, ⟨s₂, hs, readyWrite⟩⟩
  have none : w.host.calls.length = 0 := rfl
  obtain ⟨-, replies, -, counts⟩ := schedule_does_not_matter reach hu ready (by decide)
  obtain ⟨-, replies', -⟩ := schedule_does_not_matter reach hu ready' (by decide)
  rw [none] at replies replies'
  clear_value w
  obtain ⟨wrote, alone, -, first, -⟩ := replies 0 r s₂ rfl hs
  obtain ⟨wrote', alone', -, second', -⟩ := replies' 1 r s₂ rfl hs
  obtain ⟨read, alone₂, -, second, -⟩ := replies 1 q s₂ rfl hs
  obtain ⟨read', alone₂', -, first', -⟩ := replies' 0 q s₂ rfl hs
  obtain rfl : wrote = wrote' := Option.some.inj (alone.symm.trans alone')
  obtain rfl : read = read' := Option.some.inj (alone₂.symm.trans alone₂')
  exact ⟨w, r, q, reach, rfl, rfl, fun lane => absurd lane (by decide), ⟨wrote, first, second'⟩,
    ⟨read, second, first'⟩, (counts [q, r] (.swap q r [])).1⟩

/-- Of two calls that come in while the worker has the job of a third in hand, one order leaves a
higher peak behind than the other, if that job comes back before them in the one and after them in
the other. -/
theorem job_in_hand_shows_in_peak :
    ∃ (w : World Software) (r q : Request), Run Software.rules (fresh {}) w ∧
      w.host.engine.Untroubled ∧
      (∀ x ∈ [r, q], ∃ s, w.host.services[x.service]? = some s ∧ s.Ready x) ∧
      w.host.engine.pool.outstanding + [r, q].length ≤ w.host.engine.capacity.jobs ∧
      let paused : World Software := ⟨w.host.mapEngine Software.pause, w.hand⟩
      let before := ((passOn Software.engine paused).startAll [r, q]).mapEngine Software.resume
      let after := (paused.host.startAll [q, r]).mapEngine Software.resume
      (drained Software.engine ⟨before, []⟩).engine.accounting.jobsPeak = 2 ∧
        (drained Software.engine ⟨after, w.hand⟩).engine.accounting.jobsPeak = 3 := by
  let s : Service := .create {} (.ofSeed 1)
  let s' : Service := s.enrol ⟨0⟩ ⟨1⟩
  let r : Request := ⟨0, ⟨0⟩, .write, List.replicate 20 0, 20, none⟩
  let q : Request := ⟨0, ⟨0⟩, .read, List.replicate 20 0, 20, none⟩
  let installed : World Software := ⟨((fresh {}).host.install { key := some (.ofSeed 1) }).2, []⟩
  let entered : World Software := ⟨(installed.host.enter Software.engine s r).2, []⟩
  let step := (entered.host.engine.handBack entered.host.now).get rfl
  let w : World Software :=
    ⟨{ entered.host with
        engine := step.state, log := step.events.reverse ++ entered.host.log }, [step.answer]⟩
  have entering : Run Software.rules (fresh {}) entered :=
    (Relation.ReflTransGen.single (.install (fresh {}) _)).tail
      (.enter installed (s := s) (r := r) rfl)
  have taking : Next Software.rules entered w := .take entered (Option.some_get _).symm
  have hs : w.host.services[0]? = some s' := rfl
  have readyWrite : s'.Ready r := ⟨⟨_, ⟨1⟩, rfl, rfl⟩, rfl, rfl, by decide, by decide⟩
  have readyRead : s'.Ready q := ⟨⟨_, ⟨1⟩, rfl, rfl⟩, rfl, rfl, by decide, by decide⟩
  refine ⟨w, r, q, entering.tail taking, ⟨rfl, rfl, rfl⟩, ?_, by decide, by decide +kernel,
    by decide +kernel⟩
  simpa using ⟨⟨s', hs, readyWrite⟩, ⟨s', hs, readyRead⟩⟩

end World

end PacketAuth
