import PacketAuth.Proofs.Operation
import PacketAuth.Proofs.Register
import PacketAuth.Proofs.Waking
import Mathlib.Logic.Function.Iterate

/-! Interruption. A trigger ends the calls that wait on its interrupt and takes their jobs back from
the queue; all other calls and jobs, the sessions and the tags of the lanes stay as they are. -/
namespace PacketAuth

namespace Call

/-- A call that waits, and was given an interrupt. -/
def awaits (i : Nat) (c : Call) : Bool := c.isWaiting && c.request.interrupt = some i

/-- A call whose wait was interrupted. -/
def interrupted (reason : CancelReason) (c : Call) : Call :=
  { c with
    slot := .abandoned
    reply := some (.failed c.request ⟨.waitInterrupted, some reason.text⟩) }

theorem awaits_iff {i : Nat} {c : Call} :
    c.awaits i = true ↔ c.isWaiting = true ∧ c.request.interrupt = some i := by
  simp [awaits]

theorem interrupted_not_waiting (reason : CancelReason) (c : Call) :
    (c.interrupted reason).isWaiting = false := rfl

/-- The calls that wait, before and after one of them stops. -/
theorem filter_waiting_set {calls : List Call} {ticket : Nat} {c c' : Call}
    (hc : calls[ticket]? = some c) (hw : c.isWaiting = true) (hw' : c'.isWaiting = false) :
    (calls.filter isWaiting).Perm (c :: (calls.set ticket c').filter isWaiting) := by
  induction calls generalizing ticket with
  | nil => simp at hc
  | cons d calls ih =>
    cases ticket with
    | zero =>
      obtain rfl : d = c := by simpa using hc
      simp [hw, hw']
    | succ ticket =>
      have rest := ih (by simpa using hc)
      rw [List.set_cons_succ, List.filter_cons, List.filter_cons]
      split
      · exact (rest.cons d).trans (.swap c d _)
      · exact rest

/-- The calls that wait are those that end by an interrupt and those that wait afterwards. -/
theorem filter_waiting_interrupted (i : Nat) (reason : CancelReason) (calls : List Call) :
    (calls.filter isWaiting).Perm (calls.filter (·.awaits i) ++
      (calls.map fun c => if c.awaits i then c.interrupted reason else c).filter isWaiting) := by
  induction calls with
  | nil => exact .refl _
  | cons c calls ih =>
    rw [List.map_cons, List.filter_cons, List.filter_cons, List.filter_cons]
    cases ha : c.awaits i with
    | true =>
      obtain ⟨hw, -⟩ := awaits_iff.mp ha
      simpa [hw, interrupted_not_waiting] using ih
    | false =>
      cases hw : c.isWaiting with
      | true => simpa [hw] using (ih.cons c).trans List.perm_middle.symm
      | false => simpa [hw] using ih

end Call

/-- The counters of an engine after a job was taken back and released. -/
def Accounting.cancelled (a : Accounting) : Accounting :=
  (a.record .jobCancelled).record .jobReleased

theorem Accounting.cancelled_iterate (n : Nat) (a : Accounting) :
    cancelled^[n] a =
      { a with
        jobsReleased := a.jobsReleased + n
        jobsOutstanding := a.jobsOutstanding - n
        cancellations := a.cancellations + n } := by
  induction n generalizing a with
  | zero => simp
  | succ n ih =>
    rw [Function.iterate_succ_apply, ih]
    simp only [cancelled, record, Accounting.mk.injEq, true_and, and_true]
    omega

namespace Service

/-- Services after calls on them were interrupted. -/
def interrupt (ended : List Call) (services : List Service) : List Service :=
  ended.foldl (fun ss c => ss.modify c.request.service (·.count .interrupted)) services

theorem count_iterate (n : Nat) (s : Service) :
    (count .interrupted)^[n] s =
      { s with stats := { s.stats with interrupted := s.stats.interrupted + n } } := by
  induction n generalizing s with
  | zero => rfl
  | succ n ih =>
    rw [Function.iterate_succ_apply, ih]
    simp only [count, Stats.count, Nat.add_assoc, Nat.add_comm 1]

theorem getElem?_interrupt (ended : List Call) (services : List Service) (i : Nat) :
    (interrupt ended services)[i]? =
      services[i]?.map (count .interrupted)^[ended.countP (·.request.service = i)] := by
  refine (getElem?_foldl_modify ended (·.request.service) (fun _ s => s.count .interrupted)
    services i).trans ?_
  simp only [List.foldl_const, List.countP_eq_length_filter]

theorem total_interrupt {ended : List Call} {services : List Service}
    (h : ∀ c ∈ ended, c.request.service < services.length) :
    total (interrupt ended services) .interrupted = total services .interrupted + ended.length := by
  induction ended generalizing services with
  | nil => rfl
  | cons c ended ih =>
    obtain ⟨hc, hrest⟩ := List.forall_mem_cons.mp h
    rw [interrupt, List.foldl_cons, ← interrupt, ih (by simpa using hrest), total_count hc,
      if_pos rfl, List.length_cons]
    omega

end Service

namespace Software

/-- A job that is asked back while it is in the queue goes to the pool. -/
theorem withdraw_eq {s : Software} {id : JobId} {job : Job} {rest : List Queued}
    (h : Queue.remove id s.queue = some (job, rest)) :
    ∃ free, engine.withdraw id s =
      { s with
        queue := rest
        pool := ⟨free, s.pool.outstanding - 1⟩
        nextJob := s.nextJob + 1
        accounting := s.accounting.cancelled } := by
  simp only [Engine.withdraw, engine, cancel, h]
  exact ⟨_, rfl⟩

end Software

namespace Host

/-- The call of a recipient. -/
def callOf {σ : Type} (h : Host σ) : Option Recipient → Option Call
  | some (.call ticket) => h.calls[ticket]?
  | _ => none

/-- A waiting call that finds its interrupt triggered takes its job back and ends. -/
theorem look_of_interrupted {σ : Type} {E : Engine σ} {h : Host σ} {i ticket : Nat} {c : Call}
    {reason : CancelReason} (hc : h.calls[ticket]? = some c) (ha : c.awaits i = true)
    (hp : c.slot = .pending) (hr : (h.interrupts i).reason = some reason) :
    ∃ log, h.look E ticket =
      { h with
        engine := E.withdraw c.job h.engine
        services := h.services.modify c.request.service (·.count .interrupted)
        calls := h.calls.set ticket (c.interrupted reason)
        log } := by
  obtain ⟨hw, hi⟩ := Call.awaits_iff.mp ha
  rw [look, hc]
  simp only [hw, hi, hp, hr, if_true, Option.bind_some, Slot.look]
  rw [leave_eq]
  exact ⟨_, rfl⟩

variable {h h' h'' : Host Software} {i : Nat} {reason : CancelReason} {ended ended' : List Call}
  {hand : List Job}

/-- A host after some calls that were given an interrupt ended with its reason, and nothing else
happened. -/
structure Interrupted (i : Nat) (reason : CancelReason) (h : Host Software) (ended : List Call)
    (h' : Host Software) : Prop where
  length : h'.calls.length = h.calls.length
  calls : ∀ (ticket : Nat) (c : Call), h.calls[ticket]? = some c →
    h'.calls[ticket]? = some c ∨ c.awaits i = true ∧ h'.calls[ticket]? = some (c.interrupted reason)
  waiting : (h.calls.filter Call.isWaiting).Perm (ended ++ h'.calls.filter Call.isWaiting)
  queue : h'.engine.queue =
    h.engine.queue.filter fun q => (h'.callOf q.job.recipient).any Call.isWaiting
  outstanding : h.engine.pool.outstanding = h'.engine.pool.outstanding + ended.length
  engine : ∃ free nextJob, h'.engine =
    { h.engine with
      queue := h'.engine.queue
      pool := ⟨free, h'.engine.pool.outstanding⟩
      nextJob
      accounting := Accounting.cancelled^[ended.length] h.engine.accounting }
  services : h'.services = Service.interrupt ended h.services

/-- Every call that waits on an interrupt has its job in the queue. -/
def Queues (i : Nat) (h : Host Software) : Prop :=
  ∀ (ticket : Nat) (c : Call), h.calls[ticket]? = some c → c.awaits i = true →
    ∃ q ∈ h.engine.queue, q.job.recipient = some (.call ticket)

theorem awaited_of_custody (custody : World.Custody ⟨h, hand⟩) :
    ∀ q ∈ h.engine.queue, (h.callOf q.job.recipient).any Call.isWaiting = true := by
  intro q hq
  obtain ⟨ticket, c, hc, hw, htoken⟩ :=
    mem_waitingTokens.mp (custody.queued q.job (List.mem_map_of_mem hq))
  obtain ⟨hr, -⟩ : q.job.recipient = some (.call ticket) ∧ q.job.id = c.job := Prod.mk.inj htoken
  rw [hr, callOf, hc, Option.any_some, hw]

/-- A call that waits gets its job out of the queue, from wherever it stands. -/
theorem withdraw_of_waiting (custody : World.Custody ⟨h, hand⟩) {ticket : Nat} {c : Call}
    (hc : h.calls[ticket]? = some c) (hw : c.isWaiting = true) {q : Queued}
    (mem : q ∈ h.engine.queue) (hr : q.job.recipient = some (.call ticket)) :
    ∃ before x after free, h.engine.queue = before ++ x :: after ∧
      x.job.recipient = some (.call ticket) ∧ 1 ≤ h.engine.pool.outstanding ∧
      Software.engine.withdraw c.job h.engine =
        { h.engine with
          queue := before ++ after
          pool := ⟨free, h.engine.pool.outstanding - 1⟩
          nextJob := h.engine.nextJob + 1
          accounting := h.engine.accounting.cancelled } := by
  have queued : q.job ∈ h.engine.queued := List.mem_map_of_mem mem
  have own : q.job.id = c.job := by
    have known := custody.owner (List.mem_append_left hand (List.mem_append_right _ queued)) hr hc
    simp only [hw, Bool.true_eq_false, false_and, or_false, true_and] at known
    exact known.2.symm
  have out : 1 ≤ h.engine.pool.outstanding := by
    have count := custody.outstanding
    have some := List.length_pos_of_mem queued
    simp only [World.afloat, Software.inside, List.length_append] at count
    omega
  obtain ⟨⟨job, rest⟩, hremove⟩ := Option.ne_none_iff_exists'.mp fun hnone =>
    Queue.remove_eq_none hnone q mem own
  obtain ⟨free, hwithdraw⟩ := Software.withdraw_eq hremove
  obtain ⟨before, x, after, hqueue, rfl, rfl, hid⟩ := Queue.remove_eq_some hremove
  have token := custody.token_of_queued hc hw (by simp [Software.queued, hqueue]) hid
  exact ⟨before, x, after, free, hqueue, congrArg Prod.fst token, out, hwithdraw⟩

namespace Interrupted

theorem refl (custody : World.Custody ⟨h, hand⟩) : h.Interrupted i reason [] h where
  length := rfl
  calls _ _ hc := .inl hc
  waiting := .refl _
  queue := (List.filter_eq_self.mpr (awaited_of_custody custody)).symm
  outstanding := rfl
  engine := ⟨_, _, rfl⟩
  services := rfl

/-- A call that still waits did before, and is the same. -/
theorem call_of_waiting (a : h.Interrupted i reason ended h') {ticket : Nat} {c : Call}
    (hc : h'.calls[ticket]? = some c) (hw : c.isWaiting = true) : h.calls[ticket]? = some c := by
  obtain ⟨hlt, -⟩ := List.getElem?_eq_some_iff.mp hc
  rw [a.length] at hlt
  have before := List.getElem?_eq_getElem hlt
  rcases a.calls ticket _ before with same | ⟨-, ends⟩
  · rw [before, ← same, hc]
  · rw [hc] at ends
    obtain rfl := Option.some.inj ends
    cases hw

/-- A call that does not wait stays as it is. -/
theorem call_of_not_waiting (a : h.Interrupted i reason ended h') {ticket : Nat} {c : Call}
    (hc : h.calls[ticket]? = some c) (hw : c.isWaiting = false) : h'.calls[ticket]? = some c := by
  refine (a.calls ticket c hc).resolve_right fun ends => ?_
  rw [(Call.awaits_iff.mp ends.1).1] at hw
  cases hw

theorem trans (a : h.Interrupted i reason ended h') (b : h'.Interrupted i reason ended' h'') :
    h.Interrupted i reason (ended ++ ended') h'' where
  length := b.length.trans a.length
  calls ticket c hc := by
    rcases a.calls ticket c hc with same | ⟨ha, ends⟩
    · exact b.calls ticket c same
    · exact .inr ⟨ha, b.call_of_not_waiting ends rfl⟩
  waiting := by
    rw [List.append_assoc]
    exact a.waiting.trans (b.waiting.append_left ended)
  queue := by
    rw [b.queue, a.queue, List.filter_filter]
    refine List.filter_congr fun q _ => ?_
    refine Bool.and_eq_left_iff_imp.mpr fun hlate => ?_
    obtain ⟨c, hc, hw⟩ := Option.any_eq_true _ _ |>.mp hlate
    unfold callOf at hc ⊢
    split at hc
    · rw [b.call_of_waiting hc hw]
      exact hw
    · cases hc
  outstanding := by
    rw [a.outstanding, b.outstanding, List.length_append]
    omega
  engine := by
    obtain ⟨_, _, first⟩ := a.engine
    obtain ⟨free, nextJob, second⟩ := b.engine
    refine ⟨free, nextJob, second.trans ?_⟩
    rw [first, List.length_append, Nat.add_comm, Function.iterate_add_apply]
  services := by
    rw [b.services, a.services, Service.interrupt, Service.interrupt, Service.interrupt,
      List.foldl_append]

theorem queues (a : h.Interrupted i reason ended h') (hq : h.Queues i) : h'.Queues i := by
  intro ticket c hc ha
  obtain ⟨hw, -⟩ := Call.awaits_iff.mp ha
  obtain ⟨q, mem, hr⟩ := hq ticket c (a.call_of_waiting hc hw) ha
  refine ⟨q, ?_, hr⟩
  rw [a.queue, List.mem_filter, hr, callOf, hc]
  exact ⟨mem, hw⟩

/-- One call that waits on the interrupt looks. -/
theorem one (custody : World.Custody ⟨h, hand⟩) (hq : h.Queues i)
    (hr : (h.interrupts i).reason = some reason) {ticket : Nat} {c : Call}
    (hc : h.calls[ticket]? = some c) (ha : c.awaits i = true) :
    h.Interrupted i reason [c] (h.look Software.engine ticket) ∧
      (h.look Software.engine ticket).calls[ticket]? = some (c.interrupted reason) := by
  obtain ⟨hw, -⟩ := Call.awaits_iff.mp ha
  obtain ⟨hlt, -⟩ := List.getElem?_eq_some_iff.mp hc
  obtain ⟨q, mem, hrecipient⟩ := hq ticket c hc ha
  obtain ⟨before, x, after, free, hqueue, gone, out, hwithdraw⟩ :=
    withdraw_of_waiting custody hc hw mem hrecipient
  obtain ⟨log, hlook⟩ := look_of_interrupted (E := Software.engine) hc ha
    ((custody.slots c (List.mem_of_getElem? hc)).mpr hw) hr
  have later : World.Custody ⟨h.look Software.engine ticket, hand⟩ :=
    custody.run (.single (.look (R := Software.rules) ⟨h, hand⟩ trivial))
  rw [hwithdraw] at hlook
  rw [hlook] at later ⊢
  have ended : (h.calls.set ticket (c.interrupted reason))[ticket]? = some (c.interrupted reason) :=
    List.getElem?_set_self hlt
  refine ⟨?_, ended⟩
  exact
    { length := List.length_set
      calls := fun t d hd => by
        by_cases same : ticket = t
        · subst same
          obtain rfl : c = d := Option.some.inj (hc.symm.trans hd)
          exact .inr ⟨ha, ended⟩
        · exact .inl (by rw [List.getElem?_set_ne same, hd])
      waiting := Call.filter_waiting_set hc hw rfl
      queue := by
        have kept := List.filter_eq_self.mpr (awaited_of_custody later)
        rw [hqueue, List.filter_append, List.filter_cons_of_neg, ← List.filter_append]
        · exact kept.symm
        · simp [gone, callOf, ended, Call.interrupted_not_waiting]
      outstanding := (Nat.sub_add_cancel out).symm
      engine := ⟨_, _, rfl⟩
      services := rfl }

/-- A call that was given the interrupt looks: afterwards it does not wait. -/
theorem look (custody : World.Custody ⟨h, hand⟩) (hq : h.Queues i)
    (hr : (h.interrupts i).reason = some reason) {ticket : Nat}
    (hg : h.given ticket = some i) :
    ∃ ended c, h.Interrupted i reason ended (h.look Software.engine ticket) ∧
      (h.look Software.engine ticket).calls[ticket]? = some c ∧ c.isWaiting = false := by
  obtain ⟨c, hc, hi⟩ := call_of_given hg
  cases hw : c.isWaiting with
  | true =>
    obtain ⟨a, ends⟩ := one custody hq hr hc (Call.awaits_iff.mpr ⟨hw, hi⟩)
    exact ⟨[c], c.interrupted reason, a, ends, rfl⟩
  | false =>
    have nothing : h.look Software.engine ticket = h := by simp [Host.look, hc, hw]
    rw [nothing]
    exact ⟨[], c, refl custody, hc, hw⟩

/-- Calls that were given the interrupt look, one after the other: those that waited end. -/
theorem looks (custody : World.Custody ⟨h, hand⟩) (hq : h.Queues i)
    (hr : (h.interrupts i).reason = some reason) {tickets : List Nat}
    (hg : ∀ ticket ∈ tickets, h.given ticket = some i) :
    let h' := tickets.foldl (fun h ticket => h.look Software.engine ticket) h
    (∃ ended, h.Interrupted i reason ended h') ∧ (h'.interrupts i).reason = some reason ∧
      ∀ ticket ∈ tickets, ∀ c, h'.calls[ticket]? = some c → c.isWaiting = false := by
  induction tickets generalizing h with
  | nil => exact ⟨⟨[], refl custody⟩, hr, nofun⟩
  | cons ticket tickets ih =>
    obtain ⟨hgiven, hrest⟩ := List.forall_mem_cons.mp hg
    obtain ⟨first, c, a, hc, ends⟩ := look custody hq hr hgiven
    have later : World.Custody ⟨h.look Software.engine ticket, hand⟩ :=
      custody.run (.single (.look (R := Software.rules) ⟨h, hand⟩ trivial))
    obtain ⟨requests, interrupts⟩ := look_frame Software.engine ticket h
    obtain ⟨⟨others, b⟩, kept, none⟩ := ih later (a.queues hq) (by rw [interrupts, hr]) fun t ht =>
      (given_congr requests t).trans (hrest t ht)
    refine ⟨⟨first ++ others, a.trans b⟩, kept, List.forall_mem_cons.mpr ⟨fun d hd => ?_, none⟩⟩
    rw [List.foldl_cons, b.call_of_not_waiting hc ends] at hd
    exact Option.some.inj hd ▸ ends

/-- A trigger ends the calls that wait on the interrupt, if all of them are on its list. -/
theorem trigger (custody : World.Custody ⟨h, hand⟩) (hq : h.Queues i)
    (hg : ∀ ticket ∈ (h.interrupts i).waiters, h.given ticket = some i)
    (hl : ∀ (ticket : Nat) (c : Call), h.calls[ticket]? = some c → c.awaits i = true →
      ticket ∈ (h.interrupts i).waiters) (reason : CancelReason) :
    let h' := h.trigger Software.engine i reason
    ∃ merged ended, (h'.interrupts i).reason = some merged ∧ h.Interrupted i merged ended h' ∧
      h'.calls = h.calls.map (fun c => if c.awaits i then c.interrupted merged else c) ∧
      ended.Perm (h.calls.filter (·.awaits i)) := by
  intro h'
  obtain ⟨merged, hmerged⟩ :
      ∃ merged, ((h.interrupts i).trigger reason).2.reason = some merged := ⟨_, rfl⟩
  have set : ((h.setInterrupt i ((h.interrupts i).trigger reason).2).interrupts i).reason =
      some merged := by simp [setInterrupt, hmerged]
  have custody' : World.Custody ⟨h.setInterrupt i ((h.interrupts i).trigger reason).2, hand⟩ :=
    custody.run (.single (.trigger (R := Software.rules) ⟨h, hand⟩ i reason))
  obtain ⟨⟨ended, b⟩, kept, ends⟩ := looks custody' hq set hg
  -- the state of the interrupt is all that the trigger itself changes
  have a : h.Interrupted i merged ended h' :=
    ⟨b.length, b.calls, b.waiting, b.queue, b.outstanding, b.engine, b.services⟩
  have calls : h'.calls =
      h.calls.map (fun c => if c.awaits i then c.interrupted merged else c) := by
    refine List.ext_getElem? fun ticket => ?_
    rw [List.getElem?_map]
    cases hc : h.calls[ticket]? with
    | none =>
      rw [List.getElem?_eq_none_iff] at hc
      exact List.getElem?_eq_none (a.length ▸ hc)
    | some c =>
      rw [Option.map_some]
      cases ha : c.awaits i with
      | true =>
        refine ((a.calls ticket c hc).resolve_left fun same => ?_).2
        have waits := ends ticket (hl ticket c hc ha) c same
        rw [(Call.awaits_iff.mp ha).1] at waits
        cases waits
      | false =>
        refine (a.calls ticket c hc).resolve_right fun interrupted => ?_
        rw [ha] at interrupted
        cases interrupted.1
  refine ⟨merged, ended, kept, a, calls, ?_⟩
  have split := a.waiting.symm.trans (Call.filter_waiting_interrupted i merged h.calls)
  rw [calls] at split
  exact (List.perm_append_right_iff _).mp split

/-- The jobs that stay in the queue are those of all other calls. -/
theorem queue_eq (a : h.Interrupted i reason ended h') (custody : World.Custody ⟨h, hand⟩)
    (hc : h'.calls = h.calls.map fun c => if c.awaits i then c.interrupted reason else c) :
    h'.engine.queue =
      h.engine.queue.filter fun q => !(h.callOf q.job.recipient).any (·.awaits i) := by
  rw [a.queue]
  refine List.filter_congr fun q hq => ?_
  have waits := awaited_of_custody custody q hq
  unfold callOf at waits ⊢
  split at waits
  · rename_i ticket _
    obtain ⟨c, hget, hw⟩ := (Option.any_eq_true _ _).mp waits
    rw [hc, List.getElem?_map, hget, Option.map_some, Option.any_some, Option.any_some]
    cases ha : c.awaits i with
    | true => rfl
    | false => exact hw
  · cases waits

end Interrupted

/-- A request that was let in has its job at the end of the queue, under an id that no other job has
there. -/
theorem queue_of_entered (custody : World.Custody ⟨h, hand⟩) (hd : h.engine.isShutDown = false)
    {s : Service} {r : Request} {ticket : Nat} (hs : h.services[r.service]? = some s)
    (he : h.enter Software.engine s r = (.ok ticket, h')) :
    ∃ c job, h'.calls[ticket]? = some c ∧ c.request = r ∧ c.isWaiting = true ∧ c.slot = .pending ∧
      h'.engine.queue = h.engine.queue ++ [⟨job, none⟩] ∧ job.id = c.job ∧
      (∀ q ∈ h.engine.queue, q.job.id ≠ c.job) ∧
      h'.engine.pool.outstanding = h.engine.pool.outstanding + 1 ∧
      h'.engine.paused = h.engine.paused ∧ h'.engine.isShutDown = false := by
  obtain ⟨lane, regions, session, opened, job, hp, ho, ha, rfl, hcalls, -, hengine⟩ := enter_ok he
  obtain ⟨hlane, -⟩ := World.prepare_ok hp
  obtain ⟨hqueue, hpool, hpaused, hshut⟩ := openSession_software ho
  obtain ⟨free, nextJob, hstate, -⟩ := Software.acquire_eq_some ha
  have opening : World.Custody ⟨opened, hand⟩ := by
    have effects := World.effects_openSession (R := Software.rules) ⟨h, hand⟩ hs hlane
    have later := custody.effects effects
    rwa [show Software.rules.engine = Software.engine from rfl, ho] at later
  have new : ∀ q ∈ h.engine.queue, q.job.id ≠ job.id := by
    intro q hq same
    rw [← hqueue] at hq
    have old : q.job ∈ World.afloat ⟨opened, hand⟩ :=
      List.mem_append_left _ (List.mem_append_right _ (List.mem_map_of_mem hq))
    refine (List.nodup_cons.mp (opening.acquired_ids ha).1).1 (List.mem_map.mpr ⟨q.job, ?_, same⟩)
    exact List.mem_append_right _ old
  have running : opened.engine.acquire.state.isShutDown = false :=
    (Software.acquire_isShutDown opened.engine).trans (hshut.trans hd)
  have submitted := Software.submit_of_running running
    (r.fill s regions session h.calls.length job) 0 h.now
  refine ⟨r.call s regions job h.now, r.fill s regions session h.calls.length job, ?_, rfl, rfl,
    rfl, ?_, rfl, new, ?_, ?_, ?_⟩
  · rw [hcalls, List.getElem?_concat_length]
  · rw [hengine]
    refine (congrArg (·.state.queue) submitted).trans ?_
    rw [← hqueue, ← opened.engine.acquire_queue]
    rfl
  · rw [hengine]
    refine (congrArg (·.state.pool.outstanding) submitted).trans ?_
    rw [← hpool]
    exact congrArg (·.pool.outstanding) hstate
  · rw [hengine]
    exact (Software.submit_paused _ _ _ _).trans
      ((Software.acquire_paused opened.engine).trans hpaused)
  · rw [hengine]
    exact (Software.submit_isShutDown _ _ _ _).trans running

/-- The calls that wait on an interrupt. -/
def blocked (i : Nat) (h : Host Software) : Nat := h.calls.countP (·.awaits i)

/-- A host after the calls that waited on an interrupt were interrupted with its reason, and no
others. -/
structure CallsEnded (i : Nat) (merged : CancelReason) (h h' : Host Software) : Prop where
  length : h'.calls.length = h.calls.length
  others : ∀ (ticket : Nat) (c : Call), h.calls[ticket]? = some c → c.awaits i = false →
    h'.calls[ticket]? = some c
  waiting : ∀ (ticket : Nat) (c : Call), h.calls[ticket]? = some c → c.awaits i = true →
    ∃ reply, h'.calls[ticket]? = some { c with slot := .abandoned, reply := some reply } ∧
      reply.result = .error ⟨.waitInterrupted, some merged.text⟩ ∧
      reply.buffer = c.request.buffer ∧ reply.length c.request.length = c.request.length

/-- An engine after the jobs of those calls left its queue for the pool. -/
def JobsWithdrawn (i : Nat) (h h' : Host Software) : Prop :=
  ∃ free outstanding nextJob, h.engine.pool.outstanding = outstanding + h.blocked i ∧
    h'.engine =
      { h.engine with
        queue := h.engine.queue.filter fun q => !(h.callOf q.job.recipient).any (·.awaits i)
        pool := ⟨free, outstanding⟩
        nextJob
        accounting :=
          { h.engine.accounting with
            jobsReleased := h.engine.accounting.jobsReleased + h.blocked i
            jobsOutstanding := h.engine.accounting.jobsOutstanding - h.blocked i
            cancellations := h.engine.accounting.cancellations + h.blocked i } }

/-- A host after an interrupt ended all the calls that waited on it. -/
structure Cleared (i : Nat) (h h' : Host Software) : Prop where
  calls : ∃ merged, (h'.interrupts i).reason = some merged ∧ h.CallsEnded i merged h'
  jobs : h.JobsWithdrawn i h'
  services : ∀ k : Nat, h'.services[k]? = h.services[k]?.map fun s =>
    { s with stats := { s.stats with
      interrupted := s.stats.interrupted +
        h.calls.countP fun c => c.request.service = k && c.awaits i } }
  total : Service.total h'.services .interrupted =
    Service.total h.services .interrupted + h.blocked i

/-- A host after a call ended as soon as it had started. -/
structure EndsAtOnce (s : Service) (r : Request) (reason : CancelReason) (ticket : Nat)
    (h h' : Host Software) : Prop where
  started : h.start Software.engine s r = (.ok ticket, h')
  performed : h.perform Software.engine s r =
    (some (.failed r ⟨.waitInterrupted, some reason.text⟩), h')
  queue : h'.engine.queue = h.engine.queue
  outstanding : h'.engine.pool.outstanding = h.engine.pool.outstanding

/-- A call that is started on a paused engine with its interrupt triggered ends at once, and its job
is gone again. -/
theorem perform_of_triggered (custody : World.Custody ⟨h, hand⟩) {s : Service} {r : Request}
    {ticket : Nat} (hs : h.services[r.service]? = some s) (hi : r.interrupt = some i)
    (hr : (h.interrupts i).reason = some reason) (hp : h.engine.paused = true)
    (hd : h.engine.isShutDown = false) (he : h.enter Software.engine s r = (.ok ticket, h')) :
    ∃ h₂, h.EndsAtOnce s r reason ticket h₂ := by
  obtain ⟨c, job, hc, rfl, hw, pending, queued, own, new, out, hpaused, hshut⟩ :=
    queue_of_entered custody hd hs he
  have triggered : (h'.interrupts i).reason = some reason := by
    have kept := enter_reason (E := Software.engine) s c.request h i
    rw [he] at kept
    exact kept.trans hr
  have started := start_of_paused he
    (Software.handBack_of_paused hshut (hpaused.trans hp) h'.now)
  obtain ⟨log, hlook⟩ := look_of_interrupted (E := Software.engine) hc
    (Call.awaits_iff.mpr ⟨hw, hi⟩) pending triggered
  obtain ⟨free, hwithdraw⟩ := Software.withdraw_eq (s := h'.engine)
    (queued ▸ Queue.remove_append new own)
  rw [hlook, hwithdraw] at started
  refine ⟨_, started, perform_of_reply started ?_, rfl, Nat.sub_eq_of_eq_add out⟩
  rw [reply?, List.getElem?_set_self (List.getElem?_eq_some_iff.mp hc).1]
  rfl

end Host

namespace World

/-- Every call that waits on an interrupt has its job in the queue, and no trigger has woken it. -/
def Blocks (init w : World Software) (i : Nat) : Prop :=
  ∀ (ticket : Nat) (c : Call), w.host.calls[ticket]? = some c → c.awaits i = true →
    (∃ q ∈ w.host.engine.queue, q.job.recipient = some (.call ticket)) ∧
      ¬ Woken Software.rules init w i ticket

/-- In every state that a new engine and the services on it can reach, triggering an interrupt ends
the calls that wait on it with their jobs in the queue, if no trigger has woken one of them before:
each of them, and nothing else, is interrupted, and its job leaves the queue and goes back to the
pool. A call that is started on a paused engine, not at its end, with its interrupt triggered ends
at once and leaves no job behind. -/
theorem trigger_ends_its_calls {capacity : Capacity} {w : World Software}
    (reach : Run Software.rules (fresh capacity) w) :
    (∀ i reason, Blocks (fresh capacity) w i →
      w.host.Cleared i (w.host.trigger Software.engine i reason)) ∧
    ∀ s r i reason ticket h₁, w.host.services[r.service]? = some s → r.interrupt = some i →
      (w.host.interrupts i).reason = some reason → w.host.engine.paused = true →
      w.host.engine.isShutDown = false →
      w.host.enter Software.engine s r = (.ok ticket, h₁) →
        ∃ h₂, w.host.EndsAtOnce s r reason ticket h₂ := by
  have keyed := (Keyed.fresh capacity).run reach
  have start : Listed Software.rules (fresh capacity) (fresh capacity) := .start rfl fun _ => rfl
  refine ⟨fun i reason blocked => ?_, fun s r i reason ticket h₁ hs hi hr hp hd he =>
    Host.perform_of_triggered keyed.custody hs hi hr hp hd he⟩
  have listed : ∀ (ticket : Nat) (c : Call), w.host.calls[ticket]? = some c → c.awaits i = true →
      ticket ∈ (w.host.interrupts i).waiters := fun ticket c hc ha =>
    (start.mem_waiters_iff reach
      ((Host.given_of_call hc).trans (Call.awaits_iff.mp ha).2)).mpr (blocked ticket c hc ha).2
  obtain ⟨merged, ended, hmerged, a, hcalls, hended⟩ :=
    Host.Interrupted.trigger keyed.custody (fun ticket c hc ha => (blocked ticket c hc ha).1)
      ((start.run reach).given i) listed reason
  have count : ended.length = w.host.blocked i := by
    rw [hended.length_eq, ← List.countP_eq_length_filter]
    rfl
  refine ⟨⟨merged, hmerged, a.length, fun ticket c hc ha => ?_, fun ticket c hc ha => ?_⟩, ?_,
    fun k => ?_, ?_⟩
  · rw [hcalls, List.getElem?_map, hc, Option.map_some, ha]
    rfl
  · refine ⟨.failed c.request ⟨.waitInterrupted, some merged.text⟩, ?_, rfl, rfl, rfl⟩
    rw [hcalls, List.getElem?_map, hc, Option.map_some, ha]
    rfl
  · obtain ⟨free, nextJob, hengine⟩ := a.engine
    refine ⟨free, _, nextJob, count ▸ a.outstanding, hengine.trans ?_⟩
    rw [a.queue_eq keyed.custody hcalls, Accounting.cancelled_iterate, count]
  · rw [a.services, Service.getElem?_interrupt, hended.countP_eq, List.countP_filter]
    exact congrArg (Option.map · _) (funext (Service.count_iterate _))
  · rw [a.services, Service.total_interrupt, count]
    intro c hc
    obtain ⟨ticket, hget⟩ := List.getElem?_of_mem (List.mem_of_mem_filter (hended.mem_iff.mp hc))
    obtain ⟨s, serves, -⟩ := keyed.calls ticket c hget
    exact (List.getElem?_eq_some_iff.mp serves.service).1

/-- Of two calls with interrupts of their own one is ended, and the other waits on; a third call,
whose interrupt was triggered before, ends at once. -/
theorem one_of_two_calls_is_interrupted :
    ∃ w s r reply h₂, Run Software.rules (fresh {}) w ∧
      (let h' := w.host.trigger Software.engine 0 ⟨.user, none⟩
      h'.reply? 0 = some reply ∧ h'.reply? 1 = none ∧ h'.engine.pool.outstanding = 1) ∧
      w.host.perform Software.engine s r =
        (some (.failed r ⟨.waitInterrupted, some "user: stop"⟩), h₂) := by
  let s : Service := .create {} (.ofSeed 1)
  let s₁ : Service := s.enrol ⟨0⟩ ⟨1⟩
  let s₂ : Service := s₁.enrol ⟨1⟩ ⟨2⟩
  let r (l : UInt8) (i : Nat) : Request := ⟨0, ⟨l⟩, .write, List.replicate 20 0, 20, some i⟩
  let installed : World Software := ⟨((fresh {}).host.install { key := some (.ofSeed 1) }).2, []⟩
  let stopped : World Software := installed.triggered 2 ⟨.user, some "stop"⟩
  let paused : World Software := ⟨{ stopped.host with engine := stopped.host.engine.pause }, []⟩
  let entered : World Software := ⟨(paused.host.enter Software.engine s (r 0 0)).2, []⟩
  let w : World Software := ⟨(entered.host.enter Software.engine s₁ (r 1 1)).2, []⟩
  have pausing : Run Software.rules (fresh {}) paused :=
    ((Relation.ReflTransGen.single (.install (fresh {}) _)).tail
      (.trigger installed 2 ⟨.user, some "stop"⟩)).tail
        (Next.change (R := Software.rules) stopped (.pause _))
  have reach : Run Software.rules (fresh {}) w :=
    (pausing.tail (.enter (R := Software.rules) paused (s := s) (r := r 0 0) rfl)).tail
      (.enter (R := Software.rules) entered (s := s₁) (r := r 1 1) rfl)
  have calls : w.host.calls.map (fun c => (c.awaits 0, c.isWaiting)) =
      [(true, true), (false, true)] := by decide +kernel
  have queue : w.host.engine.queue.map (·.job.recipient) = [some (.call 0), some (.call 1)] := by
    decide +kernel
  have engine : w.host.engine.pool.outstanding = 2 ∧ w.host.engine.paused = true ∧
      w.host.engine.isShutDown = false := by decide +kernel
  have interrupts : (w.host.interrupts 0).waiters = [0] ∧
      (w.host.interrupts 2).reason = some ⟨.user, some "stop"⟩ := by decide +kernel
  have hs : w.host.services[0]? = some s₂ := by decide +kernel
  have third : (w.host.enter Software.engine s₂ (r 0 2)).1.toOption = some 2 := by decide +kernel
  -- nothing else about this state counts
  clear_value w
  obtain ⟨first, rest, hcalls, hfirst, hrest⟩ := List.map_eq_cons_iff.mp calls
  obtain ⟨second, others, rfl, hsecond, hothers⟩ := List.map_eq_cons_iff.mp hrest
  obtain rfl := List.map_eq_nil_iff.mp hothers
  obtain ⟨ha, -⟩ := Prod.mk.inj hfirst
  obtain ⟨hb, hw⟩ := Prod.mk.inj hsecond
  have get : w.host.calls[0]? = some first := by rw [hcalls]; rfl
  have get' : w.host.calls[1]? = some second := by rw [hcalls]; rfl
  have queued : ∃ q ∈ w.host.engine.queue, q.job.recipient = some (.call 0) :=
    List.mem_map.mp (queue ▸ List.mem_cons_self)
  have start : Listed Software.rules (fresh {}) (fresh {}) := .start rfl fun _ => rfl
  have asleep : ¬ Woken Software.rules (fresh {}) w 0 0 :=
    (start.mem_waiters_iff reach ((Host.given_of_call get).trans (Call.awaits_iff.mp ha).2)).mp
      (interrupts.1 ▸ List.mem_cons_self)
  have one : w.host.calls.countP (·.awaits 0) = 1 := by simp [hcalls, ha, hb]
  obtain ⟨ends, late⟩ := trigger_ends_its_calls reach
  obtain ⟨⟨merged, -, ended⟩, ⟨free, outstanding, nextJob, hout, pool⟩, -⟩ :=
    ends 0 ⟨.user, none⟩ fun ticket c hc hawaits => by
      rw [hcalls] at hc
      match ticket with
      | 0 => exact ⟨queued, asleep⟩
      | 1 =>
        obtain rfl : second = c := by simpa using hc
        rw [hb] at hawaits
        cases hawaits
      | _ + 2 => simp at hc
  obtain ⟨reply, hreply, -⟩ := ended.waiting 0 first get ha
  have kept := ended.others 1 second get' hb
  rw [Host.blocked, one, engine.1] at hout
  obtain ⟨h₁, he⟩ := enter_of_toOption third
  obtain ⟨h₂, -, performed, -⟩ :=
    late s₂ (r 0 2) 2 _ 2 h₁ hs rfl interrupts.2 engine.2.1 engine.2.2 he
  refine ⟨w, s₂, r 0 2, reply, h₂, reach, ⟨?_, ?_, ?_⟩, performed⟩
  · rw [Host.reply?, hreply]
    rfl
  · rw [Host.reply?, kept]
    exact Option.isNone_iff_eq_none.mp hw
  · rw [pool]
    exact (Nat.succ.inj hout).symm

/-- At the end of the engine its failure comes before the interrupt, even while it is paused; and a
call that was woken, but looked only after a reset, is not woken again. -/
theorem trigger_does_not_reach_every_call :
    (∃ w s r, Run Software.rules (fresh {}) w ∧ w.host.services[r.service]? = some s ∧
      r.interrupt = some 0 ∧ (w.host.interrupts 0).reason = some ⟨.user, some "stop"⟩ ∧
      w.host.engine.paused = true ∧ (w.host.enter Software.engine s r).1.toOption = some 0 ∧
      (w.host.perform Software.engine s r).1.map Reply.result =
        some (.error ⟨.engineFailed Code.shutDown, none⟩)) ∧
    ∃ w, Run Software.rules (fresh {}) w ∧ w.hand = [] ∧
      w.host.engine.queue.map (·.job.recipient) = [some (.call 0)] ∧
      w.host.calls.map (·.awaits 0) = [true] ∧
      (w.host.trigger Software.engine 0 ⟨.user, some "stop"⟩).calls.map (·.awaits 0) = [true] := by
  let s : Service := .create {} (.ofSeed 1)
  let s' : Service := s.enrol ⟨0⟩ ⟨1⟩
  let r : Request := ⟨0, ⟨0⟩, .write, List.replicate 20 0, 20, some 0⟩
  let stop : CancelReason := ⟨.user, some "stop"⟩
  let installed : World Software := ⟨((fresh {}).host.install { key := some (.ofSeed 1) }).2, []⟩
  let paused : World Software :=
    ⟨{ installed.host with engine := installed.host.engine.pause }, []⟩
  have pausing : Run Software.rules (fresh {}) paused :=
    (Relation.ReflTransGen.single (.install (fresh {}) _)).tail
      (Next.change (R := Software.rules) installed (.pause _))
  constructor
  · let opened : World Software := ⟨(paused.host.ensureSession Software.engine 0 s ⟨0⟩).2, []⟩
    let stopped : World Software := opened.triggered 0 stop
    let atEnd : World Software := ⟨{ stopped.host with engine := stopped.host.engine.shutDown }, []⟩
    have ending : Run Software.rules (fresh {}) atEnd :=
      ((pausing.tail (.ensureSession (R := Software.rules) paused (s := s) rfl ⟨0⟩)).tail
        (.trigger opened 0 stop)).tail
          (Next.change (R := Software.rules) stopped (.shutDown _))
    exact ⟨atEnd, s', r, ending, rfl, rfl, rfl, rfl, by decide +kernel, by decide +kernel⟩
  · let entered : World Software := ⟨(paused.host.enter Software.engine s r).2, []⟩
    let woken : World Software := entered.triggered 0 stop
    let reset : World Software := ⟨woken.host.resetInterrupt 0, []⟩
    let looked : World Software := ⟨reset.host.look Software.engine 0, []⟩
    have looking : Run Software.rules (fresh {}) looked :=
      (((pausing.tail (.enter (R := Software.rules) paused (s := s) (r := r) rfl)).tail
        (.trigger entered 0 stop)).tail (.reset woken 0)).tail (.look reset trivial)
    exact ⟨looked, looking, rfl, by decide +kernel, by decide +kernel, by decide +kernel⟩

end World

end PacketAuth
