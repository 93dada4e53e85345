import PacketAuth.Proofs.Script

/-! An interrupt that is never triggered does not matter: whatever a host does for requests that
were given such an interrupt, it does for the same requests without it. -/
namespace PacketAuth
variable {σ : Type} {i : Nat}

def Request.without (i : Nat) (r : Request) : Request :=
  { r with interrupt := if r.interrupt = some i then none else r.interrupt }

namespace Call

def without (i : Nat) (c : Call) : Call := { c with request := c.request.without i }

theorem ending_without (c : Call) (job : Job) : (c.without i).ending job = c.ending job := by
  unfold ending
  cases job.verdict with
  | error f => rfl
  | ok tag =>
    cases hc : c.request.command with
    | write => simp only [without, Request.without, hc]
    | read =>
      simp only [without, Request.without, hc]
      rfl

theorem credit_without (c : Call) (job : Job) (s : Service) :
    (c.without i).credit job s = c.credit job s := by
  unfold credit
  rw [ending_without]
  rfl

theorem react_without (c : Call) (job : Job) : (c.without i).react job = c.react job := rfl

end Call

namespace Host

/-- The host as it would be if nobody had been given an interrupt. -/
def without (i : Nat) (h : Host σ) : Host σ :=
  { h with
    calls := h.calls.map (·.without i)
    interrupts := fun j => if j = i then {} else h.interrupts j }

/-- A reset does nothing to an interrupt that is not triggered. -/
theorem resetInterrupt_of_silent {h : Host σ} (silent : (h.interrupts i).reason = none) :
    h.resetInterrupt i = h := by
  have same : (h.interrupts i).reset = h.interrupts i := by
    rw [Interrupt.reset, ← silent]
  rw [resetInterrupt, same]
  simp only [setInterrupt]
  congr 1
  funext j
  split
  · rename_i own
    rw [own]
  · rfl

/-- The second host is the first without an interrupt that is not triggered. -/
structure Without (i : Nat) (h k : Host σ) : Prop where
  same : k = h.without i
  silent : (h.interrupts i).reason = none

theorem reply?_without (h : Host σ) (ticket : Nat) :
    (h.without i).reply? ticket = h.reply? ticket := by
  simp only [reply?, without, List.getElem?_map]
  cases h.calls[ticket]? <;> rfl

namespace Without
variable {h k : Host σ} {E : Engine σ}

theorem reply? (a : Without i h k) (ticket : Nat) : k.reply? ticket = h.reply? ticket := by
  rw [a.same, reply?_without]

theorem services (a : Without i h k) : k.services = h.services := by
  rw [a.same]
  rfl

theorem now (a : Without i h k) : k.now = h.now := by
  rw [a.same]
  rfl

theorem finish (a : Without i h k) (ticket : Nat) (c : Call) (job : Job) :
    Without i (h.finish E ticket c job) (k.finish E ticket (c.without i) job) where
  same := by
    rw [a.same, finish_eq, finish_eq, Call.ending_without, funext (Call.credit_without c job)]
    simp only [Host.without, List.map_set]
    rfl
  silent := by
    rw [finish_eq]
    exact a.silent

theorem leave (a : Without i h k) (ticket : Nat) (c : Call) (reason : CancelReason) :
    Without i (h.leave E ticket c reason) (k.leave E ticket (c.without i) reason) where
  same := by
    rw [a.same, leave_eq, leave_eq]
    simp only [Host.without, List.map_set]
    rfl
  silent := by
    rw [leave_eq]
    exact a.silent

/-- What a call finds at its interrupt. -/
theorem reason (a : Without i h k) (c : Call) :
    ((c.without i).request.interrupt.bind fun j => (k.interrupts j).reason) =
      c.request.interrupt.bind fun j => (h.interrupts j).reason := by
  by_cases own : c.request.interrupt = some i
  · simp [Call.without, Request.without, own, a.silent]
  · have others : ∀ j, c.request.interrupt = some j → k.interrupts j = h.interrupts j := by
      intro j hj
      have : j ≠ i := fun h => own (h ▸ hj)
      simp [a.same, Host.without, this]
    have kept : (c.without i).request.interrupt = c.request.interrupt := if_neg own
    rw [kept]
    cases hj : c.request.interrupt with
    | none => rfl
    | some j => exact congrArg Interrupt.reason (others j hj)

theorem look (a : Without i h k) (ticket : Nat) : Without i (h.look E ticket) (k.look E ticket) := by
  have hcalls : k.calls[ticket]? = h.calls[ticket]?.map (·.without i) := by
    rw [a.same, Host.without, List.getElem?_map]
  rw [Host.look, Host.look, hcalls]
  cases h.calls[ticket]? with
  | none => exact a
  | some c =>
    simp only [Option.map_some]
    rw [a.reason, a.now]
    have waits : (c.without i).isWaiting = c.isWaiting := rfl
    rw [waits]
    split
    · have slot : (c.without i).slot = c.slot := rfl
      have deadline : (c.without i).deadline = c.deadline := rfl
      rw [slot, deadline]
      rcases c.slot.look (c.request.interrupt.bind fun j => (h.interrupts j).reason)
        (c.deadline.any (· ≤ h.now)) with ⟨arrival, slot⟩
      cases arrival with
      | none => exact a
      | some arrival =>
        cases arrival with
        | completed job => exact a.finish ticket { c with slot } job
        | interrupted reason => exact a.leave ticket { c with slot } reason
    · exact a

theorem emit (a : Without i h k) (e : Event) : Without i (h.emit e) (k.emit e) :=
  ⟨by rw [a.same]; rfl, a.silent⟩

theorem mapEngine (a : Without i h k) (f : σ → σ) : Without i (h.mapEngine f) (k.mapEngine f) :=
  ⟨by rw [a.same]; rfl, a.silent⟩

theorem updateService (a : Without i h k) (n : Nat) (f : Service → Service) :
    Without i (h.updateService n f) (k.updateService n f) :=
  ⟨by rw [a.same]; rfl, a.silent⟩

/-- Where both hosts give an answer, it is one answer, and the work goes on from it in both. -/
theorem exists_answer {α : Type} {x y : α × Host σ} (a : y.1 = x.1 ∧ Without i x.2 y.2) :
    ∃ answer h k, x = (answer, h) ∧ y = (answer, k) ∧ Without i h k :=
  ⟨x.1, x.2, y.2, rfl, Prod.ext a.1 rfl, a.2⟩

theorem onEngine (a : Without i h k) {α : Type} (f : σ → Step σ α) :
    (k.onEngine f).1 = (h.onEngine f).1 ∧ Without i (h.onEngine f).2 (k.onEngine f).2 := by
  rw [a.same]
  exact ⟨rfl, rfl, a.silent⟩

theorem submit (a : Without i h k) (job : Job) (delay : Nat) :
    Without i (h.onEngine (E.submit job delay h.now)).2 (k.onEngine (E.submit job delay k.now)).2 := by
  rw [a.now]
  exact (a.onEngine _).2

theorem setCall (a : Without i h k) (ticket : Nat) (c : Call) :
    Without i (h.setCall ticket c) (k.setCall ticket (c.without i)) where
  same := by
    rw [a.same]
    simp only [Host.setCall, Host.without, List.map_set]
  silent := a.silent

theorem isEngineInUse (a : Without i h k) : k.isEngineInUse = h.isEngineInUse := by
  rw [a.same]
  simp only [Host.isEngineInUse, Host.without, List.any_map]
  rfl

theorem settle (a : Without i h k) (ticket : Nat) (c : Call) (job : Job) :
    Without i (h.settle E ticket c job) (k.settle E ticket (c.without i) job) := by
  rw [Host.settle, Host.settle, Call.react_without]
  cases c.react job with
  | resubmit again =>
    have counted := a.updateService c.request.service (·.count .busyRetries)
    exact (counted.emit _).submit again c.retry.backoff
  | settle job exhausted =>
    dsimp only
    have told : Without i (if exhausted then h.noteExhausted job else h)
        (if exhausted then k.noteExhausted job else k) := by
      split
      · exact a.emit _
      · exact a
    generalize (if exhausted then h.noteExhausted job else h) = h' at told ⊢
    generalize (if exhausted then k.noteExhausted job else k) = k' at told ⊢
    have slot : (c.without i).slot = c.slot := rfl
    rw [slot]
    rcases c.slot.complete job with ⟨delivery, slot⟩
    cases delivery with
    | delivered => exact (told.setCall ticket { c with slot }).look ticket
    | refused job =>
      have released := told.emit (.abandonedReleased job.id)
      dsimp only
      rw [released.isEngineInUse]
      split
      · exact released.mapEngine _
      · exact released

theorem deliver (a : Without i h k) (job : Job) :
    Without i (h.deliver E job) (k.deliver E job) := by
  rw [Host.deliver, Host.deliver]
  rcases job.recipient with - | ticket | n
  · exact a
  · have hcalls : k.calls[ticket]? = h.calls[ticket]?.map (·.without i) := by
      rw [a.same, Host.without, List.getElem?_map]
    dsimp only
    rw [hcalls]
    cases h.calls[ticket]? with
    | none => exact a
    | some c => exact a.settle ticket c job
  · rw [a.same]
    exact ⟨rfl, a.silent⟩

theorem deliverNext (n : Nat) (a : Without i h k) :
    Without i (h.deliverNext E n) (k.deliverNext E n) := by
  induction n generalizing h k with
  | zero => exact a
  | succ n ih =>
    have hback : E.handBack k.now k.engine = E.handBack h.now h.engine := by
      rw [a.same]
      rfl
    rw [Host.deliverNext, Host.deliverNext, hback]
    cases E.handBack h.now h.engine with
    | none => exact a
    | some step =>
      have taken : Without i { h with engine := step.state, log := step.events.reverse ++ h.log }
          { k with engine := step.state, log := step.events.reverse ++ k.log } :=
        ⟨by rw [a.same]; rfl, a.silent⟩
      exact ih (taken.deliver step.answer)

theorem drain (a : Without i h k) : Without i (h.drain E) (k.drain E) := by
  have backlog : E.backlog k.engine = E.backlog h.engine := by
    rw [a.same]
    rfl
  rw [Host.drain, Host.drain, backlog]
  exact a.deliverNext _

theorem closeUnused (a : Without i h k) : Without i (h.closeUnused E) (k.closeUnused E) := by
  rw [Host.closeUnused, Host.closeUnused, a.isEngineInUse]
  split
  · exact a
  · exact (a.onEngine E.close).2.drain

theorem looks (a : Without i h k) (tickets : List Nat) :
    Without i (tickets.foldl (fun h ticket => h.look E ticket) h)
      (tickets.foldl (fun h ticket => h.look E ticket) k) := by
  induction tickets generalizing h k with
  | nil => exact a
  | cons ticket rest ih => exact ih (a.look ticket)

theorem pass (a : Without i h k) (instant : Nat) :
    Without i { h with now := max h.now instant } { k with now := max k.now instant } :=
  ⟨by rw [a.same]; rfl, a.silent⟩

theorem advance (a : Without i h k) (instant : Nat) :
    Without i (h.advance E instant) (k.advance E instant) := by
  have drained := (a.pass instant).drain (E := E)
  have count : (Host.drain E { k with now := max k.now instant }).calls.length =
      (Host.drain E { h with now := max h.now instant }).calls.length := by
    rw [drained.same, Host.without, List.length_map]
  rw [Host.advance, Host.advance, count]
  exact (drained.looks _).closeUnused

theorem nextInstant (a : Without i h k) : k.nextInstant E = h.nextInstant E := by
  rw [a.same]
  simp only [Host.nextInstant, Host.without, List.filterMap_map]
  rfl

theorem passUntil {done : Host σ → Bool} (hd : ∀ {h k : Host σ}, Without i h k → done k = done h)
    (limit : Option Nat) (n : Nat) (a : Without i h k) :
    Without i (h.passUntil E done limit n) (k.passUntil E done limit n) := by
  induction n generalizing h k with
  | zero => exact a
  | succ n ih =>
    rw [Host.passUntil, Host.passUntil, hd a, a.nextInstant]
    split
    · exact a
    · cases h.nextInstant E with
      | none => exact a
      | some instant =>
        dsimp only
        split
        · exact a
        · exact ih (a.advance instant)

theorem await (a : Without i h k) (ticket : Nat) :
    Without i (h.await E ticket) (k.await E ticket) := by
  have instants : k.instants E = h.instants E := by
    rw [a.same]
    simp only [Host.instants, Host.without, List.filter_map, List.length_map]
    rfl
  rw [Host.await, Host.await, instants]
  refine passUntil (fun b => ?_) none _ a
  rw [b.reply?]

theorem openSession (a : Without i h k) (n : Nat) (key : AuthKey) (lane : Lane) :
    (k.openSession E n key lane).1 = (h.openSession E n key lane).1 ∧
      Without i (h.openSession E n key lane).2 (k.openSession E n key lane).2 := by
  rw [Host.openSession, Host.openSession]
  cases lane.session with
  | some handle => exact ⟨rfl, a⟩
  | none =>
    obtain ⟨result, h', k', hx, hy, opened⟩ := exists_answer (a.onEngine (E.createSession key))
    dsimp only
    rw [hx, hy]
    cases result with
    | ok handle =>
      exact ⟨rfl, ((opened.updateService n _).updateService n _).emit _⟩
    | error e => exact ⟨rfl, (opened.updateService n _).emit _⟩

theorem ensureSession (a : Without i h k) (n : Nat) (s : Service) (l : LaneId) :
    (k.ensureSession E n s l).1 = (h.ensureSession E n s l).1 ∧
      Without i (h.ensureSession E n s l).2 (k.ensureSession E n s l).2 := by
  rw [Host.ensureSession, Host.ensureSession]
  cases s.lane l with
  | error f => exact ⟨rfl, a⟩
  | ok lane => exact a.openSession n s.key lane

/-- A wait that is not given the interrupt is not registered with it; any other is. -/
theorem registered (a : Without i h k) (r : Request) (ticket : Nat) (j : Nat) :
    (r.without i).registered ticket k.interrupts j =
        (if j = i then {} else r.registered ticket h.interrupts j) ∧
      (r.registered ticket h.interrupts i).reason = none := by
  have others : ∀ j, k.interrupts j = if j = i then {} else h.interrupts j := by
    rw [a.same]
    exact fun _ => rfl
  unfold Request.registered Request.without
  by_cases own : r.interrupt = some i
  · simp only [own, if_true, others]
    refine ⟨?_, a.silent⟩
    split <;> rfl
  · simp only [own, if_false]
    cases hr : r.interrupt with
    | none => exact ⟨others j, a.silent⟩
    | some n =>
      have foreign : n ≠ i := fun same => own (same ▸ hr)
      simp only [others, if_neg foreign, if_neg foreign.symm]
      refine ⟨?_, a.silent⟩
      by_cases same : j = n
      · simp [same, foreign]
      · simp [same]

theorem submitJob (a : Without i h k) (s : Service) (r : Request) (regions : Regions)
    (session : SessionHandle) (job : Job) :
    (k.submitJob E s (r.without i) regions session job).1 =
        (h.submitJob E s r regions session job).1 ∧
      Without i (h.submitJob E s r regions session job).2
        (k.submitJob E s (r.without i) regions session job).2 := by
  have count : k.calls.length = h.calls.length := by
    rw [a.same, Host.without, List.length_map]
  have filled : (r.without i).fill s regions session h.calls.length job =
      r.fill s regions session h.calls.length job := rfl
  rw [submitJob_eq, submitJob_eq, count, a.now, filled]
  refine ⟨rfl, ?_, (a.registered r _ i).2⟩
  have interrupts := funext fun j => (a.registered r h.calls.length j).1
  rw [interrupts, a.same]
  simp only [Host.without, List.map_append]
  rfl

theorem enter (a : Without i h k) (s : Service) (r : Request) :
    (k.enter E s (r.without i)).1 = (h.enter E s r).1 ∧
      Without i (h.enter E s r).2 (k.enter E s (r.without i)).2 := by
  have prepared : s.prepare (r.without i) = s.prepare r := rfl
  rw [Host.enter, Host.enter, prepared]
  cases s.prepare r with
  | error f => exact ⟨rfl, (a.updateService r.service _).emit _⟩
  | ok found =>
    obtain ⟨lane, regions⟩ := found
    obtain ⟨result, h', k', hx, hy, opened⟩ :=
      exists_answer (a.openSession (E := E) r.service s.key lane)
    have service : (r.without i).service = r.service := rfl
    dsimp only
    rw [service, hx, hy]
    cases result with
    | error f => exact ⟨rfl, opened⟩
    | ok session =>
      obtain ⟨job?, h'', k'', hx, hy, acquired⟩ := exists_answer (opened.onEngine E.acquire)
      dsimp only
      rw [hx, hy]
      cases job? with
      | none => exact ⟨rfl, acquired.updateService r.service _⟩
      | some job =>
        obtain ⟨ticket, submitted⟩ := acquired.submitJob (E := E) s r regions session job
        exact ⟨congrArg Except.ok ticket, submitted⟩

theorem start (a : Without i h k) (s : Service) (r : Request) :
    (k.start E s (r.without i)).1 = (h.start E s r).1 ∧
      Without i (h.start E s r).2 (k.start E s (r.without i)).2 := by
  obtain ⟨result, h', k', hx, hy, entered⟩ := exists_answer (a.enter (E := E) s r)
  rw [Host.start, Host.start, hx, hy]
  cases result with
  | error f => exact ⟨rfl, entered⟩
  | ok ticket => exact ⟨rfl, entered.drain.look ticket⟩

/-- A request from start to reply, with the interrupt and without it. -/
theorem perform (a : Without i h k) (s : Service) (r : Request) :
    (k.perform E s (r.without i)).1 = (h.perform E s r).1 ∧
      Without i (h.perform E s r).2 (k.perform E s (r.without i)).2 := by
  obtain ⟨result, h', k', hx, hy, started⟩ := exists_answer (a.start (E := E) s r)
  rw [Host.perform, Host.perform, hx, hy]
  cases result with
  | error f => exact ⟨rfl, started⟩
  | ok ticket =>
    have awaited := started.await (E := E) ticket
    exact ⟨awaited.reply? ticket, awaited⟩

theorem install (a : Without i h k) (b : Builder) :
    (k.install b).1 = (h.install b).1 ∧ Without i (h.install b).2 (k.install b).2 := by
  rw [Host.install, Host.install, a.same]
  cases b.build with
  | error e => exact ⟨rfl, rfl, a.silent⟩
  | ok s => exact ⟨rfl, rfl, a.silent⟩

/-- Another interrupt is there in both hosts. -/
theorem interrupt (a : Without i h k) {j : Nat} (other : j ≠ i) :
    k.interrupts j = h.interrupts j := by
  rw [a.same]
  exact if_neg other

theorem setInterrupt (a : Without i h k) {j : Nat} (other : j ≠ i) (int : Interrupt) :
    Without i (h.setInterrupt j int) (k.setInterrupt j int) where
  same := by
    rw [a.same]
    simp only [Host.setInterrupt, Host.without, Host.mk.injEq, true_and, and_true]
    funext n
    by_cases new : n = j
    · simp [new, other]
    · simp [new]
  silent := (congrArg Interrupt.reason (if_neg other.symm)).trans a.silent

theorem trigger (a : Without i h k) {j : Nat} (other : j ≠ i) (reason : CancelReason) :
    Without i (h.setInterrupt j ((h.interrupts j).trigger reason).2)
      (k.setInterrupt j ((k.interrupts j).trigger reason).2) := by
  rw [a.interrupt other]
  exact a.setInterrupt other _

theorem resetInterrupt (a : Without i h k) (j : Nat) :
    Without i (h.resetInterrupt j) (k.resetInterrupt j) := by
  by_cases own : j = i
  · subst own
    have silent : (k.interrupts j).reason = none := by simp [a.same, Host.without]
    rwa [resetInterrupt_of_silent a.silent, resetInterrupt_of_silent silent]
  · rw [Host.resetInterrupt, Host.resetInterrupt, a.interrupt own]
    exact a.setInterrupt own _

end Without
end Host

namespace Turn
variable {κ : Type}

def without (i : Nat) : Turn κ → Turn κ
  | .enter r => .enter (r.without i)
  | t => t

/-- The turn triggers an interrupt. -/
def Triggers (i : Nat) : Turn κ → Prop
  | .trigger j _ => j = i
  | _ => False

end Turn

namespace World
variable {κ : Type} {C : Controls σ κ} {w v : World σ}

def without (i : Nat) (w : World σ) : World σ := ⟨w.host.without i, w.hand⟩

structure Without (i : Nat) (w v : World σ) : Prop where
  host : w.host.Without i v.host
  hand : v.hand = w.hand

namespace Without

theorem same (a : w.Without i v) : v = w.without i := by
  obtain ⟨host, hand⟩ := v
  obtain rfl : host = w.host.without i := a.host.same
  obtain rfl : hand = w.hand := a.hand
  rfl

theorem enter (a : w.Without i v) (r : Request) :
    (v.turn C (.enter (r.without i))).1 = (w.turn C (.enter r)).1 ∧
      (w.turn C (.enter r)).2.Without i (v.turn C (.enter (r.without i))).2 := by
  have service : (r.without i).service = r.service := rfl
  rw [World.turn, World.turn, service, a.host.services]
  cases w.host.services[r.service]? with
  | none => exact ⟨rfl, a⟩
  | some s =>
    obtain ⟨answer, entered⟩ := a.host.enter (E := C.engine) s r
    exact ⟨congrArg Answer.entered answer, entered, a.hand⟩

theorem ensureSession (a : w.Without i v) (n : Nat) (l : LaneId) :
    (v.turn C (.ensureSession n l)).1 = (w.turn C (.ensureSession n l)).1 ∧
      (w.turn C (.ensureSession n l)).2.Without i (v.turn C (.ensureSession n l)).2 := by
  rw [World.turn, World.turn, a.host.services]
  cases w.host.services[n]? with
  | none => exact ⟨rfl, a⟩
  | some s =>
    obtain ⟨answer, ensured⟩ := a.host.ensureSession (E := C.engine) n s l
    exact ⟨congrArg Answer.session answer, ensured, a.hand⟩

theorem take (a : w.Without i v) :
    (v.turn C .take).1 = (w.turn C .take).1 ∧ (w.turn C .take).2.Without i (v.turn C .take).2 := by
  have back : C.engine.handBack v.host.now v.host.engine =
      C.engine.handBack w.host.now w.host.engine := by
    rw [a.host.same]
    rfl
  rw [World.turn, World.turn, back]
  cases C.engine.handBack w.host.now w.host.engine with
  | none => exact ⟨rfl, a⟩
  | some step => exact ⟨rfl, ⟨by rw [a.host.same]; rfl, a.host.silent⟩, by rw [a.hand]⟩

theorem deliver (a : w.Without i v) (place : Nat) :
    (v.turn C (.deliver place)).1 = (w.turn C (.deliver place)).1 ∧
      (w.turn C (.deliver place)).2.Without i (v.turn C (.deliver place)).2 := by
  rw [World.turn, World.turn, a.hand]
  cases w.hand[place]? with
  | none => exact ⟨rfl, a⟩
  | some job => exact ⟨rfl, a.host.deliver job, rfl⟩

/-- A turn that does not trigger the interrupt. -/
theorem turn (a : w.Without i v) {t : Turn κ} (untriggered : ¬t.Triggers i) :
    (v.turn C (t.without i)).1 = (w.turn C t).1 ∧
      (w.turn C t).2.Without i (v.turn C (t.without i)).2 := by
  cases t with
  | install b =>
    obtain ⟨answer, installed⟩ := a.host.install b
    have lanes := congrArg (fun x : Except ConfigError Service => x.map (·.lanes.length)) answer
    exact ⟨congrArg Answer.installed lanes, installed, a.hand⟩
  | ensureSession n l => exact a.ensureSession n l
  | enter r => exact a.enter r
  | take => exact a.take
  | deliver place => exact a.deliver place
  | look ticket => exact ⟨rfl, a.host.look ticket, a.hand⟩
  | pass instant => exact ⟨rfl, a.host.pass instant, a.hand⟩
  | trigger j reason => exact ⟨rfl, a.host.trigger untriggered reason, a.hand⟩
  | reset j => exact ⟨rfl, a.host.resetInterrupt j, a.hand⟩
  | dropService n => exact ⟨rfl, a.host.updateService n _, a.hand⟩
  | change order => exact ⟨rfl, (a.host.onEngine _).2, a.hand⟩

/-- A script that never triggers the interrupt tells the same at every turn, and leads to the same
world, if no request is given the interrupt. -/
theorem play (a : w.Without i v) {ts : List (Turn κ)} (never : ∀ t ∈ ts, ¬t.Triggers i) :
    (v.moments C (ts.map (·.without i))).map Moment.answer =
        (w.moments C ts).map Moment.answer ∧
      (w.play C ts).Without i (v.play C (ts.map (·.without i))) := by
  induction ts generalizing w v with
  | nil => exact ⟨rfl, a⟩
  | cons t rest ih =>
    obtain ⟨answer, next⟩ := a.turn (C := C) (never t (by simp))
    obtain ⟨answers, last⟩ := ih next fun t ht => never t (by simp [ht])
    refine ⟨?_, last⟩
    simp only [List.map_cons, moments, moment_answer, answer, answers]

end Without
end World
end PacketAuth
