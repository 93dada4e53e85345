import PacketAuth.Proofs.Entry
import PacketAuth.Proofs.Persistence

/-! Interleavings as data. A script says who takes each turn and what is asked for; played on a
world it gives an answer to every turn. The worlds that scripts lead to are those that runs lead
to. -/
namespace PacketAuth

/-- One turn on a host. A turn that is not possible leaves all as it is. -/
inductive Turn (κ : Type) where
  | install (b : Builder)
  | ensureSession (i : Nat) (l : LaneId)
  | enter (r : Request)
  | take
  | deliver (place : Nat)
  | look (ticket : Nat)
  | pass (instant : Nat)
  | trigger (i : Nat) (reason : CancelReason)
  | reset (i : Nat)
  | dropService (i : Nat)
  | change (order : κ)

/-- What a turn tells at once: the number of lanes of a new service, a session, or the ticket of a
call. -/
inductive Answer where
  | nothing
  | installed (lanes : Except ConfigError Nat)
  | session (result : Except Failure SessionHandle)
  | entered (ticket : Except Failure Nat)

/-- An engine, and what it does on the orders that no call gives. -/
structure Controls (σ κ : Type) where
  engine : Engine σ
  obey : κ → σ → Step σ Unit

def Controls.rules {σ κ : Type} (C : Controls σ κ) : Rules σ :=
  { engine := C.engine, change := fun s step => ∃ order, C.obey order s = step }

/-- A turn of a script, between the worlds before and after it. -/
structure Moment (σ κ : Type) where
  turn : Turn κ
  answer : Answer
  before : World σ
  after : World σ

/-- The call that a job goes back to. -/
def Job.ticket? (j : Job) : Option Nat :=
  match j.recipient with
  | some (.call ticket) => some ticket
  | _ => none

/-- A job in the engine's hand, with the call that it goes back to. -/
def World.returning {σ : Type} (place : Nat) (w : World σ) : Option (Nat × Call × Job) := do
  let job ← w.hand[place]?
  let ticket ← job.ticket?
  let c ← w.host.calls[ticket]?
  return (ticket, c, job)

/-- The call that ends with its job in a turn: one that waits for it, or looks and finds it. -/
def Moment.receives {σ κ : Type} (m : Moment σ κ) : Option (Nat × Call × Job) :=
  match m.turn with
  | .deliver place => do
    let (ticket, c, job) ← m.before.returning place
    match c.react job with
    | .settle job _ => if c.isWaiting ∧ c.slot = .pending then some (ticket, c, job) else none
    | .resubmit _ => none
  | .look ticket => do
    let c ← m.before.host.calls[ticket]?
    match c.slot with
    | .completed job => if c.isWaiting then some (ticket, c, job) else none
    | _ => none
  | _ => none

namespace Host
variable {σ : Type}

/-- How the opening of a session turns out, and what it leaves behind. -/
inductive Opening (E : Engine σ) (i : Nat) (key : AuthKey) (lane : Lane) (h : Host σ) :
    Except Failure SessionHandle → Host σ → Prop
  | known {handle : SessionHandle} (hl : lane.session = some handle) :
      Opening E i key lane h (.ok handle) h
  | opened {handle : SessionHandle} (hl : lane.session = none) (log : List Event) :
      Opening E i key lane h (.ok handle)
        { h with
          engine := (E.createSession key h.engine).state
          services := h.services.modify i fun s =>
            (s.updateLane lane.id fun l => { l with session := some handle }).count .sessionsCreated
          log }
  | refused (hl : lane.session = none) (context : Option String) (log : List Event) :
      Opening E i key lane h (.error ⟨.sessionCreationFailed, context⟩)
        { h with
          engine := (E.createSession key h.engine).state
          services := h.services.modify i (·.count .sessionFailures)
          log }

/-- How a request is let in or turned away. -/
inductive Admission (E : Engine σ) (s : Service) (r : Request) (h : Host σ) :
    Except Failure Nat → Host σ → Prop
  | malformed {f : Failure} (hp : s.prepare r = .error f) (log : List Event) :
      Admission E s r h (.error f)
        { h with services := h.services.modify r.service (·.count .malformed), log }
  | unopened {lane : Lane} {regions : Regions} {f : Failure} {h' : Host σ}
      (hp : s.prepare r = .ok (lane, regions))
      (ho : Opening E r.service s.key lane h (.error f) h') : Admission E s r h (.error f) h'
  | starved {lane : Lane} {regions : Regions} {session : SessionHandle} {h' : Host σ}
      (hp : s.prepare r = .ok (lane, regions))
      (ho : Opening E r.service s.key lane h (.ok session) h') (context : Option String)
      (log : List Event) :
      Admission E s r h (.error ⟨.engineUnavailable, context⟩)
        { h' with
          engine := (E.acquire h'.engine).state
          services := h'.services.modify r.service (·.count .engineFailures)
          log }
  | admitted {lane : Lane} {regions : Regions} {session : SessionHandle} {h' : Host σ} {job : Job}
      (hp : s.prepare r = .ok (lane, regions))
      (ho : Opening E r.service s.key lane h (.ok session) h') (log : List Event) :
      Admission E s r h (.ok h'.calls.length)
        { h' with
          engine := (E.submit (r.fill s regions session h'.calls.length job) 0 h'.now
            (E.acquire h'.engine).state).state
          calls := h'.calls ++ [r.call s regions job h'.now]
          interrupts := r.registered h'.calls.length h'.interrupts
          log }

/-- What a call finds when it looks. -/
inductive Glance (E : Engine σ) (ticket : Nat) (h : Host σ) : Host σ → Prop
  | nothing (hn : ∀ c, h.calls[ticket]? = some c → c.isWaiting = true →
      ∀ job, c.slot ≠ .completed job) : Glance E ticket h h
  | collected {c : Call} {job : Job} (hc : h.calls[ticket]? = some c) (hw : c.isWaiting = true)
      (hp : c.slot = .completed job) (log : List Event) :
      Glance E ticket h
        { h with
          engine := E.release job h.engine
          services := h.services.modify c.request.service (c.credit job)
          calls := h.calls.set ticket { c with slot := .taken, reply := some (c.ending job).reply }
          log }
  | left {c : Call} (hc : h.calls[ticket]? = some c) (hw : c.isWaiting = true)
      (hp : ∀ job, c.slot ≠ .completed job) (slot : Slot) (context : Option String)
      (log : List Event) :
      Glance E ticket h
        { h with
          engine := E.withdraw c.job h.engine
          services := h.services.modify c.request.service (·.count .interrupted)
          calls := h.calls.set ticket
            { c with slot, reply := some (.failed c.request ⟨.waitInterrupted, context⟩) }
          log }

theorem openSession_spec (E : Engine σ) (i : Nat) (key : AuthKey) (lane : Lane) (h : Host σ) :
    Opening E i key lane h (h.openSession E i key lane).1 (h.openSession E i key lane).2 := by
  rw [openSession]
  split
  · rename_i hl
    exact .known hl
  · rename_i hl
    dsimp only [onEngine]
    split
    · rename_i handle h' heq
      obtain ⟨-, rfl⟩ := Prod.mk.inj heq
      simp only [updateService, count, emit, List.modify_modify_eq]
      exact .opened hl _
    · rename_i e h' heq
      obtain ⟨-, rfl⟩ := Prod.mk.inj heq
      exact .refused hl _ _

theorem enter_spec (E : Engine σ) (s : Service) (r : Request) (h : Host σ) :
    Admission E s r h (h.enter E s r).1 (h.enter E s r).2 := by
  rw [enter]
  split
  · rename_i hp
    exact .malformed hp _
  · rename_i lane regions hp
    have opening := openSession_spec E r.service s.key lane h
    split <;> rename_i ho <;> rw [ho] at opening
    · exact .unopened hp opening
    · dsimp only [onEngine]
      split <;> rename_i ha <;> obtain ⟨-, rfl⟩ := Prod.mk.inj ha
      · exact .starved hp opening _ _
      · rw [submitJob_eq]
        exact .admitted hp opening _

theorem look_spec (E : Engine σ) (ticket : Nat) (h : Host σ) :
    Glance E ticket h (h.look E ticket) := by
  rw [look]
  cases hc : h.calls[ticket]? with
  | none => exact .nothing (by simp [hc])
  | some c =>
    dsimp only
    split
    · rename_i hw
      cases hp : c.slot with
      | completed job =>
        dsimp only [Slot.look]
        rw [finish_eq]
        exact .collected hc hw hp _
      | pending | taken | abandoned =>
        have elsewhere : ∀ job, c.slot ≠ .completed job := by simp [hp]
        dsimp only [Slot.look]
        split
        · exact .nothing (by simp [hc, hp])
        · rename_i heq
          split at heq
          · cases heq
          · split at heq <;> cases heq
        · rw [leave_eq]
          exact .left (c := c) hc hw elsewhere _ _ _
    · rename_i hw
      exact .nothing (by simp [hc, hw])

theorem Opening.frame {E : Engine σ} {i : Nat} {key : AuthKey} {lane : Lane} {h h' : Host σ}
    {answer : Except Failure SessionHandle} (o : Opening E i key lane h answer h') :
    h'.calls = h.calls ∧ h'.interrupts = h.interrupts := by
  cases o <;> exact ⟨rfl, rfl⟩

/-- A request that is let in, with a lane and regions, is the newest call; any other is none. -/
theorem Admission.calls {E : Engine σ} {s : Service} {r : Request} {h h' : Host σ}
    {answer : Except Failure Nat} (a : Admission E s r h answer h') :
    (∃ f, answer = .error f) ∧ h'.calls = h.calls ∨
      answer = .ok h.calls.length ∧ ∃ lane regions job, s.prepare r = .ok (lane, regions) ∧
        h'.calls = h.calls ++ [r.call s regions job h'.now] := by
  cases a with
  | malformed => exact .inl ⟨⟨_, rfl⟩, rfl⟩
  | unopened _ ho => exact .inl ⟨⟨_, rfl⟩, ho.frame.1⟩
  | starved _ ho => exact .inl ⟨⟨_, rfl⟩, ho.frame.1⟩
  | admitted hp ho log =>
    rw [ho.frame.1]
    exact .inr ⟨rfl, _, _, _, hp, rfl⟩

end Host

namespace World
variable {σ κ : Type} (C : Controls σ κ)

/-- An engine, and nothing set up on it. -/
def vacant (s : σ) : World σ := ⟨{ engine := s }, []⟩

def turn (w : World σ) : Turn κ → Answer × World σ
  | .install b => (.installed ((w.host.install b).1.map (·.lanes.length)),
      ⟨(w.host.install b).2, w.hand⟩)
  | .ensureSession i l =>
    match w.host.services[i]? with
    | none => (.nothing, w)
    | some s =>
      (.session (w.host.ensureSession C.engine i s l).1,
        ⟨(w.host.ensureSession C.engine i s l).2, w.hand⟩)
  | .enter r =>
    match w.host.services[r.service]? with
    | none => (.nothing, w)
    | some s => (.entered (w.host.enter C.engine s r).1, ⟨(w.host.enter C.engine s r).2, w.hand⟩)
  | .take =>
    match C.engine.handBack w.host.now w.host.engine with
    | none => (.nothing, w)
    | some step =>
      (.nothing,
        ⟨{ w.host with engine := step.state, log := step.events.reverse ++ w.host.log },
          w.hand ++ [step.answer]⟩)
  | .deliver place =>
    match w.hand[place]? with
    | none => (.nothing, w)
    | some job => (.nothing, ⟨w.host.deliver C.engine job, w.hand.eraseIdx place⟩)
  | .look ticket => (.nothing, ⟨w.host.look C.engine ticket, w.hand⟩)
  | .pass instant => (.nothing, ⟨{ w.host with now := max w.host.now instant }, w.hand⟩)
  | .trigger i reason =>
    (.nothing, ⟨w.host.setInterrupt i ((w.host.interrupts i).trigger reason).2, w.hand⟩)
  | .reset i => (.nothing, ⟨w.host.resetInterrupt i, w.hand⟩)
  | .dropService i =>
    (.nothing, ⟨w.host.updateService i fun s => { s with isHeld := false }, w.hand⟩)
  | .change order =>
    (.nothing, ⟨(w.host.onEngine (C.obey order)).2, w.hand⟩)

/-- The world after a script. -/
def play (ts : List (Turn κ)) (w : World σ) : World σ := ts.foldl (fun w t => (w.turn C t).2) w

def moment (w : World σ) (t : Turn κ) : Moment σ κ := ⟨t, (w.turn C t).1, w, (w.turn C t).2⟩

/-- The turns of a script with what they found and what they left behind. -/
def moments : List (Turn κ) → World σ → List (Moment σ κ)
  | [], _ => []
  | t :: ts, w => w.moment C t :: moments ts (w.turn C t).2

variable {C} {w w' : World σ}

@[simp] theorem play_nil (w : World σ) : w.play C [] = w := rfl

@[simp] theorem play_cons (t : Turn κ) (ts : List (Turn κ)) (w : World σ) :
    w.play C (t :: ts) = (w.turn C t).2.play C ts := rfl

@[simp] theorem moment_turn (t : Turn κ) : (w.moment C t).turn = t := rfl
@[simp] theorem moment_answer (t : Turn κ) : (w.moment C t).answer = (w.turn C t).1 := rfl
@[simp] theorem moment_before (t : Turn κ) : (w.moment C t).before = w := rfl
@[simp] theorem moment_after (t : Turn κ) : (w.moment C t).after = (w.turn C t).2 := rfl

theorem play_append (ts us : List (Turn κ)) (w : World σ) :
    w.play C (ts ++ us) = (w.play C ts).play C us := List.foldl_append

theorem moments_concat (ts : List (Turn κ)) (t : Turn κ) (w : World σ) :
    w.moments C (ts ++ [t]) = w.moments C ts ++ [(w.play C ts).moment C t] := by
  induction ts generalizing w with
  | nil => rfl
  | cons u ts ih => simp only [List.cons_append, moments, play_cons, ih]

/-- A turn of a script is a turn of a run, or it was not possible. -/
theorem turn_next (w : World σ) (t : Turn κ) :
    (w.turn C t).2 = w ∨ Next C.rules w (w.turn C t).2 := by
  cases t with
  | install b => exact .inr (.install w b)
  | ensureSession i l =>
    rw [turn]
    split
    · exact .inl rfl
    · rename_i hs
      exact .inr (.ensureSession (R := C.rules) w hs l)
  | enter r =>
    rw [turn]
    split
    · exact .inl rfl
    · rename_i hs
      exact .inr (.enter (R := C.rules) w hs)
  | take =>
    rw [turn]
    split
    · exact .inl rfl
    · rename_i hstep
      exact .inr (.take (R := C.rules) w hstep)
  | deliver place =>
    rw [turn]
    split
    · exact .inl rfl
    · rename_i job hjob
      obtain ⟨hlt, rfl⟩ := List.getElem?_eq_some_iff.mp hjob
      obtain ⟨h, hand⟩ := w
      dsimp only at hlt ⊢
      have delivered := Next.deliver (R := C.rules) h (hand.take place) hand[place]
        (hand.drop (place + 1))
      rw [← List.drop_eq_getElem_cons hlt, List.take_append_drop,
        ← List.eraseIdx_eq_take_drop_succ] at delivered
      exact .inr delivered
  | look ticket => exact .inr (.look (R := C.rules) w trivial)
  | pass instant => exact .inr (.pass w instant)
  | trigger i reason => exact .inr (.trigger w i reason)
  | reset i => exact .inr (.reset w i)
  | dropService i => exact .inr (.dropService w i)
  | change order => exact .inr (.change w ⟨order, rfl⟩)

/-- Every turn of a run can be written down. -/
theorem Next.exists_turn (n : Next C.rules w w') : ∃ t : Turn κ, (w.turn C t).2 = w' := by
  cases n with
  | install _ b => exact ⟨.install b, rfl⟩
  | @ensureSession _ i s hs l => exact ⟨.ensureSession i l, by simp only [turn, hs]; rfl⟩
  | @enter _ s r hs => exact ⟨.enter r, by simp only [turn, hs]; rfl⟩
  | @take _ step h => exact ⟨.take, by simp only [turn, show C.engine.handBack _ _ = _ from h]⟩
  | deliver h before job after =>
    refine ⟨.deliver before.length, ?_⟩
    simp only [turn, List.getElem?_append_right (Nat.le_refl _), Nat.sub_self,
      List.getElem?_cons_zero, List.eraseIdx_append_of_length_le (Nat.le_refl _),
      List.eraseIdx_cons_zero]
    rfl
  | look _ hl => exact ⟨.look _, rfl⟩
  | pass _ instant => exact ⟨.pass instant, rfl⟩
  | trigger _ i reason => exact ⟨.trigger i reason, rfl⟩
  | reset _ i => exact ⟨.reset i, rfl⟩
  | dropService _ i => exact ⟨.dropService i, rfl⟩
  | change _ h =>
    obtain ⟨order, rfl⟩ := h
    exact ⟨.change order, rfl⟩

theorem run_turn (w : World σ) (t : Turn κ) : Run C.rules w (w.turn C t).2 := by
  rcases w.turn_next (C := C) t with same | next
  · rw [same]
  · exact .single next

theorem run_play (ts : List (Turn κ)) (w : World σ) : Run C.rules w (w.play C ts) := by
  induction ts generalizing w with
  | nil => exact .refl
  | cons t ts ih => exact (w.run_turn t).trans (ih _)

/-- Every moment of a script comes after the turns before it. -/
theorem exists_of_mem_moments {ts : List (Turn κ)} {m : Moment σ κ} (h : m ∈ w.moments C ts) :
    ∃ us t, m = (w.play C us).moment C t := by
  induction ts generalizing w with
  | nil => cases h
  | cons t ts ih =>
    rcases List.mem_cons.mp h with rfl | later
    · exact ⟨[], t, rfl⟩
    · obtain ⟨us, u, rfl⟩ := ih later
      exact ⟨t :: us, u, rfl⟩

/-- The runs are what scripts can do. -/
theorem run_iff_play : Run C.rules w w' ↔ ∃ ts : List (Turn κ), w.play C ts = w' := by
  constructor
  · intro run
    induction run with
    | refl => exact ⟨[], rfl⟩
    | tail _ next ih =>
      obtain ⟨ts, rfl⟩ := ih
      obtain ⟨t, rfl⟩ := next.exists_turn
      exact ⟨ts ++ [t], play_append ts [t] w⟩
  · rintro ⟨ts, rfl⟩
    exact run_play ts w

theorem returning_eq_some {place : Nat} {job : Job} {ticket : Nat} {c : Call}
    (hjob : w.hand[place]? = some job) (hj : job.recipient = some (.call ticket))
    (hc : w.host.calls[ticket]? = some c) : w.returning place = some (ticket, c, job) := by
  simp [returning, hjob, Job.ticket?, hj, hc]

theorem returning_eq_none {place : Nat} {job : Job} (hjob : w.hand[place]? = some job)
    (hj : ∀ ticket, job.recipient = some (.call ticket) → w.host.calls[ticket]? = none) :
    w.returning place = none := by
  simp only [returning, hjob, Option.bind_eq_bind, Option.bind_some, Job.ticket?]
  split
  · rename_i ticket hr
    simp [hj ticket hr]
  · rfl

theorem call_of_returning {place ticket : Nat} {c : Call} {job : Job}
    (h : w.returning place = some (ticket, c, job)) : w.host.calls[ticket]? = some c := by
  simp only [returning, Option.bind_eq_bind, Option.bind_eq_some_iff] at h
  obtain ⟨j, -, t, -, d, hd, heq⟩ := h
  cases heq
  exact hd

/-- What a delivery leaves behind, and which call receives the job in it. -/
inductive Delivered (C : Controls σ κ) (w : World σ) (place : Nat) : Host σ → Prop
  | lost (handedBack : List (Nat × Job)) (hn : w.returning place = none)
      (hr : (w.moment C (.deliver place)).receives = none) :
      Delivered C w place { w.host with handedBack }
  | resubmitted {ticket : Nat} {c : Call} {job : Job}
      (hj : w.returning place = some (ticket, c, job))
      (hr : (w.moment C (.deliver place)).receives = none)
      (ha : c.react job = .resubmit job.rearm) (hi : job.recipient = some (.call ticket))
      (log : List Event) :
      Delivered C w place
        { w.host with
          engine := (C.engine.submit job.rearm c.retry.backoff w.host.now w.host.engine).state
          services := w.host.services.modify c.request.service (·.count .busyRetries)
          log }
  | finished {ticket : Nat} {c : Call} {job job' : Job} {exhausted : Bool}
      (hj : w.returning place = some (ticket, c, job)) (hw : c.isWaiting = true)
      (hr : (w.moment C (.deliver place)).receives = some (ticket, c, job'))
      (ha : c.react job = .settle job' exhausted) (log : List Event) :
      Delivered C w place
        { w.host with
          engine := C.engine.release job' w.host.engine
          services := w.host.services.modify c.request.service (c.credit job')
          calls := w.host.calls.set ticket
            { c with slot := .taken, reply := some (c.ending job').reply }
          log }
  | stranded {ticket : Nat} {c : Call} {job job' : Job} {exhausted : Bool}
      (hj : w.returning place = some (ticket, c, job)) (hw : c.isWaiting = false)
      (hr : (w.moment C (.deliver place)).receives = none)
      (ha : c.react job = .settle job' exhausted) (log : List Event) :
      Delivered C w place
        { w.host with
          calls := w.host.calls.set ticket { c with slot := .completed job' }
          log }
  | refused {ticket : Nat} {c : Call} {job job' : Job} {exhausted : Bool}
      (hj : w.returning place = some (ticket, c, job))
      (hr : (w.moment C (.deliver place)).receives = none)
      (ha : c.react job = .settle job' exhausted) (log : List Event) :
      Delivered C w place
        { w.host with
          engine :=
            if w.host.isEngineInUse then C.engine.release job' w.host.engine else w.host.engine
          log }

theorem deliver_spec (w : World σ) (place : Nat) :
    Delivered C w place (w.turn C (.deliver place)).2.host := by
  have nobody (hn : w.returning place = none) :
      (w.moment C (.deliver place)).receives = none := by simp [Moment.receives, moment, hn]
  cases hjob : w.hand[place]? with
  | none =>
    have hn : w.returning place = none := by simp [returning, hjob]
    have same : (w.turn C (.deliver place)).2.host = w.host := by simp [turn, hjob]
    rw [same]
    exact .lost w.host.handedBack hn (nobody hn)
  | some job =>
    have after : (w.turn C (.deliver place)).2.host = w.host.deliver C.engine job := by
      simp [turn, hjob]
    rw [after]
    have settlement := settlement_deliver C.engine w.host job
    generalize w.host.deliver C.engine job = h' at settlement
    cases settlement with
    | strayed handedBack hj =>
      have hn := returning_eq_none hjob hj
      exact .lost handedBack hn (nobody hn)
    | @resubmitted ticket c hj hc hb ha hr submitted hq =>
      subst hq
      have returning := returning_eq_some hjob hj hc
      have again : c.react job = .resubmit job.rearm := by simp [Call.react, hb, ha, hr]
      exact .resubmitted returning (by simp [Moment.receives, moment, returning, again]) again hj _
    | @finished job' ticket c exhausted hj hc hw hp hr =>
      have returning := returning_eq_some hjob hj hc
      exact .finished returning hw (by simp [Moment.receives, moment, returning, hr, hw, hp]) hr _
    | @stranded job' ticket c exhausted hj hc hw hp hr =>
      have returning := returning_eq_some hjob hj hc
      exact .stranded returning hw (by simp [Moment.receives, moment, returning, hr, hw]) hr _
    | @refused job' ticket c exhausted hj hc hp hr =>
      have returning := returning_eq_some hjob hj hc
      exact .refused returning (by simp [Moment.receives, moment, returning, hr, hp]) hr _

theorem receives_of_completed {ticket : Nat} {c : Call} {job : Job}
    (hc : w.host.calls[ticket]? = some c) (hw : c.isWaiting = true) (hp : c.slot = .completed job) :
    (w.moment C (.look ticket)).receives = some (ticket, c, job) := by
  simp [Moment.receives, moment, hc, hp, hw]

theorem receives_of_nothing {ticket : Nat}
    (hn : ∀ c, w.host.calls[ticket]? = some c → c.isWaiting = true →
      ∀ job, c.slot ≠ .completed job) : (w.moment C (.look ticket)).receives = none := by
  simp only [Moment.receives, moment]
  cases hc : w.host.calls[ticket]? with
  | none => rfl
  | some c =>
    cases hp : c.slot with
    | completed job =>
      have ended : c.isWaiting = false := eq_false_of_ne_true fun hw => hn c hc hw job hp
      simp [hp, ended]
    | pending | taken | abandoned => simp [hp]

theorem call_of_receives {t : Turn κ} {ticket : Nat} {c : Call} {job : Job}
    (h : (w.moment C t).receives = some (ticket, c, job)) : w.host.calls[ticket]? = some c := by
  cases t with
  | deliver place =>
    obtain ⟨⟨t, d, j⟩, hr, h⟩ := Option.bind_eq_some_iff.mp h
    dsimp only at h
    split at h
    · split at h
      · cases h
        exact call_of_returning hr
      · cases h
    · cases h
  | look t =>
    obtain ⟨d, hd, h⟩ := Option.bind_eq_some_iff.mp h
    split at h
    · split at h
      · cases h
        exact hd
      · cases h
    · cases h
  | install | ensureSession | enter | take | pass | trigger | reset | dropService | change => cases h

theorem calls_install (w : World σ) (b : Builder) :
    (w.turn C (.install b)).2.host.calls = w.host.calls := by
  rw [turn, Host.install]
  cases b.build <;> rfl

theorem calls_ensureSession (w : World σ) (i : Nat) (l : LaneId) :
    (w.turn C (.ensureSession i l)).2.host.calls = w.host.calls := by
  rw [turn]
  split
  · rfl
  · rename_i s _
    rw [Host.ensureSession]
    split
    · rfl
    · rename_i lane _
      exact (Host.openSession_frame i s.key lane w.host).1

theorem calls_take (w : World σ) : (w.turn C .take).2.host.calls = w.host.calls := by
  rw [turn]
  split <;> rfl

/-- Only three kinds of turns touch the calls. -/
theorem calls_turn (w : World σ) (t : Turn κ) :
    (w.turn C t).2.host.calls = w.host.calls ∨ (∃ r, t = .enter r) ∨
      (∃ place, t = .deliver place) ∨ ∃ ticket, t = .look ticket := by
  cases t with
  | install b => exact .inl (w.calls_install b)
  | ensureSession i l => exact .inl (w.calls_ensureSession i l)
  | take => exact .inl w.calls_take
  | pass | trigger | reset | dropService | change => exact .inl rfl
  | enter r => exact .inr (.inl ⟨r, rfl⟩)
  | deliver place => exact .inr (.inr (.inl ⟨place, rfl⟩))
  | look ticket => exact .inr (.inr (.inr ⟨ticket, rfl⟩))

theorem host_enter {r : Request} {s : Service} (hs : w.host.services[r.service]? = some s) :
    (w.turn C (.enter r)).2.host = (w.host.enter C.engine s r).2 := by
  simp [turn, hs]

/-- Only letting a request in adds to what the calls ask for. -/
theorem requests_turn (w : World σ) (t : Turn κ) :
    (w.turn C t).2.host.calls.map Call.request = w.host.calls.map Call.request ∨
      ∃ s r lane regions, w.host.services[r.service]? = some s ∧
        s.prepare r = .ok (lane, regions) ∧
        (w.turn C t).2.host.calls.map Call.request = w.host.calls.map Call.request ++ [r] := by
  rcases w.calls_turn (C := C) t with same | ⟨r, rfl⟩ | ⟨place, rfl⟩ | ⟨ticket, rfl⟩
  · exact .inl (by rw [same])
  · cases hs : w.host.services[r.service]? with
    | none => simp [turn, hs]
    | some s =>
      have admission := Host.enter_spec C.engine s r w.host
      rw [host_enter hs]
      rcases admission.calls with ⟨-, same⟩ | ⟨-, lane, regions, job, hp, added⟩
      · exact .inl (by rw [same])
      · exact .inr ⟨s, r, lane, regions, hs, hp, by rw [added, List.map_append]; rfl⟩
  · left
    have delivered := w.deliver_spec (C := C) place
    generalize (w.turn C (.deliver place)).2.host = h' at delivered
    cases delivered with
    | lost | resubmitted | refused => rfl
    | finished hj | stranded hj => exact requests_of_set (call_of_returning hj) rfl
  · left
    have glance := Host.look_spec C.engine ticket w.host
    rw [turn]
    dsimp only
    generalize w.host.look C.engine ticket = h' at glance
    cases glance with
    | nothing => rfl
    | collected hc | left hc => exact requests_of_set hc rfl

theorem reply?_of_same {h : Host σ} {ticket : Nat} {c : Call} (hc : h.calls[ticket]? = some c)
    (hw : c.isWaiting = true) : h.reply? ticket = none := by
  simpa [Host.reply?, hc, Call.isWaiting] using hw

theorem reply?_of_set {calls : List Call} {h : Host σ} {ticket t : Nat} {c d : Call}
    (hcalls : h.calls = calls.set t d) (hc : calls[ticket]? = some c) (hw : c.isWaiting = true)
    {reply : Reply} (hr : h.reply? ticket = some reply) : t = ticket ∧ d.reply = some reply := by
  by_cases same : t = ticket
  · subst same
    have found : h.calls[t]? = some d := by
      rw [hcalls, List.getElem?_set_self (List.getElem?_eq_some_iff.mp hc).1]
    exact ⟨rfl, by simpa [Host.reply?, found] using hr⟩
  · have kept : h.calls[ticket]? = some c := by rw [hcalls, List.getElem?_set_ne same, hc]
    rw [reply?_of_same kept hw] at hr
    cases hr

/-- A call that ends in a turn ends with its job, or it was interrupted. -/
theorem ended_turn {t : Turn κ} {ticket : Nat} {c : Call} {reply : Reply}
    (hc : w.host.calls[ticket]? = some c) (hw : c.isWaiting = true)
    (hr : (w.turn C t).2.host.reply? ticket = some reply) :
    (∃ job, (w.moment C t).receives = some (ticket, c, job) ∧ reply = (c.ending job).reply) ∨
      (w.moment C t).receives = none ∧
        ∃ context, reply = .failed c.request ⟨.waitInterrupted, context⟩ := by
  have silent : (w.turn C t).2.host.calls ≠ w.host.calls := fun same => by
    rw [reply?_of_same (by rw [same, hc]) hw] at hr
    cases hr
  rcases w.calls_turn (C := C) t with same | ⟨r, rfl⟩ | ⟨place, rfl⟩ | ⟨t, rfl⟩
  · exact absurd same silent
  · cases hs : w.host.services[r.service]? with
    | none => exact absurd (by simp [turn, hs]) silent
    | some s =>
      have admission := Host.enter_spec C.engine s r w.host
      rw [host_enter hs] at hr silent
      rcases admission.calls with ⟨-, same⟩ | ⟨-, lane, regions, job, hp, added⟩
      · exact absurd same silent
      · have kept : (w.host.enter C.engine s r).2.calls[ticket]? = some c := by
          rw [added, List.getElem?_append_left (List.getElem?_eq_some_iff.mp hc).1, hc]
        rw [reply?_of_same kept hw] at hr
        cases hr
  · have delivered := w.deliver_spec (C := C) place
    generalize (w.turn C (.deliver place)).2.host = h' at delivered hr silent
    cases delivered with
    | lost | resubmitted | refused => exact absurd rfl silent
    | @finished t d job job' _ hj _ hreceives =>
      obtain ⟨rfl, hreply⟩ := reply?_of_set rfl hc hw hr
      obtain rfl : c = d := Option.some.inj (hc.symm.trans (call_of_returning hj))
      exact .inl ⟨job', hreceives, (Option.some.inj hreply).symm⟩
    | @stranded t d job job' _ hj hd =>
      obtain ⟨rfl, -⟩ := reply?_of_set rfl hc hw hr
      obtain rfl : c = d := Option.some.inj (hc.symm.trans (call_of_returning hj))
      rw [hd] at hw
      cases hw
  · have glance := Host.look_spec C.engine t w.host
    have after : (w.turn C (.look t)).2.host = w.host.look C.engine t := rfl
    rw [after] at hr silent
    generalize w.host.look C.engine t = h' at glance hr silent
    cases glance with
    | nothing => exact absurd rfl silent
    | @collected d job hd hdw hp =>
      obtain ⟨rfl, hreply⟩ := reply?_of_set rfl hc hw hr
      obtain rfl : c = d := Option.some.inj (hc.symm.trans hd)
      exact .inl ⟨job, receives_of_completed hd hdw hp, (Option.some.inj hreply).symm⟩
    | @left d hd hdw hp slot context =>
      obtain ⟨rfl, hreply⟩ := reply?_of_set rfl hc hw hr
      obtain rfl : c = d := Option.some.inj (hc.symm.trans hd)
      refine .inr ⟨receives_of_nothing fun e he _ => ?_, context, (Option.some.inj hreply).symm⟩
      obtain rfl : c = e := Option.some.inj (hc.symm.trans he)
      exact hp

end World
end PacketAuth
