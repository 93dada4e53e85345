import PacketAuth.Proofs.Redaction
import Mathlib.Data.List.Forall2

/-! Hosts that differ in keys, tags and the bytes of buffers only, on an engine that treats these
alike. Every turn leaves them so, unless a read is decided differently on the two. -/
namespace PacketAuth
variable {σ : Type} {R : σ → σ → Prop} {E : Engine σ}

/-- Steps with the same events, alike states, and answers that are the same in some respect. -/
structure Step.Alike {α β : Type} (R : σ → σ → Prop) (f : α → β) (x y : Step σ α) : Prop where
  answer : f x.answer = f y.answer
  state : R x.state y.state
  events : x.events = y.events

/-- An engine that does the same in alike states, whatever keys and bytes it is given. -/
structure Engine.Blind (E : Engine σ) (R : σ → σ → Prop) : Prop where
  createSession : ∀ (key key' : AuthKey) {s s' : σ}, R s s' →
    (E.createSession key s).Alike R id (E.createSession key' s')
  acquire : ∀ {s s' : σ}, R s s' → (E.acquire s).Alike R (Option.map Job.redact) (E.acquire s')
  submit : ∀ {job job' : Job}, job.redact = job'.redact → ∀ (delay now : Nat) {s s' : σ}, R s s' →
    (E.submit job delay now s).Alike R id (E.submit job' delay now s')
  handBack : ∀ (now : Nat) {s s' : σ}, R s s' →
    E.handBack now s = none ∧ E.handBack now s' = none ∨
      ∃ x y, E.handBack now s = some x ∧ E.handBack now s' = some y ∧ x.Alike R Job.redact y
  release : ∀ {job job' : Job}, job.redact = job'.redact → ∀ {s s' : σ}, R s s' →
    R (E.release job s) (E.release job' s')
  cancel : ∀ (id : JobId) {s s' : σ}, R s s' →
    (E.cancel id s).Alike R (Option.map Job.redact) (E.cancel id s')

theorem Engine.Blind.withdraw (blind : E.Blind R) (id : JobId) {s s' : σ} (h : R s s') :
    R (E.withdraw id s) (E.withdraw id s') := by
  obtain ⟨answer, state, -⟩ := blind.cancel id h
  unfold Engine.withdraw
  cases hx : (E.cancel id s).answer with
  | none =>
    rw [eq_none_of_map_eq answer hx]
    exact state
  | some job =>
    obtain ⟨job', hy, same⟩ := exists_some_of_map_eq answer hx
    rw [hy]
    exact blind.release same state

/-- Two hosts with alike engines that differ in keys, tags and the bytes of buffers only. -/
structure Host.Alike (R : σ → σ → Prop) (h h' : Host σ) : Prop where
  engine : R h.engine h'.engine
  services : h.services.map Service.redact = h'.services.map Service.redact
  calls : h.calls.map Call.redact = h'.calls.map Call.redact
  interrupts : h.interrupts = h'.interrupts
  handedBack : h.handedBack.map (Prod.map id Job.redact) =
    h'.handedBack.map (Prod.map id Job.redact)
  log : h.log = h'.log
  now : h.now = h'.now
  isHeld : h.isHeld = h'.isHeld

namespace Host.Alike
variable {h h' : Host σ}

theorem count (a : h.Alike R h') (i : Nat) (k : Stats.Counter) :
    (h.services.modify i (·.count k)).map Service.redact =
      (h'.services.modify i (·.count k)).map Service.redact :=
  map_modify_congr a.services (fun _ _ hs => Service.count_redact hs k) i

theorem openSession (blind : E.Blind R) (a : h.Alike R h') {lane lane' : Lane}
    (hl : lane.redact = lane'.redact) (i : Nat) (key key' : AuthKey) :
    (h.openSession E i key lane).1 = (h'.openSession E i key' lane').1 ∧
      (h.openSession E i key lane).2.Alike R (h'.openSession E i key' lane').2 := by
  obtain ⟨id, session⟩ := Lane.redact_eq_iff.mp hl
  obtain ⟨answer, state, events⟩ := blind.createSession key key' a.engine
  rw [Host.openSession, Host.openSession, session, id]
  cases lane'.session with
  | some handle => exact ⟨rfl, a⟩
  | none =>
    simp only [onEngine, show (E.createSession key h.engine).answer = _ from answer]
    cases (E.createSession key' h'.engine).answer with
    | ok handle =>
      refine ⟨rfl, { a with engine := state, services := ?_, log := ?_ }⟩
      · refine map_modify_congr (map_modify_congr a.services (fun _ _ hs => ?_) i)
          (fun _ _ hs => Service.count_redact hs _) i
        exact Service.updateLane_redact (fun l l' h => by simp_all [Lane.redact]) hs _
      · simp [emit, Host.count, updateService, events, a.log]
    | error e =>
      refine ⟨rfl, { a with engine := state, services := a.count i _, log := ?_ }⟩
      simp [emit, Host.count, updateService, events, a.log]

theorem calls_length (a : h.Alike R h') : h.calls.length = h'.calls.length := by
  simpa using congrArg List.length a.calls

theorem submitJob (blind : E.Blind R) (a : h.Alike R h') {s s' : Service}
    (hs : s.redact = s'.redact) {r r' : Request} (hr : r.redact = r'.redact) {job job' : Job} (hj : job.redact = job'.redact)
    (regions : Regions) (session : SessionHandle) :
    (h.submitJob E s r regions session job).1 = (h'.submitJob E s' r' regions session job').1 ∧
      (h.submitJob E s r regions session job).2.Alike R
        (h'.submitJob E s' r' regions session job').2 := by
  obtain ⟨-, -, -, -, -, interrupt⟩ := Request.redact_eq_iff.mp hr
  rw [submitJob_eq, submitJob_eq, a.calls_length, a.now]
  have filled : (r.fill s regions session h'.calls.length job).redact =
      (r'.fill s' regions session h'.calls.length job').redact :=
    Request.fill_redact hr hj regions session h'.calls.length
  have submitted := blind.submit filled 0 h'.now a.engine
  refine ⟨rfl, { a with
    engine := submitted.state
    calls := ?_
    interrupts := ?_
    log := ?_
    now := rfl }⟩
  · rw [List.map_append, List.map_append, a.calls]
    exact congrArg _ (congrArg (fun c => [c]) (Request.call_redact hs hr hj regions h'.now))
  · simp only [Request.registered, interrupt, a.interrupts]
  · simp only [submitted.events, a.log]

theorem enter (blind : E.Blind R) (a : h.Alike R h') {s s' : Service} (hs : s.redact = s'.redact)
    {r r' : Request} (hr : r.redact = r'.redact) :
    (h.enter E s r).1 = (h'.enter E s' r').1 ∧ (h.enter E s r).2.Alike R (h'.enter E s' r').2 := by
  obtain ⟨service, lane, -, -, length, interrupt⟩ := Request.redact_eq_iff.mp hr
  have prepared := Service.prepare_congr hs hr
  rw [Host.enter, Host.enter]
  cases hp : s.prepare r with
  | error f =>
    rw [eq_error_of_map_eq prepared hp]
    refine ⟨rfl, { a with services := ?_, log := ?_ }⟩
    · rw [service]
      exact a.count r'.service .malformed
    · simp [emit, Host.count, updateService, lane, length, a.log]
  | ok found =>
    obtain ⟨lane₁, regions⟩ := found
    obtain ⟨⟨lane₂, regions'⟩, hp', same⟩ := exists_ok_of_map_eq prepared hp
    obtain ⟨hl, rfl⟩ : lane₁.redact = lane₂.redact ∧ regions = regions' := Prod.mk.inj same
    rw [hp', service]
    obtain ⟨answer, opened⟩ := a.openSession blind hl r'.service s.key s'.key
    dsimp only
    generalize h.openSession E r'.service s.key lane₁ = x at answer opened
    generalize h'.openSession E r'.service s'.key lane₂ = y at answer opened
    obtain ⟨result, o⟩ := x
    obtain ⟨result', o'⟩ := y
    obtain rfl : result = result' := answer
    cases result with
    | error f => exact ⟨rfl, opened⟩
    | ok session =>
      dsimp only at opened
      obtain ⟨answer, state, events⟩ := blind.acquire opened.engine
      simp only [onEngine]
      cases hx : (E.acquire o.engine).answer with
      | none =>
        rw [eq_none_of_map_eq answer hx, lane]
        refine ⟨rfl, { opened with engine := state, services := opened.count _ _, log := ?_ }⟩
        simp only [Host.count, updateService, events, opened.log]
      | some job =>
        obtain ⟨job', hy, hj⟩ := exists_some_of_map_eq answer hx
        rw [hy]
        have acquired : Host.Alike R
            { o with
              engine := (E.acquire o.engine).state
              log := (E.acquire o.engine).events.reverse ++ o.log }
            { o' with
              engine := (E.acquire o'.engine).state
              log := (E.acquire o'.engine).events.reverse ++ o'.log } :=
          { opened with engine := state, log := by simp only [events, opened.log] }
        obtain ⟨ticket, submitted⟩ := acquired.submitJob blind hs hr hj regions session
        exact ⟨congrArg Except.ok ticket, submitted⟩

theorem install (a : h.Alike R h') {b b' : Builder} (hb : b.redact = b'.redact) :
    (h.install b).1.map (·.lanes.length) = (h'.install b').1.map (·.lanes.length) ∧
      (h.install b).2.Alike R (h'.install b').2 := by
  have events : b.events = b'.events := by rw [← b.events_redact, hb, b'.events_redact]
  have built : b.build.map Service.redact = b'.build.map Service.redact := by
    rw [← b.build_redact, hb, b'.build_redact]
  have log : b.events.reverse ++ h.log = b'.events.reverse ++ h'.log := by rw [events, a.log]
  rw [Host.install, Host.install]
  cases hx : b.build with
  | error e =>
    rw [eq_error_of_map_eq built hx]
    exact ⟨rfl, { a with log }⟩
  | ok s =>
    obtain ⟨s', hy, hs⟩ := exists_ok_of_map_eq built hx
    rw [hy]
    refine ⟨?_, { a with log, services := ?_ }⟩
    · have lanes := congrArg List.length (Service.redact_eq_iff.mp hs).2.1
      simpa [Except.map] using lanes
    · simp [a.services, hs]

theorem ensureSession (blind : E.Blind R) (a : h.Alike R h') {s s' : Service}
    (hs : s.redact = s'.redact) (i : Nat) (l : LaneId) :
    (h.ensureSession E i s l).1 = (h'.ensureSession E i s' l).1 ∧
      (h.ensureSession E i s l).2.Alike R (h'.ensureSession E i s' l).2 := by
  have lanes : (s.lane l).map Lane.redact = (s'.lane l).map Lane.redact := by
    rw [← s.lane_redact, hs, s'.lane_redact]
  rw [Host.ensureSession, Host.ensureSession]
  cases hx : s.lane l with
  | error f =>
    rw [eq_error_of_map_eq lanes hx]
    exact ⟨rfl, a⟩
  | ok lane =>
    obtain ⟨lane', hy, hl⟩ := exists_ok_of_map_eq lanes hx
    rw [hy]
    exact a.openSession blind hl i s.key s'.key

theorem setCall (a : h.Alike R h') (ticket : Nat) {c c' : Call} (hc : c.redact = c'.redact) :
    (h.calls.set ticket c).map Call.redact = (h'.calls.set ticket c').map Call.redact := by
  rw [List.map_set, List.map_set, a.calls, hc]

theorem finish (blind : E.Blind R) (a : h.Alike R h') {c c' : Call} (hc : c.redact = c'.redact)
    {job job' : Job} (hj : job.redact = job'.redact) (hd : c.Agree job c' job') (ticket : Nat) :
    (h.finish E ticket c job).Alike R (h'.finish E ticket c' job') := by
  obtain ⟨reply, -, event⟩ := Call.ending_redact hc hj hd
  have same := Call.redact_eq_iff.mp hc
  rw [Host.finish_eq, Host.finish_eq, ← (Request.redact_eq_iff.mp same.1).1]
  exact { a with
    engine := blind.release hj a.engine
    services := map_modify_congr a.services (fun _ _ hs => Call.credit_redact hc hj hd hs) _
    calls := a.setCall ticket (Call.reply_redact hc reply)
    log := by rw [event, a.log] }

theorem leave (blind : E.Blind R) (a : h.Alike R h') {c c' : Call} (hc : c.redact = c'.redact)
    (ticket : Nat) (reason : CancelReason) :
    (h.leave E ticket c reason).Alike R (h'.leave E ticket c' reason) := by
  obtain ⟨request, -, -, job, -⟩ := Call.redact_eq_iff.mp hc
  obtain ⟨service, lane, -, buffer, -⟩ := Request.redact_eq_iff.mp request
  rw [Host.leave_eq, Host.leave_eq]
  refine { a with
    engine := ?_
    services := ?_
    calls := a.setCall ticket (Call.reply_redact hc ?_)
    log := ?_ }
  · rw [job]
    exact blind.withdraw c'.job a.engine
  · rw [service]
    exact a.count _ _
  · simp [Reply.redact, Reply.failed, blanked_congr, buffer]
  · rw [job, lane, (blind.cancel c'.job a.engine).events, a.log]

/-- What two waiting calls find in their slots when both look is decided alike. -/
def LooksAgree (h h' : Host σ) (ticket : Nat) : Prop :=
  ∀ c c' job job', h.calls[ticket]? = some c → h'.calls[ticket]? = some c' →
    c.isWaiting = true → c.slot = .completed job → c'.slot = .completed job' →
      c.Agree job c' job'

theorem look (blind : E.Blind R) (a : h.Alike R h') (ticket : Nat) (hd : LooksAgree h h' ticket) :
    (h.look E ticket).Alike R (h'.look E ticket) := by
  rw [Host.look, Host.look]
  cases hx : h.calls[ticket]? with
  | none =>
    rw [getElem?_eq_none_of_map_eq a.calls hx]
    exact a
  | some c =>
    obtain ⟨c', hy, hc⟩ := exists_getElem?_of_map_eq a.calls hx
    rw [hy]
    dsimp only
    obtain ⟨request, -, -, -, deadline, slot, -⟩ := Call.redact_eq_iff.mp hc
    have waiting : c.isWaiting = c'.isWaiting := by
      rw [← c.isWaiting_redact, hc, c'.isWaiting_redact]
    have reason : (c.request.interrupt.bind fun i => (h.interrupts i).reason) =
        c'.request.interrupt.bind fun i => (h'.interrupts i).reason := by
      rw [(Request.redact_eq_iff.mp request).2.2.2.2.2, a.interrupts]
    have expired : c.deadline.any (· ≤ h.now) = c'.deadline.any (· ≤ h'.now) := by
      rw [deadline, a.now]
    rw [waiting, reason, expired]
    split
    · rename_i hw
      rcases Slot.redact_eq slot with ⟨found, found', hs, hs', hj⟩ | ⟨same, elsewhere⟩
      · have agree := hd c c' found found' hx hy (waiting.trans hw) hs hs'
        have taken : ({ c with slot := .taken } : Call).redact =
            ({ c' with slot := .taken } : Call).redact := Call.slot_redact hc rfl
        rw [hs, hs']
        exact a.finish blind taken hj agree ticket
      · have nothing : ∀ reason expired job slot,
            c'.slot.look reason expired ≠ (some (.completed job), slot) := by
          intro reason expired job slot
          rw [← same]
          cases hs : c.slot with
          | completed found => exact absurd hs (elsewhere found)
          | pending | taken | abandoned => cases reason <;> cases expired <;> simp [Slot.look]
        rw [same]
        split
        · exact a
        · rename_i found
          exact absurd found (nothing _ _ _ _)
        · rename_i reason slot _
          have left : ({ c with slot } : Call).redact = ({ c' with slot } : Call).redact :=
            Call.slot_redact hc rfl
          exact a.leave blind left ticket reason
    · exact a

theorem isEngineInUse (a : h.Alike R h') : h.isEngineInUse = h'.isEngineInUse := by
  have services (h : Host σ) : h.services.any Service.isHeld =
      (h.services.map Service.redact).any Service.isHeld := by
    rw [List.any_map]
    rfl
  have calls (h : Host σ) : h.calls.any Call.isWaiting =
      (h.calls.map Call.redact).any Call.isWaiting := by
    rw [List.any_map]
    exact congrArg h.calls.any (funext fun c => c.isWaiting_redact.symm)
  rw [Host.isEngineInUse, Host.isEngineInUse, a.isHeld, services h, services h', a.services,
    calls h, calls h', a.calls]

theorem emit (a : h.Alike R h') (e : Event) : (h.emit e).Alike R (h'.emit e) :=
  { a with log := by rw [Host.emit, Host.emit, a.log] }

theorem refuse (blind : E.Blind R) (a : h.Alike R h') {job job' : Job}
    (hj : job.redact = job'.redact) :
    Host.Alike R
      (let h := h.emit (.abandonedReleased job.id)
      if h.isEngineInUse then h.mapEngine (E.release job) else h)
      (let h' := h'.emit (.abandonedReleased job'.id)
      if h'.isEngineInUse then h'.mapEngine (E.release job') else h') := by
  have refused := a.emit (.abandonedReleased job'.id)
  dsimp only
  rw [(Job.redact_eq_iff.mp hj).1, refused.isEngineInUse]
  split
  · exact { refused with engine := blind.release hj refused.engine }
  · exact refused

theorem resubmit (blind : E.Blind R) (a : h.Alike R h') {c c' : Call} (hc : c.redact = c'.redact)
    {job job' : Job} (hj : job.redact = job'.redact) :
    Host.Alike R
      (let g := (h.count c.request.service .busyRetries).emit (.resubmitting job.id job.retries)
      (g.onEngine (E.submit job c.retry.backoff g.now)).2)
      (let g' := (h'.count c'.request.service .busyRetries).emit
        (.resubmitting job'.id job'.retries)
      (g'.onEngine (E.submit job' c'.retry.backoff g'.now)).2) := by
  obtain ⟨request, -, retry, -⟩ := Call.redact_eq_iff.mp hc
  obtain ⟨id, -, -, -, -, retries, -⟩ := Job.redact_eq_iff.mp hj
  have submitted := blind.submit hj c'.retry.backoff h'.now a.engine
  dsimp only [onEngine, Host.emit, Host.count, updateService]
  rw [retry, a.now, id, retries, (Request.redact_eq_iff.mp request).1]
  exact { a with
    engine := submitted.state
    services := a.count _ _
    log := by rw [submitted.events, a.log]
    now := rfl }

/-- Two calls find alike jobs in their slots and look. -/
theorem collect (blind : E.Blind R) (a : h.Alike R h') {c c' : Call} (hc : c.redact = c'.redact)
    {job job' : Job} (hj : job.redact = job'.redact) (ticket : Nat)
    (hd : c.isWaiting = true → c.Agree job c' job') :
    ((h.setCall ticket { c with slot := .completed job }).look E ticket).Alike R
      ((h'.setCall ticket { c' with slot := .completed job' }).look E ticket) := by
  have delivered : ({ c with slot := .completed job } : Call).redact =
      ({ c' with slot := .completed job' } : Call).redact :=
    Call.slot_redact hc (congrArg Slot.completed hj)
  have left : Host.Alike R (h.setCall ticket { c with slot := .completed job })
      (h'.setCall ticket { c' with slot := .completed job' }) :=
    { a with calls := a.setCall ticket delivered }
  refine left.look blind ticket fun d d' j j' hget hget' hw hs hs' => ?_
  obtain rfl := eq_of_getElem?_set_self hget
  obtain rfl := eq_of_getElem?_set_self hget'
  obtain rfl : job = j := Slot.completed.inj hs
  obtain rfl : job' = j' := Slot.completed.inj hs'
  exact hd hw

/-- What the calls of two jobs would do if they got them is decided alike. -/
def DeliversAgree (h h' : Host σ) (job job' : Job) : Prop :=
  ∀ ticket c c' k k' exhausted exhausted', job.recipient = some (.call ticket) →
    h.calls[ticket]? = some c → h'.calls[ticket]? = some c' → c.isWaiting = true →
      c.slot = .pending → c.react job = .settle k exhausted →
        c'.react job' = .settle k' exhausted' → c.Agree k c' k'

theorem settle (blind : E.Blind R) (a : h.Alike R h') {c c' : Call} (hc : c.redact = c'.redact)
    {job job' : Job} (hj : job.redact = job'.redact) (ticket : Nat)
    (hd : ∀ k k' exhausted exhausted', c.isWaiting = true → c.slot = .pending →
      c.react job = .settle k exhausted → c'.react job' = .settle k' exhausted' → c.Agree k c' k') :
    (h.settle E ticket c job).Alike R (h'.settle E ticket c' job') := by
  obtain ⟨-, -, -, -, -, slot, -⟩ := Call.redact_eq_iff.mp hc
  have reaction := Call.react_redact hc hj
  rw [Host.settle, Host.settle]
  cases hr : c.react job with
  | resubmit k =>
    cases hr' : c'.react job' with
    | settle => simp [hr, hr', Reaction.redact] at reaction
    | resubmit k' =>
      have hk : k.redact = k'.redact := by simpa [hr, hr', Reaction.redact] using reaction
      exact a.resubmit blind hc hk
  | settle k exhausted =>
    cases hr' : c'.react job' with
    | resubmit => simp [hr, hr', Reaction.redact] at reaction
    | settle k' exhausted' =>
      obtain ⟨hk, rfl⟩ : k.redact = k'.redact ∧ exhausted = exhausted' := by
        simpa [hr, hr', Reaction.redact] using reaction
      obtain ⟨id, -, -, -, -, retries, -⟩ := Job.redact_eq_iff.mp hk
      have noted : Host.Alike R
          (if exhausted then h.noteExhausted k else h)
          (if exhausted then h'.noteExhausted k' else h') := by
        rw [Host.noteExhausted, Host.noteExhausted, id, retries]
        split
        · exact a.emit _
        · exact a
      dsimp only
      generalize (if exhausted then h.noteExhausted k else h) = g at noted
      generalize (if exhausted then h'.noteExhausted k' else h') = g' at noted
      rcases Slot.redact_eq slot with ⟨found, found', hs, hs', -⟩ | ⟨same, elsewhere⟩
      · rw [hs, hs']
        exact noted.refuse blind hk
      · rw [← same]
        cases hs : c.slot with
        | completed found => exact absurd hs (elsewhere found)
        | taken | abandoned => exact noted.refuse blind hk
        | pending =>
          refine noted.collect blind hc hk ticket fun hw => ?_
          exact hd k k' exhausted exhausted hw hs hr hr'

theorem deliver (blind : E.Blind R) (a : h.Alike R h') {job job' : Job}
    (hj : job.redact = job'.redact) (hd : DeliversAgree h h' job job') :
    (h.deliver E job).Alike R (h'.deliver E job') := by
  have recipient := (Job.redact_eq_iff.mp hj).2.2.2.2.2.2
  rw [Host.deliver, Host.deliver, ← recipient]
  split
  · exact a
  · rename_i i _
    refine { a with handedBack := ?_ }
    rw [List.map_append, List.map_append, a.handedBack]
    exact congrArg _ (congrArg (fun j => [(i, j)]) hj)
  · rename_i ticket hrecipient
    cases hx : h.calls[ticket]? with
    | none =>
      rw [getElem?_eq_none_of_map_eq a.calls hx]
      exact a
    | some c =>
      obtain ⟨c', hy, hc⟩ := exists_getElem?_of_map_eq a.calls hx
      rw [hy]
      exact a.settle blind hc hj ticket fun k k' exhausted exhausted' hw hs hr hr' =>
        hd ticket c c' k k' exhausted exhausted' hrecipient hx hy hw hs hr hr'

end Host.Alike

section Scripts
variable {κ : Type}

/-- A turn without the key of its builder and the bytes of its request. -/
def Turn.redact : Turn κ → Turn κ
  | .install b => .install b.redact
  | .enter r => .enter r.redact
  | t => t

/-- Turns that differ in keys and bytes only are the same but for a builder or a request. -/
theorem Turn.redact_eq {t t' : Turn κ} (h : t.redact = t'.redact) :
    (∃ b b', t = .install b ∧ t' = .install b' ∧ b.redact = b'.redact) ∨
      (∃ r r', t = .enter r ∧ t' = .enter r' ∧ r.redact = r'.redact) ∨ t = t' := by
  cases t <;> cases t' <;> simp_all [redact]

namespace Moment

/-- What a read decides that gets its tag in a turn. -/
def decision (m : Moment σ κ) : Option Bool := m.receives.bind fun (_, c, job) => c.decision job

/-- If a read is decided in both turns, then it is decided alike. -/
def Agree (m m' : Moment σ κ) : Prop := ∀ d ∈ m.decision, ∀ d' ∈ m'.decision, d = d'

end Moment

/-- Controls of an engine that do the same in alike states, whatever keys and bytes come. -/
structure Controls.Blind (C : Controls σ κ) (R : σ → σ → Prop) : Prop where
  engine : C.engine.Blind R
  obey : ∀ (order : κ) {s s' : σ}, R s s' → (C.obey order s).Alike R id (C.obey order s')

/-- Two worlds that differ in keys, tags and the bytes of buffers only. -/
structure World.Alike (R : σ → σ → Prop) (w w' : World σ) : Prop where
  host : w.host.Alike R w'.host
  hand : w.hand.map Job.redact = w'.hand.map Job.redact

/-- Two turns that ask for the same, give the same answer and leave worlds alike. -/
structure Moment.Alike (R : σ → σ → Prop) (m m' : Moment σ κ) : Prop where
  turn : m.turn.redact = m'.turn.redact
  answer : m.answer = m'.answer
  after : m.after.Alike R m'.after

namespace World
variable {C : Controls σ κ} {w w' : World σ}

theorem deliversAgree_of_moment {place : Nat} {job job' : Job} (hj : w.hand[place]? = some job)
    (hj' : w'.hand[place]? = some job') (a : w.Alike R w') (same : job.redact = job'.redact)
    (hd : (w.moment C (.deliver place)).Agree (w'.moment C (.deliver place))) :
    Host.Alike.DeliversAgree w.host w'.host job job' := by
  intro ticket c c' k k' exhausted exhausted' hr hc hc' hw hs hk hk'
  obtain ⟨c'', hc'', alike⟩ := exists_getElem?_of_map_eq a.host.calls hc
  obtain rfl : c' = c'' := Option.some.inj (hc'.symm.trans hc'')
  have hr' : job'.recipient = some (.call ticket) := by
    rw [← (Job.redact_eq_iff.mp same).2.2.2.2.2.2, hr]
  have hw' : c'.isWaiting = true := by rw [← c'.isWaiting_redact, ← alike, c.isWaiting_redact, hw]
  have hs' : c'.slot = .pending := by
    have slots := (Call.redact_eq_iff.mp alike).2.2.2.2.2.1
    rw [hs] at slots
    cases h : c'.slot <;> simp_all [Slot.redact]
  have decided : (w.moment C (.deliver place)).decision = c.decision k := by
    simp [Moment.decision, Moment.receives, returning_eq_some hj hr hc, hk, hw, hs]
  have decided' : (w'.moment C (.deliver place)).decision = c'.decision k' := by
    simp [Moment.decision, Moment.receives, returning_eq_some hj' hr' hc', hk', hw', hs']
  rwa [Moment.Agree, decided, decided'] at hd

theorem looksAgree_of_moment {ticket : Nat} (a : w.Alike R w')
    (hd : (w.moment C (.look ticket)).Agree (w'.moment C (.look ticket))) :
    Host.Alike.LooksAgree w.host w'.host ticket := by
  intro c c' job job' hc hc' hw hs hs'
  obtain ⟨c'', hc'', alike⟩ := exists_getElem?_of_map_eq a.host.calls hc
  obtain rfl : c' = c'' := Option.some.inj (hc'.symm.trans hc'')
  have hw' : c'.isWaiting = true := by rw [← c'.isWaiting_redact, ← alike, c.isWaiting_redact, hw]
  have decided : (w.moment C (.look ticket)).decision = c.decision job := by
    rw [Moment.decision, receives_of_completed hc hw hs]
    rfl
  have decided' : (w'.moment C (.look ticket)).decision = c'.decision job' := by
    rw [Moment.decision, receives_of_completed hc' hw' hs']
    rfl
  rwa [Moment.Agree, decided, decided'] at hd

theorem Alike.install (a : w.Alike R w') {b b' : Builder} (hb : b.redact = b'.redact) :
    (w.turn C (.install b)).1 = (w'.turn C (.install b')).1 ∧
      (w.turn C (.install b)).2.Alike R (w'.turn C (.install b')).2 := by
  obtain ⟨lanes, installed⟩ := a.host.install hb
  exact ⟨congrArg Answer.installed lanes, installed, a.hand⟩

theorem Alike.enter (blind : C.Blind R) (a : w.Alike R w') {r r' : Request}
    (hr : r.redact = r'.redact) :
    (w.turn C (.enter r)).1 = (w'.turn C (.enter r')).1 ∧
      (w.turn C (.enter r)).2.Alike R (w'.turn C (.enter r')).2 := by
  rw [turn, turn, ← (Request.redact_eq_iff.mp hr).1]
  cases hx : w.host.services[r.service]? with
  | none =>
    rw [getElem?_eq_none_of_map_eq a.host.services hx]
    exact ⟨rfl, a⟩
  | some s =>
    obtain ⟨s', hy, hs⟩ := exists_getElem?_of_map_eq a.host.services hx
    rw [hy]
    obtain ⟨ticket, entered⟩ := a.host.enter blind.engine hs hr
    exact ⟨congrArg Answer.entered ticket, entered, a.hand⟩

theorem Alike.ensureSession (blind : C.Blind R) (a : w.Alike R w') (i : Nat) (l : LaneId) :
    (w.turn C (.ensureSession i l)).1 = (w'.turn C (.ensureSession i l)).1 ∧
      (w.turn C (.ensureSession i l)).2.Alike R (w'.turn C (.ensureSession i l)).2 := by
  rw [turn, turn]
  cases hx : w.host.services[i]? with
  | none =>
    rw [getElem?_eq_none_of_map_eq a.host.services hx]
    exact ⟨rfl, a⟩
  | some s =>
    obtain ⟨s', hy, hs⟩ := exists_getElem?_of_map_eq a.host.services hx
    rw [hy]
    obtain ⟨answer, opened⟩ := a.host.ensureSession blind.engine hs i l
    exact ⟨congrArg Answer.session answer, opened, a.hand⟩

theorem Alike.take (blind : C.Blind R) (a : w.Alike R w') :
    (w.turn C .take).1 = (w'.turn C .take).1 ∧
      (w.turn C .take).2.Alike R (w'.turn C .take).2 := by
  have taken := blind.engine.handBack w'.host.now a.host.engine
  rw [turn, turn, a.host.now]
  rcases taken with ⟨hx, hy⟩ | ⟨x, y, hx, hy, same⟩
  · rw [hx, hy]
    exact ⟨rfl, a⟩
  · rw [hx, hy]
    refine ⟨rfl, { a.host with engine := same.state, log := ?_ }, ?_⟩
    · simp only [same.events, a.host.log]
    · simp only [List.map_append, a.hand, List.map_cons, List.map_nil, same.answer]

theorem Alike.deliver (blind : C.Blind R) (a : w.Alike R w') (place : Nat)
    (hd : (w.moment C (.deliver place)).Agree (w'.moment C (.deliver place))) :
    (w.turn C (.deliver place)).1 = (w'.turn C (.deliver place)).1 ∧
      (w.turn C (.deliver place)).2.Alike R (w'.turn C (.deliver place)).2 := by
  rw [turn, turn]
  cases hx : w.hand[place]? with
  | none =>
    rw [getElem?_eq_none_of_map_eq a.hand hx]
    exact ⟨rfl, a⟩
  | some job =>
    obtain ⟨job', hy, hj⟩ := exists_getElem?_of_map_eq a.hand hx
    rw [hy]
    have delivered := a.host.deliver blind.engine hj (deliversAgree_of_moment hx hy a hj hd)
    refine ⟨rfl, delivered, ?_⟩
    dsimp only
    rw [← List.eraseIdx_map, a.hand, List.eraseIdx_map]

/-- A turn on alike worlds leaves them alike and gives one answer, unless it decides a read one way
here and the other way there. -/
theorem Alike.turn (blind : C.Blind R) (a : w.Alike R w') {t t' : Turn κ}
    (ht : t.redact = t'.redact) (hd : (w.moment C t).Agree (w'.moment C t')) :
    (w.turn C t).1 = (w'.turn C t').1 ∧ (w.turn C t).2.Alike R (w'.turn C t').2 := by
  rcases Turn.redact_eq ht with ⟨b, b', rfl, rfl, hb⟩ | ⟨r, r', rfl, rfl, hr⟩ | rfl
  · exact a.install hb
  · exact a.enter blind hr
  · cases t with
    | install b => exact a.install rfl
    | enter r => exact a.enter blind rfl
    | ensureSession i l => exact a.ensureSession blind i l
    | take => exact a.take blind
    | deliver place => exact a.deliver blind place hd
    | look ticket =>
      have looked := a.host.look blind.engine ticket (looksAgree_of_moment a hd)
      exact ⟨rfl, looked, a.hand⟩
    | pass instant =>
      exact ⟨rfl, { a.host with now := congrArg (max · instant) a.host.now }, a.hand⟩
    | trigger i reason =>
      refine ⟨rfl, { a.host with interrupts := ?_ }, a.hand⟩
      simp only [World.turn, Host.setInterrupt, a.host.interrupts]
    | reset i =>
      refine ⟨rfl, { a.host with interrupts := ?_ }, a.hand⟩
      simp only [World.turn, Host.resetInterrupt, Host.setInterrupt, a.host.interrupts]
    | dropService i =>
      refine ⟨rfl, { a.host with services := ?_ }, a.hand⟩
      apply map_modify_congr a.host.services
      intro s s' hs
      rw [Service.redact_eq_iff] at hs ⊢
      exact ⟨hs.1, hs.2.1, hs.2.2.1, rfl⟩
    | change order =>
      have obeyed := blind.obey order a.host.engine
      refine ⟨rfl, { a.host with engine := obeyed.state, log := ?_ }, a.hand⟩
      simp only [World.turn, Host.onEngine, obeyed.events, a.host.log]

/-- So does a script, and it gives the same answers on the way. -/
theorem Alike.moments (blind : C.Blind R) (a : w.Alike R w') {ts ts' : List (Turn κ)}
    (ht : ts.map Turn.redact = ts'.map Turn.redact)
    (decided : List.Forall₂ Moment.Agree (w.moments C ts) (w'.moments C ts')) :
    List.Forall₂ (Moment.Alike R) (w.moments C ts) (w'.moments C ts') := by
  induction ts generalizing w w' ts' with
  | nil =>
    obtain rfl : ts' = [] := by simpa using ht.symm
    exact .nil
  | cons t ts ih =>
    cases ts' with
    | nil => simp at ht
    | cons t' ts' =>
      obtain ⟨first, rest⟩ := List.cons.inj ht
      rw [World.moments, World.moments, List.forall₂_cons] at decided
      obtain ⟨answer, after⟩ := a.turn blind first decided.1
      exact .cons ⟨first, answer, after⟩ (ih after rest decided.2)

end World
end Scripts

end PacketAuth
