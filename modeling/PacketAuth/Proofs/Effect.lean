import PacketAuth.Proofs.World

/-! Everything that a turn on a host can do. Each turn is a short sequence of effects, and each
effect says in full what becomes of the engine, the services, the calls and the log. -/
namespace PacketAuth

/-- How a call ends that got its job back: its reply, the counter and the event for it, and the
tag that its lane keeps. -/
structure Ending where
  reply : Reply
  counter : Stats.Counter
  cached : Option Tag := none
  event : Option Event := none

/-- Only a job that is done can carry a tag; any other failed in the engine. -/
theorem Job.verdict_of_not_done {job : Job} (h : job.outcome ≠ .done) :
    job.verdict = .error ⟨.engineFailed job.outcome.failureCode, none⟩ := by
  unfold Job.verdict
  split
  · rename_i hdone
    exact absurd hdone h
  · rfl

theorem Job.verdict_error {job : Job} {f : Failure} (h : job.verdict = .error f) :
    ∃ code, f.kind = .engineFailed code := by
  unfold Job.verdict at h
  split at h
  · split at h <;> cases h
    exact ⟨_, rfl⟩
  · cases h
    exact ⟨_, rfl⟩

namespace Call

def ending (c : Call) (job : Job) : Ending :=
  let r := c.request
  match job.verdict with
  | .error f =>
    ⟨.failed r f, .engineFailures, none,
      if job.outcome = .done then none
      else some (.jobFailed r.lane job.id job.outcome.failureCode)⟩
  | .ok tag =>
    match r.command with
    | .write => ⟨⟨.ok (), c.regions.tag.write tag.bytes r.buffer⟩, .generated, none, none⟩
    | .read =>
      if tag.agrees (c.regions.tag.read r.buffer) then
        ⟨⟨.ok (), r.buffer⟩, .verifiedOk, some tag, none⟩
      else
        ⟨.failed r ⟨.authenticationMismatch, some r.lane.text⟩, .verifiedFail, some tag,
          some (.tagMismatch r.lane r.length)⟩

theorem ending_of_error (c : Call) {job : Job} {f : Failure} (h : job.verdict = .error f) :
    (c.ending job).reply = .failed c.request f ∧ (c.ending job).counter = .engineFailures := by
  simp [ending, h]

theorem ending_of_write {c : Call} {job : Job} {tag : Tag} (h : job.verdict = .ok tag)
    (hc : c.request.command = .write) :
    c.ending job =
      ⟨⟨.ok (), c.regions.tag.write tag.bytes c.request.buffer⟩, .generated, none, none⟩ := by
  simp [ending, h, hc]

theorem ending_of_read {c : Call} {job : Job} {tag : Tag} (h : job.verdict = .ok tag)
    (hc : c.request.command = .read) :
    c.ending job =
      if tag.agrees (c.regions.tag.read c.request.buffer) then
        ⟨⟨.ok (), c.request.buffer⟩, .verifiedOk, some tag, none⟩
      else
        ⟨.failed c.request ⟨.authenticationMismatch, some c.request.lane.text⟩, .verifiedFail,
          some tag, some (.tagMismatch c.request.lane c.request.length)⟩ := by
  simp [ending, h, hc]

/-- A job that is settled with a call that waits is as it came, unless it was busy too often. -/
theorem settle_of_pending {c : Call} {job job' : Job} {exhausted : Bool} (hp : c.slot = .pending)
    (h : c.react job = .settle job' exhausted) :
    job.outcome ≠ .busy ∧ job' = job ∨
      job.outcome = .busy ∧ job' = job.complete (.failed Code.again) := by
  simp only [react, hp, Slot.isAbandoned] at h
  split at h
  · rename_i hbusy
    split at h
    · cases h
    · cases h
      exact .inr ⟨hbusy.1, rfl⟩
  · rename_i hbusy
    cases h
    exact .inl ⟨by simpa using hbusy, rfl⟩

/-- A call that waits does not settle with a busy job before its policy is exhausted. -/
theorem settle_of_busy {c : Call} {job job' : Job} {exhausted : Bool} (hp : c.slot = .pending)
    (hb : job.outcome = .busy) (h : c.react job = .settle job' exhausted) :
    c.retry.allows job.retries = false ∧ exhausted = true := by
  rw [react, if_pos ⟨hb, by simp [hp, Slot.isAbandoned]⟩] at h
  split at h
  · cases h
  · rename_i refused
    cases h
    exact ⟨Bool.not_eq_true _ ▸ refused, rfl⟩

theorem react_eq_resubmit {c : Call} {job again : Job} (h : c.react job = .resubmit again) :
    job.outcome = .busy ∧ c.slot.isAbandoned = false ∧ c.retry.allows job.retries = true ∧
      again = job.rearm := by
  unfold react at h
  grind

theorem react_exhausted {c : Call} {job job' : Job} (h : c.react job = .settle job' true) :
    job' = job.complete (.failed Code.again) := by
  unfold react at h
  grind

/-- A job that is not busy is settled as it is. -/
theorem react_of_decided {c : Call} {job : Job} (h : job.outcome ≠ .busy) :
    c.react job = .settle job false :=
  if_neg fun busy => h busy.1

/-- The events that a call may end with. -/
theorem ending_event_cases (c : Call) (job : Job) :
    (c.ending job).event = none ∨
      (c.ending job).event =
        some (.jobFailed c.request.lane job.id job.outcome.failureCode) ∨
      (c.ending job).event = some (.tagMismatch c.request.lane c.request.length) := by
  unfold ending
  dsimp only
  split
  · split <;> simp
  · split
    · exact .inl rfl
    · split <;> simp

/-- What the end of a call leaves behind in its service. -/
def credit (c : Call) (job : Job) (s : Service) : Service :=
  let e := c.ending job
  match e.cached with
  | none => s.count e.counter
  | some tag => (s.updateLane c.request.lane fun l => { l with cachedTag := tag }).count e.counter

/-- A call that ends leaves one count behind. -/
theorem credit_stats (c : Call) (job : Job) (s : Service) :
    (c.credit job s).stats = s.stats.count (c.ending job).counter := by
  unfold credit
  dsimp only
  cases (c.ending job).cached <;> rfl

theorem ending_counter_of_ok {c : Call} {job : Job} {tag : Tag} (h : job.verdict = .ok tag) :
    (c.ending job).counter = .generated ∨ (c.ending job).counter = .verifiedOk ∨
      (c.ending job).counter = .verifiedFail := by
  cases hc : c.request.command with
  | write =>
    rw [ending_of_write h hc]
    exact .inl rfl
  | read =>
    rw [ending_of_read h hc]
    split
    · exact .inr (.inl rfl)
    · exact .inr (.inr rfl)

theorem ending_counter (c : Call) (job : Job) :
    (c.ending job).counter = .engineFailures ∨ (c.ending job).counter = .generated ∨
      (c.ending job).counter = .verifiedOk ∨ (c.ending job).counter = .verifiedFail := by
  cases h : job.verdict with
  | error f => exact .inl (c.ending_of_error h).2
  | ok tag => exact .inr (c.ending_counter_of_ok h)

/-- What a call does not end with is not counted at its end. -/
theorem credit_get {c : Call} {job : Job} {d : Stats.Counter} (h : (c.ending job).counter ≠ d)
    (s : Service) : (c.credit job s).stats.get d = s.stats.get d := by
  rw [credit_stats, Stats.get_count, if_neg h, Nat.add_zero]

/-- No call ends with a retry. -/
theorem credit_retries (c : Call) (job : Job) (s : Service) :
    (c.credit job s).stats.busyRetries = s.stats.busyRetries := by
  refine credit_get (d := .busyRetries) ?_ s
  rcases c.ending_counter job with h | h | h | h <;> rw [h] <;> decide

end Call

/-- The engine after a job was asked back, and released if it came. -/
def Engine.withdraw {σ : Type} (E : Engine σ) (id : JobId) (s : σ) : σ :=
  match (E.cancel id s).answer with
  | none => (E.cancel id s).state
  | some job => E.release job (E.cancel id s).state

namespace Host
variable {σ : Type}

/-- How the wait of a call ends if it looks now. -/
def arrival (h : Host σ) (c : Call) : Option Arrival :=
  (c.slot.look (c.request.interrupt.bind fun i => (h.interrupts i).reason)
    (c.deadline.any (· ≤ h.now))).1

/-- A call that finds no reason to end its wait leaves all as it is. -/
theorem look_of_arrival_none {E : Engine σ} {h : Host σ} {ticket : Nat} {c : Call}
    (hc : h.calls[ticket]? = some c) (ha : h.arrival c = none) : h.look E ticket = h := by
  unfold arrival at ha
  rw [look, hc]
  dsimp only
  split
  · split <;> rename_i heq
    · rfl
    · rw [heq] at ha
      cases ha
    · rw [heq] at ha
      cases ha
  · rfl

/-- A host that holds its engine does not close it. -/
theorem closeUnused_of_held {E : Engine σ} {h : Host σ} (held : h.isHeld = true) :
    h.closeUnused E = h := by
  rw [closeUnused, isEngineInUse, held, Bool.true_or, Bool.true_or, if_pos rfl]

theorem finish_eq (E : Engine σ) (ticket : Nat) (c : Call) (job : Job) (h : Host σ) :
    h.finish E ticket c job =
      { h with
        engine := E.release job h.engine
        services := h.services.modify c.request.service (c.credit job)
        calls := h.calls.set ticket { c with reply := some (c.ending job).reply }
        log := (c.ending job).event.toList ++ h.log } := by
  unfold finish Call.credit Call.ending
  cases job.verdict with
  | error f =>
    by_cases hd : job.outcome = .done <;>
      simp [hd, emit, count, updateService, mapEngine, conclude, setCall]
  | ok tag =>
    cases hc : c.request.command with
    | write => simp [hc, count, updateService, mapEngine, conclude, setCall]
    | read =>
      cases ht : tag.agrees (c.regions.tag.read c.request.buffer) <;>
        simp [hc, ht, emit, count, updateService, mapEngine, conclude, setCall, Lane.checkAndCache,
          List.modify_modify_eq, Function.comp_def]

theorem leave_eq (E : Engine σ) (ticket : Nat) (c : Call) (reason : CancelReason) (h : Host σ) :
    h.leave E ticket c reason =
      { h with
        engine := E.withdraw c.job h.engine
        services := h.services.modify c.request.service (·.count .interrupted)
        calls := h.calls.set ticket
          { c with reply := some (.failed c.request ⟨.waitInterrupted, some reason.text⟩) }
        log := (E.cancel c.job h.engine).events.reverse ++
          .waitInterrupted c.request.lane c.job reason :: h.log } := by
  unfold leave Engine.withdraw
  simp only [onEngine, emit, count, updateService, conclude, setCall, mapEngine]
  cases (E.cancel c.job h.engine).answer <;> rfl

end Host

namespace Request

/-- The job of a request, filled for its call. -/
def fill (r : Request) (s : Service) (regions : Regions) (session : SessionHandle) (ticket : Nat)
    (job : Job) : Job :=
  { job with
    input := regions.maskedPayload r.buffer
    descriptor := some ⟨session, s.key, 0, regions.payload.length, 0⟩
    recipient := some (.call ticket) }

/-- The call that waits for the job of a request. -/
def call (r : Request) (s : Service) (regions : Regions) (job : Job) (now : Nat) : Call :=
  { request := r, regions, retry := s.config.retry, job := job.id
    deadline := s.config.waitTimeout.map (now + ·) }

/-- The interrupts after the wait of a call was registered with the one it was given. -/
def registered (r : Request) (ticket : Nat) (interrupts : Nat → Interrupt) : Nat → Interrupt :=
  match r.interrupt with
  | none => interrupts
  | some i => fun j => if j = i then (interrupts i).register ticket else interrupts j

end Request

namespace World
variable {σ : Type}

/-- What becomes of a job that the engine passes on. -/
inductive Settlement (E : Engine σ) (h : Host σ) (job : Job) : Host σ → Prop
  | strayed (handedBack : List (Nat × Job))
      (hj : ∀ ticket, job.recipient = some (.call ticket) → h.calls[ticket]? = none) :
      Settlement E h job { h with handedBack }
  | resubmitted {ticket : Nat} {c : Call} (hj : job.recipient = some (.call ticket))
      (hc : h.calls[ticket]? = some c) (hb : job.outcome = .busy) (ha : c.slot.isAbandoned = false)
      (hr : c.retry.allows job.retries = true) {submitted : PacketAuth.Step σ Unit}
      (hq : E.submit job.rearm c.retry.backoff h.now h.engine = submitted) :
      Settlement E h job
        { h with
          engine := submitted.state
          services := h.services.modify c.request.service (·.count .busyRetries)
          log := submitted.events.reverse ++ .resubmitting job.id job.rearm.retries :: h.log }
  | finished {job' : Job} {ticket : Nat} {c : Call} {exhausted : Bool}
      (hj : job.recipient = some (.call ticket)) (hc : h.calls[ticket]? = some c)
      (hw : c.isWaiting = true) (hp : c.slot = .pending)
      (hr : c.react job = .settle job' exhausted) :
      Settlement E h job
        { h with
          engine := E.release job' h.engine
          services := h.services.modify c.request.service (c.credit job')
          calls := h.calls.set ticket
            { c with slot := .taken, reply := some (c.ending job').reply }
          log := (c.ending job').event.toList ++
            ((if exhausted then [.retriesExhausted job'.id job'.retries] else []) ++ h.log) }
  /-- The call waits no more, but nobody took the job: it stays in the slot. -/
  | stranded {job' : Job} {ticket : Nat} {c : Call} {exhausted : Bool}
      (hj : job.recipient = some (.call ticket)) (hc : h.calls[ticket]? = some c)
      (hw : c.isWaiting = false) (hp : c.slot = .pending)
      (hr : c.react job = .settle job' exhausted) :
      Settlement E h job
        { h with
          calls := h.calls.set ticket { c with slot := .completed job' }
          log := (if exhausted then [.retriesExhausted job'.id job'.retries] else []) ++ h.log }
  /-- The caller left, or has a job already: the engine gets this one, if it is still in use. -/
  | refused {job' : Job} {ticket : Nat} {c : Call} {exhausted : Bool}
      (hj : job.recipient = some (.call ticket)) (hc : h.calls[ticket]? = some c)
      (hp : c.slot ≠ .pending) (hr : c.react job = .settle job' exhausted) :
      Settlement E h job
        { h with
          engine := if h.isEngineInUse then E.release job' h.engine else h.engine
          log := .abandonedReleased job'.id ::
            ((if exhausted then [.retriesExhausted job'.id job'.retries] else []) ++ h.log) }

/-- The elementary changes of a world. -/
inductive Effect (R : Rules σ) : World σ → World σ → Prop
  | aside (w : World σ) (interrupts : Nat → Interrupt) (now : Nat) :
      Effect R w ⟨{ w.host with interrupts, now }, w.hand⟩
  | installed (w : World σ) {b : Builder} {s : Service} (hb : b.build = .ok s) :
      Effect R w
        ⟨{ w.host with
          services := w.host.services ++ [s]
          log := b.events.reverse ++ w.host.log }, w.hand⟩
  | misconfigured (w : World σ) {b : Builder} {e : ConfigError} (hb : b.build = .error e) :
      Effect R w ⟨{ w.host with log := b.events.reverse ++ w.host.log }, w.hand⟩
  | dropped (w : World σ) (i : Nat) :
      Effect R w
        ⟨{ w.host with services := w.host.services.modify i fun s => { s with isHeld := false } },
          w.hand⟩
  | changed (w : World σ) {step : PacketAuth.Step σ Unit} (h : R.change w.host.engine step) :
      Effect R w ⟨{ w.host with engine := step.state, log := step.events.reverse ++ w.host.log },
        w.hand⟩
  | opened (w : World σ) {i : Nat} {s : Service} {l : LaneId} {lane : Lane} {handle : SessionHandle}
      (hs : w.host.services[i]? = some s) (hl : s.lanes[l.index.toNat]? = some lane)
      (hn : lane.session = none)
      (ha : (R.engine.createSession s.key w.host.engine).answer = .ok handle) :
      Effect R w
        ⟨{ w.host with
          engine := (R.engine.createSession s.key w.host.engine).state
          services := w.host.services.modify i fun s =>
            (s.updateLane lane.id fun l => { l with session := some handle }).count .sessionsCreated
          log := .laneOpened lane.id handle ::
            ((R.engine.createSession s.key w.host.engine).events.reverse ++ w.host.log) }, w.hand⟩
  | notOpened (w : World σ) {i : Nat} {s : Service} {l : LaneId} {lane : Lane} {e : EngineError}
      (hs : w.host.services[i]? = some s) (hl : s.lanes[l.index.toNat]? = some lane)
      (hn : lane.session = none)
      (ha : (R.engine.createSession s.key w.host.engine).answer = .error e) :
      Effect R w
        ⟨{ w.host with
          engine := (R.engine.createSession s.key w.host.engine).state
          services := w.host.services.modify i (·.count .sessionFailures)
          log := .laneNotOpened lane.id e ::
            ((R.engine.createSession s.key w.host.engine).events.reverse ++ w.host.log) }, w.hand⟩
  | rejected (w : World σ) {s : Service} {r : Request} {f : Failure}
      (hs : w.host.services[r.service]? = some s) (hp : s.prepare r = .error f) :
      Effect R w
        ⟨{ w.host with
          services := w.host.services.modify r.service (·.count .malformed)
          log := .requestRejected r.lane r.length f :: w.host.log }, w.hand⟩
  | starved (w : World σ) {s : Service} {r : Request} (hs : w.host.services[r.service]? = some s)
      (ha : (R.engine.acquire w.host.engine).answer = none) :
      Effect R w
        ⟨{ w.host with
          engine := (R.engine.acquire w.host.engine).state
          services := w.host.services.modify r.service (·.count .engineFailures)
          log := (R.engine.acquire w.host.engine).events.reverse ++ w.host.log }, w.hand⟩
  /-- The session was open before, or the engine has just opened it. -/
  | admitted (w : World σ) {s : Service} {r : Request} {lane : Lane} {regions : Regions}
      {session : SessionHandle} {job : Job} (hs : w.host.services[r.service]? = some s)
      (hl : s.lanes[r.lane.index.toNat]? = some lane)
      (hr : s.config.layout.split r.buffer.length r.length = .ok regions)
      (ho : lane.session = some session ∨
        ∃ e, (R.engine.createSession s.key e).answer = .ok session ∧
          (R.engine.createSession s.key e).state = w.host.engine)
      (ha : (R.engine.acquire w.host.engine).answer = some job)
      {submitted : PacketAuth.Step σ Unit}
      (hq : R.engine.submit (r.fill s regions session w.host.calls.length job) 0 w.host.now
        (R.engine.acquire w.host.engine).state = submitted) :
      Effect R w
        ⟨{ w.host with
          engine := submitted.state
          calls := w.host.calls ++ [r.call s regions job w.host.now]
          interrupts := r.registered w.host.calls.length w.host.interrupts
          log := submitted.events.reverse ++
            ((R.engine.acquire w.host.engine).events.reverse ++ w.host.log) }, w.hand⟩
  | taken (w : World σ) {step : PacketAuth.Step σ Job}
      (h : R.engine.handBack w.host.now w.host.engine = some step) :
      Effect R w
        ⟨{ w.host with engine := step.state, log := step.events.reverse ++ w.host.log },
          w.hand ++ [step.answer]⟩
  | passed (h : Host σ) (before : List Job) {job : Job} (after : List Job) {h' : Host σ}
      (s : Settlement R.engine h job h') :
      Effect R ⟨h, before ++ job :: after⟩ ⟨h', before ++ after⟩
  | collected (w : World σ) {ticket : Nat} {c : Call} {job : Job} (hl : R.mayLook w ticket)
      (hc : w.host.calls[ticket]? = some c) (hw : c.isWaiting = true)
      (hp : c.slot = .completed job) :
      Effect R w
        ⟨{ w.host with
          engine := R.engine.release job w.host.engine
          services := w.host.services.modify c.request.service (c.credit job)
          calls := w.host.calls.set ticket
            { c with slot := .taken, reply := some (c.ending job).reply }
          log := (c.ending job).event.toList ++ w.host.log }, w.hand⟩
  | left (w : World σ) {ticket : Nat} {c : Call} {reason : CancelReason} (hl : R.mayLook w ticket)
      (hc : w.host.calls[ticket]? = some c) (hw : c.isWaiting = true)
      (hp : c.slot.look (c.request.interrupt.bind fun i => (w.host.interrupts i).reason)
        (c.deadline.any (· ≤ w.host.now)) = (some (.interrupted reason), .abandoned)) :
      Effect R w
        ⟨{ w.host with
          engine := R.engine.withdraw c.job w.host.engine
          services := w.host.services.modify c.request.service (·.count .interrupted)
          calls := w.host.calls.set ticket
            { c with
              slot := .abandoned
              reply := some (.failed c.request ⟨.waitInterrupted, some reason.text⟩) }
          log := (R.engine.cancel c.job w.host.engine).events.reverse ++
            .waitInterrupted c.request.lane c.job reason :: w.host.log }, w.hand⟩

variable {R : Rules σ}

/-- A number of effects, one after the other. -/
abbrev Effects (R : Rules σ) : World σ → World σ → Prop := Relation.ReflTransGen (Effect R)

lemma effects_look (w : World σ) {ticket : Nat} (hl : R.mayLook w ticket) :
    Effects R w ⟨w.host.look R.engine ticket, w.hand⟩ := by
  rw [Host.look]
  split
  · exact .refl
  · rename_i c hc
    split
    · rename_i hw
      dsimp only
      split
      · exact .refl
      · rename_i job slot hlook
        obtain ⟨hp, rfl⟩ : c.slot = .completed job ∧ Slot.taken = slot := by
          unfold Slot.look at hlook
          grind
        rw [Host.finish_eq]
        exact .single (.collected (c := c) w hl hc hw hp)
      · rename_i reason slot hlook
        obtain rfl : Slot.abandoned = slot := by
          unfold Slot.look at hlook
          grind
        rw [Host.leave_eq]
        exact .single (.left (c := c) w hl hc hw hlook)
    · exact .refl

lemma settlement_settle (E : Engine σ) (h : Host σ) {job : Job} {ticket : Nat} {c : Call}
    (hj : job.recipient = some (.call ticket)) (hc : h.calls[ticket]? = some c) :
    Settlement E h job (h.settle E ticket c job) := by
  obtain ⟨hlt, -⟩ := List.getElem?_eq_some_iff.mp hc
  rw [Host.settle]
  split
  · rename_i again hreact
    obtain ⟨hb, ha, hr, rfl⟩ := Call.react_eq_resubmit hreact
    exact .resubmitted hj hc hb ha hr rfl
  · rename_i job' exhausted hreact
    dsimp only
    generalize hh : (if exhausted then h.noteExhausted job' else h) = h'
    have hlog : h' = { h with
        log := (if exhausted then [.retriesExhausted job'.id job'.retries] else []) ++ h.log } := by
      cases exhausted <;> simp [← hh, Host.noteExhausted, Host.emit]
    have hcalls : h'.calls = h.calls := by rw [hlog]
    cases hp : c.slot with
    | pending =>
      by_cases hw : c.isWaiting = true
      · have waiting : ({ c with slot := .completed job' } : Call).isWaiting = true := hw
        simp only [Slot.complete_pending, Host.look, Host.setCall, hcalls,
          List.getElem?_set_self hlt, waiting, if_true, Slot.look_completed, Host.finish_eq,
          List.set_set]
        subst hlog
        exact .finished hj hc hw hp hreact
      · have waiting : ({ c with slot := .completed job' } : Call).isWaiting = false :=
          eq_false_of_ne_true hw
        simp only [Slot.complete_pending, Host.look, Host.setCall, hcalls,
          List.getElem?_set_self hlt, waiting]
        subst hlog
        exact .stranded hj hc (eq_false_of_ne_true hw) hp hreact
    | completed _ | taken | abandoned =>
      have refused := Settlement.refused (E := E) hj hc (by simp [hp]) hreact
      simp only [Slot.complete]
      subst hlog
      by_cases hu : h.isEngineInUse = true
      · rw [if_pos hu] at refused
        rw [if_pos (by exact hu)]
        exact refused
      · rw [if_neg hu] at refused
        rw [if_neg (by exact hu)]
        exact refused

theorem settlement_deliver (E : Engine σ) (h : Host σ) (job : Job) :
    Settlement E h job (h.deliver E job) := by
  rw [Host.deliver]
  split
  · rename_i hj
    exact .strayed h.handedBack (by simp [hj])
  · rename_i i hj
    exact .strayed (h.handedBack ++ [(i, job)]) (by simp [hj])
  · rename_i ticket hj
    split
    · rename_i hc
      refine .strayed h.handedBack fun t ht => ?_
      obtain rfl : ticket = t := by simpa [hj] using ht
      exact hc
    · rename_i c hc
      exact settlement_settle E h hj hc

lemma effects_openSession (w : World σ) {i : Nat} {s : Service} {l : LaneId} {lane : Lane}
    (hs : w.host.services[i]? = some s) (hl : s.lanes[l.index.toNat]? = some lane) :
    Effects R w ⟨(w.host.openSession R.engine i s.key lane).2, w.hand⟩ := by
  rw [Host.openSession]
  split
  · exact .refl
  · rename_i hn
    dsimp only [Host.onEngine]
    split
    · rename_i handle h heq
      obtain ⟨ha, rfl⟩ := Prod.mk.inj heq
      have opened := Effect.opened (R := R) w hs hl hn ha
      simp only [Host.updateService, Host.count, Host.emit, List.modify_modify_eq]
      exact .single opened
    · rename_i e h heq
      obtain ⟨ha, rfl⟩ := Prod.mk.inj heq
      exact .single (.notOpened w hs hl hn ha)

/-- Opening a session keeps the key, the settings and the number of lanes of the service, and the
session it gives was kept in the lane or has just been made for the key. -/
lemma openSession_ok {E : Engine σ} {h h' : Host σ} {i : Nat} {s : Service} {l : LaneId}
    {lane : Lane} {session : SessionHandle} (hs : h.services[i]? = some s)
    (hl : s.lanes[l.index.toNat]? = some lane)
    (ho : h.openSession E i s.key lane = (.ok session, h')) :
    ∃ s' lane', h'.services[i]? = some s' ∧ s'.key = s.key ∧ s'.config = s.config ∧
      s'.lanes[l.index.toNat]? = some lane' ∧
      (lane'.session = some session ∨
        ∃ e, (E.createSession s.key e).answer = .ok session ∧
          (E.createSession s.key e).state = h'.engine) := by
  rw [Host.openSession] at ho
  split at ho
  · rename_i handle hsome
    obtain ⟨hh, rfl⟩ := Prod.mk.inj ho
    cases hh
    exact ⟨s, lane, hs, rfl, rfl, hl, .inl hsome⟩
  · dsimp only [Host.onEngine] at ho
    split at ho
    · rename_i handle k heq
      obtain ⟨ha, rfl⟩ := Prod.mk.inj heq
      obtain ⟨hh, rfl⟩ := Prod.mk.inj ho
      cases hh
      refine ⟨(s.updateLane lane.id fun l => { l with session := some session }).count
        .sessionsCreated, (if lane.id.index.toNat = l.index.toNat then
          { lane with session := some session } else lane), ?_, rfl, rfl, ?_,
        .inr ⟨h.engine, ha, rfl⟩⟩
      · simp [Host.updateService, Host.count, Host.emit, List.modify_modify_eq, hs]
      · simp only [Service.count, Service.updateLane, List.getElem?_modify, hl]
        split <;> rfl
    · cases ho

lemma prepare_ok {s : Service} {r : Request} {adding : Addition} {lane : Lane} {regions : Regions}
    (h : s.prepare r adding = .ok (lane, regions)) :
    s.lanes[r.lane.index.toNat]? = some lane ∧
      s.config.layout.split r.buffer.length r.length adding = .ok regions := by
  simp only [Service.prepare, Service.lane] at h
  split at h
  · rename_i found hl
    cases hsplit : s.config.layout.split r.buffer.length r.length adding with
    | error f => simp [hsplit, bind, Except.bind] at h
    | ok found' =>
      simp only [hsplit, bind, Except.bind, pure, Except.pure] at h
      cases h
      exact ⟨hl, rfl⟩
  · cases h

lemma prepare_error {s : Service} {r : Request} {f : Failure} (h : s.prepare r = .error f) :
    f.kind = .invalidLane ∨ f.kind = .malformedRequest := by
  simp only [Service.prepare, Service.lane] at h
  split at h
  · rename_i lane hl
    unfold Layout.split at h
    split at h
    · cases h
      exact .inr rfl
    · split at h
      · cases h
        exact .inr rfl
      · cases h
  · cases h
    exact .inl rfl

/-- A request that was let in, by nothing but its ticket. -/
lemma enter_of_toOption {E : Engine σ} {h : Host σ} {s : Service} {r : Request} {ticket : Nat}
    (he : (h.enter E s r).1.toOption = some ticket) :
    ∃ h', h.enter E s r = (.ok ticket, h') := by
  cases entered : h.enter E s r with
  | mk answer h' =>
    rw [entered] at he
    cases answer <;> cases he
    exact ⟨h', rfl⟩

lemma build_ok {b : Builder} {adding : Addition} {s : Service} (h : b.build adding = .ok s) :
    b.config.validate adding = .ok () ∧ ∃ key, s = .create b.config key := by
  unfold Builder.build at h
  split at h
  · cases h
  · rename_i key _
    cases hv : b.config.validate adding with
    | error e => simp [hv, Except.map] at h
    | ok =>
      simp only [hv, Except.map, Except.ok.injEq] at h
      exact ⟨rfl, key, h.symm⟩

lemma effects_enter (w : World σ) {s : Service} {r : Request}
    (hs : w.host.services[r.service]? = some s) :
    Effects R w ⟨(w.host.enter R.engine s r).2, w.hand⟩ := by
  rw [Host.enter]
  split
  · rename_i f hp
    exact .single (.rejected w hs hp)
  · rename_i lane regions hp
    obtain ⟨hl, hr⟩ := prepare_ok hp
    have opened := effects_openSession (R := R) w hs hl
    split
    · rename_i f h heq
      rwa [heq] at opened
    · rename_i session h heq
      rw [heq] at opened
      obtain ⟨s', lane', hs', hkey, hconfig, hl', ho⟩ := openSession_ok hs hl heq
      refine opened.trans ?_
      dsimp only [Host.onEngine]
      split
      · rename_i h' hacquire
        obtain ⟨ha, rfl⟩ := Prod.mk.inj hacquire
        exact .single (.starved ⟨h, w.hand⟩ hs' ha)
      · rename_i job h' hacquire
        obtain ⟨ha, rfl⟩ := Prod.mk.inj hacquire
        have admitted := Effect.admitted (R := R) ⟨h, w.hand⟩ hs' hl' (hconfig ▸ hr)
          (hkey ▸ ho) ha rfl
        simp only [Request.fill, Request.call, Request.registered, hkey, hconfig] at admitted
        simp only [Host.submitJob, Host.onEngine]
        cases hi : r.interrupt with
        | none =>
          simp only [hi] at admitted
          exact .single admitted
        | some i =>
          simp only [hi] at admitted
          exact .single admitted

theorem Next.effects {w w' : World σ} (h : Next R w w') : Effects R w w' := by
  cases h with
  | install _ b =>
    rw [Host.install]
    split
    · rename_i e hb
      exact .single (.misconfigured w hb)
    · rename_i s hb
      exact .single (.installed w hb)
  | ensureSession _ hs l =>
    rw [Host.ensureSession, Service.lane]
    split
    · exact .refl
    · rename_i lane hl
      split at hl
      · rename_i found hfound
        cases hl
        exact effects_openSession w hs hfound
      · cases hl
  | enter _ hs => exact effects_enter w hs
  | take _ h => exact .single (.taken w h)
  | deliver h before job after =>
    exact .single (.passed h before after (settlement_deliver R.engine h job))
  | look _ hl => exact effects_look w hl
  | pass _ instant => exact .single (.aside w w.host.interrupts (max w.host.now instant))
  | trigger _ i reason => exact .single (.aside w _ w.host.now)
  | reset _ i => exact .single (.aside w _ w.host.now)
  | dropService _ i => exact .single (.dropped w i)
  | change _ h => exact .single (.changed w h)

theorem Run.effects {w w' : World σ} (h : Run R w w') : Effects R w w' := by
  induction h with
  | refl => exact .refl
  | tail _ next ih => exact ih.trans next.effects

/-- What is done under stricter rules can be done under laxer ones. Of the waits only those need to
be allowed to look that end by it. -/
theorem Effect.mono {R' : Rules σ} {w w' : World σ} (he : R.engine = R'.engine)
    (hc : ∀ s step, R.change s step → R'.change s step)
    (hl : ∀ ticket c, w.host.calls[ticket]? = some c → c.isWaiting = true →
      (w.host.arrival c).isSome = true → R.mayLook w ticket → R'.mayLook w ticket)
    (e : Effect R w w') : Effect R' w w' := by
  obtain ⟨E, C, L⟩ := R
  obtain ⟨E', C', L'⟩ := R'
  obtain rfl : E = E' := he
  cases e with
  | aside _ interrupts now => exact .aside _ interrupts now
  | installed _ hb => exact .installed _ hb
  | misconfigured _ hb => exact .misconfigured _ hb
  | dropped _ i => exact .dropped _ i
  | changed _ h => exact .changed _ (hc _ _ h)
  | opened _ hs hlane hn ha => exact .opened _ hs hlane hn ha
  | notOpened _ hs hlane hn ha => exact .notOpened _ hs hlane hn ha
  | rejected _ hs hp => exact .rejected _ hs hp
  | starved _ hs ha => exact .starved _ hs ha
  | admitted _ hs hlane hr ho ha hq =>
    subst hq
    exact .admitted (R := ⟨E, C', L'⟩) _ hs hlane hr ho ha rfl
  | taken _ h => exact .taken _ h
  | passed h before after s => exact .passed h before after s
  | collected _ hlook hget hw hp =>
    exact .collected _ (hl _ _ hget hw (by rw [Host.arrival, hp]; rfl) hlook) hget hw hp
  | left _ hlook hget hw hp =>
    exact .left _ (hl _ _ hget hw (by rw [Host.arrival, hp]; rfl) hlook) hget hw hp

theorem Effects.isHeld {w w' : World σ} (h : Effects R w w') :
    w'.host.isHeld = w.host.isHeld := by
  induction h with
  | refl => rfl
  | tail _ effect ih =>
    cases effect with
    | passed h before after s => cases s <;> exact ih
    | _ => exact ih

theorem Run.isHeld {w w' : World σ} (h : Run R w w') : w'.host.isHeld = w.host.isHeld :=
  Effects.isHeld (Run.effects h)

end World

/-- An engine logs this, and no service does. -/
def Event.isEngine : Event → Bool
  | engineStarted .. | sessionCreated .. | jobQueued .. | jobProcessed .. | jobCancelled ..
  | engineStopping .. => true
  | _ => false

theorem Builder.events_cases (b : Builder) :
    b.events = [] ∨ (∃ lanes size offset, b.events = [.serviceReady lanes size offset]) ∨
      ∃ error, b.events = [.configRejected error] := by
  unfold events
  split
  · exact .inr (.inl ⟨_, _, _, rfl⟩)
  · exact .inl rfl
  · exact .inr (.inr ⟨_, rfl⟩)

/-- A property of an engine and a log that every operation keeps together with its events, and that
is kept by all that services log. -/
structure Rules.Logs {σ : Type} (R : Rules σ) (P : σ → List Event → Prop) : Prop where
  service : ∀ {e s log}, e.isEngine = false → P s log → P s (e :: log)
  change : ∀ {s step log}, R.change s step → P s log → P step.state (step.events.reverse ++ log)
  createSession : ∀ {s log} key, P s log →
    P (R.engine.createSession key s).state ((R.engine.createSession key s).events.reverse ++ log)
  acquire : ∀ {s log}, P s log →
    P (R.engine.acquire s).state ((R.engine.acquire s).events.reverse ++ log)
  submit : ∀ {s log} job delay now, P s log →
    P (R.engine.submit job delay now s).state
      ((R.engine.submit job delay now s).events.reverse ++ log)
  handBack : ∀ {now s step log}, R.engine.handBack now s = some step → P s log →
    P step.state (step.events.reverse ++ log)
  release : ∀ {s log} job, P s log → P (R.engine.release job s) log
  cancel : ∀ {s log} id, P s log →
    P (R.engine.cancel id s).state ((R.engine.cancel id s).events.reverse ++ log)

namespace Rules.Logs
open World

variable {σ : Type} {R : Rules σ} {P : σ → List Event → Prop} {s : σ} {log : List Event}

theorem built (k : R.Logs P) (b : Builder) (h : P s log) : P s (b.events.reverse ++ log) := by
  obtain hb | ⟨lanes, size, offset, hb⟩ | ⟨error, hb⟩ := b.events_cases <;> rw [hb]
  · exact h
  · exact k.service rfl h
  · exact k.service rfl h

theorem ended (k : R.Logs P) (c : Call) (job : Job) (h : P s log) :
    P s ((c.ending job).event.toList ++ log) := by
  obtain he | he | he := c.ending_event_cases job <;> rw [he]
  · exact h
  · exact k.service rfl h
  · exact k.service rfl h

theorem exhausted (k : R.Logs P) (exhausted : Bool) (id : JobId) (retries : Nat) (h : P s log) :
    P s ((if exhausted then [.retriesExhausted id retries] else []) ++ log) := by
  cases exhausted with
  | true => exact k.service rfl h
  | false => exact h

theorem withdraw (k : R.Logs P) (id : JobId) (h : P s log) :
    P (R.engine.withdraw id s) ((R.engine.cancel id s).events.reverse ++ log) := by
  unfold Engine.withdraw
  split
  · exact k.cancel id h
  · exact k.release _ (k.cancel id h)

theorem settlement (k : R.Logs P) {h h' : Host σ} {job : Job} (s : Settlement R.engine h job h')
    (hp : P h.engine h.log) : P h'.engine h'.log := by
  cases s with
  | strayed => exact hp
  | resubmitted hj hc hb ha hr hq =>
    subst hq
    exact k.submit _ _ _ (k.service rfl hp)
  | finished => exact k.ended _ _ (k.exhausted _ _ _ (k.release _ hp))
  | stranded => exact k.exhausted _ _ _ hp
  | refused =>
    refine k.service rfl (k.exhausted _ _ _ ?_)
    split
    · exact k.release _ hp
    · exact hp

theorem effect (k : R.Logs P) {w w' : World σ} (e : Effect R w w')
    (h : P w.host.engine w.host.log) : P w'.host.engine w'.host.log := by
  cases e with
  | aside | dropped => exact h
  | installed | misconfigured => exact k.built _ h
  | changed _ hchange => exact k.change hchange h
  | opened | notOpened => exact k.service rfl (k.createSession _ h)
  | rejected => exact k.service rfl h
  | starved => exact k.acquire h
  | admitted _ hs hl hr ho ha hq =>
    subst hq
    exact k.submit _ _ _ (k.acquire h)
  | taken _ hstep => exact k.handBack hstep h
  | passed host before after s => exact k.settlement s h
  | collected => exact k.ended _ _ (k.release _ h)
  | left => exact k.withdraw _ (k.service rfl h)

theorem effects (k : R.Logs P) {w w' : World σ} (e : Effects R w w')
    (h : P w.host.engine w.host.log) : P w'.host.engine w'.host.log := by
  induction e with
  | refl => exact h
  | tail _ effect ih => exact k.effect effect ih

end Rules.Logs

/-- A property of engines that none of their operations ends. -/
structure Rules.Keeps {σ : Type} (R : Rules σ) (P : σ → Prop) : Prop where
  change : ∀ {s step}, R.change s step → P s → P step.state
  createSession : ∀ key {s}, P s → P (R.engine.createSession key s).state
  acquire : ∀ {s}, P s → P (R.engine.acquire s).state
  submit : ∀ job delay now {s}, P s → P (R.engine.submit job delay now s).state
  handBack : ∀ {now s step}, R.engine.handBack now s = some step → P s → P step.state
  release : ∀ job {s}, P s → P (R.engine.release job s)
  cancel : ∀ id {s}, P s → P (R.engine.cancel id s).state

namespace Rules.Keeps
variable {σ : Type} {R : Rules σ} {P : σ → Prop} {w w' : World σ}

theorem logs (k : R.Keeps P) : R.Logs fun s _ => P s where
  service _ h := h
  change hc h := k.change hc h
  createSession key h := k.createSession key h
  acquire h := k.acquire h
  submit job delay now h := k.submit job delay now h
  handBack hstep h := k.handBack hstep h
  release job h := k.release job h
  cancel id h := k.cancel id h

theorem effect (k : R.Keeps P) (e : World.Effect R w w') (h : P w.host.engine) :
    P w'.host.engine := k.logs.effect e h

theorem run (k : R.Keeps P) (r : World.Run R w w') (h : P w.host.engine) : P w'.host.engine :=
  k.logs.effects r.effects h

end Rules.Keeps
end PacketAuth
