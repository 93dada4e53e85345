import PacketAuth.Host.Passage

/-! Requests to a service: opening the session of a lane, starting a call, waiting for its reply,
and the operations of a host on services, interrupts and the engine. -/
namespace PacketAuth.Host
variable {σ : Type}

/-- The session of a lane, opened the first time it is needed. -/
def openSession (E : Engine σ) (i : Nat) (key : AuthKey) (lane : Lane) (h : Host σ) :
    Except Failure SessionHandle × Host σ :=
  match lane.session with
  | some handle => (.ok handle, h)
  | none =>
    match h.onEngine (E.createSession key) with
    | (.ok handle, h) =>
      let h := h.updateService i (·.updateLane lane.id fun l => { l with session := some handle })
      (.ok handle, (h.count i .sessionsCreated).emit (.laneOpened lane.id handle))
    | (.error e, h) =>
      (.error ⟨.sessionCreationFailed, some e.message⟩,
        (h.count i .sessionFailures).emit (.laneNotOpened lane.id e))

/-- Opens the session of a lane ahead of its first request. -/
def ensureSession (E : Engine σ) (i : Nat) (s : Service) (l : LaneId) (h : Host σ) :
    Except Failure SessionHandle × Host σ :=
  match s.lane l with
  | .error f => (.error f, h)
  | .ok lane => h.openSession E i s.key lane

/-- Fills a job with the masked payload of a request and submits it for a new call. Gives the
ticket of the call. -/
def submitJob (E : Engine σ) (s : Service) (r : Request) (regions : Regions)
    (session : SessionHandle) (job : Job) (h : Host σ) : Nat × Host σ :=
  let ticket := h.calls.length
  let job :=
    { job with
      input := regions.maskedPayload r.buffer
      descriptor := some ⟨session, s.key, 0, regions.payload.length, 0⟩
      recipient := some (.call ticket) }
  let call : Call :=
    { request := r, regions, retry := s.config.retry, job := job.id
      deadline := s.config.waitTimeout.map (h.now + ·) }
  let h := { h with calls := h.calls ++ [call] }
  let h := match r.interrupt with
    | none => h
    | some i => h.setInterrupt i ((h.interrupts i).register ticket)
  (ticket, (h.onEngine (E.submit job 0 h.now)).2)

/-- Lets a request to a service in, up to the submission of its job. It fails on the spot if it is
malformed, if its lane has no session and gets none, or if no job is to be had; otherwise it is a
call with a ticket. -/
def enter (E : Engine σ) (s : Service) (r : Request) (h : Host σ) : Except Failure Nat × Host σ :=
  match s.prepare r with
  | .error f =>
    (.error f, (h.count r.service .malformed).emit (.requestRejected r.lane r.length f))
  | .ok (lane, regions) =>
    match h.openSession E r.service s.key lane with
    | (.error f, h) => (.error f, h)
    | (.ok session, h) =>
      match h.onEngine E.acquire with
      | (none, h) =>
        (.error ⟨.engineUnavailable, some (r.lane.text ++ ": no job available")⟩,
          h.count r.service .engineFailures)
      | (some job, h) =>
        let (ticket, h) := submitJob E s r regions session job h
        (.ok ticket, h)

/-- Starts a request. A call that was let in looks for the first time once the engine has handed
back all it can at the present instant. -/
def start (E : Engine σ) (s : Service) (r : Request) (h : Host σ) : Except Failure Nat × Host σ :=
  match h.enter E s r with
  | (.error f, h) => (.error f, h)
  | (.ok ticket, h) => (.ok ticket, look E ticket (drain E h))

/-- A request from start to reply. There is none only if nothing would ever end the wait. -/
def perform (E : Engine σ) (s : Service) (r : Request) (h : Host σ) : Option Reply × Host σ :=
  match start E s r h with
  | (.error f, h) => (some (.failed r f), h)
  | (.ok ticket, h) =>
    let h := await E ticket h
    (h.reply? ticket, h)

/-- Triggers an interrupt and wakes the waits on it. -/
def trigger (E : Engine σ) (i : Nat) (reason : CancelReason) (h : Host σ) : Host σ :=
  let (waiters, interrupt) := (h.interrupts i).trigger reason
  waiters.foldl (fun h ticket => look E ticket h) (h.setInterrupt i interrupt)

def resetInterrupt (i : Nat) (h : Host σ) : Host σ := h.setInterrupt i (h.interrupts i).reset

/-- Adds a service, built from its settings. -/
def install (b : Builder) (h : Host σ) : Except ConfigError Service × Host σ :=
  let h := { h with log := b.events.reverse ++ h.log }
  match b.build with
  | .error e => (.error e, h)
  | .ok s => (.ok s, { h with services := h.services ++ [s] })

def dropService (E : Engine σ) (i : Nat) (h : Host σ) : Host σ :=
  closeUnused E (h.updateService i fun s => { s with isHeld := false })

/-- The host lets go of the engine; services keep it alive. -/
def dropEngine (E : Engine σ) (h : Host σ) : Host σ := closeUnused E { h with isHeld := false }

end PacketAuth.Host
