import PacketAuth.Host

/-! What happens when a job comes back from the engine, and when a waiting call looks whether it
may go on. -/
namespace PacketAuth.Host
variable {σ : Type}

/-- Ends a call. -/
def conclude (ticket : Nat) (c : Call) (reply : Reply) (h : Host σ) : Host σ :=
  h.setCall ticket { c with reply := some reply }

/-- A call that got its job back: it releases the job, then writes the tag, or keeps it and
compares it with the one in the buffer. -/
def finish (E : Engine σ) (ticket : Nat) (c : Call) (job : Job) (h : Host σ) : Host σ :=
  let r := c.request
  match job.verdict with
  | .error f =>
    let h := if job.outcome = .done then h
      else h.emit (.jobFailed r.lane job.id job.outcome.failureCode)
    ((h.count r.service .engineFailures).mapEngine (E.release job)).conclude ticket c (.failed r f)
  | .ok tag =>
    let h := h.mapEngine (E.release job)
    match r.command with
    | .write =>
      (h.count r.service .generated).conclude ticket c
        ⟨.ok (), c.regions.tag.write tag.bytes r.buffer⟩
    | .read =>
      let wire := c.regions.tag.read r.buffer
      let h := h.updateService r.service (·.updateLane r.lane fun l => (l.checkAndCache tag wire).2)
      if tag.agrees wire then
        (h.count r.service .verifiedOk).conclude ticket c ⟨.ok (), r.buffer⟩
      else
        ((h.count r.service .verifiedFail).emit (.tagMismatch r.lane r.length)).conclude ticket c
          (.failed r ⟨.authenticationMismatch, some r.lane.text⟩)

/-- A call that stops waiting: it takes its job back from the engine if it still can. -/
def leave (E : Engine σ) (ticket : Nat) (c : Call) (reason : CancelReason) (h : Host σ) : Host σ :=
  let r := c.request
  let h := (h.count r.service .interrupted).emit (.waitInterrupted r.lane c.job reason)
  let (cancelled, h) := h.onEngine (E.cancel c.job)
  let h := match cancelled with
    | none => h
    | some job => h.mapEngine (E.release job)
  h.conclude ticket c (.failed r ⟨.waitInterrupted, some reason.text⟩)

/-- A waiting call looks at its slot, at its interrupt and at the time. -/
def look (E : Engine σ) (ticket : Nat) (h : Host σ) : Host σ :=
  match h.calls[ticket]? with
  | none => h
  | some c =>
    if c.isWaiting then
      let reason := c.request.interrupt.bind fun i => (h.interrupts i).reason
      match c.slot.look reason (c.deadline.any (· ≤ h.now)) with
      | (none, _) => h
      | (some (.completed job), slot) => finish E ticket { c with slot } job h
      | (some (.interrupted reason), slot) => leave E ticket { c with slot } reason h
    else h

/-- The retries of a busy job are exhausted. -/
def noteExhausted (job : Job) (h : Host σ) : Host σ :=
  h.emit (.retriesExhausted job.id job.retries)

/-- A busy job has been armed again. -/
def noteRetry (c : Call) (job : Job) (h : Host σ) : Host σ :=
  (h.count c.request.service .busyRetries).emit (.resubmitting job.id job.retries)

/-- Submits a job that has been armed again. -/
def resubmit (E : Engine σ) (c : Call) (job : Job) (h : Host σ) : Host σ :=
  (h.onEngine (E.submit job c.retry.backoff h.now)).2

/-- Passes a returned job on: back to the engine if it was busy and may be tried again, otherwise
to the call it belongs to, which then looks. A job whose caller left is released here, unless
nobody uses the engine any more. -/
def settle (E : Engine σ) (ticket : Nat) (c : Call) (job : Job) (h : Host σ) : Host σ :=
  match c.react job with
  | .resubmit job => (h.noteRetry c job).resubmit E c job
  | .settle job exhausted =>
    let h := if exhausted then h.noteExhausted job else h
    match c.slot.complete job with
    | (.delivered, slot) => look E ticket (h.setCall ticket { c with slot })
    | (.refused job, _) =>
      let h := h.emit (.abandonedReleased job.id)
      if h.isEngineInUse then h.mapEngine (E.release job) else h

/-- Gives a returned job to its recipient. A job without one is lost. -/
def deliver (E : Engine σ) (job : Job) (h : Host σ) : Host σ :=
  match job.recipient with
  | none => h
  | some (.holder i) => { h with handedBack := h.handedBack ++ [(i, job)] }
  | some (.call ticket) =>
    match h.calls[ticket]? with
    | none => h
    | some c => settle E ticket c job h

/-- Delivers up to `n` jobs that come back at the present instant. -/
def deliverNext (E : Engine σ) : Nat → Host σ → Host σ
  | 0, h => h
  | n + 1, h =>
    match E.handBack h.now h.engine with
    | none => h
    | some step =>
      deliverNext E n
        (deliver E step.answer
          { h with engine := step.state, log := step.events.reverse ++ h.log })

/-- Delivers every job that comes back at the present instant. -/
def drain (E : Engine σ) (h : Host σ) : Host σ := deliverNext E (E.backlog h.engine) h

/-- Closes the engine if nobody uses it any more. -/
def closeUnused (E : Engine σ) (h : Host σ) : Host σ :=
  if h.isEngineInUse then h else drain E (h.onEngine E.close).2

end PacketAuth.Host
