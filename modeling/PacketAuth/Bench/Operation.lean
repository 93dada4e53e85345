import PacketAuth.Bench

/-! The operations of a bench that do not depend on the kind of its engine. -/
namespace PacketAuth.Bench
variable {σ : Type}

inductive Operation where
  | service (b : Builder)
  | call (spec : CallSpec)
  | ensure (service : Nat) (lane : LaneId)
  | session (service : Nat) (lane : LaneId)
  | cachedTag (service : Nat) (lane : LaneId)
  | lanes (service : Nat)
  | stats (service : Nat)
  | inspect (service : Nat)
  | dropService (service : Nat)
  | flip (buffer position : Nat) (mask : UInt8)
  | put (buffer position : Nat) (bytes : List UInt8)
  | copy (source target : Nat)
  | trigger (interrupt : Nat) (reason : CancelReason)
  | reset (interrupt : Nat)
  | spawn (spec : CallSpec) (untilDeferred : Bool)
  | join (index : Nat)

inductive Answer where
  | done
  | laneCount (n : Nat)
  | call (answer : CallAnswer)
  | session (handle : Option SessionHandle)
  | tag (tag : Tag)
  | lanes (count : Nat) (opened : List (LaneId × SessionHandle × Tag))
  | stats (stats : Stats)
  | text (text : String)
  | buffer (bytes : List UInt8)
  | triggered (interrupt : Interrupt)
  | reset (interrupt : Interrupt)
  | spawned (finished : Bool)

abbrev Result (σ : Type) := Except BenchError Answer × Bench σ

/-- Finds the service and the command of a call, the service first. -/
def request (spec : CallSpec) (b : Bench σ) : Except BenchError (Service × Request) :=
  match b.service? spec.service with
  | none => .error .noService
  | some (index, s) =>
    match spec.surface.command with
    | .error e => .error (.unknownCommand e)
    | .ok command =>
      .ok (s,
        { service := index, lane := spec.lane, command, buffer := b.buffer spec.buffer
          length := spec.length, interrupt := spec.interrupt })

def addService (builder : Builder) (b : Bench σ) : Result σ :=
  if b.host.isHeld then
    match b.host.install builder with
    | (.error e, host) => (.error (.config e), { b with host, services := b.services ++ [none] })
    | (.ok s, host) =>
      (.ok (.laneCount s.lanes.length),
        { b with host, services := b.services ++ [some b.host.services.length] })
  else (.error .noEngine, b)

/-- Runs a call to its end; the buffer is replaced by the one the call leaves. -/
def runCall (E : Engine σ) (spec : CallSpec) (b : Bench σ) : Result σ :=
  match b.request spec with
  | .error e => (.error e, b)
  | .ok (s, r) =>
    match b.host.perform E s r with
    | (none, host) => (.error .endless, { b with host })
    | (some reply, host) =>
      (.ok (.call (spec.answer r.command reply)),
        { b with host }.setBuffer spec.buffer reply.buffer)

/-- Starts a call beside the others. Unless asked only to see it deferred, it is waited for as
long as its engine goes on by itself. -/
def spawn (E : Engine σ) (spec : CallSpec) (untilDeferred : Bool) (b : Bench σ) : Result σ :=
  let call (command : Command) (progress : Progress) : Spawned :=
    { spec, command, buffer := b.buffer spec.buffer, progress, mayStayDeferred := untilDeferred }
  match b.request spec with
  | .error .noService => (.error .noService, b)
  | .error e =>
    (.ok (.spawned true), { b with spawned := b.spawned ++ [call .write (.misdirected e)] })
  | .ok (s, r) =>
    match b.host.start E s r with
    | (.error f, host) =>
      (.ok (.spawned true), { b with host, spawned := b.spawned ++ [call r.command (.refused f)] })
    | (.ok ticket, host) =>
      let host :=
        if !untilDeferred && (E.wake host.engine).isSome then host.await E ticket else host
      (.ok (.spawned (host.reply? ticket).isSome),
        { b with host, spawned := b.spawned ++ [call r.command (.ticket ticket)] })

/-- Waits for a call beside the others and hands over its answer and its buffer, once. -/
def join (E : Engine σ) (index : Nat) (b : Bench σ) : Result σ :=
  match b.spawned[index]? with
  | none => (.error .joined, b)
  | some call =>
    let finished (reply : Reply) (b : Bench σ) : Result σ :=
      (.ok (.call (call.spec.answer call.command reply)), b.setBuffer call.spec.buffer reply.buffer)
    if call.isJoined then (.error .joined, b)
    else
      let b := { b with spawned := b.spawned.set index { call with isJoined := true } }
      match call.progress with
      | .misdirected e => (.error e, b.setBuffer call.spec.buffer call.buffer)
      | .refused f => finished ⟨.error f, call.buffer⟩ b
      | .ticket ticket =>
        let host := b.host.await E ticket
        match host.reply? ticket with
        | none => (.error .endless, { b with host })
        | some reply => finished reply { b with host }

/-- Applies a look at a service and one of its lanes. -/
def onLane (service : Nat) (lane : LaneId) (f : Lane → Answer) (b : Bench σ) : Result σ :=
  match b.service? service with
  | none => (.error .noService, b)
  | some (_, s) =>
    match s.lane lane with
    | .error e => (.error (.failure e), b)
    | .ok l => (.ok (f l), b)

def onService (service : Nat) (f : Service → Answer) (b : Bench σ) : Result σ :=
  match b.service? service with
  | none => (.error .noService, b)
  | some (_, s) => (.ok (f s), b)

/-- Overwrites a numbered buffer from a position on, if the bytes fit there. -/
def overwrite (i position : Nat) (bytes : List UInt8) (b : Bench σ) : Result σ :=
  let region : Region := ⟨position, position + bytes.length⟩
  if region.Fits (b.buffer i).length then
    let after := region.write bytes (b.buffer i)
    (.ok (.buffer after), b.setBuffer i after)
  else (.error .outOfRange, b)

/-- Flips bits of one byte of a numbered buffer. -/
def flip (i position : Nat) (mask : UInt8) (b : Bench σ) : Result σ :=
  match (b.buffer i)[position]? with
  | none => (.error .outOfRange, b)
  | some byte => b.overwrite i position [byte ^^^ mask]

def perform (E : Engine σ) (b : Bench σ) : Operation → Result σ
  | .service builder => b.addService builder
  | .call spec => b.runCall E spec
  | .ensure service lane =>
    match b.service? service with
    | none => (.error .noService, b)
    | some (index, s) =>
      match b.host.ensureSession E index s lane with
      | (.error f, host) => (.error (.failure f), { b with host })
      | (.ok handle, host) => (.ok (.session (some handle)), { b with host })
  | .session service lane => b.onLane service lane fun l => .session l.session
  | .cachedTag service lane => b.onLane service lane fun l => .tag l.cachedTag
  | .lanes service => b.onService service fun s => .lanes s.lanes.length s.openLanes
  | .stats service => b.onService service fun s => .stats s.stats
  | .inspect service => b.onService service fun s => .text s.inspect
  | .dropService service =>
    match b.service? service with
    | none => (.ok .done, b)
    | some (index, _) =>
      (.ok .done,
        { b with host := b.host.dropService E index, services := b.services.set service none })
  | .flip i position mask => b.flip i position mask
  | .put i position bytes => b.overwrite i position bytes
  | .copy source target => (.ok .done, b.setBuffer target (b.buffer source))
  | .trigger i reason =>
    let host := b.host.trigger E i reason
    (.ok (.triggered (host.interrupts i)), { b with host })
  | .reset i =>
    let host := b.host.resetInterrupt i
    (.ok (.reset (host.interrupts i)), { b with host })
  | .spawn spec untilDeferred => b.spawn E spec untilDeferred
  | .join index => b.join E index

end PacketAuth.Bench
