import PacketAuth.Engine

/-! An engine that follows a script: it answers each session request and each submitted job as
told, keeps some jobs back until they are asked for, and records all it was asked. -/
namespace PacketAuth

namespace Scripted

/-- A scripted answer to a session request: a refusal, or a handle. -/
inductive SessionAnswer where
  | refuse (error : EngineError)
  | handle (raw : Nat)
  deriving Repr, DecidableEq

/-- How a job ends: with which outcome, with which offset written into its descriptor, and with
which output. -/
structure Ending where
  outcome : Outcome := .done
  inject : Option Nat := none
  output : Option (List UInt8) := none
  deriving Repr, DecidableEq

inductive Action where
  | hold
  | finish (ending : Ending)
  deriving Repr, DecidableEq

/-- What the engine was asked: for a session, or to take a job after a delay. -/
inductive Observation where
  | session (answer : Option SessionAnswer) (key : AuthKey)
  | submission (job : Job) (delay : Option Nat)
  deriving DecidableEq

/-- The output of a job that the script says nothing about: the offset in zeros, then up to 32 of
the last input bytes, last one first. -/
def reversedTail (inject : Nat) (input : List UInt8) : List UInt8 :=
  List.replicate inject 0 ++ input.reverse.take 32

def Ending.apply (e : Ending) (job : Job) : Job :=
  let output := e.output.getD (reversedTail (e.inject.getD 0) job.input)
  let descriptor := match e.inject with
    | none => job.descriptor
    | some n => job.descriptor.map fun d => { d with inject := n }
  { job with output, descriptor, outcome := e.outcome }

end Scripted

open Scripted in
/-- Whether the engine is full says whether it defers and cancels jobs; otherwise a delay is
ignored and nothing can be cancelled. -/
structure Scripted where
  sessions : List SessionAnswer := []
  capacity : Option Nat := none
  plan : List Action := []
  isFull : Bool := false
  nextHandle : Nat := 1
  nextJob : Nat := 1
  outstanding : Nat := 0
  held : List Job := []
  finished : List Job := []
  seen : List Observation := []
  released : List Job := []

namespace Scripted

def createSession (key : AuthKey) (s : Scripted) :
    Step Scripted (Except EngineError SessionHandle) :=
  match s.sessions with
  | [] =>
    ⟨.ok ⟨s.nextHandle⟩,
      { s with nextHandle := s.nextHandle + 1, seen := s.seen ++ [.session none key] }, []⟩
  | answer :: rest =>
    let s := { s with sessions := rest, seen := s.seen ++ [.session (some answer) key] }
    match answer with
    | .refuse e => ⟨.error e, s, []⟩
    | .handle raw => ⟨.ok ⟨raw⟩, s, []⟩

def acquire (s : Scripted) : Step Scripted (Option Job) :=
  if s.capacity.any (· ≤ s.outstanding) then ⟨none, s, []⟩
  else
    ⟨some (.fresh ⟨s.nextJob⟩),
      { s with nextJob := s.nextJob + 1, outstanding := s.outstanding + 1 }, []⟩

/-- The next action of the plan decides; after its end every job is simply done. -/
def submit (job : Job) (delay _now : Nat) (s : Scripted) : Step Scripted Unit :=
  let asked : Option Nat := if s.isFull ∧ delay ≠ 0 then some delay else none
  let s := { s with seen := s.seen ++ [Observation.submission job asked] }
  match s.plan with
  | [] => ⟨(), { s with finished := s.finished ++ [Ending.apply {} job] }, []⟩
  | .hold :: plan => ⟨(), { s with plan, held := s.held ++ [job] }, []⟩
  | .finish e :: plan => ⟨(), { s with plan, finished := s.finished ++ [e.apply job] }, []⟩

def handBack (_now : Nat) (s : Scripted) : Option (Step Scripted Job) :=
  match s.finished with
  | [] => none
  | job :: rest => some ⟨job, { s with finished := rest }, []⟩

def release (job : Job) (s : Scripted) : Scripted :=
  { s with outstanding := s.outstanding - 1, released := s.released ++ [job] }

def cancel (id : JobId) (s : Scripted) : Step Scripted (Option Job) :=
  if s.isFull then
    match s.held.find? (·.id = id) with
    | none => ⟨none, s, []⟩
    | some job => ⟨some job, { s with held := s.held.filter (·.id ≠ id) }, []⟩
  else ⟨none, s, []⟩

/-- Ends the held job at an index. -/
def finish (index : Nat) (e : Ending) (s : Scripted) : Option Scripted :=
  s.held[index]?.map fun job =>
    { s with held := s.held.eraseIdx index, finished := s.finished ++ [e.apply job] }

def extendPlan (actions : List Action) (s : Scripted) : Scripted :=
  { s with plan := s.plan ++ actions }

def setCapacity (capacity : Option Nat) (s : Scripted) : Scripted := { s with capacity }

def engine : Engine Scripted where
  createSession := createSession
  acquire := acquire
  submit := submit
  handBack := handBack
  release := release
  cancel := cancel
  wake _ := none
  backlog s := s.finished.length + s.plan.length + 1
  close s := ⟨(), s, []⟩

end Scripted
end PacketAuth
