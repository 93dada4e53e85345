import PacketAuth.Bench.Operation
import PacketAuth.Engine.Scripted

/-! The operations of a bench whose engine follows a script: changing the script, ending held jobs,
and reading what the engine was asked. -/
namespace PacketAuth.Bench

inductive ScriptedOperation where
  | extendPlan (actions : List Scripted.Action)
  | setCapacity (capacity : Option Nat)
  | finish (index : Nat) (ending : Scripted.Ending)
  | takeSeen
  | takeReleased
  | dropEngine

inductive ScriptedAnswer where
  | done
  | held (n : Nat)
  | seen (observations : List Scripted.Observation)
  | released (jobs : List Job)

abbrev ScriptedResult := Except BenchError ScriptedAnswer × Bench Scripted

def ofScript (script : Scripted) (buffers : List (List UInt8)) : Bench Scripted :=
  { host := { engine := script }, buffers }

def performScripted (b : Bench Scripted) : ScriptedOperation → ScriptedResult
  | .extendPlan actions =>
    (.ok .done, { b with host := b.host.mapEngine (·.extendPlan actions) })
  | .setCapacity capacity =>
    (.ok .done, { b with host := b.host.mapEngine (·.setCapacity capacity) })
  | .finish index ending =>
    match b.host.engine.finish index ending with
    | none => (.error .nothingHeld, b)
    | some engine =>
      let host := { b.host with engine }.drain Scripted.engine
      (.ok (.held host.engine.held.length), { b with host })
  | .takeSeen =>
    let seen := b.host.engine.seen
    (.ok (.seen seen), { b with host := b.host.mapEngine fun s => { s with seen := [] } })
  | .takeReleased =>
    let released := b.host.engine.released
    (.ok (.released released),
      { b with host := b.host.mapEngine fun s => { s with released := [] } })
  | .dropEngine => (.ok .done, { b with host := b.host.dropEngine Scripted.engine })

end PacketAuth.Bench
