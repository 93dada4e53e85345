import PacketAuth.Host.Request
import Mathlib.Logic.Relation

/-! Interleavings. Callers, the engine and the clock take their turns on one host in any order; a
job that the engine took is in its hand until it is passed on, and anything may happen meanwhile. -/
namespace PacketAuth

/-- A host, and the jobs that its engine took and has not passed on yet. -/
structure World (σ : Type) where
  host : Host σ
  hand : List Job := []

/-- An engine, the changes of its state that no call makes, and which waits may look when. -/
structure Rules (σ : Type) where
  engine : Engine σ
  change : σ → Step σ Unit → Prop
  mayLook : World σ → Nat → Prop := fun _ _ => True

namespace World
variable {σ : Type} {R : Rules σ}

/-- One turn on a host. A request is let in without waiting for the engine; a trigger and the
passing of time only set what the waits find when they look. -/
inductive Next (R : Rules σ) : World σ → World σ → Prop
  | install (w : World σ) (b : Builder) : Next R w ⟨(w.host.install b).2, w.hand⟩
  | ensureSession (w : World σ) {i : Nat} {s : Service} (hs : w.host.services[i]? = some s)
      (l : LaneId) : Next R w ⟨(w.host.ensureSession R.engine i s l).2, w.hand⟩
  | enter (w : World σ) {s : Service} {r : Request} (hs : w.host.services[r.service]? = some s) :
      Next R w ⟨(w.host.enter R.engine s r).2, w.hand⟩
  | take (w : World σ) {step : Step σ Job}
      (h : R.engine.handBack w.host.now w.host.engine = some step) :
      Next R w ⟨{ w.host with engine := step.state, log := step.events.reverse ++ w.host.log },
        w.hand ++ [step.answer]⟩
  | deliver (h : Host σ) (before : List Job) (job : Job) (after : List Job) :
      Next R ⟨h, before ++ job :: after⟩ ⟨h.deliver R.engine job, before ++ after⟩
  | look (w : World σ) {ticket : Nat} (hl : R.mayLook w ticket) :
      Next R w ⟨w.host.look R.engine ticket, w.hand⟩
  | pass (w : World σ) (instant : Nat) :
      Next R w ⟨{ w.host with now := max w.host.now instant }, w.hand⟩
  | trigger (w : World σ) (i : Nat) (reason : CancelReason) :
      Next R w ⟨w.host.setInterrupt i ((w.host.interrupts i).trigger reason).2, w.hand⟩
  | reset (w : World σ) (i : Nat) : Next R w ⟨w.host.resetInterrupt i, w.hand⟩
  | dropService (w : World σ) (i : Nat) :
      Next R w ⟨w.host.updateService i fun s => { s with isHeld := false }, w.hand⟩
  | change (w : World σ) {step : Step σ Unit} (h : R.change w.host.engine step) :
      Next R w ⟨{ w.host with engine := step.state, log := step.events.reverse ++ w.host.log },
        w.hand⟩

/-- Any number of turns, in any order. -/
abbrev Run (R : Rules σ) : World σ → World σ → Prop := Relation.ReflTransGen (Next R)

end World
end PacketAuth
