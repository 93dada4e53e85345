import PacketAuth.Bench.Operation
import PacketAuth.Engine.Scripted
import PacketAuth.Proofs.Reporting
import PacketAuth.Proofs.Untriggered

/-! The two surfaces of a request. A numeric call does what the typed one does and reports how it
ended: success if it succeeded, and otherwise a code that is positive, whatever the engine says. -/
namespace PacketAuth
variable {σ : Type}

/-- The numeric way to ask for the same. -/
def Surface.numbered : Surface → Surface
  | .typed command => .numeric command.code
  | surface => surface

def CallSpec.numbered (spec : CallSpec) : CallSpec := { spec with surface := spec.surface.numbered }

def Spawned.numbered (c : Spawned) : Spawned := { c with spec := c.spec.numbered }

/-- What a numeric caller sees where a typed one sees a result. -/
def CallAnswer.numbered (requested : Nat) : CallAnswer → CallAnswer
  | .typed command result buffer =>
    .numeric command (.ofResult result) (Reply.length requested ⟨result, buffer⟩) buffer
  | answer => answer

namespace Bench

/-- The same bench, with numeric calls beside the others in place of typed ones. -/
def numbered (b : Bench σ) : Bench σ := { b with spawned := b.spawned.map Spawned.numbered }

def Operation.numbered : Operation → Operation
  | .call spec => .call spec.numbered
  | .spawn spec untilDeferred => .spawn spec.numbered untilDeferred
  | op => op

def Answer.numbered (requested : Nat) : Answer → Answer
  | .call answer => .call (answer.numbered requested)
  | answer => answer

/-- The length that was asked for by the call that an operation answers. -/
def requested (b : Bench σ) : Operation → Nat
  | .call spec => spec.length
  | .join index => (b.spawned[index]?.map fun c => c.spec.length).getD 0
  | _ => 0

def Result.numbered (requested : Nat) (r : Result σ) : Result σ :=
  (r.1.map (Answer.numbered requested), r.2.numbered)

variable {E : Engine σ}

/-- What is done on a bench: an operation, or anything else that changes its host. -/
inductive Deed (σ : Type) where
  | operation (op : Operation)
  | meanwhile (change : Host σ → Host σ)

def Deed.numbered : Deed σ → Deed σ
  | .operation op => .operation op.numbered
  | deed => deed

def carryOut (E : Engine σ) (b : Bench σ) : Deed σ → Bench σ
  | .operation op => (b.perform E op).2
  | .meanwhile change => { b with host := change b.host }

/-- The bench after a number of deeds. -/
def after (E : Engine σ) (deeds : List (Deed σ)) (b : Bench σ) : Bench σ :=
  deeds.foldl (carryOut E) b

/-- However a request to a service ends, its status says so. -/
structure Tells (E : Engine σ) (w : World σ) (s : Service) (r : Request) : Prop where
  refused : ∀ f h', w.host.enter E s r = (.error f, h') → (Reply.failed r f).Reports
  later : ∀ ticket h', w.host.enter E s r = (.ok ticket, h') →
    ∀ v, World.Run (World.unruly E) ⟨h', w.hand⟩ v →
      ∀ reply, v.host.reply? ticket = some reply → reply.Reports
  performed : ∀ reply h', w.host.perform E s r = (some reply, h') → reply.Reports

end Bench
end PacketAuth
