import PacketAuth.Event

/-! What a service needs of an engine. An engine works on its own schedule: a submitted job comes
back, with an outcome, when the engine hands it back. -/
namespace PacketAuth

/-- What an engine operation leaves behind: its answer, the next state, and the events logged. -/
structure Step (σ α : Type) where
  answer : α
  state : σ
  events : List Event := []

/-- An engine over its own state. Instants and delays are in milliseconds. -/
structure Engine (σ : Type) where
  createSession : AuthKey → σ → Step σ (Except EngineError SessionHandle)
  /-- A job to fill, unless all are out. -/
  acquire : σ → Step σ (Option Job)
  /-- Takes a job, to be started after a delay, at a given instant. -/
  submit : Job → (delay now : Nat) → σ → Step σ Unit
  /-- The next job that comes back at a given instant, if there is one. -/
  handBack : (now : Nat) → σ → Option (Step σ Job)
  release : Job → σ → σ
  /-- Takes back a submitted job that was not started. -/
  cancel : JobId → σ → Step σ (Option Job)
  /-- The first instant at which a deferred job may start. -/
  wake : σ → Option Nat
  /-- How many jobs can come back at most if nothing is submitted but busy jobs anew. -/
  backlog : σ → Nat
  /-- What happens when the last user of the engine is gone. -/
  close : σ → Step σ Unit

end PacketAuth
