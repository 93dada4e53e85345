/-! The counters of a service, one for each way a call can end and a few for what happens on the
way. -/
namespace PacketAuth

structure Stats where
  generated : Nat := 0
  verifiedOk : Nat := 0
  verifiedFail : Nat := 0
  sessionsCreated : Nat := 0
  sessionFailures : Nat := 0
  busyRetries : Nat := 0
  interrupted : Nat := 0
  engineFailures : Nat := 0
  malformed : Nat := 0
  deriving Repr, DecidableEq

namespace Stats

inductive Counter where
  | generated
  | verifiedOk
  | verifiedFail
  | sessionsCreated
  | sessionFailures
  | busyRetries
  | interrupted
  | engineFailures
  | malformed
  deriving Repr, DecidableEq

def count (s : Stats) : Counter → Stats
  | .generated => { s with generated := s.generated + 1 }
  | .verifiedOk => { s with verifiedOk := s.verifiedOk + 1 }
  | .verifiedFail => { s with verifiedFail := s.verifiedFail + 1 }
  | .sessionsCreated => { s with sessionsCreated := s.sessionsCreated + 1 }
  | .sessionFailures => { s with sessionFailures := s.sessionFailures + 1 }
  | .busyRetries => { s with busyRetries := s.busyRetries + 1 }
  | .interrupted => { s with interrupted := s.interrupted + 1 }
  | .engineFailures => { s with engineFailures := s.engineFailures + 1 }
  | .malformed => { s with malformed := s.malformed + 1 }

def get (s : Stats) : Counter → Nat
  | .generated => s.generated
  | .verifiedOk => s.verifiedOk
  | .verifiedFail => s.verifiedFail
  | .sessionsCreated => s.sessionsCreated
  | .sessionFailures => s.sessionFailures
  | .busyRetries => s.busyRetries
  | .interrupted => s.interrupted
  | .engineFailures => s.engineFailures
  | .malformed => s.malformed

/-- All counters under their names, in the order of a snapshot. -/
def snapshot (s : Stats) : List (String × Nat) :=
  [("generated", s.generated), ("verified_ok", s.verifiedOk), ("verified_fail", s.verifiedFail),
   ("sessions_created", s.sessionsCreated), ("session_failures", s.sessionFailures),
   ("busy_retries", s.busyRetries), ("interrupted", s.interrupted),
   ("engine_failures", s.engineFailures), ("malformed", s.malformed)]

@[simp] theorem get_count (s : Stats) (c d : Counter) :
    (s.count c).get d = s.get d + if c = d then 1 else 0 := by
  cases c <;> cases d <;> rfl

end Stats
end PacketAuth
