import PacketAuth.Host.Return

/-! The passage of time: from one instant at which something happens by itself to the next. -/
namespace PacketAuth.Host
variable {σ : Type}

/-- Moves on to an instant: first the jobs that come back, then every wait that is over. A call
that ended may have been the last to use the engine. -/
def advance (E : Engine σ) (instant : Nat) (h : Host σ) : Host σ :=
  let h := drain E { h with now := max h.now instant }
  closeUnused E ((List.range h.calls.length).foldl (fun h ticket => look E ticket h) h)

/-- Moves on until a condition holds, nothing more happens by itself, or the next thing lies
behind a limit; at most `n` times. -/
def passUntil (E : Engine σ) (done : Host σ → Bool) (limit : Option Nat) : Nat → Host σ → Host σ
  | 0, h => h
  | n + 1, h =>
    if done h then h
    else
      match h.nextInstant E with
      | none => h
      | some instant =>
        if limit.any (· < instant) then h
        else passUntil E done limit n (advance E instant h)

/-- An instant hands back a job or ends a wait, so there are at most this many. -/
def instants (E : Engine σ) (h : Host σ) : Nat :=
  E.backlog h.engine + (h.calls.filter Call.isWaiting).length + 1

/-- Waits for the reply of a call. -/
def await (E : Engine σ) (ticket : Nat) (h : Host σ) : Host σ :=
  passUntil E (fun h => (h.reply? ticket).isSome) none (instants E h) h

end PacketAuth.Host
