import PacketAuth.Proofs.Intact

/-! How the end of a request is reported. Whatever codes an engine fails with, a failure never has
the code of a success: each failure has a positive one. -/
namespace PacketAuth

namespace Reply

/-- The status of a reply tells success from failure, and so does its code. -/
structure Reports (reply : Reply) : Prop where
  success : reply.status = .success ↔ reply.result = .ok ()
  status : ∀ f, reply.result = .error f → reply.status = .ofFailure f
  code : reply.status.code = 0 ↔ reply.result = .ok ()
  positive : ∀ f, reply.result = .error f → 0 < reply.status.code
  engine : ∀ f code, reply.result = .error f → f.kind = .engineFailed code → 0 < code

/-- No engine failure in the reply has the code of a success. -/
def Positive (reply : Reply) : Prop :=
  ∀ f code, reply.result = .error f → f.kind = .engineFailed code → 0 < code

theorem Positive.of_failed {r : Request} {f : Failure}
    (h : ∀ code, f.kind = .engineFailed code → 0 < code) : (Reply.failed r f).Positive := by
  intro g code same hk
  obtain rfl : f = g := Except.error.inj same
  exact h code hk

theorem Positive.of_ok (buffer : List UInt8) : (⟨.ok (), buffer⟩ : Reply).Positive := nofun

end Reply

/-- An engine may fail with any code, and what it did not process has none; a positive code is
reported in any case. -/
theorem Outcome.failureCode_positive (o : Outcome) : 0 < o.failureCode := by
  unfold failureCode
  split
  · split
    · assumption
    · decide
  · decide

theorem Job.verdict_positive {job : Job} {f : Failure} (h : job.verdict = .error f) {code : Int32}
    (hk : f.kind = .engineFailed code) : 0 < code := by
  unfold verdict at h
  split at h
  · split at h
    · cases h
    · cases h
      obtain rfl := FailureKind.engineFailed.inj hk
      decide
  · cases h
    obtain rfl := FailureKind.engineFailed.inj hk
    exact Outcome.failureCode_positive _

theorem Call.ending_positive (c : Call) (job : Job) : (c.ending job).reply.Positive := by
  cases hv : job.verdict with
  | error f =>
    rw [(c.ending_of_error hv).1]
    exact .of_failed fun _ => Job.verdict_positive hv
  | ok tag =>
    cases hc : c.request.command with
    | write =>
      rw [ending_of_write hv hc]
      exact .of_ok _
    | read =>
      rw [ending_of_read hv hc]
      split
      · exact .of_ok _
      · exact .of_failed nofun

namespace World
variable {σ : Type} {R : Rules σ} {E : Engine σ} {w w' : World σ} {s : Service} {r : Request}

/-- No reply of a call has the code of a success in a failure. -/
def Candid (w : World σ) : Prop := ∀ c ∈ w.host.calls, ∀ reply, c.reply = some reply → reply.Positive

theorem Candid.set (h : w.Candid) {ticket : Nat} {d : Call}
    (hd : ∀ reply, d.reply = some reply → reply.Positive) :
    ∀ c ∈ w.host.calls.set ticket d, ∀ reply, c.reply = some reply → reply.Positive := by
  intro c mem
  rcases List.mem_or_eq_of_mem_set mem with mem | rfl
  · exact h c mem
  · exact hd

theorem Candid.effect (h : w.Candid) (e : Effect R w w') : w'.Candid := by
  have ended : ∀ (ticket : Nat) (c : Call) (job : Job),
      ∀ d ∈ w.host.calls.set ticket { c with slot := .taken, reply := some (c.ending job).reply },
        ∀ reply, d.reply = some reply → reply.Positive := by
    intro ticket c job
    refine h.set fun reply hr => ?_
    obtain rfl := Option.some.inj hr
    exact c.ending_positive job
  cases e with
  | aside | installed | misconfigured | dropped | changed | opened | notOpened | rejected | starved |
    taken => exact h
  | admitted =>
    intro c mem reply hr
    rcases List.mem_append.mp mem with mem | mem
    · exact h c mem reply hr
    · rw [List.mem_singleton.mp mem] at hr
      cases hr
  | passed host before after s =>
    cases s with
    | strayed | resubmitted | refused => exact h
    | finished => exact ended _ _ _
    | @stranded _ _ c _ _ hc =>
      refine h.set fun reply hr => ?_
      exact h c (List.mem_of_getElem? hc) reply hr
  | collected => exact ended _ _ _
  | left =>
    refine h.set fun reply hr => ?_
    obtain rfl := Option.some.inj hr
    exact .of_failed nofun

theorem Candid.effects (h : w.Candid) (e : Effects R w w') : w'.Candid := by
  induction e with
  | refl => exact h
  | tail _ effect ih => exact ih.effect effect

end World
end PacketAuth
