import PacketAuth.Proofs.Effect

/-! The operations of a host are runs: whatever holds along every interleaving holds along every
sequence of them. -/
namespace PacketAuth.World
variable {σ : Type} {R : Rules σ}

theorem run_deliverNext (n : Nat) (h : Host σ) (hand : List Job) :
    Run R ⟨h, hand⟩ ⟨h.deliverNext R.engine n, hand⟩ := by
  induction n generalizing h with
  | zero => exact .refl
  | succ n ih =>
    rw [Host.deliverNext]
    split
    · exact .refl
    · rename_i step hstep
      have taken := Next.take (R := R) ⟨h, hand⟩ hstep
      have delivered := Next.deliver (R := R)
        { h with engine := step.state, log := step.events.reverse ++ h.log } hand step.answer []
      rw [List.append_nil] at delivered
      exact .head taken (.head delivered (ih _))

theorem run_drain (h : Host σ) (hand : List Job) : Run R ⟨h, hand⟩ ⟨h.drain R.engine, hand⟩ :=
  run_deliverNext _ h hand

/-- A host after its engine has passed on the jobs it had in hand, in their order. -/
def passOn (E : Engine σ) (w : World σ) : Host σ :=
  w.hand.foldl (fun h job => h.deliver E job) w.host

/-- A host after its engine has passed on the jobs it had in hand, and all that came back then. -/
def drained (E : Engine σ) (w : World σ) : Host σ := (w.passOn E).drain E

theorem run_passOn (w : World σ) : Run R w ⟨w.passOn R.engine, []⟩ := by
  obtain ⟨h, hand⟩ := w
  induction hand generalizing h with
  | nil => exact .refl
  | cons job hand ih => exact .head (.deliver h [] job hand) (ih _)

theorem run_drained (w : World σ) : Run R w ⟨w.drained R.engine, []⟩ :=
  (run_passOn w).trans (run_drain _ [])

/-- Passing on a job concerns its own call and no other. -/
theorem Settlement.other {E : Engine σ} {h h' : Host σ} {job : Job} (s : Settlement E h job h')
    {ticket : Nat} (hj : job.recipient ≠ some (.call ticket)) :
    h'.calls[ticket]? = h.calls[ticket]? := by
  have apart : ∀ {t}, job.recipient = some (.call t) → t ≠ ticket := by
    rintro t ht rfl
    exact hj ht
  cases s with
  | strayed | resubmitted | refused => rfl
  | finished ht | stranded ht => exact List.getElem?_set_ne (apart ht)

/-- What passing on a job for a call leaves behind, with the log that comes with it. -/
def passed (E : Engine σ) (ticket : Nat) (c : Call) (job : Job) (log : List Event) (h : Host σ) :
    Host σ :=
  match c.react job with
  | .resubmit job =>
    { h with
      engine := (E.submit job c.retry.backoff h.now h.engine).state
      services := h.services.modify c.request.service (·.count .busyRetries)
      log }
  | .settle job _ =>
    if c.slot = .pending then
      if c.isWaiting then
        { h with
          engine := E.release job h.engine
          services := h.services.modify c.request.service (c.credit job)
          calls := h.calls.set ticket { c with slot := .taken, reply := some (c.ending job).reply }
          log }
      else { h with calls := h.calls.set ticket { c with slot := .completed job }, log }
    else
      { h with engine := if h.isEngineInUse then E.release job h.engine else h.engine, log }

/-- The call of a job decides what becomes of it. -/
theorem Settlement.of_call {E : Engine σ} {h h' : Host σ} {job : Job} (s : Settlement E h job h')
    {ticket : Nat} {c : Call} (hr : job.recipient = some (.call ticket))
    (hc : h.calls[ticket]? = some c) : ∃ log, h' = passed E ticket c job log h := by
  have own : ∀ {t d}, job.recipient = some (.call t) → h.calls[t]? = some d →
      ticket = t ∧ c = d := by
    intro t d hr' hd
    obtain rfl : ticket = t := by simpa [hr] using hr'
    exact ⟨rfl, Option.some.inj (hc.symm.trans hd)⟩
  unfold passed
  cases s with
  | strayed _ hn =>
    rw [hn ticket hr] at hc
    cases hc
  | resubmitted hj hd hb ha allowed hq =>
    obtain ⟨rfl, rfl⟩ := own hj hd
    subst hq
    have again : c.react job = .resubmit job.rearm := by simp [Call.react, hb, ha, allowed]
    rw [again]
    exact ⟨_, rfl⟩
  | finished hj hd hw hp settles =>
    obtain ⟨rfl, rfl⟩ := own hj hd
    rw [settles]
    simp only [if_pos hp, if_pos hw]
    exact ⟨_, rfl⟩
  | stranded hj hd hw hp settles =>
    obtain ⟨rfl, rfl⟩ := own hj hd
    rw [settles]
    simp only [if_pos hp, hw, if_neg Bool.false_ne_true]
    exact ⟨_, rfl⟩
  | refused hj hd hp settles =>
    obtain ⟨rfl, rfl⟩ := own hj hd
    rw [settles]
    simp only [if_neg hp]
    exact ⟨_, rfl⟩

theorem deliver_of_call (E : Engine σ) {h : Host σ} {job : Job} {ticket : Nat} {c : Call}
    (hr : job.recipient = some (.call ticket)) (hc : h.calls[ticket]? = some c) :
    ∃ log, h.deliver E job = passed E ticket c job log h :=
  (settlement_deliver E h job).of_call hr hc

theorem Settlement.length {E : Engine σ} {h h' : Host σ} {job : Job} (s : Settlement E h job h') :
    h'.calls.length = h.calls.length := by
  cases s with
  | strayed | resubmitted | refused => rfl
  | finished | stranded => exact List.length_set

theorem passOn_other (E : Engine σ) (w : World σ) {ticket : Nat}
    (hj : ∀ j ∈ w.hand, j.recipient ≠ some (.call ticket)) :
    (w.passOn E).calls[ticket]? = w.host.calls[ticket]? := by
  obtain ⟨h, hand⟩ := w
  induction hand generalizing h with
  | nil => rfl
  | cons job hand ih =>
    obtain ⟨first, others⟩ := List.forall_mem_cons.mp hj
    exact (ih _ others).trans ((settlement_deliver E h job).other first)

theorem entered_run {w₀ w : World σ} (reach : Run R w₀ w) {s : Service} {r : Request}
    (hs : w.host.services[r.service]? = some s) {ticket : Nat} {h' : Host σ}
    (he : w.host.enter R.engine s r = (.ok ticket, h')) : Run R w₀ ⟨h', w.hand⟩ := by
  have next := Next.enter (R := R) w hs
  rw [he] at next
  exact reach.tail next

section Waiting
variable {hand : List Job} (hl : ∀ h ticket, R.mayLook ⟨h, hand⟩ ticket)
include hl

theorem run_looks (tickets : List Nat) (h : Host σ) :
    Run R ⟨h, hand⟩ ⟨tickets.foldl (fun h ticket => h.look R.engine ticket) h, hand⟩ := by
  induction tickets generalizing h with
  | nil => exact .refl
  | cons ticket tickets ih => exact .head (.look ⟨h, hand⟩ (hl _ ticket)) (ih _)

theorem run_trigger (i : Nat) (reason : CancelReason) (h : Host σ) :
    Run R ⟨h, hand⟩ ⟨h.trigger R.engine i reason, hand⟩ :=
  .head (.trigger ⟨h, hand⟩ i reason) (run_looks hl _ _)

theorem run_start {h : Host σ} {s : Service} {r : Request} (hs : h.services[r.service]? = some s) :
    Run R ⟨h, hand⟩ ⟨(h.start R.engine s r).2, hand⟩ := by
  have entered : Run R ⟨h, hand⟩ ⟨(h.enter R.engine s r).2, hand⟩ := .single (.enter ⟨h, hand⟩ hs)
  rw [Host.start]
  split
  · rename_i heq
    rwa [heq] at entered
  · rename_i ticket h' heq
    rw [heq] at entered
    exact entered.trans
      ((run_drain h' hand).tail (.look ⟨h'.drain R.engine, hand⟩ (hl _ ticket)))

theorem run_advance {h : Host σ} (hh : h.isHeld = true) (instant : Nat) :
    Run R ⟨h, hand⟩ ⟨h.advance R.engine instant, hand⟩ := by
  have passed : Run R ⟨h, hand⟩ ⟨{ h with now := max h.now instant }, hand⟩ :=
    .single (.pass ⟨h, hand⟩ instant)
  have run := passed.trans ((run_drain _ hand).trans (run_looks hl
    (List.range ({ h with now := max h.now instant }.drain R.engine).calls.length) _))
  rw [Host.advance, Host.closeUnused_of_held ((Run.isHeld run).trans hh)]
  exact run

theorem run_passUntil (done : Host σ → Bool) (limit : Option Nat) (n : Nat) {h : Host σ}
    (hh : h.isHeld = true) : Run R ⟨h, hand⟩ ⟨h.passUntil R.engine done limit n, hand⟩ := by
  induction n generalizing h with
  | zero => exact .refl
  | succ n ih =>
    rw [Host.passUntil]
    split
    · exact .refl
    · split
      · exact .refl
      · rename_i instant _
        split
        · exact .refl
        · have advanced := run_advance hl hh instant
          exact advanced.trans (ih ((Run.isHeld advanced).trans hh))

/-- A request that was let in goes on to the reply of its call. -/
theorem run_performed {h h' : Host σ} {s : Service} {r : Request} {ticket : Nat}
    (he : h.enter R.engine s r = (.ok ticket, h')) (hh : h'.isHeld = true) :
    Run R ⟨h', hand⟩ ⟨(h.perform R.engine s r).2, hand⟩ ∧
      (h.perform R.engine s r).1 = (h.perform R.engine s r).2.reply? ticket := by
  have looked : Run R ⟨h', hand⟩ ⟨(h'.drain R.engine).look R.engine ticket, hand⟩ :=
    (run_drain h' hand).tail (.look ⟨h'.drain R.engine, hand⟩ (hl _ ticket))
  rw [Host.perform, Host.start, he]
  exact ⟨looked.trans (run_passUntil hl _ none _ ((Run.isHeld looked).trans hh)), rfl⟩

theorem run_perform {h : Host σ} (hh : h.isHeld = true) {s : Service} {r : Request}
    (hs : h.services[r.service]? = some s) :
    Run R ⟨h, hand⟩ ⟨(h.perform R.engine s r).2, hand⟩ := by
  have entered : Run R ⟨h, hand⟩ ⟨(h.enter R.engine s r).2, hand⟩ := .single (.enter ⟨h, hand⟩ hs)
  cases he : h.enter R.engine s r with
  | mk answer h' =>
    rw [he] at entered
    cases answer with
    | error f =>
      rw [Host.perform, Host.start, he]
      exact entered
    | ok ticket =>
      exact entered.trans (run_performed hl he ((Run.isHeld entered).trans hh)).1

end Waiting
end PacketAuth.World
