import PacketAuth.Proofs.Keying
import PacketAuth.Proofs.Operation

/-! A call that nothing disturbs. While no fault is pending, the engine is not at its end, and no
wait of the call runs out, the call can only end with the tag that the engine computed. -/
namespace PacketAuth

/-- The engine gave the request a tag: it succeeded, or failed over nothing but the tag. -/
def Reply.PassedEngine (r : Reply) : Prop :=
  match r.result with
  | .ok () => True
  | .error f => f.kind = .authenticationMismatch

theorem Call.ending_passedEngine (c : Call) {job : Job} {tag : Tag} (h : job.verdict = .ok tag) :
    (c.ending job).reply.PassedEngine := by
  cases hc : c.request.command with
  | write =>
    rw [c.ending_of_write h hc]
    trivial
  | read =>
    rw [c.ending_of_read h hc]
    split
    · trivial
    · rfl

/-- As `Software.rules`, but the engine stays free of faults, and the wait of one call never looks
at its interrupt or at the time. -/
def Software.undisturbed (ticket : Nat) : Rules Software where
  engine := engine
  change s step := Change s step ∧ step.state.Untroubled
  mayLook _ t := t ≠ ticket

namespace World

theorem Effect.ofUndisturbed {ticket : Nat} {w w' : World Software}
    (e : Effect (Software.undisturbed ticket) w w') : Effect Software.rules w w' :=
  Effect.mono (R := Software.undisturbed ticket) rfl (fun _ _ h => h.1)
    (fun _ _ _ _ _ _ => trivial) e

/-- What holds of an undisturbed call: its job was never deferred, came back done if it came back,
and its reply has passed the engine. -/
structure Undisturbed (w : World Software) (ticket : Nat) : Prop where
  keyed : Keyed w
  untroubled : w.host.engine.Untroubled
  entered : ticket < w.host.calls.length
  prompt : ∀ q ∈ w.host.engine.queue, q.job.recipient = some (.call ticket) → q.notBefore = none
  done : ∀ j ∈ w.hand, j.recipient = some (.call ticket) → j.outcome = .done
  passed : ∀ reply, w.host.reply? ticket = some reply → reply.PassedEngine

namespace Undisturbed
variable {w w' : World Software} {ticket : Nat}

theorem keep (h : Undisturbed w ticket) (keyed : Keyed w') (hu : w'.host.engine.Untroubled)
    (hc : w'.host.calls[ticket]? = w.host.calls[ticket]?)
    (hq : ∀ q ∈ w'.host.engine.queue, q.job.recipient = some (.call ticket) →
      q ∈ w.host.engine.queue ∨ q.notBefore = none)
    (hh : ∀ j ∈ w'.hand, j.recipient = some (.call ticket) → j ∈ w.hand ∨ j.outcome = .done) :
    Undisturbed w' ticket where
  keyed := keyed
  untroubled := hu
  entered := by
    have hget := List.getElem?_eq_getElem h.entered
    rw [← hc] at hget
    exact (List.getElem?_eq_some_iff.mp hget).1
  prompt q hmem hr := (hq q hmem hr).elim (fun old => h.prompt q old hr) id
  done j hmem hr := (hh j hmem hr).elim (fun old => h.done j old hr) id
  passed reply hreply := h.passed reply (by rwa [Host.reply?, hc] at hreply)

theorem taken (h : Undisturbed w ticket) {step : PacketAuth.Step Software Job}
    (hstep : w.host.engine.handBack w.host.now = some step) :
    Undisturbed ⟨{ w.host with engine := step.state, log := step.events.reverse ++ w.host.log },
      w.hand ++ [step.answer]⟩ ticket := by
  obtain ⟨before, q, after, hqueue, -, hanswer, hstate⟩ :=
    Software.handBack_untroubled h.untroubled hstep
  refine h.keep (h.keyed.taken hstep) ?_ rfl (fun x hx hr => .inl ?_) fun j hj hr => ?_
  · rw [hstate]
    exact ⟨h.untroubled.running, h.untroubled.busy, h.untroubled.jobs⟩
  · rw [hqueue]
    simp only [hstate, Software.record] at hx
    exact mem_of_removed hx
  · rcases List.mem_append.mp hj with hj | hj
    · exact .inl hj
    · right
      have mem : q.job ∈ w.afloat := by
        refine List.mem_append_left _ (List.mem_append_right _ ?_)
        rw [Software.queued, hqueue]
        simp
      have hrecipient : q.job.recipient = some (.call ticket) := by
        obtain ⟨output, outcome, hprocess, -⟩ :=
          Software.process_spec w.host.engine.sessions q.job
        rw [List.mem_singleton.mp hj, hanswer, hprocess] at hr
        exact hr
      obtain ⟨s, serves, hsplit⟩ := h.keyed.calls ticket _ (List.getElem?_eq_getElem h.entered)
      have filled := h.keyed.filled q.job mem ticket _ s hrecipient serves
      rw [List.mem_singleton.mp hj, hanswer]
      exact filled.process_done h.keyed.distinct hsplit

/-- Another call ends, or this one with the job that came back for it. -/
theorem passedOn {host host' : Host Software} {before after : List Job} {job : Job}
    (h : Undisturbed ⟨host, before ++ job :: after⟩ ticket)
    (s : Settlement Software.engine host job host') :
    Undisturbed ⟨host', before ++ after⟩ ticket := by
  have keyed := h.keyed.passed s
  have mem : job ∈ before ++ job :: after := List.mem_append_right before List.mem_cons_self
  have rest : ∀ j ∈ before ++ after, j ∈ before ++ job :: after := fun _ => mem_of_removed
  cases s with
  | strayed =>
    exact h.keep keyed h.untroubled rfl (fun q hq _ => .inl hq) fun j hj _ => .inl (rest j hj)
  | resubmitted hj hc hb ha hr hq =>
    subst hq
    refine h.keep keyed (Software.submit_untroubled h.untroubled _ _ _) rfl
      (fun q hq hrecipient => ?_) fun j hj _ => .inl (rest j hj)
    have hq := Software.queue_of_submit hq
    rcases List.mem_append.mp hq with hq | hq
    · exact .inl hq
    · rw [List.mem_singleton.mp hq] at hrecipient
      have hdone := h.done job mem hrecipient
      rw [hb] at hdone
      cases hdone
  | @finished job' t c exhausted hj hc hw hp hr =>
    have hu : (Software.engine.release job' host.engine).Untroubled :=
      ⟨h.untroubled.running, h.untroubled.busy, h.untroubled.jobs⟩
    by_cases same : t = ticket
    · subst same
      have hdone := h.done job mem hj
      obtain rfl : job' = job := by
        rcases Call.settle_of_pending hp hr with ⟨-, heq⟩ | ⟨hb, -⟩
        · exact heq
        · rw [hb] at hdone
          cases hdone
      obtain ⟨s, serves, -⟩ := h.keyed.calls t c hc
      obtain ⟨tag, hverdict, -⟩ := h.keyed.carried job' mem t c s hj serves hdone
      refine ⟨keyed, hu, ?_, h.prompt, fun j hj => h.done j (rest j hj), fun reply hreply => ?_⟩
      · rw [List.length_set]
        exact h.entered
      · obtain rfl : (c.ending job').reply = reply := by
          simpa [Host.reply?, List.getElem?_set_self h.entered] using hreply
        exact c.ending_passedEngine hverdict
    · exact h.keep keyed hu (List.getElem?_set_ne same) (fun q hq _ => .inl hq)
        fun j hj _ => .inl (rest j hj)
  | stranded hj hc hw hp hr =>
    have waiting := (h.keyed.custody.slots _ (List.mem_of_getElem? hc)).mp hp
    rw [waiting] at hw
    cases hw
  | refused hj hc hp hr =>
    refine h.keep keyed ?_ rfl (fun q hq _ => .inl ?_) fun j hj _ => .inl (rest j hj)
    · dsimp only
      split
      · exact ⟨h.untroubled.running, h.untroubled.busy, h.untroubled.jobs⟩
      · exact h.untroubled
    · revert hq
      dsimp only
      split <;> exact id

theorem effect (h : Undisturbed w ticket) (e : Effect (Software.undisturbed ticket) w w') :
    Undisturbed w' ticket := by
  have keyed := h.keyed.effect e.ofUndisturbed
  have hu := h.untroubled
  cases e with
  | aside | installed | misconfigured | dropped | rejected =>
    exact h.keep keyed hu rfl (fun q hq _ => .inl hq) fun j hj _ => .inl hj
  | changed _ hchange =>
    obtain ⟨hchange, hu'⟩ := hchange
    exact h.keep keyed hu' rfl (fun q hq _ => .inl (hchange.queue_subset hq)) fun j hj _ => .inl hj
  | opened | notOpened =>
    refine h.keep keyed (Software.createSession_untroubled hu _) rfl (fun q hq _ => .inl ?_)
      fun j hj _ => .inl hj
    exact (Software.createSession_frame _ w.host.engine).1 ▸ hq
  | starved _ hs ha =>
    refine h.keep keyed (Software.acquire_untroubled hu) rfl (fun q hq _ => .inl ?_)
      fun j hj _ => .inl hj
    exact Software.acquire_queue w.host.engine ▸ hq
  | admitted _ hs hl hr ho ha hq =>
    have acquired := Software.acquire_untroubled hu
    subst hq
    refine h.keep keyed (Software.submit_untroubled acquired _ _ _)
      (List.getElem?_append_left h.entered) (fun q hq _ => ?_) fun j hj _ => .inl hj
    have hq := Software.queue_of_submit hq
    rcases List.mem_append.mp hq with hq | hq
    · exact .inl (Software.acquire_queue w.host.engine ▸ hq)
    · rw [List.mem_singleton.mp hq]
      exact .inr rfl
  | taken _ hstep => exact h.taken hstep
  | passed host before after s => exact h.passedOn s
  | collected _ hl hc hw hp =>
    have pending := (h.keyed.custody.slots _ (List.mem_of_getElem? hc)).mpr hw
    rw [pending] at hp
    cases hp
  | left _ hl hc hw hp =>
    refine h.keep keyed (Software.withdraw_untroubled hu _) (List.getElem?_set_ne hl)
      (fun q hq _ => .inl ?_) fun j hj _ => .inl hj
    exact Software.withdraw_queue _ _ hq

theorem effects (h : Undisturbed w ticket) (e : Effects (Software.undisturbed ticket) w w') :
    Undisturbed w' ticket := by
  induction e with
  | refl => exact h
  | tail _ effect ih => exact ih.effect effect

end Undisturbed

/-- A job that is not busy leaves the engine's queue as it is. -/
theorem Settlement.calm {h h' : Host Software} {job : Job} (hb : job.outcome ≠ .busy)
    (hu : h.engine.Untroubled) (s : Settlement Software.engine h job h') :
    h'.engine.Untroubled ∧ h'.engine.queue = h.engine.queue ∧
      h'.engine.paused = h.engine.paused ∧ h'.now = h.now := by
  obtain ⟨hrunning, hbusy, hjobs⟩ := hu
  cases s with
  | strayed | finished | stranded => exact ⟨⟨hrunning, hbusy, hjobs⟩, rfl, rfl, rfl⟩
  | resubmitted hj hc hbusy => exact absurd hbusy hb
  | refused =>
    dsimp only
    split <;> exact ⟨⟨hrunning, hbusy, hjobs⟩, rfl, rfl, rfl⟩

/-- An untroubled engine hands back one job after the other, until none is ready. -/
theorem deliverNext_rests (n : Nat) {h : Host Software} (hu : h.engine.Untroubled)
    (hp : h.engine.paused = false) (hn : h.engine.queue.length ≤ n) :
    let h' := h.deliverNext Software.engine n
    h'.engine.Untroubled ∧ h'.engine.paused = false ∧ h'.engine.handBack h'.now = none := by
  induction n generalizing h with
  | zero =>
    have hempty : h.engine.queue = [] := List.length_eq_zero_iff.mp (Nat.le_zero.mp hn)
    refine ⟨hu, hp, ?_⟩
    simp [Host.deliverNext, Software.handBack, hu.running, hp, hempty, Queue.popReady]
  | succ n ih =>
    rw [Host.deliverNext]
    split
    · rename_i hnone
      exact ⟨hu, hp, hnone⟩
    · rename_i step hstep
      obtain ⟨before, q, after, hqueue, -, hanswer, hstate⟩ :=
        Software.handBack_untroubled hu hstep
      have hb : step.answer.outcome ≠ .busy := by
        rw [hanswer]
        exact Software.process_not_busy _ _
      have taken : step.state.Untroubled := by
        rw [hstate]
        exact ⟨hu.running, hu.busy, hu.jobs⟩
      obtain ⟨calm, hsame, hpaused, -⟩ := (settlement_deliver Software.engine
        { h with engine := step.state, log := step.events.reverse ++ h.log } step.answer).calm hb
        taken
      refine ih calm (hpaused.trans ?_) ?_
      · rw [hstate]
        exact hp
      · rw [hsame, hstate]
        rw [hqueue] at hn
        simp only [Software.record, List.length_append, List.length_cons] at hn ⊢
        omega

theorem Settlement.paused {h h' : Host Software} {job : Job}
    (s : Settlement Software.engine h job h') : h'.engine.paused = h.engine.paused := by
  cases s with
  | strayed | finished | stranded => rfl
  | resubmitted _ _ _ _ _ hq =>
    subst hq
    exact Software.submit_paused _ _ _ _
  | refused =>
    dsimp only
    split <;> rfl

theorem passOn_paused (w : World Software) :
    (w.passOn Software.engine).engine.paused = w.host.engine.paused := by
  obtain ⟨h, hand⟩ := w
  induction hand generalizing h with
  | nil => rfl
  | cons job hand ih => exact (ih _).trans (settlement_deliver Software.engine h job).paused

/-- While the engine is not paused, an undisturbed call whose job is not in hand has its reply as
soon as the engine has handed back all it can. -/
theorem Undisturbed.replied {h : Host Software} {hand : List Job} {ticket : Nat}
    (u : Undisturbed ⟨h, hand⟩ ticket) (hp : h.engine.paused = false)
    (others : ∀ j ∈ hand, j.recipient ≠ some (.call ticket)) :
    ∃ reply, (h.drain Software.engine).reply? ticket = some reply ∧ reply.PassedEngine := by
  have backlog : h.engine.queue.length ≤ Software.engine.backlog h.engine := by
    simp only [Software.engine]
    omega
  obtain ⟨untroubled, paused, hnone⟩ := deliverNext_rests _ u.untroubled hp backlog
  have u' : Undisturbed ⟨h.drain Software.engine, hand⟩ ticket :=
    u.effects (Run.effects (run_drain (R := Software.undisturbed ticket) h hand))
  obtain ⟨c, hget⟩ : ∃ c, (h.drain Software.engine).calls[ticket]? = some c :=
    ⟨_, List.getElem?_eq_getElem u'.entered⟩
  cases hr : c.reply with
  | some reply =>
    have hreply : (h.drain Software.engine).reply? ticket = some reply := by
      rw [Host.reply?, hget]
      exact hr
    exact ⟨reply, hreply, u'.passed reply hreply⟩
  | none =>
    -- the job of a call that waits is in the queue, and ready
    have hw : c.isWaiting = true := by rw [Call.isWaiting, hr]; rfl
    obtain ⟨j, hj, recipient, -⟩ := u'.keyed.custody.job_of_waiting hget hw
    have queued : j ∈ (h.drain Software.engine).engine.queued := by
      have none := u'.keyed.custody.failing untroubled.running
      rw [afloat, Software.inside, none, List.nil_append] at hj
      exact (List.mem_append.mp hj).resolve_right fun hmem => others j hmem recipient
    obtain ⟨q, hq, rfl⟩ := List.mem_map.mp queued
    have hready := Software.handBack_eq_none untroubled.running paused hnone q hq
    rw [Queued.isReady, u'.prompt q hq recipient] at hready
    cases hready

/-- It has its reply also when the engine first passes on what it has in hand. -/
theorem Undisturbed.drained {w : World Software} {ticket : Nat} (u : Undisturbed w ticket)
    (hp : w.host.engine.paused = false) :
    ∃ reply, (w.drained Software.engine).reply? ticket = some reply ∧ reply.PassedEngine := by
  have passed : Undisturbed ⟨w.passOn Software.engine, []⟩ ticket :=
    u.effects (Run.effects (run_passOn (R := Software.undisturbed ticket) w))
  exact passed.replied (w.passOn_paused.trans hp) nofun

end World
end PacketAuth
