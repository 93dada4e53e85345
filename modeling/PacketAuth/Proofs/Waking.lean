import PacketAuth.Proofs.Entry
import PacketAuth.Proofs.Persistence

/-! Waits on an interrupt. A call is entered on the list of its interrupt once, when it is let in,
and a trigger takes the whole list to wake it: whoever is not on the list any more was woken. -/
namespace PacketAuth

namespace Request

theorem registered_waiters (r : Request) (ticket : Nat) (interrupts : Nat → Interrupt) (i : Nat) :
    (r.registered ticket interrupts i).waiters =
      (interrupts i).waiters ++ if r.interrupt = some i then [ticket] else [] := by
  unfold registered
  cases r.interrupt with
  | none => simp
  | some j =>
    by_cases same : i = j
    · simp [same, Interrupt.register]
    · simp [same, Ne.symm same]

theorem registered_reason (r : Request) (ticket : Nat) (interrupts : Nat → Interrupt) (i : Nat) :
    (r.registered ticket interrupts i).reason = (interrupts i).reason := by
  unfold registered
  cases r.interrupt with
  | none => rfl
  | some j =>
    by_cases same : i = j
    · simp [same, Interrupt.register]
    · simp [same]

end Request

namespace Host
variable {σ : Type} {h h' : Host σ} {ticket : Nat}

/-- The interrupt that a call was given. -/
def given (ticket : Nat) (h : Host σ) : Option Nat :=
  (h.calls.map Call.request)[ticket]?.bind Request.interrupt

theorem given_of_call {c : Call} (hc : h.calls[ticket]? = some c) :
    h.given ticket = c.request.interrupt := by
  simp [given, hc]

theorem call_of_given {i : Nat} (hg : h.given ticket = some i) :
    ∃ c, h.calls[ticket]? = some c ∧ c.request.interrupt = some i := by
  obtain ⟨r, hr, hi⟩ := Option.bind_eq_some_iff.mp hg
  rw [List.getElem?_map] at hr
  obtain ⟨c, hc, rfl⟩ := Option.map_eq_some_iff.mp hr
  exact ⟨c, hc, hi⟩

theorem given_congr (hr : h'.calls.map Call.request = h.calls.map Call.request) (ticket : Nat) :
    h'.given ticket = h.given ticket := by
  rw [given, hr, given]

theorem given_append {c : Call} (hc : h'.calls = h.calls ++ [c]) (ticket : Nat) :
    h'.given ticket =
      if ticket = h.calls.length then c.request.interrupt else h.given ticket := by
  rw [given, given, hc, List.map_append]
  split
  · rename_i same
    simp [same]
  · rename_i other
    rcases Nat.lt_or_gt_of_ne other with old | beyond
    · rw [List.getElem?_append_left (by rwa [List.length_map])]
    · rw [List.getElem?_eq_none, List.getElem?_eq_none] <;> simp <;> omega

/-- Letting a request in triggers no interrupt. -/
theorem enter_reason {E : Engine σ} (s : Service) (r : Request) (h : Host σ) (i : Nat) :
    ((h.enter E s r).2.interrupts i).reason = (h.interrupts i).reason := by
  rcases enter_calls (E := E) s r h with ⟨-, same⟩ | ⟨-, -, -, same⟩
  · rw [same]
  · rw [same, Request.registered_reason]

/-- A look answers a call, and leaves what was asked and the interrupts alone. -/
theorem look_frame (E : Engine σ) (ticket : Nat) (h : Host σ) :
    (h.look E ticket).calls.map Call.request = h.calls.map Call.request ∧
      (h.look E ticket).interrupts = h.interrupts := by
  rw [look]
  split
  · exact ⟨rfl, rfl⟩
  · rename_i c hc
    split
    · dsimp only
      split
      · exact ⟨rfl, rfl⟩
      · rw [finish_eq]
        exact ⟨requests_of_set hc rfl, rfl⟩
      · rw [leave_eq]
        exact ⟨requests_of_set hc rfl, rfl⟩
    · exact ⟨rfl, rfl⟩

end Host

namespace World
variable {σ : Type} {R : Rules σ} {w₀ w w' : World σ} {i ticket : Nat}

/-- An interrupt was triggered, and nobody has looked yet. -/
def triggered (i : Nat) (reason : CancelReason) (w : World σ) : World σ :=
  ⟨w.host.setInterrupt i ((w.host.interrupts i).trigger reason).2, w.hand⟩

/-- What a turn may do to the lists of the interrupts. -/
inductive Listing (w : World σ) : World σ → Prop
  | kept {w' : World σ} (hg : ∀ t, w'.host.given t = w.host.given t)
      (hl : ∀ i, (w'.host.interrupts i).waiters = (w.host.interrupts i).waiters) : Listing w w'
  | joined {w' : World σ} (r : Request)
      (hg : ∀ t, w'.host.given t =
        if t = w.host.calls.length then r.interrupt else w.host.given t)
      (hi : w'.host.interrupts = r.registered w.host.calls.length w.host.interrupts) : Listing w w'
  | woken (i : Nat) (reason : CancelReason) : Listing w (w.triggered i reason)

theorem Settlement.listing {E : Engine σ} {h h' : Host σ} {job : Job} {hand hand' : List Job}
    (s : Settlement E h job h') : Listing ⟨h, hand⟩ ⟨h', hand'⟩ := by
  cases s with
  | strayed | resubmitted | refused => exact .kept (fun _ => rfl) fun _ => rfl
  | finished _ hc | stranded _ hc =>
    exact .kept (Host.given_congr (requests_of_set hc rfl)) fun _ => rfl

theorem Next.listing (n : Next R w w') : Listing w w' := by
  cases n with
  | install _ b =>
    rw [Host.install]
    split <;> exact .kept (fun _ => rfl) fun _ => rfl
  | @ensureSession _ i s hs l =>
    rw [Host.ensureSession]
    split
    · exact .kept (fun _ => rfl) fun _ => rfl
    · rename_i lane _
      obtain ⟨hcalls, hinterrupts, -⟩ :=
        Host.openSession_frame (E := R.engine) i s.key lane w.host
      exact .kept (Host.given_congr (by rw [hcalls])) fun _ => by rw [hinterrupts]
  | @enter _ s r hs =>
    rcases Host.enter_calls (E := R.engine) s r w.host with
      ⟨hcalls, hinterrupts⟩ | ⟨c, rfl, hcalls, hinterrupts⟩
    · exact .kept (Host.given_congr (by rw [hcalls])) fun _ => by rw [hinterrupts]
    · exact .joined c.request (Host.given_append hcalls) hinterrupts
  | take | pass | dropService | change => exact .kept (fun _ => rfl) fun _ => rfl
  | deliver h before job after => exact (settlement_deliver R.engine h job).listing
  | @look _ t hl =>
    obtain ⟨hrequests, hinterrupts⟩ := Host.look_frame R.engine t w.host
    exact .kept (Host.given_congr hrequests) fun _ => by rw [hinterrupts]
  | trigger _ i reason => exact .woken i reason
  | reset _ i =>
    refine .kept (fun _ => rfl) fun j => ?_
    by_cases same : j = i
    · simp [Host.resetInterrupt, Host.setInterrupt, same, Interrupt.reset]
    · simp [Host.resetInterrupt, Host.setInterrupt, same]

theorem waiters_triggered (i : Nat) (reason : CancelReason) (w : World σ) (j : Nat) :
    ((w.triggered i reason).host.interrupts j).waiters =
      if j = i then [] else (w.host.interrupts j).waiters := by
  simp only [triggered, Host.setInterrupt]
  split <;> rfl

/-- On the way from one world to another, a trigger took a wait off the list of its interrupt. -/
def Woken (R : Rules σ) (w₀ w : World σ) (i ticket : Nat) : Prop :=
  ∃ v reason, Run R w₀ v ∧ ticket ∈ (v.host.interrupts i).waiters ∧ Run R (v.triggered i reason) w

theorem Woken.tail (h : Woken R w₀ w i ticket) (n : Next R w w') : Woken R w₀ w' i ticket := by
  obtain ⟨v, reason, before, hmem, after⟩ := h
  exact ⟨v, reason, before, hmem, after.tail n⟩

/-- The lists name calls that were given the interrupt, and every other such call was woken. -/
structure Listed (R : Rules σ) (w₀ w : World σ) : Prop where
  given : ∀ i ticket, ticket ∈ (w.host.interrupts i).waiters → w.host.given ticket = some i
  woken : ∀ i ticket, w.host.given ticket = some i →
    ticket ∈ (w.host.interrupts i).waiters ∨ Woken R w₀ w i ticket

theorem Listed.start (hc : w₀.host.calls = []) (hl : ∀ i, (w₀.host.interrupts i).waiters = []) :
    Listed R w₀ w₀ where
  given i ticket hmem := by simp [hl] at hmem
  woken i ticket hg := by simp [Host.given, hc] at hg

theorem Listed.tail (h : Listed R w₀ w) (reach : Run R w₀ w) (n : Next R w w') :
    Listed R w₀ w' := by
  have earlier : ∀ {i ticket}, Woken R w₀ w i ticket → Woken R w₀ w' i ticket := (·.tail n)
  cases n.listing with
  | kept hg hl =>
    refine ⟨fun i t hmem => ?_, fun i t ht => ?_⟩
    · rw [hl] at hmem
      exact (hg t).trans (h.given i t hmem)
    · rw [hl]
      exact (h.woken i t ((hg t).symm.trans ht)).imp_right earlier
  | joined r hg hi =>
    refine ⟨fun i t hmem => ?_, fun i t ht => ?_⟩
    · rw [hi, Request.registered_waiters] at hmem
      rw [hg]
      rcases List.mem_append.mp hmem with old | new
      · have known := h.given i t old
        obtain ⟨c, hc, -⟩ := Host.call_of_given known
        rw [if_neg (Nat.ne_of_lt (List.getElem?_eq_some_iff.mp hc).1)]
        exact known
      · split at new
        · rename_i hr
          rw [if_pos (List.mem_singleton.mp new), hr]
        · cases new
    · rw [hi, Request.registered_waiters, List.mem_append]
      rw [hg] at ht
      split at ht
      · rename_i new
        rw [if_pos ht, new]
        exact .inl (.inr List.mem_cons_self)
      · exact (h.woken i t ht).imp .inl earlier
  | woken j reason =>
    have same : ∀ t, (w.triggered j reason).host.given t = w.host.given t := fun _ => rfl
    refine ⟨fun i t hmem => ?_, fun i t ht => ?_⟩
    · rw [waiters_triggered] at hmem
      split at hmem
      · cases hmem
      · exact h.given i t hmem
    · rw [waiters_triggered]
      rw [same] at ht
      rcases h.woken i t ht with listed | gone
      · split
        · rename_i hj
          exact .inr ⟨w, reason, reach, listed, hj ▸ .refl⟩
        · exact .inl listed
      · exact .inr (earlier gone)

theorem Listed.run (h : Listed R w₀ w₀) (r : Run R w₀ w) : Listed R w₀ w := by
  induction r with
  | refl => exact h
  | tail reach next ih => exact ih.tail reach next

/-- Nobody is entered on a list again. -/
theorem not_listed_of_run (hg : w.host.given ticket = some i)
    (hn : ticket ∉ (w.host.interrupts i).waiters) (r : Run R w w') :
    w'.host.given ticket = some i ∧ ticket ∉ (w'.host.interrupts i).waiters := by
  induction r with
  | refl => exact ⟨hg, hn⟩
  | @tail v v' _ next ih =>
    obtain ⟨hg, hn⟩ := ih
    cases next.listing with
    | kept hg' hl => exact ⟨(hg' ticket).trans hg, by rwa [hl]⟩
    | joined r hg' hi =>
      obtain ⟨c, hc, -⟩ := Host.call_of_given hg
      have old := Nat.ne_of_lt (List.getElem?_eq_some_iff.mp hc).1
      refine ⟨by rw [hg', if_neg old, hg], ?_⟩
      rw [hi, Request.registered_waiters, List.mem_append]
      rintro (listed | new)
      · exact hn listed
      · split at new
        · exact old (List.mem_singleton.mp new)
        · cases new
    | woken j reason =>
      refine ⟨hg, ?_⟩
      rw [waiters_triggered]
      split
      · exact List.not_mem_nil
      · exact hn

/-- A call that was given an interrupt is on its list exactly as long as no trigger has woken it. -/
theorem Listed.mem_waiters_iff (h : Listed R w₀ w₀) (r : Run R w₀ w)
    (hg : w.host.given ticket = some i) :
    ticket ∈ (w.host.interrupts i).waiters ↔ ¬ Woken R w₀ w i ticket := by
  constructor
  · rintro listed ⟨v, reason, before, hmem, after⟩
    have known : (v.triggered i reason).host.given ticket = some i :=
      (h.run before).given i ticket hmem
    refine (not_listed_of_run known ?_ after).2 listed
    rw [waiters_triggered, if_pos rfl]
    exact List.not_mem_nil
  · exact ((h.run r).woken i ticket hg).resolve_right

end World
end PacketAuth
