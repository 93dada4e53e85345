import PacketAuth.Proofs.Record
import PacketAuth.Proofs.TagCache
import Mathlib.Algebra.BigOperators.Group.Finset.Piecewise

/-! What the counters of a service count. Each turn has its charges, read off what its caller was
told and what became of the calls, and it moves the counters by just these. -/
namespace PacketAuth

/-- The counter for the result of a call. -/
def Stats.Counter.ofResult (command : Command) : Except Failure Unit → Stats.Counter
  | .ok () =>
    match command with
    | .write => .generated
    | .read => .verifiedOk
  | .error f =>
    match f.kind with
    | .authenticationMismatch => .verifiedFail
    | .sessionCreationFailed => .sessionFailures
    | .waitInterrupted => .interrupted
    | .engineUnavailable | .engineFailed _ => .engineFailures
    | .malformedRequest | .invalidLane => .malformed

/-- The counters for the ways a call can end. -/
def Stats.Counter.ends : Finset Stats.Counter :=
  {.generated, .verifiedOk, .verifiedFail, .sessionFailures, .interrupted, .engineFailures,
    .malformed}

/-- One count on a service, and the call that it is for, if it is for one that was let in. -/
structure Charge where
  ticket : Option Nat
  service : Nat
  counter : Stats.Counter
  deriving DecidableEq

/-- A lane had no session at first, and has one later. -/
def Service.opened (i : Nat) (l : LaneId) (services services' : List Service) : Bool :=
  ((lane? i l.index.toNat services).bind Lane.session).isNone &&
    ((lane? i l.index.toNat services').bind Lane.session).isSome

namespace Moment
variable {σ κ : Type}

/-- The lane had no session before the turn, and has one after it. -/
def opens (m : Moment σ κ) (i : Nat) (l : LaneId) : Bool :=
  Service.opened i l m.before.host.services m.after.host.services

/-- The ticket of a call that was let in. -/
def admitted (m : Moment σ κ) : Option Nat :=
  match m.turn, m.answer with
  | .enter _, .entered (.ok ticket) => some ticket
  | _, _ => none

/-- A session that was opened. -/
def opening (m : Moment σ κ) : List Charge :=
  match m.turn with
  | .ensureSession i l => if m.opens i l then [⟨none, i, .sessionsCreated⟩] else []
  | .enter r => if m.opens r.service r.lane then [⟨m.admitted, r.service, .sessionsCreated⟩] else []
  | _ => []

/-- A busy job that was submitted once more. -/
def resubmitting (m : Moment σ κ) : List Charge :=
  match m.turn with
  | .deliver place =>
    match m.before.returning place with
    | some (ticket, c, job) =>
      match c.react job with
      | .resubmit _ => [⟨some ticket, c.request.service, .busyRetries⟩]
      | .settle _ _ => []
    | none => []
  | _ => []

/-- A request that was turned away, or a session that the engine did not open ahead of one. -/
def turnedAway (m : Moment σ κ) : List Charge :=
  match m.turn, m.answer with
  | .enter r, .entered (.error f) => [⟨none, r.service, .ofResult r.command (.error f)⟩]
  | .ensureSession i _, .session (.error f) =>
    if f.kind = .sessionCreationFailed then [⟨none, i, .sessionFailures⟩] else []
  | _, _ => []

/-- The charge for a call that waited before the turn and has its reply after it. -/
def endOf (m : Moment σ κ) (ticket : Nat) : Option Charge := do
  let c ← m.before.host.calls[ticket]?
  let reply ← m.after.host.reply? ticket
  if c.isWaiting then
    some ⟨some ticket, c.request.service, .ofResult c.request.command reply.result⟩
  else none

def ended (m : Moment σ κ) : List Charge :=
  (List.range m.before.host.calls.length).filterMap m.endOf

def charges (m : Moment σ κ) : List Charge :=
  m.opening ++ m.resubmitting ++ m.turnedAway ++ m.ended

/-- A request was turned away. -/
def rejects (m : Moment σ κ) : Bool :=
  match m.turn, m.answer with
  | .enter _, .entered (.error _) => true
  | _, _ => false

/-- The engine did not open a session ahead of a request. -/
def failsToOpen (m : Moment σ κ) : Bool :=
  match m.turn, m.answer with
  | .ensureSession _ _, .session (.error f) => f.kind = .sessionCreationFailed
  | _, _ => false

theorem length_turnedAway (m : Moment σ κ) :
    m.turnedAway.length = (if m.rejects then 1 else 0) + if m.failsToOpen then 1 else 0 := by
  obtain ⟨t, answer, before, after⟩ := m
  cases t with
  | enter r => rcases answer with _ | _ | _ | (_ | _) <;> rfl
  | ensureSession i l =>
    rcases answer with _ | _ | (f | _) | _
    · rfl
    · rfl
    · by_cases hf : f.kind = .sessionCreationFailed <;>
        simp [turnedAway, rejects, failsToOpen, hf]
    · rfl
    · rfl
  | install | take | deliver | look | pass | trigger | reset | dropService | change => rfl

end Moment

theorem Stats.Counter.ofResult_mem_ends (command : Command) (result : Except Failure Unit) :
    ofResult command result ∈ ends := by
  rcases result with f | _
  · cases hk : f.kind <;> simp [ofResult, ends, hk]
  · cases command <;> simp [ofResult, ends]

namespace Charge


/-- How often a counter of a service is charged. -/
def total (charges : List Charge) (i : Nat) (k : Stats.Counter) : Nat :=
  charges.countP fun c => c.service = i ∧ c.counter = k

/-- How often a counter is charged for one call. -/
def times (charges : List Charge) (ticket : Nat) (k : Stats.Counter) : Nat :=
  charges.countP fun c => c.ticket = some ticket ∧ c.counter = k

/-- The charges for the end of one call. -/
def closing (charges : List Charge) (ticket : Nat) : List Charge :=
  charges.filter fun c => c.ticket = some ticket ∧ c.counter ∈ Stats.Counter.ends

@[simp] theorem total_nil (i : Nat) (k : Stats.Counter) : total [] i k = 0 := rfl

@[simp] theorem total_append (charges charges' : List Charge) (i : Nat) (k : Stats.Counter) :
    total (charges ++ charges') i k = total charges i k + total charges' i k :=
  List.countP_append

@[simp] theorem total_singleton (c : Charge) (i : Nat) (k : Stats.Counter) :
    total [c] i k = if c.service = i ∧ c.counter = k then 1 else 0 := by
  simp [total]

@[simp] theorem times_append (charges charges' : List Charge) (ticket : Nat) (k : Stats.Counter) :
    times (charges ++ charges') ticket k = times charges ticket k + times charges' ticket k :=
  List.countP_append

@[simp] theorem closing_append (charges charges' : List Charge) (ticket : Nat) :
    closing (charges ++ charges') ticket = closing charges ticket ++ closing charges' ticket :=
  List.filter_append _ _

theorem times_eq_zero {charges : List Charge} {k : Stats.Counter}
    (h : ∀ c ∈ charges, c.counter ≠ k) (ticket : Nat) : times charges ticket k = 0 := by
  rw [times, List.countP_eq_zero]
  intro c hc
  simp [h c hc]

theorem closing_eq_nil {charges : List Charge} {ticket : Nat}
    (h : ∀ c ∈ charges, c.ticket = some ticket → c.counter ∉ Stats.Counter.ends) :
    closing charges ticket = [] := by
  rw [closing, List.filter_eq_nil_iff]
  intro c hc
  simpa using h c hc

/-- What is counted by a class of its own adds up. -/
theorem sum_countP {α β : Type} [DecidableEq β] (f : α → β) (p : α → Prop) [DecidablePred p]
    (t : Finset β) (xs : List α) :
    ∑ b ∈ t, xs.countP (fun x => p x ∧ f x = b) = xs.countP fun x => p x ∧ f x ∈ t := by
  induction xs with
  | nil => simp
  | cons x xs ih =>
    simp only [List.countP_cons, Finset.sum_add_distrib, ih]
    by_cases hp : p x <;> simp [hp]

/-- The charges for all ends, on all services. -/
theorem sum_total {charges : List Charge} {n : Nat} (h : ∀ c ∈ charges, c.service < n) :
    ∑ i ∈ Finset.range n, ∑ k ∈ Stats.Counter.ends, total charges i k =
      charges.countP (·.counter ∈ Stats.Counter.ends) := by
  have single : ∀ i, ∑ k ∈ Stats.Counter.ends, total charges i k =
      charges.countP fun c => c.counter ∈ Stats.Counter.ends ∧ c.service = i := by
    intro i
    simp only [total, sum_countP, and_comm]
  rw [Finset.sum_congr rfl fun i _ => single i, sum_countP]
  refine List.countP_congr fun c hc => ?_
  simp [h c hc]

end Charge

namespace Service
variable {services services' services'' : List Service} {charges charges' : List Charge} {i : Nat}
  {s : Service}

/-- What one of several services counted; one that is not there counted nothing. -/
def tally (services : List Service) (i : Nat) (k : Stats.Counter) : Nat :=
  (services[i]?.map (·.stats.get k)).getD 0

theorem tally_of_getElem? (hs : services[i]? = some s) (k : Stats.Counter) :
    tally services i k = s.stats.get k := by
  simp [tally, hs]

/-- The counters of all services went up by the charges. -/
def Paid (charges : List Charge) (services services' : List Service) : Prop :=
  ∀ i k, tally services' i k = tally services i k + Charge.total charges i k

theorem Paid.refl (services : List Service) : Paid [] services services := fun _ _ => rfl

theorem Paid.trans (h : Paid charges services services') (h' : Paid charges' services' services'') :
    Paid (charges ++ charges') services services'' := by
  intro i k
  rw [h', h, Charge.total_append, Nat.add_assoc]

/-- A new service has counted nothing yet. -/
theorem Paid.append (hs : s.stats = {}) (services : List Service) :
    Paid [] services (services ++ [s]) := by
  intro i k
  rw [Charge.total_nil, Nat.add_zero, tally, tally]
  by_cases new : i = services.length
  · have fresh : s.stats.get k = 0 := by
      rw [hs]
      cases k <;> rfl
    rw [new, List.getElem?_concat_length, List.getElem?_eq_none (Nat.le_refl _)]
    exact fresh
  · rw [World.getElem?_concat_of_ne new]

/-- A change of one service that leaves its counters alone is free. -/
theorem Paid.free {f : Service → Service} (hf : ∀ s, (f s).stats = s.stats) (i : Nat) :
    Paid [] services (services.modify i f) := by
  intro j k
  rw [Charge.total_nil, Nat.add_zero, tally, tally, List.getElem?_modify]
  cases services[j]? with
  | none => rfl
  | some s =>
    by_cases here : i = j
    · simp [here, hf]
    · simp [here]

/-- A change of one service that raises one of its counters is charged once. -/
theorem Paid.one {f : Service → Service} {k : Stats.Counter}
    (hf : ∀ s, (f s).stats = s.stats.count k) (hs : services[i]? = some s) (ticket : Option Nat) :
    Paid [⟨ticket, i, k⟩] services (services.modify i f) := by
  intro j d
  rw [Charge.total_singleton, tally, tally, List.getElem?_modify]
  by_cases here : i = j
  · subst here
    simp [hs, hf]
  · cases services[j]? <;> simp [here]

@[simp] theorem opened_self (i : Nat) (l : LaneId) (services : List Service) :
    opened i l services services = false := by
  unfold opened
  cases (lane? i l.index.toNat services).bind Lane.session <;> rfl

@[simp] theorem opened_count (i k : Nat) (l : LaneId) (c : Stats.Counter) :
    opened i l services (services'.modify k (·.count c)) = opened i l services services' := by
  simp [opened]

/-- All that several services counted, of some of the counters. -/
theorem sum_tally (services : List Service) (ks : Finset Stats.Counter) :
    (services.map fun s => ∑ k ∈ ks, s.stats.get k).sum =
      ∑ i ∈ Finset.range services.length, ∑ k ∈ ks, tally services i k := by
  induction services with
  | nil => rfl
  | cons s services ih =>
    rw [List.map_cons, List.sum_cons, ih, List.length_cons, Finset.sum_range_succ', Nat.add_comm]
    rfl

end Service

/-- A call that ends with its job is counted by the result of its reply. -/
theorem Call.ending_counter_eq (c : Call) (job : Job) :
    (c.ending job).counter = .ofResult c.request.command (c.ending job).reply.result := by
  cases hv : job.verdict with
  | error f =>
    obtain ⟨code, hk⟩ := Job.verdict_error hv
    rw [(c.ending_of_error hv).1, (c.ending_of_error hv).2]
    simp [Reply.failed, Stats.Counter.ofResult, hk]
  | ok tag =>
    cases hc : c.request.command with
    | write =>
      rw [ending_of_write hv hc]
      rfl
    | read =>
      rw [ending_of_read hv hc]
      split <;> rfl

theorem filterMap_range_of_ne {α : Type} {f : Nat → Option α} {n t : Nat} (ht : t < n)
    (hf : ∀ k, k ≠ t → f k = none) : (List.range n).filterMap f = (f t).toList := by
  induction n with
  | zero => omega
  | succ n ih =>
    rw [List.range_succ, List.filterMap_append, List.filterMap_cons, List.filterMap_nil]
    rcases Nat.lt_succ_iff_lt_or_eq.mp ht with below | rfl
    · rw [ih below, hf n (by omega)]
      simp
    · have earlier : (List.range t).filterMap f = [] := by
        rw [List.filterMap_eq_nil_iff]
        intro k hk
        exact hf k (Nat.ne_of_lt (List.mem_range.mp hk))
      rw [earlier]
      cases f t <;> rfl

namespace Moment
variable {σ κ : Type} {m : Moment σ κ}

/-- A call that is as it was did not end. -/
theorem endOf_of_same {ticket : Nat}
    (h : m.after.host.calls[ticket]? = m.before.host.calls[ticket]?) : m.endOf ticket = none := by
  unfold endOf
  cases hc : m.before.host.calls[ticket]? with
  | none => rfl
  | some c =>
    cases hr : c.reply <;> simp [Host.reply?, h, hc, hr, Call.isWaiting]

theorem ended_of_calls (h : ∀ ticket, ticket < m.before.host.calls.length →
    m.after.host.calls[ticket]? = m.before.host.calls[ticket]?) : m.ended = [] := by
  rw [ended, List.filterMap_eq_nil_iff]
  intro ticket ht
  exact endOf_of_same (h ticket (List.mem_range.mp ht))

theorem ended_of_set {ticket : Nat} {c d : Call}
    (hc : m.before.host.calls[ticket]? = some c)
    (hs : m.after.host.calls = m.before.host.calls.set ticket d) :
    m.ended = (m.endOf ticket).toList := by
  refine filterMap_range_of_ne (List.getElem?_eq_some_iff.mp hc).1 fun k other => ?_
  exact endOf_of_same (by rw [hs, List.getElem?_set_ne (Ne.symm other)])

theorem endOf_of_set {ticket : Nat} {c d : Call} {reply : Reply}
    (hc : m.before.host.calls[ticket]? = some c)
    (hs : m.after.host.calls = m.before.host.calls.set ticket d) (hd : d.reply = some reply) :
    m.endOf ticket =
      if c.isWaiting then
        some ⟨some ticket, c.request.service, .ofResult c.request.command reply.result⟩
      else none := by
  have found : m.after.host.reply? ticket = some reply := by
    rw [Host.reply?, hs, List.getElem?_set_self (List.getElem?_eq_some_iff.mp hc).1]
    exact hd
  simp [endOf, hc, found]

/-- What a call that waited gets as its reply is charged, and nothing else is. -/
theorem endOf_eq_some {ticket : Nat} {x : Charge} (h : m.endOf ticket = some x) :
    ∃ (c : Call) (reply : Reply), m.before.host.calls[ticket]? = some c ∧
      x = ⟨some ticket, c.request.service, .ofResult c.request.command reply.result⟩ := by
  simp only [endOf, Option.bind_eq_bind, Option.bind_eq_some_iff] at h
  obtain ⟨c, hc, reply, -, h⟩ := h
  split at h
  · exact ⟨c, reply, hc, (Option.some.inj h).symm⟩
  · cases h

theorem of_mem_opening {x : Charge} (h : x ∈ m.opening) :
    x.counter = .sessionsCreated ∧
      (x.ticket = none ∨ ∃ r, m.turn = .enter r ∧ x.ticket = m.admitted ∧ x.service = r.service) := by
  unfold opening at h
  split at h
  · split at h
    · obtain rfl := List.mem_singleton.mp h
      exact ⟨rfl, .inl rfl⟩
    · cases h
  · rename_i r hr
    split at h
    · obtain rfl := List.mem_singleton.mp h
      exact ⟨rfl, .inr ⟨r, hr, rfl, rfl⟩⟩
    · cases h
  · cases h

theorem of_mem_resubmitting {x : Charge} (h : x ∈ m.resubmitting) :
    x.counter = .busyRetries ∧ ∃ place ticket c job, m.before.returning place = some (ticket, c, job) ∧
      x.ticket = some ticket ∧ x.service = c.request.service := by
  unfold resubmitting at h
  split at h
  · split at h
    · rename_i hj
      split at h
      · obtain rfl := List.mem_singleton.mp h
        exact ⟨rfl, _, _, _, _, hj, rfl, rfl⟩
      · cases h
    · cases h
  · cases h

theorem of_mem_turnedAway {x : Charge} (h : x ∈ m.turnedAway) :
    x.ticket = none ∧ x.counter ∈ Stats.Counter.ends := by
  unfold turnedAway at h
  split at h
  · rename_i r f _ _
    obtain rfl := List.mem_singleton.mp h
    exact ⟨rfl, Stats.Counter.ofResult_mem_ends r.command (.error f)⟩
  · split at h
    · obtain rfl := List.mem_singleton.mp h
      exact ⟨rfl, by simp [Stats.Counter.ends]⟩
    · cases h
  · cases h

theorem of_mem_ended {x : Charge} (h : x ∈ m.ended) :
    ∃ ticket c, x.ticket = some ticket ∧ m.before.host.calls[ticket]? = some c ∧
      x.service = c.request.service ∧ x.counter ∈ Stats.Counter.ends := by
  obtain ⟨ticket, -, hx⟩ := List.mem_filterMap.mp h
  obtain ⟨c, reply, hc, rfl⟩ := endOf_eq_some hx
  exact ⟨ticket, c, rfl, hc, rfl,
    Stats.Counter.ofResult_mem_ends c.request.command reply.result⟩

/-- No other charge is for the end of a call. -/
theorem closing_charges (m : Moment σ κ) (ticket : Nat) :
    Charge.closing m.charges ticket = Charge.closing m.ended ticket := by
  have opening : Charge.closing m.opening ticket = [] := Charge.closing_eq_nil fun x hx _ => by
    simp [(of_mem_opening hx).1, Stats.Counter.ends]
  have resubmitting : Charge.closing m.resubmitting ticket = [] :=
    Charge.closing_eq_nil fun x hx _ => by
      simp [(of_mem_resubmitting hx).1, Stats.Counter.ends]
  have turnedAway : Charge.closing m.turnedAway ticket = [] := Charge.closing_eq_nil fun x hx own => by
    simp [(of_mem_turnedAway hx).1] at own
  rw [charges, Charge.closing_append, Charge.closing_append, Charge.closing_append, opening,
    resubmitting, turnedAway, List.nil_append, List.nil_append, List.nil_append]

theorem ends_of_mem {x : Charge} (h : x ∈ m.turnedAway ++ m.ended) :
    x.counter ∈ Stats.Counter.ends := by
  rcases List.mem_append.mp h with h | h
  · exact (of_mem_turnedAway h).2
  · obtain ⟨-, -, -, -, -, ends⟩ := of_mem_ended h
    exact ends

/-- No other charge is for a resubmission. -/
theorem times_busyRetries (m : Moment σ κ) (ticket : Nat) :
    Charge.times m.charges ticket .busyRetries = Charge.times m.resubmitting ticket .busyRetries := by
  have opening : Charge.times m.opening ticket .busyRetries = 0 :=
    Charge.times_eq_zero (fun x hx => by simp [(of_mem_opening hx).1]) ticket
  have others : Charge.times (m.turnedAway ++ m.ended) ticket .busyRetries = 0 := by
    refine Charge.times_eq_zero (fun x hx same => ?_) ticket
    simpa [same, Stats.Counter.ends] using ends_of_mem hx
  rw [charges, List.append_assoc, Charge.times_append, Charge.times_append, opening, others,
    Nat.zero_add, Nat.add_zero]

/-- No other charge is for the opening of a session. -/
theorem times_sessionsCreated (m : Moment σ κ) (ticket : Nat) :
    Charge.times m.charges ticket .sessionsCreated =
      Charge.times m.opening ticket .sessionsCreated := by
  have resubmitting : Charge.times m.resubmitting ticket .sessionsCreated = 0 :=
    Charge.times_eq_zero (fun x hx => by simp [(of_mem_resubmitting hx).1]) ticket
  have others : Charge.times (m.turnedAway ++ m.ended) ticket .sessionsCreated = 0 := by
    refine Charge.times_eq_zero (fun x hx same => ?_) ticket
    simpa [same, Stats.Counter.ends] using ends_of_mem hx
  rw [charges, List.append_assoc, Charge.times_append, Charge.times_append, resubmitting, others,
    Nat.add_zero]

/-- All other charges are for an end. -/
theorem countP_ends (m : Moment σ κ) :
    m.charges.countP (·.counter ∈ Stats.Counter.ends) = m.turnedAway.length + m.ended.length := by
  have opening : m.opening.countP (·.counter ∈ Stats.Counter.ends) = 0 := by
    rw [List.countP_eq_zero]
    intro x hx
    simp [(of_mem_opening hx).1, Stats.Counter.ends]
  have resubmitting : m.resubmitting.countP (·.counter ∈ Stats.Counter.ends) = 0 := by
    rw [List.countP_eq_zero]
    intro x hx
    simp [(of_mem_resubmitting hx).1, Stats.Counter.ends]
  have others : (m.turnedAway ++ m.ended).countP (·.counter ∈ Stats.Counter.ends) =
      (m.turnedAway ++ m.ended).length := by
    rw [List.countP_eq_length]
    intro x hx
    simpa using ends_of_mem hx
  rw [charges, List.append_assoc, List.countP_append, List.countP_append, opening, resubmitting,
    others, List.length_append, Nat.zero_add]

end Moment

namespace Host
variable {σ : Type} {E : Engine σ} {h h' : Host σ} {s : Service} {k : Nat}

theorem Opening.error_kind {key : AuthKey} {lane : Lane} {f : Failure}
    (o : Opening E k key lane h (.error f) h') : f.kind = .sessionCreationFailed := by
  cases o
  rfl

theorem Opening.service {key : AuthKey} {lane : Lane} {answer : Except Failure SessionHandle}
    (o : Opening E k key lane h answer h') (hs : h.services[k]? = some s) :
    ∃ s', h'.services[k]? = some s' := by
  cases o <;> simp [hs]

/-- Opening a session is charged to the service once if the lane had none, as opened or refused. -/
theorem Opening.paid {id : LaneId} {old : Lane} {answer : Except Failure SessionHandle}
    (hs : h.services[k]? = some s) (hl : s.lanes[id.index.toNat]? = some old) (hn : s.Numbered)
    (o : Opening E k s.key old h answer h') (ticket : Option Nat) :
    Service.Paid
      ((if Service.opened k id h.services h'.services then [⟨ticket, k, .sessionsCreated⟩] else []) ++
        match answer with
        | .ok _ => []
        | .error _ => [⟨none, k, .sessionFailures⟩])
      h.services h'.services := by
  have own := hn _ old hl
  have found : Service.lane? k id.index.toNat h.services = some old :=
    Service.lane?_eq_some.mpr ⟨s, hs, hl⟩
  cases o with
  | known hold => simpa using Service.Paid.refl h.services
  | @opened handle hold log =>
    have opened : Service.opened k id h.services (h.services.modify k fun s =>
        (s.updateLane old.id fun l => { l with session := some handle }).count .sessionsCreated) := by
      simp [Service.opened, Service.lane?_updateLane, found, hold, own]
    simpa [opened] using Service.Paid.one (fun _ => rfl) hs ticket
  | refused hold context log => simpa using Service.Paid.one (fun _ => rfl) hs none

end Host

namespace World
variable {σ κ : Type} {C : Controls σ κ} {w : World σ}

/-- The counters after a turn are the earlier ones and the charges of the turn. -/
def Settles (C : Controls σ κ) (w : World σ) (t : Turn κ) : Prop :=
  Service.Paid (w.moment C t).charges w.host.services (w.turn C t).2.host.services

/-- A turn that counts nothing for nobody. -/
theorem Settles.of_eq {t : Turn κ} (hs : (w.turn C t).2.host.services = w.host.services)
    (hc : (w.moment C t).charges = []) : Settles C w t := by
  rw [Settles, hs, hc]
  exact .refl _

theorem ended_of_calls {t : Turn κ} (h : (w.turn C t).2.host.calls = w.host.calls) :
    (w.moment C t).ended = [] := Moment.ended_of_calls fun ticket _ => by rw [moment, h]

theorem settles_install (b : Builder) : Settles C w (.install b) := by
  have charges : (w.moment C (.install b)).charges = [] :=
    ended_of_calls (w.calls_install (C := C) b)
  rw [Settles, charges, turn, Host.install]
  cases hb : b.build with
  | error e => exact .refl _
  | ok s =>
    obtain ⟨-, key, rfl⟩ := build_ok hb
    exact .append rfl _

theorem settles_ensureSession (numbered : ∀ s ∈ w.host.services, s.Numbered) (i : Nat)
    (l : LaneId) : Settles C w (.ensureSession i l) := by
  have ended := ended_of_calls (w.calls_ensureSession (C := C) i l)
  cases hs : w.host.services[i]? with
  | none =>
    refine .of_eq (by simp [turn, hs]) ?_
    simp [Moment.charges, ended, Moment.opening, Moment.resubmitting, Moment.turnedAway,
      Moment.opens, turn, hs]
  | some s =>
    cases hl : s.lanes[l.index.toNat]? with
    | none =>
      refine .of_eq (by simp [turn, hs, Host.ensureSession, Service.lane, hl]) ?_
      simp [Moment.charges, ended, Moment.opening, Moment.resubmitting, Moment.turnedAway,
        Moment.opens, turn, hs, Host.ensureSession, Service.lane, hl]
    | some old =>
      have opening := Host.openSession_spec C.engine i s.key old w.host
      have paid := opening.paid hs hl (numbered s (List.mem_of_getElem? hs)) none
      have after : w.turn C (.ensureSession i l) =
          (.session (w.host.openSession C.engine i s.key old).1,
            ⟨(w.host.openSession C.engine i s.key old).2, w.hand⟩) := by
        simp [turn, hs, Host.ensureSession, Service.lane, hl]
      rw [Settles, Moment.charges, ended]
      simp only [Moment.opening, Moment.resubmitting, Moment.turnedAway, Moment.opens, moment_turn,
        moment_answer, moment_before, moment_after, after, List.append_nil]
      generalize w.host.openSession C.engine i s.key old = result at opening paid
      obtain ⟨answer, h'⟩ := result
      cases answer with
      | ok handle => exact paid
      | error f =>
        dsimp only at opening paid ⊢
        rw [if_pos opening.error_kind]
        exact paid

theorem ended_enter (r : Request) : (w.moment C (.enter r)).ended = [] := by
  refine Moment.ended_of_calls fun ticket ht => ?_
  rw [moment_before] at ht ⊢
  rw [moment_after]
  cases hs : w.host.services[r.service]? with
  | none => simp [turn, hs]
  | some s =>
    rw [host_enter hs]
    rcases (Host.enter_spec C.engine s r w.host).calls with ⟨-, same⟩ | ⟨-, lane, regions, job, -, added⟩
    · rw [same]
    · rw [added, List.getElem?_append_left ht]

theorem settles_enter (numbered : ∀ s ∈ w.host.services, s.Numbered) (r : Request) :
    Settles C w (.enter r) := by
  have ended := w.ended_enter (C := C) r
  cases hs : w.host.services[r.service]? with
  | none =>
    refine .of_eq (by simp [turn, hs]) ?_
    simp [Moment.charges, ended, Moment.opening, Moment.resubmitting, Moment.turnedAway,
      Moment.opens, turn, hs]
  | some s =>
    have admission := Host.enter_spec C.engine s r w.host
    have after : w.turn C (.enter r) =
        (.entered (w.host.enter C.engine s r).1, ⟨(w.host.enter C.engine s r).2, w.hand⟩) := by
      simp [turn, hs]
    rw [Settles, Moment.charges, ended]
    simp only [Moment.opening, Moment.resubmitting, Moment.turnedAway, Moment.opens, Moment.admitted,
      moment_turn, moment_answer, moment_before, moment_after, after, List.append_nil]
    generalize w.host.enter C.engine s r = result at admission
    obtain ⟨answer, h'⟩ := result
    have own := numbered s (List.mem_of_getElem? hs)
    cases admission with
    | @malformed f hp log =>
      have counter : Stats.Counter.ofResult r.command (.error f) = .malformed := by
        rcases prepare_error hp with hk | hk <;> simp [Stats.Counter.ofResult, hk]
      simpa [counter] using Service.Paid.one (fun _ => rfl) hs none
    | unopened hp ho =>
      have paid := ho.paid hs (prepare_ok hp).1 own none
      simpa [Stats.Counter.ofResult, ho.error_kind] using paid
    | @starved lane regions session h' hp ho context log =>
      have paid := ho.paid hs (prepare_ok hp).1 own none
      obtain ⟨s', hs'⟩ := ho.service hs
      have starved := Service.Paid.one (f := (·.count .engineFailures)) (k := .engineFailures)
        (fun _ => rfl) hs' none
      simpa [Stats.Counter.ofResult] using paid.trans starved
    | @admitted lane regions session h' job hp ho log =>
      have paid := ho.paid hs (prepare_ok hp).1 own (some h'.calls.length)
      simpa using paid

/-- The service of a call is there. -/
theorem Placed.service (h : Placed w) {ticket : Nat} {c : Call}
    (hc : w.host.calls[ticket]? = some c) : ∃ s, w.host.services[c.request.service]? = some s := by
  obtain ⟨lane, known⟩ := h c (List.mem_of_getElem? hc)
  obtain ⟨s, hs, -⟩ := Service.lane?_eq_some.mp known
  exact ⟨s, hs⟩

/-- A turn in which a call ends, and nothing else is counted. -/
theorem Settles.of_end {t : Turn κ} {ticket : Nat} {c d : Call} {reply : Reply}
    {f : Service → Service} (placed : Placed w) (hc : w.host.calls[ticket]? = some c)
    (hw : c.isWaiting = true) (hcalls : (w.turn C t).2.host.calls = w.host.calls.set ticket d)
    (hd : d.reply = some reply)
    (hs : (w.turn C t).2.host.services = w.host.services.modify c.request.service f)
    (hf : ∀ s, (f s).stats = s.stats.count (.ofResult c.request.command reply.result))
    (ho : (w.moment C t).opening ++ (w.moment C t).resubmitting ++ (w.moment C t).turnedAway = []) :
    Settles C w t := by
  obtain ⟨s, there⟩ := placed.service hc
  have ended : (w.moment C t).ended =
      [⟨some ticket, c.request.service, .ofResult c.request.command reply.result⟩] := by
    rw [Moment.ended_of_set hc hcalls, Moment.endOf_of_set hc hcalls hd, if_pos hw]
    rfl
  rw [Settles, Moment.charges, ho, ended, hs]
  exact Service.Paid.one hf there (some ticket)

theorem settles_deliver (placed : Placed w) (place : Nat) : Settles C w (.deliver place) := by
  have delivered := w.deliver_spec (C := C) place
  generalize ht : (w.turn C (.deliver place)).2.host = h' at delivered
  cases delivered with
  | lost _ hn =>
    refine .of_eq (by rw [ht]) ?_
    have ended : (w.moment C (.deliver place)).ended = [] := ended_of_calls (by rw [ht])
    simp [Moment.charges, ended, Moment.opening, Moment.resubmitting, Moment.turnedAway, hn]
  | @resubmitted ticket c job hj _ ha =>
    obtain ⟨s, there⟩ := placed.service (call_of_returning hj)
    have ended : (w.moment C (.deliver place)).ended = [] := ended_of_calls (by rw [ht])
    have charges : (w.moment C (.deliver place)).charges =
        [⟨some ticket, c.request.service, .busyRetries⟩] := by
      simp [Moment.charges, ended, Moment.opening, Moment.resubmitting, Moment.turnedAway, hj, ha]
    rw [Settles, charges, ht]
    exact Service.Paid.one (fun _ => rfl) there (some ticket)
  | @finished ticket c job job' _ hj hw _ ha =>
    refine .of_end placed (call_of_returning hj) hw (by rw [ht]) rfl (by rw [ht]) (fun s => ?_) ?_
    · rw [c.credit_stats, c.ending_counter_eq]
    · simp [Moment.opening, Moment.resubmitting, Moment.turnedAway, hj, ha]
  | @stranded ticket c job job' _ hj hw _ ha =>
    refine .of_eq (by rw [ht]) ?_
    have ended : (w.moment C (.deliver place)).ended = [] := by
      have waited := Moment.ended_of_set (m := w.moment C (.deliver place)) (call_of_returning hj)
        (congrArg Host.calls ht)
      rw [waited, Moment.endOf]
      simp [call_of_returning hj, hw]
    simp [Moment.charges, ended, Moment.opening, Moment.resubmitting, Moment.turnedAway, hj, ha]
  | refused hj _ ha =>
    refine .of_eq (by rw [ht]) ?_
    have ended : (w.moment C (.deliver place)).ended = [] := ended_of_calls (by rw [ht])
    simp [Moment.charges, ended, Moment.opening, Moment.resubmitting, Moment.turnedAway, hj, ha]

theorem settles_look (placed : Placed w) (ticket : Nat) : Settles C w (.look ticket) := by
  have glance := Host.look_spec C.engine ticket w.host
  have after : (w.turn C (.look ticket)).2.host = w.host.look C.engine ticket := rfl
  rw [← after] at glance
  generalize ht : (w.turn C (.look ticket)).2.host = h' at glance
  cases glance with
  | nothing hn =>
    have charges : (w.moment C (.look ticket)).charges = [] := ended_of_calls (by rw [ht])
    exact .of_eq (by rw [ht]) charges
  | @collected c job hc hw =>
    refine .of_end placed hc hw (by rw [ht]) rfl (by rw [ht]) (fun s => ?_) rfl
    rw [c.credit_stats, c.ending_counter_eq]
  | left hc hw => exact .of_end placed hc hw (by rw [ht]) rfl (by rw [ht]) (fun _ => rfl) rfl

/-- In every turn, the counters move by the charges of the turn. -/
theorem settles_turn (numbered : ∀ s ∈ w.host.services, s.Numbered) (placed : Placed w)
    (t : Turn κ) : Settles C w t := by
  cases t with
  | install b => exact settles_install b
  | ensureSession i l => exact settles_ensureSession numbered i l
  | enter r => exact settles_enter numbered r
  | take =>
    have charges : (w.moment C .take).charges = [] := ended_of_calls w.calls_take
    refine .of_eq ?_ charges
    rw [turn]
    split <;> rfl
  | deliver place => exact settles_deliver placed place
  | look ticket => exact settles_look placed ticket
  | dropService i =>
    have charges : (w.moment C (.dropService i)).charges = [] := ended_of_calls rfl
    rw [Settles, charges]
    exact Service.Paid.free (f := fun s => { s with isHeld := false }) (fun _ => rfl) i
  | pass | trigger | reset | change => exact .of_eq rfl (ended_of_calls rfl)

end World
end PacketAuth
