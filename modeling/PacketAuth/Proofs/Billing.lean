import PacketAuth.Proofs.Charges
import PacketAuth.Proofs.Record

/-! The bill of a script: the charges of all its turns. The counters of a service are the sums of
what it is charged, and a call pays once for its end, once for each resubmission and at most once
for its session. -/
namespace PacketAuth

/-- The charge for the reply of a call, once it has one. -/
def Call.settled (ticket : Nat) (c : Call) : Option Charge :=
  c.reply.map fun reply =>
    ⟨some ticket, c.request.service, .ofResult c.request.command reply.result⟩

/-- What a call is charged in all, after a number of submissions for it. -/
structure Call.Billed (c : Call) (ticket submissions : Nat) (charges : List Charge) : Prop where
  own : ∀ x ∈ charges, x.ticket = some ticket → x.service = c.request.service
  ends : Charge.closing charges ticket = (c.settled ticket).toList
  again : submissions = Charge.times charges ticket .busyRetries + 1
  opened : Charge.times charges ticket .sessionsCreated ≤ 1

/-- The same engine and orders, with a record of the jobs that pass. -/
def Controls.recorded {σ κ : Type} (C : Controls σ κ) : Controls (Recorded σ) κ where
  engine := C.engine.recorded
  obey order s := (C.obey order s.state).keeping s.deeds

namespace Host
variable {σ : Type}

/-- The charge for a call that has its reply. -/
def settled? (ticket : Nat) (h : Host σ) : Option Charge :=
  h.calls[ticket]?.bind (Call.settled ticket)

/-- Opening a session passes no jobs. -/
theorem Opening.deeds {E : Engine σ} {h h' : Host (Recorded σ)} {k : Nat} {key : AuthKey} {lane : Lane}
    {answer : Except Failure SessionHandle} (o : Opening E.recorded k key lane h answer h') :
    h'.engine.deeds = h.engine.deeds := by
  cases o <;> rfl

end Host

namespace World
variable {σ κ : Type} {C : Controls σ κ} {w : World σ}

/-- What a turn does to the calls, with the ends that it is charged for and the call that it lets
in. -/
inductive Heard (C : Controls σ κ) (w : World σ) (t : Turn κ) : Prop
  | same (hs : (w.turn C t).2.host.calls = w.host.calls) (he : (w.moment C t).ended = [])
      (ha : (w.moment C t).admitted = none)
  | entered {c : Call} (hw : c.isWaiting = true)
      (hs : (w.turn C t).2.host.calls = w.host.calls ++ [c]) (he : (w.moment C t).ended = [])
      (ha : (w.moment C t).admitted = some w.host.calls.length)
  | kept {ticket : Nat} {c d : Call} (hc : w.host.calls[ticket]? = some c)
      (hs : (w.turn C t).2.host.calls = w.host.calls.set ticket d)
      (hr : d.request = c.request ∧ d.reply = c.reply)
      (he : (w.moment C t).ended = []) (ha : (w.moment C t).admitted = none)
  | answered {ticket : Nat} {c d : Call} {reply : Reply} (hc : w.host.calls[ticket]? = some c)
      (hw : c.isWaiting = true) (hs : (w.turn C t).2.host.calls = w.host.calls.set ticket d)
      (hr : d.request = c.request ∧ d.reply = some reply)
      (he : (w.moment C t).ended =
        [⟨some ticket, c.request.service, .ofResult c.request.command reply.result⟩])
      (ha : (w.moment C t).admitted = none)

theorem Heard.of_end {t : Turn κ} {ticket : Nat} {c d : Call} {reply : Reply}
    (hc : w.host.calls[ticket]? = some c) (hw : c.isWaiting = true)
    (hs : (w.turn C t).2.host.calls = w.host.calls.set ticket d)
    (hr : d.request = c.request ∧ d.reply = some reply)
    (ha : (w.moment C t).admitted = none) : Heard C w t := by
  refine .answered hc hw hs hr ?_ ha
  rw [Moment.ended_of_set hc hs, Moment.endOf_of_set hc hs hr.2, if_pos hw]
  rfl

theorem heard_enter (r : Request) : Heard C w (.enter r) := by
  have ended := w.ended_enter (C := C) r
  cases hs : w.host.services[r.service]? with
  | none => exact .same (by simp [turn, hs]) ended (by simp [Moment.admitted, turn, hs])
  | some s =>
    have answer : (w.turn C (.enter r)).1 = .entered (w.host.enter C.engine s r).1 := by
      simp [turn, hs]
    rcases (Host.enter_spec C.engine s r w.host).calls with
      ⟨⟨f, failed⟩, same⟩ | ⟨ok, lane, regions, job, -, added⟩
    · refine .same (by rw [host_enter hs, same]) ended ?_
      simp [Moment.admitted, answer, failed]
    · refine .entered rfl (by rw [host_enter hs, added]) ended ?_
      simp [Moment.admitted, answer, ok]

theorem heard_deliver (place : Nat) : Heard C w (.deliver place) := by
  have delivered := w.deliver_spec (C := C) place
  generalize ht : (w.turn C (.deliver place)).2.host = h' at delivered
  cases delivered with
  | lost | resubmitted | refused =>
    have calls : (w.turn C (.deliver place)).2.host.calls = w.host.calls := by rw [ht]
    exact .same calls (ended_of_calls calls) rfl
  | finished hj hw =>
    exact .of_end (call_of_returning hj) hw (congrArg Host.calls ht) ⟨rfl, rfl⟩ rfl
  | @stranded ticket c job job' _ hj hw =>
    have hc := call_of_returning hj
    refine .kept hc (congrArg Host.calls ht) ⟨rfl, rfl⟩ ?_ rfl
    rw [Moment.ended_of_set (m := w.moment C (.deliver place)) hc (congrArg Host.calls ht),
      Moment.endOf]
    simp [hc, hw]

theorem heard_look (ticket : Nat) : Heard C w (.look ticket) := by
  have glance := Host.look_spec C.engine ticket w.host
  have after : (w.turn C (.look ticket)).2.host = w.host.look C.engine ticket := rfl
  rw [← after] at glance
  generalize ht : (w.turn C (.look ticket)).2.host = h' at glance
  cases glance with
  | nothing => exact .same (by rw [ht]) (ended_of_calls (by rw [ht])) rfl
  | collected hc hw | left hc hw => exact .of_end hc hw (congrArg Host.calls ht) ⟨rfl, rfl⟩ rfl

theorem heard_turn (w : World σ) (t : Turn κ) : Heard C w t := by
  cases t with
  | enter r => exact heard_enter r
  | deliver place => exact heard_deliver place
  | look ticket => exact heard_look ticket
  | install b => exact .same (w.calls_install b) (ended_of_calls (w.calls_install b)) rfl
  | ensureSession i l =>
    exact .same (w.calls_ensureSession i l) (ended_of_calls (w.calls_ensureSession i l)) rfl
  | take => exact .same w.calls_take (ended_of_calls w.calls_take) rfl
  | pass | trigger | reset | dropService | change => exact .same rfl (ended_of_calls rfl) rfl

/-- The calls that got their replies in a turn are those that the turn is charged for. -/
theorem countP_replied_turn (w : World σ) (t : Turn κ) :
    (w.turn C t).2.host.calls.countP (·.reply.isSome) =
      w.host.calls.countP (·.reply.isSome) + (w.moment C t).ended.length := by
  cases w.heard_turn (C := C) t with
  | same hs he => simp [hs, he]
  | entered hw hs he =>
    rw [Call.isWaiting, Option.isNone_iff_eq_none] at hw
    simp [hs, he, hw]
  | @kept ticket c d hc hs hr he =>
    obtain ⟨hlt, rfl⟩ := List.getElem?_eq_some_iff.mp hc
    have counted : d.reply.isSome = true →
        0 < w.host.calls.countP (·.reply.isSome) := fun replied =>
      List.countP_pos_iff.mpr ⟨_, List.getElem_mem hlt, by rwa [← hr.2]⟩
    rw [hs, he, List.countP_set hlt, ← hr.2]
    split
    · rename_i replied
      have := counted replied
      simp only [List.length_nil]
      omega
    · rfl
  | answered hc hw hs hr he =>
    obtain ⟨hlt, rfl⟩ := List.getElem?_eq_some_iff.mp hc
    rw [Call.isWaiting, Option.isNone_iff_eq_none] at hw
    simp [hs, he, hw, hr.2, List.countP_set hlt]

theorem settled?_congr {h h' : Host σ} {ticket : Nat}
    (hc : h'.calls[ticket]? = h.calls[ticket]?) : h'.settled? ticket = h.settled? ticket := by
  rw [Host.settled?, hc, Host.settled?]

theorem settled?_of_getElem? {h : Host σ} {ticket : Nat} {c : Call}
    (hc : h.calls[ticket]? = some c) : h.settled? ticket = c.settled ticket := by
  rw [Host.settled?, hc, Option.bind_some]

/-- A call is charged for its end in the turn in which it gets its reply, and never again. -/
theorem settled_turn (w : World σ) (t : Turn κ) (ticket : Nat) :
    ((w.turn C t).2.host.settled? ticket).toList =
      (w.host.settled? ticket).toList ++ Charge.closing (w.moment C t).charges ticket := by
  have idle (he : (w.moment C t).ended = [])
      (hs : (w.turn C t).2.host.settled? ticket = w.host.settled? ticket) :
      ((w.turn C t).2.host.settled? ticket).toList =
        (w.host.settled? ticket).toList ++ Charge.closing (w.moment C t).ended ticket := by
    rw [hs, he, Charge.closing, List.filter_nil, List.append_nil]
  have replaced {own : Nat} {c d : Call} (hc : w.host.calls[own]? = some c)
      (hs : (w.turn C t).2.host.calls = w.host.calls.set own d) :
      (w.turn C t).2.host.calls[own]? = some d := by
    rw [hs, List.getElem?_set_self (List.getElem?_eq_some_iff.mp hc).1]
  rw [Moment.closing_charges]
  cases w.heard_turn (C := C) t with
  | same hs he => exact idle he (settled?_congr (by rw [hs]))
  | @entered c hw hs he =>
    refine idle he ?_
    by_cases new : ticket = w.host.calls.length
    · rw [Call.isWaiting, Option.isNone_iff_eq_none] at hw
      simp [Host.settled?, hs, new, Call.settled, hw]
    · exact settled?_congr (by rw [hs, getElem?_concat_of_ne new])
  | @kept own c d hc hs hr he =>
    refine idle he ?_
    by_cases here : own = ticket
    · subst here
      rw [settled?_of_getElem? hc, settled?_of_getElem? (replaced hc hs), Call.settled, hr.1, hr.2,
        Call.settled]
    · exact settled?_congr (by rw [hs, List.getElem?_set_ne here])
  | @answered own c d reply hc hw hs hr he =>
    rw [Call.isWaiting, Option.isNone_iff_eq_none] at hw
    by_cases here : own = ticket
    · subst here
      rw [settled?_of_getElem? hc, settled?_of_getElem? (replaced hc hs), Call.settled, hr.1, hr.2,
        Call.settled, hw, he]
      simp [Charge.closing, Stats.Counter.ofResult_mem_ends]
    · have elsewhere : (w.turn C t).2.host.settled? ticket = w.host.settled? ticket :=
        settled?_congr (by rw [hs, List.getElem?_set_ne here])
      rw [elsewhere, he]
      simp [Charge.closing, here]

theorem call_of_admitted {r : Request} {ticket : Nat}
    (ha : (w.moment C (.enter r)).admitted = some ticket) :
    ∃ c, (w.turn C (.enter r)).2.host.calls[ticket]? = some c ∧ c.request = r := by
  cases hs : w.host.services[r.service]? with
  | none => simp [Moment.admitted, turn, hs] at ha
  | some s =>
    have answer : (w.turn C (.enter r)).1 = .entered (w.host.enter C.engine s r).1 := by
      simp [turn, hs]
    rw [host_enter hs]
    rcases (Host.enter_spec C.engine s r w.host).calls with
      ⟨⟨f, failed⟩, -⟩ | ⟨ok, lane, regions, job, -, added⟩
    · simp [Moment.admitted, answer, failed] at ha
    · obtain rfl : w.host.calls.length = ticket := by simpa [Moment.admitted, answer, ok] using ha
      exact ⟨_, by rw [added, List.getElem?_concat_length], rfl⟩

/-- What a turn charges to a call goes to the service of the call. -/
theorem owned_turn {t : Turn κ} {x : Charge} {ticket : Nat} (hx : x ∈ (w.moment C t).charges)
    (ht : x.ticket = some ticket) :
    ∃ c, (w.turn C t).2.host.calls[ticket]? = some c ∧ x.service = c.request.service := by
  have kept : ∀ c, w.host.calls[ticket]? = some c →
      ∃ c', (w.turn C t).2.host.calls[ticket]? = some c' ∧ c.request.service = c'.request.service := by
    intro c hc
    obtain ⟨c', hc', persists⟩ := (w.run_turn (C := C) t).effects.persists.call ticket c hc
    exact ⟨c', hc', by rw [persists.request]⟩
  simp only [Moment.charges, List.mem_append] at hx
  rcases hx with ((opening | resubmitting) | turnedAway) | ended
  · rcases (Moment.of_mem_opening opening).2 with nobody | ⟨r, rfl, admitted, service⟩
    · rw [ht] at nobody
      cases nobody
    · obtain ⟨c, hc, rfl⟩ := call_of_admitted (admitted.symm.trans ht)
      exact ⟨c, hc, service⟩
  · obtain ⟨-, place, own, c, job, hj, hown, hs⟩ := Moment.of_mem_resubmitting resubmitting
    obtain rfl : own = ticket := Option.some.inj (hown.symm.trans ht)
    rw [hs]
    exact kept c (call_of_returning hj)
  · rw [(Moment.of_mem_turnedAway turnedAway).1] at ht
    cases ht
  · obtain ⟨own, c, hown, hc, hs, -⟩ := Moment.of_mem_ended ended
    obtain rfl : own = ticket := Option.some.inj (hown.symm.trans ht)
    rw [hs]
    exact kept c hc

section Submissions
variable {w : World (Recorded σ)} {t : Turn κ} {ticket : Nat}

/-- The jobs that the engine got for a call: its first one, and each that the call is charged
for. -/
def Submits (C : Controls σ κ) (w : World (Recorded σ)) (t : Turn κ) (ticket : Nat) : Prop :=
  ((w.turn C.recorded t).2.jobs .submitted ticket).length =
    (w.jobs .submitted ticket).length +
      (Charge.times (w.moment C.recorded t).resubmitting ticket .busyRetries +
        if (w.moment C.recorded t).admitted = some ticket then 1 else 0)

/-- A turn in which the engine gets no job. -/
theorem Submits.none
    (hd : Deed.jobs .submitted ticket (w.turn C.recorded t).2.host.engine.deeds =
      Deed.jobs .submitted ticket w.host.engine.deeds)
    (hr : (w.moment C.recorded t).resubmitting = [])
    (ha : (w.moment C.recorded t).admitted = Option.none) : Submits C w t ticket := by
  rw [Submits, jobs, hd, hr, ha, jobs, if_neg (by simp)]
  rfl

theorem submits_enter (r : Request) : Submits C w (.enter r) ticket := by
  cases hs : w.host.services[r.service]? with
  | none =>
    exact .none (by simp [turn, hs]) rfl (by simp [Moment.admitted, turn, hs])
  | some s =>
    have admission := Host.enter_spec C.recorded.engine s r w.host
    have answer : (w.turn C.recorded (.enter r)).1 =
        .entered (w.host.enter C.recorded.engine s r).1 := by simp [turn, hs]
    have after := host_enter (C := C.recorded) hs
    generalize w.host.enter C.recorded.engine s r = result at admission answer after
    obtain ⟨result, h'⟩ := result
    have turned (f : Failure) (hf : result = .error f) :
        (w.moment C.recorded (.enter r)).admitted = Option.none := by
      simp [Moment.admitted, answer, hf]
    cases admission with
    | malformed hp => exact .none (by rw [after]) rfl (turned _ rfl)
    | unopened hp ho => exact .none (by rw [after, ho.deeds]) rfl (turned _ rfl)
    | starved hp ho =>
      refine .none ?_ rfl (turned _ rfl)
      rw [after]
      exact congrArg (Deed.jobs .submitted ticket) ho.deeds
    | @admitted lane regions session h' job hp ho =>
      have admitted : (w.moment C.recorded (.enter r)).admitted = some h'.calls.length := by
        simp [Moment.admitted, answer]
      have deeds : (w.turn C.recorded (.enter r)).2.host.engine.deeds =
          ⟨.submitted, r.fill s regions session h'.calls.length job⟩ :: w.host.engine.deeds := by
        rw [after, ← ho.deeds]
        rfl
      rw [Submits, admitted]
      by_cases own : ticket = h'.calls.length
      · rw [jobs_self (by rw [own]; rfl) deeds, own]
        simp [Moment.resubmitting, Charge.times]
      · rw [jobs_other (n := h'.calls.length) rfl deeds .submitted own,
          if_neg fun h => own (Option.some.inj h).symm]
        simp [Moment.resubmitting, Charge.times]

theorem submits_deliver (place : Nat) : Submits C w (.deliver place) ticket := by
  have delivered := w.deliver_spec (C := C.recorded) place
  generalize ht : (w.turn C.recorded (.deliver place)).2.host = h' at delivered
  cases delivered with
  | lost _ hn => exact .none (by rw [ht]) (by simp [Moment.resubmitting, hn]) rfl
  | @resubmitted own c job hj _ ha hi =>
    have deeds : (w.turn C.recorded (.deliver place)).2.host.engine.deeds =
        ⟨.submitted, job.rearm⟩ :: w.host.engine.deeds := by
      rw [ht]
      rfl
    have charged : (w.moment C.recorded (.deliver place)).resubmitting =
        [⟨some own, c.request.service, .busyRetries⟩] := by
      simp [Moment.resubmitting, hj, ha]
    have nobody : (w.moment C.recorded (.deliver place)).admitted = Option.none := rfl
    have again : job.rearm.recipient = some (.call own) := hi
    rw [Submits, charged, nobody]
    by_cases same : ticket = own
    · subst same
      rw [jobs_self again deeds]
      simp [Charge.times]
    · rw [jobs_other again deeds .submitted same]
      simp [Charge.times, Ne.symm same]
  | @finished own c job job' _ hj _ _ ha =>
    refine .none ?_ (by simp [Moment.resubmitting, hj, ha]) rfl
    rw [ht]
    exact Deed.jobs_cons_of_kind (by decide) ticket job' w.host.engine.deeds
  | stranded hj _ _ ha => exact .none (by rw [ht]) (by simp [Moment.resubmitting, hj, ha]) rfl
  | @refused own c job job' _ hj _ ha =>
    refine .none ?_ (by simp [Moment.resubmitting, hj, ha]) rfl
    rw [ht]
    dsimp only
    split
    · exact Deed.jobs_cons_of_kind (by decide) ticket job' w.host.engine.deeds
    · rfl

theorem submits_look (own : Nat) : Submits C w (.look own) ticket := by
  have glance := Host.look_spec C.recorded.engine own w.host
  have after : (w.turn C.recorded (.look own)).2.host = w.host.look C.recorded.engine own := rfl
  rw [← after] at glance
  generalize ht : (w.turn C.recorded (.look own)).2.host = h' at glance
  cases glance with
  | nothing => exact .none (by rw [ht]) rfl rfl
  | @collected c job =>
    refine .none ?_ rfl rfl
    rw [ht]
    exact Deed.jobs_cons_of_kind (by decide) ticket job w.host.engine.deeds
  | @left c =>
    refine .none ?_ rfl rfl
    rw [ht]
    rcases C.engine.recorded_withdraw c.job w.host.engine with same | ⟨job, asked⟩
    · exact congrArg (Deed.jobs .submitted ticket) same
    · refine (congrArg (Deed.jobs .submitted ticket) asked).trans ?_
      rw [Deed.jobs_cons_of_kind (by decide), Deed.jobs_cons_of_kind (by decide)]

theorem submits_turn (w : World (Recorded σ)) (t : Turn κ) (ticket : Nat) :
    Submits C w t ticket := by
  cases t with
  | enter r => exact submits_enter r
  | deliver place => exact submits_deliver place
  | look own => exact submits_look own
  | install b =>
    refine .none ?_ rfl rfl
    rw [turn, Host.install]
    cases b.build <;> rfl
  | ensureSession i l =>
    refine .none ?_ rfl rfl
    rw [turn]
    split
    · rfl
    · rename_i s _
      dsimp only
      rw [Host.ensureSession]
      split
      · rfl
      · rename_i lane _
        exact congrArg (Deed.jobs .submitted ticket)
          (Host.openSession_spec C.recorded.engine i s.key lane w.host).deeds
  | take =>
    refine .none ?_ rfl rfl
    rw [turn]
    split
    · rfl
    · rename_i step hstep
      dsimp only
      rw [Engine.recorded_handBack hstep, Deed.jobs_cons_of_kind (by decide)]
  | pass | trigger | reset | dropService => exact .none rfl rfl rfl
  | change order => exact .none (by rw [turn]; rfl) rfl rfl

end Submissions

/-- A turn adds one call at most, the one that it lets in. -/
theorem admitted_turn (w : World σ) (t : Turn κ) (ticket : Nat) :
    (if ticket < (w.turn C t).2.host.calls.length then 1 else 0) =
      (if ticket < w.host.calls.length then 1 else 0) +
        if (w.moment C t).admitted = some ticket then 1 else 0 := by
  cases w.heard_turn (C := C) t with
  | same hs _ ha => simp [hs, ha]
  | kept _ hs _ _ ha | answered _ _ hs _ _ ha => simp [hs, ha]
  | entered _ hs _ ha =>
    simp only [hs, ha, List.length_append, List.length_singleton, Option.some_inj]
    split <;> split <;> split <;> omega

theorem times_opening_le (m : Moment σ κ) (ticket : Nat) :
    Charge.times m.opening ticket .sessionsCreated ≤ if m.admitted = some ticket then 1 else 0 := by
  unfold Moment.opening
  split
  · split <;> simp [Charge.times]
  · split
    · by_cases own : m.admitted = some ticket <;> simp [Charge.times, own]
    · simp [Charge.times]
  · simp [Charge.times]

/-- All charges of a script. -/
def bill (moments : List (Moment σ κ)) : List Charge := moments.flatMap Moment.charges

theorem bill_concat (moments : List (Moment σ κ)) (m : Moment σ κ) :
    bill (moments ++ [m]) = bill moments ++ m.charges := by
  simp [bill]

/-- The counters are the sums of all charges, and every call is charged as it went. -/
structure Billed (moments : List (Moment (Recorded σ) κ)) (w : World (Recorded σ)) : Prop where
  numbered : ∀ s ∈ w.host.services, s.Numbered
  placed : Placed w
  counters : ∀ i k, Service.tally w.host.services i k = Charge.total (bill moments) i k
  owned : ∀ x ∈ bill moments, ∀ ticket, x.ticket = some ticket →
    ∃ c, w.host.calls[ticket]? = some c ∧ x.service = c.request.service
  ends : ∀ ticket, Charge.closing (bill moments) ticket = (w.host.settled? ticket).toList
  again : ∀ ticket, (w.jobs .submitted ticket).length =
    Charge.times (bill moments) ticket .busyRetries +
      if ticket < w.host.calls.length then 1 else 0
  opened : ∀ ticket, Charge.times (bill moments) ticket .sessionsCreated ≤
    if ticket < w.host.calls.length then 1 else 0
  finished : (bill moments).countP (·.counter ∈ Stats.Counter.ends) =
    w.host.calls.countP (·.reply.isSome) + moments.countP Moment.rejects +
      moments.countP Moment.failsToOpen

theorem Billed.turn {moments : List (Moment (Recorded σ) κ)} {w : World (Recorded σ)}
    (h : Billed moments w) (t : Turn κ) :
    Billed (moments ++ [w.moment C.recorded t]) (w.turn C.recorded t).2 where
  numbered := numbered_run h.numbered (w.run_turn t)
  placed := h.placed.turn h.numbered t
  counters i k := by
    rw [bill_concat, Charge.total_append, ← h.counters]
    exact settles_turn h.numbered h.placed t i k
  owned x hx ticket ht := by
    rw [bill_concat] at hx
    rcases List.mem_append.mp hx with earlier | now
    · obtain ⟨c, hc, hs⟩ := h.owned x earlier ticket ht
      obtain ⟨c', hc', persists⟩ :=
        (w.run_turn (C := C.recorded) t).effects.persists.call ticket c hc
      exact ⟨c', hc', by rw [hs, persists.request]⟩
    · exact owned_turn now ht
  ends ticket := by
    rw [bill_concat, Charge.closing_append, h.ends, settled_turn]
  again ticket := by
    rw [bill_concat, Charge.times_append, Moment.times_busyRetries, admitted_turn]
    have submits := w.submits_turn (C := C) t ticket
    rw [Submits, h.again] at submits
    omega
  opened ticket := by
    rw [bill_concat, Charge.times_append, Moment.times_sessionsCreated, admitted_turn]
    exact Nat.add_le_add (h.opened ticket) (times_opening_le _ ticket)
  finished := by
    rw [bill_concat, List.countP_append, h.finished, Moment.countP_ends, Moment.length_turnedAway,
      countP_replied_turn, List.countP_append, List.countP_append, List.countP_singleton,
      List.countP_singleton]
    omega

theorem billed_play (ts : List (Turn κ)) (s₀ : σ) :
    Billed ((vacant ⟨s₀, []⟩).moments C.recorded ts) ((vacant ⟨s₀, []⟩).play C.recorded ts) := by
  induction ts using List.reverseRecOn with
  | nil =>
    constructor
    · intro s hs
      cases hs
    · intro c hc
      cases hc
    · intro i k
      rfl
    · intro x hx
      cases hx
    · intro ticket
      rfl
    · intro ticket
      rfl
    · intro ticket
      exact Nat.zero_le _
    · rfl
  | append_singleton ts t ih =>
    rw [moments_concat, play_append]
    exact ih.turn t

/-- Only services that are there are charged. -/
theorem Billed.service_lt {moments : List (Moment (Recorded σ) κ)} {w : World (Recorded σ)}
    (h : Billed moments w) : ∀ x ∈ bill moments, x.service < w.host.services.length := by
  intro x hx
  by_contra beyond
  have charged : 0 < Charge.total (bill moments) x.service x.counter :=
    List.countP_pos_iff.mpr ⟨x, hx, by simp⟩
  rw [← h.counters, Service.tally, List.getElem?_eq_none (Nat.not_lt.mp beyond)] at charged
  exact Nat.lt_irrefl 0 charged

/-- On every engine, in every interleaving and after every turn: each counter of a service is the
number of its charges. A turn moves the counters by its own charges, and a request that is turned
away has one for its failure, besides that for a session opened on the way. A call is charged once
for its reply when it has it, by its result and to its own service, once for every submission after
the first, and once at most for a session. So all the ends that were counted are the calls that have
their replies, the requests turned away, and the sessions that the engine did not open ahead. -/
theorem calls_are_counted_once (C : Controls σ κ) (s₀ : σ) (ts : List (Turn κ)) :
    let w := (vacant ⟨s₀, []⟩).play C.recorded ts
    let moments := (vacant ⟨s₀, []⟩).moments C.recorded ts
    (∀ i s, w.host.services[i]? = some s → ∀ k, s.stats.get k = Charge.total (bill moments) i k) ∧
      (∀ m ∈ moments, Service.Paid m.charges m.before.host.services m.after.host.services ∧
        ∀ r f, m.turn = .enter r → m.answer = .entered (.error f) →
          m.charges = m.opening ++ [⟨none, r.service, .ofResult r.command (.error f)⟩]) ∧
      (∀ ticket (c : Call), w.host.calls[ticket]? = some c →
        c.Billed ticket (w.jobs .submitted ticket).length (bill moments)) ∧
      (w.host.services.map fun s => ∑ k ∈ Stats.Counter.ends, s.stats.get k).sum =
        w.host.calls.countP (·.reply.isSome) + moments.countP Moment.rejects +
          moments.countP Moment.failsToOpen := by
  intro w moments
  have billed : Billed moments w := billed_play ts s₀
  refine ⟨fun i s hs k => ?_, fun m hm => ?_, fun ticket c hc => ?_, ?_⟩
  · rw [← billed.counters, Service.tally_of_getElem? hs]
  · obtain ⟨us, t, rfl⟩ := exists_of_mem_moments hm
    have earlier := billed_play (C := C) us s₀
    refine ⟨settles_turn earlier.numbered earlier.placed t, fun r f ht ha => ?_⟩
    obtain rfl : t = .enter r := ht
    rw [moment_answer] at ha
    have ended := ended_enter (C := C.recorded) (w := (vacant ⟨s₀, []⟩).play C.recorded us) r
    simp [Moment.charges, ended, Moment.resubmitting, Moment.turnedAway, ha]
  · have there := (List.getElem?_eq_some_iff.mp hc).1
    have again := billed.again ticket
    have opened := billed.opened ticket
    rw [if_pos there] at again opened
    refine ⟨fun x hx own => ?_, ?_, again, opened⟩
    · obtain ⟨d, hd, hs⟩ := billed.owned x hx ticket own
      obtain rfl : c = d := Option.some.inj (hc.symm.trans hd)
      exact hs
    · rw [billed.ends, settled?_of_getElem? hc]
  · rw [Service.sum_tally, ← billed.finished, ← Charge.sum_total (billed.service_lt)]
    exact Finset.sum_congr rfl fun i _ => Finset.sum_congr rfl fun k _ => billed.counters i k

end World
end PacketAuth
