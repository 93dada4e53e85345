import PacketAuth.Proofs.Effect
import PacketAuth.Proofs.Software
import Mathlib.Data.List.Perm.Basic
import Mathlib.Data.List.Nodup

/-! Custody of jobs. A job that is out is in the queue or in the engine's hand, it belongs to one
call, and the pool and the counters know how many there are. -/
namespace PacketAuth

/-- What a job and the call that waits for it agree on. -/
def Job.token (j : Job) : Option Recipient × JobId := (j.recipient, j.id)

theorem Job.token_rearm (j : Job) : j.rearm.token = j.token := rfl

theorem Job.token_complete (j : Job) (o : Outcome) : (j.complete o).token = j.token := rfl

/-- The tokens of the calls that wait. -/
def waitingTokens (calls : List Call) : List (Option Recipient × JobId) :=
  calls.zipIdx.filterMap fun p =>
    if p.1.isWaiting then some (some (.call p.2), p.1.job) else none

theorem mem_waitingTokens {calls : List Call} {x : Option Recipient × JobId} :
    x ∈ waitingTokens calls ↔
      ∃ (ticket : Nat) (c : Call), calls[ticket]? = some c ∧ c.isWaiting = true ∧
        x = (some (.call ticket), c.job) := by
  simp only [waitingTokens, List.mem_filterMap, Prod.exists, List.mem_zipIdx_iff_getElem?]
  constructor
  · rintro ⟨c, ticket, hc, h⟩
    split at h
    · rename_i hw
      cases h
      exact ⟨ticket, c, hc, hw, rfl⟩
    · cases h
  · rintro ⟨ticket, c, hc, hw, rfl⟩
    exact ⟨c, ticket, hc, if_pos hw⟩

theorem waitingTokens_append (calls : List Call) {c : Call} (hw : c.isWaiting = true) :
    waitingTokens (calls ++ [c]) =
      waitingTokens calls ++ [(some (.call calls.length), c.job)] := by
  simp [waitingTokens, List.zipIdx_append, List.filterMap_append, hw]

/-- A call that stops waiting takes its token with it. -/
theorem waitingTokens_set {calls : List Call} {ticket : Nat} {c c' : Call}
    (hc : calls[ticket]? = some c) (hw : c.isWaiting = true) (hw' : c'.isWaiting = false) :
    (waitingTokens calls).Perm
      ((some (.call ticket), c.job) :: waitingTokens (calls.set ticket c')) := by
  obtain ⟨hlt, hget⟩ := List.getElem?_eq_some_iff.mp hc
  have split : calls = calls.take ticket ++ c :: calls.drop (ticket + 1) := by
    rw [← hget, List.getElem_cons_drop, List.take_append_drop]
  have htake : (calls.take ticket).length = ticket := List.length_take_of_le (Nat.le_of_lt hlt)
  rw [List.set_eq_take_append_cons_drop, if_pos hlt]
  conv_lhs => rw [split]
  simp only [waitingTokens, List.zipIdx_append, List.zipIdx_cons, List.filterMap_append,
    List.filterMap_cons, hw, hw', htake, Nat.zero_add, if_true]
  exact List.perm_middle

theorem waitingTokens_length (calls : List Call) :
    (waitingTokens calls).length = (calls.filter Call.isWaiting).length := by
  unfold waitingTokens
  generalize 0 = n
  induction calls generalizing n with
  | nil => rfl
  | cons c calls ih =>
    simp only [List.zipIdx_cons, List.filterMap_cons]
    cases hw : c.isWaiting <;> simp [hw, ih]

namespace World

/-- Every job that is out is in one place and belongs to one call. `deserted` are the jobs whose
callers left. -/
structure Accounted (w : World Software) : Prop where
  held : w.host.isHeld = true
  slots : ∀ c ∈ w.host.calls, c.slot = .pending ↔ c.isWaiting = true
  books : ∃ deserted,
    (w.afloat.map Job.token).Perm (waitingTokens w.host.calls ++ deserted) ∧
      ∀ x ∈ deserted, ∃ (ticket : Nat) (c : Call), x.1 = some (.call ticket) ∧
        w.host.calls[ticket]? = some c ∧ c.slot = .abandoned
  ids : ((w.host.engine.pool.free ++ w.afloat).map Job.id).Nodup
  used : ∀ i ∈ (w.host.engine.pool.free ++ w.afloat).map Job.id, i.raw < w.host.engine.nextJob
  outstanding : w.host.engine.pool.outstanding = w.afloat.length
  gauge : w.host.engine.accounting.jobsOutstanding = w.afloat.length
  balance : w.host.engine.accounting.jobsAcquired =
    w.host.engine.accounting.jobsReleased + w.afloat.length

namespace Accounted
variable {w w' : World Software}

theorem fresh (capacity : Capacity) : Accounted (World.fresh capacity) where
  held := rfl
  slots := by simp [World.fresh]
  books := ⟨[], .refl _, by simp⟩
  ids := List.nodup_nil
  used := nofun
  outstanding := rfl
  gauge := rfl
  balance := rfl

/-- Jobs may move between the engine and its hand; nothing else matters. -/
theorem move (h : Accounted w) (hs : Software.SamePool w.host.engine w'.host.engine)
    (hc : w'.host.calls = w.host.calls) (hi : w'.host.isHeld = w.host.isHeld)
    (hperm : (w'.afloat.map Job.token).Perm (w.afloat.map Job.token)) : Accounted w' := by
  have hids : ((w'.host.engine.pool.free ++ w'.afloat).map Job.id).Perm
      ((w.host.engine.pool.free ++ w.afloat).map Job.id) := by
    rw [hs.pool, List.map_append, List.map_append]
    have := hperm.map Prod.snd
    rw [List.map_map, List.map_map] at this
    exact this.append_left _
  have hlength : w'.afloat.length = w.afloat.length := by simpa using hperm.length_eq
  obtain ⟨deserted, books, hdeserted⟩ := h.books
  constructor
  · rw [hi]; exact h.held
  · rw [hc]; exact h.slots
  · rw [hc]; exact ⟨deserted, hperm.trans books, hdeserted⟩
  · exact hids.nodup_iff.mpr h.ids
  · rw [hs.nextJob]
    exact fun i hmem => h.used i (hids.mem_iff.mp hmem)
  · rw [hs.pool, hlength]; exact h.outstanding
  · rw [hs.outstanding, hlength]; exact h.gauge
  · rw [hs.acquired, hs.released, hlength]; exact h.balance

/-- This speaks of the jobs of the engine, their counters and the calls, and of nothing else. -/
theorem congr (h : Accounted w) (hs : Software.SamePool w.host.engine w'.host.engine)
    (hq : w'.host.engine.inside = w.host.engine.inside)
    (hc : w'.host.calls = w.host.calls) (hi : w'.host.isHeld = w.host.isHeld)
    (hh : w'.hand = w.hand) : Accounted w' :=
  h.move hs hc hi (by rw [afloat, hq, hh, afloat])

theorem ids_nodup (h : Accounted w) : (w.afloat.map Job.id).Nodup := by
  have ids := h.ids
  rw [List.map_append] at ids
  exact (List.nodup_append.mp ids).2.1

theorem ids_nodup_queued (h : Accounted w) : (w.host.engine.queued.map Job.id).Nodup := by
  have ids := h.ids_nodup
  rw [afloat, Software.inside, List.map_append, List.map_append] at ids
  exact (List.nodup_append.mp (List.nodup_append.mp ids).1).2.1

theorem tokens_nodup (h : Accounted w) : (w.afloat.map Job.token).Nodup := by
  have ids : ((w.afloat.map Job.token).map Prod.snd).Nodup := by
    rw [List.map_map]
    exact h.ids_nodup
  exact ids.of_map

/-- A job that goes back to the pool leaves the others as they are. -/
theorem release (h : Accounted w) {s : Software} {job : Job} {x : Option Recipient × JobId}
    (he : w'.host.engine = s.release job) (hs : Software.SamePool w.host.engine s)
    (hi : w'.host.isHeld = w.host.isHeld)
    (hslots : ∀ c ∈ w'.host.calls, c.slot = .pending ↔ c.isWaiting = true)
    (hperm : (w.afloat.map Job.token).Perm (x :: w'.afloat.map Job.token))
    (hbooks : ∃ deserted,
      (w'.afloat.map Job.token).Perm (waitingTokens w'.host.calls ++ deserted) ∧
        ∀ x ∈ deserted, ∃ (ticket : Nat) (c : Call), x.1 = some (.call ticket) ∧
          w'.host.calls[ticket]? = some c ∧ c.slot = .abandoned) :
    Accounted w' := by
  have hlength : w.afloat.length = w'.afloat.length + 1 := by simpa using hperm.length_eq
  have hids : ((w.host.engine.pool.free ++ w.afloat).map Job.id).Perm
      (x.2 :: (w.host.engine.pool.free ++ w'.afloat).map Job.id) := by
    have := hperm.map Prod.snd
    rw [List.map_map, List.map_cons, List.map_map] at this
    rw [List.map_append, List.map_append]
    exact (this.append_left _).trans List.perm_middle
  have hnodup := (List.nodup_cons.mp (hids.nodup_iff.mp h.ids)).2
  have hused : ∀ i ∈ (w.host.engine.pool.free ++ w'.afloat).map Job.id,
      i.raw < w.host.engine.nextJob :=
    fun i hmem => h.used i (hids.mem_iff.mpr (List.mem_cons_of_mem _ hmem))
  refine ⟨hi ▸ h.held, hslots, hbooks, ?_, ?_, ?_, ?_, ?_⟩
  · rw [he]
    simp only [Software.release, Software.takeBack, Software.record, hs.pool, hs.nextJob]
    split
    · exact List.nodup_cons.mpr ⟨fun hmem => Nat.lt_irrefl _ (hused _ hmem), hnodup⟩
    · exact hnodup
  · rw [he]
    simp only [Software.release, Software.takeBack, Software.record, hs.pool, hs.nextJob]
    intro i hmem
    have old : i = ⟨w.host.engine.nextJob⟩ ∨
        i ∈ (w.host.engine.pool.free ++ w'.afloat).map Job.id := by
      split at hmem
      · exact List.mem_cons.mp hmem
      · exact .inr hmem
    rcases old with rfl | old
    · exact Nat.lt_succ_self _
    · exact Nat.lt_succ_of_lt (hused i old)
  · have := h.outstanding
    rw [he]
    simp only [Software.release, Software.takeBack, Software.record, hs.pool]
    omega
  · have := h.gauge
    rw [he]
    simp only [Software.release, Software.takeBack, Software.record, Accounting.record,
      hs.outstanding]
    omega
  · have := h.balance
    rw [he]
    simp only [Software.release, Software.takeBack, Software.record, Accounting.record,
      hs.acquired, hs.released]
    omega

/-- The call of a job that is out. -/
theorem call_of_mem (h : Accounted w) {j : Job} (hj : j ∈ w.afloat) :
    ∃ (ticket : Nat) (c : Call), j.recipient = some (.call ticket) ∧
      w.host.calls[ticket]? = some c ∧
      (c.isWaiting = true ∧ c.slot = .pending ∧ c.job = j.id ∨
        c.isWaiting = false ∧ c.slot = .abandoned) := by
  obtain ⟨deserted, hperm, hdeserted⟩ := h.books
  have mem : j.token ∈ waitingTokens w.host.calls ++ deserted :=
    hperm.mem_iff.mp (List.mem_map_of_mem hj)
  rcases List.mem_append.mp mem with hwaiting | hleft
  · obtain ⟨ticket, c, hc, hw, htoken⟩ := mem_waitingTokens.mp hwaiting
    obtain ⟨hr, hid⟩ := Prod.mk.inj htoken
    exact ⟨ticket, c, hr, hc, .inl ⟨hw, (h.slots c (List.mem_of_getElem? hc)).mpr hw, hid.symm⟩⟩
  · obtain ⟨ticket, c, hr, hc, hs⟩ := hdeserted _ hleft
    refine ⟨ticket, c, hr, hc, .inr ⟨?_, hs⟩⟩
    have pending := h.slots c (List.mem_of_getElem? hc)
    rw [hs] at pending
    simpa using pending

/-- The call that a job is out for waits for it, or was left. -/
theorem owner (h : Accounted w) {j : Job} (hj : j ∈ w.afloat) {ticket : Nat} {c : Call}
    (hr : j.recipient = some (.call ticket)) (hc : w.host.calls[ticket]? = some c) :
    c.isWaiting = true ∧ c.slot = .pending ∧ c.job = j.id ∨
      c.isWaiting = false ∧ c.slot = .abandoned := by
  obtain ⟨ticket', c', hr', hc', state⟩ := h.call_of_mem hj
  obtain rfl : ticket = ticket' := by simpa [hr] using hr'
  obtain rfl : c = c' := by simpa [hc] using hc'
  exact state

/-- The job of a call that waits is out. -/
theorem job_of_waiting (h : Accounted w) {ticket : Nat} {c : Call}
    (hc : w.host.calls[ticket]? = some c) (hw : c.isWaiting = true) :
    ∃ j ∈ w.afloat, j.recipient = some (.call ticket) ∧ j.id = c.job := by
  obtain ⟨deserted, books, -⟩ := h.books
  obtain ⟨j, hj, htoken⟩ := List.mem_map.mp (books.mem_iff.mpr (List.mem_append_left _
    (mem_waitingTokens.mpr ⟨ticket, c, hc, hw, rfl⟩)))
  exact ⟨j, hj, Prod.mk.inj htoken⟩

/-- It is the only one that is out for the call. -/
theorem job_unique (h : Accounted w) {ticket : Nat} {c : Call}
    (hc : w.host.calls[ticket]? = some c) (hw : c.isWaiting = true) {j k : Job}
    (hj : j ∈ w.afloat) (hk : k ∈ w.afloat) (hr : j.recipient = some (.call ticket))
    (hr' : k.recipient = some (.call ticket)) : j = k := by
  have own := h.owner hj hr hc
  have own' := h.owner hk hr' hc
  simp only [hw, Bool.true_eq_false, false_and, or_false, true_and] at own own'
  exact List.inj_on_of_nodup_map h.ids_nodup hj hk (own.2.symm.trans own'.2)

/-- No job that is out belongs to a call that is still to come. -/
theorem recipient_ne_new (h : Accounted w) {j : Job} (hj : j ∈ w.afloat) :
    j.recipient ≠ some (.call w.host.calls.length) := by
  intro hr
  obtain ⟨ticket, c, hr', hget, -⟩ := h.call_of_mem hj
  obtain rfl : w.host.calls.length = ticket := by simpa [hr] using hr'
  simp at hget

/-- A job that is acquired has an id that no other job has. -/
theorem acquired_ids (h : Accounted w) {job : Job}
    (ha : w.host.engine.acquire.answer = some job) :
    (job.id :: (w.host.engine.acquire.state.pool.free ++ w.afloat).map Job.id).Nodup ∧
      ∀ i ∈ job.id :: (w.host.engine.acquire.state.pool.free ++ w.afloat).map Job.id,
        i.raw < w.host.engine.acquire.state.nextJob := by
  obtain ⟨free, nextJob, hstate, hfree⟩ := Software.acquire_eq_some ha
  have hnodup := h.ids
  have hused : ∀ i ∈ (w.host.engine.pool.free ++ w.afloat).map Job.id,
      i.raw < w.host.engine.nextJob := h.used
  rw [hstate]
  rcases hfree with ⟨hold, rfl⟩ | ⟨hold, rfl, rfl, rfl⟩
  · rw [hold] at hnodup hused
    exact ⟨hnodup, hused⟩
  · rw [hold] at hnodup hused
    refine ⟨List.nodup_cons.mpr ⟨fun hmem => ?_, hnodup⟩, fun i hmem => ?_⟩
    · exact Nat.lt_irrefl _ (hused _ hmem)
    · rcases List.mem_cons.mp hmem with rfl | hmem
      · exact Nat.lt_succ_self _
      · exact Nat.lt_succ_of_lt (hused i hmem)

theorem admitted (h : Accounted w) {s : Service} {r : Request} {regions : Regions}
    {session : SessionHandle} {job : Job} (ha : w.host.engine.acquire.answer = some job)
    (he : w'.host.engine = (Software.submit (r.fill s regions session w.host.calls.length job) 0
      w.host.now w.host.engine.acquire.state).state)
    (hc : w'.host.calls = w.host.calls ++ [r.call s regions job w.host.now])
    (hi : w'.host.isHeld = w.host.isHeld) (hh : w'.hand = w.hand) : Accounted w' := by
  obtain ⟨free, nextJob, hstate, -⟩ := Software.acquire_eq_some ha
  obtain ⟨queue, returning, hsubmit, hinside⟩ := Software.submit_frame
    (r.fill s regions session w.host.calls.length job) 0 w.host.now w.host.engine.acquire.state
  rw [← he, Software.acquire_inside] at hinside
  rw [← he] at hsubmit
  have hwaiting : waitingTokens w'.host.calls =
      waitingTokens w.host.calls ++ [(some (.call w.host.calls.length), job.id)] := by
    rw [hc]
    exact waitingTokens_append _ rfl
  have hafloat : (w'.afloat.map Job.token).Perm
      (w.afloat.map Job.token ++ [(some (.call w.host.calls.length), job.id)]) := by
    have := (hinside.append_right w.hand).map Job.token
    rw [afloat, afloat, hh]
    refine this.trans ?_
    simp only [List.map_append, List.append_assoc, List.map_cons, List.map_nil]
    exact List.Perm.append_left _ List.perm_append_comm
  have hlength : w'.afloat.length = w.afloat.length + 1 := by simpa using hafloat.length_eq
  have hkeys : (w'.afloat.map Job.id).Perm (job.id :: w.afloat.map Job.id) := by
    have := hafloat.map Prod.snd
    rw [List.map_map, List.map_append, List.map_map] at this
    exact this.trans List.perm_append_comm
  have hpool : w'.host.engine.pool.free = w.host.engine.acquire.state.pool.free := by
    rw [hsubmit]
    rfl
  have hnext : w'.host.engine.nextJob = w.host.engine.acquire.state.nextJob := by
    rw [hsubmit]
    rfl
  have hids : ((w'.host.engine.pool.free ++ w'.afloat).map Job.id).Perm
      (job.id :: (w.host.engine.acquire.state.pool.free ++ w.afloat).map Job.id) := by
    rw [hpool, List.map_append, List.map_append]
    exact (hkeys.append_left _).trans List.perm_middle
  obtain ⟨fresh, used⟩ := h.acquired_ids ha
  obtain ⟨deserted, books, hdeserted⟩ := h.books
  constructor
  · exact hi ▸ h.held
  · intro c hmem
    rw [hc] at hmem
    rcases List.mem_append.mp hmem with hmem | hmem
    · exact h.slots c hmem
    · rw [List.mem_singleton.mp hmem]
      exact ⟨fun _ => rfl, fun _ => rfl⟩
  · refine ⟨deserted, ?_, fun x hx => ?_⟩
    · rw [hwaiting]
      refine hafloat.trans ((books.append_right _).trans ?_)
      rw [List.append_assoc, List.append_assoc]
      exact List.Perm.append_left _ List.perm_append_comm
    · obtain ⟨ticket, c, hr, hget, hs⟩ := hdeserted x hx
      refine ⟨ticket, c, hr, ?_, hs⟩
      rw [hc, List.getElem?_append_left (List.getElem?_eq_some_iff.mp hget).1]
      exact hget
  · exact hids.nodup_iff.mpr fresh
  · rw [hnext]
    exact fun i hmem => used i (hids.mem_iff.mp hmem)
  · rw [hlength, hsubmit, hstate]
    simpa [Software.record] using h.outstanding
  · rw [hlength, hsubmit, hstate]
    simpa [Software.record, Accounting.record] using h.gauge
  · have := h.balance
    rw [hlength, hsubmit, hstate]
    simp only [Software.record, Accounting.record]
    omega

theorem taken (h : Accounted w) {now : Nat} {step : PacketAuth.Step Software Job}
    (hs : w.host.engine.handBack now = some step) (he : w'.host.engine = step.state)
    (hc : w'.host.calls = w.host.calls) (hi : w'.host.isHeld = w.host.isHeld)
    (hh : w'.hand = w.hand ++ [step.answer]) : Accounted w' := by
  obtain ⟨before, job, after, output, outcome, hold, hanswer, -, queue, returning, faults, hstate,
    hnew, -⟩ := Software.handBack_spec hs
  have token : step.answer.token = job.token := by rw [hanswer]; rfl
  have same : Software.SamePool w.host.engine w'.host.engine := by
    rw [he, hstate]
    exact Software.record_samePool _ _ _ _ outcome
  refine h.move same hc hi ?_
  simp only [afloat, hold, he, hnew, hh, List.map_append, List.map_cons, List.map_nil, token,
    List.append_assoc, List.cons_append]
  refine List.Perm.append_left _ ?_
  rw [← List.append_assoc]
  exact List.perm_append_comm

/-- A job may be submitted anew, whoever it belongs to. -/
theorem resubmitted (h : Accounted w) {before after : List Job} {job job' : Job} {delay now : Nat}
    (hw : w.hand = before ++ job :: after) (token : job'.token = job.token)
    (he : w'.host.engine = (Software.submit job' delay now w.host.engine).state)
    (hc : w'.host.calls = w.host.calls) (hi : w'.host.isHeld = w.host.isHeld)
    (hh : w'.hand = before ++ after) : Accounted w' := by
  obtain ⟨queue, returning, hsubmit, hinside⟩ :=
    Software.submit_frame job' delay now w.host.engine
  rw [← he] at hsubmit hinside
  have same : Software.SamePool w.host.engine w'.host.engine := by
    rw [hsubmit]
    exact ⟨rfl, rfl, rfl, rfl, rfl⟩
  refine h.move same hc hi ?_
  rw [afloat, afloat, hw, hh]
  refine ((hinside.append_right _).map Job.token).trans ?_
  simp only [List.map_append, List.map_cons, token, List.append_assoc, List.cons_append,
    List.nil_append]
  exact List.Perm.append_left _ List.perm_middle.symm

/-- A call that stops waiting no longer owes its job to the books. -/
theorem calls_set (h : Accounted w) {ticket : Nat} {c c' : Call}
    (hget : w.host.calls[ticket]? = some c) (hw : c.isWaiting = true)
    (hw' : c'.isWaiting = false) (hs' : c'.slot ≠ .pending) :
    (∀ x ∈ w.host.calls.set ticket c', x.slot = .pending ↔ x.isWaiting = true) ∧
      ∃ deserted, (w.afloat.map Job.token).Perm
          ((some (.call ticket), c.job) ::
            (waitingTokens (w.host.calls.set ticket c') ++ deserted)) ∧
        ∀ x ∈ deserted, ∃ (t : Nat) (d : Call), x.1 = some (.call t) ∧
          (w.host.calls.set ticket c')[t]? = some d ∧ d.slot = .abandoned := by
  constructor
  · intro x hx
    rcases List.mem_or_eq_of_mem_set hx with hx | rfl
    · exact h.slots x hx
    · simp [hw', hs']
  · obtain ⟨deserted, books, hdeserted⟩ := h.books
    refine ⟨deserted, books.trans ((waitingTokens_set hget hw hw').append_right _), ?_⟩
    intro x hx
    obtain ⟨t, d, hr, hd, hs⟩ := hdeserted x hx
    refine ⟨t, d, hr, ?_, hs⟩
    have other : ticket ≠ t := by
      rintro rfl
      obtain rfl : c = d := by simpa [hget] using hd
      have := (h.slots c (List.mem_of_getElem? hget)).mpr hw
      simp [hs] at this
    rw [List.getElem?_set_ne other]
    exact hd

/-- The job of a call that stops waiting goes back to the pool. -/
theorem conclude (h : Accounted w) {ticket : Nat} {c c' : Call} {s : Software} {job : Job}
    (hget : w.host.calls[ticket]? = some c) (hw : c.isWaiting = true)
    (hw' : c'.isWaiting = false) (hs' : c'.slot ≠ .pending)
    (he : w'.host.engine = s.release job) (hs : Software.SamePool w.host.engine s)
    (hc : w'.host.calls = w.host.calls.set ticket c') (hi : w'.host.isHeld = w.host.isHeld)
    (hperm : (w.afloat.map Job.token).Perm
      ((some (.call ticket), c.job) :: w'.afloat.map Job.token)) : Accounted w' := by
  obtain ⟨hslots, deserted, books, hdeserted⟩ := h.calls_set hget hw hw' hs'
  rw [← hc] at hslots books hdeserted
  exact h.release he hs hi hslots hperm ⟨deserted, (hperm.symm.trans books).cons_inv, hdeserted⟩

theorem finished (h : Accounted w) {before after : List Job} {job : Job} (job' : Job) {ticket : Nat}
    {c c' : Call} (hhand : w.hand = before ++ job :: after)
    (hj : job.recipient = some (.call ticket)) (hget : w.host.calls[ticket]? = some c)
    (hw : c.isWaiting = true) (hw' : c'.isWaiting = false) (hs' : c'.slot ≠ .pending)
    (he : w'.host.engine = w.host.engine.release job')
    (hc : w'.host.calls = w.host.calls.set ticket c') (hi : w'.host.isHeld = w.host.isHeld)
    (hh : w'.hand = before ++ after) : Accounted w' := by
  have hinside : w'.host.engine.inside = w.host.engine.inside := by rw [he]; rfl
  have out : job ∈ w.afloat := List.mem_append_right _ (by simp [hhand])
  obtain ⟨-, hid⟩ : c.slot = .pending ∧ c.job = job.id := by simpa [hw] using h.owner out hj hget
  refine h.conclude hget hw hw' hs' he .refl hc hi ?_
  have token : job.token = (some (.call ticket), c.job) := by rw [Job.token, hj, hid]
  simp only [afloat, hinside, hhand, hh, List.map_append, List.map_cons, token]
  rw [← List.append_assoc, ← List.append_assoc]
  exact List.perm_middle

theorem refused (h : Accounted w) {before after : List Job} {job : Job} (job' : Job) {ticket : Nat}
    {c : Call} (hhand : w.hand = before ++ job :: after)
    (hj : job.recipient = some (.call ticket)) (hget : w.host.calls[ticket]? = some c)
    (hp : c.slot ≠ .pending) (he : w'.host.engine = w.host.engine.release job')
    (hc : w'.host.calls = w.host.calls) (hi : w'.host.isHeld = w.host.isHeld)
    (hh : w'.hand = before ++ after) : Accounted w' := by
  have hinside : w'.host.engine.inside = w.host.engine.inside := by rw [he]; rfl
  have hperm : (w.afloat.map Job.token).Perm (job.token :: w'.afloat.map Job.token) := by
    simp only [afloat, hinside, hhand, hh, List.map_append, List.map_cons]
    rw [← List.append_assoc, ← List.append_assoc]
    exact List.perm_middle
  obtain ⟨deserted, books, hdeserted⟩ := h.books
  have mem : job.token ∈ deserted := by
    have := books.mem_iff.mp (hperm.mem_iff.mpr List.mem_cons_self)
    refine (List.mem_append.mp this).resolve_left fun hwaiting => hp ?_
    obtain ⟨t, d, hd, hw, heq⟩ := mem_waitingTokens.mp hwaiting
    obtain rfl : ticket = t := by simpa [Job.token, hj] using congrArg Prod.fst heq
    obtain rfl : c = d := by simpa [hget] using hd
    exact (h.slots c (List.mem_of_getElem? hget)).mpr hw
  obtain ⟨deserted', hsplit⟩ : ∃ rest, deserted.Perm (job.token :: rest) :=
    ⟨_, List.perm_cons_erase mem⟩
  refine h.release he .refl hi (hc ▸ h.slots) hperm ⟨deserted', ?_, ?_⟩
  · rw [hc]
    have := hperm.symm.trans (books.trans (hsplit.append_left _))
    exact (this.trans List.perm_middle).cons_inv
  · intro x hx
    rw [hc]
    exact hdeserted x (hsplit.mem_iff.mpr (List.mem_cons_of_mem _ hx))

/-- The call that a queued job with its id belongs to can only be the call itself. -/
theorem token_of_queued (h : Accounted w) {ticket : Nat} {c : Call} {j : Job}
    (hget : w.host.calls[ticket]? = some c) (hw : c.isWaiting = true)
    (hj : j ∈ w.host.engine.queued) (hid : j.id = c.job) :
    j.token = (some (.call ticket), c.job) := by
  obtain ⟨deserted, books, -⟩ := h.books
  have mem : (some (.call ticket), c.job) ∈ w.afloat.map Job.token :=
    books.mem_iff.mpr (List.mem_append_left _ (mem_waitingTokens.mpr ⟨ticket, c, hget, hw, rfl⟩))
  obtain ⟨k, hk, htoken⟩ := List.mem_map.mp mem
  have same : k = j := by
    refine List.inj_on_of_nodup_map h.ids_nodup hk (List.mem_append_left _ (List.mem_append_right _ hj)) ?_
    rw [hid]
    exact congrArg Prod.snd htoken
  rw [← same, htoken]

/-- A call leaves while its job is not in the queue: the job comes back to nobody. -/
theorem leftBehind (h : Accounted w) {ticket : Nat} {c c' : Call}
    (hget : w.host.calls[ticket]? = some c) (hw : c.isWaiting = true)
    (hw' : c'.isWaiting = false) (hs' : c'.slot = .abandoned)
    (he : w'.host.engine = w.host.engine) (hc : w'.host.calls = w.host.calls.set ticket c')
    (hi : w'.host.isHeld = w.host.isHeld) (hh : w'.hand = w.hand) : Accounted w' := by
  obtain ⟨hslots, deserted, books, hdeserted⟩ := h.calls_set hget hw hw' (by simp [hs'])
  have hafloat : w'.afloat = w.afloat := by rw [afloat, he, hh, afloat]
  obtain ⟨hlt, -⟩ := List.getElem?_eq_some_iff.mp hget
  constructor
  · exact hi ▸ h.held
  · rw [hc]; exact hslots
  · refine ⟨(some (.call ticket), c.job) :: deserted, ?_, fun x hx => ?_⟩
    · rw [hc, hafloat]
      exact books.trans List.perm_middle.symm
    · rw [hc]
      rcases List.mem_cons.mp hx with rfl | hx
      · exact ⟨ticket, c', rfl, List.getElem?_set_self hlt, hs'⟩
      · exact hdeserted x hx
  · rw [he, hafloat]; exact h.ids
  · rw [he, hafloat]; exact h.used
  · rw [he, hafloat]; exact h.outstanding
  · rw [he, hafloat]; exact h.gauge
  · rw [he, hafloat]; exact h.balance

theorem left (h : Accounted w) {ticket : Nat} {c c' : Call}
    (hget : w.host.calls[ticket]? = some c) (hw : c.isWaiting = true)
    (hw' : c'.isWaiting = false) (hs' : c'.slot = .abandoned)
    (he : w'.host.engine = Software.engine.withdraw c.job w.host.engine)
    (hc : w'.host.calls = w.host.calls.set ticket c') (hi : w'.host.isHeld = w.host.isHeld)
    (hh : w'.hand = w.hand) : Accounted w' := by
  cases hr : Queue.remove c.job w.host.engine.queue with
  | none =>
    have hstate : w'.host.engine = w.host.engine := by
      simp [he, Engine.withdraw, Software.engine, Software.cancel, hr]
    exact h.leftBehind hget hw hw' hs' hstate hc hi hh
  | some found =>
    obtain ⟨job, rest⟩ := found
    obtain ⟨before, q, after, hqueue, hrest, rfl, hid⟩ := Queue.remove_eq_some hr
    have hstate : w'.host.engine =
        (({ w.host.engine with queue := rest } : Software).record .jobCancelled).release q.job := by
      simp [he, Engine.withdraw, Software.engine, Software.cancel, hr]
    have token : q.job.token = (some (.call ticket), c.job) :=
      h.token_of_queued hget hw (by simp [Software.queued, hqueue]) hid
    refine h.conclude hget hw hw' (by simp [hs']) hstate ⟨rfl, rfl, rfl, rfl, rfl⟩ hc hi ?_
    simp only [afloat, Software.inside, Software.queued, hqueue, hstate, hrest, Software.release,
      Software.takeBack, Software.record, hh, List.map_append, List.map_cons, token,
      List.append_assoc, List.cons_append]
    rw [← List.append_assoc, ← List.append_assoc]
    exact List.perm_middle

theorem passed {host host' : Host Software} {before after : List Job} {job : Job}
    (h : Accounted ⟨host, before ++ job :: after⟩)
    (s : Settlement Software.engine host job host') : Accounted ⟨host', before ++ after⟩ := by
  have mem : job ∈ World.afloat ⟨host, before ++ job :: after⟩ :=
    List.mem_append_right _ (List.mem_append_right before List.mem_cons_self)
  cases s with
  | strayed handedBack hj =>
    obtain ⟨ticket, c, hr, hc, -⟩ := h.call_of_mem mem
    have := hj ticket hr
    rw [hc] at this
    cases this
  | resubmitted hj hc hb ha hr hq =>
    exact h.resubmitted rfl job.token_rearm (congrArg Step.state hq.symm) rfl rfl rfl
  | @finished job' ticket c exhausted hj hc hw hp hr =>
    exact h.finished job' rfl hj hc hw rfl (by simp) rfl rfl rfl rfl
  | stranded hj hc hw hp hr =>
    have waiting := (h.slots _ (List.mem_of_getElem? hc)).mp hp
    rw [waiting] at hw
    cases hw
  | @refused job' ticket c exhausted hj hc hp hr =>
    have inUse : host.isEngineInUse = true := by
      have held : host.isHeld = true := h.held
      simp [Host.isEngineInUse, held]
    exact h.refused job' rfl hj hc hp (if_pos inUse) rfl rfl rfl

theorem effect (h : Accounted w) (e : Effect Software.rules w w') : Accounted w' := by
  cases e with
  | aside | installed | misconfigured | dropped | rejected =>
    exact h.congr .refl rfl rfl rfl rfl
  | changed _ hchange =>
    exact h.congr hchange.samePool hchange.frame.1 rfl rfl rfl
  | opened | notOpened =>
    exact h.congr (Software.createSession_samePool _ _)
      (Software.createSession_inside _ w.host.engine) rfl rfl rfl
  | starved _ hs ha =>
    exact h.congr (Software.acquire_none_samePool ha) (Software.acquire_inside _) rfl rfl rfl
  | admitted _ hs hl hr ho ha hq =>
    exact h.admitted ha (congrArg Step.state hq.symm) rfl rfl rfl
  | taken _ hs => exact h.taken hs rfl rfl rfl rfl
  | passed host before after s => exact h.passed s
  | collected _ hl hc hw hp =>
    have pending := (h.slots _ (List.mem_of_getElem? hc)).mpr hw
    rw [pending] at hp
    cases hp
  | left _ hl hc hw hp =>
    exact h.left hc hw rfl rfl rfl rfl rfl rfl

theorem run (h : Accounted w) (r : Run Software.rules w w') : Accounted w' := by
  have e := Run.effects r
  clear r
  induction e with
  | refl => exact h
  | tail _ effect ih => exact ih.effect effect

/-- A job on its way is the only one with its token. -/
theorem token_ne_of_queued (h : Accounted w) {before after : List Job} {job j : Job}
    (hhand : w.hand = before ++ job :: after) (hj : j ∈ w.host.engine.queued) :
    j.token ≠ job.token := by
  have hperm : (w.afloat.map Job.token).Perm
      (job.token :: (w.host.engine.inside ++ (before ++ after)).map Job.token) := by
    simp only [afloat, hhand, List.map_append, List.map_cons]
    rw [← List.append_assoc, ← List.append_assoc]
    exact List.perm_middle
  intro heq
  refine (List.nodup_cons.mp (hperm.nodup_iff.mp h.tokens_nodup)).1 (heq ▸ ?_)
  exact List.mem_map_of_mem (List.mem_append_left _ (List.mem_append_right _ hj))

end Accounted

/-- Every job that is out is in one place and belongs to one call, which waits if the job is in the
queue. -/
structure Custody (w : World Software) : Prop extends Accounted w where
  queued : ∀ j ∈ w.host.engine.queued, j.token ∈ waitingTokens w.host.calls
  failing : w.host.engine.FailsOnlyAtEnd

namespace Custody
variable {w w' : World Software}

theorem fresh (capacity : Capacity) : Custody (World.fresh capacity) where
  toAccounted := .fresh capacity
  queued := nofun
  failing _ := rfl

/-- When another call stops waiting, that of a job still waits. -/
theorem waits_of_set (h : Custody w) {ticket : Nat} {c c' : Call} {j : Job}
    (hget : w.host.calls[ticket]? = some c) (hw : c.isWaiting = true)
    (hw' : c'.isWaiting = false) (hj : j ∈ w.host.engine.queued)
    (other : j.token ≠ (some (.call ticket), c.job)) :
    j.token ∈ waitingTokens (w.host.calls.set ticket c') :=
  (List.mem_cons.mp ((waitingTokens_set hget hw hw').mem_iff.mp (h.queued j hj))).resolve_left other

theorem queued_passed {host host' : Host Software} {before after : List Job} {job : Job}
    (h : Custody ⟨host, before ++ job :: after⟩)
    (s : Settlement Software.engine host job host') :
    ∀ j ∈ host'.engine.queued, j.token ∈ waitingTokens host'.calls := by
  have mem : job ∈ World.afloat ⟨host, before ++ job :: after⟩ :=
    List.mem_append_right _ (List.mem_append_right before List.mem_cons_self)
  intro j hj
  cases s with
  | strayed => exact h.queued j hj
  | @resubmitted ticket c hr hc hb ha hallows submitted hq =>
    subst hq
    rcases Software.queued_submit_subset _ _ _ _ hj with hj | rfl
    · exact h.queued j hj
    · rcases h.owner mem hr hc with ⟨hwait, -, hid⟩ | ⟨-, left⟩
      · exact mem_waitingTokens.mpr
          ⟨ticket, c, hc, hwait, Prod.ext hr hid.symm⟩
      · simp [left, Slot.isAbandoned] at ha
  | @finished job' ticket c exhausted hr hc hw hp =>
    refine h.waits_of_set hc hw rfl hj fun heq => h.token_ne_of_queued rfl hj (heq.trans ?_)
    obtain ⟨-, hid⟩ : c.slot = .pending ∧ c.job = job.id := by simpa [hw] using h.owner mem hr hc
    rw [Job.token, hr, hid]
  | stranded hr hc hw hp =>
    have waiting := (h.slots _ (List.mem_of_getElem? hc)).mp hp
    rw [waiting] at hw
    cases hw
  | refused =>
    refine h.queued j ?_
    dsimp only at hj
    split at hj <;> exact hj

theorem queued_effect (h : Custody w) (e : Effect Software.rules w w') :
    ∀ j ∈ w'.host.engine.queued, j.token ∈ waitingTokens w'.host.calls := by
  intro j hj
  cases e with
  | aside | installed | misconfigured | dropped | rejected => exact h.queued j hj
  | changed _ hchange => exact h.queued j (List.map_subset _ hchange.queue_subset hj)
  | opened | notOpened => exact h.queued j (Software.queued_createSession_subset hj)
  | starved => exact h.queued j (Software.queued_acquire_subset hj)
  | @admitted _ s r lane regions session job hs hl hr ho ha submitted hq =>
    subst hq
    rw [waitingTokens_append _ (c := r.call s regions job w.host.now) rfl]
    rcases Software.queued_submit_subset _ _ _ _ hj with hj | rfl
    · exact List.mem_append_left _ (h.queued j (Software.queued_acquire_subset hj))
    · exact List.mem_append_right _ (List.mem_singleton.mpr rfl)
  | taken _ hs =>
    obtain ⟨before, job, after, output, outcome, -, -, -, queue, returning, faults, hstate, -, sub⟩ :=
      Software.handBack_spec hs
    rw [hstate] at hj
    exact h.queued j (List.map_subset _ sub.subset hj)
  | passed host before after s => exact h.queued_passed s j hj
  | collected _ hl hc hw hp =>
    have pending := (h.slots _ (List.mem_of_getElem? hc)).mpr hw
    rw [pending] at hp
    cases hp
  | @left _ ticket c reason hl hc hw hp =>
    have old : j ∈ w.host.engine.queued := List.map_subset _ (Software.withdraw_queue c.job _) hj
    refine h.waits_of_set hc hw rfl old fun heq => ?_
    exact Software.withdraw_removes h.ids_nodup_queued hj (congrArg Prod.snd heq)

theorem effect (h : Custody w) (e : Effect Software.rules w w') : Custody w' :=
  ⟨h.toAccounted.effect e, h.queued_effect e, Software.keeps_failsOnlyAtEnd.effect e h.failing⟩

theorem effects (h : Custody w) (e : Effects Software.rules w w') : Custody w' := by
  induction e with
  | refl => exact h
  | tail _ effect ih => exact ih.effect effect

theorem run (h : Custody w) (r : Run Software.rules w w') : Custody w' := h.effects r.effects

end Custody

/-- A call that waits, with nothing in its slot, for this very job. -/
def AwaitedBy (w : World Software) (j : Job) (ticket : Nat) : Prop :=
  j.recipient = some (.call ticket) ∧
    ∃ c, w.host.calls[ticket]? = some c ∧ c.isWaiting = true ∧ c.slot = .pending ∧ c.job = j.id

/-- The call that a job was submitted for, when its caller has left. -/
def LeftBy (w : World Software) (j : Job) (ticket : Nat) : Prop :=
  j.recipient = some (.call ticket) ∧
    ∃ c, w.host.calls[ticket]? = some c ∧ c.isWaiting = false ∧ c.slot = .abandoned

/-- The jobs in the queue that no call waits for. -/
def orphans (w : World Software) : List Job :=
  w.host.engine.queued.filter fun j => j.token ∉ waitingTokens w.host.calls

/-- The jobs that are out are those in the queue: one for each call that waits, and those that no
call waits for, because their callers have left. -/
structure Matched (w : World Software) : Prop where
  outstanding : w.host.engine.pool.outstanding = w.host.engine.queue.length
  gauge : w.host.engine.accounting.jobsOutstanding = w.host.engine.queue.length
  balance : (w.host.engine.accounting.jobsAcquired : Int) - w.host.engine.accounting.jobsReleased =
    w.host.engine.queue.length
  length : w.host.engine.queue.length =
    (w.host.calls.filter Call.isWaiting).length + w.orphans.length
  ids : (w.host.engine.queued.map Job.id).Nodup
  owned : ∀ ticket c, w.host.calls[ticket]? = some c → c.isWaiting = true →
    ∃! j, j ∈ w.host.engine.queued ∧ w.AwaitedBy j ticket
  awaited : ∀ j ∈ w.host.engine.queued, j ∉ w.orphans → ∃! ticket, w.AwaitedBy j ticket
  left : ∀ j ∈ w.orphans, ∃! ticket, w.LeftBy j ticket

namespace Accounted
variable {w : World Software}

/-- With the worker at rest, the jobs that are out are those in the queue, and among them are those
of the calls that wait. -/
theorem books_at_rest (h : Accounted w) (rest : w.IsAtRest) :
    (w.host.engine.queued.map Job.token).Perm
      (waitingTokens w.host.calls ++ w.orphans.map Job.token) := by
  obtain ⟨deserted, books, -⟩ := h.books
  rw [rest.afloat] at books
  have nodup : (w.host.engine.queued.map Job.token).Nodup := rest.afloat ▸ h.tokens_nodup
  have waiting : (waitingTokens w.host.calls).Nodup :=
    (books.nodup_iff.mp nodup).sublist (List.sublist_append_left _ _)
  have split := List.filter_append_perm
    (fun j : Job => decide (j.token ∈ waitingTokens w.host.calls)) w.host.engine.queued
  refine (split.map Job.token).symm.trans ?_
  rw [List.map_append]
  refine List.Perm.append ?_ (by simp [orphans])
  refine (List.perm_ext_iff_of_nodup ?_ waiting).mpr fun x => ?_
  · exact nodup.sublist (List.filter_sublist.map _)
  · simp only [List.mem_map, List.mem_filter, decide_eq_true_eq]
    constructor
    · rintro ⟨j, ⟨-, hj⟩, rfl⟩
      exact hj
    · intro hx
      obtain ⟨j, hj, rfl⟩ := List.mem_map.mp (books.mem_iff.mpr (List.mem_append_left _ hx))
      exact ⟨j, ⟨hj, hx⟩, rfl⟩

theorem matched (h : Accounted w) (rest : w.IsAtRest) : w.Matched := by
  have books := h.books_at_rest rest
  have count : w.host.engine.queue.length = w.afloat.length := by
    rw [rest.afloat, Software.queued, List.length_map]
  have hids : (w.host.engine.queued.map Job.id).Nodup := h.ids_nodup_queued
  have out : ∀ {j}, j ∈ w.host.engine.queued → j ∈ w.afloat := fun hj => rest.afloat ▸ hj
  refine ⟨count ▸ h.outstanding, count ▸ h.gauge, ?_, ?_, hids, ?_, ?_, ?_⟩
  · have balance := h.balance
    omega
  · have length := books.length_eq
    rwa [List.length_append, waitingTokens_length, List.length_map, List.length_map,
      Software.queued, List.length_map] at length
  · intro ticket c hc hwait
    obtain ⟨j, hj, hr, hid⟩ := h.job_of_waiting hc hwait
    rw [rest.afloat] at hj
    have pending := (h.slots c (List.mem_of_getElem? hc)).mpr hwait
    refine ⟨j, ⟨hj, hr, c, hc, hwait, pending, hid.symm⟩, ?_⟩
    rintro k ⟨hk, hr', -⟩
    exact (h.job_unique hc hwait (out hj) (out hk) hr hr').symm
  · intro j hj waits
    have mem : j.token ∈ waitingTokens w.host.calls := by simpa [orphans, hj] using waits
    obtain ⟨ticket, c, hc, hwait, htoken⟩ := mem_waitingTokens.mp mem
    obtain ⟨hr, hid⟩ := Prod.mk.inj htoken
    refine ⟨ticket, ⟨hr, c, hc, hwait, (h.slots c (List.mem_of_getElem? hc)).mpr hwait, hid.symm⟩,
      fun other hother => ?_⟩
    simpa [hr] using hother.1.symm
  · intro j hj
    obtain ⟨hj, waits⟩ := List.mem_filter.mp hj
    obtain ⟨ticket, c, hr, hc, ⟨hwait, -, hid⟩ | left⟩ := h.call_of_mem (out hj)
    · refine absurd (mem_waitingTokens.mpr ⟨ticket, c, hc, hwait, ?_⟩) (of_decide_eq_true waits)
      rw [Job.token, hr, hid]
    · refine ⟨ticket, ⟨hr, c, hc, left⟩, fun other hother => ?_⟩
      simpa [hr] using hother.1.symm

end Accounted

/-- No job is left by its caller while all that is queued is waited for. -/
theorem Custody.orphans {w : World Software} (h : Custody w) : w.orphans = [] :=
  List.filter_eq_nil_iff.mpr fun j hj => by simpa using h.queued j hj

/-- With the worker at rest, the jobs that are out are those of the calls that wait. -/
theorem Custody.settled {w : World Software} (h : Custody w) (rest : w.IsAtRest) :
    (w.host.engine.queued.map Job.token).Perm (waitingTokens w.host.calls) := by
  have books := h.books_at_rest rest
  rwa [h.orphans, List.map_nil, List.append_nil] at books

end World
end PacketAuth
