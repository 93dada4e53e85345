import PacketAuth.Proofs.Custody
import PacketAuth.Proofs.Traffic

/-! Names of jobs. No two jobs ever have the same id and no id comes back once its job was handed
in, so whoever asks the queue for a job by its id gets that job or none. -/
namespace PacketAuth

namespace Software

/-- What the queue has under an id if its ids are distinct: one job, and all others stay in their
order, or no job. -/
theorem cancel_spec {s : Software} (distinct : (s.queued.map Job.id).Nodup) (id : JobId) :
    (∀ q ∈ s.queue, q.job.id ≠ id) ∧ s.cancel id = ⟨none, s, []⟩ ∨
      ∃ before q after, s.queue = before ++ q :: after ∧ q.job.id = id ∧
        (∀ x ∈ before ++ after, x.job.id ≠ id) ∧
        s.cancel id =
          ⟨some q.job, ({ s with queue := before ++ after } : Software).record .jobCancelled,
            [.jobCancelled id]⟩ := by
  rcases s.cancel_cases id with none | ⟨before, q, after, hq, hid, hcancel⟩
  · exact .inl none
  · refine .inr ⟨before, q, after, hq, hid, fun x hx heq => ?_, hcancel⟩
    rw [queued, hq, List.map_map, List.map_append, List.map_cons] at distinct
    refine (List.nodup_cons.mp (List.perm_middle.nodup_iff.mp distinct)).1 ?_
    rw [← List.map_append]
    exact List.mem_map.mpr ⟨x, hx, heq.trans hid.symm⟩

theorem cancel_of_none {s : Software} {id : JobId} (h : ∀ q ∈ s.queue, q.job.id ≠ id) :
    (s.cancel id).answer = none := by
  rcases s.cancel_cases id with ⟨-, hcancel⟩ | ⟨before, q, after, hq, hid, -⟩
  · rw [hcancel]
  · exact absurd hid (h q (by simp [hq]))

/-- Whoever knows the id of a queued job gets this job. -/
theorem cancel_of_mem {s : Software} (distinct : (s.queued.map Job.id).Nodup) {j : Job}
    (hj : j ∈ s.queued) : (s.cancel j.id).answer = some j := by
  rcases s.cancel_cases j.id with ⟨none, -⟩ | ⟨before, q, after, hq, hid, hcancel⟩
  · obtain ⟨q, hq, rfl⟩ := List.mem_map.mp hj
    exact absurd rfl (none q hq)
  · have queued : q.job ∈ s.queued := by
      rw [Software.queued, hq, List.map_append]
      exact List.mem_append_right _ List.mem_cons_self
    rw [hcancel, List.inj_on_of_nodup_map distinct queued hj hid]

end Software

namespace World
variable {w : World Software}

/-- The job of a call that waits is out, under the id that the call knows. -/
theorem Custody.job_of_waiting (custody : Custody w) {ticket : Nat} {c : Call}
    (hc : w.host.calls[ticket]? = some c) (hw : c.isWaiting = true) :
    ∃ j ∈ w.afloat, j.recipient = some (.call ticket) ∧ j.id = c.job := by
  obtain ⟨deserted, books, -⟩ := custody.books
  have waiting := mem_waitingTokens.mpr ⟨ticket, c, hc, hw, rfl⟩
  obtain ⟨j, hj, token⟩ := List.mem_map.mp
    (books.symm.subset (List.mem_append_left deserted waiting))
  obtain ⟨recipient, id⟩ := Prod.mk.inj token
  exact ⟨j, hj, recipient, id⟩

/-- A busy job goes back to the engine under the id that it had. -/
theorem deliver_of_busy {h : Host Software} {j : Job} {ticket : Nat} {c : Call}
    (hr : j.recipient = some (.call ticket)) (hc : h.calls[ticket]? = some c)
    (hp : c.slot = .pending) (busy : j.outcome = .busy)
    (allowed : c.retry.allows j.retries = true) :
    (h.deliver Software.engine j).engine =
      (Software.submit j.rearm c.retry.backoff h.now h.engine).state := by
  have again : c.react j = .resubmit j.rearm := by
    rw [Call.react, if_pos ⟨busy, by simp [hp, Slot.isAbandoned]⟩, if_pos allowed]
  simp only [Host.deliver, hr, hc, Host.settle, again]
  rfl

/-- A call that waits finds its job by the id that it knows: now, if the job is queued, and after
the job was busy and was queued again. An engine at its end queues nothing, and so nothing is
found. -/
theorem Custody.cancel_finds (custody : Custody w) {ticket : Nat} {c : Call}
    (hc : w.host.calls[ticket]? = some c) (hw : c.isWaiting = true) :
    ∃ j ∈ w.afloat, j.recipient = some (.call ticket) ∧
      (j ∈ w.host.engine.queued → (w.host.engine.cancel c.job).answer = some j) ∧
      (j ∈ w.hand → j.outcome = .busy → c.retry.allows j.retries = true →
        ((w.host.deliver Software.engine j).engine.cancel c.job).answer =
          if w.host.engine.isShutDown then none else some j.rearm) := by
  obtain ⟨j, hj, hr, hid⟩ := custody.job_of_waiting hc hw
  have distinct := custody.ids_nodup_queued
  refine ⟨j, hj, hr, fun queued => ?_, fun hand busy allowed => ?_⟩
  · rw [← hid]
    exact Software.cancel_of_mem distinct queued
  · have pending := (custody.slots c (List.mem_of_getElem? hc)).mpr hw
    have alone : j.rearm.id ∉ w.host.engine.queued.map Job.id := by
      have ids := custody.ids_nodup
      rw [afloat, Software.inside, List.append_assoc, List.map_append, List.map_append] at ids
      have apart := List.disjoint_of_nodup_append (List.nodup_append.mp ids).2.1
      exact fun hmem => apart hmem (List.mem_map.mpr ⟨j, hand, rfl⟩)
    rw [deliver_of_busy hr hc pending busy allowed, ← hid]
    cases shut : w.host.engine.isShutDown with
    | true =>
      rw [Software.submit_of_shutDown shut]
      refine Software.cancel_of_none fun q hq heq => alone ?_
      rw [Job.rearm_id, ← heq]
      exact List.mem_map_of_mem (List.mem_map_of_mem hq)
    | false =>
      have queued : (Software.submit j.rearm c.retry.backoff w.host.now w.host.engine).state.queued =
          w.host.engine.queued ++ [j.rearm] := by
        rw [Software.submit_of_running shut]
        simp [Software.queued]
      refine Software.cancel_of_mem (j := j.rearm) ?_ ?_
      · rw [queued, List.map_append]
        exact List.Nodup.append distinct (List.nodup_singleton _)
          (List.disjoint_singleton.mpr alone)
      · rw [queued]
        exact List.mem_append_right _ (List.mem_singleton.mpr rfl)

end World

namespace Traffic

/-- The ids of all jobs. -/
def ids (t : Traffic) : List JobId := t.jobs.map Job.id

/-- Every id is borne by as many jobs as before at most, and by one more if it was counted since. -/
structure Renewed (t t' : Traffic) : Prop where
  next : t.engine.nextJob ≤ t'.engine.nextJob
  count : ∀ i : JobId, t'.ids.count i ≤ t.ids.count i +
    if t.engine.nextJob ≤ i.raw ∧ i.raw < t'.engine.nextJob then 1 else 0

namespace Renewed
variable {t t' t'' : Traffic}

theorem refl (t : Traffic) : Renewed t t := ⟨Nat.le_refl _, fun _ => Nat.le_add_right _ _⟩

theorem trans (h : Renewed t t') (h' : Renewed t' t'') : Renewed t t'' where
  next := Nat.le_trans h.next h'.next
  count i := by
    have first := h.count i
    have second := h'.count i
    have mono := h.next
    have mono' := h'.next
    -- an id that is counted in one part is not counted in the other
    split_ifs at first second ⊢ <;> omega

/-- Jobs stay or go. -/
theorem kept (hn : t.engine.nextJob ≤ t'.engine.nextJob)
    (hc : ∀ i, t'.ids.count i ≤ t.ids.count i) : Renewed t t' :=
  ⟨hn, fun i => Nat.le_add_right_of_le (hc i)⟩

/-- One id is counted, and one job may have it. -/
theorem named (hn : t'.engine.nextJob = t.engine.nextJob + 1)
    (hc : ∀ i, t'.ids.count i ≤ t.ids.count i + [⟨t.engine.nextJob⟩].count i) :
    Renewed t t' where
  next := by omega
  count i := by
    refine Nat.le_trans (hc i) (Nat.add_le_add_left ?_ _)
    split_ifs with hi
    · exact List.count_le_length
    · refine Nat.le_of_eq (List.count_eq_zero.mpr fun hmem => hi ?_)
      rw [List.mem_singleton.mp hmem]
      exact ⟨Nat.le_refl _, hn ▸ Nat.lt_succ_self _⟩

end Renewed

variable {t t' : Traffic}

theorem count_ids (t : Traffic) (i : JobId) :
    t.ids.count i = (t.engine.pool.free.map Job.id).count i +
      (t.engine.inside.map Job.id).count i + (t.held.map Job.id).count i := by
  simp only [ids, jobs, List.map_append, List.count_append]

/-- A job taken out of a list takes its id along. -/
theorem count_middle {α : Type} (f : α → JobId) (before after : List α) (x : α) (i : JobId) :
    ((before ++ x :: after).map f).count i =
      ((before ++ after).map f).count i + [f x].count i := by
  simp only [List.map_append, List.map_cons, List.count_append, List.count_cons, List.count_nil]
  omega

theorem count_first {α : Type} (f : α → JobId) (x : α) (rest : List α) (i : JobId) :
    ((x :: rest).map f).count i = (rest.map f).count i + [f x].count i :=
  count_middle f [] rest x i

/-- An operation renews no id but one that it takes from the counter. -/
theorem Next.renewed (n : Next {} t t') : Renewed t t' := by
  -- counting ids, rather than keeping them distinct, makes each case a sum and needs no invariant
  cases n with
  | changed hchange =>
    obtain ⟨hq, hp, hn, -⟩ := Software.Change.frame hchange
    refine .kept (Nat.le_of_eq hn.symm) fun i => ?_
    simp only [count_ids, hq, hp, Nat.le_refl]
  | opened key =>
    obtain ⟨-, hp, hn, -⟩ := Software.createSession_frame key t.engine
    refine .kept (Nat.le_of_eq hn.symm) fun i => ?_
    simp only [count_ids, Software.createSession_inside, hp, Nat.le_refl]
  | refused ha =>
    rw [Software.acquire_none_state ha]
    exact .kept (Nat.le_refl _) fun i => Nat.le_refl _
  | acquired ha =>
    have hinside := t.engine.acquire_inside
    obtain ⟨free, nextJob, hstate, ⟨hfree, rfl⟩ | ⟨hfree, rfl, rfl, rfl⟩⟩ :=
      Software.acquire_eq_some ha
    · refine .kept (Nat.le_of_eq (by rw [hstate])) fun i => ?_
      simp only [count_ids, hinside, hfree, count_first, count_middle, List.append_nil]
      simp only [hstate]
      omega
    · refine .named (by rw [hstate]) fun i => ?_
      simp only [count_ids, hinside, hfree, count_middle, List.append_nil, Job.fresh_id]
      simp only [hstate]
      omega
  | created =>
    refine .named rfl fun i => ?_
    simp only [count_ids, Software.giveId, Software.inside, Software.queued, count_middle,
      List.append_nil, Job.fresh_id]
    omega
  | filled hh hid =>
    refine .kept (Nat.le_refl _) fun i => ?_
    simp only [count_ids, hh, count_middle, hid, Nat.le_refl]
  | emptied hh =>
    refine .named rfl fun i => ?_
    simp only [count_ids, hh, Software.giveId, Software.inside, Software.queued, count_middle,
      Job.reset_eq_fresh, Job.fresh_id]
    omega
  | lost hh =>
    refine .kept (Nat.le_refl _) fun i => ?_
    simp only [count_ids, hh, count_middle]
    omega
  | submitted hh delay now =>
    obtain ⟨queue, returning, hsubmit, hinside⟩ := t.engine.submit_frame _ delay now
    refine .kept (Nat.le_of_eq (by rw [hsubmit]; rfl)) fun i => ?_
    have hcount := (hinside.map Job.id).count_eq i
    simp only [count_ids, hh, hcount, count_middle, List.append_nil]
    simp only [hsubmit, Software.record]
    omega
  | @handedBack now step hstep =>
    obtain ⟨before, job, after, output, outcome, hold, hanswer, -, queue, returning, faults, hstate,
      hnew, -⟩ := Software.handBack_spec hstep
    have id : step.answer.id = job.id := by rw [hanswer]
    refine .kept (Nat.le_of_eq (by rw [hstate]; rfl)) fun i => ?_
    simp only [count_ids, hold, hnew, count_middle, id, List.append_nil]
    simp only [hstate, Software.record]
    omega
  | released hh hr =>
    refine .named rfl fun i => ?_
    simp only [count_ids, hh, Software.release, Software.takeBack, Software.record,
      Software.inside, Software.queued, count_middle]
    split_ifs
    · simp only [count_first, Job.reset_eq_fresh, Job.fresh_id]
      omega
    · omega
  | cancelled id =>
    rcases t.engine.cancel_cases id with ⟨-, hcancel⟩ | ⟨before, q, after, hq, hid, hcancel⟩
    · rw [hcancel]
      refine .kept (Nat.le_refl _) fun i => ?_
      simp only [count_ids, Option.toList_none, List.append_nil, Nat.le_refl]
    · rw [hcancel]
      refine .kept (Nat.le_refl _) fun i => ?_
      simp only [count_ids, Software.inside, Software.queued, hq, Software.record,
        Option.toList_some, List.map_append, List.map_cons, List.count_append, List.count_cons,
        List.map_nil, List.count_nil]
      omega

theorem Run.renewed (r : Run {} t t') : Renewed t t' := by
  induction r with
  | refl => exact .refl t
  | tail _ n ih => exact ih.trans n.renewed

/-- An id that was counted and that no job has is gone. -/
theorem Run.gone (r : Run {} t t') {i : JobId} (used : i.raw < t.engine.nextJob)
    (gone : i ∉ t.ids) : i ∉ t'.ids := by
  have count := r.renewed.count i
  rw [List.count_eq_zero.mpr gone, if_neg (by omega)] at count
  exact List.count_eq_zero.mp (Nat.le_zero.mp count)

theorem Run.count_of_fresh {capacity : Capacity} (r : Run {} (fresh capacity) t) (i : JobId) :
    t.ids.count i ≤ if i.raw < t.engine.nextJob then 1 else 0 := by
  have count := r.renewed.count i
  rw [show (fresh capacity).ids = [] from rfl, List.count_nil] at count
  split_ifs at count ⊢ <;> omega

theorem Run.ids_nodup {capacity : Capacity} (r : Run {} (fresh capacity) t) : t.ids.Nodup := by
  refine List.nodup_iff_count_le_one.mpr fun i => Nat.le_trans (r.count_of_fresh i) ?_
  split_ifs <;> omega

theorem Run.queued_nodup {capacity : Capacity} (r : Run {} (fresh capacity) t) :
    (t.engine.queued.map Job.id).Nodup := by
  have distinct := r.ids_nodup
  rw [ids, jobs, Software.inside, List.map_append, List.map_append, List.map_append] at distinct
  exact (List.nodup_append.mp (List.nodup_append.mp (List.nodup_append.mp distinct).1).2.1).2.1

theorem cancel_of_gone {i : JobId} (gone : i ∉ t.ids) : (t.engine.cancel i).answer = none := by
  refine Software.cancel_of_none fun q hq hid => gone ?_
  rw [← hid]
  refine List.mem_map_of_mem (List.mem_append_left _ (List.mem_append_right _ ?_))
  exact List.mem_append_right _ (List.mem_map_of_mem hq)

theorem Run.ids_used {capacity : Capacity} (r : Run {} (fresh capacity) t) :
    ∀ i ∈ t.ids, i.raw < t.engine.nextJob := by
  intro i hi
  by_contra hn
  have count := r.count_of_fresh i
  rw [if_neg hn] at count
  exact List.count_eq_zero.mp (Nat.le_zero.mp count) hi

/-- A job that is handed in takes its id out of use, whether or not the pool keeps the job. -/
theorem Run.released_gone {capacity : Capacity} (r : Run {} (fresh capacity) t)
    {before after : List Job} {job : Job} (hh : t.held = before ++ job :: after)
    (released : t'.engine = t.engine.release job) (held : t'.held = before ++ after) :
    job.id.raw < t'.engine.nextJob ∧ job.id ∉ t'.ids := by
  have used : job.id.raw < t.engine.nextJob := by
    refine r.ids_used _ (List.mem_map_of_mem (List.mem_append_right _ ?_))
    rw [hh]
    exact List.mem_append_right _ List.mem_cons_self
  have once := List.nodup_iff_count_le_one.mp r.ids_nodup job.id
  have other : [(⟨t.engine.nextJob⟩ : JobId)].count job.id = 0 := by
    refine List.count_eq_zero.mpr fun hmem => ?_
    rw [List.mem_singleton.mp hmem] at used
    exact Nat.lt_irrefl _ used
  refine ⟨by rw [released]; exact Nat.lt_succ_of_lt used, List.count_eq_zero.mp ?_⟩
  simp only [count_ids, hh, released, held, Software.release, Software.takeBack, Software.record,
    Software.inside, Software.queued, count_middle, List.count_singleton_self] at once ⊢
  split_ifs
  · simp only [count_first, Job.reset_eq_fresh, Job.fresh_id]
    omega
  · omega

/-- The ids of all jobs differ and were counted. An id finds its job in the queue and nothing else;
it finds nothing any more once the job was handed in, whatever happens then; and a call that waits
knows its job by it even after the job was busy. -/
theorem ids_never_alias {capacity : Capacity} {t : Traffic} (r : Run {} (fresh capacity) t) :
    (t.jobs.map Job.id).Nodup ∧ (∀ j ∈ t.jobs, j.id.raw < t.engine.nextJob) ∧
      (∀ id, (∀ q ∈ t.engine.queue, q.job.id ≠ id) ∧ t.engine.cancel id = ⟨none, t.engine, []⟩ ∨
        ∃ before q after, t.engine.queue = before ++ q :: after ∧ q.job.id = id ∧
          (∀ x ∈ before ++ after, x.job.id ≠ id) ∧
          t.engine.cancel id =
            ⟨some q.job,
              ({ t.engine with queue := before ++ after } : Software).record .jobCancelled,
              [.jobCancelled id]⟩) ∧
      (∀ before job after t', t.held = before ++ job :: after →
        Run {} { t with
          engine := t.engine.release job
          held := before ++ after
          loans := t.loans.erase job.id } t' → (t'.engine.cancel job.id).answer = none) ∧
      ∀ w ticket c, World.Run Software.rules (World.fresh capacity) w →
        w.host.calls[ticket]? = some c → c.isWaiting = true →
        ∃ j ∈ w.afloat, j.recipient = some (.call ticket) ∧
          (j ∈ w.host.engine.queued → (w.host.engine.cancel c.job).answer = some j) ∧
          (j ∈ w.hand → j.outcome = .busy → c.retry.allows j.retries = true →
            ((w.host.deliver Software.engine j).engine.cancel c.job).answer =
              if w.host.engine.isShutDown then none else some j.rearm) := by
  refine ⟨r.ids_nodup, fun j hj => r.ids_used _ (List.mem_map_of_mem hj),
    fun id => Software.cancel_spec r.queued_nodup id, fun before job after t' hh later => ?_,
    fun w ticket c run hc hw => ((World.Custody.fresh capacity).run run).cancel_finds hc hw⟩
  let handedIn : Traffic :=
    { t with
      engine := t.engine.release job
      held := before ++ after
      loans := t.loans.erase job.id }
  obtain ⟨used, gone⟩ : job.id.raw < handedIn.engine.nextJob ∧ job.id ∉ handedIn.ids :=
    r.released_gone hh rfl rfl
  exact cancel_of_gone (later.gone used gone)

/-- A pool of one job lends it twice: the id of its first use finds nothing while it is queued under
the second. A call whose job came back busy finds it again. -/
theorem ids_of_one_job_never_alias :
    (∃ t t', Run {} (fresh { jobs := 1 }) t ∧ Run {} t t' ∧ t.held = [.fresh ⟨1⟩] ∧
      t'.engine.queued = [.fresh ⟨2⟩] ∧ (t'.engine.cancel ⟨1⟩).answer = none) ∧
    ∃ w c j, World.Run Software.rules (World.fresh { jobs := 1 }) w ∧ w.host.calls[0]? = some c ∧
      w.hand = [j] ∧ j.outcome = .busy ∧
      ((w.host.deliver Software.engine j).engine.cancel c.job).answer = some j.rearm := by
  let start : Traffic := fresh { jobs := 1 }
  let out : Traffic :=
    { engine := start.engine.acquire.state, held := [.fresh ⟨1⟩], loans := [⟨1⟩], made := 1 }
  let free : Traffic := { engine := out.engine.release (.fresh ⟨1⟩), made := 1 }
  let outAgain : Traffic :=
    { engine := free.engine.acquire.state, held := [.fresh ⟨2⟩], loans := [⟨2⟩], made := 1 }
  have lend : Next {} start out := @Next.acquired _ start (.fresh ⟨1⟩) rfl
  obtain ⟨-, -, -, stale, names⟩ := ids_never_alias (Relation.ReflTransGen.single lend)
  constructor
  · have handIn : Next {} out free := @Next.released _ out [] [] (.fresh ⟨1⟩) rfl trivial
    have lendAgain : Next {} free outAgain := @Next.acquired _ free (.fresh ⟨2⟩) rfl
    have submit : Next {} outAgain _ := @Next.submitted _ outAgain [] [] (.fresh ⟨2⟩) rfl 0 0
    have later := (Relation.ReflTransGen.single lendAgain).tail submit
    exact ⟨_, _, .single lend, (Relation.ReflTransGen.single handIn).trans later, rfl, rfl,
      stale [] _ [] _ rfl later⟩
  · let b : Builder := { key := some (.ofSeed 1) }
    let r : Request := ⟨0, ⟨0⟩, .write, List.replicate 20 0, 20, none⟩
    let troubled : World Software :=
      ⟨{ (World.fresh { jobs := 1 }).host with
        engine := (World.fresh { jobs := 1 }).host.engine.injectBusy 1 }, []⟩
    let installed : World Software := ⟨(troubled.host.install b).2, []⟩
    have troubling : World.Run Software.rules (World.fresh { jobs := 1 }) troubled :=
      .single
        (World.Next.change (R := Software.rules) (World.fresh { jobs := 1 }) (.injectBusy _ 1))
    have installing : World.Run Software.rules troubled installed := .single (.install troubled b)
    have entering := World.Next.enter (R := Software.rules) installed (s := .create {} (.ofSeed 1))
      (r := r) rfl
    have taking := World.Next.take (R := Software.rules)
      ⟨(installed.host.enter Software.engine (.create {} (.ofSeed 1)) r).2, []⟩ rfl
    have run := ((troubling.trans installing).tail entering).tail taking
    obtain ⟨j, hj, -, -, found⟩ := names _ 0 _ run rfl rfl
    obtain rfl := List.mem_singleton.mp (show j ∈ [_] from hj)
    exact ⟨_, _, _, run, rfl, rfl, rfl, found List.mem_cons_self rfl rfl⟩

end Traffic
end PacketAuth
