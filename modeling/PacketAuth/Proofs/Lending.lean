import PacketAuth.Proofs.Custody
import PacketAuth.Proofs.Traffic

/-! Lending. As long as only jobs that were acquired are handed in, the pool has every job that it
ever made, free or out; it makes one only when all are out and it lends no more than it may. A free
job shows nothing of what it was used for. Services keep to these terms. -/
namespace PacketAuth

namespace Software

/-- The jobs of one engine's pool, and what is counted of them, are those of another. -/
structure SameStock (s s' : Software) : Prop where
  capacity : s'.capacity = s.capacity
  pool : s'.pool = s.pool
  outstanding : s'.accounting.jobsOutstanding = s.accounting.jobsOutstanding
  peak : s'.accounting.jobsPeak = s.accounting.jobsPeak

theorem Change.sameStock {s : Software} {step : Step Software Unit} (h : Change s step) :
    SameStock s step.state := by
  obtain ⟨_, _, _, _, _, _, h⟩ := h.state_eq
  rw [h]
  exact ⟨rfl, rfl, rfl, rfl⟩

theorem submit_sameStock (job : Job) (delay now : Nat) (s : Software) :
    SameStock s (s.submit job delay now).state := by
  obtain ⟨queue, returning, h, -⟩ := s.submit_frame job delay now
  rw [h]
  exact ⟨rfl, rfl, rfl, rfl⟩

theorem createSession_sameStock (key : AuthKey) (s : Software) :
    SameStock s (s.createSession key).state := by
  unfold createSession
  split_ifs <;> exact ⟨rfl, rfl, rfl, rfl⟩

theorem handBack_sameStock {s : Software} {now : Nat} {step : Step Software Job}
    (h : s.handBack now = some step) : SameStock s step.state := by
  obtain ⟨before, job, after, output, outcome, -, -, -, queue, returning, faults, hstate, -⟩ :=
    handBack_spec h
  rw [hstate]
  cases outcome <;> exact ⟨rfl, rfl, rfl, rfl⟩

theorem cancel_sameStock (id : JobId) (s : Software) : SameStock s (s.cancel id).state := by
  unfold cancel
  split <;> exact ⟨rfl, rfl, rfl, rfl⟩

end Software

/-- A job that is settled is the one that came. -/
theorem Call.id_of_settle {c : Call} {job job' : Job} {exhausted : Bool}
    (h : c.react job = .settle job' exhausted) : job'.id = job.id := by
  unfold react at h
  split at h
  · split at h
    · cases h
    · cases h
      rfl
  · cases h
    rfl

/-- A job that leaves the hand of the worker, while the engine keeps those it has, is out no
more. -/
theorem World.afloat_passed {host host' : Host Software} {before after : List Job} {job : Job}
    (hi : host'.engine.inside = host.engine.inside) :
    (afloat ⟨host, before ++ job :: after⟩).Perm (job :: afloat ⟨host', before ++ after⟩) := by
  simp only [afloat, hi]
  rw [← List.append_assoc, ← List.append_assoc]
  exact List.perm_middle

namespace Traffic

/-- Only jobs of the pool are handed in, and each once for each time that it was acquired. -/
def lending : Terms where
  mayRelease t job := job.id ∈ t.loans

/-- The pool has all that it ever made, free or out, and it knows how many are out. -/
structure Stocked (c : Capacity) (t : Traffic) : Prop where
  capacity : t.engine.capacity = c
  loans : t.loans.length = t.engine.pool.outstanding
  stock : t.engine.pool.free.length + t.engine.pool.outstanding = t.made
  room : t.made ≤ c.jobs
  blank : ∀ j ∈ t.engine.pool.free, j = .fresh j.id

namespace Stocked
variable {c : Capacity} {t t' : Traffic}

theorem fresh (c : Capacity) : Stocked c (fresh c) where
  capacity := rfl
  loans := rfl
  stock := rfl
  room := Nat.zero_le _
  blank := List.forall_mem_nil _

/-- Nothing comes out of the pool and nothing goes in. -/
theorem keep (h : Stocked c t) (hc : t'.engine.capacity = t.engine.capacity)
    (hp : t'.engine.pool = t.engine.pool) (hl : t'.loans.length = t.loans.length)
    (hm : t'.made = t.made) : Stocked c t' where
  capacity := hc.trans h.capacity
  loans := by rw [hl, hp, h.loans]
  stock := by rw [hp, hm, h.stock]
  room := hm ▸ h.room
  blank := by
    rw [hp]
    exact h.blank

/-- A job is to be had unless as many are out as there may be. -/
theorem lend_eq_none_iff (h : Stocked c t) :
    t.engine.lend = none ↔ t.engine.pool.outstanding = c.jobs := by
  have stock := h.stock
  have room := h.room
  rw [t.engine.lend_eq_none_iff, h.capacity]
  omega

/-- A job that is lent is as good as new. -/
theorem lend_fresh (h : Stocked c t) {job : Job} {s : Software}
    (hl : t.engine.lend = some (job, s)) : job = .fresh job.id := by
  obtain ⟨free, -, -, ⟨hfree, -⟩ | ⟨-, -, hjob, -⟩⟩ := Software.lend_eq_some hl
  · exact h.blank job (hfree ▸ List.mem_cons_self)
  · rw [hjob]
    rfl

/-- A job is made only when all that were made are out, so that more are out than ever before. -/
theorem lend (h : Stocked c t) {job : Job} {s : Software} (hl : t.engine.lend = some (job, s))
    (hc : t'.engine.capacity = s.capacity) (hp : t'.engine.pool = s.pool)
    (hloans : t'.loans = t.loans ++ [job.id])
    (hm : t'.made = if t.engine.pool.free = [] then t.made + 1 else t.made) :
    Stocked c t' ∧ max t.made t'.engine.pool.outstanding = t'.made := by
  have below : t.engine.pool.outstanding < c.jobs := by
    have some_left := mt t.engine.lend_eq_none_iff.mpr (by simp [hl])
    rw [h.capacity] at some_left
    omega
  obtain ⟨capacity, loans, stock, room, blank⟩ := h
  obtain ⟨free, nextJob, rfl, taken⟩ := Software.lend_eq_some hl
  obtain ⟨total, top, most, blank⟩ : free.length + (t.engine.pool.outstanding + 1) = t'.made ∧
      max t.made (t.engine.pool.outstanding + 1) = t'.made ∧ t'.made ≤ c.jobs ∧
      ∀ j ∈ free, j = .fresh j.id := by
    rcases taken with ⟨hfree, -⟩ | ⟨hfree, rfl, -, -⟩
    · rw [hfree, if_neg (List.cons_ne_nil _ _)] at hm
      rw [hfree, List.length_cons] at stock
      rw [hfree] at blank
      exact ⟨by omega, by omega, by omega, (List.forall_mem_cons.mp blank).2⟩
    · rw [if_pos hfree] at hm
      rw [hfree, List.length_nil] at stock
      exact ⟨by rw [List.length_nil]; omega, by omega, by omega, List.forall_mem_nil _⟩
  refine ⟨⟨hc.trans capacity, ?_, ?_, most, ?_⟩, ?_⟩ <;> rw [hp]
  · rw [hloans, List.length_append, loans]
    rfl
  · exact total
  · exact blank
  · exact top

/-- There is room among the free jobs for one that is out. -/
theorem takeBack_free (h : Stocked c t) {job : Job} (hj : job.id ∈ t.loans) :
    (t.engine.takeBack job).pool.free = job.reset ⟨t.engine.nextJob⟩ :: t.engine.pool.free := by
  have out : 0 < t.engine.pool.outstanding := h.loans ▸ List.length_pos_of_mem hj
  have stock := h.stock
  have room := h.room
  have fits : t.engine.pool.free.length < t.engine.capacity.jobs := by
    rw [h.capacity]
    omega
  simp only [Software.takeBack, if_pos fits]

theorem takeBack (h : Stocked c t) {job : Job} (hj : job.id ∈ t.loans)
    (hc : t'.engine.capacity = t.engine.capacity)
    (hp : t'.engine.pool = (t.engine.takeBack job).pool) (hl : t'.loans = t.loans.erase job.id)
    (hm : t'.made = t.made) :
    Stocked c t' ∧ t'.engine.pool.outstanding + 1 = t.engine.pool.outstanding := by
  have free := h.takeBack_free hj
  have out : 0 < t.engine.pool.outstanding := h.loans ▸ List.length_pos_of_mem hj
  have less : (t.engine.takeBack job).pool.outstanding + 1 = t.engine.pool.outstanding :=
    Nat.sub_add_cancel out
  have stock := h.stock
  refine ⟨⟨hc.trans h.capacity, ?_, ?_, hm ▸ h.room, ?_⟩, ?_⟩ <;> rw [hp]
  · rw [hl, List.length_erase_of_mem hj, h.loans]
    omega
  · rw [free, List.length_cons, hm]
    omega
  · rw [free]
    exact List.forall_mem_cons.mpr ⟨rfl, h.blank⟩
  · exact less

end Stocked

/-- What an operation does to the pool and to its counters: nothing, or a job goes out, or one comes
back. -/
inductive Moves (t t' : Traffic) : Prop
  | still (out : t'.engine.pool.outstanding = t.engine.pool.outstanding)
      (gauge : t'.engine.accounting.jobsOutstanding = t.engine.accounting.jobsOutstanding)
      (peak : t'.engine.accounting.jobsPeak = t.engine.accounting.jobsPeak)
      (made : t'.made = t.made)
  | out (out : t'.engine.pool.outstanding = t.engine.pool.outstanding + 1)
      (gauge : t'.engine.accounting.jobsOutstanding = t.engine.accounting.jobsOutstanding + 1)
      (peak : t'.engine.accounting.jobsPeak =
        max t.engine.accounting.jobsPeak (t.engine.accounting.jobsOutstanding + 1))
      (made : max t.made t'.engine.pool.outstanding = t'.made)
  | back (out : t'.engine.pool.outstanding + 1 = t.engine.pool.outstanding)
      (gauge : t'.engine.accounting.jobsOutstanding = t.engine.accounting.jobsOutstanding - 1)
      (peak : t'.engine.accounting.jobsPeak = t.engine.accounting.jobsPeak)
      (made : t'.made = t.made)

variable {c : Capacity} {t t' : Traffic}

/-- An operation that leaves the stock of the pool alone. -/
theorem Stocked.still (h : Stocked c t) (hs : Software.SameStock t.engine t'.engine)
    (hl : t'.loans.length = t.loans.length) (hm : t'.made = t.made) :
    Stocked c t' ∧ Moves t t' :=
  ⟨h.keep hs.capacity hs.pool hl hm, .still (by rw [hs.pool]) hs.outstanding hs.peak hm⟩

theorem Stocked.next (h : Stocked c t) (n : Next lending t t') : Stocked c t' ∧ Moves t t' := by
  cases n with
  | changed hchange => exact h.still (Software.Change.sameStock hchange) rfl rfl
  | opened key => exact h.still (t.engine.createSession_sameStock key) rfl rfl
  | refused ha =>
    have same : Software.SameStock t.engine t.engine.acquire.state := by
      rw [Software.acquire_none_state ha]
      exact ⟨rfl, rfl, rfl, rfl⟩
    exact h.still same rfl rfl
  | acquired ha =>
    obtain ⟨s, hl, hstate⟩ := Software.lend_of_acquire ha
    obtain ⟨free, nextJob, hs, -⟩ := Software.lend_eq_some hl
    have same : t.engine.acquire.state.capacity = s.capacity ∧
        t.engine.acquire.state.pool = s.pool := by
      rw [hstate]
      exact ⟨rfl, rfl⟩
    refine (h.lend hl same.1 same.2 rfl rfl).imp_right fun made => .out ?_ ?_ ?_ made
    all_goals
      dsimp only
      rw [hstate, hs]
      rfl
  | created | filled | lost => exact h.still ⟨rfl, rfl, rfl, rfl⟩ rfl rfl
  | submitted _ delay now => exact h.still (t.engine.submit_sameStock _ delay now) rfl rfl
  | emptied => exact h.still ⟨rfl, rfl, rfl, rfl⟩ (List.length_map _) rfl
  | handedBack hstep => exact h.still (Software.handBack_sameStock hstep) rfl rfl
  | released hh hr =>
    refine (h.takeBack hr ?_ ?_ ?_ ?_).imp_right fun out => .back out rfl rfl rfl
    all_goals rfl
  | cancelled id => exact h.still (t.engine.cancel_sameStock id) rfl rfl

/-- The counters know how many jobs are out, and how many ever were at once. -/
structure Lent (c : Capacity) (t : Traffic) : Prop extends Stocked c t where
  gauge : t.engine.accounting.jobsOutstanding = t.engine.pool.outstanding
  peak : t.engine.accounting.jobsPeak = t.made

theorem Lent.fresh (c : Capacity) : Lent c (fresh c) := ⟨.fresh c, rfl, rfl⟩

theorem Lent.next (h : Lent c t) (n : Next lending t t') : Lent c t' := by
  obtain ⟨stocked, moves⟩ := h.toStocked.next n
  have held := h.gauge
  have top := h.peak
  refine ⟨stocked, ?_, ?_⟩ <;> cases moves <;> omega

theorem Lent.run (h : Lent c t) (r : Run lending t t') : Lent c t' := by
  induction r with
  | refl => exact h
  | tail _ step ih => exact ih.next step

/-- Traffic in which the jobs that a world has in hand are held, and all that are out are on
loan. -/
structure Mirrors (t : Traffic) (w : World Software) : Prop where
  engine : t.engine = w.host.engine
  held : t.held = w.hand
  loans : w.afloat.map Job.id ⊆ t.loans

namespace Mirrors
variable {t t' : Traffic} {w w' : World Software}

/-- The jobs that are out stay where they are. -/
theorem step (m : Mirrors t w) (n : Next lending t t') (he : t'.engine = w'.host.engine)
    (hh : t'.held = w'.hand) (hl : t'.loans = t.loans) (hand : w'.hand = w.hand)
    (inside : w'.host.engine.inside = w.host.engine.inside) :
    ∃ t', Run lending t t' ∧ Mirrors t' w' := by
  refine ⟨t', .single n, he, hh, ?_⟩
  rw [World.afloat, inside, hand, hl]
  exact m.loans

/-- A job that is held is filled and submitted. -/
theorem submit {before after : List Job} {job job' : Job} (r : Run lending t t')
    (hh : t'.held = before ++ job :: after) (hid : job'.id = job.id) {delay now : Nat}
    (he : w'.host.engine = (Software.submit job' delay now t'.engine).state)
    (hand : w'.hand = before ++ after) (lent : w'.afloat.map Job.id ⊆ t'.loans) :
    ∃ t', Run lending t t' ∧ Mirrors t' w' := by
  have filled : Next lending t' { t' with held := before ++ job' :: after } := .filled hh hid
  have submitted := Next.submitted (T := lending)
    (t := { t' with held := before ++ job' :: after }) rfl delay now
  exact ⟨_, (r.tail filled).tail submitted, he.symm, hand.symm, lent⟩

/-- A job that is held, whatever has become of it, is handed in. -/
theorem handIn (custody : w.Custody) {before after : List Job} {job job' : Job}
    (r : Run lending t t') (hh : t'.held = before ++ job :: after) (hid : job'.id = job.id)
    (he : w'.host.engine = t'.engine.release job') (hand : w'.hand = before ++ after)
    (lent : w.afloat.map Job.id ⊆ t'.loans)
    (rest : (w.afloat.map Job.id).Perm (job.id :: w'.afloat.map Job.id)) :
    ∃ t', Run lending t t' ∧ Mirrors t' w' := by
  have own : job'.id ∈ t'.loans := hid ▸ lent (rest.symm.subset List.mem_cons_self)
  have filled : Next lending t' { t' with held := before ++ job' :: after } := .filled hh hid
  have released := Next.released (T := lending)
    (t := { t' with held := before ++ job' :: after }) rfl own
  refine ⟨_, (r.tail filled).tail released, he.symm, hand.symm, ?_⟩
  -- no other job that is out has this id, so the loans of the others stay on the list
  have others : job.id ∉ w'.afloat.map Job.id :=
    (List.nodup_cons.mp (rest.nodup_iff.mp custody.ids_nodup)).1
  intro id hmem
  have other : id ≠ job'.id := fun same => others (hid ▸ same ▸ hmem)
  exact (List.mem_erase_of_ne other).mpr
    (lent (rest.symm.subset (List.mem_cons_of_mem _ hmem)))

theorem passed {host host' : Host Software} {before after : List Job} {job : Job}
    (m : Mirrors t ⟨host, before ++ job :: after⟩)
    (custody : World.Custody ⟨host, before ++ job :: after⟩)
    (s : World.Settlement Software.engine host job host') :
    ∃ t', Run lending t t' ∧ Mirrors t' ⟨host', before ++ after⟩ := by
  have mem : job ∈ World.afloat ⟨host, before ++ job :: after⟩ :=
    List.mem_append_right _ (List.mem_append_right before List.mem_cons_self)
  obtain ⟨engine, held, lent⟩ := m
  cases s with
  | strayed handedBack hj =>
    obtain ⟨ticket, c, hr, hc, -⟩ := custody.call_of_mem mem
    rw [hj ticket hr] at hc
    cases hc
  | resubmitted hj hc hb ha hr hq =>
    subst hq
    refine submit .refl held job.rearm_id (by rw [engine]; rfl) rfl (List.Subset.trans ?_ lent)
    obtain ⟨queue, returning, -, inside⟩ :=
      Software.submit_frame job.rearm _ host.now host.engine
    refine List.Subset.trans ((inside.append_right _).map Job.id).subset (List.Perm.subset ?_)
    simp only [World.afloat, List.map_append, List.map_cons, List.append_assoc, List.cons_append,
      List.nil_append, Job.rearm_id]
    exact List.Perm.append_left _ List.perm_middle.symm
  | @finished job' ticket c exhausted hj hc hw hp hr =>
    exact handIn custody .refl held (Call.id_of_settle hr) (by rw [engine]; rfl) rfl lent
      ((World.afloat_passed rfl).map Job.id)
  | stranded hj hc hw hp hr =>
    have waiting := (custody.slots _ (List.mem_of_getElem? hc)).mp hp
    rw [waiting] at hw
    cases hw
  | @refused job' ticket c exhausted hj hc hp hr =>
    have inUse : host.isEngineInUse = true := by
      simp [Host.isEngineInUse, show host.isHeld = true from custody.held]
    refine handIn custody .refl held (Call.id_of_settle hr) ?_ rfl lent ?_
    · rw [engine]
      exact if_pos inUse
    · refine (World.afloat_passed ?_).map Job.id
      rw [inUse]
      rfl

/-- A job that a call takes along from the queue is handed in. -/
theorem left (m : Mirrors t w) (custody : w.Custody) {id : JobId}
    (he : w'.host.engine = Software.engine.withdraw id w.host.engine) (hand : w'.hand = w.hand) :
    ∃ t', Run lending t t' ∧ Mirrors t' w' := by
  obtain ⟨engine, held, lent⟩ := m
  simp only [Engine.withdraw, Software.engine] at he
  rcases w.host.engine.cancel_cases id with ⟨-, hcancel⟩ | ⟨before, q, after, hqueue, -, hcancel⟩
  · rw [hcancel] at he
    refine ⟨t, .refl, engine.trans he.symm, held.trans hand.symm, ?_⟩
    rwa [World.afloat, he, hand]
  · rw [hcancel] at he
    have taken : t.held ++ (t.engine.cancel id).answer.toList = t.held ++ q.job :: [] := by
      rw [engine, hcancel]
      rfl
    refine handIn custody (.single (.cancelled id)) taken rfl
      (by rw [engine, hcancel, he]) ?_ lent ?_
    · rw [hand, held, List.append_nil]
    · simp only [World.afloat, Software.inside, Software.queued, hqueue, hand, he,
        Software.release, Software.takeBack, Software.record, List.map_append, List.map_cons,
        List.append_assoc, List.cons_append]
      rw [← List.append_assoc, ← List.append_assoc]
      exact List.perm_middle

/-- A world does with its jobs what is done to jobs of the pool. -/
theorem effect (m : Mirrors t w) (custody : w.Custody) (e : World.Effect Software.rules w w') :
    ∃ t', Run lending t t' ∧ Mirrors t' w' := by
  cases e with
  | aside | installed | misconfigured | dropped | rejected =>
    exact ⟨t, .refl, m.engine, m.held, m.loans⟩
  | left _ hl hc hw hp => exact m.left custody rfl rfl
  | passed host before after s => exact m.passed custody s
  | collected _ hl hc hw hp =>
    have pending := (custody.slots _ (List.mem_of_getElem? hc)).mpr hw
    rw [pending] at hp
    cases hp
  | changed _ hchange =>
    exact m.step (.changed (m.engine ▸ hchange)) rfl m.held rfl rfl hchange.frame.1
  | @opened _ _ service =>
    exact m.step (.opened service.key) (m.engine ▸ rfl) m.held rfl rfl
      (Software.createSession_inside _ _)
  | @notOpened _ _ service =>
    exact m.step (.opened service.key) (m.engine ▸ rfl) m.held rfl rfl
      (Software.createSession_inside _ _)
  | starved _ hs ha =>
    exact m.step (.refused (m.engine ▸ ha)) (m.engine ▸ rfl) m.held rfl rfl
      (Software.acquire_inside _)
  | @admitted _ service r _ regions session job hs hl hr ho ha submitted hq =>
    let job' := r.fill service regions session w.host.calls.length job
    refine submit (.single (.acquired (m.engine ▸ ha))) rfl (show job'.id = job.id from rfl)
      (by rw [m.engine, ← hq]; rfl) (by rw [m.held, List.append_nil]) ?_
    have lent := m.loans
    intro id hmem
    obtain ⟨j, hj, rfl⟩ := List.mem_map.mp hmem
    rcases List.mem_append.mp hj with hj | hj
    · rw [← hq] at hj
      rcases Software.inside_submit_subset hj with hj | rfl
      · have old : j ∈ w.host.engine.inside := Software.acquire_inside w.host.engine ▸ hj
        exact List.mem_append_left _ (lent (List.mem_map_of_mem (List.mem_append_left _ old)))
      · exact List.mem_append_right _ (List.mem_singleton.mpr rfl)
    · exact List.mem_append_left _ (lent (List.mem_map_of_mem (List.mem_append_right _ hj)))
  | @taken _ step hs =>
    obtain ⟨before, job, after, output, outcome, hold, hanswer, -, queue, returning, faults, -, hnew,
      -⟩ := Software.handBack_spec hs
    refine ⟨_, .single (.handedBack (m.engine ▸ hs)), rfl, by rw [m.held], ?_⟩
    refine List.Subset.trans (List.Perm.subset ?_) m.loans
    have id : step.answer.id = job.id := by rw [hanswer]
    simp only [World.afloat, hold, hnew, List.map_append, List.map_cons, List.map_nil, id,
      List.append_assoc, List.cons_append]
    refine List.Perm.append_left _ ?_
    rw [← List.append_assoc]
    exact List.perm_append_singleton _ _

/-- Services on one engine keep to the terms: what they hand in was acquired, and handed in by
nobody else since. -/
theorem run {capacity : Capacity} (r : World.Run Software.rules (World.fresh capacity) w) :
    ∃ t, Run lending (Traffic.fresh capacity) t ∧ Mirrors t w := by
  have effects := r.effects
  clear r
  induction effects with
  | refl => exact ⟨_, .refl, rfl, rfl, List.nil_subset _⟩
  | tail effects e ih =>
    obtain ⟨t, run, mirrors⟩ := ih
    obtain ⟨t', next, mirrors⟩ := mirrors.effect ((World.Custody.fresh capacity).effects effects) e
    exact ⟨t', run.trans next, mirrors⟩

end Mirrors

end Traffic
end PacketAuth
