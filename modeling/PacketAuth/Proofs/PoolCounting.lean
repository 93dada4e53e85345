import PacketAuth.Proofs.Lending

/-! The pool and its counters, one lock at a time. A job leaves the pool or comes back before that
is counted, and the pool may lend others in between; so the counters fall behind. The pool itself is
right at any time. -/
namespace PacketAuth

/-- Traffic, and what became of the pool that is not counted yet: the jobs that it lent to callers
who do not have them yet, the requests that it refused, and the jobs that it took back. -/
structure PoolCounting where
  traffic : Traffic
  lent : List Job := []
  refused : Nat := 0
  returned : Nat := 0

namespace PoolCounting

/-- An operation in the traffic, or one half of an operation on the pool: its own, or that on its
counters. -/
inductive Next : PoolCounting → PoolCounting → Prop
  | turn {t t' : Traffic} (lent : List Job) (refused returned : Nat)
      (h : Traffic.Next Traffic.lending t t') :
      Next ⟨t, lent, refused, returned⟩ ⟨t', lent, refused, returned⟩
  | lend (u : PoolCounting) {job : Job} {s : Software}
      (h : u.traffic.engine.lend = some (job, s)) :
      Next u
        { u with
          traffic := { u.traffic with
            engine := s
            loans := u.traffic.loans ++ [job.id]
            made := if u.traffic.engine.pool.free = [] then u.traffic.made + 1 else u.traffic.made }
          lent := u.lent ++ [job] }
  | countLoan (t : Traffic) (before : List Job) (job : Job) (after : List Job)
      (refused returned : Nat) :
      Next ⟨t, before ++ job :: after, refused, returned⟩
        ⟨{ t with engine := t.engine.record .jobAcquired, held := t.held ++ [job] },
          before ++ after, refused, returned⟩
  | refuse (u : PoolCounting) (h : u.traffic.engine.lend = none) :
      Next u { u with refused := u.refused + 1 }
  | countRefusal (t : Traffic) (lent : List Job) (refused returned : Nat) :
      Next ⟨t, lent, refused + 1, returned⟩
        ⟨{ t with engine := t.engine.record .acquireFailed }, lent, refused, returned⟩
  | takeBack (u : PoolCounting) {before after : List Job} {job : Job}
      (hh : u.traffic.held = before ++ job :: after) (hr : job.id ∈ u.traffic.loans) :
      Next u
        { u with
          traffic := { u.traffic with
            engine := u.traffic.engine.takeBack job
            held := before ++ after
            loans := u.traffic.loans.erase job.id }
          returned := u.returned + 1 }
  | countReturn (t : Traffic) (lent : List Job) (refused returned : Nat) :
      Next ⟨t, lent, refused, returned + 1⟩
        ⟨{ t with engine := t.engine.record .jobReleased }, lent, refused, returned⟩

abbrev Run : PoolCounting → PoolCounting → Prop := Relation.ReflTransGen Next

def fresh (capacity : Capacity) : PoolCounting := { traffic := Traffic.fresh capacity }

variable {u v : PoolCounting} {t t' : Traffic} {c : Capacity}

/-- A job is acquired in two steps. -/
theorem run_acquired {job : Job} (ha : t.engine.acquire.answer = some job) (lent : List Job)
    (refused returned : Nat) :
    Run ⟨t, lent, refused, returned⟩
      ⟨{ t with
          engine := t.engine.acquire.state
          held := t.held ++ [job]
          loans := t.loans ++ [job.id]
          made := if t.engine.pool.free = [] then t.made + 1 else t.made },
        lent, refused, returned⟩ := by
  obtain ⟨s, hl, hstate⟩ := Software.lend_of_acquire ha
  have counted := Next.countLoan
    { t with
      engine := s
      loans := t.loans ++ [job.id]
      made := if t.engine.pool.free = [] then t.made + 1 else t.made }
    lent job [] refused returned
  rw [List.append_nil, ← hstate] at counted
  exact .head (.lend ⟨t, lent, refused, returned⟩ hl) (.single counted)

/-- So is a request refused. -/
theorem run_refused (ha : t.engine.acquire.answer = none) (lent : List Job)
    (refused returned : Nat) :
    Run ⟨t, lent, refused, returned⟩
      ⟨{ t with engine := t.engine.acquire.state }, lent, refused, returned⟩ := by
  have none : t.engine.lend = none :=
    t.engine.lend_eq_none_iff.mpr (t.engine.acquire_eq_none_iff.mp ha)
  rw [Software.acquire_none_state ha]
  exact .head (.refuse ⟨t, lent, refused, returned⟩ none)
    (.single (.countRefusal t lent refused returned))

/-- So is a job released. -/
theorem run_released {before after : List Job} {job : Job} (hh : t.held = before ++ job :: after)
    (hr : job.id ∈ t.loans) (lent : List Job) (refused returned : Nat) :
    Run ⟨t, lent, refused, returned⟩
      ⟨{ t with
          engine := t.engine.release job
          held := before ++ after
          loans := t.loans.erase job.id },
        lent, refused, returned⟩ :=
  .head (.takeBack ⟨t, lent, refused, returned⟩ hh hr)
    (.single (.countReturn
      { t with
        engine := t.engine.takeBack job
        held := before ++ after
        loans := t.loans.erase job.id }
      lent refused returned))

/-- The pool is right, and the gauge is off by what is not counted. -/
structure Kept (c : Capacity) (u : PoolCounting) : Prop where
  stocked : Traffic.Stocked c u.traffic
  gauge : u.traffic.engine.accounting.jobsOutstanding + u.lent.length =
    u.traffic.engine.pool.outstanding + u.returned

theorem Kept.fresh (c : Capacity) : Kept c (fresh c) := ⟨.fresh c, rfl⟩

/-- Jobs are made for those alone that are out at once. -/
theorem Kept.next (h : Kept c u) (n : Next u v) :
    Kept c v ∧ v.traffic.made = max u.traffic.made v.traffic.engine.pool.outstanding := by
  obtain ⟨traffic, lent, refused, returned⟩ := u
  obtain ⟨held, gauge⟩ : Traffic.Stocked c traffic ∧
      traffic.engine.accounting.jobsOutstanding + lent.length =
        traffic.engine.pool.outstanding + returned := ⟨h.stocked, h.gauge⟩
  have stock := held.stock
  cases n with
  | turn _ _ _ n =>
    obtain ⟨stocked, moves⟩ := held.next n
    have stock' := stocked.stock
    refine ⟨⟨stocked, ?_⟩, ?_⟩ <;> dsimp only <;> cases moves <;> omega
  | @lend _ job s hl =>
    obtain ⟨free, nextJob, hs, -⟩ := Software.lend_eq_some hl
    refine (held.lend hl ?_ ?_ ?_ ?_).imp (fun stocked => ⟨stocked, ?_⟩) Eq.symm
    all_goals dsimp only
    rw [hs, List.length_append, List.length_singleton]
    push_cast
    omega
  | countLoan _ before job after =>
    refine ⟨⟨held.keep rfl rfl rfl rfl, ?_⟩, ?_⟩ <;> dsimp only [Software.record]
    · simp only [List.length_append, List.length_cons, Accounting.record] at gauge ⊢
      omega
    · omega
  | refuse | countRefusal =>
    refine ⟨⟨held.keep rfl rfl rfl rfl, gauge⟩, ?_⟩
    dsimp only [Software.record]
    omega
  | @takeBack _ before after job hh hr =>
    let taken : Traffic :=
      { traffic with
        engine := traffic.engine.takeBack job
        held := before ++ after
        loans := traffic.loans.erase job.id }
    obtain ⟨stocked, out⟩ : taken.Stocked c ∧ _ := held.takeBack hr rfl rfl rfl rfl
    refine ⟨⟨stocked, ?_⟩, ?_⟩ <;> dsimp only [taken] at out ⊢
    · change traffic.engine.accounting.jobsOutstanding + lent.length = _
      omega
    · omega
  | countReturn _ _ _ returned =>
    refine ⟨⟨held.keep rfl rfl rfl rfl, ?_⟩, ?_⟩ <;> dsimp only [Software.record]
    · simp only [Accounting.record]
      omega
    · omega

theorem Kept.run (h : Kept c u) (r : Run u v) :
    Kept c v ∧ u.traffic.made ≤ v.traffic.made := by
  induction r with
  | refl => exact ⟨h, Nat.le_refl _⟩
  | tail _ next ih =>
    obtain ⟨kept, made⟩ := ih.1.next next
    exact ⟨kept, Nat.le_trans ih.2 (made ▸ Nat.le_max_left _ _)⟩

/-- As many jobs as were made were out at once at some time. -/
theorem exists_all_out (r : Run (fresh c) u) :
    ∃ v, Run (fresh c) v ∧ Run v u ∧ v.traffic.engine.pool.outstanding = u.traffic.made := by
  induction r with
  | refl => exact ⟨_, .refl, .refl, rfl⟩
  | @tail u u' run next ih =>
    obtain ⟨v, before, after, most⟩ := ih
    obtain ⟨kept, made⟩ := (((Kept.fresh c).run run).1).next next
    rcases Nat.le_total u'.traffic.engine.pool.outstanding u.traffic.made with old | new
    · exact ⟨v, before, after.tail next, by omega⟩
    · exact ⟨u', run.tail next, .refl, by omega⟩

end PoolCounting

/-- What the pool of an engine stands for that has made a number of jobs and lent those with some
ids: it keeps what comes back, it refuses a job only while as many are out as may be, and a free job
shows nothing of its use. -/
structure Software.Lends (s : Software) (loans : List JobId) (made : Nat) : Prop where
  room : made ≤ s.capacity.jobs
  stock : s.pool.free.length + s.pool.outstanding = made
  keeps : ∀ job, job.id ∈ loans →
    (s.takeBack job).pool.free = job.reset ⟨s.nextJob⟩ :: s.pool.free
  refuses : s.lend = none ↔ s.pool.outstanding = s.capacity.jobs
  spares : s.lend = none → s.acquire.state =
    { s with accounting := { s.accounting with
        acquireFailures := s.accounting.acquireFailures + 1 } }
  blank : ∀ j ∈ s.pool.free, j.input = [] ∧ j.output = [] ∧ j.descriptor = none ∧
    j.recipient = none ∧ j.outcome = .pending ∧ j.retries = 0
  new : ∀ job s', s.lend = some (job, s') → job = .fresh job.id

theorem Traffic.Stocked.lends {c : Capacity} {t : Traffic} (h : Stocked c t) :
    t.engine.Lends t.loans t.made where
  room := h.capacity ▸ h.room
  stock := h.stock
  keeps _ := h.takeBack_free
  refuses := h.capacity ▸ h.lend_eq_none_iff
  spares none := by
    rw [Software.acquire_of_lend_none none]
    rfl
  blank j hj := by
    rw [h.blank j hj]
    exact ⟨rfl, rfl, rfl, rfl, rfl, rfl⟩
  new _ _ := h.lend_fresh

namespace PoolCounting
variable {u : PoolCounting} {capacity : Capacity}

/-- Whatever is under way, the jobs that are free and those that are out make up all that were ever
out at once, and the gauge is off by the jobs that are not counted. While every operation on the
pool is counted before the next, as by services in their turns, the peak is right too. -/
theorem pool_keeps_what_it_made (r : Run (fresh capacity) u) :
    u.traffic.engine.capacity = capacity ∧
    u.traffic.engine.Lends u.traffic.loans u.traffic.made ∧
    (∀ v, Run (fresh capacity) v → Run v u →
      v.traffic.engine.pool.outstanding ≤ u.traffic.made) ∧
    (∃ v, Run (fresh capacity) v ∧ Run v u ∧
      v.traffic.engine.pool.outstanding = u.traffic.made) ∧
    u.traffic.engine.accounting.jobsOutstanding + u.lent.length =
      u.traffic.engine.pool.outstanding + u.returned ∧
    (∀ t, Traffic.Run Traffic.lending (Traffic.fresh capacity) t →
      ((t.engine.pool.free.length + t.engine.pool.outstanding : Nat) : Int) =
        t.engine.accounting.jobsPeak ∧ t.engine.accounting.jobsPeak ≤ capacity.jobs) ∧
    ∀ w, World.Run Software.rules (World.fresh capacity) w →
      ∃ t, Traffic.Run Traffic.lending (Traffic.fresh capacity) t ∧ t.engine = w.host.engine := by
  have kept := ((Kept.fresh capacity).run r).1
  refine ⟨kept.stocked.capacity, kept.stocked.lends, fun v before after => ?_, exists_all_out r,
    kept.gauge, fun t run => ?_, fun w services => ?_⟩
  · have old := ((Kept.fresh capacity).run before).1
    have rises := (old.run after).2
    have stock := old.stocked.stock
    omega
  · have lent := (Traffic.Lent.fresh capacity).run run
    have stock := lent.stock
    have peak := lent.peak
    have room := lent.room
    omega
  · obtain ⟨t, run, mirrors⟩ := Traffic.Mirrors.run services
    exact ⟨t, run, mirrors.engine⟩

/-- The only job of a pool comes back and is lent again before its return is counted. -/
theorem exists_overlap :
    ∃ u, Run (fresh { jobs := 1 }) u ∧ u.lent = [] ∧ u.refused = 0 ∧ u.returned = 0 ∧
      u.traffic.engine.pool.outstanding = 1 ∧ u.traffic.engine.accounting.jobsPeak = 2 := by
  let start : Traffic := Traffic.fresh { jobs := 1 }
  let out : Traffic :=
    { engine := start.engine.acquire.state, held := [.fresh ⟨1⟩], loans := [⟨1⟩], made := 1 }
  let back : Traffic := { engine := out.engine.takeBack (.fresh ⟨1⟩), made := 1 }
  let lent : Software := { back.engine with pool := ⟨[], 1⟩ }
  let again : Traffic :=
    { engine := lent.record .jobAcquired, held := [.fresh ⟨2⟩], loans := [⟨2⟩], made := 1 }
  have acquired : Run (fresh { jobs := 1 }) ⟨out, [], 0, 0⟩ :=
    .single (.turn [] 0 0 (@Traffic.Next.acquired _ start (.fresh ⟨1⟩) rfl))
  have returned : Next ⟨out, [], 0, 0⟩ ⟨back, [], 0, 1⟩ :=
    @Next.takeBack ⟨out, [], 0, 0⟩ [] [] (.fresh ⟨1⟩) rfl List.mem_cons_self
  have lending : Next ⟨back, [], 0, 1⟩
      ⟨{ back with engine := lent, loans := [⟨2⟩] }, [.fresh ⟨2⟩], 0, 1⟩ :=
    @Next.lend ⟨back, [], 0, 1⟩ (.fresh ⟨2⟩) lent rfl
  have counted : Next ⟨{ back with engine := lent, loans := [⟨2⟩] }, [.fresh ⟨2⟩], 0, 1⟩
      ⟨again, [], 0, 1⟩ := .countLoan _ [] (.fresh ⟨2⟩) [] 0 1
  exact ⟨_, (((acquired.tail returned).tail lending).tail counted).tail (.countReturn again [] 0 0),
    rfl, rfl, rfl, rfl, rfl⟩

/-- All is counted, and the peak is above all that may be out. -/
theorem peak_exceeds_capacity :
    ¬ ∀ u, Run (fresh { jobs := 1 }) u → u.lent = [] → u.refused = 0 → u.returned = 0 →
      u.traffic.engine.accounting.jobsPeak ≤ 1 := by
  intro bounded
  obtain ⟨u, run, lent, refused, returned, -, peak⟩ := exists_overlap
  have most := bounded u run lent refused returned
  omega

/-- One job was made all the same, and the gauge is right. -/
theorem overlap_makes_one_job :
    ∃ u, Run (fresh { jobs := 1 }) u ∧ u.traffic.made = 1 ∧
      u.traffic.engine.lend = none ∧ u.traffic.engine.accounting.jobsOutstanding = 1 ∧
      u.traffic.engine.accounting.jobsPeak = 2 := by
  obtain ⟨u, run, lent, -, returned, out, peak⟩ := exists_overlap
  obtain ⟨capacity, lends, -, -, gauge, -⟩ := pool_keeps_what_it_made run
  have room := lends.room
  have stock := lends.stock
  rw [capacity] at room
  rw [lent, returned, out] at gauge
  refine ⟨u, run, ?_, lends.refuses.mpr (by rw [out, capacity]), by simpa using gauge, peak⟩
  dsimp only at room
  omega

end PoolCounting
end PacketAuth
