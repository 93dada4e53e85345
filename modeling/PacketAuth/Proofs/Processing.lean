import PacketAuth.Proofs.Traffic

/-! Processing. The worker uses up the faults that wait for jobs, first those that make a job busy,
then those that fail it; every other job is decided by what it carries. -/
namespace PacketAuth

namespace Job

/-- What a job asks for can be computed: its window lies in its input, in a session that is open. -/
structure Window (sessions : Sessions) (j : Job) (d : Descriptor) (key : AuthKey) : Prop where
  descriptor : j.descriptor = some d
  session : sessions.key? d.session = some key
  bound : d.skip + d.length ≤ j.input.length

variable {sessions : Sessions} {j : Job}

theorem process_of_window {d : Descriptor} {key : AuthKey} (w : Window sessions j d key) :
    j.process sessions =
      ({ j with
          output := List.replicate d.inject 0 ++
            (Hmac.mac key.bytes ((j.input.drop d.skip).take d.length)).take Tag.size },
        .done) := by
  rw [process, w.descriptor]
  dsimp only
  rw [if_neg (Nat.not_lt.mpr w.bound), w.session]

theorem process_of_no_window (none : ∀ d key, ¬ Window sessions j d key) :
    j.process sessions = (j, .failed Code.invalid) := by
  unfold process
  split
  · rfl
  · rename_i d descriptor
    split_ifs with short
    · rfl
    · split
      · rfl
      · rename_i key session
        exact absurd ⟨descriptor, session, Nat.not_lt.mp short⟩ (none d key)

end Job

namespace Processed

/-- What the worker makes of a job when no fault waits for it. A job that is done carries the tag
of its window behind the zeros that it asked for, and nothing that was there before. -/
structure Decided (p : Processed) : Prop where
  done_iff : p.after.outcome = .done ↔ ∃ d key, p.before.Window p.sessions d key
  tagged : ∀ d key, p.before.Window p.sessions d key → ∃ tag : Tag,
    tag.bytes = (Hmac.mac key.bytes ((p.before.input.drop d.skip).take d.length)).take Tag.size ∧
      p.after.output = List.replicate d.inject 0 ++ tag.bytes ∧
      Tag.ofHead? (p.after.output.drop d.inject) = some tag
  refused : p.after.outcome ≠ .done → p.after = p.before.complete (.failed Code.invalid)

/-- What becomes of a job that the worker takes after `n` others, while faults wait for jobs. -/
structure Meets (faults : Faults) (n : Nat) (p : Processed) : Prop where
  busy : n < faults.busy → p.after = p.before.complete .busy
  failing : faults.busy ≤ n → n < faults.busy + faults.jobs →
    p.after = p.before.complete (.failed faults.code)
  decided : faults.busy + faults.jobs ≤ n → p.Decided
  rest : p.after = { p.before with output := p.after.output, outcome := p.after.outcome }

theorem decided_of_process (sessions : Sessions) (j : Job) :
    Decided ⟨j, sessions, (j.process sessions).1.complete (j.process sessions).2⟩ := by
  by_cases h : ∃ d key, j.Window sessions d key
  · obtain ⟨d, key, w⟩ := h
    rw [Job.process_of_window w]
    refine ⟨⟨fun _ => ⟨d, key, w⟩, fun _ => rfl⟩, fun d' key' w' => ?_, fun hd => absurd rfl hd⟩
    obtain rfl : d = d' := Option.some.inj (w.descriptor.symm.trans w'.descriptor)
    obtain rfl : key = key' := Option.some.inj (w.session.symm.trans w'.session)
    let tag : Tag :=
      ⟨(Hmac.mac key.bytes ((j.input.drop d.skip).take d.length)).take Tag.size, by
        simp [Tag.size]⟩
    refine ⟨tag, rfl, rfl, ?_⟩
    exact (congrArg Tag.ofHead? (List.drop_left' List.length_replicate)).trans tag.ofHead?_bytes
  · have none : ∀ d key, ¬ j.Window sessions d key := fun d key w => h ⟨d, key, w⟩
    rw [Job.process_of_no_window none]
    refine ⟨⟨fun done => ?_, fun w => absurd w h⟩, fun d key w => absurd w (none d key),
      fun _ => rfl⟩
    cases done

end Processed

namespace Software
variable {s : Software}

theorem work_of_failing (job : Job) (hb : s.faults.busy = 0) (hj : 0 < s.faults.jobs) :
    (work job s).answer = job.complete (.failed s.faults.code) := by
  rw [work, Faults.next, if_neg (by omega), if_pos hj]

theorem work_of_no_fault (job : Job) (hb : s.faults.busy = 0) (hj : s.faults.jobs = 0) :
    (work job s).answer = (job.process s.sessions).1.complete (job.process s.sessions).2 := by
  rw [work, Faults.next, if_neg (by omega), if_neg (by omega)]

/-- One fault is used up, a busy one as long as there is any. -/
theorem work_faults (job : Job) (s : Software) :
    (work job s).state.faults =
      { s.faults with
        busy := s.faults.busy - 1
        jobs := if s.faults.busy = 0 then s.faults.jobs - 1 else s.faults.jobs } := by
  rcases hf : s.faults with ⟨sessions, busy, jobs, code⟩
  cases busy with
  | succ busy => simp [work, Faults.next, hf, record]
  | zero => cases jobs <;> simp [work, Faults.next, hf, record]

/-- What comes back is what the worker made of the job that was next, unless the engine is at its
end: then the job was not processed. -/
theorem handBack_upNext {now : Nat} {step : Step Software Job} (h : s.handBack now = some step) :
    s.upNext now = none ∧ step.state.faults = s.faults ∨
      ∃ job queue, s.upNext now = some job ∧ step = work job { s with queue } := by
  unfold handBack at h
  split at h
  · rename_i shut
    split at h
    · cases h
    · cases h
      exact .inl ⟨by simp [upNext, shut], rfl⟩
  · rename_i running
    split at h
    · cases h
    · rename_i going
      obtain ⟨⟨job, queue⟩, hpop, rfl⟩ := Option.map_eq_some_iff.mp h
      exact .inr ⟨job, queue, by simp [upNext, running, going, hpop], rfl⟩

/-- Before the end of the engine every job that comes back was processed. -/
theorem handBack_isSome (hr : s.isShutDown = false) (now : Nat) :
    (s.handBack now).isSome = (s.upNext now).isSome := by
  rw [handBack, upNext, hr, Bool.false_or, if_neg Bool.false_ne_true]
  split <;> simp only [Option.isSome_none, Option.isSome_map]

/-- The same faults wait for jobs. -/
structure SameFaults (s s' : Software) : Prop where
  busy : s'.faults.busy = s.faults.busy
  jobs : s'.faults.jobs = s.faults.jobs
  code : s'.faults.code = s.faults.code

theorem createSession_sameFaults (key : AuthKey) (s : Software) :
    SameFaults s (s.createSession key).state := by
  unfold createSession
  split_ifs <;> exact ⟨rfl, rfl, rfl⟩

theorem acquire_sameFaults (s : Software) : SameFaults s s.acquire.state := by
  rw [acquire_def]
  split
  · exact ⟨rfl, rfl, rfl⟩
  · dsimp only
    split <;> exact ⟨rfl, rfl, rfl⟩

theorem submit_sameFaults (job : Job) (delay now : Nat) (s : Software) :
    SameFaults s (s.submit job delay now).state := by
  obtain ⟨queue, returning, h, -⟩ := s.submit_frame job delay now
  rw [h]
  exact ⟨rfl, rfl, rfl⟩

theorem cancel_sameFaults (id : JobId) (s : Software) : SameFaults s (s.cancel id).state := by
  unfold cancel
  split <;> exact ⟨rfl, rfl, rfl⟩

end Software

namespace Traffic

/-- No more faults are injected for jobs, and none are cleared. -/
def processing : Terms where
  change s step := Software.Change s step ∧ Software.SameFaults s step.state

/-- Jobs that were processed one after the other, with the faults that waited for jobs before the
first of them, and those that wait after the last. -/
structure Served (faults : Faults) (ps : List Processed) (s : Software) : Prop where
  meets : ∀ (i : Nat) (p : Processed), ps[i]? = some p → p.Meets faults i
  busy : s.faults.busy = faults.busy - ps.length
  jobs : s.faults.jobs = faults.jobs - (ps.length - faults.busy)
  code : s.faults.code = faults.code

namespace Served
variable {faults : Faults} {ps : List Processed} {s s' : Software}

theorem nil (s : Software) : Served s.faults [] s := ⟨nofun, rfl, by simp, rfl⟩

theorem congr (h : Served faults ps s) (same : Software.SameFaults s s') : Served faults ps s' where
  meets := h.meets
  busy := same.busy.trans h.busy
  jobs := same.jobs.trans h.jobs
  code := same.code.trans h.code

theorem meets_next (h : Served faults ps s) (job : Job) (queue : List Queued) :
    Processed.Meets faults ps.length
      ⟨job, s.sessions, (Software.work job { s with queue }).answer⟩ := by
  have busy := h.busy
  have jobs := h.jobs
  let s' : Software := { s with queue }
  refine ⟨fun hn => ?_, fun hb hn => ?_, fun hn => ?_, ?_⟩
  · rw [Software.work_of_busy job (s := s') (show 0 < s.faults.busy by omega)]
  · rw [Software.work_of_failing job (s := s') (show s.faults.busy = 0 by omega)
      (show 0 < s.faults.jobs by omega), ← h.code]
  · rw [Software.work_of_no_fault job (s := s') (show s.faults.busy = 0 by omega)
      (show s.faults.jobs = 0 by omega)]
    exact Processed.decided_of_process s.sessions job
  · obtain ⟨output, outcome, answer, -⟩ := Software.work_spec job s'
    rw [answer]

/-- One more job uses up one more fault, or there is none left. -/
theorem work (h : Served faults ps s) (job : Job) (queue : List Queued) :
    Served faults (ps ++ [⟨job, s.sessions, (Software.work job { s with queue }).answer⟩])
      (Software.work job { s with queue }).state := by
  have busy := h.busy
  have jobs := h.jobs
  refine ⟨fun i p hp => ?_, ?_, ?_, ?_⟩
  · rw [List.getElem?_append, List.getElem?_singleton] at hp
    split_ifs at hp with hi hlast
    · exact h.meets i p hp
    · obtain rfl := Option.some.inj hp
      obtain rfl : i = ps.length := by omega
      exact h.meets_next job queue
  · rw [Software.work_faults, List.length_append, List.length_singleton]
    change s.faults.busy - 1 = _
    omega
  · rw [Software.work_faults, List.length_append, List.length_singleton]
    change (if s.faults.busy = 0 then s.faults.jobs - 1 else s.faults.jobs) = _
    split_ifs <;> omega
  · rw [Software.work_faults]
    exact h.code

end Served

variable {t t' : Traffic}

theorem Next.served {faults : Faults} {ps : List Processed} {start : Traffic}
    (n : Next processing t t') (h : Served faults ps t.engine)
    (hp : t.processed = start.processed ++ ps) :
    ∃ ps, Served faults ps t'.engine ∧ t'.processed = start.processed ++ ps := by
  cases n with
  | changed hchange => exact ⟨ps, h.congr hchange.2, hp⟩
  | opened key => exact ⟨ps, h.congr (t.engine.createSession_sameFaults key), hp⟩
  | refused | acquired => exact ⟨ps, h.congr t.engine.acquire_sameFaults, hp⟩
  | created | filled | emptied | lost | released => exact ⟨ps, h.congr ⟨rfl, rfl, rfl⟩, hp⟩
  | submitted _ delay now => exact ⟨ps, h.congr (t.engine.submit_sameFaults _ delay now), hp⟩
  | cancelled id => exact ⟨ps, h.congr (t.engine.cancel_sameFaults id), hp⟩
  | handedBack hstep =>
    obtain ⟨none, faults⟩ | ⟨job, queue, next, rfl⟩ := Software.handBack_upNext hstep
    · refine ⟨ps, h.congr ⟨by rw [faults], by rw [faults], by rw [faults]⟩, ?_⟩
      simp only [none, Option.map_none, Option.toList_none, List.append_nil, hp]
    · refine ⟨_, h.work job queue, ?_⟩
      simp only [next, Option.map_some, Option.toList_some, hp, List.append_assoc]

theorem Run.served (r : Run processing t t') :
    ∃ ps, Served t.engine.faults ps t'.engine ∧ t'.processed = t.processed ++ ps := by
  induction r with
  | refl => exact ⟨[], .nil t.engine, (List.append_nil _).symm⟩
  | tail _ n ih =>
    obtain ⟨ps, served, hp⟩ := ih
    exact n.served served hp

/-- Of the jobs that are processed from now on, whoever submits them, the first come back busy and
the next fail, as many as faults were injected; each later one is decided by its own window. No job
comes back from an engine that runs without being processed. -/
theorem processing_meets_faults (r : Run processing t t') :
    let f := t.engine.faults
    (∃ ps, t'.processed = t.processed ++ ps ∧ ∀ (i : Nat) (p : Processed), ps[i]? = some p →
      p.after = { p.before with output := p.after.output, outcome := p.after.outcome } ∧
      (i < f.busy → p.after = p.before.complete .busy) ∧
      (f.busy ≤ i → i < f.busy + f.jobs → p.after = p.before.complete (.failed f.code)) ∧
      (f.busy + f.jobs ≤ i → p.Decided)) ∧
    ∀ now, t'.engine.isShutDown = false →
      (t'.engine.handBack now).isSome = (t'.engine.upNext now).isSome := by
  intro f
  obtain ⟨ps, served, hp⟩ := r.served
  refine ⟨⟨ps, hp, fun i p hi => ?_⟩, fun now running => Software.handBack_isSome running now⟩
  obtain ⟨busy, failing, decided, rest⟩ := served.meets i p hi
  exact ⟨rest, busy, failing, decided⟩

/-- One busy fault and one failure, and three jobs with bytes in their output: only the last job is
computed, and what it held is gone. -/
theorem third_job_is_computed :
    ∃ t t' p q r, Run processing t t' ∧ t.engine.faults = { busy := 1, jobs := 1, code := 77 } ∧
      t'.processed = [p, q, r] ∧ p.after.outcome = .busy ∧ q.after.outcome = .failed 77 ∧
      r.before.output = [9] ∧ r.after.outcome = .done ∧
      r.after.output.take 3 = [0, 0, 0] ∧ r.after.input = [5, 6, 7] ∧
      (t'.engine.handBack 0).isSome = false := by
  let job (n : Nat) : Job :=
    { id := ⟨n⟩, descriptor := some ⟨⟨1⟩, .ofSeed 4, 1, 2, 3⟩, input := [5, 6, 7], output := [9] }
  let worked (n : Nat) (s : Software) : Step Software Job :=
    Software.work (job n) { s with queue := s.queue.tail }
  let s : Software :=
    { faults := { busy := 1, jobs := 1, code := 77 }, sessions := [(⟨1⟩, .ofSeed 4)]
      queue := [⟨job 1, none⟩, ⟨job 2, none⟩, ⟨job 3, none⟩] }
  let s' := (worked 1 s).state
  let s'' := (worked 2 s').state
  let p : Processed := ⟨job 1, s.sessions, (worked 1 s).answer⟩
  let q : Processed := ⟨job 2, s.sessions, (worked 2 s').answer⟩
  let r : Processed := ⟨job 3, s.sessions, (worked 3 s'').answer⟩
  let one : Traffic := { engine := s', held := [p.after], processed := [p] }
  let two : Traffic := { engine := s'', held := [p.after, q.after], processed := [p, q] }
  let three : Traffic :=
    { engine := (worked 3 s'').state, held := [p.after, q.after, r.after], processed := [p, q, r] }
  have first : Next processing { engine := s } one :=
    @Next.handedBack _ { engine := s } 0 (worked 1 s) rfl
  have second : Next processing one two := @Next.handedBack _ one 0 (worked 2 s') rfl
  have third : Next processing two three := @Next.handedBack _ two 0 (worked 3 s'') rfl
  have run := ((Relation.ReflTransGen.single first).tail second).tail third
  obtain ⟨⟨ps, hp, spec⟩, idle⟩ := processing_meets_faults run
  obtain rfl : [p, q, r] = ps := hp
  obtain ⟨-, busy, -, -⟩ := spec 0 p rfl
  obtain ⟨-, -, failing, -⟩ := spec 1 q rfl
  obtain ⟨rest, -, -, decided⟩ := spec 2 r rfl
  have window : r.before.Window r.sessions ⟨⟨1⟩, .ofSeed 4, 1, 2, 3⟩ (.ofSeed 4) :=
    ⟨rfl, rfl, by decide⟩
  obtain ⟨done, tagged, -⟩ := decided (by decide)
  obtain ⟨tag, -, output, -⟩ := tagged _ _ window
  refine ⟨_, _, p, q, r, run, rfl, rfl, ?_, ?_, rfl, done.mpr ⟨_, _, window⟩, ?_, ?_,
    (idle 0 rfl).trans rfl⟩
  · rw [busy (by decide)]
    rfl
  · rw [failing (by decide) (by decide)]
    rfl
  · rw [output]
    rfl
  · rw [rest]

end Traffic
end PacketAuth
