import PacketAuth.Proofs.Blindness
import PacketAuth.Proofs.Intact
import PacketAuth.Proofs.Software

/-! What an observer can learn of the keys from two runs of one script, each under keys of its own:
nothing, unless a read is decided differently in them. All that is answered, counted, logged and
printed is the same; only the bytes of the tags that are written may differ. -/
namespace PacketAuth

def Queued.redact (q : Queued) : Queued := { q with job := q.job.redact }

namespace Queue

theorem popReady_redact (now : Nat) (q : List Queued) :
    popReady now (q.map Queued.redact) =
      (popReady now q).map (Prod.map Job.redact (List.map Queued.redact)) := by
  induction q with
  | nil => rfl
  | cons x rest ih =>
    rw [List.map_cons, popReady, popReady, ih, show x.redact.isReady now = x.isReady now from rfl]
    split
    · rfl
    · simp [Function.comp_def]

theorem remove_redact (id : JobId) (q : List Queued) :
    remove id (q.map Queued.redact) =
      (remove id q).map (Prod.map Job.redact (List.map Queued.redact)) := by
  induction q with
  | nil => rfl
  | cons x rest ih =>
    rw [List.map_cons, remove, remove, ih, show x.redact.job.id = x.job.id from rfl]
    split
    · rfl
    · simp [Function.comp_def]

end Queue

/-- Whether a session is open does not depend on the keys. -/
theorem Sessions.key?_congr {sessions sessions' : Sessions}
    (h : sessions.map Prod.fst = sessions'.map Prod.fst) (handle : SessionHandle) :
    ((sessions.key? handle).map fun _ => ()) = (sessions'.key? handle).map fun _ => () := by
  have known (sessions : Sessions) : ((sessions.key? handle).map fun _ => ()) =
      ((sessions.map Prod.fst).find? (· = handle)).map fun _ => () := by
    rw [Sessions.key?, List.find?_map, Option.map_map, Option.map_map]
    rfl
  rw [known, h, known]

/-- Two engines that differ in keys and bytes only. -/
structure Software.Alike (s s' : Software) : Prop where
  capacity : s.capacity = s'.capacity
  queue : s.queue.map Queued.redact = s'.queue.map Queued.redact
  returning : s.returning.map Job.redact = s'.returning.map Job.redact
  paused : s.paused = s'.paused
  isShutDown : s.isShutDown = s'.isShutDown
  isStopped : s.isStopped = s'.isStopped
  sessions : s.sessions.map Prod.fst = s'.sessions.map Prod.fst
  nextSession : s.nextSession = s'.nextSession
  free : s.pool.free.map Job.redact = s'.pool.free.map Job.redact
  outstanding : s.pool.outstanding = s'.pool.outstanding
  faults : s.faults = s'.faults
  accounting : s.accounting = s'.accounting
  nextJob : s.nextJob = s'.nextJob

/-- Whether a job can be processed, and how long its output is then. -/
theorem Job.process_redact {sessions sessions' : Sessions}
    (hs : sessions.map Prod.fst = sessions'.map Prod.fst) {j j' : Job} (hj : j.redact = j'.redact) :
    (j.process sessions).1.redact = (j'.process sessions').1.redact ∧
      (j.process sessions).2 = (j'.process sessions').2 := by
  have same := Job.redact_eq_iff.mp hj
  unfold Job.process
  cases hd : j.descriptor with
  | none =>
    rw [eq_none_of_map_eq same.2.1 hd]
    exact ⟨hj, rfl⟩
  | some d =>
    obtain ⟨d', hd', descriptor⟩ := exists_some_of_map_eq same.2.1 hd
    obtain ⟨session, -, skip, length, inject⟩ := Descriptor.mk.inj descriptor
    have known := Sessions.key?_congr hs d'.session
    rw [hd']
    dsimp only
    rw [same.2.2.1, skip, length, session, inject]
    split
    · exact ⟨hj, rfl⟩
    · cases hk : sessions.key? d'.session with
      | none =>
        rw [eq_none_of_map_eq known hk]
        exact ⟨hj, rfl⟩
      | some key =>
        obtain ⟨key', hk', -⟩ := exists_some_of_map_eq known hk
        rw [hk']
        dsimp only
        refine ⟨?_, rfl⟩
        rw [Job.redact_eq_iff]
        exact ⟨same.1, congrArg some descriptor, same.2.2.1, by simp, same.2.2.2.2⟩

namespace Software.Alike
variable {s s' : Software}

theorem refl (s : Software) : s.Alike s := by constructor <;> rfl

theorem record (a : s.Alike s') (e : Accounting.Entry) : (s.record e).Alike (s'.record e) :=
  { a with accounting := by rw [Software.record, Software.record, a.accounting] }

theorem createSession (a : s.Alike s') (key key' : AuthKey) :
    (s.createSession key).Alike Software.Alike id (s'.createSession key') := by
  have count : s.sessions.length = s'.sessions.length := by
    simpa using congrArg List.length a.sessions
  unfold Software.createSession
  dsimp only
  rw [a.faults, a.isShutDown, a.capacity, count, a.nextSession]
  split
  · exact ⟨rfl, { a.record .sessionFailed with
      capacity := rfl
      isShutDown := rfl
      nextSession := rfl
      faults := rfl }, rfl⟩
  · split
    · exact ⟨rfl, a.record _, rfl⟩
    · split
      · exact ⟨rfl, a.record _, rfl⟩
      · refine ⟨rfl, { a.record .sessionCreated with
          capacity := rfl
          isShutDown := rfl
          sessions := ?_
          nextSession := rfl
          faults := rfl }, rfl⟩
        simp [Software.record, a.sessions]

theorem acquire (a : s.Alike s') :
    s.acquire.Alike Software.Alike (Option.map Job.redact) s'.acquire := by
  have acquired := a.record .jobAcquired
  rw [Software.acquire_def, Software.acquire_def, a.capacity, a.outstanding]
  split
  · exact ⟨rfl, a.record _, rfl⟩
  · have free := a.free
    dsimp only [Software.record]
    cases hx : s.pool.free with
    | nil =>
      cases hy : s'.pool.free with
      | cons => simp [hx, hy] at free
      | nil =>
        refine ⟨by simp [a.nextJob], { acquired with
          free := rfl
          outstanding := rfl
          nextJob := ?_ }, rfl⟩
        simp [a.nextJob]
    | cons job rest =>
      cases hy : s'.pool.free with
      | nil => simp [hx, hy] at free
      | cons job' rest' =>
        obtain ⟨hj, rest⟩ : job.redact = job'.redact ∧
            rest.map Job.redact = rest'.map Job.redact := by
          simpa [hx, hy] using free
        exact ⟨by simp [hj], { acquired with free := rest, outstanding := rfl }, rfl⟩

theorem submit (a : s.Alike s') {job job' : Job} (hj : job.redact = job'.redact) (delay now : Nat) :
    (s.submit job delay now).Alike Software.Alike id (s'.submit job' delay now) := by
  have count : s.queue.length = s'.queue.length := by
    simpa using congrArg List.length a.queue
  unfold Software.submit
  dsimp only
  rw [a.isShutDown, count, (Job.redact_eq_iff.mp hj).1]
  split
  · refine ⟨rfl, { a.record .jobDispatched with returning := ?_ }, rfl⟩
    simp [a.returning, hj]
  · refine ⟨rfl, { a.record .jobDispatched with queue := ?_ }, rfl⟩
    simp [a.queue, Queued.redact, hj]

theorem work (a : s.Alike s') {job job' : Job} (hj : job.redact = job'.redact) :
    (s.work job).Alike Software.Alike Job.redact (s'.work job') := by
  obtain ⟨processed, outcome⟩ := Job.process_redact a.sessions hj
  have id := (Job.redact_eq_iff.mp hj).1
  unfold Software.work
  rw [a.faults]
  generalize s'.faults.next = next
  obtain ⟨forced, faults⟩ := next
  have troubled : Software.Alike { s with faults } { s' with faults } := { a with faults := rfl }
  cases forced with
  | some o =>
    dsimp only
    exact ⟨Job.redact_complete hj o, troubled.record _, by rw [id]⟩
  | none =>
    dsimp only
    rw [outcome]
    refine ⟨Job.redact_complete processed _, troubled.record _, ?_⟩
    rw [(Job.redact_eq_iff.mp processed).1]

theorem handBack (a : s.Alike s') (now : Nat) :
    s.handBack now = none ∧ s'.handBack now = none ∨
      ∃ x y, s.handBack now = some x ∧ s'.handBack now = some y ∧
        x.Alike Software.Alike Job.redact y := by
  have queue := a.queue
  unfold Software.handBack
  by_cases down : s'.isShutDown = true
  · rw [if_pos (a.isShutDown.trans down), if_pos down]
    have returning := a.returning
    cases hx : s.returning with
    | nil =>
      cases hy : s'.returning with
      | nil => exact .inl ⟨rfl, rfl⟩
      | cons => simp [hx, hy] at returning
    | cons job rest =>
      cases hy : s'.returning with
      | nil => simp [hx, hy] at returning
      | cons job' rest' =>
        obtain ⟨hj, rest⟩ : job.redact = job'.redact ∧
            rest.map Job.redact = rest'.map Job.redact := by
          simpa [hx, hy] using returning
        exact .inr ⟨_, _, rfl, rfl, Job.redact_complete hj _,
          { a.record .jobFailed with returning := rest }, rfl⟩
  · rw [if_neg (by rwa [a.isShutDown]), if_neg down]
    by_cases paused : s'.paused = true
    · rw [if_pos (a.paused.trans paused), if_pos paused]
      exact .inl ⟨rfl, rfl⟩
    · rw [if_neg (by rwa [a.paused]), if_neg paused]
      have popped := Queue.popReady_redact now s.queue
      rw [queue, Queue.popReady_redact] at popped
      cases hx : Queue.popReady now s.queue with
      | none => exact .inl ⟨rfl, by rw [eq_none_of_map_eq popped.symm hx, Option.map_none]⟩
      | some r =>
        obtain ⟨r', hy, same⟩ := exists_some_of_map_eq popped.symm hx
        obtain ⟨hj, rest⟩ := Prod.mk.inj same
        have popped : Software.Alike { s with queue := r.2 } { s' with queue := r'.2 } :=
          { a with queue := rest }
        exact .inr ⟨_, _, rfl, by rw [hy, Option.map_some], popped.work hj⟩

theorem release (a : s.Alike s') (job job' : Job) : (s.release job).Alike (s'.release job') := by
  have count : s.pool.free.length = s'.pool.free.length := by
    simpa using congrArg List.length a.free
  have freed : Software.Alike
      { s with
        pool := ⟨if s.pool.free.length < s.capacity.jobs then .fresh ⟨s.nextJob⟩ :: s.pool.free
          else s.pool.free, s.pool.outstanding - 1⟩
        nextJob := s.nextJob + 1 }
      { s' with
        pool := ⟨if s'.pool.free.length < s'.capacity.jobs then .fresh ⟨s'.nextJob⟩ :: s'.pool.free
          else s'.pool.free, s'.pool.outstanding - 1⟩
        nextJob := s'.nextJob + 1 } := by
    refine { a with free := ?_, outstanding := ?_, nextJob := ?_ }
    · simp only [count, a.capacity, a.nextJob]
      split
      · simp [a.free]
      · exact a.free
    · simp [a.outstanding]
    · simp [a.nextJob]
  exact freed.record _

theorem cancel (a : s.Alike s') (id : JobId) :
    (s.cancel id).Alike Software.Alike (Option.map Job.redact) (s'.cancel id) := by
  have removed := Queue.remove_redact id s.queue
  rw [a.queue, Queue.remove_redact] at removed
  unfold Software.cancel
  cases hx : Queue.remove id s.queue with
  | none =>
    rw [eq_none_of_map_eq removed.symm hx]
    exact ⟨rfl, a, rfl⟩
  | some r =>
    obtain ⟨r', hy, same⟩ := exists_some_of_map_eq removed.symm hx
    obtain ⟨hj, rest⟩ := Prod.mk.inj same
    have removed : Software.Alike { s with queue := r.2 } { s' with queue := r'.2 } :=
      { a with queue := rest }
    rw [hy]
    exact ⟨congrArg some hj, removed.record _, rfl⟩

theorem queued (a : s.Alike s') : s.queued.map Job.redact = s'.queued.map Job.redact := by
  have jobs := congrArg (List.map Queued.job) a.queue
  rw [List.map_map, List.map_map] at jobs
  rw [Software.queued, Software.queued, List.map_map, List.map_map]
  exact jobs

theorem stop (a : s.Alike s') : s.stop.Alike Software.Alike id s'.stop := by
  have count : s.queue.length = s'.queue.length := by
    simpa using congrArg List.length a.queue
  unfold Software.stop
  rw [a.isShutDown, a.isStopped, count]
  split
  · refine ⟨rfl, { a with queue := rfl, isShutDown := rfl, isStopped := rfl, returning := ?_ }, rfl⟩
    rw [List.map_append, List.map_append, a.returning]
    exact congrArg _ a.queued
  · exact ⟨rfl, a, rfl⟩

end Software.Alike

namespace Software

/-- What a host may order from the engine beside its calls, and the end of its worker. -/
inductive Order where
  | pause
  | resume
  | shutDown
  | stop
  | clearFaults
  | injectSessionFailures (n : Nat)
  | injectBusy (n : Nat)
  | injectJobFailures (n : Nat) (code : Int32)
  deriving Repr, DecidableEq

def obey (order : Order) (s : Software) : Step Software Unit :=
  match order with
  | .pause => ⟨(), s.pause, []⟩
  | .resume => ⟨(), s.resume, []⟩
  | .shutDown => ⟨(), s.shutDown, []⟩
  | .stop => s.stop
  | .clearFaults => ⟨(), s.clearFaults, []⟩
  | .injectSessionFailures n => ⟨(), s.injectSessionFailures n, []⟩
  | .injectBusy n => ⟨(), s.injectBusy n, []⟩
  | .injectJobFailures n code => ⟨(), s.injectJobFailures n code, []⟩

def controls : Controls Software Order := { engine, obey }

/-- Scripts with these orders do what the rules of the engine allow. -/
theorem controls_rules : controls.rules = rules := by
  have orders : ∀ s step, (∃ order, obey order s = step) ↔ Change s step := by
    intro s step
    constructor
    · rintro ⟨order, rfl⟩
      cases order <;> constructor
    · intro h
      cases h with
      | pause => exact ⟨.pause, rfl⟩
      | resume => exact ⟨.resume, rfl⟩
      | shutDown => exact ⟨.shutDown, rfl⟩
      | stop => exact ⟨.stop, rfl⟩
      | clearFaults => exact ⟨.clearFaults, rfl⟩
      | injectSessionFailures n => exact ⟨.injectSessionFailures n, rfl⟩
      | injectBusy n => exact ⟨.injectBusy n, rfl⟩
      | injectJobFailures n code => exact ⟨.injectJobFailures n code, rfl⟩
  simp only [Controls.rules, controls, rules, orders]

theorem controls_blind : controls.Blind Software.Alike where
  engine :=
    { createSession := fun key key' _ _ a => a.createSession key key'
      acquire := fun a => a.acquire
      submit := fun hj delay now _ _ a => a.submit hj delay now
      handBack := fun now _ _ a => a.handBack now
      release := fun {job job'} _ _ _ a => a.release job job'
      cancel := fun id _ _ a => a.cancel id }
  obey order s s' a := by
    cases order with
    | pause | resume => exact ⟨rfl, { a with paused := rfl }, rfl⟩
    | shutDown => exact ⟨rfl, { a with isShutDown := rfl }, rfl⟩
    | stop => exact a.stop
    | clearFaults => exact ⟨rfl, { a with faults := rfl }, rfl⟩
    | injectSessionFailures n =>
      have faults := congrArg (fun f : Faults => { f with sessions := n }) a.faults
      exact ⟨rfl, { a with faults }, rfl⟩
    | injectBusy n =>
      have faults := congrArg (fun f : Faults => { f with busy := n }) a.faults
      exact ⟨rfl, { a with faults }, rfl⟩
    | injectJobFailures n code =>
      have faults := congrArg (fun f : Faults => { f with jobs := n, code }) a.faults
      exact ⟨rfl, { a with faults }, rfl⟩

end Software

/-- What is shown of a job: its id, the text of its descriptor and its own. -/
structure Job.Sight where
  id : JobId
  descriptor : Option String
  text : String

def Job.sight (j : Job) : Job.Sight := ⟨j.id, j.descriptor.map Descriptor.inspect, j.inspect⟩

/-- What is shown of a reply: how the request ended, the length that its caller finds, and that of
the buffer. -/
structure Reply.Sight where
  result : Except Failure Unit
  status : Status
  length : Nat
  bufferLength : Nat

def Reply.sight (requested : Nat) (r : Reply) : Reply.Sight :=
  ⟨r.result, r.status, r.length requested, r.buffer.length⟩

/-- What is shown of a call: the id of its job, its slot with the job that is left there, and its
reply. -/
structure Call.Sight where
  job : JobId
  slot : String
  found : Option Job.Sight
  reply : Option Reply.Sight

def Slot.found : Slot → Option Job
  | .completed job => some job
  | _ => none

def Call.sight (c : Call) : Call.Sight :=
  ⟨c.job, c.slot.inspect, c.slot.found.map Job.sight, c.reply.map (Reply.sight c.request.length)⟩

/-- What is shown of a service: its text and that of its key, its statistics, and the sessions of
its lanes. -/
structure Service.Sight where
  text : String
  key : String
  stats : Stats
  sessions : List (LaneId × Option SessionHandle)

def Service.sight (s : Service) : Service.Sight :=
  ⟨s.inspect, s.key.inspect, s.stats, s.lanes.map fun l => (l.id, l.session)⟩

/-- All that is shown of a world, but for tags and other bytes in buffers. -/
structure World.Sight where
  log : List Event
  services : List Service.Sight
  calls : List Call.Sight
  jobs : List Job.Sight
  handedBack : List (Nat × Job.Sight)
  sessions : List SessionHandle
  engine : String
  accounting : Accounting

def World.sight (w : World Software) : World.Sight where
  log := w.host.log
  services := w.host.services.map Service.sight
  calls := w.host.calls.map Call.sight
  jobs := (w.afloat ++ w.host.engine.pool.free).map Job.sight
  handedBack := w.host.handedBack.map (Prod.map id Job.sight)
  sessions := w.host.engine.sessions.map Prod.fst
  engine := w.host.engine.inspect
  accounting := w.host.engine.accounting

/-- The texts of a builder and of its key. -/
def Turn.texts {κ : Type} : Turn κ → Option (String × Option String)
  | .install b => some (b.inspect, b.key.map AuthKey.inspect)
  | _ => none

section Sights
variable {α β γ : Type} {f : α → β} {g : α → γ}

theorem option_map_congr_of_map_eq {x y : Option α} (h : x.map f = y.map f)
    (hg : ∀ x y, f x = f y → g x = g y) : x.map g = y.map g := by
  cases hx : x with
  | none => rw [eq_none_of_map_eq h hx]
  | some a =>
    obtain ⟨b, hy, same⟩ := exists_some_of_map_eq h hx
    rw [hy, Option.map_some, Option.map_some, hg a b same]

theorem map_congr_of_map_eq {xs ys : List α} (h : xs.map f = ys.map f)
    (hg : ∀ x y, f x = f y → g x = g y) : xs.map g = ys.map g := by
  apply List.ext_getElem?
  intro i
  have entry := congrArg (·[i]?) h
  simp only [List.getElem?_map] at entry ⊢
  exact option_map_congr_of_map_eq entry hg

end Sights

theorem Descriptor.inspect_redact (d : Descriptor) : d.redact.inspect = d.inspect := rfl

theorem Job.sight_congr {j j' : Job} (h : j.redact = j'.redact) : j.sight = j'.sight := by
  obtain ⟨id, descriptor, -⟩ := Job.redact_eq_iff.mp h
  have text : j.inspect = j'.inspect := by rw [← j.inspect_redact, h, j'.inspect_redact]
  have shown : j.descriptor.map Descriptor.inspect = j'.descriptor.map Descriptor.inspect := by
    refine option_map_congr_of_map_eq descriptor fun d d' h => ?_
    rw [← d.inspect_redact, h, d'.inspect_redact]
  rw [sight, sight, id, shown, text]

theorem Reply.sight_congr {r r' : Reply} (h : r.redact = r'.redact) (n : Nat) :
    r.sight n = r'.sight n := by
  obtain ⟨result, buffer⟩ := Reply.mk.inj h
  rw [blanked_congr] at buffer
  simp only [sight, status, length, result, buffer]

theorem Call.sight_congr {c c' : Call} (h : c.redact = c'.redact) : c.sight = c'.sight := by
  obtain ⟨request, -, -, job, -, slot, reply⟩ := Call.redact_eq_iff.mp h
  obtain ⟨-, -, -, -, length, -⟩ := Request.redact_eq_iff.mp request
  have text : c.slot.inspect = c'.slot.inspect := by
    rw [← Slot.inspect_redact, slot, Slot.inspect_redact]
  have found : c.slot.found.map Job.sight = c'.slot.found.map Job.sight := by
    rcases Slot.redact_eq slot with ⟨j, j', hj, hj', same⟩ | ⟨same, -⟩
    · simp [hj, hj', Slot.found, Job.sight_congr same]
    · rw [same]
  have replied : c.reply.map (Reply.sight c'.request.length) =
      c'.reply.map (Reply.sight c'.request.length) :=
    option_map_congr_of_map_eq reply fun r r' h => Reply.sight_congr h _
  rw [sight, sight, job, text, found, length, replied]

theorem Service.sight_congr {s s' : Service} (h : s.redact = s'.redact) : s.sight = s'.sight := by
  obtain ⟨-, lanes, stats, -⟩ := Service.redact_eq_iff.mp h
  have text : s.inspect = s'.inspect := by rw [← s.inspect_redact, h, s'.inspect_redact]
  have sessions : s.lanes.map (fun l => (l.id, l.session)) =
      s'.lanes.map (fun l => (l.id, l.session)) := by
    refine map_congr_of_map_eq lanes fun l l' h => ?_
    obtain ⟨id, session⟩ := Lane.redact_eq_iff.mp h
    rw [id, session]
  rw [sight, sight, text, stats, sessions]
  rfl

theorem Turn.texts_congr {κ : Type} {t t' : Turn κ} (h : t.redact = t'.redact) :
    t.texts = t'.texts := by
  rcases Turn.redact_eq h with ⟨b, b', rfl, rfl, hb⟩ | ⟨r, r', rfl, rfl, -⟩ | rfl
  · have text : b.inspect = b'.inspect := by rw [← b.inspect_redact, hb, b'.inspect_redact]
    have key : b.key.map AuthKey.inspect = b'.key.map AuthKey.inspect :=
      option_map_congr_of_map_eq (congrArg Builder.key hb) fun _ _ _ => rfl
    rw [texts, texts, text, key]
  · rfl
  · rfl

namespace World
variable {w w' : World Software}

theorem Alike.sight (a : w.Alike Software.Alike w') : w.sight = w'.sight := by
  have jobs : (w.afloat ++ w.host.engine.pool.free).map Job.sight =
      (w'.afloat ++ w'.host.engine.pool.free).map Job.sight := by
    refine map_congr_of_map_eq ?_ fun j j' h => Job.sight_congr h
    simp only [afloat, Software.inside, List.map_append, a.host.engine.returning,
      a.host.engine.queued, a.hand, a.host.engine.free]
  have text : w.host.engine.inspect = w'.host.engine.inspect := by
    have queue := congrArg List.length a.host.engine.queue
    have sessions := congrArg List.length a.host.engine.sessions
    rw [List.length_map, List.length_map] at queue sessions
    rw [Software.inspect, Software.inspect, a.host.engine.capacity, queue, sessions]
  have services := map_congr_of_map_eq a.host.services fun _ _ h => Service.sight_congr h
  have calls := map_congr_of_map_eq a.host.calls fun _ _ h => Call.sight_congr h
  have handedBack : w.host.handedBack.map (Prod.map id Job.sight) =
      w'.host.handedBack.map (Prod.map id Job.sight) := by
    refine map_congr_of_map_eq a.host.handedBack fun x y h => ?_
    obtain ⟨holder, job⟩ := Prod.mk.inj h
    exact Prod.ext holder (Job.sight_congr job)
  simp only [World.sight, a.host.log, services, calls, jobs, handedBack, text,
    a.host.engine.sessions, a.host.engine.accounting]

/-- A reply leaves its caller's buffer as the layout of the service says. -/
theorem exists_spares {capacity : Capacity} (run : Run Software.rules (fresh capacity) w)
    {ticket : Nat} {c : Call} (hc : w.host.calls[ticket]? = some c) :
    ∃ s, w.host.services[c.request.service]? = some s ∧
      ∀ reply, c.reply = some reply → reply.Spares s.config.layout c.request := by
  have answered : Answered w :=
    Answered.effects ⟨by simp [fresh], by simp [fresh]⟩ (Run.effects run)
  have employed := Employed.effects lasting_regions (fun ticket c hc => by simp [fresh] at hc)
    (Run.effects run)
  obtain ⟨s, hs, split⟩ := employed ticket c hc
  exact ⟨s, hs, fun reply hr =>
    answered.spares hc hr (answered.layouts s (List.mem_of_getElem? hs)) split⟩

end World

/-- The buffers that come back from two calls differ where they differed before, and in the tags
that were written. -/
def Call.DifferInTags (l : Layout) (c c' : Call) : Prop :=
  ∀ reply reply', c.reply = some reply → c'.reply = some reply' → ∀ i,
    c.request.buffer[i]? = c'.request.buffer[i]? → reply.buffer[i]? ≠ reply'.buffer[i]? →
      c.request.command = .write ∧ reply.result = .ok () ∧ l.InTag i

theorem Call.differInTags {c c' : Call} {l : Layout} (hc : c.redact = c'.redact)
    (spares : ∀ reply, c.reply = some reply → reply.Spares l c.request)
    (spares' : ∀ reply, c'.reply = some reply → reply.Spares l c'.request) :
    c.DifferInTags l c' := by
  intro reply reply' hr hr' i same differ
  obtain ⟨request, -, -, -, -, -, replies⟩ := redact_eq_iff.mp hc
  obtain ⟨-, -, command, -⟩ := Request.redact_eq_iff.mp request
  have untouched : ¬ (reply.buffer = c.request.buffer ∧ reply'.buffer = c'.request.buffer) := by
    rintro ⟨hb, hb'⟩
    exact differ (by rw [hb, hb', same])
  have result : reply.result = reply'.result := by
    rw [hr, hr', Option.map_some, Option.map_some] at replies
    exact (Reply.mk.inj (Option.some.inj replies)).1
  have ok : reply.result = .ok () := by
    cases h : reply.result with
    | ok => rfl
    | error f =>
      have failed := (spares reply hr).failed f h
      have failed' := (spares' reply' hr').failed f (result ▸ h)
      exact absurd ⟨failed, failed'⟩ untouched
  have writes : c.request.command = .write := by
    cases h : c.request.command with
    | write => rfl
    | read =>
      have checked := (spares reply hr).read h
      have checked' := (spares' reply' hr').read (command ▸ h)
      exact absurd ⟨checked, checked'⟩ untouched
  refine ⟨writes, ok, ?_⟩
  by_contra outside
  apply differ
  rw [(spares reply hr).written.2 i outside, (spares' reply' hr').written.2 i outside, same]

/-- Two turns that cannot be told apart but by tags. -/
structure Moment.Matches {κ : Type} (m m' : Moment Software κ) : Prop where
  texts : m.turn.texts = m'.turn.texts
  answer : m.answer = m'.answer
  sight : m.after.sight = m'.after.sight
  buffers : ∀ (ticket : Nat) (c c' : Call), m.after.host.calls[ticket]? = some c →
    m'.after.host.calls[ticket]? = some c' → ∃ s,
      m.after.host.services[c.request.service]? = some s ∧ c.DifferInTags s.config.layout c'

namespace World

theorem fresh_alike (capacity : Capacity) :
    (fresh capacity).Alike Software.Alike (fresh capacity) where
  host :=
    { engine := .refl _
      services := rfl
      calls := rfl
      interrupts := rfl
      handedBack := rfl
      log := rfl
      now := rfl
      isHeld := rfl }
  hand := rfl

variable {capacity : Capacity}

theorem run_of_mem_moments {ts : List (Turn Software.Order)} {m : Moment Software Software.Order}
    (hm : m ∈ (fresh capacity).moments Software.controls ts) :
    Run Software.rules (fresh capacity) m.after := by
  obtain ⟨us, t, rfl⟩ := exists_of_mem_moments hm
  rw [← Software.controls_rules, run_iff_play]
  exact ⟨us ++ [t], play_append us [t] _⟩

/-- Run two scripts that ask for the same, but under other keys and with other bytes in the buffers.
If no read is decided one way here and the other way there, then nothing that any turn shows tells
them apart: no answer, result, status or length, no event, no counter of a service or of the engine,
no session, no id and no text. The buffers that come back differ in the tags that were written, and
where they differed before. -/
theorem keys_show_only_in_tags (capacity : Capacity) {ts ts' : List (Turn Software.Order)}
    (same : ts.map Turn.redact = ts'.map Turn.redact)
    (decided : List.Forall₂ Moment.Agree ((fresh capacity).moments Software.controls ts)
      ((fresh capacity).moments Software.controls ts')) :
    List.Forall₂ Moment.Matches ((fresh capacity).moments Software.controls ts)
      ((fresh capacity).moments Software.controls ts') := by
  have moments := (fresh_alike capacity).moments Software.controls_blind same decided
  rw [List.forall₂_iff_zip] at moments ⊢
  refine ⟨moments.1, fun {m m'} paired => ?_⟩
  obtain ⟨hm, hm'⟩ := List.of_mem_zip paired
  obtain ⟨turn, answer, after⟩ := moments.2 paired
  refine ⟨Turn.texts_congr turn, answer, after.sight, ?_⟩
  intro ticket c c' hc hc'
  obtain ⟨d, hd, alike⟩ := exists_getElem?_of_map_eq after.host.calls hc
  obtain rfl : c' = d := Option.some.inj (hc'.symm.trans hd)
  obtain ⟨s, hs, spares⟩ := exists_spares (run_of_mem_moments hm) hc
  obtain ⟨s', hs', spares'⟩ := exists_spares (run_of_mem_moments hm') hc'
  obtain ⟨t, ht, service⟩ := exists_getElem?_of_map_eq after.host.services hs
  have config : s.config = s'.config := by
    rw [(Request.redact_eq_iff.mp (Call.redact_eq_iff.mp alike).1).1, hs'] at ht
    rw [Option.some.inj ht]
    exact (Service.redact_eq_iff.mp service).1
  rw [← config] at spares'
  exact ⟨s, hs, Call.differInTags alike spares spares'⟩

theorem agree_of_decisions {σ κ : Type} {ms ms' : List (Moment σ κ)}
    (h : ms.map Moment.decision = ms'.map Moment.decision) : List.Forall₂ Moment.Agree ms ms' := by
  have decisions : List.Forall₂ Eq (ms.map Moment.decision) (ms'.map Moment.decision) := by
    rw [List.forall₂_eq_eq_eq, h]
  rw [List.forall₂_map_left_iff, List.forall₂_map_right_iff] at decisions
  refine decisions.imp fun m m' same d hd d' hd' => ?_
  rw [same] at hd
  exact Option.mem_unique hd hd'

/-- One request is tagged and one refused, under either of two keys; what differs is the tag. -/
theorem tags_of_two_keys_differ :
    let request (command : Command) : Request :=
      ⟨0, ⟨0⟩, command, List.replicate 21 7, 21, none⟩
    let script (seed : UInt64) : List (Turn Software.Order) :=
      [.install { key := some (.ofSeed seed) }, .change (.injectBusy 1), .enter (request .write),
        .take, .deliver 0, .take, .deliver 0, .enter (request .read), .take, .deliver 0]
    let moments (seed : UInt64) := (fresh {}).moments Software.controls (script seed)
    let tagged (seed : UInt64) :=
      ((fresh {}).play Software.controls (script seed)).host.reply? 0 |>.map Reply.buffer
    (script 1).map Turn.redact = (script 2).map Turn.redact ∧
      List.Forall₂ Moment.Agree (moments 1) (moments 2) ∧
      List.Forall₂ Moment.Matches (moments 1) (moments 2) ∧
      (moments 1).getLast?.bind Moment.decision = some false ∧ tagged 1 ≠ tagged 2 := by
  intro request script moments tagged
  have same : (script 1).map Turn.redact = (script 2).map Turn.redact := rfl
  have decided : List.Forall₂ Moment.Agree (moments 1) (moments 2) :=
    agree_of_decisions (by decide +kernel)
  exact ⟨same, decided, keys_show_only_in_tags {} same decided, by decide +kernel,
    by decide +kernel⟩

end World

end PacketAuth
