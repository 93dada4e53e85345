import PacketAuth.Proofs.Software

/-! Traffic around the engine in software. Whoever has a job may fill it, submit it, take it back
from the queue, empty it, lose it or hand it in, and jobs that nobody acquired may be among them. -/
namespace PacketAuth

/-- The job that the worker processes next. -/
def Software.upNext (now : Nat) (s : Software) : Option Job :=
  if s.isShutDown || s.paused then none else (Queue.popReady now s.queue).map (·.1)

/-- An id is given to a job outside the pool. -/
def Software.giveId (s : Software) : Software := { s with nextJob := s.nextJob + 1 }

/-- A job that the worker processed, as it left the queue and as it came back, and the sessions that
were open. -/
structure Processed where
  before : Job
  sessions : Sessions
  after : Job

/-- An engine, and the jobs that are neither free nor queued: in the hand of the worker, or with
whoever acquired or made them. Beside them stand the ids under which jobs of the pool are out, the
number of jobs that the pool had to make, and what the worker processed, in its order. -/
structure Traffic where
  engine : Software
  held : List Job := []
  loans : List JobId := []
  made : Nat := 0
  processed : List Processed := []

namespace Traffic

/-- Which changes of the engine happen, and which jobs are handed in. -/
structure Terms where
  change : Software → Step Software Unit → Prop := Software.Change
  mayRelease : Traffic → Job → Prop := fun _ _ => True

/-- One operation on the engine, or one thing done to a job that is held. The holder of a job can
give it another content, but only emptying it gives it another id. -/
inductive Next (T : Terms) (t : Traffic) : Traffic → Prop
  | changed {step : Step Software Unit} (h : T.change t.engine step) :
      Next T t { t with engine := step.state }
  | opened (key : AuthKey) :
      Next T t { t with engine := (t.engine.createSession key).state }
  | refused (h : t.engine.acquire.answer = none) :
      Next T t { t with engine := t.engine.acquire.state }
  | acquired {job : Job} (h : t.engine.acquire.answer = some job) :
      Next T t
        { t with
          engine := t.engine.acquire.state
          held := t.held ++ [job]
          loans := t.loans ++ [job.id]
          made := if t.engine.pool.free = [] then t.made + 1 else t.made }
  | created :
      Next T t
        { t with engine := t.engine.giveId, held := t.held ++ [.fresh ⟨t.engine.nextJob⟩] }
  | filled {before after : List Job} {job job' : Job}
      (hh : t.held = before ++ job :: after) (hid : job'.id = job.id) :
      Next T t { t with held := before ++ job' :: after }
  | emptied {before after : List Job} {job : Job}
      (hh : t.held = before ++ job :: after) :
      Next T t
        { t with
          engine := t.engine.giveId
          held := before ++ job.reset ⟨t.engine.nextJob⟩ :: after
          loans := t.loans.map fun id => if id = job.id then ⟨t.engine.nextJob⟩ else id }
  | lost {before after : List Job} {job : Job}
      (hh : t.held = before ++ job :: after) : Next T t { t with held := before ++ after }
  | submitted {before after : List Job} {job : Job}
      (hh : t.held = before ++ job :: after) (delay now : Nat) :
      Next T t
        { t with engine := (t.engine.submit job delay now).state, held := before ++ after }
  | handedBack {now : Nat} {step : Step Software Job}
      (h : t.engine.handBack now = some step) :
      Next T t
        { t with
          engine := step.state
          held := t.held ++ [step.answer]
          processed := t.processed ++
            ((t.engine.upNext now).map fun job => ⟨job, t.engine.sessions, step.answer⟩).toList }
  | released {before after : List Job} {job : Job}
      (hh : t.held = before ++ job :: after) (hr : T.mayRelease t job) :
      Next T t
        { t with
          engine := t.engine.release job
          held := before ++ after
          loans := t.loans.erase job.id }
  | cancelled (id : JobId) :
      Next T t
        { t with
          engine := (t.engine.cancel id).state
          held := t.held ++ (t.engine.cancel id).answer.toList }

/-- Any number of operations, by anybody, in any order. -/
abbrev Run (T : Terms) : Traffic → Traffic → Prop := Relation.ReflTransGen (Next T)

/-- A new engine, before anybody uses it. -/
def fresh (capacity : Capacity) : Traffic := { engine := (Software.start capacity).state }

/-- Every job there is: free, in the engine to be worked on or to fail, or held. -/
def jobs (t : Traffic) : List Job := t.engine.pool.free ++ t.engine.inside ++ t.held

end Traffic
end PacketAuth
