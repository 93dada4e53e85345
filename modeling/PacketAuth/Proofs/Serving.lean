import PacketAuth.Proofs.Delivery
import PacketAuth.Proofs.TagEquation
import Mathlib.Data.List.Perm.Basic
import Mathlib.Logic.Function.Iterate

/-! The worker at its regular work: while nothing disturbs it, it answers the jobs that are ready
one after the other, and every service counts its requests and keeps their tags in that order. -/
namespace PacketAuth

theorem Stats.count_comm (s : Stats) (c d : Counter) :
    (s.count c).count d = (s.count d).count c := by
  cases c <;> cases d <;> rfl

instance : RightCommutative Stats.count := ⟨Stats.count_comm⟩

/-- A read on a lane of a service. -/
def Request.reads (i : Nat) (l : LaneId) (r : Request) : Bool :=
  r.command = .read ∧ r.service = i ∧ r.lane = l

def Lane.keep (tag : Tag) (l : Lane) : Lane := { l with cachedTag := tag }

namespace Service

/-- The tag of a request, as the engine computes it. -/
def tag (s : Service) (r : Request) : Tag := ⟨s.tagOf r, s.tagOf_length r⟩

/-- The counter for a request that got its tag. -/
def counterOf (s : Service) (r : Request) : Stats.Counter :=
  match r.command with
  | .write => .generated
  | .read =>
    if (s.tag r).agrees ((r.buffer.drop s.config.layout.tagOffset).take Tag.size) then .verifiedOk
    else .verifiedFail

/-- A service after a request to it got its tag. -/
def served (r : Request) (s : Service) : Service :=
  match r.command with
  | .write => s.count (s.counterOf r)
  | .read => (s.updateLane r.lane (Lane.keep (s.tag r))).count (s.counterOf r)

/-- A service after all requests to it, in their order, got their tags. -/
def serve (rs : List Request) (s : Service) : Service := rs.foldl (fun s r => s.served r) s

/-- Services after requests to them got their tags. -/
def serveAll (rs : List Request) (services : List Service) : List Service :=
  rs.foldl (fun ss r => ss.modify r.service (served r)) services

variable {s s' : Service} {rs rs' : List Request}

theorem tag_persists (p : s.Persists s') (r : Request) : s'.tag r = s.tag r := by
  simp only [tag, tagOf, p.key, p.config]

theorem counterOf_persists (p : s.Persists s') (r : Request) : s'.counterOf r = s.counterOf r := by
  rw [counterOf, counterOf, tag_persists p, p.config]

theorem served_persists (r : Request) (s : Service) : s.Persists (s.served r) := by
  unfold served
  cases r.command <;> exact ⟨rfl, rfl⟩

theorem served_stats (r : Request) (s : Service) :
    (s.served r).stats = s.stats.count (s.counterOf r) := by
  unfold served
  cases r.command <;> rfl

theorem served_lane (r : Request) (l : LaneId) (s : Service) :
    (s.served r).lanes[l.index.toNat]? = s.lanes[l.index.toNat]?.map fun lane =>
      if r.command = .read ∧ r.lane = l then lane.keep (s.tag r) else lane := by
  unfold served
  cases hc : r.command with
  | write => simp [count]
  | read =>
    have same : r.lane.index.toNat = l.index.toNat ↔ r.lane = l := by
      rw [UInt8.toNat_inj]
      exact ⟨fun h => congrArg LaneId.mk h, congrArg LaneId.index⟩
    simp [count, updateLane, List.getElem?_modify, same]

theorem serve_stats (rs : List Request) (s : Service) :
    (s.serve rs).stats = (rs.map s.counterOf).foldl Stats.count s.stats := by
  induction rs generalizing s with
  | nil => rfl
  | cons r rs ih =>
    have same := funext (counterOf_persists (served_persists r s))
    rw [serve, List.foldl_cons, ← serve, ih, served_stats, same]
    rfl

theorem serve_lane (rs : List Request) (l : LaneId) (s : Service) :
    (s.serve rs).lanes[l.index.toNat]? = s.lanes[l.index.toNat]?.map fun lane =>
      ((rs.filter fun r => r.command = .read ∧ r.lane = l).map s.tag).foldl
        (fun lane tag => lane.keep tag) lane := by
  induction rs generalizing s with
  | nil => simp [serve]
  | cons r rs ih =>
    have same := funext (tag_persists (served_persists r s))
    rw [serve, List.foldl_cons, ← serve, ih, served_lane, same, Option.map_map, List.filter_cons]
    refine congrArg (Option.map · _) (funext fun lane => ?_)
    by_cases hr : r.command = .read ∧ r.lane = l
    · simp [hr]
    · simp [hr]

theorem getElem?_serveAll (rs : List Request) (services : List Service) (i : Nat) :
    (serveAll rs services)[i]? = services[i]?.map (serve (rs.filter (·.service = i))) :=
  getElem?_foldl_modify rs Request.service served services i

/-- The counters of a service do not depend on the order of its requests. -/
theorem serveAll_stats_perm (h : rs.Perm rs') (services : List Service) (i : Nat) :
    (serveAll rs services)[i]?.map stats = (serveAll rs' services)[i]?.map stats := by
  rw [getElem?_serveAll, getElem?_serveAll, Option.map_map, Option.map_map]
  refine congrArg (Option.map · _) (funext fun s => ?_)
  rw [Function.comp, Function.comp, serve_stats, serve_stats]
  exact ((h.filter _).map _).foldl_eq _

/-- A lane depends on its reads only. -/
theorem serveAll_lane_congr {i : Nat} {l : LaneId}
    (h : rs.filter (·.reads i l) = rs'.filter (·.reads i l)) (services : List Service) :
    (serveAll rs services)[i]?.bind (fun s => s.lanes[l.index.toNat]?) =
      (serveAll rs' services)[i]?.bind fun s => s.lanes[l.index.toNat]? := by
  have reads : ∀ rs : List Request, (rs.filter (·.service = i)).filter
      (fun r => r.command = .read ∧ r.lane = l) = rs.filter (·.reads i l) := by
    intro rs
    rw [List.filter_filter]
    refine List.filter_congr fun r _ => ?_
    simp only [Request.reads, Bool.decide_and, ← Bool.and_assoc]
    grind
  rw [getElem?_serveAll, getElem?_serveAll]
  cases services[i]? with
  | none => rfl
  | some s =>
    simp only [Option.map_some, Option.bind_some]
    rw [serve_lane, serve_lane, reads, reads, h]

end Service

/-- The counters of an engine after a job was completed and released. -/
def Accounting.served (a : Accounting) : Accounting := (a.record .jobCompleted).record .jobReleased

/-- Whom the jobs that may start are for, in the order of the queue. -/
def Software.ready (now : Nat) (s : Software) : List (Option Recipient) :=
  (s.queue.filter (·.isReady now)).map (·.job.recipient)

theorem Call.credit_eq_served {c : Call} {s : Service} {job : Job}
    (hl : s.config.layout.split c.request.buffer.length c.request.length = .ok c.regions)
    (h : job.Carries (c.tagBytes s.key)) : c.credit job s = s.served c.request := by
  obtain ⟨tag, hverdict, hbytes⟩ := h
  obtain rfl : tag = s.tag c.request := by
    rw [tagBytes_of_split hl] at hbytes
    cases tag
    cases hbytes
    rfl
  unfold credit Service.served Service.counterOf
  cases hc : c.request.command with
  | write => rw [c.ending_of_write hverdict hc]
  | read =>
    rw [c.ending_of_read hverdict hc, wire_of_split hl]
    split <;> rfl

namespace Host

/-- The request that a recipient made. -/
def requestOf {σ : Type} (h : Host σ) : Option Recipient → Option Request
  | some (.call ticket) => (h.calls.map Call.request)[ticket]?
  | _ => none

/-- A host after the worker answered some recipients in their order. -/
structure Served (h : Host Software) (answered : List (Option Recipient)) (h' : Host Software) :
    Prop where
  services : h'.services = Service.serveAll (answered.filterMap h.requestOf) h.services
  accounting : h'.engine.accounting = Accounting.served^[answered.length] h.engine.accounting
  requests : h'.calls.map Call.request = h.calls.map Call.request
  replied : ∀ ticket, (h'.reply? ticket).isSome = true ↔
    (h.reply? ticket).isSome = true ∨ some (.call ticket) ∈ answered

/-- Nothing keeps the worker from its work. -/
structure AtWork (h : Host Software) : Prop where
  keyed : World.Keyed ⟨h, []⟩
  untroubled : h.engine.Untroubled
  running : h.engine.paused = false

variable {h h' h'' : Host Software} {answered answered' : List (Option Recipient)}

theorem Served.refl : h.Served [] h where
  services := rfl
  accounting := rfl
  requests := rfl
  replied ticket := by simp

theorem requestOf_congr {σ : Type} {h h' : Host σ}
    (hr : h'.calls.map Call.request = h.calls.map Call.request) : h'.requestOf = h.requestOf := by
  unfold requestOf
  rw [hr]

theorem Served.trans (a : h.Served answered h') (b : h'.Served answered' h'') :
    h.Served (answered ++ answered') h'' where
  services := by
    have same : h'.requestOf = h.requestOf := requestOf_congr a.requests
    rw [b.services, a.services, same, List.filterMap_append, Service.serveAll, Service.serveAll,
      Service.serveAll, List.foldl_append]
  accounting := by
    rw [b.accounting, a.accounting, List.length_append, Nat.add_comm, Function.iterate_add_apply]
  requests := b.requests.trans a.requests
  replied ticket := by
    rw [b.replied, a.replied, or_assoc, List.mem_append]

end Host

theorem modify_congr {α : Type} {xs : List α} {i : Nat} {x : α} {f g : α → α}
    (hx : xs[i]? = some x) (h : f x = g x) : xs.modify i f = xs.modify i g := by
  refine List.ext_getElem? fun j => ?_
  rw [List.getElem?_modify, List.getElem?_modify]
  by_cases same : i = j
  · subst same
    simp [hx, h]
  · simp [same]

namespace Host
variable {h : Host Software}

/-- The worker takes the first job that is ready, and brings its tag to the call that waits. -/
structure Brings (h : Host Software) (step : Step Software Job) (ticket : Nat) (c : Call)
    (s : Service) : Prop where
  serves : World.Serves ⟨h, []⟩ ticket c s
  waiting : c.isWaiting = true
  split : s.config.layout.split c.request.buffer.length c.request.length = .ok c.regions
  ready : h.engine.ready h.now = some (.call ticket) :: step.state.ready h.now
  recipient : step.answer.recipient = some (.call ticket)
  done : step.answer.outcome = .done
  carries : step.answer.Carries (c.tagBytes s.key)
  accounting : step.state.accounting = h.engine.accounting.record .jobCompleted
  untroubled : step.state.Untroubled
  running : step.state.paused = false

theorem AtWork.handBack (a : h.AtWork) {step : Step Software Job}
    (hstep : h.engine.handBack h.now = some step) : ∃ ticket c s, h.Brings step ticket c s := by
  obtain ⟨keyed, untroubled, running⟩ := a
  obtain ⟨before, q, after, hqueue, ⟨hready, deferred⟩, hanswer, hstate⟩ :=
    Software.handBack_untroubled untroubled hstep
  have queued : q.job ∈ h.engine.queued := by
    rw [Software.queued, hqueue]
    simp
  have mem : q.job ∈ World.afloat ⟨h, []⟩ :=
    List.mem_append_left _ (List.mem_append_right _ queued)
  obtain ⟨ticket, c, hc, hw, htoken⟩ := mem_waitingTokens.mp (keyed.custody.queued _ queued)
  obtain ⟨hr, -⟩ : q.job.recipient = some (.call ticket) ∧ q.job.id = c.job := Prod.mk.inj htoken
  obtain ⟨s, serves, hsplit⟩ := keyed.calls ticket c hc
  have filled := keyed.filled q.job mem ticket c s hr serves
  have done := filled.process_done keyed.distinct hsplit
  obtain ⟨output, outcome, hprocess, worked⟩ := Software.process_spec h.engine.sessions q.job
  rw [hprocess] at hanswer hstate done
  obtain rfl : outcome = .done := done
  have none : before.filter (·.isReady h.now) = [] :=
    List.filter_eq_nil_iff.mpr fun x hx => by simp [deferred x hx]
  refine ⟨ticket, c, s, serves, hw, hsplit, ?_, ?_, ?_, ?_, ?_, ?_, ?_⟩
  · rw [Software.ready, Software.ready, hstate, hqueue]
    simp [none, hready, hr, Software.record]
  · rw [hanswer]
    exact hr
  · rw [hanswer]
    rfl
  · rw [hanswer]
    exact filled.carries keyed.distinct hsplit worked
  · rw [hstate]
    rfl
  · rw [hstate]
    exact ⟨untroubled.running, untroubled.busy, untroubled.jobs⟩
  · rw [hstate]
    exact running

/-- The worker answers the first recipient, and goes on with the others. -/
theorem AtWork.next (a : h.AtWork) {step : Step Software Job}
    (hstep : h.engine.handBack h.now = some step) :
    let h' := h.handOver Software.engine step
    ∃ first, h.engine.ready h.now = first :: h'.engine.ready h'.now ∧ h.Served [first] h' ∧
      h'.AtWork := by
  obtain ⟨ticket, c, s, brings⟩ := a.handBack hstep
  have hc : h.calls[ticket]? = some c := brings.serves.call
  have notBusy : step.answer.outcome ≠ .busy := by rw [brings.done]; exact nofun
  have handed := handOver_spec (E := Software.engine) brings.recipient hc brings.waiting
    ((a.keyed.custody.slots c (List.mem_of_getElem? hc)).mpr brings.waiting)
  obtain ⟨log, ended⟩ := handed.ended notBusy
  have run : World.Run Software.rules ⟨h, []⟩ ⟨h.handOver Software.engine step, []⟩ :=
    World.run_handOver hstep []
  intro h'
  refine ⟨some (.call ticket), ?_, ⟨?_, ?_, ?_, fun t => ?_⟩, a.keyed.run run, ?_, ?_⟩
  · rw [show h' = _ from ended]
    exact brings.ready
  · have request : h.requestOf (some (.call ticket)) = some c.request := by simp [requestOf, hc]
    rw [show h' = _ from ended]
    simp only [List.filterMap_cons, request, List.filterMap_nil]
    exact modify_congr brings.serves.service (Call.credit_eq_served brings.split brings.carries)
  · rw [show h' = _ from ended]
    exact congrArg (·.record .jobReleased) brings.accounting
  · rw [show h' = _ from ended]
    exact requests_of_set hc rfl
  · rw [show h' = _ from ended, reply?]
    dsimp only
    by_cases same : t = ticket
    · subst same
      simp [List.getElem?_set_self (List.getElem?_eq_some_iff.mp hc).1]
    · simp [List.getElem?_set_ne (Ne.symm same), same, reply?]
  · rw [show h' = _ from ended]
    exact ⟨brings.untroubled.running, brings.untroubled.busy, brings.untroubled.jobs⟩
  · rw [show h' = _ from ended]
    exact brings.running

/-- The worker answers as many jobs as it takes, in the order of the queue. -/
theorem AtWork.deliverNext (n : Nat) (a : h.AtWork) :
    h.Served ((h.engine.ready h.now).take n) (h.deliverNext Software.engine n) := by
  induction n generalizing h with
  | zero => exact .refl
  | succ n ih =>
    cases hs : h.engine.handBack h.now with
    | none =>
      have deferred := Software.handBack_eq_none a.untroubled.running a.running hs
      have empty : h.engine.ready h.now = [] := by
        rw [Software.ready, List.map_eq_nil_iff, List.filter_eq_nil_iff]
        exact fun q hq => by simp [deferred q hq]
      rw [deliverNext_of_none hs, empty]
      exact .refl
    | some step =>
      obtain ⟨first, hready, served, a'⟩ := a.next hs
      rw [deliverNext_succ (E := Software.engine) hs, hready, List.take_succ_cons]
      exact served.trans (ih a')

/-- Before the worker rests, it answers all jobs that are ready. -/
theorem AtWork.drain (a : h.AtWork) :
    h.Served (h.engine.ready h.now) (h.drain Software.engine) := by
  have served := a.deliverNext (Software.engine.backlog h.engine)
  rwa [List.take_of_length_le] at served
  rw [Software.ready, List.length_map]
  refine Nat.le_trans (List.length_filter_le _ _) ?_
  simp only [Software.engine]
  omega

end Host

end PacketAuth
