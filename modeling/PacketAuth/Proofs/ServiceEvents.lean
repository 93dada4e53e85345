import PacketAuth.Proofs.Balance

/-! What services log against what they count. Each count of a service that is logged at all has a
wording of its own; a job that came back busy is in hand, or the log tells what became of it. -/
namespace PacketAuth

/-- The counters whose growth is logged, each with the wording that it is logged under. -/
def Stats.Counter.wording? : Stats.Counter → Option String
  | malformed => some "request rejected"
  | verifiedFail => some "tag mismatch"
  | interrupted => some "wait interrupted"
  | busyRetries => some "engine busy, resubmitting"
  | sessionsCreated => some "lane session opened"
  | sessionFailures => some "lane session creation failed"
  | generated | verifiedOk | engineFailures => none

namespace Event

/-- The counter of a service that goes with an event. -/
def counter? : Event → Option Stats.Counter
  | requestRejected .. => some .malformed
  | tagMismatch .. => some .verifiedFail
  | waitInterrupted .. => some .interrupted
  | resubmitting .. => some .busyRetries
  | laneOpened .. => some .sessionsCreated
  | laneNotOpened .. => some .sessionFailures
  | _ => none

/-- A job came out of the worker busy. -/
def isBusy : Event → Bool
  | jobProcessed _ outcome => outcome = .busy
  | _ => false

/-- How many events of a log have a wording. -/
def logged (text : String) (log : List Event) : Nat := log.countP (·.wording = text)

/-- How many events of a log go with a counter. -/
def tally (c : Stats.Counter) (log : List Event) : Nat := log.countP (·.counter? = some c)

/-- An event that says nothing of a busy job: neither that it came back, nor that it was tried again
or given up. -/
def isIdle : Event → Bool
  | jobProcessed _ outcome => outcome ≠ .busy
  | resubmitting .. | retriesExhausted .. => false
  | _ => true

def Idle (events : List Event) : Prop := ∀ e ∈ events, e.isIdle = true

/-- Idle events that go with no counter either. -/
def Plain (events : List Event) : Prop := Idle events ∧ ∀ e ∈ events, e.counter? = none

/-- Events that go with one count of a service, or with none if its counter is not logged. -/
def Tells (d : Stats.Counter) (events : List Event) : Prop :=
  ∀ c text, c.wording? = some text → tally c events = if d = c then 1 else 0

variable {e : Event} {c d : Stats.Counter} {text : String} {log events more : List Event}

theorem counter?_eq_some : e.counter? = some c ↔ c.wording? = some e.wording := by
  cases e <;> cases c <;> simp [counter?, Stats.Counter.wording?, wording]

/-- A counter is told by its wording. -/
theorem logged_eq_tally (h : c.wording? = some text) : logged text log = tally c log := by
  refine List.countP_congr fun e _ => ?_
  rw [decide_eq_true_iff, decide_eq_true_iff, counter?_eq_some, h, Option.some.injEq, eq_comm]

@[simp] theorem logged_cons :
    logged text (e :: log) = logged text log + if e.wording = text then 1 else 0 := by
  simp [logged, List.countP_cons]

@[simp] theorem tally_cons :
    tally c (e :: log) = tally c log + if e.counter? = some c then 1 else 0 := by
  simp [tally, List.countP_cons]

@[simp] theorem logged_append :
    logged text (events ++ log) = logged text events + logged text log := List.countP_append

@[simp] theorem tally_append : tally c (events ++ log) = tally c events + tally c log :=
  List.countP_append

theorem tally_eq_zero (h : ∀ e ∈ events, e.counter? ≠ some c) : tally c events = 0 :=
  List.countP_eq_zero.mpr fun e he => by simp [h e he]

theorem isIdle_iff : e.isIdle = true ↔
    e.isBusy = false ∧ e.counter? ≠ some .busyRetries ∧ e.wording ≠ "busy retries exhausted" := by
  cases e <;> simp [isIdle, isBusy, counter?, wording]

namespace Idle

theorem singleton (h : e.isIdle = true) : Idle [e] := List.forall_mem_singleton.mpr h

theorem append (h : Idle events) (h' : Idle more) : Idle (events ++ more) :=
  List.forall_mem_append.mpr ⟨h, h'⟩

theorem counts (h : Idle events) :
    events.countP isBusy = 0 ∧ tally .busyRetries events = 0 ∧
      logged "busy retries exhausted" events = 0 :=
  ⟨List.countP_eq_zero.mpr fun e he => by simp [(isIdle_iff.mp (h e he)).1],
    tally_eq_zero fun e he => (isIdle_iff.mp (h e he)).2.1,
    List.countP_eq_zero.mpr fun e he => by simp [(isIdle_iff.mp (h e he)).2.2]⟩

end Idle

namespace Plain

theorem nil : Plain [] := ⟨nofun, nofun⟩

theorem singleton (hi : e.isIdle = true) (hc : e.counter? = none) : Plain [e] :=
  ⟨.singleton hi, List.forall_mem_singleton.mpr hc⟩

theorem append (h : Plain events) (h' : Plain more) : Plain (events ++ more) :=
  ⟨h.1.append h'.1, List.forall_mem_append.mpr ⟨h.2, h'.2⟩⟩

theorem tally_eq_zero (h : Plain events) (c : Stats.Counter) : tally c events = 0 :=
  Event.tally_eq_zero fun e he => by simp [h.2 e he]

end Plain

namespace Tells

theorem event (h : e.counter? = some d) : Tells d [e] := by
  intro c text _
  simp [tally, h]

theorem nothing (h : d.wording? = none) (quiet : ∀ c, tally c events = 0) : Tells d events := by
  intro c text hc
  rw [quiet, if_neg]
  rintro rfl
  rw [h] at hc
  cases hc

theorem append (h : Tells d events) (quiet : ∀ c, tally c more = 0) :
    Tells d (events ++ more) := by
  intro c text hc
  rw [tally_append, quiet, h c text hc, Nat.add_zero]

theorem after (h : Tells d events) (quiet : ∀ c, tally c more = 0) : Tells d (more ++ events) := by
  intro c text hc
  rw [tally_append, quiet, h c text hc, Nat.zero_add]

end Tells
end Event

open Event

theorem Builder.events_plain (b : Builder) : Plain b.events.reverse := by
  obtain h | ⟨lanes, size, offset, h⟩ | ⟨error, h⟩ := b.events_cases <;> rw [h]
  · exact .nil
  · exact .singleton rfl rfl
  · exact .singleton rfl rfl

namespace Call

/-- A call that ends with a count that is logged logs it, and no other. -/
theorem ending_tells (c : Call) (job : Job) :
    Tells (c.ending job).counter (c.ending job).event.toList := by
  cases hv : job.verdict with
  | error f =>
    rw [(c.ending_of_error hv).2]
    refine .nothing rfl fun d => ?_
    by_cases hd : job.outcome = .done <;> simp only [ending, hv, hd, if_true, if_false] <;> rfl
  | ok tag =>
    cases hc : c.request.command with
    | write =>
      rw [ending_of_write hv hc]
      exact .nothing rfl fun _ => rfl
    | read =>
      rw [ending_of_read hv hc]
      split
      · exact .nothing rfl fun _ => rfl
      · exact .event rfl

theorem ending_idle (c : Call) (job : Job) : Idle (c.ending job).event.toList := by
  obtain h | h | h := c.ending_event_cases job <;> rw [h]
  · exact nofun
  · exact .singleton rfl
  · exact .singleton rfl

/-- A call that waits gives up a job exactly if it is busy. -/
theorem exhausted_of_pending {c : Call} {job job' : Job} {exhausted : Bool}
    (hp : c.slot = .pending) (h : c.react job = .settle job' exhausted) :
    exhausted = decide (job.outcome = .busy) := by
  by_cases hb : job.outcome = .busy
  · rw [(settle_of_busy hp hb h).2, decide_eq_true hb]
  · rw [react, if_neg fun busy => hb busy.1] at h
    cases h
    rw [decide_eq_false hb]

end Call

namespace Software

theorem createSession_events (key : AuthKey) (s : Software) :
    (s.createSession key).events =
      match (s.createSession key).answer with
      | .ok handle => [.sessionCreated handle]
      | .error _ => [] := by
  unfold createSession
  split_ifs <;> rfl

theorem acquire_events (s : Software) : s.acquire.events = [] := by
  rw [acquire_def]
  split
  · rfl
  · dsimp only
    split <;> rfl

theorem work_events (job : Job) (s : Software) :
    (work job s).events = [.jobProcessed (work job s).answer.id (work job s).answer.outcome] := by
  obtain ⟨output, outcome, hprocess, -⟩ := process_spec s.sessions job
  unfold work Faults.next
  split_ifs
  · rfl
  · rfl
  · simp only [hprocess]
    rfl

/-- The worker logs the outcome of every job; what an engine drains at its end it does not log. -/
theorem handBack_events {s : Software} {now : Nat} {step : Step Software Job}
    (h : s.handBack now = some step) :
    s.isShutDown = true ∧ step.answer.outcome = .failed Code.shutDown ∧ step.events = [] ∨
      s.isShutDown = false ∧
        step.events = [.jobProcessed step.answer.id step.answer.outcome] := by
  unfold handBack at h
  split at h
  · rename_i shut
    split at h
    · cases h
    · cases h
      exact .inl ⟨shut, rfl, rfl⟩
  · rename_i running
    split at h
    · cases h
    · obtain ⟨⟨job, rest⟩, -, rfl⟩ := Option.map_eq_some_iff.mp h
      exact .inr ⟨eq_false_of_ne_true running, work_events _ _⟩

theorem createSession_plain (key : AuthKey) (s : Software) :
    Plain (s.createSession key).events.reverse := by
  rw [createSession_events]
  split
  · exact .singleton rfl rfl
  · exact .nil

theorem acquire_plain (s : Software) : Plain s.acquire.events.reverse := by
  rw [acquire_events]
  exact .nil

theorem submit_plain (job : Job) (delay now : Nat) (s : Software) :
    Plain (s.submit job delay now).events.reverse := by
  unfold submit
  dsimp only
  split
  · exact .nil
  · exact .singleton rfl rfl

theorem change_plain {s : Software} {step : Step Software Unit} (h : Change s step) :
    Plain step.events.reverse := by
  cases h with
  | stop =>
    obtain ⟨-, -, h⟩ | h := s.stop_cases <;> rw [h]
    · exact .singleton rfl rfl
    · exact .nil
  | _ => exact .nil

theorem cancel_plain (id : JobId) (s : Software) : Plain (s.cancel id).events.reverse := by
  obtain ⟨-, h⟩ | ⟨before, q, after, -, -, h⟩ := s.cancel_cases id <;> rw [h]
  · exact .nil
  · exact .singleton rfl rfl

end Software

/-- Of each busy job the log tells that it was tried again or given up, unless it is in hand. -/
def Pursued (hand : List Job) (log : List Event) : Prop :=
  log.countP isBusy =
    hand.countP (·.outcome = .busy) + tally .busyRetries log + logged "busy retries exhausted" log

namespace Pursued
variable {hand before after : List Job} {log events : List Event} {job : Job}

theorem idle (h : Pursued hand log) (hi : Idle events) : Pursued hand (events ++ log) := by
  obtain ⟨busy, retried, exhausted⟩ := hi.counts
  unfold Pursued at h ⊢
  rw [List.countP_append, tally_append, logged_append, busy, retried, exhausted]
  simpa only [Nat.zero_add] using h

theorem processed (h : Pursued hand log) (id : JobId) (job : Job) :
    Pursued (hand ++ [job]) (.jobProcessed id job.outcome :: log) := by
  unfold Pursued at h ⊢
  by_cases hb : job.outcome = .busy <;>
    simp [isBusy, counter?, wording, hb] at h ⊢ <;>
    omega

theorem drained (h : Pursued hand log) (hb : job.outcome ≠ .busy) :
    Pursued (hand ++ [job]) log := by
  simpa [Pursued, hb] using h

theorem resubmitted (h : Pursued (before ++ job :: after) log) (hb : job.outcome = .busy)
    (id : JobId) (attempt : Nat) : Pursued (before ++ after) (.resubmitting id attempt :: log) := by
  unfold Pursued at h ⊢
  simp [isBusy, counter?, wording, hb] at h ⊢
  omega

theorem exhausted (h : Pursued (before ++ job :: after) log) (hb : job.outcome = .busy)
    (id : JobId) (retries : Nat) :
    Pursued (before ++ after) (.retriesExhausted id retries :: log) := by
  unfold Pursued at h ⊢
  simp [isBusy, counter?, wording, hb] at h ⊢
  omega

theorem passed (h : Pursued (before ++ job :: after) log) (hb : job.outcome ≠ .busy) :
    Pursued (before ++ after) log := by
  simpa [Pursued, List.countP_cons, hb] using h

end Pursued

namespace World
variable {w w' : World Software}

/-- The log tells of each count of a service that is logged at all, and of each busy job. -/
structure Told (w : World Software) : Prop where
  counted : ∀ c text, c.wording? = some text →
    tally c w.host.log = Service.total w.host.services c
  pursued : Pursued w.hand w.host.log

namespace Told
variable {events : List Event}

theorem fresh (capacity : Capacity) : Told (World.fresh capacity) where
  counted c text hc := by cases c <;> rfl
  pursued := rfl

theorem plain (h : Told w)
    (hs : ∀ c, Service.total w'.host.services c = Service.total w.host.services c)
    (hh : w'.hand = w.hand) (hl : w'.host.log = events ++ w.host.log) (hp : Plain events) :
    Told w' where
  counted c text hc := by
    rw [hl, hs, tally_append, hp.tally_eq_zero, Nat.zero_add]
    exact h.counted c text hc
  pursued := by
    rw [hl, hh]
    exact h.pursued.idle hp.1

/-- One service counts once, and the log tells it. -/
theorem tally_modify (h : Told w) {i : Nat} (hi : i < w.host.services.length)
    {f : Service → Service} {d : Stats.Counter} (hf : ∀ s, (f s).stats = s.stats.count d)
    (hs : w'.host.services = w.host.services.modify i f)
    (hl : w'.host.log = events ++ w.host.log) (tells : Tells d events) (c : Stats.Counter)
    (text : String) (hc : c.wording? = some text) :
    tally c w'.host.log = Service.total w'.host.services c := by
  rw [hl, hs, tally_append, Service.total_modify hi hf, tells c text hc, h.counted c text hc,
    Nat.add_comm]

theorem modify (h : Told w) {i : Nat} (hi : i < w.host.services.length)
    {f : Service → Service} {d : Stats.Counter} (hf : ∀ s, (f s).stats = s.stats.count d)
    (hs : w'.host.services = w.host.services.modify i f) (hh : w'.hand = w.hand)
    (hl : w'.host.log = events ++ w.host.log) (tells : Tells d events) (idle : Idle events) :
    Told w' where
  counted := h.tally_modify hi hf hs hl tells
  pursued := by
    rw [hl, hh]
    exact h.pursued.idle idle

/-- As `modify`, for one event among others that go with nothing. -/
theorem modify_cons (h : Told w) {i : Nat} {s : Service} (hi : w.host.services[i]? = some s)
    {f : Service → Service} {e : Event} {d : Stats.Counter} (he : e.counter? = some d)
    (idle : e.isIdle = true) (hf : ∀ s, (f s).stats = s.stats.count d)
    (hs : w'.host.services = w.host.services.modify i f) (hh : w'.hand = w.hand)
    (hl : w'.host.log = e :: (events ++ w.host.log)) (hp : Plain events) : Told w' := by
  have grown : w'.host.log = [e] ++ events ++ w.host.log := hl
  exact h.modify (List.getElem?_eq_some_iff.mp hi).1 hf hs hh grown
    ((Tells.event he).append hp.tally_eq_zero) ((Idle.singleton idle).append hp.1)

theorem taken (h : Told w) {now : Nat} {step : PacketAuth.Step Software Job}
    (hstep : w.host.engine.handBack now = some step) (hs : w'.host.services = w.host.services)
    (hh : w'.hand = w.hand ++ [step.answer])
    (hl : w'.host.log = step.events.reverse ++ w.host.log) : Told w' := by
  obtain ⟨-, failed, hevents⟩ | ⟨-, hevents⟩ := Software.handBack_events hstep <;>
    rw [hevents] at hl
  · refine ⟨?_, ?_⟩
    · rw [hl, hs]
      exact h.counted
    · rw [hl, hh]
      exact h.pursued.drained (by simp [failed])
  · refine ⟨fun c text hc => ?_, ?_⟩
    · rw [hl, hs, ← h.counted c text hc]
      simp [counter?]
    · rw [hl, hh]
      exact h.pursued.processed step.answer.id step.answer

theorem passed {host host' : Host Software} {before after : List Job} {job : Job}
    (h : Told ⟨host, before ++ job :: after⟩) (p : Prompt ⟨host, before ++ job :: after⟩)
    (s : Settlement Software.engine host job host') : Told ⟨host', before ++ after⟩ := by
  have mem : job ∈ before ++ job :: after := List.mem_append_right before List.mem_cons_self
  -- each job in hand is waited for, so it is tried again or ends its call
  cases s with
  | strayed handedBack hj =>
    obtain ⟨ticket, c, hr, hc, -⟩ := p.call_of_hand mem
    have := hj ticket hr
    rw [hc] at this
    cases this
  | @resubmitted ticket c hj hc hb ha hr submitted hq =>
    subst hq
    have plain := Software.submit_plain job.rearm c.retry.backoff host.now host.engine
    exact ⟨h.tally_modify (p.served c (List.mem_of_getElem? hc)) (fun _ => rfl) rfl
        (List.append_cons _ _ _) ((Tells.event rfl).after plain.tally_eq_zero),
      (h.pursued.resubmitted hb _ _).idle plain.1⟩
  | @finished job' ticket c exhausted hj hc hw hp hr =>
    refine ⟨h.tally_modify (p.served c (List.mem_of_getElem? hc)) (c.credit_stats job') rfl
      (List.append_assoc _ _ _).symm ((c.ending_tells job').append fun d => ?_), ?_⟩
    · cases exhausted <;> rfl
    · refine Pursued.idle ?_ (c.ending_idle job')
      by_cases hb : job.outcome = .busy <;>
        simp only [Call.exhausted_of_pending hp hr, hb, decide_true, decide_false, if_true]
      · exact h.pursued.exhausted hb _ _
      · exact h.pursued.passed hb
  | stranded hj hc hw hp hr =>
    have waiting := (p.custody.slots _ (List.mem_of_getElem? hc)).mp hp
    rw [waiting] at hw
    cases hw
  | refused hj hc hp hr => exact absurd (p.slot_of_hand mem hj hc) hp

theorem effect (h : Told w) (p : Prompt w) (e : Effect Software.promptRules w w') : Told w' := by
  cases e with
  | aside => exact h.plain (fun _ => rfl) rfl rfl .nil
  | changed _ hchange => exact h.plain (fun _ => rfl) rfl rfl (Software.change_plain hchange)
  | @installed _ b s hb =>
    refine h.plain (fun c => ?_) rfl rfl b.events_plain
    obtain ⟨-, key, rfl⟩ := build_ok hb
    cases c <;> simp [Service.total_append, Service.create, Stats.get]
  | @misconfigured _ b => exact h.plain (fun _ => rfl) rfl rfl b.events_plain
  | dropped _ i =>
    exact h.plain (fun c => Service.total_modify_of_same _ i fun _ => rfl) rfl rfl .nil
  | @opened _ i s l lane handle hs =>
    exact h.modify_cons hs (d := .sessionsCreated) rfl rfl (fun _ => rfl) rfl rfl rfl
      (Software.createSession_plain s.key w.host.engine)
  | @notOpened _ i s l lane error hs =>
    exact h.modify_cons hs (d := .sessionFailures) rfl rfl (fun _ => rfl) rfl rfl rfl
      (Software.createSession_plain s.key w.host.engine)
  | rejected _ hs =>
    exact h.modify_cons hs (d := .malformed) rfl rfl (fun _ => rfl) rfl rfl rfl .nil
  | starved _ hs ha =>
    have plain := w.host.engine.acquire_plain
    exact h.modify (List.getElem?_eq_some_iff.mp hs).1 (d := .engineFailures) (fun _ => rfl) rfl rfl
      rfl (.nothing rfl plain.tally_eq_zero) plain.1
  | @admitted _ s r lane regions session job hs hl hr ho ha submitted hq =>
    subst hq
    exact h.plain (fun _ => rfl) rfl (List.append_assoc _ _ _).symm
      ((Software.submit_plain _ _ _ _).append w.host.engine.acquire_plain)
  | taken _ hstep => exact h.taken hstep rfl rfl rfl
  | passed host before after s => exact h.passed p s
  | collected _ hl hc hw hp =>
    have pending := (p.custody.slots _ (List.mem_of_getElem? hc)).mpr hw
    rw [pending] at hp
    cases hp
  | @left _ ticket c reason hl hc hw hp =>
    have plain := Software.cancel_plain c.job w.host.engine
    exact h.modify (p.served c (List.mem_of_getElem? hc)) (fun _ => rfl) rfl rfl
      (List.append_cons _ _ _) ((Tells.event rfl).after plain.tally_eq_zero)
      (plain.1.append (.singleton rfl))

theorem effects (h : Told w) (p : Prompt w) (b : w.ledger.Balanced)
    (e : Effects Software.promptRules w w') : Told w' := by
  induction e with
  | refl => exact h
  | tail earlier effect ih => exact ih.effect (p.effects b earlier).1 effect

end Told
end World
end PacketAuth
