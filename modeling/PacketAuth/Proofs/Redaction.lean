import PacketAuth.Proofs.TagCache

/-! Data with the keys, the tags and the bytes of all buffers blanked out: lengths, ids, handles,
outcomes and results are left. A service decides by what is left, and prints nothing else, except
where it compares a tag. -/
namespace PacketAuth

section Lists
variable {α β : Type} {f : α → β} {xs ys : List α} {x : α} {i : Nat}

theorem eq_error_of_map_eq {ε : Type} {x y : Except ε α} {e : ε} (h : x.map f = y.map f)
    (hx : x = .error e) : y = .error e := by
  cases y with
  | error e' => simpa [hx, Except.map] using h.symm
  | ok b => simp [hx, Except.map] at h

theorem exists_ok_of_map_eq {ε : Type} {x y : Except ε α} {a : α} (h : x.map f = y.map f)
    (hx : x = .ok a) : ∃ b, y = .ok b ∧ f a = f b := by
  cases y with
  | error e => simp [hx, Except.map] at h
  | ok b => exact ⟨b, rfl, by simpa [hx, Except.map] using h⟩

theorem eq_none_of_map_eq {x y : Option α} (h : x.map f = y.map f) (hx : x = none) : y = none := by
  simpa [hx] using h.symm

theorem exists_some_of_map_eq {x y : Option α} {a : α} (h : x.map f = y.map f) (hx : x = some a) :
    ∃ b, y = some b ∧ f a = f b := by
  cases y with
  | none => simp [hx] at h
  | some b => exact ⟨b, rfl, by simpa [hx] using h⟩

theorem getElem?_eq_none_of_map_eq (h : xs.map f = ys.map f) (hx : xs[i]? = none) :
    ys[i]? = none := by
  have entry := congrArg (·[i]?) h
  simp only [List.getElem?_map] at entry
  exact eq_none_of_map_eq entry hx

theorem exists_getElem?_of_map_eq (h : xs.map f = ys.map f) (hx : xs[i]? = some x) :
    ∃ y, ys[i]? = some y ∧ f x = f y := by
  have entry := congrArg (·[i]?) h
  simp only [List.getElem?_map] at entry
  exact exists_some_of_map_eq entry hx

theorem eq_of_getElem?_set_self {y : α} (h : (xs.set i x)[i]? = some y) : x = y := by
  rw [List.getElem?_set, if_pos rfl] at h
  split at h
  · exact Option.some.inj h
  · cases h

theorem map_modify_congr {g g' : α → α} (h : xs.map f = ys.map f)
    (hg : ∀ x y, f x = f y → f (g x) = f (g' y)) (i : Nat) :
    (xs.modify i g).map f = (ys.modify i g').map f := by
  apply List.ext_getElem?
  intro j
  rw [List.getElem?_map, List.getElem?_map, List.getElem?_modify, List.getElem?_modify]
  cases hx : xs[j]? with
  | none =>
    rw [getElem?_eq_none_of_map_eq h hx]
    rfl
  | some x =>
    obtain ⟨y, hy, same⟩ := exists_getElem?_of_map_eq h hx
    rw [hy]
    by_cases here : i = j
    · simp [here, hg x y same]
    · simp [here, same]

end Lists

/-- As many zeros as there are bytes. -/
def blanked (bytes : List UInt8) : List UInt8 := List.replicate bytes.length 0

theorem blanked_congr {bytes bytes' : List UInt8} :
    blanked bytes = blanked bytes' ↔ bytes.length = bytes'.length := by
  simp [blanked, List.replicate_inj]

def AuthKey.blank : AuthKey := ⟨List.replicate 32 0, rfl⟩

def Descriptor.redact (d : Descriptor) : Descriptor := { d with key := .blank }

def Job.redact (j : Job) : Job :=
  { j with
    descriptor := j.descriptor.map Descriptor.redact
    input := blanked j.input
    output := blanked j.output }

def Slot.redact : Slot → Slot
  | .completed job => .completed job.redact
  | slot => slot

def Request.redact (r : Request) : Request := { r with buffer := blanked r.buffer }

def Reply.redact (r : Reply) : Reply := { r with buffer := blanked r.buffer }

def Call.redact (c : Call) : Call :=
  { c with
    request := c.request.redact
    slot := c.slot.redact
    reply := c.reply.map Reply.redact }

def Lane.redact (l : Lane) : Lane := { l with cachedTag := .zero }

def Service.redact (s : Service) : Service :=
  { s with key := .blank, lanes := s.lanes.map Lane.redact }

def Builder.redact (b : Builder) : Builder := { b with key := b.key.map fun _ => .blank }

namespace Job
variable {j j' : Job}

theorem redact_eq_iff : j.redact = j'.redact ↔
    j.id = j'.id ∧ j.descriptor.map Descriptor.redact = j'.descriptor.map Descriptor.redact ∧
      j.input.length = j'.input.length ∧ j.output.length = j'.output.length ∧
      j.outcome = j'.outcome ∧ j.retries = j'.retries ∧ j.recipient = j'.recipient := by
  simp [redact, blanked_congr]

theorem redact_rearm (h : j.redact = j'.redact) : j.rearm.redact = j'.rearm.redact := by
  simp only [redact_eq_iff, rearm] at h ⊢
  simp [h]

theorem redact_complete (h : j.redact = j'.redact) (o : Outcome) :
    (j.complete o).redact = (j'.complete o).redact := by
  simp only [redact_eq_iff, complete] at h ⊢
  simp [h]

/-- The text of a job shows its lengths, not its bytes, and nothing of the key. -/
theorem inspect_redact (j : Job) : j.redact.inspect = j.inspect := by
  have descriptor : (j.redact.descriptor.map Descriptor.inspect) =
      j.descriptor.map Descriptor.inspect := by
    rw [redact, Option.map_map]
    rfl
  rw [inspect, descriptor, inspect]
  simp [redact, blanked]

end Job

namespace Request
variable {r r' : Request}

theorem redact_eq_iff : r.redact = r'.redact ↔
    r.service = r'.service ∧ r.lane = r'.lane ∧ r.command = r'.command ∧
      r.buffer.length = r'.buffer.length ∧ r.length = r'.length ∧ r.interrupt = r'.interrupt := by
  simp [redact, blanked_congr]

end Request

namespace Call
variable {c c' : Call}

theorem redact_eq_iff : c.redact = c'.redact ↔
    c.request.redact = c'.request.redact ∧ c.regions = c'.regions ∧ c.retry = c'.retry ∧
      c.job = c'.job ∧ c.deadline = c'.deadline ∧ c.slot.redact = c'.slot.redact ∧
      c.reply.map Reply.redact = c'.reply.map Reply.redact := by
  simp [redact]

theorem slot_redact (hc : c.redact = c'.redact) {s s' : Slot} (hs : s.redact = s'.redact) :
    ({ c with slot := s } : Call).redact = ({ c' with slot := s' } : Call).redact := by
  rw [redact_eq_iff] at hc ⊢
  exact ⟨hc.1, hc.2.1, hc.2.2.1, hc.2.2.2.1, hc.2.2.2.2.1, hs, hc.2.2.2.2.2.2⟩

theorem reply_redact (hc : c.redact = c'.redact) {reply reply' : Reply}
    (hr : reply.redact = reply'.redact) :
    ({ c with reply := some reply } : Call).redact =
      ({ c' with reply := some reply' } : Call).redact := by
  rw [redact_eq_iff] at hc ⊢
  exact ⟨hc.1, hc.2.1, hc.2.2.1, hc.2.2.2.1, hc.2.2.2.2.1, hc.2.2.2.2.2.1, congrArg some hr⟩

theorem isWaiting_redact (c : Call) : c.redact.isWaiting = c.isWaiting := by
  simp [isWaiting, redact]

end Call

namespace Lane
variable {l l' : Lane}

theorem redact_eq_iff : l.redact = l'.redact ↔ l.id = l'.id ∧ l.session = l'.session := by
  simp [redact]

end Lane

namespace Service
variable {s s' : Service} {r r' : Request}

theorem redact_eq_iff : s.redact = s'.redact ↔
    s.config = s'.config ∧ s.lanes.map Lane.redact = s'.lanes.map Lane.redact ∧
      s.stats = s'.stats ∧ s.isHeld = s'.isHeld := by
  simp [redact]

theorem lane_redact (s : Service) (l : LaneId) :
    s.redact.lane l = (s.lane l).map Lane.redact := by
  have length : s.redact.lanes.length = s.lanes.length := List.length_map ..
  rw [Service.lane, length, redact, List.getElem?_map, Service.lane]
  cases s.lanes[l.index.toNat]? <;> rfl

/-- A request is prepared by its lane and its lengths. -/
theorem prepare_redact (s : Service) (r : Request) :
    s.redact.prepare r.redact = (s.prepare r).map (Prod.map Lane.redact id) := by
  have split : s.redact.config.layout.split r.redact.buffer.length r.redact.length =
      s.config.layout.split r.buffer.length r.length := by
    simp [redact, Request.redact, blanked]
  unfold prepare
  rw [split, show r.redact.lane = r.lane from rfl, lane_redact]
  cases s.lane r.lane with
  | error f => rfl
  | ok lane => cases s.config.layout.split r.buffer.length r.length <;> rfl

theorem prepare_congr (hs : s.redact = s'.redact) (hr : r.redact = r'.redact) :
    (s.prepare r).map (Prod.map Lane.redact id) = (s'.prepare r').map (Prod.map Lane.redact id) := by
  rw [← prepare_redact, hs, hr, prepare_redact]

theorem updateLane_redact {f g : Lane → Lane} (h : ∀ l l', l.redact = l'.redact →
    (f l).redact = (g l').redact) (hs : s.redact = s'.redact) (id : LaneId) :
    (s.updateLane id f).redact = (s'.updateLane id g).redact := by
  rw [redact_eq_iff] at hs ⊢
  exact ⟨hs.1, map_modify_congr hs.2.1 h _, hs.2.2⟩

theorem count_redact (hs : s.redact = s'.redact) (k : Stats.Counter) :
    (s.count k).redact = (s'.count k).redact := by
  rw [redact_eq_iff] at hs ⊢
  simp [count, hs]

/-- The text of a service shows nothing of its key. -/
theorem inspect_redact (s : Service) : s.redact.inspect = s.inspect := by
  simp [inspect, redact, AuthKey.inspect]

end Service

namespace Builder

/-- A service is built by its settings; of the key it only matters that there is one. -/
theorem build_redact (b : Builder) : b.redact.build = b.build.map Service.redact := by
  have fresh (n : Nat) : (Service.freshLanes n).map Lane.redact = Service.freshLanes n := by
    simp [Service.freshLanes, Lane.redact]
  unfold build redact
  cases b.key with
  | none => rfl
  | some key =>
    cases b.config.validate <;> simp [Except.map, Service.create, Service.redact, fresh]

theorem events_redact (b : Builder) : b.redact.events = b.events := by
  unfold events
  rw [build_redact]
  cases b.build with
  | ok s => rfl
  | error e => rfl

theorem inspect_redact (b : Builder) : b.redact.inspect = b.inspect := by
  simp [inspect, redact]

end Builder

theorem Region.length_write (r : Region) (bytes buffer : List UInt8) :
    (r.write bytes buffer).length =
      min r.start buffer.length + (bytes.length + (buffer.length - r.stop)) := by
  simp [write]

theorem Regions.maskedPayload_length_congr (r : Regions) {b b' : List UInt8}
    (h : b.length = b'.length) : (r.maskedPayload b).length = (r.maskedPayload b').length := by
  have payload : (r.payload.read b).length = (r.payload.read b').length := by
    simp [Region.read, h]
  unfold maskedPayload
  dsimp only
  split
  · rw [Region.length_write, Region.length_write, payload]
  · exact payload

namespace Request
variable {s s' : Service} {r r' : Request} {job job' : Job}

theorem fill_redact (hr : r.redact = r'.redact) (hj : job.redact = job'.redact) (regions : Regions)
    (session : SessionHandle) (ticket : Nat) :
    (r.fill s regions session ticket job).redact =
      (r'.fill s' regions session ticket job').redact := by
  rw [redact_eq_iff] at hr
  rw [Job.redact_eq_iff] at hj ⊢
  simp [fill, Descriptor.redact, hj, regions.maskedPayload_length_congr hr.2.2.2.1]

theorem call_redact (hs : s.redact = s'.redact) (hr : r.redact = r'.redact)
    (hj : job.redact = job'.redact) (regions : Regions) (now : Nat) :
    (r.call s regions job now).redact = (r'.call s' regions job' now).redact := by
  rw [Service.redact_eq_iff] at hs
  rw [Job.redact_eq_iff] at hj
  rw [Call.redact_eq_iff]
  simp [call, hs, hr, hj]

end Request

namespace Job
variable {j j' : Job}

/-- Whether a job carries a tag, and what it failed with. -/
theorem verdict_redact (j : Job) :
    j.redact.verdict.map (fun _ => ()) = j.verdict.map fun _ => () := by
  have inject : (j.redact.descriptor.map Descriptor.inject).getD 0 =
      (j.descriptor.map Descriptor.inject).getD 0 := by
    rw [redact, Option.map_map]
    rfl
  have head (n : Nat) : (Tag.ofHead? (j.redact.output.drop n)).isSome =
      (Tag.ofHead? (j.output.drop n)).isSome := by
    simp [Tag.ofHead?, redact, blanked, apply_dite Option.isSome]
  unfold verdict
  rw [inject, show j.redact.outcome = j.outcome from rfl]
  generalize (j.descriptor.map Descriptor.inject).getD 0 = n
  have same := head n
  cases j.outcome with
  | done =>
    cases h : Tag.ofHead? (j.output.drop n) <;> cases h' : Tag.ofHead? (j.redact.output.drop n) <;>
      simp_all [Except.map]
  | pending | busy | failed => rfl

theorem verdict_congr (h : j.redact = j'.redact) :
    (j.verdict.map fun _ => ()) = j'.verdict.map fun _ => () := by
  rw [← verdict_redact, h, verdict_redact]

end Job

def Reaction.redact : Reaction → Reaction
  | .resubmit job => .resubmit job.redact
  | .settle job exhausted => .settle job.redact exhausted

namespace Slot

theorem isAbandoned_redact (s : Slot) : s.redact.isAbandoned = s.isAbandoned := by
  cases s <;> rfl

/-- Alike slots hold alike jobs, or they are the same. -/
theorem redact_eq {s s' : Slot} (h : s.redact = s'.redact) :
    (∃ job job', s = .completed job ∧ s' = .completed job' ∧ job.redact = job'.redact) ∨
      s = s' ∧ ∀ job, s ≠ .completed job := by
  cases s <;> cases s' <;> simp_all [redact]

theorem inspect_redact (s : Slot) : s.redact.inspect = s.inspect := by
  cases s <;> rfl

end Slot

namespace Call
variable {c c' : Call} {job job' : Job}

theorem react_redact (hc : c.redact = c'.redact) (hj : job.redact = job'.redact) :
    (c.react job).redact = (c'.react job').redact := by
  obtain ⟨-, -, retry, -, -, slot, -⟩ := redact_eq_iff.mp hc
  have abandoned : c.slot.isAbandoned = c'.slot.isAbandoned := by
    rw [← Slot.isAbandoned_redact, slot, Slot.isAbandoned_redact]
  obtain ⟨-, -, -, -, outcome, retries, -⟩ := Job.redact_eq_iff.mp hj
  unfold react
  rw [outcome, abandoned, retry, retries]
  split
  · split
    · simp [Reaction.redact, Job.redact_rearm hj]
    · simp [Reaction.redact, Job.redact_complete hj]
  · simp [Reaction.redact, hj]

/-- What a read that gets a tag decides by comparing it. -/
def decision (c : Call) (job : Job) : Option Bool :=
  (c.compares job).map fun tag => tag.agrees (c.regions.tag.read c.request.buffer)

/-- If both calls decide anything, they decide the same. -/
def Agree (c : Call) (job : Job) (c' : Call) (job' : Job) : Prop :=
  ∀ d ∈ c.decision job, ∀ d' ∈ c'.decision job', d = d'

/-- Calls that agree end alike but for tags. -/
theorem ending_redact (hc : c.redact = c'.redact) (hj : job.redact = job'.redact)
    (hd : c.Agree job c' job') :
    (c.ending job).reply.redact = (c'.ending job').reply.redact ∧
      (c.ending job).counter = (c'.ending job').counter ∧
      (c.ending job).event = (c'.ending job').event := by
  obtain ⟨request, regions, -⟩ := redact_eq_iff.mp hc
  obtain ⟨-, lane, command, buffer, length, -⟩ := Request.redact_eq_iff.mp request
  obtain ⟨id, -, -, -, outcome, -⟩ := Job.redact_eq_iff.mp hj
  have verdict := Job.verdict_congr hj
  cases hv : job.verdict with
  | error f =>
    cases hv' : job'.verdict with
    | error f' =>
      obtain rfl : f = f' := by simpa [Except.map, hv, hv'] using verdict
      have replies : (Reply.failed c.request f).redact = (Reply.failed c'.request f).redact := by
        simp [Reply.redact, Reply.failed, blanked_congr, buffer]
      simp [ending, hv, hv', replies, lane, id, outcome]
    | ok tag' => simp [Except.map, hv, hv'] at verdict
  | ok tag =>
    cases hv' : job'.verdict with
    | error f' => simp [Except.map, hv, hv'] at verdict
    | ok tag' =>
      cases hcommand : c.request.command with
      | write =>
        rw [ending_of_write hv hcommand, ending_of_write hv' (command.symm.trans hcommand)]
        simp [Reply.redact, blanked_congr, Region.length_write, regions, buffer]
      | read =>
        have decided : tag.agrees (c.regions.tag.read c.request.buffer) =
            tag'.agrees (c'.regions.tag.read c'.request.buffer) := by
          refine hd _ ?_ _ ?_
          · simp [decision, compares, hcommand, hv, Except.toOption]
          · simp [decision, compares, command.symm.trans hcommand, hv', Except.toOption]
        rw [ending_of_read hv hcommand, ending_of_read hv' (command.symm.trans hcommand), decided]
        split
        · simp [Reply.redact, blanked_congr, buffer]
        · simp [Reply.redact, Reply.failed, blanked_congr, buffer, lane, length]

/-- The tag that a call leaves in its lane does not show. -/
theorem credit_redact {s s' : Service} (hc : c.redact = c'.redact) (hj : job.redact = job'.redact)
    (hd : c.Agree job c' job') (hs : s.redact = s'.redact) :
    (c.credit job s).redact = (c'.credit job' s').redact := by
  have untagged (c : Call) (job : Job) (s : Service) :
      (c.credit job s).redact = (s.count (c.ending job).counter).redact := by
    unfold credit
    dsimp only
    cases (c.ending job).cached with
    | none => rfl
    | some tag =>
      refine Service.count_redact ?_ _
      rw [Service.redact_eq_iff]
      refine ⟨rfl, ?_, rfl, rfl⟩
      have same : (s.lanes.modify c.request.lane.index.toNat fun l =>
          { l with cachedTag := tag }).map Lane.redact =
            (s.lanes.modify c.request.lane.index.toNat id).map Lane.redact := by
        apply map_modify_congr rfl
        intro l l' h
        exact h
      rwa [List.modify_id] at same
  rw [untagged, untagged, (ending_redact hc hj hd).2.1]
  exact Service.count_redact hs _

end Call

end PacketAuth
