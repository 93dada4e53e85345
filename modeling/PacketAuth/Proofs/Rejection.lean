import PacketAuth.Proofs.Intact
import PacketAuth.Proofs.LengthOverflow

/-! Malformed requests. Its lane, its length and its buffer alone decide whether a request is turned
away, and nothing but one count and the log tells of it afterwards. -/
namespace PacketAuth

namespace Request

/-- The request names a lane that is not there. -/
def OffLanes (r : Request) (c : Config) : Prop := c.laneCount ≤ r.lane.index.toNat

/-- The request is too short to hold a tag, or longer than its buffer. -/
def IllSized (r : Request) (l : Layout) : Prop :=
  r.length < l.prefixLength + Tag.size ∨ r.buffer.length < r.length

def Malformed (r : Request) (c : Config) : Prop := r.OffLanes c ∨ r.IllSized c.layout

instance (r : Request) (c : Config) : Decidable (r.OffLanes c) :=
  inferInstanceAs (Decidable (_ ≤ _))

instance (r : Request) (l : Layout) : Decidable (r.IllSized l) :=
  inferInstanceAs (Decidable (_ ∨ _))

instance (r : Request) (c : Config) : Decidable (r.Malformed c) :=
  inferInstanceAs (Decidable (_ ∨ _))

end Request

namespace Reply

def FailsAs (reply : Reply) (kind : FailureKind) : Prop :=
  ∃ f, reply.result = .error f ∧ f.kind = kind

/-- A reply blames the form of its request if and only if there is something wrong with it, and the
lane before the size. -/
structure JudgesForm (reply : Reply) (c : Config) (r : Request) : Prop where
  lane : reply.FailsAs .invalidLane ↔ r.OffLanes c
  size : reply.FailsAs .malformedRequest ↔ ¬ r.OffLanes c ∧ r.IllSized c.layout
  status : reply.status = .malformedRequest ↔ r.Malformed c

theorem status_eq_malformedRequest (reply : Reply) :
    reply.status = .malformedRequest ↔
      reply.FailsAs .invalidLane ∨ reply.FailsAs .malformedRequest := by
  obtain ⟨result, buffer⟩ := reply
  cases result with
  | ok => simp [FailsAs, status, Status.ofResult]
  | error f => cases hk : f.kind <;> simp [FailsAs, status, Status.ofResult, Status.ofFailure, hk]

theorem failsAs_failed (r : Request) (f : Failure) (kind : FailureKind) :
    (Reply.failed r f).FailsAs kind ↔ f.kind = kind := by
  simp [FailsAs, failed]

theorem JudgesForm.of_kinds {reply : Reply} {c : Config} {r : Request}
    (lane : reply.FailsAs .invalidLane ↔ r.OffLanes c)
    (size : reply.FailsAs .malformedRequest ↔ ¬ r.OffLanes c ∧ r.IllSized c.layout) :
    reply.JudgesForm c r where
  lane := lane
  size := size
  status := by
    rw [status_eq_malformedRequest, lane, size, Request.Malformed]
    tauto

/-- A reply to a well-formed request may have any other reason to fail. -/
theorem JudgesForm.of_sound {reply : Reply} {c : Config} {r : Request} (h : ¬ r.Malformed c)
    (lane : ¬ reply.FailsAs .invalidLane) (size : ¬ reply.FailsAs .malformedRequest) :
    reply.JudgesForm c r :=
  .of_kinds ⟨fun fails => absurd fails lane, fun off => absurd (.inl off) h⟩
    ⟨fun fails => absurd fails size, fun ill => absurd (.inr ill.2) h⟩

end Reply

theorem Call.Answer.not_form {c : Call} {tag : List UInt8} {reply : Reply}
    (h : c.Answer tag reply) :
    ¬ reply.FailsAs .invalidLane ∧ ¬ reply.FailsAs .malformedRequest := by
  cases h with
  | failed hk =>
    simp only [Reply.failsAs_failed]
    rcases hk with ⟨code, hk⟩ | hk <;> rw [hk] <;> exact ⟨nofun, nofun⟩
  | mismatched =>
    simp only [Reply.failsAs_failed]
    exact ⟨nofun, nofun⟩
  | verified | written => exact ⟨nofun, nofun⟩

namespace Service

/-- A service has as many lanes as its settings say. -/
def Laned (s : Service) : Prop := s.lanes.length = s.config.laneCount

theorem laned_of_build {b : Builder} {adding : Addition} {s : Service}
    (h : b.build adding = .ok s) : s.Laned := by
  obtain ⟨valid, key, rfl⟩ := World.build_ok h
  obtain ⟨-, few, -⟩ := (b.config.validate_eq_ok adding).mp valid
  rw [Laned, create, freshLanes_length, Nat.min_eq_left few]

theorem Laned.credit {s : Service} (h : s.Laned) (c : Call) (job : Job) :
    (c.credit job s).Laned := by
  unfold Call.credit
  dsimp only
  cases (c.ending job).cached with
  | none => exact h
  | some tag => exact (updateLane_length _ _ _).trans h

end Service

theorem Layout.split_cases (l : Layout) (r : Request) :
    (∃ f, l.split r.buffer.length r.length = .error f ∧ f.kind = .malformedRequest ∧
        r.IllSized l) ∨
      ∃ regions, l.split r.buffer.length r.length = .ok regions ∧ ¬ r.IllSized l := by
  unfold Request.IllSized
  by_cases short : r.length < l.prefixLength + Tag.size
  · exact .inl ⟨_, if_pos short, rfl, .inl short⟩
  · by_cases long : r.buffer.length < r.length
    · exact .inl ⟨_, (if_neg short).trans (if_pos long), rfl, .inr long⟩
    · exact .inr ⟨_, split_eq_ok (Nat.not_lt.mp short) (Nat.not_lt.mp long),
        not_or.mpr ⟨short, long⟩⟩

namespace Service

/-- A request is prepared, or blamed for its lane, or else for its size. -/
theorem Laned.prepare_cases {s : Service} (h : s.Laned) (r : Request) :
    (∃ f, s.prepare r = .error f ∧ f.kind = .invalidLane ∧ r.OffLanes s.config) ∨
      (∃ f, s.prepare r = .error f ∧ f.kind = .malformedRequest ∧ ¬ r.OffLanes s.config ∧
        r.IllSized s.config.layout) ∨
      ∃ lane regions, s.prepare r = .ok (lane, regions) ∧ ¬ r.Malformed s.config := by
  have named : r.OffLanes s.config ↔ s.lanes[r.lane.index.toNat]? = none := by
    rw [Request.OffLanes, ← show _ = s.config.laneCount from h, List.getElem?_eq_none_iff]
  unfold prepare lane
  cases hl : s.lanes[r.lane.index.toNat]? with
  | none => exact .inl ⟨_, rfl, rfl, named.mpr hl⟩
  | some lane =>
    have there : ¬ r.OffLanes s.config := by
      rw [named, hl]
      exact nofun
    rcases s.config.layout.split_cases r with ⟨f, split, kind, ill⟩ | ⟨regions, split, fits⟩
    · rw [split]
      exact .inr (.inl ⟨f, rfl, kind, there, ill⟩)
    · rw [split]
      exact .inr (.inr ⟨lane, regions, rfl, not_or.mpr ⟨there, fits⟩⟩)

theorem Laned.prepare_error_adding_iff {s : Service} (h : s.Laned) (adding : Addition)
    (r : Request) :
    (∃ f, s.prepare r adding = .error f) ↔
      r.OffLanes s.config ∨ r.length < s.config.layout.minLength adding ∨
        r.buffer.length < r.length := by
  have named : r.OffLanes s.config ↔ s.lanes[r.lane.index.toNat]? = none := by
    rw [Request.OffLanes, ← show _ = s.config.laneCount from h, List.getElem?_eq_none_iff]
  unfold prepare lane
  cases hl : s.lanes[r.lane.index.toNat]? with
  | none => exact iff_of_true ⟨_, rfl⟩ (.inl (named.mpr hl))
  | some lane =>
    have there : ¬ r.OffLanes s.config := by
      rw [named, hl]
      exact nofun
    rw [or_iff_right there]
    cases split : s.config.layout.split r.buffer.length r.length adding with
    | error f =>
      refine iff_of_true ⟨f, rfl⟩ (by_contra fun fits => ?_)
      obtain ⟨long, room⟩ := not_or.mp fits
      rw [Layout.split_eq_ok_iff.mpr ⟨Nat.le_of_not_lt long, Nat.le_of_not_lt room, rfl⟩] at split
      cases split
    | ok regions =>
      obtain ⟨long, room, -⟩ := Layout.split_eq_ok_iff.mp split
      exact iff_of_false nofun
        (not_or.mpr ⟨Nat.not_lt_of_le long, Nat.not_lt_of_le room⟩)

theorem Laned.prepare_error_iff {s : Service} (h : s.Laned) (r : Request) :
    (∃ f, s.prepare r = .error f) ↔ r.Malformed s.config :=
  h.prepare_error_adding_iff .checked r

theorem Laned.prepare_ok_iff {s : Service} (h : s.Laned) (r : Request) :
    (∃ lane regions, s.prepare r = .ok (lane, regions)) ↔ ¬ r.Malformed s.config := by
  rw [← h.prepare_error_iff]
  cases s.prepare r with
  | error f => simp
  | ok prepared => exact iff_of_true ⟨prepared.1, prepared.2, rfl⟩ (by simp)

/-- How a service judges requests by their form, in a build that adds lengths in the given way. It
is as it should be, unless the build wraps the length of the shortest request around. -/
structure Screens (s : Service) (adding : Addition) : Prop where
  form : ∀ r : Request, (∃ f, s.prepare r adding = .error f) ↔
    r.OffLanes s.config ∨ r.length < s.config.layout.minLength adding ∨ r.buffer.length < r.length
  counted : s.config.layout.IsCounted → ∀ r, s.prepare r adding = s.prepare r
  sound : (∀ r : Request, (∃ f, s.prepare r adding = .error f) ↔ r.Malformed s.config) ↔
    adding = .checked ∨ s.config.layout.IsCounted

/-- Where the length of the shortest request wraps around, a request of what is left of it is let
through. -/
theorem screens_of_build {b : Builder} {adding : Addition} {s : Service}
    (h : b.build adding = .ok s) : s.Screens adding := by
  have laned := laned_of_build h
  obtain ⟨valid, key, rfl⟩ := World.build_ok h
  have counted (c : b.config.layout.IsCounted) (r : Request) :
      (create b.config key).prepare r adding = (create b.config key).prepare r := by
    obtain ⟨-, -, -, layout⟩ := (b.config.validate_eq_ok adding).mp valid
    rw [Layout.validate_eq adding c] at layout
    exact prepare_eq adding layout c r
  refine ⟨laned.prepare_error_adding_iff adding, counted, fun sound => ?_, fun fine r => ?_⟩
  · cases adding with
    | checked => exact .inl rfl
    | wrapping =>
      refine .inr (by_contra fun overflows => ?_)
      have short := Layout.minLength_wrapping_lt overflows
      let r : Request :=
        ⟨0, ⟨0⟩, .read, List.replicate (b.config.layout.minLength .wrapping) 0,
          b.config.layout.minLength .wrapping, none⟩
      have rejected := (laned.prepare_error_adding_iff .wrapping r).mp
        ((sound r).mpr (.inr (.inl short)))
      obtain ⟨lanes, -⟩ := (b.config.validate_eq_ok .wrapping).mp valid
      rcases rejected with off | less | long
      · exact Nat.not_le_of_lt lanes off
      · exact Nat.lt_irrefl _ less
      · exact Nat.lt_irrefl _ (List.length_replicate ▸ long)
  · rw [← laned.prepare_error_iff r]
    rcases fine with rfl | c
    · rfl
    · rw [counted c r]

end Service

/-- A call that ends was not malformed. -/
theorem Call.credit_malformed (c : Call) (job : Job) (s : Service) :
    (c.credit job s).stats.malformed = s.stats.malformed := by
  refine credit_get (d := .malformed) ?_ s
  rcases c.ending_counter job with h | h | h | h <;> rw [h] <;> decide

namespace Host
variable {σ : Type} {E : Engine σ} {h h' : Host σ}

/-- A host after a request was turned away: its service counted that and it was logged, and nothing
else changed. -/
structure TurnedAway (r : Request) (f : Failure) (h h' : Host σ) : Prop where
  engine : h'.engine = h.engine
  calls : h'.calls = h.calls
  interrupts : h'.interrupts = h.interrupts
  handedBack : h'.handedBack = h.handedBack
  now : h'.now = h.now
  isHeld : h'.isHeld = h.isHeld
  log : h'.log = .requestRejected r.lane r.length f :: h.log
  length : h'.services.length = h.services.length
  service : ∀ (i : Nat) (s : Service), h.services[i]? = some s →
    ∃ s', h'.services[i]? = some s' ∧ s'.lanes = s.lanes ∧ s'.key = s.key ∧
      s'.config = s.config ∧ s'.isHeld = s.isHeld ∧
      ∀ c, s'.stats.get c = s.stats.get c + if i = r.service ∧ c = .malformed then 1 else 0

theorem enter_of_error {s : Service} {r : Request} {f : Failure} (hp : s.prepare r = .error f)
    (h : Host σ) :
    ∃ h', h.enter E s r = (.error f, h') ∧ h.perform E s r = (some (.failed r f), h') ∧
      h.TurnedAway r f h' := by
  have entered : h.enter E s r =
      (.error f, (h.count r.service .malformed).emit (.requestRejected r.lane r.length f)) := by
    rw [enter, hp]
  refine ⟨_, entered, by rw [perform, start, entered], rfl, rfl, rfl, rfl, rfl, rfl, rfl, ?_, ?_⟩
  · exact List.length_modify _ _ _
  · intro i t ht
    dsimp only [emit, count, updateService]
    rw [List.getElem?_modify, ht]
    by_cases own : r.service = i
    · refine ⟨_, congrArg some (if_pos own), rfl, rfl, rfl, rfl, fun c => ?_⟩
      rw [Service.count, Stats.get_count]
      exact congrArg _ (if_congr (by rw [eq_comm, and_iff_right own.symm]) rfl rfl)
    · refine ⟨_, congrArg some (if_neg own), rfl, rfl, rfl, rfl, fun c => ?_⟩
      rw [if_neg fun both => own both.1.symm]
      rfl

/-- How many malformed requests a service has had. -/
def malformed (i : Nat) (h : Host σ) : Option Nat := h.services[i]?.map fun s => s.stats.malformed

theorem malformed_modify {j : Nat} (f : Service → Service)
    (hs : h'.services = h.services.modify j f)
    (hf : ∀ s, (f s).stats.malformed = s.stats.malformed) (i : Nat) :
    h'.malformed i = h.malformed i := by
  rw [malformed, malformed, hs, List.getElem?_modify]
  cases h.services[i]? with
  | none => rfl
  | some s =>
    refine congrArg some ?_
    dsimp only
    split
    · exact hf s
    · rfl

theorem look_malformed (ticket : Nat) (h : Host σ) (i : Nat) :
    (h.look E ticket).malformed i = h.malformed i := by
  rw [look]
  split
  · rfl
  · split
    · dsimp only
      split
      · rfl
      · rw [finish_eq]
        exact malformed_modify _ rfl (Call.credit_malformed _ _) i
      · rw [leave_eq]
        exact malformed_modify (·.count .interrupted) rfl (fun _ => rfl) i
    · rfl

theorem deliver_malformed (job : Job) (h : Host σ) (i : Nat) :
    (h.deliver E job).malformed i = h.malformed i := by
  have settled := World.settlement_deliver E h job
  generalize h.deliver E job = h' at settled ⊢
  cases settled with
  | strayed | stranded | refused => rfl
  | resubmitted => exact malformed_modify (·.count .busyRetries) rfl (fun _ => rfl) i
  | finished => exact malformed_modify _ rfl (Call.credit_malformed _ _) i

theorem deliverNext_malformed (n : Nat) (h : Host σ) (i : Nat) :
    (h.deliverNext E n).malformed i = h.malformed i := by
  induction n generalizing h with
  | zero => rfl
  | succ n ih =>
    rw [deliverNext]
    split
    · rfl
    · exact (ih _).trans (deliver_malformed _ _ i)

theorem drain_malformed (h : Host σ) (i : Nat) : (h.drain E).malformed i = h.malformed i :=
  deliverNext_malformed _ h i

theorem advance_malformed (instant : Nat) (h : Host σ) (i : Nat) :
    (h.advance E instant).malformed i = h.malformed i := by
  have looks (tickets : List Nat) (h : Host σ) :
      (tickets.foldl (fun h ticket => h.look E ticket) h).malformed i = h.malformed i := by
    induction tickets generalizing h with
    | nil => rfl
    | cons ticket tickets ih => exact (ih _).trans (look_malformed ticket h i)
  have closed (h : Host σ) : (h.closeUnused E).malformed i = h.malformed i := by
    rw [closeUnused]
    split
    · rfl
    · exact drain_malformed _ i
  rw [advance, closed, looks, drain_malformed]
  rfl

theorem passUntil_malformed (done : Host σ → Bool) (limit : Option Nat) (n : Nat) (h : Host σ)
    (i : Nat) : (h.passUntil E done limit n).malformed i = h.malformed i := by
  induction n generalizing h with
  | zero => rfl
  | succ n ih =>
    rw [passUntil]
    split
    · rfl
    · split
      · rfl
      · split
        · rfl
        · exact (ih _).trans (advance_malformed _ h i)

theorem openSession_malformed (j : Nat) (key : AuthKey) (lane : Lane) (h : Host σ) (i : Nat) :
    (h.openSession E j key lane).2.malformed i = h.malformed i := by
  rw [openSession]
  split
  · rfl
  · dsimp only [onEngine]
    split <;> rename_i answer _ heq <;> obtain ⟨-, rfl⟩ := Prod.mk.inj heq
    · refine Eq.trans (malformed_modify (·.count .sessionsCreated) rfl (fun _ => rfl) i) ?_
      exact malformed_modify (·.updateLane lane.id fun l => { l with session := some answer }) rfl
        (fun _ => rfl) i
    · exact malformed_modify (·.count .sessionFailures) rfl (fun _ => rfl) i

/-- A request that is not turned away for its form does not count as malformed. -/
theorem enter_malformed {s : Service} {r : Request} {lane : Lane} {regions : Regions}
    (hp : s.prepare r = .ok (lane, regions)) (h : Host σ) (i : Nat) :
    (h.enter E s r).2.malformed i = h.malformed i := by
  have opened := openSession_malformed (E := E) r.service s.key lane h i
  rw [enter, hp]
  dsimp only
  split
  · rename_i ho
    rwa [ho] at opened
  · rename_i ho
    rw [ho] at opened
    dsimp only [onEngine]
    split <;> rename_i heq <;> obtain ⟨-, rfl⟩ := Prod.mk.inj heq
    · exact (malformed_modify (·.count .engineFailures) rfl (fun _ => rfl) i).trans opened
    · rw [submitJob_eq]
      exact opened

theorem perform_malformed {s : Service} {r : Request} {lane : Lane} {regions : Regions}
    (hp : s.prepare r = .ok (lane, regions)) (h : Host σ) (i : Nat) :
    (h.perform E s r).2.malformed i = h.malformed i := by
  have entered := enter_malformed (E := E) hp h i
  rw [perform, start]
  cases he : h.enter E s r with
  | mk answer h' =>
    rw [he] at entered
    cases answer with
    | error f => exact entered
    | ok ticket =>
      refine (passUntil_malformed _ none _ _ i).trans ?_
      exact (look_malformed ticket _ i).trans ((drain_malformed h' i).trans entered)

end Host

namespace World
variable {σ : Type} {R : Rules σ} {E : Engine σ} {w w' : World σ} {s : Service} {r : Request}

theorem laned_effect (h : ∀ s ∈ w.host.services, s.Laned) (e : Effect R w w') :
    ∀ s ∈ w'.host.services, s.Laned := by
  have credited : ∀ (i : Nat) (c : Call) (job : Job),
      ∀ s ∈ w.host.services.modify i (c.credit job), s.Laned :=
    fun i c job => forall_mem_modify h fun s _ hs => hs.credit c job
  cases e with
  | aside | misconfigured | changed | admitted | taken => exact h
  | installed _ hb =>
    intro s hs
    rcases List.mem_append.mp hs with hs | hs
    · exact h s hs
    · rw [List.mem_singleton.mp hs]
      exact Service.laned_of_build hb
  | opened => exact forall_mem_modify h fun s _ hs => (Service.updateLane_length _ _ _).trans hs
  | dropped | notOpened | rejected | starved | left => exact forall_mem_modify h fun s _ hs => hs
  | passed host before after s =>
    cases s with
    | strayed | stranded | refused => exact h
    | resubmitted => exact forall_mem_modify h fun s _ hs => hs
    | finished => exact credited _ _ _
  | collected => exact credited _ _ _

theorem laned_of_run {s₀ : σ} (reach : Run R ⟨{ engine := s₀ }, []⟩ w) :
    ∀ s ∈ w.host.services, s.Laned := by
  have along {v : World σ} (e : Effects R ⟨{ engine := s₀ }, []⟩ v) :
      ∀ s ∈ v.host.services, s.Laned := by
    induction e with
    | refl => exact nofun
    | tail _ effect ih => exact laned_effect ih effect
  exact along (Run.effects reach)

/-- A turn that is not the entering of a malformed request counts none. -/
theorem Next.malformed (laned : ∀ s ∈ w.host.services, s.Laned) (next : Next R w w') :
    (∃ s r, w.host.services[r.service]? = some s ∧ r.Malformed s.config ∧
        w' = ⟨(w.host.enter R.engine s r).2, w.hand⟩) ∨
      ∀ i n, w.host.malformed i = some n → w'.host.malformed i = some n := by
  cases next with
  | install _ b =>
    refine .inr fun i n hn => ?_
    rw [Host.install]
    split
    · exact hn
    · obtain ⟨s, hs, hm⟩ := Option.map_eq_some_iff.mp hn
      rw [Host.malformed, List.getElem?_append_left (List.getElem?_eq_some_iff.mp hs).1, hs, ← hm]
      rfl
  | ensureSession _ hs l =>
    refine .inr fun i n hn => ?_
    rw [Host.ensureSession]
    split
    · exact hn
    · exact (Host.openSession_malformed _ _ _ _ i).trans hn
  | @enter _ s r hs =>
    by_cases bad : r.Malformed s.config
    · exact .inl ⟨s, r, hs, bad, rfl⟩
    · obtain ⟨lane, regions, hp⟩ := ((laned s (List.mem_of_getElem? hs)).prepare_ok_iff r).mpr bad
      exact .inr fun i n hn => (Host.enter_malformed hp _ i).trans hn
  | deliver h before job after =>
    exact .inr fun i n hn => (Host.deliver_malformed job h i).trans hn
  | look _ hl => exact .inr fun i n hn => (Host.look_malformed _ _ i).trans hn
  | dropService _ j =>
    exact .inr fun i n hn =>
      (Host.malformed_modify ({ · with isHeld := false }) rfl (fun _ => rfl) i).trans hn
  | take | pass | trigger | reset | change => exact .inr fun i n hn => hn

/-- A request that fails on the spot fails for its form, or for lack of a session or of a job. -/
theorem judged_of_error (laned : s.Laned) {h h' : Host σ} {f : Failure}
    (he : h.enter E s r = (.error f, h')) : (Reply.failed r f).JudgesForm s.config r := by
  rcases laned.prepare_cases r with
    ⟨f', hp, kind, off⟩ | ⟨f', hp, kind, there, ill⟩ | ⟨lane, regions, hp, sound⟩
  · rw [Host.enter, hp] at he
    cases (Prod.mk.inj he).1
    refine .of_kinds ?_ ?_ <;> rw [Reply.failsAs_failed, kind]
    · exact iff_of_true rfl off
    · simp [off]
  · rw [Host.enter, hp] at he
    cases (Prod.mk.inj he).1
    refine .of_kinds ?_ ?_ <;> rw [Reply.failsAs_failed, kind]
    · simp [there]
    · exact iff_of_true rfl ⟨there, ill⟩
  · refine .of_sound sound ?_ ?_ <;> rw [Reply.failsAs_failed] <;>
      rcases Host.enter_error_of_prepared hp he with kind | kind <;> simp [kind]

/-- A request that was let in is well-formed, and its call is answered by the engine or left. -/
theorem judged_of_entered (laned : s.Laned) (answered : Answered w)
    (hs : w.host.services[r.service]? = some s) {ticket : Nat} {h' : Host σ}
    (he : w.host.enter E s r = (.ok ticket, h')) {v : World σ}
    (run : Run (unruly E) ⟨h', w.hand⟩ v) {reply : Reply}
    (hr : v.host.reply? ticket = some reply) : reply.JudgesForm s.config r := by
  have sound : ¬ r.Malformed s.config := by
    obtain ⟨lane, regions, -, -, -, hp, -⟩ := Host.enter_ok he
    exact (laned.prepare_ok_iff r).mp ⟨lane, regions, hp⟩
  have entered : Run (unruly E) w ⟨h', w.hand⟩ := entered_run (R := unruly E) .refl hs he
  obtain ⟨c, hc, hreply⟩ := Option.bind_eq_some_iff.mp hr
  obtain ⟨tag, answer⟩ := (answered.effects (Run.effects (entered.trans run))).replies c
    (List.mem_of_getElem? hc) reply hreply
  exact .of_sound sound answer.not_form.1 answer.not_form.2

theorem judged_of_performed (laned : s.Laned) (answered : Answered w) (held : w.host.isHeld = true)
    (hs : w.host.services[r.service]? = some s) {reply : Reply} {h' : Host σ}
    (hp : w.host.perform E s r = (some reply, h')) : reply.JudgesForm s.config r := by
  cases he : w.host.enter E s r with
  | mk answer entered =>
    cases answer with
    | error f =>
      rw [Host.perform, Host.start, he] at hp
      obtain rfl : Reply.failed r f = reply := Option.some.inj (Prod.mk.inj hp).1
      exact judged_of_error laned he
    | ok ticket =>
      have still := (Run.isHeld (entered_run (R := unruly E) .refl hs he)).trans held
      have looks : ∀ h ticket, (unruly E).mayLook ⟨h, w.hand⟩ ticket := fun _ _ => trivial
      obtain ⟨run, hreply⟩ := run_performed (R := unruly E) looks he still
      rw [show (unruly E).engine = E from rfl, hp] at run hreply
      exact judged_of_entered laned answered hs he run hreply.symm

theorem judged_of_ensured (laned : s.Laned) {i : Nat} {l : LaneId} {f : Failure} {h h' : Host σ}
    (he : h.ensureSession E i s l = (.error f, h')) :
    (f.kind = .invalidLane ↔ s.config.laneCount ≤ l.index.toNat) ∧
      f.kind ≠ .malformedRequest := by
  rw [Host.ensureSession, Service.lane] at he
  cases hl : s.lanes[l.index.toNat]? with
  | none =>
    rw [hl] at he
    cases (Prod.mk.inj he).1
    have beyond : s.config.laneCount ≤ l.index.toNat := laned ▸ List.getElem?_eq_none_iff.mp hl
    simp [beyond]
  | some lane =>
    rw [hl] at he
    have there : l.index.toNat < s.config.laneCount := laned ▸ (List.getElem?_eq_some_iff.mp hl).1
    simp [Host.openSession_error he, there]

/-- On every engine, in every state and for every lane, length and buffer, a request to a service is
turned away if and only if its lane is not there or, with a lane, its length is too short for a tag
or too long for its buffer. It then has its reply at once, and the engine, the lanes and all that
the caller passed are as they were; only one count tells of it. No other request has such a reply,
at once or later on, and none counts as malformed. This is what a build with overflow checks does; a
build without them does so for just the services whose shortest request has a length that can be
counted. -/
theorem requests_are_judged_by_form {s₀ : σ} (reach : Run (unruly E) ⟨{ engine := s₀ }, []⟩ w)
    (hs : w.host.services[r.service]? = some s) :
    (r.Malformed s.config →
      ∃ f h', w.host.enter E s r = (.error f, h') ∧
        w.host.perform E s r = (some (.failed r f), h') ∧ w.host.TurnedAway r f h' ∧
        (Reply.failed r f).JudgesForm s.config r ∧ (Reply.failed r f).buffer = r.buffer ∧
        (Reply.failed r f).length r.length = r.length) ∧
    (∀ f h', w.host.enter E s r = (.error f, h') → (Reply.failed r f).JudgesForm s.config r) ∧
    (∀ ticket h', w.host.enter E s r = (.ok ticket, h') →
      ∀ v, Run (unruly E) ⟨h', w.hand⟩ v → ∀ reply, v.host.reply? ticket = some reply →
        reply.JudgesForm s.config r) ∧
    (∀ reply h', w.host.perform E s r = (some reply, h') → reply.JudgesForm s.config r) ∧
    (∀ i l f h', w.host.ensureSession E i s l = (.error f, h') →
      (f.kind = .invalidLane ↔ s.config.laneCount ≤ l.index.toNat) ∧
        f.kind ≠ .malformedRequest) ∧
    (¬ r.Malformed s.config → ∀ i,
      (w.host.enter E s r).2.malformed i = w.host.malformed i ∧
        (w.host.perform E s r).2.malformed i = w.host.malformed i) ∧
    (∀ w', Next (unruly E) w w' →
      (∃ s r, w.host.services[r.service]? = some s ∧ r.Malformed s.config ∧
        w' = ⟨(w.host.enter E s r).2, w.hand⟩) ∨
      ∀ i n, w.host.malformed i = some n → w'.host.malformed i = some n) ∧
    ∀ (b : Builder) (adding : Addition) (s : Service), b.build adding = .ok s →
      s.Screens adding := by
  have laned := laned_of_run reach
  have answered : Answered w := Answered.effects ⟨by simp, by simp⟩ (Run.effects reach)
  have own := laned s (List.mem_of_getElem? hs)
  refine ⟨fun malformed => ?_, fun f h' he => judged_of_error own he,
    fun ticket h' he v run reply hr => judged_of_entered own answered hs he run hr,
    fun reply h' hp => judged_of_performed own answered (Run.isHeld reach) hs hp,
    fun i l f h' he => judged_of_ensured own he, fun sound i => ?_,
    fun w' next => next.malformed laned, fun b adding s => Service.screens_of_build⟩
  · obtain ⟨f, hp⟩ := (own.prepare_error_iff r).mpr malformed
    obtain ⟨h', he, performed, away⟩ := Host.enter_of_error (E := E) hp w.host
    have judged := judged_of_error own he
    refine ⟨f, h', he, performed, away, judged, rfl, ?_⟩
    rw [(spares_of_error s.config.layout he).length, if_neg]
    rw [judged.status.mpr malformed]
    exact nofun
  · obtain ⟨lane, regions, hp⟩ := (own.prepare_ok_iff r).mpr sound
    exact ⟨Host.enter_malformed hp w.host i, Host.perform_malformed hp w.host i⟩

/-- One byte too few for a tag, then just enough: the first request is turned away before the engine
hears of it, the other one is not. -/
theorem short_request_is_turned_away :
    ∃ (w : World Scripted) (s : Service) (r : Request) (f : Failure) (h' : Host Scripted),
      Run (unruly Scripted.engine) ⟨{ engine := {} }, []⟩ w ∧ w.host.services[0]? = some s ∧
      r.length = 19 ∧ w.host.enter Scripted.engine s r = (.error f, h') ∧
      f.kind = .malformedRequest ∧ h'.engine = w.host.engine ∧ h'.malformed 0 = some 1 ∧
      ∀ reply h'', w.host.perform Scripted.engine s { r with length := 20 } = (some reply, h'') →
        reply.status ≠ .malformedRequest := by
  let b : Builder := { key := some (.ofSeed 1) }
  let s : Service := .create {} (.ofSeed 1)
  let w : World Scripted := ⟨((⟨{ engine := {} }, []⟩ : World Scripted).host.install b).2, []⟩
  let r : Request := ⟨0, ⟨14⟩, .write, List.replicate 20 0, 19, none⟩
  have reach : Run (unruly Scripted.engine) ⟨{ engine := {} }, []⟩ w := .single (.install _ b)
  have services : w.host.services[0]? = some s := rfl
  have lanes : ¬ r.OffLanes s.config := by decide
  have short : r.IllSized s.config.layout := by decide
  have fits : ¬ ({ r with length := 20 } : Request).Malformed s.config := by decide
  obtain ⟨rejected, -⟩ := requests_are_judged_by_form reach (r := r) services
  obtain ⟨-, -, -, performed, -⟩ :=
    requests_are_judged_by_form reach (r := { r with length := 20 }) services
  obtain ⟨f, h', he, -, away, judged, -⟩ := rejected (.inr short)
  obtain ⟨s', hs', -, -, -, -, counts⟩ := away.service 0 s services
  have counted := counts .malformed
  rw [if_pos ⟨rfl, rfl⟩] at counted
  refine ⟨w, s, r, f, h', reach, services, rfl, he,
    (Reply.failsAs_failed r f _).mp (judged.size.mpr ⟨lanes, short⟩), away.engine, ?_,
    fun reply h'' hp status => fits ((performed reply h'' hp).status.mp status)⟩
  rw [Host.malformed, hs']
  exact congrArg some counted

/-- A prefix that all but fills a machine word, and a request that is shorter. -/
def overlong : Builder :=
  { key := some (.ofSeed 1), config := { layout := ⟨UInt64.size - 11, 0⟩ } }

def shortRequest : Request := ⟨0, ⟨0⟩, .write, List.replicate 20 0, 20, none⟩

theorem exists_admitted :
    ∃ (s : Service) (lane : Lane) (regions : Regions),
      overlong.build .wrapping = .ok s ∧ s.config = overlong.config ∧
        s.prepare shortRequest .wrapping = .ok (lane, regions) := by
  let s : Service := .create overlong.config (.ofSeed 1)
  have accepted : overlong.config.validate .wrapping = .ok () := by decide +kernel
  have built : overlong.build .wrapping = .ok s := congrArg (Except.map fun _ => s) accepted
  have let_through : ¬ (shortRequest.OffLanes s.config ∨
      shortRequest.length < s.config.layout.minLength .wrapping ∨
        shortRequest.buffer.length < shortRequest.length) := by
    decide +kernel
  cases hp : s.prepare shortRequest .wrapping with
  | error f =>
    exact absurd (((Service.screens_of_build built).form shortRequest).mp ⟨f, hp⟩) let_through
  | ok prepared => exact ⟨s, _, _, built, rfl, hp⟩

/-- A build without overflow checks counts five bytes to the shortest request, and lets one of
twenty bytes through. -/
theorem wrapped_length_admits_short_request :
    ∃ (s : Service) (lane : Lane) (regions : Regions),
      overlong.build .wrapping = .ok s ∧ s.config.layout.minLength .wrapping = 5 ∧
        shortRequest.Malformed s.config ∧
        s.prepare shortRequest .wrapping = .ok (lane, regions) := by
  obtain ⟨s, lane, regions, built, config, hp⟩ := exists_admitted
  refine ⟨s, lane, regions, built, ?_, ?_, hp⟩ <;> rw [config] <;> decide +kernel

end World
end PacketAuth
