import PacketAuth.Proofs.Entry
import PacketAuth.Proofs.Undisturbed

/-! The tag that a service writes, and the one it asks for, is the head of the keyed digest of what
the layout authenticates. -/
namespace PacketAuth

/-- The tag of a request under the key of a service. -/
def Service.tagOf (s : Service) (r : Request) : List UInt8 :=
  (Hmac.mac s.key.bytes (s.config.layout.authenticated r.buffer r.length)).take Tag.size

theorem Service.tagOf_length (s : Service) (r : Request) : (s.tagOf r).length = Tag.size := by
  simp [Service.tagOf, Tag.size]

namespace Call
variable {c : Call} {s : Service}

theorem tagBytes_of_split
    (hl : s.config.layout.split c.request.buffer.length c.request.length = .ok c.regions) :
    c.tagBytes s.key = s.tagOf c.request := by
  rw [tagBytes, Layout.maskedPayload_of_split hl, Service.tagOf]

theorem wire_of_split
    (hl : s.config.layout.split c.request.buffer.length c.request.length = .ok c.regions) :
    c.regions.tag.read c.request.buffer =
      (c.request.buffer.drop s.config.layout.tagOffset).take Tag.size := by
  obtain ⟨-, -, hregions⟩ := Layout.split_ok hl
  rw [hregions, Region.read, Region.length, Nat.add_sub_cancel_left]

end Call

/-- A reply that follows the tag of its request. -/
structure Reply.Follows (reply : Reply) (s : Service) (r : Request) : Prop where
  written : r.command = .write → reply.PassedEngine →
    reply = ⟨.ok (), r.buffer.take s.config.layout.tagOffset ++ s.tagOf r ++
        r.buffer.drop (s.config.layout.tagOffset + Tag.size)⟩ ∧
      reply.buffer.length = r.buffer.length
  verified : r.command = .read → reply.PassedEngine →
    (r.buffer.drop s.config.layout.tagOffset).take Tag.size = s.tagOf r → reply = ⟨.ok (), r.buffer⟩
  refused : r.command = .read → reply.PassedEngine →
    (r.buffer.drop s.config.layout.tagOffset).take Tag.size ≠ s.tagOf r →
      reply = .failed r ⟨.authenticationMismatch, some r.lane.text⟩

/-- A request that failed before it had a tag follows it trivially. -/
theorem Reply.Follows.of_failed {s : Service} {r : Request} {f : Failure}
    (hf : f.kind ≠ .authenticationMismatch) : (Reply.failed r f).Follows s r := by
  have stopped : ¬ (Reply.failed r f).PassedEngine := hf
  exact ⟨fun _ passed => absurd passed stopped, fun _ passed => absurd passed stopped,
    fun _ passed => absurd passed stopped⟩

theorem Call.Answer.follows {c : Call} {reply : Reply} {s : Service}
    (hv : s.config.layout.validate = .ok ())
    (hl : s.config.layout.split c.request.buffer.length c.request.length = .ok c.regions)
    (h : c.Answer (c.tagBytes s.key) reply) : reply.Follows s c.request := by
  obtain ⟨hmin, hfit, hregions⟩ := Layout.split_ok hl
  have hread := Call.wire_of_split hl
  rw [Call.tagBytes_of_split hl] at h
  cases h with
  | failed hf =>
    refine .of_failed ?_
    rcases hf with ⟨code, hf⟩ | hf <;> rw [hf] <;> exact FailureKind.noConfusion
  | written hc =>
    have fits : c.regions.tag.Fits c.request.buffer.length := by
      have := (Layout.validate_eq_ok.mp hv).1
      rw [hregions]
      constructor <;> dsimp only <;> omega
    refine ⟨fun _ _ => ⟨?_, ?_⟩, fun hread => ?_, fun hread => ?_⟩
    · rw [hregions, Region.write]
    · refine Region.write_length fits ?_
      rw [s.tagOf_length, hregions, Region.length, Nat.add_sub_cancel_left]
    · rw [hc] at hread
      cases hread
    · rw [hc] at hread
      cases hread
  | verified hc ht =>
    rw [hread] at ht
    refine ⟨fun hwrite => ?_, fun _ _ _ => rfl, fun _ _ differs => absurd ht differs⟩
    rw [hc] at hwrite
    cases hwrite
  | mismatched hc ht =>
    rw [hread] at ht
    refine ⟨fun hwrite => ?_, fun _ _ same => absurd same ht, fun _ _ _ => rfl⟩
    rw [hc] at hwrite
    cases hwrite

theorem Reply.Follows.persists {reply : Reply} {s s' : Service} {r : Request}
    (h : reply.Follows s' r) (p : s.Persists s') : reply.Follows s r := by
  have htag : s'.tagOf r = s.tagOf r := by rw [Service.tagOf, p.key, p.config, Service.tagOf]
  have hoffset : s'.config.layout = s.config.layout := by rw [p.config]
  obtain ⟨written, verified, refused⟩ := h
  rw [htag, hoffset] at written verified refused
  exact ⟨written, verified, refused⟩

namespace World

theorem Keyed.follows {w : World Software} (h : Keyed w) {ticket : Nat} {c : Call} {s : Service}
    {reply : Reply} (hs : w.Serves ticket c s) (hr : c.reply = some reply) :
    reply.Follows s c.request := by
  obtain ⟨s', serves, hsplit⟩ := h.calls ticket c hs.call
  obtain rfl : s' = s := Option.some.inj (serves.service.symm.trans hs.service)
  have sound := h.services s' (List.mem_of_getElem? hs.service)
  exact (h.answered ticket c s' hs reply hr).follows sound.layout hsplit

variable {w v : World Software} {s : Service} {r : Request} {ticket : Nat} {h' : Host Software}

/-- Whatever happens after a request was let in, its reply follows its tag. -/
theorem follows_of_entered (keyed : Keyed w) (hs : w.host.services[r.service]? = some s)
    (he : w.host.enter Software.engine s r = (.ok ticket, h'))
    (e : Effects Software.rules ⟨h', w.hand⟩ v) {reply : Reply}
    (hr : v.host.reply? ticket = some reply) : reply.Follows s r := by
  have entered : Effects Software.rules w ⟨h', w.hand⟩ :=
    Run.effects (entered_run (R := Software.rules) .refl hs he)
  obtain ⟨lane, regions, session, opened, job, -, -, -, rfl, hcalls, -, -⟩ := Host.enter_ok he
  have hget : h'.calls[w.host.calls.length]? = some (r.call s regions job w.host.now) := by
    rw [hcalls]
    simp
  obtain ⟨c, hc, kept⟩ := e.persists.call _ _ hget
  obtain ⟨s', hs', same⟩ := (Effects.persists (entered.trans e)).service _ s hs
  have hreply : c.reply = some reply := by simpa [Host.reply?, hc] using hr
  have hrequest : c.request = r := kept.request
  have serves : v.Serves w.host.calls.length c s' := ⟨hc, by rw [hrequest]; exact hs'⟩
  rw [← hrequest]
  exact ((keyed.effects (entered.trans e)).follows serves hreply).persists same

/-- A request starts undisturbed if no fault is pending. -/
theorem undisturbed_of_entered (keyed : Keyed w) (hu : w.host.engine.Untroubled)
    (hs : w.host.services[r.service]? = some s)
    (he : w.host.enter Software.engine s r = (.ok ticket, h')) :
    Undisturbed ⟨h', w.hand⟩ ticket ∧ h'.engine.paused = w.host.engine.paused := by
  have keyed' : Keyed ⟨h', w.hand⟩ := keyed.run (entered_run (R := Software.rules) .refl hs he)
  obtain ⟨lane, regions, session, opened, job, -, ho, ha, rfl, hcalls, -, hengine⟩ :=
    Host.enter_ok he
  have hopened : opened.engine.Untroubled ∧ opened.engine.queue = w.host.engine.queue ∧
      opened.engine.paused = w.host.engine.paused := by
    have := Host.openSession_engine (E := Software.engine) r.service s.key lane w.host
    rw [ho] at this
    rcases this with same | created
    · dsimp only at same
      rw [same]
      exact ⟨hu, rfl, rfl⟩
    · dsimp only at created
      rw [created]
      exact ⟨Software.createSession_untroubled hu _, (Software.createSession_frame _ _).1,
        Software.createSession_paused _ _⟩
  obtain ⟨hopen, hqueue, hpaused⟩ := hopened
  have acquired := Software.acquire_untroubled hopen
  have elsewhere : ∀ j ∈ w.afloat, j.recipient ≠ some (.call w.host.calls.length) :=
    fun _ => keyed.custody.recipient_ne_new
  refine ⟨⟨keyed', ?_, ?_, fun q hq hr => ?_, fun j hj hr => ?_, fun reply hreply => ?_⟩, ?_⟩
  · rw [hengine]
    exact Software.submit_untroubled acquired _ _ _
  · rw [hcalls]
    simp
  · rw [hengine] at hq
    rcases List.mem_append.mp (Software.queue_of_submit hq) with hq | hq
    · have old : q ∈ opened.engine.acquire.state.queue := hq
      rw [Software.acquire_queue, hqueue] at old
      exact absurd hr (elsewhere _ (List.mem_append_left _ (List.mem_append_right _
        (List.mem_map_of_mem old))))
    · rw [List.mem_singleton.mp hq]
      rfl
  · exact absurd hr (elsewhere j (List.mem_append_right _ hj))
  · rw [Host.reply?, hcalls] at hreply
    simp [Request.call] at hreply
  · rw [hengine]
    exact (Software.submit_paused _ _ _ _).trans
      ((Software.acquire_paused opened.engine).trans hpaused)

/-- A well-formed request is let in, if its lane has a session or can get one and a job is free. -/
theorem entered_of_free (hlane : r.lane.index.toNat < s.lanes.length)
    (hmin : s.config.layout.prefixLength + Tag.size ≤ r.length)
    (hfit : r.length ≤ r.buffer.length)
    (hjobs : w.host.engine.pool.outstanding < w.host.engine.capacity.jobs)
    (hsession : (s.lanes[r.lane.index.toNat]).session.isSome = true ∨
      w.host.engine.isShutDown = false ∧ w.host.engine.faults.sessions = 0 ∧
        w.host.engine.sessions.length < w.host.engine.capacity.sessions) :
    ∃ ticket h', w.host.enter Software.engine s r = (.ok ticket, h') := by
  have hprepare : s.prepare r = .ok (s.lanes[r.lane.index.toNat],
      ⟨⟨s.config.layout.tagOffset, s.config.layout.tagOffset + Tag.size⟩,
        ⟨s.config.layout.prefixLength, r.length⟩⟩) := by
    rw [Service.prepare, Service.lane, List.getElem?_eq_getElem hlane,
      Layout.split_eq_ok hmin hfit]
    rfl
  have free : ∀ e : Software, e.pool.outstanding < e.capacity.jobs →
      ∃ job, e.acquire.answer = some job := by
    intro e hfree
    refine Option.ne_none_iff_exists'.mp fun hnone => ?_
    exact absurd ((Software.acquire_eq_none_iff e).mp hnone) (Nat.not_le.mpr hfree)
  cases hopen : (s.lanes[r.lane.index.toNat]).session with
  | some session =>
    obtain ⟨job, ha⟩ := free w.host.engine hjobs
    have ho : w.host.openSession Software.engine r.service s.key s.lanes[r.lane.index.toNat] =
        (.ok session, w.host) := by
      rw [Host.openSession, hopen]
    exact Host.enter_eq_ok hprepare ho ha
  | none =>
    rw [hopen] at hsession
    obtain ⟨hrunning, hfaults, hroom⟩ := hsession.resolve_left Bool.false_ne_true
    obtain ⟨hanswer, hpool, hcapacity⟩ :=
      Software.createSession_of_room s.key hrunning hfaults hroom
    obtain ⟨opened, ho, hengine⟩ :=
      Host.openSession_eq_ok (E := Software.engine) (i := r.service) hopen hanswer
    obtain ⟨job, ha⟩ := free opened.engine (by
      rw [hengine]
      change ((w.host.engine.createSession s.key).state.pool.outstanding : Nat) <
        (w.host.engine.createSession s.key).state.capacity.jobs
      rw [hpool, hcapacity]
      exact hjobs)
    exact Host.enter_eq_ok hprepare ho ha

/-- An undisturbed call on an engine that is not paused is performed to its end, and passes. -/
theorem performed_of_entered (keyed : Keyed w) (hu : w.host.engine.Untroubled)
    (hp : w.host.engine.paused = false) (hs : w.host.services[r.service]? = some s)
    (he : w.host.enter Software.engine s r = (.ok ticket, h')) :
    ∃ reply, w.host.perform Software.engine s r = (some reply, h'.drain Software.engine) ∧
      (h'.drain Software.engine).reply? ticket = some reply ∧ reply.PassedEngine := by
  obtain ⟨undisturbed, hpaused⟩ := undisturbed_of_entered keyed hu hs he
  obtain ⟨reply, hreply, passed⟩ := undisturbed.replied (hpaused.trans hp) fun j hj => by
    obtain ⟨-, -, -, -, -, -, -, -, rfl, -⟩ := Host.enter_ok he
    exact keyed.custody.recipient_ne_new (List.mem_append_right _ hj)
  refine ⟨reply, ?_, hreply, passed⟩
  have looked : (h'.drain Software.engine).look Software.engine ticket =
      h'.drain Software.engine := by
    obtain ⟨c, hc, hr⟩ := Option.bind_eq_some_iff.mp hreply
    rw [Host.look, hc]
    dsimp only
    rw [if_neg]
    rw [Call.isWaiting, hr]
    exact Bool.false_ne_true
  refine Host.perform_of_reply ?_ hreply
  rw [Host.start, he]
  dsimp only
  rw [looked]

theorem follows_of_performed (keyed : Keyed w) (hs : w.host.services[r.service]? = some s)
    {reply : Reply} (hp : w.host.perform Software.engine s r = (some reply, h')) :
    reply.Follows s r := by
  cases he : w.host.enter Software.engine s r with
  | mk answer h =>
    cases answer with
    | error f =>
      rw [Host.perform, Host.start, he] at hp
      obtain rfl : Reply.failed r f = reply := Option.some.inj (Prod.mk.inj hp).1
      refine .of_failed ?_
      rcases Host.enter_error he with hk | hk | hk | hk <;> rw [hk] <;>
        exact FailureKind.noConfusion
    | ok ticket =>
      have held := ((keyed.run (entered_run (R := Software.rules) .refl hs he))).custody.held
      have looks : ∀ h ticket, Software.rules.mayLook ⟨h, w.hand⟩ ticket := fun _ _ => trivial
      obtain ⟨run, hreply⟩ := run_performed looks he held
      rw [show Software.rules.engine = Software.engine from rfl, hp] at run hreply
      exact follows_of_entered keyed hs he (Run.effects run) hreply.symm

/-- In every state that a new engine and the services on it can reach, the replies to a request
follow its tag, those that come after any further turns and those of a request performed at once. A
request that finds a job, a session and an engine without faults is let in, and passes the engine
unless something disturbs it. If the engine is not paused, it has its reply when the engine has
passed on all that it can, and when it is performed at once. -/
theorem replies_follow_tags {capacity : Capacity} {w : World Software}
    (reach : Run Software.rules (fresh capacity) w) {s : Service} {r : Request}
    (hs : w.host.services[r.service]? = some s) :
    (∀ ticket h', w.host.enter Software.engine s r = (.ok ticket, h') →
      ∀ v, Run Software.rules ⟨h', w.hand⟩ v → ∀ reply, v.host.reply? ticket = some reply →
        reply.Follows s r) ∧
    (∀ reply h', w.host.perform Software.engine s r = (some reply, h') → reply.Follows s r) ∧
    (∀ hlane : r.lane.index.toNat < s.lanes.length,
      s.config.layout.prefixLength + Tag.size ≤ r.length → r.length ≤ r.buffer.length →
      w.host.engine.Untroubled →
      w.host.engine.pool.outstanding < w.host.engine.capacity.jobs →
      (s.lanes[r.lane.index.toNat].session.isSome = true ∨ w.host.engine.faults.sessions = 0 ∧
        w.host.engine.sessions.length < w.host.engine.capacity.sessions) →
      (∃ ticket h', w.host.enter Software.engine s r = (.ok ticket, h') ∧
        (∀ v, Run (Software.undisturbed ticket) ⟨h', w.hand⟩ v →
          ∀ reply, v.host.reply? ticket = some reply → reply.PassedEngine) ∧
        (w.host.engine.paused = false →
          ∃ reply, (drained Software.engine ⟨h', w.hand⟩).reply? ticket = some reply ∧
            reply.PassedEngine)) ∧
      (w.host.engine.paused = false →
        ∃ reply h', w.host.perform Software.engine s r = (some reply, h') ∧
          reply.PassedEngine)) := by
  have keyed := (Keyed.fresh capacity).run reach
  refine ⟨fun ticket h' he v run reply hr =>
    follows_of_entered keyed hs he (Run.effects run) hr,
      fun reply h' hp => follows_of_performed keyed hs hp, ?_⟩
  intro hlane hmin hfit hu hjobs hsession
  obtain ⟨ticket, h', he⟩ := entered_of_free hlane hmin hfit hjobs
    (hsession.imp_right fun room => ⟨hu.running, room⟩)
  obtain ⟨undisturbed, hpaused⟩ := undisturbed_of_entered keyed hu hs he
  refine ⟨⟨ticket, h', he, fun v run reply hr => ?_, fun hp => ?_⟩, fun hp => ?_⟩
  · exact (undisturbed.effects (Run.effects run)).passed reply hr
  · exact undisturbed.drained (hpaused.trans hp)
  · obtain ⟨reply, hperform, -, passed⟩ := performed_of_entered keyed hu hp hs he
    exact ⟨reply, _, hperform, passed⟩

/-- The first request on a new engine succeeds, and writes its tag behind the prefix. -/
theorem first_write_succeeds :
    ∃ w s r reply h', Run Software.rules (fresh {}) w ∧ w.host.services[r.service]? = some s ∧
      w.host.perform Software.engine s r = (some reply, h') ∧
      reply = ⟨.ok (), List.replicate 4 0 ++ s.tagOf r⟩ := by
  let s : Service := .create {} (.ofSeed 1)
  let r : Request := ⟨0, ⟨0⟩, .write, List.replicate 20 0, 20, none⟩
  let installed : World Software := ⟨((fresh {}).host.install { key := some (.ofSeed 1) }).2, []⟩
  have reach : Run Software.rules (fresh {}) installed := .single (.install (fresh {}) _)
  have hs : installed.host.services[r.service]? = some s := rfl
  obtain ⟨-, follows, passes⟩ := replies_follow_tags reach hs
  obtain ⟨reply, h', hp, passed⟩ := (passes (by decide) (by decide) (by decide) ⟨rfl, rfl, rfl⟩
    (by decide) (.inr ⟨rfl, by decide⟩)).2 rfl
  obtain ⟨hreply, -⟩ := (follows reply h' hp).written rfl passed
  have whole : r.buffer.drop (s.config.layout.tagOffset + Tag.size) = [] := by decide
  rw [whole, List.append_nil] at hreply
  exact ⟨installed, s, r, reply, h', reach, hs, hp, hreply⟩

end World
end PacketAuth
