import PacketAuth.Engine.Scripted
import PacketAuth.Proofs.RoundTrip

/-! The caller's data. Whatever an engine does, a request that fails leaves the buffer as it was, a
mismatch alone takes the length away, and a tag that is written touches no other bytes. -/
namespace PacketAuth

/-- What a reply leaves of the buffer and the length of its request. -/
structure Reply.Spares (reply : Reply) (l : Layout) (r : Request) : Prop where
  failed : ∀ f, reply.result = .error f → reply.buffer = r.buffer
  length : reply.length r.length =
    if reply.status = .authenticationMismatch then 0 else r.length
  mismatch : reply.status = .authenticationMismatch → r.command = .read
  read : r.command = .read → reply.buffer = r.buffer
  written : reply.buffer.length = r.buffer.length ∧
    ∀ i, ¬ l.InTag i → reply.buffer[i]? = r.buffer[i]?

namespace Reply

/-- Only a failure of its own kind reports as a mismatch. -/
theorem status_failed (r : Request) (f : Failure) :
    (Reply.failed r f).status = .authenticationMismatch ↔ f.kind = .authenticationMismatch := by
  cases hk : f.kind <;> simp [failed, status, Status.ofResult, Status.ofFailure, hk]

theorem Spares.of_failed {r : Request} {f : Failure} (l : Layout)
    (h : f.kind = .authenticationMismatch → r.command = .read) :
    (Reply.failed r f).Spares l r where
  failed _ _ := rfl
  length := if_congr (status_failed r f).symm rfl rfl
  mismatch hs := h ((status_failed r f).mp hs)
  read _ := rfl
  written := ⟨rfl, fun _ _ => rfl⟩

theorem Spares.of_ok {l : Layout} {r : Request} {buffer : List UInt8}
    (hr : r.command = .read → buffer = r.buffer)
    (hw : buffer.length = r.buffer.length ∧ ∀ i, ¬ l.InTag i → buffer[i]? = r.buffer[i]?) :
    (⟨.ok (), buffer⟩ : Reply).Spares l r where
  failed _ h := by cases h
  length := rfl
  mismatch h := by cases h
  read := hr
  written := hw

end Reply

/-- An answer to a call that was split by a valid layout, from whatever tag. -/
theorem Call.Answer.spares {c : Call} {tag : Tag} {reply : Reply} (h : c.Answer tag.bytes reply)
    {l : Layout} (hv : l.validate = .ok ())
    (hl : l.split c.request.buffer.length c.request.length = .ok c.regions) :
    reply.Spares l c.request := by
  obtain ⟨hmin, hfit, regions⟩ := Layout.split_ok hl
  have before := (Layout.validate_eq_ok.mp hv).1
  have room : l.tagOffset + Tag.size ≤ c.request.buffer.length := by omega
  cases h with
  | failed hk =>
    refine .of_failed l fun mismatch => ?_
    rw [mismatch] at hk
    rcases hk with ⟨code, hk⟩ | hk <;> cases hk
  | mismatched hc => exact .of_failed l fun _ => hc
  | verified hc => exact .of_ok (fun _ => rfl) ⟨rfl, fun _ _ => rfl⟩
  | written hc =>
    have fits : (c.regions.tag).Fits c.request.buffer.length := by
      rw [regions]
      exact ⟨Nat.le_add_right _ _, room⟩
    have filled : tag.bytes.length = c.regions.tag.length := by
      rw [tag.length_bytes, regions, Region.length, Nat.add_sub_cancel_left, Tag.size]
    refine .of_ok (fun hr => ?_) ⟨Region.write_length fits filled, fun i hi => ?_⟩
    · rw [hc] at hr
      cases hr
    · rw [regions]
      exact getElem?_written tag.length_bytes room hi

/-- The end of a call is an answer by the tag that its job carries, if it carries one. -/
theorem Call.ending_answers (c : Call) (job : Job) :
    ∃ tag : Tag, c.Answer tag.bytes (c.ending job).reply := by
  cases hv : job.verdict with
  | ok tag => exact ⟨tag, c.answer_ending fun _ => ⟨tag, hv, rfl⟩⟩
  | error f =>
    rw [(c.ending_of_error hv).1]
    exact ⟨.zero, .failed (.inl (Job.verdict_error hv))⟩

namespace World
variable {σ : Type}

/-- An engine whose state may change in any way between two turns. -/
def unruly (E : Engine σ) : Rules σ := { engine := E, change := fun _ _ => True }

/-- All services have valid layouts, and all replies are answers by some tag. -/
structure Answered (w : World σ) : Prop where
  layouts : ∀ s ∈ w.host.services, s.config.layout.validate = .ok ()
  replies : ∀ c ∈ w.host.calls, ∀ reply, c.reply = some reply →
    ∃ tag : Tag, c.Answer tag.bytes reply

namespace Answered
variable {R : Rules σ} {w w' : World σ}

theorem layouts_effect (h : Answered w) (e : Effect R w w') :
    ∀ s ∈ w'.host.services, s.config.layout.validate = .ok () := by
  have credited : ∀ (i : Nat) (c : Call) (job : Job),
      ∀ s ∈ w.host.services.modify i (c.credit job), s.config.layout.validate = .ok () :=
    fun i c job => forall_mem_modify h.layouts fun s _ hs => by
      rw [(s.credit_persists c job).config]
      exact hs
  cases e with
  | aside | misconfigured | changed | admitted | taken => exact h.layouts
  | installed _ hb =>
    intro s hs
    rcases List.mem_append.mp hs with hs | hs
    · exact h.layouts s hs
    · rw [List.mem_singleton.mp hs]
      exact (Service.sound_of_build hb).layout
  | dropped | opened | notOpened | rejected | starved | left =>
    exact forall_mem_modify h.layouts fun s _ hs => hs
  | passed host before after s =>
    cases s with
    | strayed | stranded | refused => exact h.layouts
    | resubmitted => exact forall_mem_modify h.layouts fun s _ hs => hs
    | finished => exact credited _ _ _
  | collected => exact credited _ _ _

theorem replies_set (h : Answered w) {ticket : Nat} {c' : Call}
    (hc : ∀ reply, c'.reply = some reply → ∃ tag : Tag, c'.Answer tag.bytes reply) :
    ∀ c ∈ w.host.calls.set ticket c', ∀ reply, c.reply = some reply →
      ∃ tag : Tag, c.Answer tag.bytes reply := by
  intro c hmem
  rcases List.mem_or_eq_of_mem_set hmem with hmem | rfl
  · exact h.replies c hmem
  · exact hc

/-- A call that got its job back is answered by the tag that came with it. -/
theorem replies_ending (h : Answered w) (ticket : Nat) (c : Call) (job : Job) :
    ∀ d ∈ w.host.calls.set ticket
        { c with slot := .taken, reply := some (c.ending job).reply },
      ∀ reply, d.reply = some reply → ∃ tag : Tag, d.Answer tag.bytes reply := by
  refine h.replies_set fun reply hr => ?_
  obtain rfl : (c.ending job).reply = reply := Option.some.inj hr
  obtain ⟨tag, answer⟩ := c.ending_answers job
  exact ⟨tag, answer.congr rfl rfl⟩

theorem replies_effect (h : Answered w) (e : Effect R w w') :
    ∀ c ∈ w'.host.calls, ∀ reply, c.reply = some reply →
      ∃ tag : Tag, c.Answer tag.bytes reply := by
  cases e with
  | aside | installed | misconfigured | dropped | changed | opened | notOpened | rejected |
    starved | taken => exact h.replies
  | admitted =>
    intro c hc reply hr
    rcases List.mem_append.mp hc with hc | hc
    · exact h.replies c hc reply hr
    · rw [List.mem_singleton.mp hc] at hr
      cases hr
  | passed host before after s =>
    cases s with
    | strayed | resubmitted | refused => exact h.replies
    | finished => exact h.replies_ending _ _ _
    | @stranded job' ticket c exhausted hj hc =>
      refine h.replies_set fun reply hr => ?_
      obtain ⟨tag, answer⟩ := h.replies c (List.mem_of_getElem? hc) reply hr
      exact ⟨tag, answer.congr rfl rfl⟩
  | collected => exact h.replies_ending _ _ _
  | @left _ ticket c reason hl hc hw hp =>
    refine h.replies_set fun reply hr => ?_
    obtain rfl := Option.some.inj hr
    exact ⟨.zero, .failed (.inr rfl)⟩

theorem effects (h : Answered w) (e : Effects R w w') : Answered w' := by
  induction e with
  | refl => exact h
  | tail _ effect ih => exact ⟨ih.layouts_effect effect, ih.replies_effect effect⟩

end Answered

variable {E : Engine σ} {w : World σ} {s : Service} {r : Request}

theorem Answered.spares (h : Answered w) {ticket : Nat} {c : Call} {reply : Reply}
    (hc : w.host.calls[ticket]? = some c) (hr : c.reply = some reply) {l : Layout}
    (hv : l.validate = .ok ())
    (hl : l.split c.request.buffer.length c.request.length = .ok c.regions) :
    reply.Spares l c.request := by
  obtain ⟨tag, answer⟩ := h.replies c (List.mem_of_getElem? hc) reply hr
  exact answer.spares hv hl

theorem spares_of_error (l : Layout) {h h' : Host σ} {f : Failure}
    (he : h.enter E s r = (.error f, h')) : (Reply.failed r f).Spares l r := by
  refine .of_failed l fun mismatch => ?_
  rcases Host.enter_error he with hk | hk | hk | hk <;> rw [mismatch] at hk <;> cases hk

theorem spares_of_entered (answered : Answered w) (hs : w.host.services[r.service]? = some s)
    {ticket : Nat} {h' : Host σ} (he : w.host.enter E s r = (.ok ticket, h')) {v : World σ}
    (run : Run (unruly E) ⟨h', w.hand⟩ v) {reply : Reply}
    (hr : v.host.reply? ticket = some reply) : reply.Spares s.config.layout r := by
  have entered : Run (unruly E) w ⟨h', w.hand⟩ := entered_run (R := unruly E) .refl hs he
  obtain ⟨lane, regions, session, opened, job, hp, -, -, rfl, hcalls, -⟩ := Host.enter_ok he
  have hget : h'.calls[w.host.calls.length]? = some (r.call s regions job w.host.now) := by
    rw [hcalls, List.getElem?_concat_length]
  obtain ⟨c, hc, persists⟩ := (Run.effects run).persists.call _ _ hget
  rw [Host.reply?, hc] at hr
  have hl : s.config.layout.split c.request.buffer.length c.request.length = .ok c.regions := by
    rw [persists.request, persists.regions]
    exact (prepare_ok hp).2
  have spares := (answered.effects (Run.effects (entered.trans run))).spares hc hr
    (answered.layouts s (List.mem_of_getElem? hs)) hl
  rwa [persists.request] at spares

/-- On every engine, a request that is made at any time and ends in any way, on the spot, later on
or when performed at once, spares its caller's buffer and length. -/
theorem requests_spare_their_buffers {s₀ : σ} (reach : Run (unruly E) ⟨{ engine := s₀ }, []⟩ w)
    (hs : w.host.services[r.service]? = some s) :
    (∀ f h', w.host.enter E s r = (.error f, h') →
      (Reply.failed r f).Spares s.config.layout r) ∧
    (∀ ticket h', w.host.enter E s r = (.ok ticket, h') →
      ∀ v, Run (unruly E) ⟨h', w.hand⟩ v → ∀ reply, v.host.reply? ticket = some reply →
        reply.Spares s.config.layout r) ∧
    ∀ reply h', w.host.perform E s r = (some reply, h') → reply.Spares s.config.layout r := by
  have answered : Answered w :=
    Answered.effects ⟨by simp, by simp⟩ (Run.effects reach)
  refine ⟨fun f h' he => spares_of_error _ he,
    fun ticket h' he v run reply hr => spares_of_entered answered hs he run hr,
    fun reply h' hp => ?_⟩
  cases he : w.host.enter E s r with
  | mk answer entered =>
    cases answer with
    | error f =>
      rw [Host.perform, Host.start, he] at hp
      obtain rfl : Reply.failed r f = reply := Option.some.inj (Prod.mk.inj hp).1
      exact spares_of_error _ he
    | ok ticket =>
      have held := Run.isHeld (entered_run (R := unruly E) reach hs he)
      have looks : ∀ h ticket, (unruly E).mayLook ⟨h, w.hand⟩ ticket := fun _ _ => trivial
      obtain ⟨run, hreply⟩ := run_performed (R := unruly E) looks he held
      rw [show (unruly E).engine = E from rfl, hp] at run hreply
      exact spares_of_entered answered hs he run hreply.symm

/-- An engine that answers with the last bytes in reverse: a read is refused and loses its length, a
write changes its tag and nothing else. -/
theorem reversed_tag_is_refused :
    ∃ (w : World Scripted) (s : Service) (r q : Request) (refused written : Reply),
      Run (unruly Scripted.engine) ⟨{ engine := {} }, []⟩ w ∧
      w.host.services[0]? = some s ∧ r.command = .read ∧ q.command = .write ∧
      (w.host.perform Scripted.engine s r).1 = some refused ∧
      (w.host.perform Scripted.engine s q).1 = some written ∧
      refused.status = .authenticationMismatch ∧ refused.buffer = r.buffer ∧
      refused.length r.length = 0 ∧ written.status = .success ∧ written.buffer ≠ q.buffer ∧
      written.buffer[20]? = q.buffer[20]? ∧ written.length q.length = q.length := by
  let b : Builder := { key := some (.ofSeed 1) }
  let s : Service := .create {} (.ofSeed 1)
  let w : World Scripted := ⟨((⟨{ engine := {} }, []⟩ : World Scripted).host.install b).2, []⟩
  let r : Request := ⟨0, ⟨0⟩, .read, List.replicate 20 0 ++ [7], 21, none⟩
  let q : Request := { r with command := .write }
  have reach : Run (unruly Scripted.engine) ⟨{ engine := {} }, []⟩ w := .single (.install _ b)
  have services : w.host.services[0]? = some s := rfl
  have mismatch : (w.host.perform Scripted.engine s r).1.map (fun reply => reply.status) =
      some .authenticationMismatch := by decide +kernel
  have success : (w.host.perform Scripted.engine s q).1.map
      (fun reply => (reply.status, reply.buffer[4]?)) = some (.success, some 7) := by
    decide +kernel
  clear_value w
  obtain ⟨refused, hr, mismatch⟩ := Option.map_eq_some_iff.mp mismatch
  obtain ⟨written, hq, success⟩ := Option.map_eq_some_iff.mp success
  obtain ⟨success, changed⟩ := Prod.mk.inj success
  obtain ⟨-, -, spared⟩ := requests_spare_their_buffers reach (r := r) services
  obtain ⟨-, -, tagged⟩ := requests_spare_their_buffers reach (r := q) services
  have spared := spared refused _ (Prod.ext hr rfl)
  have tagged := tagged written _ (Prod.ext hq rfl)
  refine ⟨w, s, r, q, refused, written, reach, services, rfl, rfl, hr, hq, mismatch,
    spared.read rfl, ?_, success, ?_, tagged.written.2 20 (by decide), ?_⟩
  · rw [spared.length, if_pos mismatch]
  · intro same
    rw [same] at changed
    exact absurd changed (by decide)
  · rw [tagged.length, if_neg (by rw [success]; decide)]

end World
end PacketAuth
