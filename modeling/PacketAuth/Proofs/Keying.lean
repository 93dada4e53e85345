import PacketAuth.Proofs.Custody
import PacketAuth.Proofs.MaskedPayload
import PacketAuth.Proofs.Persistence

/-! Keys. A session in the engine's table belongs to one key; the sessions of a service's lanes, and
those of the jobs of its calls, belong to the key of that service, whatever the engine does for
others in between. -/
namespace PacketAuth

/-- The tag of a call under a key. -/
def Call.tagBytes (c : Call) (key : AuthKey) : List UInt8 :=
  (Hmac.mac key.bytes (c.regions.maskedPayload c.request.buffer)).take Tag.size

/-- A job with the payload of a call, in a session for a key. -/
structure Job.FilledFor (j : Job) (c : Call) (key : AuthKey) (sessions : Sessions) : Prop where
  input : j.input = c.regions.maskedPayload c.request.buffer
  descriptor : ∃ session, j.descriptor = some ⟨session, key, 0, c.regions.payload.length, 0⟩ ∧
    (session, key) ∈ sessions

/-- A job that came back with a tag. -/
def Job.Carries (j : Job) (bytes : List UInt8) : Prop :=
  ∃ tag, j.verdict = .ok tag ∧ tag.bytes = bytes

/-- The replies that a call may get, given the bytes of its tag: the tag counts only if the engine
computed it, and then nothing else does. -/
inductive Call.Answer (c : Call) (bytes : List UInt8) : Reply → Prop
  | failed {f : Failure} (h : (∃ code, f.kind = .engineFailed code) ∨ f.kind = .waitInterrupted) :
      Answer c bytes (.failed c.request f)
  | written (h : c.request.command = .write) :
      Answer c bytes ⟨.ok (), c.regions.tag.write bytes c.request.buffer⟩
  | verified (h : c.request.command = .read) (ht : c.regions.tag.read c.request.buffer = bytes) :
      Answer c bytes ⟨.ok (), c.request.buffer⟩
  | mismatched (h : c.request.command = .read)
      (ht : c.regions.tag.read c.request.buffer ≠ bytes) :
      Answer c bytes
        (.failed c.request ⟨.authenticationMismatch, some c.request.lane.text⟩)

theorem Sessions.key?_of_mem {sessions : Sessions} (hd : (sessions.map Prod.fst).Nodup)
    {session : SessionHandle} {key : AuthKey} (h : (session, key) ∈ sessions) :
    sessions.key? session = some key := by
  induction sessions with
  | nil => cases h
  | cons entry sessions ih =>
    rw [List.map_cons, List.nodup_cons] at hd
    obtain ⟨hnew, hrest⟩ := hd
    rw [key?, List.find?_cons]
    rcases List.mem_cons.mp h with rfl | hmem
    · simp
    · have other : entry.1 ≠ session := by
        rintro rfl
        exact hnew (List.mem_map.mpr ⟨_, hmem, rfl⟩)
      rw [decide_eq_false other]
      exact ih hrest hmem

namespace Job

theorem FilledFor.congr {j k : Job} {c c' : Call} {key : AuthKey} {sessions sessions' : Sessions}
    (h : j.FilledFor c key sessions) (hi : k.input = j.input) (hd : k.descriptor = j.descriptor)
    (hc : c'.request = c.request) (hr : c'.regions = c.regions) (hs : sessions ⊆ sessions') :
    k.FilledFor c' key sessions' := by
  obtain ⟨session, hdescriptor, hmem⟩ := h.descriptor
  refine ⟨?_, session, ?_, hs hmem⟩
  · rw [hi, hc, hr, h.input]
  · rw [hd, hr, hdescriptor]

/-- A job that the worker got done carries the tag of the call it was filled for. -/
theorem FilledFor.carries {j : Job} {c : Call} {key : AuthKey} {sessions : Sessions}
    (h : j.FilledFor c key sessions) (hd : (sessions.map Prod.fst).Nodup)
    {l : Layout} (hl : l.split c.request.buffer.length c.request.length = .ok c.regions)
    {output : List UInt8}
    (hw : Software.Worked sessions j output .done) :
    ({ j with output, outcome := .done } : Job).Carries (c.tagBytes key) := by
  obtain ⟨session, hdescriptor, hmem⟩ := h.descriptor
  obtain ⟨tag, d, k, hverdict, hd', hk, hbytes⟩ := Software.Worked.verdict hw
  obtain rfl : (⟨session, key, 0, c.regions.payload.length, 0⟩ : Descriptor) = d := by
    simpa [hdescriptor] using hd'
  obtain rfl : key = k := by simpa [Sessions.key?_of_mem hd hmem] using hk
  refine ⟨tag, hverdict, ?_⟩
  have whole : (c.regions.maskedPayload c.request.buffer).take c.regions.payload.length =
      c.regions.maskedPayload c.request.buffer :=
    List.take_of_length_le (Nat.le_of_eq (Layout.maskedPayload_length hl))
  rw [hbytes, h.input, List.drop_zero, whole, Call.tagBytes]

theorem FilledFor.process_done {j : Job} {c : Call} {key : AuthKey} {sessions : Sessions}
    (h : j.FilledFor c key sessions) (hd : (sessions.map Prod.fst).Nodup)
    {l : Layout} (hl : l.split c.request.buffer.length c.request.length = .ok c.regions) :
    (j.process sessions).2 = .done := by
  obtain ⟨session, hdescriptor, hmem⟩ := h.descriptor
  refine Software.process_done hdescriptor (Sessions.key?_of_mem hd hmem) ?_
  rw [h.input, Layout.maskedPayload_length hl]
  exact Nat.le_of_eq (Nat.zero_add _)

end Job

/-- A service with a valid layout, whose lanes are in sessions for its key. -/
structure Service.Sound (s : Service) (sessions : Sessions) : Prop where
  layout : s.config.layout.validate = .ok ()
  lanes : ∀ lane ∈ s.lanes, ∀ session, lane.session = some session → (session, s.key) ∈ sessions

namespace Service

theorem Sound.mono {s : Service} {sessions sessions' : Sessions} (h : s.Sound sessions)
    (hs : sessions ⊆ sessions') : s.Sound sessions' :=
  ⟨h.layout, fun lane hl session hsome => hs (h.lanes lane hl session hsome)⟩

theorem Sound.updateLane {s : Service} {sessions : Sessions} (h : s.Sound sessions) {l : LaneId}
    {f : Lane → Lane} (hf : ∀ lane session, (f lane).session = some session →
      lane.session = some session ∨ (session, s.key) ∈ sessions) :
    (s.updateLane l f).Sound sessions := by
  refine ⟨h.layout, fun lane hl session hsome => ?_⟩
  obtain ⟨i, hi⟩ := List.getElem?_of_mem hl
  simp only [Service.updateLane, List.getElem?_modify] at hi
  obtain ⟨old, hold, rfl⟩ := Option.map_eq_some_iff.mp hi
  have known := h.lanes old (List.mem_of_getElem? hold)
  split at hsome
  · exact (hf old session hsome).elim (known session) id
  · exact known session hsome

theorem Sound.credit {s : Service} {sessions : Sessions} (h : s.Sound sessions) (c : Call)
    (job : Job) : (c.credit job s).Sound sessions := by
  unfold Call.credit
  dsimp only
  split
  · exact ⟨h.layout, h.lanes⟩
  · rename_i tag _
    obtain ⟨layout, lanes⟩ := h.updateLane (l := c.request.lane)
      (f := fun lane => { lane with cachedTag := tag }) fun lane session hsome => .inl hsome
    exact ⟨layout, lanes⟩

theorem sound_of_build {b : Builder} {s : Service} (h : b.build = .ok s) : s.Sound [] := by
  obtain ⟨hv, key, rfl⟩ := World.build_ok h
  refine ⟨?_, fun lane hl session hsome => ?_⟩
  · obtain ⟨-, -, -, layout⟩ := b.config.validate_eq_ok.mp hv
    exact layout
  · simp only [Service.create, Service.freshLanes, List.mem_map] at hl
    obtain ⟨i, -, rfl⟩ := hl
    cases hsome

end Service

/-- The end of a call that got its job back is an answer, if a job that is done carries the tag. -/
theorem Call.answer_ending (c : Call) {job : Job} {bytes : List UInt8}
    (h : job.outcome = .done → job.Carries bytes) : c.Answer bytes (c.ending job).reply := by
  cases hv : job.verdict with
  | error f =>
    rw [(c.ending_of_error hv).1]
    exact .failed (.inl (Job.verdict_error hv))
  | ok tag =>
    have hd : job.outcome = .done := by
      by_contra hd
      rw [Job.verdict_of_not_done hd] at hv
      cases hv
    obtain ⟨tag', hv', rfl⟩ := h hd
    obtain rfl : tag = tag' := by simpa [hv] using hv'
    cases hc : c.request.command with
    | write =>
      rw [c.ending_of_write hv hc]
      exact .written hc
    | read =>
      rw [c.ending_of_read hv hc]
      split
      · rename_i agrees
        exact .verified hc ((tag.agrees_iff _).mp agrees)
      · rename_i differs
        exact .mismatched hc fun same => differs ((tag.agrees_iff _).mpr same)

theorem Call.tagBytes_persists {c c' : Call} (p : c.Persists c') (key : AuthKey) :
    c'.tagBytes key = c.tagBytes key := by
  rw [tagBytes, p.request, p.regions, tagBytes]

/-- An answer is one to any call that asked for the same. -/
theorem Call.Answer.congr {c c' : Call} {bytes : List UInt8} {reply : Reply}
    (h : c.Answer bytes reply) (request : c'.request = c.request)
    (regions : c'.regions = c.regions) : c'.Answer bytes reply := by
  cases h with
  | failed hf =>
    rw [← request]
    exact .failed hf
  | written hc =>
    rw [← request, ← regions]
    exact .written (by rw [request, hc])
  | verified hc ht =>
    rw [← request]
    exact .verified (by rw [request, hc]) (by rw [request, regions, ht])
  | mismatched hc ht =>
    rw [← request]
    exact .mismatched (by rw [request, hc]) (by rw [request, regions]; exact ht)

theorem Call.Answer.persists {c c' : Call} {bytes : List UInt8} {reply : Reply}
    (h : c.Answer bytes reply) (p : c.Persists c') : c'.Answer bytes reply :=
  h.congr p.request p.regions

theorem getElem?_append_singleton {α : Type} {xs : List α} {x y : α} {i : Nat}
    (h : (xs ++ [x])[i]? = some y) : xs[i]? = some y ∨ i = xs.length ∧ y = x := by
  rw [List.getElem?_append] at h
  split at h
  · exact .inl h
  · rename_i hi
    obtain ⟨hlt, rfl⟩ := List.getElem?_eq_some_iff.mp h
    simp only [List.length_singleton] at hlt
    exact .inr ⟨by omega, by simp⟩

namespace World

/-- A call and the service that it is on. -/
structure Serves (w : World Software) (ticket : Nat) (c : Call) (s : Service) : Prop where
  call : w.host.calls[ticket]? = some c
  service : w.host.services[c.request.service]? = some s

/-- Every session handle has one key; the lanes of a service and the jobs of its calls are in
sessions for the key of the service, and its calls are answered by tags under that key. -/
structure Keyed (w : World Software) : Prop where
  custody : Custody w
  handles : ∀ p ∈ w.host.engine.sessions, p.1.raw < w.host.engine.nextSession
  distinct : (w.host.engine.sessions.map Prod.fst).Nodup
  services : ∀ s ∈ w.host.services, s.Sound w.host.engine.sessions
  calls : ∀ ticket c, w.host.calls[ticket]? = some c → ∃ s, w.Serves ticket c s ∧
    s.config.layout.split c.request.buffer.length c.request.length = .ok c.regions
  filled : ∀ j ∈ w.afloat, ∀ ticket c s, j.recipient = some (.call ticket) → w.Serves ticket c s →
    j.FilledFor c s.key w.host.engine.sessions
  carried : ∀ j ∈ w.hand, ∀ ticket c s, j.recipient = some (.call ticket) → w.Serves ticket c s →
    j.outcome = .done → j.Carries (c.tagBytes s.key)
  answered : ∀ ticket c s, w.Serves ticket c s → ∀ reply, c.reply = some reply →
    c.Answer (c.tagBytes s.key) reply

/-- The table of sessions only grows, by a handle that was never given. -/
theorem Effect.sessions {w w' : World Software} (e : Effect Software.rules w w') :
    Software.SameSessions w.host.engine w'.host.engine ∨
      ∃ key, w'.host.engine.sessions =
          w.host.engine.sessions ++ [(⟨w.host.engine.nextSession⟩, key)] ∧
        w'.host.engine.nextSession = w.host.engine.nextSession + 1 := by
  cases e with
  | aside | installed | misconfigured | dropped | rejected | collected => exact .inl ⟨rfl, rfl⟩
  | changed _ hchange => exact .inl hchange.frame.2.2.2.2
  | @opened _ i s l lane handle hs hl hn ha =>
    obtain ⟨hhandle, hsessions, hnext⟩ := Software.createSession_ok ha
    exact .inr ⟨s.key, hhandle ▸ hsessions, hnext⟩
  | notOpened _ hs hl hn ha => exact .inl (Software.createSession_error ha)
  | starved => exact .inl (Software.acquire_sameSessions _)
  | admitted _ hs hl hr ho ha hq =>
    subst hq
    obtain ⟨hsessions, hnext⟩ := Software.acquire_sameSessions w.host.engine
    obtain ⟨hsessions', hnext'⟩ := Software.submit_sameSessions _ 0 w.host.now
      w.host.engine.acquire.state
    exact .inl ⟨hsessions'.trans hsessions, hnext'.trans hnext⟩
  | taken _ h => exact .inl (Software.handBack_sameSessions h)
  | passed host before after s =>
    cases s with
    | strayed | finished | stranded => exact .inl ⟨rfl, rfl⟩
    | resubmitted hj hc hb ha hr hq =>
      subst hq
      exact .inl (Software.submit_sameSessions _ _ _ _)
    | refused =>
      dsimp only
      split <;> exact .inl ⟨rfl, rfl⟩
  | left => exact .inl (Software.withdraw_sameSessions _ _)

theorem Effect.sessions_subset {w w' : World Software} (e : Effect Software.rules w w') :
    w.host.engine.sessions ⊆ w'.host.engine.sessions := by
  rcases e.sessions with same | ⟨key, hsessions, -⟩
  · rw [same.sessions]
    exact List.Subset.refl _
  · rw [hsessions]
    exact List.subset_append_left _ _

theorem Effect.sound {w w' : World Software} (e : Effect Software.rules w w')
    (h : ∀ s ∈ w.host.services, s.Sound w.host.engine.sessions) :
    ∀ s ∈ w'.host.services, s.Sound w'.host.engine.sessions := by
  have grown : ∀ s ∈ w.host.services, s.Sound w'.host.engine.sessions :=
    fun s hs => (h s hs).mono e.sessions_subset
  cases e with
  | aside | misconfigured | changed | admitted | taken => exact grown
  | installed _ hb =>
    intro s hs
    rcases List.mem_append.mp hs with hs | hs
    · exact grown s hs
    · rw [List.mem_singleton.mp hs]
      exact (Service.sound_of_build hb).mono (List.nil_subset _)
  | dropped | notOpened | rejected | starved | left =>
    exact forall_mem_modify grown fun s _ hs => ⟨hs.layout, hs.lanes⟩
  | @opened _ i s l lane handle hs hl hn ha =>
    obtain ⟨-, hsessions, -⟩ := Software.createSession_ok ha
    have entered :
        (handle, s.key) ∈ (Software.createSession s.key w.host.engine).state.sessions := by
      rw [hsessions]
      exact List.mem_append_right _ (List.mem_singleton.mpr rfl)
    refine forall_mem_modify grown fun s' hs' sound => ?_
    obtain rfl : s = s' := Option.some.inj (hs.symm.trans hs')
    obtain ⟨layout, lanes⟩ := sound.updateLane (l := lane.id)
      (f := fun l => { l with session := some handle }) fun old session hsome => by
        cases hsome
        exact .inr entered
    exact ⟨layout, lanes⟩
  | passed host before after s =>
    cases s with
    | strayed | stranded | refused => exact grown
    | resubmitted => exact forall_mem_modify grown fun s _ hs => ⟨hs.layout, hs.lanes⟩
    | finished => exact forall_mem_modify grown fun s _ hs => hs.credit _ _
  | collected => exact forall_mem_modify grown fun s _ hs => hs.credit _ _

namespace Keyed
variable {w w' : World Software}

theorem fresh (capacity : Capacity) : Keyed (World.fresh capacity) where
  custody := .fresh capacity
  handles := by simp [World.fresh, Software.start]
  distinct := by simp [World.fresh, Software.start]
  services := by simp [World.fresh]
  calls := by simp [World.fresh]
  filled := nofun
  carried := by simp [World.fresh]
  answered ticket c s h := by
    have := h.call
    simp [World.fresh] at this

theorem handles_effect (h : Keyed w) (e : Effect Software.rules w w') :
    (∀ p ∈ w'.host.engine.sessions, p.1.raw < w'.host.engine.nextSession) ∧
      (w'.host.engine.sessions.map Prod.fst).Nodup := by
  rcases e.sessions with same | ⟨key, hsessions, hnext⟩
  · rw [same.sessions, same.nextSession]
    exact ⟨h.handles, h.distinct⟩
  · rw [hsessions, hnext]
    refine ⟨fun p hp => ?_, ?_⟩
    · rcases List.mem_append.mp hp with hp | hp
      · exact Nat.lt_succ_of_lt (h.handles p hp)
      · rw [List.mem_singleton.mp hp]
        exact Nat.lt_succ_self _
    · rw [List.map_append, List.nodup_append]
      refine ⟨h.distinct, List.nodup_singleton _, ?_⟩
      intro session hold new hnew same
      obtain ⟨p, hp, rfl⟩ := List.mem_map.mp hold
      obtain rfl : new = ⟨w.host.engine.nextSession⟩ := List.mem_singleton.mp hnew
      have := h.handles p hp
      rw [same] at this
      exact Nat.lt_irrefl _ this

/-- A call that was there before was on the same service, and asked for the same. -/
theorem serves_before (h : Keyed w) (p : w.host.Persists w'.host) {ticket : Nat} {c' : Call}
    {s' : Service} (ht : ticket < w.host.calls.length) (hs : w'.Serves ticket c' s') :
    ∃ c s, w.Serves ticket c s ∧ c.Persists c' ∧ s'.key = s.key := by
  have hget : w.host.calls[ticket]? = some w.host.calls[ticket] := List.getElem?_eq_getElem ht
  obtain ⟨s, serves, -⟩ := h.calls ticket _ hget
  have persists := p.of_ticket hget hs.call
  obtain ⟨s'', hs'', kept⟩ := p.service _ s serves.service
  rw [← persists.request] at hs''
  obtain rfl : s'' = s' := Option.some.inj (hs''.symm.trans hs.service)
  exact ⟨_, s, serves, persists, kept.key⟩

theorem calls_effect (h : Keyed w) (e : Effect Software.rules w w') {ticket : Nat} {c' : Call}
    (ht : ticket < w.host.calls.length) (hc : w'.host.calls[ticket]? = some c') :
    ∃ s', w'.Serves ticket c' s' ∧
      s'.config.layout.split c'.request.buffer.length c'.request.length = .ok c'.regions := by
  have hget : w.host.calls[ticket]? = some w.host.calls[ticket] := List.getElem?_eq_getElem ht
  obtain ⟨s, serves, hsplit⟩ := h.calls ticket _ hget
  have persists := e.persists.of_ticket hget hc
  obtain ⟨s', hs', kept⟩ := e.persists.service _ s serves.service
  rw [← persists.request] at hs'
  refine ⟨s', ⟨hc, hs'⟩, ?_⟩
  rw [kept.config, persists.request, persists.regions]
  exact hsplit

/-- An effect that lets no call in: jobs stay as they were filled, a job that came back done
carries its tag, and replies are answers. -/
theorem transfer (h : Keyed w) (e : Effect Software.rules w w')
    (hn : w'.host.calls.length = w.host.calls.length)
    (hjobs : ∀ j ∈ w'.afloat, ∃ k ∈ w.afloat, j.recipient = k.recipient ∧ j.input = k.input ∧
      j.descriptor = k.descriptor)
    (hcarried : ∀ j ∈ w'.hand, j ∈ w.hand ∨ ∀ ticket c s, j.recipient = some (.call ticket) →
      w.Serves ticket c s → j.outcome = .done → j.Carries (c.tagBytes s.key))
    (hreplies : ∀ ticket c c', w.host.calls[ticket]? = some c → w'.host.calls[ticket]? = some c' →
      c'.reply = c.reply ∨ ∀ s reply, w.Serves ticket c s → c'.reply = some reply →
        c.Answer (c.tagBytes s.key) reply) : Keyed w' := by
  obtain ⟨handles, distinct⟩ := h.handles_effect e
  have before : ∀ {ticket c' s'}, w'.Serves ticket c' s' →
      ∃ c s, w.Serves ticket c s ∧ c.Persists c' ∧ s'.key = s.key := fun hs =>
    h.serves_before e.persists (hn ▸ (List.getElem?_eq_some_iff.mp hs.call).1) hs
  refine ⟨h.custody.effect e, handles, distinct, e.sound h.services, ?_, ?_, ?_, ?_⟩
  · intro ticket c' hc
    exact h.calls_effect e (hn ▸ (List.getElem?_eq_some_iff.mp hc).1) hc
  · intro j hj ticket c' s' hr hs
    obtain ⟨c, s, serves, persists, hkey⟩ := before hs
    obtain ⟨k, hk, hrecipient, hinput, hdescriptor⟩ := hjobs j hj
    rw [hkey]
    exact (h.filled k hk ticket c s (hrecipient ▸ hr) serves).congr hinput hdescriptor
      persists.request persists.regions e.sessions_subset
  · intro j hj ticket c' s' hr hs hdone
    obtain ⟨c, s, serves, persists, hkey⟩ := before hs
    rw [hkey, Call.tagBytes_persists persists]
    rcases hcarried j hj with old | new
    · exact h.carried j old ticket c s hr serves hdone
    · exact new ticket c s hr serves hdone
  · intro ticket c' s' hs reply hreply
    obtain ⟨c, s, serves, persists, hkey⟩ := before hs
    have answer : c.Answer (c.tagBytes s.key) reply := by
      rcases hreplies ticket c c' serves.call hs.call with old | new
      · exact h.answered ticket c s serves reply (old ▸ hreply)
      · exact new s reply serves hreply
    rw [hkey, Call.tagBytes_persists persists]
    exact answer.persists persists

/-- Nothing happens to the calls, and no job changes that is out. -/
theorem keep (h : Keyed w) (e : Effect Software.rules w w')
    (hc : w'.host.calls = w.host.calls)
    (hjobs : ∀ j ∈ w'.afloat, ∃ k ∈ w.afloat, j.recipient = k.recipient ∧ j.input = k.input ∧
      j.descriptor = k.descriptor) (hh : ∀ j ∈ w'.hand, j ∈ w.hand) : Keyed w' := by
  refine h.transfer e (by rw [hc]) hjobs (fun j hj => .inl (hh j hj)) ?_
  intro ticket c c' hget hget'
  rw [hc, hget] at hget'
  exact .inl (congrArg Call.reply (Option.some.inj hget').symm)

theorem idle (h : Keyed w) (e : Effect Software.rules w w')
    (hi : w'.host.engine.inside = w.host.engine.inside) (hc : w'.host.calls = w.host.calls)
    (hh : w'.hand = w.hand) : Keyed w' := by
  have hafloat : w'.afloat = w.afloat := by rw [afloat, hi, hh, afloat]
  exact h.keep e hc (fun j hj => ⟨j, hafloat ▸ hj, rfl, rfl, rfl⟩) fun j hj => hh ▸ hj

/-- A call ends with an answer; the others, and the jobs that stay out, are left alone. -/
theorem ended (h : Keyed w) (e : Effect Software.rules w w') {ticket : Nat} {c c' : Call}
    (hget : w.host.calls[ticket]? = some c) (hc : w'.host.calls = w.host.calls.set ticket c')
    (ha : ∀ s reply, w.Serves ticket c s → c'.reply = some reply →
      c.Answer (c.tagBytes s.key) reply)
    (hjobs : ∀ j ∈ w'.afloat, j ∈ w.afloat) (hh : ∀ j ∈ w'.hand, j ∈ w.hand) : Keyed w' := by
  refine h.transfer e (by rw [hc, List.length_set]) (fun j hj => ⟨j, hjobs j hj, rfl, rfl, rfl⟩)
    (fun j hj => .inl (hh j hj)) ?_
  intro t d d' ht ht'
  rw [hc] at ht'
  rcases getElem?_set_eq_some ht' with ⟨rfl, rfl⟩ | old
  · obtain rfl : c = d := Option.some.inj (hget.symm.trans ht)
    exact .inr ha
  · exact .inl (congrArg Call.reply (Option.some.inj (old.symm.trans ht)))

theorem taken (h : Keyed w) {step : PacketAuth.Step Software Job}
    (hstep : w.host.engine.handBack w.host.now = some step) :
    Keyed ⟨{ w.host with engine := step.state, log := step.events.reverse ++ w.host.log },
      w.hand ++ [step.answer]⟩ := by
  obtain ⟨before, job, after, output, outcome, hold, hanswer, hworked, queue, returning, faults, -,
    hnew, -⟩ := Software.handBack_spec hstep
  have out : job ∈ w.afloat := List.mem_append_left _ (by simp [hold])
  have same : ∀ (ticket : Nat) (c c' : Call), w.host.calls[ticket]? = some c →
      w.host.calls[ticket]? = some c' → c'.reply = c.reply := fun ticket c c' hget hget' =>
    congrArg Call.reply (Option.some.inj (hget'.symm.trans hget))
  refine h.transfer (.taken w hstep) rfl (fun j hj => ?_) (fun j hj => ?_)
    fun ticket c c' hget hget' => .inl (same ticket c c' hget hget')
  · rcases List.mem_append.mp hj with hj | hj
    · refine ⟨j, List.mem_append_left _ ?_, rfl, rfl, rfl⟩
      rw [hold]
      exact mem_of_removed (hnew ▸ hj)
    · rcases List.mem_append.mp hj with hj | hj
      · exact ⟨j, List.mem_append_right _ hj, rfl, rfl, rfl⟩
      · rw [List.mem_singleton.mp hj, hanswer]
        exact ⟨job, out, rfl, rfl, rfl⟩
  · rcases List.mem_append.mp hj with hj | hj
    · exact .inl hj
    · refine .inr fun ticket c s hr serves hdone => ?_
      rw [List.mem_singleton.mp hj, hanswer] at hr hdone ⊢
      obtain rfl : outcome = .done := hdone
      obtain ⟨s', serves', hsplit⟩ := h.calls ticket c serves.call
      exact (h.filled job out ticket c s hr serves).carries h.distinct hsplit hworked

/-- A session that was kept in a lane, or was just made for the key, is in the table. -/
theorem session_known (h : Keyed w) {s : Service} (hs : s ∈ w.host.services) {lane : Lane}
    (hl : lane ∈ s.lanes) {session : SessionHandle}
    (ho : lane.session = some session ∨
      ∃ e, (Software.engine.createSession s.key e).answer = .ok session ∧
        (Software.engine.createSession s.key e).state = w.host.engine) :
    (session, s.key) ∈ w.host.engine.sessions := by
  rcases ho with hlane | ⟨e, hanswer, hstate⟩
  · exact (h.services s hs).lanes lane hl session hlane
  · obtain ⟨-, hsessions, -⟩ := Software.createSession_ok hanswer
    rw [← hstate]
    exact hsessions ▸ List.mem_append_right _ (List.mem_singleton.mpr rfl)

theorem afloat_of_submit {filled : Job} {delay now : Nat}
    (he : w'.host.engine = (Software.submit filled delay now w.host.engine.acquire.state).state)
    (hh : w'.hand = w.hand) : ∀ j ∈ w'.afloat, j ∈ w.afloat ∨ j = filled := by
  intro j hj
  rw [afloat, he, hh] at hj
  rcases List.mem_append.mp hj with hj | hj
  · rcases Software.inside_submit_subset hj with hj | rfl
    · rw [Software.acquire_inside] at hj
      exact .inl (List.mem_append_left _ hj)
    · exact .inr rfl
  · exact .inl (List.mem_append_right _ hj)

theorem admitted (h : Keyed w) {s : Service} {r : Request} {lane : Lane} {regions : Regions}
    {session : SessionHandle} {job : Job} (hs : w.host.services[r.service]? = some s)
    (hl : s.lanes[r.lane.index.toNat]? = some lane)
    (hr : s.config.layout.split r.buffer.length r.length = .ok regions)
    (ho : lane.session = some session ∨
      ∃ e, (Software.engine.createSession s.key e).answer = .ok session ∧
        (Software.engine.createSession s.key e).state = w.host.engine)
    {submitted : PacketAuth.Step Software Unit}
    (hq : Software.engine.submit (r.fill s regions session w.host.calls.length job) 0 w.host.now
      w.host.engine.acquire.state = submitted)
    (e : Effect Software.rules w w') (he : w'.host.engine = submitted.state)
    (hsv : w'.host.services = w.host.services)
    (hc : w'.host.calls = w.host.calls ++ [r.call s regions job w.host.now])
    (hh : w'.hand = w.hand) : Keyed w' := by
  obtain ⟨handles, distinct⟩ := h.handles_effect e
  have known := h.session_known (List.mem_of_getElem? hs) (List.mem_of_getElem? hl) ho
  have jobs : ∀ j ∈ w'.afloat, j ∈ w.afloat ∨
      j = r.fill s regions session w.host.calls.length job := by
    subst hq
    exact afloat_of_submit he hh
  -- a call is either one of those before, or the new one
  have serving : ∀ {ticket c s'}, w'.Serves ticket c s' → w.Serves ticket c s' ∨
      ticket = w.host.calls.length ∧ c = r.call s regions job w.host.now ∧ s' = s := by
    intro ticket c s' serves
    obtain ⟨hcall, hservice⟩ := serves
    rw [hc] at hcall
    rw [hsv] at hservice
    rcases getElem?_append_singleton hcall with old | ⟨rfl, rfl⟩
    · exact .inl ⟨old, hservice⟩
    · exact .inr ⟨rfl, rfl, Option.some.inj (hservice.symm.trans hs)⟩
  have filled : (r.fill s regions session w.host.calls.length job).FilledFor
      (r.call s regions job w.host.now) s.key w.host.engine.sessions :=
    ⟨rfl, session, rfl, known⟩
  refine ⟨h.custody.effect e, handles, distinct, e.sound h.services, ?_, ?_, ?_, ?_⟩
  · intro ticket c hget
    by_cases ht : ticket < w.host.calls.length
    · exact h.calls_effect e ht hget
    · rw [hc] at hget
      obtain old | ⟨rfl, rfl⟩ := getElem?_append_singleton hget
      · exact absurd (List.getElem?_eq_some_iff.mp old).1 ht
      · exact ⟨s, ⟨by rw [hc]; simp, by rw [hsv]; exact hs⟩, hr⟩
  · intro j hj ticket c s' hrecipient serves
    rcases jobs j hj with old | rfl
    · rcases serving serves with serves | ⟨rfl, -, -⟩
      · exact (h.filled j old ticket c s' hrecipient serves).congr rfl rfl rfl rfl
          e.sessions_subset
      · exact absurd hrecipient (h.custody.recipient_ne_new old)
    · obtain rfl : w.host.calls.length = ticket := by simpa [Request.fill] using hrecipient
      rcases serving serves with serves | ⟨-, rfl, rfl⟩
      · have := serves.call
        simp at this
      · exact filled.congr rfl rfl rfl rfl e.sessions_subset
  · intro j hj ticket c s' hrecipient serves hdone
    rw [hh] at hj
    rcases serving serves with serves | ⟨rfl, -, -⟩
    · exact h.carried j hj ticket c s' hrecipient serves hdone
    · exact absurd hrecipient (h.custody.recipient_ne_new (List.mem_append_right _ hj))
  · intro ticket c s' serves reply hreply
    rcases serving serves with serves | ⟨-, rfl, -⟩
    · exact h.answered ticket c s' serves reply hreply
    · cases hreply

theorem passed {host host' : Host Software} {before after : List Job} {job : Job}
    (h : Keyed ⟨host, before ++ job :: after⟩) (s : Settlement Software.engine host job host') :
    Keyed ⟨host', before ++ after⟩ := by
  have e : Effect Software.rules ⟨host, before ++ job :: after⟩ ⟨host', before ++ after⟩ :=
    .passed host before after s
  have mem : job ∈ before ++ job :: after := List.mem_append_right before List.mem_cons_self
  have rest : ∀ j ∈ before ++ after, j ∈ before ++ job :: after := fun _ => mem_of_removed
  have out : ∀ j ∈ host.engine.inside ++ (before ++ after),
      j ∈ World.afloat ⟨host, before ++ job :: after⟩ := by
    intro j hj
    rcases List.mem_append.mp hj with hj | hj
    · exact List.mem_append_left _ hj
    · exact List.mem_append_right _ (rest j hj)
  cases s with
  | strayed => exact h.keep e rfl (fun j hj => ⟨j, out j hj, rfl, rfl, rfl⟩) rest
  | resubmitted hj hc hb ha hr hq =>
    subst hq
    refine h.keep e rfl (fun j hj => ?_) rest
    have split : j ∈ host.engine.inside ++ (before ++ after) ∨ j = job.rearm := by
      rcases List.mem_append.mp hj with hj | hj
      · rcases Software.inside_submit_subset hj with hj | rfl
        · exact .inl (List.mem_append_left _ hj)
        · exact .inr rfl
      · exact .inl (List.mem_append_right _ hj)
    rcases split with hj | rfl
    · exact ⟨j, out j hj, rfl, rfl, rfl⟩
    · exact ⟨job, List.mem_append_right _ mem, rfl, rfl, rfl⟩
  | @finished job' ticket c exhausted hj hc hw hp hr =>
    refine h.ended e hc rfl (fun s reply serves hreply => ?_) out rest
    obtain rfl : (c.ending job').reply = reply := Option.some.inj hreply
    refine c.answer_ending fun hdone => ?_
    rcases Call.settle_of_pending hp hr with ⟨-, rfl⟩ | ⟨-, rfl⟩
    · exact h.carried job' mem ticket c s hj serves hdone
    · cases hdone
  | stranded hj hc hw hp hr =>
    have waiting := (h.custody.slots _ (List.mem_of_getElem? hc)).mp hp
    rw [waiting] at hw
    cases hw
  | refused hj hc hp hr =>
    refine h.keep e rfl (fun j hj => ⟨j, out j ?_, rfl, rfl, rfl⟩) rest
    revert hj
    dsimp only [afloat]
    split <;> exact id

theorem left (h : Keyed w) {ticket : Nat} {c : Call} {reason : CancelReason}
    (hget : w.host.calls[ticket]? = some c) (e : Effect Software.rules w w')
    (he : w'.host.engine = Software.engine.withdraw c.job w.host.engine)
    (hc : w'.host.calls = w.host.calls.set ticket
      { c with
        slot := .abandoned
        reply := some (.failed c.request ⟨.waitInterrupted, some reason.text⟩) })
    (hh : w'.hand = w.hand) : Keyed w' := by
  refine h.ended e hget hc (fun s reply serves hreply => ?_) (fun j hj => ?_) fun j hj => hh ▸ hj
  · cases hreply
    exact .failed (.inr rfl)
  · rw [afloat, he, hh] at hj
    rcases List.mem_append.mp hj with hj | hj
    · exact List.mem_append_left _ (Software.inside_withdraw_subset hj)
    · exact List.mem_append_right _ hj

theorem effect (h : Keyed w) (e : Effect Software.rules w w') : Keyed w' := by
  cases e with
  | aside => exact h.idle (.aside w _ _) rfl rfl rfl
  | installed _ hb => exact h.idle (.installed w hb) rfl rfl rfl
  | misconfigured _ hb => exact h.idle (.misconfigured w hb) rfl rfl rfl
  | dropped _ i => exact h.idle (.dropped w i) rfl rfl rfl
  | changed _ hchange => exact h.idle (.changed w hchange) hchange.frame.1 rfl rfl
  | opened _ hs hl hn ha =>
    exact h.idle (.opened w hs hl hn ha) (Software.createSession_inside _ w.host.engine) rfl rfl
  | notOpened _ hs hl hn ha =>
    exact h.idle (.notOpened w hs hl hn ha) (Software.createSession_inside _ w.host.engine) rfl rfl
  | rejected _ hs hp => exact h.idle (.rejected w hs hp) rfl rfl rfl
  | starved _ hs ha =>
    exact h.idle (.starved w hs ha) (Software.acquire_inside _) rfl rfl
  | admitted _ hs hl hr ho ha hq =>
    exact h.admitted hs hl hr ho hq (.admitted w hs hl hr ho ha hq) rfl rfl rfl rfl
  | taken _ hstep => exact h.taken hstep
  | passed host before after s => exact h.passed s
  | collected _ hl hc hw hp =>
    have pending := (h.custody.slots _ (List.mem_of_getElem? hc)).mpr hw
    rw [pending] at hp
    cases hp
  | left _ hl hc hw hp => exact h.left hc (.left w hl hc hw hp) rfl rfl rfl

theorem effects (h : Keyed w) (e : Effects Software.rules w w') : Keyed w' := by
  induction e with
  | refl => exact h
  | tail _ effect ih => exact ih.effect effect

theorem run (h : Keyed w) (r : Run Software.rules w w') : Keyed w' := h.effects r.effects

end Keyed
end World
end PacketAuth
