import PacketAuth.Proofs.TagEquation

/-! Writing and reading back. The tag that a request wrote is the one that a later reader computes
as long as the payload around the tag is the same, and no other bytes in its place will do. -/
namespace PacketAuth

theorem slice_eq_iff {α : Type} {xs ys : List α} {start n : Nat} :
    (xs.drop start).take n = (ys.drop start).take n ↔
      ∀ i, start ≤ i → i < start + n → xs[i]? = ys[i]? := by
  constructor
  · intro h i hi hlt
    have at' := congrArg (fun zs => zs[i - start]?) h
    have inside : i - start < n := by omega
    simpa [List.getElem?_take, inside, Nat.add_sub_cancel' hi] using at'
  · intro h
    refine List.ext_getElem? fun k => ?_
    simp only [List.getElem?_take, List.getElem?_drop]
    split
    · exact h (start + k) (Nat.le_add_right _ _) (by omega)
    · rfl

namespace Layout

/-- A position at which a request has its tag. -/
def InTag (l : Layout) (i : Nat) : Prop := l.tagOffset ≤ i ∧ i < l.tagOffset + Tag.size

instance (l : Layout) (i : Nat) : Decidable (l.InTag i) := inferInstanceAs (Decidable (_ ∧ _))

/-- The tag itself, and whatever stands in front of the payload or behind the request, are not
authenticated. -/
theorem authenticated_congr {l : Layout} {b b' : List UInt8} {n : Nat} (hb : n ≤ b.length)
    (hb' : n ≤ b'.length)
    (h : ∀ i, l.prefixLength ≤ i → i < n → ¬ l.InTag i → b[i]? = b'[i]?) :
    l.authenticated b n = l.authenticated b' n := by
  refine List.ext_getElem? fun k => ?_
  simp only [authenticated, List.getElem?_drop, List.getElem?_mapIdx, List.getElem?_take]
  by_cases inside : l.prefixLength + k < n
  · rw [if_pos inside, if_pos inside]
    by_cases ht : l.InTag (l.prefixLength + k)
    · have masked : l.tagOffset ≤ l.prefixLength + k ∧
          l.prefixLength + k < l.tagOffset + Tag.size := ht
      rw [List.getElem?_eq_getElem (by omega), List.getElem?_eq_getElem (by omega)]
      simp only [Option.map_some, if_pos masked]
    · rw [h _ (Nat.le_add_right _ _) inside ht]
  · rw [if_neg inside, if_neg inside]

end Layout

/-- A written tag changes nothing outside its place. -/
theorem getElem?_written {buffer tag : List UInt8} {l : Layout} (ht : tag.length = Tag.size)
    (hfit : l.tagOffset + Tag.size ≤ buffer.length) {i : Nat} (hi : ¬ l.InTag i) :
    (buffer.take l.tagOffset ++ tag ++ buffer.drop (l.tagOffset + Tag.size))[i]? = buffer[i]? := by
  have front : (buffer.take l.tagOffset).length = l.tagOffset :=
    List.length_take_of_le (by omega)
  rw [Layout.InTag] at hi
  by_cases before : i < l.tagOffset
  · rw [List.append_assoc, List.getElem?_append_left (by omega), List.getElem?_take, if_pos before]
  · rw [List.getElem?_append_right (by simp only [List.length_append]; omega),
      List.getElem?_drop]
    congr 1
    simp only [List.length_append, front, ht]
    omega

theorem slice_written {buffer tag : List UInt8} {l : Layout} (ht : tag.length = Tag.size)
    (hfit : l.tagOffset + Tag.size ≤ buffer.length) :
    ((buffer.take l.tagOffset ++ tag ++ buffer.drop (l.tagOffset + Tag.size)).drop
      l.tagOffset).take Tag.size = tag := by
  have front : (buffer.take l.tagOffset).length = l.tagOffset :=
    List.length_take_of_le (by omega)
  rw [List.append_assoc, List.drop_left' front, List.take_left' ht]

/-- Two services with one key and one layout compute one tag for requests with the same payload. -/
theorem Service.tagOf_congr {s t : Service} {r q : Request} (hk : t.key = s.key)
    (hl : t.config.layout = s.config.layout) (hn : q.length = r.length)
    (hr : r.length ≤ r.buffer.length) (hq : q.length ≤ q.buffer.length)
    (h : ∀ i, s.config.layout.prefixLength ≤ i → i < r.length → ¬ s.config.layout.InTag i →
      q.buffer[i]? = r.buffer[i]?) : t.tagOf q = s.tagOf r := by
  rw [Service.tagOf, Service.tagOf, hk, hl, hn,
    Layout.authenticated_congr (by omega) hr h]

namespace World

/-- A reply to a request, of a call that waited for it or was performed at once. -/
inductive Replied (w : World Software) (s : Service) (r : Request) (reply : Reply) : Prop
  | performed {h' : Host Software}
      (h : w.host.perform Software.engine s r = (some reply, h')) : Replied w s r reply
  | waited {ticket : Nat} {h' : Host Software} {v : World Software}
      (he : w.host.enter Software.engine s r = (.ok ticket, h'))
      (run : Run Software.rules ⟨h', w.hand⟩ v) (hr : v.host.reply? ticket = some reply) :
      Replied w s r reply

variable {w : World Software} {s : Service} {r : Request} {reply : Reply}

theorem Replied.follows (h : w.Replied s r reply) (keyed : Keyed w)
    (hs : w.host.services[r.service]? = some s) : reply.Follows s r := by
  cases h with
  | performed hp => exact follows_of_performed keyed hs hp
  | waited he run hr => exact follows_of_entered keyed hs he (Run.effects run) hr

/-- Only well-formed requests pass the engine. -/
theorem Replied.sized (h : w.Replied s r reply) (passed : reply.PassedEngine) :
    s.config.layout.prefixLength + Tag.size ≤ r.length ∧ r.length ≤ r.buffer.length := by
  have sized : ∀ {ticket h'}, w.host.enter Software.engine s r = (.ok ticket, h') →
      s.config.layout.prefixLength + Tag.size ≤ r.length ∧ r.length ≤ r.buffer.length := by
    intro ticket h' he
    obtain ⟨lane, regions, session, opened, job, hp, -⟩ := Host.enter_ok he
    obtain ⟨hmin, hfit, -⟩ := Layout.split_ok (prepare_ok hp).2
    exact ⟨hmin, hfit⟩
  cases h with
  | waited he => exact sized he
  | performed hp =>
    cases he : w.host.enter Software.engine s r with
    | mk answer entered =>
      cases answer with
      | ok ticket => exact sized he
      | error f =>
        rw [Host.perform, Host.start, he] at hp
        obtain rfl : Reply.failed r f = reply := Option.some.inj (Prod.mk.inj hp).1
        have mismatch : f.kind = .authenticationMismatch := passed
        rcases Host.enter_error he with hk | hk | hk | hk <;> rw [hk] at mismatch <;> cases mismatch

/-- What a write that succeeded leaves behind: the tag in its place, and no other change. -/
theorem Replied.written {capacity : Capacity} (reach : Run Software.rules (fresh capacity) w)
    (hs : w.host.services[r.service]? = some s) (h : w.Replied s r reply)
    (hc : r.command = .write) (ok : reply.result = .ok ()) :
    (reply.buffer.drop s.config.layout.tagOffset).take Tag.size = s.tagOf r ∧
      (∀ i, ¬ s.config.layout.InTag i → reply.buffer[i]? = r.buffer[i]?) ∧
      s.config.layout.prefixLength + Tag.size ≤ r.length ∧ r.length ≤ r.buffer.length := by
  have keyed := (Keyed.fresh capacity).run reach
  have passed : reply.PassedEngine := by rw [Reply.PassedEngine, ok]; trivial
  obtain ⟨hmin, hfit⟩ := h.sized passed
  have before :=
    (Layout.validate_eq_ok.mp (keyed.services s (List.mem_of_getElem? hs)).layout).1
  have room : s.config.layout.tagOffset + Tag.size ≤ r.buffer.length := by omega
  obtain ⟨hreply, -⟩ := (h.follows keyed hs).written hc passed
  rw [hreply]
  exact ⟨slice_written (s.tagOf_length r) room,
    fun i hi => getElem?_written (s.tagOf_length r) room hi, hmin, hfit⟩

/-- A buffer that a write has turned into another is accepted by every reader under the same key
and layout as long as tag and payload are as they were left, whatever stands in front of them and
behind; if the payload is the same and one byte of the tag is not, it is refused. -/
theorem written_tag_reads_back {capacity capacity' : Capacity} {w v : World Software}
    (hw : Run Software.rules (fresh capacity) w) (hv : Run Software.rules (fresh capacity') v)
    {s t : Service} {r q : Request} (hs : w.host.services[r.service]? = some s)
    (ht : v.host.services[q.service]? = some t) (hk : t.key = s.key)
    (hl : t.config.layout = s.config.layout) (hn : q.length = r.length)
    (hwrite : r.command = .write) (hread : q.command = .read) {wrote read : Reply}
    (hwrote : w.Replied s r wrote) (ok : wrote.result = .ok ()) (hreply : v.Replied t q read)
    (passed : read.PassedEngine) :
    let l := s.config.layout
    ((∀ i, l.InTag i ∨ l.prefixLength ≤ i ∧ i < r.length → q.buffer[i]? = wrote.buffer[i]?) →
      read = ⟨.ok (), q.buffer⟩) ∧
    ((∀ i, l.prefixLength ≤ i → i < r.length → ¬ l.InTag i → q.buffer[i]? = wrote.buffer[i]?) →
      (∃ i, l.InTag i ∧ q.buffer[i]? ≠ wrote.buffer[i]?) →
      read = .failed q ⟨.authenticationMismatch, some q.lane.text⟩ ∧
        read.status = .authenticationMismatch ∧ read.length q.length = 0) := by
  intro l
  obtain ⟨tagged, untouched, -, hr⟩ := hwrote.written hw hs hwrite ok
  obtain ⟨-, hq⟩ := hreply.sized passed
  have follows := hreply.follows ((Keyed.fresh capacity').run hv) ht
  have sameTag : (∀ i, l.prefixLength ≤ i → i < r.length → ¬ l.InTag i →
      q.buffer[i]? = wrote.buffer[i]?) → t.tagOf q = s.tagOf r := fun same =>
    Service.tagOf_congr hk hl hn hr hq fun i hi hlt out =>
      (same i hi hlt out).trans (untouched i out)
  refine ⟨fun same => follows.verified hread passed ?_, fun same differs => ?_⟩
  · rw [sameTag fun i hi hlt _ => same i (.inr ⟨hi, hlt⟩), ← tagged, hl]
    exact slice_eq_iff.mpr fun i hi hlt => same i (.inl ⟨hi, hlt⟩)
  · obtain ⟨i, ⟨hi, hlt⟩, hne⟩ := differs
    have refused := follows.refused hread passed (by
      rw [sameTag same, ← tagged, hl]
      exact fun equal => hne (slice_eq_iff.mp equal i hi hlt))
    rw [refused]
    exact ⟨rfl, rfl, rfl⟩

/-- A request read back on another lane than the one it was written on, with one byte more. -/
theorem longer_copy_reads_back :
    ∃ w s r q wrote read, Run Software.rules (fresh {}) w ∧
      w.host.services[r.service]? = some s ∧ w.Replied s r wrote ∧ wrote.result = .ok () ∧
      q.lane ≠ r.lane ∧ q.buffer = wrote.buffer ++ [7] ∧ w.Replied s q read ∧
      read = ⟨.ok (), q.buffer⟩ := by
  let s : Service := .create {} (.ofSeed 1)
  let r : Request := ⟨0, ⟨0⟩, .write, List.replicate 20 0, 20, none⟩
  let w : World Software := ⟨((fresh {}).host.install { key := some (.ofSeed 1) }).2, []⟩
  have reach : Run Software.rules (fresh {}) w := .single (.install (fresh {}) _)
  have keyed := (Keyed.fresh {}).run reach
  have hs : w.host.services[r.service]? = some s := rfl
  have calm : w.host.engine.Untroubled := ⟨rfl, rfl, rfl⟩
  have performed : ∀ q : Request, q.service = 0 → q.lane.index.toNat < s.lanes.length →
      q.length = 20 → 20 ≤ q.buffer.length →
      ∃ reply, w.Replied s q reply ∧ reply.PassedEngine := by
    intro q hservice hlane hlength hbuffer
    have hq : w.host.services[q.service]? = some s := by rw [hservice]; rfl
    have closed : (s.lanes[q.lane.index.toNat]).session.isSome = true ∨
        w.host.engine.isShutDown = false ∧ w.host.engine.faults.sessions = 0 ∧
          w.host.engine.sessions.length < w.host.engine.capacity.sessions :=
      .inr ⟨rfl, rfl, by decide⟩
    obtain ⟨ticket, h', he⟩ := entered_of_free hlane (by rw [hlength]; decide)
      (by rw [hlength]; exact hbuffer) (by decide) closed
    obtain ⟨reply, hp, -, passed⟩ := performed_of_entered keyed calm rfl hq he
    exact ⟨reply, .performed hp, passed⟩
  obtain ⟨wrote, hwrote, passed⟩ := performed r rfl (by decide) rfl (by decide)
  obtain ⟨hreply, hlength⟩ := (hwrote.follows keyed hs).written rfl passed
  have ok : wrote.result = .ok () := by rw [hreply]
  let q : Request := ⟨0, ⟨1⟩, .read, wrote.buffer ++ [7], 20, none⟩
  have longer : q.buffer.length = 21 := by
    rw [List.length_append, hlength]
    rfl
  have hq : w.host.services[q.service]? = some s := rfl
  have otherLane : (1 : UInt8).toNat < s.lanes.length := by decide
  obtain ⟨read, hread, passed'⟩ := performed q rfl otherLane rfl (by omega)
  have accepted := (written_tag_reads_back reach reach hs hq rfl rfl rfl rfl rfl hwrote ok hread
    passed').1 fun i hi => by
      have inside : i < wrote.buffer.length := by
        rw [hlength]
        rcases hi with ⟨-, hi⟩ | ⟨-, hi⟩
        · exact hi
        · exact hi
      exact List.getElem?_append_left inside
  refine ⟨w, s, r, q, wrote, read, reach, hs, hwrote, ok, ?_, rfl, hread, accepted⟩
  exact fun same : (⟨1⟩ : LaneId) = ⟨0⟩ => absurd same (by decide)

end World
end PacketAuth
