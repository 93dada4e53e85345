import PacketAuth.Proofs.Effect

/-! What lasts: a service keeps its key and its settings, a call keeps all that it asked for, and
its reply once it has one. -/
namespace PacketAuth

theorem forall_mem_modify {α : Type} {xs : List α} {i : Nat} {f : α → α} {P : α → Prop}
    (h : ∀ x ∈ xs, P x) (hf : ∀ x, xs[i]? = some x → P x → P (f x)) : ∀ x ∈ xs.modify i f, P x := by
  intro x hx
  obtain ⟨j, hj⟩ := List.getElem?_of_mem hx
  rw [List.getElem?_modify] at hj
  obtain ⟨old, hold, rfl⟩ := Option.map_eq_some_iff.mp hj
  have known := h old (List.mem_of_getElem? hold)
  split
  · rename_i same
    exact hf old (same ▸ hold) known
  · exact known

/-- An entry after a number of changes to entries depends on those that were made to it. -/
theorem getElem?_foldl_modify {α β : Type} (xs : List β) (place : β → Nat) (f : β → α → α)
    (ys : List α) (i : Nat) :
    (xs.foldl (fun ys x => ys.modify (place x) (f x)) ys)[i]? =
      ys[i]?.map fun y => (xs.filter (place · = i)).foldl (fun y x => f x y) y := by
  induction xs generalizing ys with
  | nil => exact Option.map_id'.symm
  | cons x xs ih =>
    rw [List.foldl_cons, ih, List.getElem?_modify, List.filter_cons]
    by_cases here : place x = i
    · simp [here, Function.comp_def]
    · simp [here]

/-- An entry of a list with one entry replaced is the new one, or was there before. -/
theorem getElem?_set_eq_some {α : Type} {xs : List α} {i j : Nat} {x y : α}
    (h : (xs.set i x)[j]? = some y) : i = j ∧ x = y ∨ xs[j]? = some y := by
  rw [List.getElem?_set] at h
  split at h
  · rename_i same
    split at h
    · exact .inl ⟨same, Option.some.inj h⟩
    · cases h
  · exact .inr h

theorem requests_of_set {calls : List Call} {ticket : Nat} {c c' : Call}
    (hc : calls[ticket]? = some c) (hr : c'.request = c.request) :
    (calls.set ticket c').map Call.request = calls.map Call.request := by
  obtain ⟨hlt, rfl⟩ := List.getElem?_eq_some_iff.mp hc
  have there : ticket < (calls.map Call.request).length := by rwa [List.length_map]
  have unchanged := List.set_getElem_self there
  rwa [List.getElem_map, ← hr, ← List.map_set] at unchanged

/-- The same service at a later time. -/
structure Service.Persists (s s' : Service) : Prop where
  key : s'.key = s.key
  config : s'.config = s.config

/-- The same call at a later time. -/
structure Call.Persists (c c' : Call) : Prop where
  request : c'.request = c.request
  regions : c'.regions = c.regions
  retry : c'.retry = c.retry
  job : c'.job = c.job
  deadline : c'.deadline = c.deadline
  reply : ∀ reply, c.reply = some reply → c'.reply = some reply

theorem Service.Persists.refl {s : Service} : s.Persists s := ⟨rfl, rfl⟩

theorem Service.Persists.trans {s s' s'' : Service} (h : s.Persists s') (h' : s'.Persists s'') :
    s.Persists s'' :=
  ⟨h'.key.trans h.key, h'.config.trans h.config⟩

theorem Call.Persists.refl {c : Call} : c.Persists c := ⟨rfl, rfl, rfl, rfl, rfl, fun _ h => h⟩

theorem Call.Persists.trans {c c' c'' : Call} (h : c.Persists c') (h' : c'.Persists c'') :
    c.Persists c'' :=
  ⟨h'.request.trans h.request, h'.regions.trans h.regions, h'.retry.trans h.retry,
    h'.job.trans h.job, h'.deadline.trans h.deadline,
    fun reply hr => h'.reply reply (h.reply reply hr)⟩

/-- A call that still waits did before. -/
theorem Call.Persists.waits {c c' : Call} (h : c.Persists c') (hw : c'.isWaiting = true) :
    c.isWaiting = true := by
  unfold Call.isWaiting at hw ⊢
  cases hr : c.reply with
  | none => rfl
  | some reply =>
    rw [h.reply reply hr] at hw
    cases hw

/-- A call that waits may take any reply. -/
theorem Call.answer_persists {c : Call} (hw : c.isWaiting = true) (slot : Slot)
    (reply : Option Reply) : c.Persists { c with slot, reply } := by
  refine ⟨rfl, rfl, rfl, rfl, rfl, fun r hr => ?_⟩
  rw [isWaiting, hr] at hw
  cases hw

theorem Service.credit_persists (c : Call) (job : Job) (s : Service) :
    s.Persists (c.credit job s) := by
  unfold Call.credit
  dsimp only
  cases (c.ending job).cached <;> exact ⟨rfl, rfl⟩

namespace Host
variable {σ : Type}

/-- The services and the calls of a host are still there on another. -/
structure Persists (h h' : Host σ) : Prop where
  service : ∀ (i : Nat) (s : Service), h.services[i]? = some s →
    ∃ s', h'.services[i]? = some s' ∧ s.Persists s'
  call : ∀ (ticket : Nat) (c : Call), h.calls[ticket]? = some c →
    ∃ c', h'.calls[ticket]? = some c' ∧ c.Persists c'

theorem Persists.trans {h h' h'' : Host σ} (p : h.Persists h') (p' : h'.Persists h'') :
    h.Persists h'' where
  service i s hs := by
    obtain ⟨s', hs', k⟩ := p.service i s hs
    obtain ⟨s'', hs'', k'⟩ := p'.service i s' hs'
    exact ⟨s'', hs'', k.trans k'⟩
  call ticket c hc := by
    obtain ⟨c', hc', k⟩ := p.call ticket c hc
    obtain ⟨c'', hc'', k'⟩ := p'.call ticket c' hc'
    exact ⟨c'', hc'', k.trans k'⟩

/-- What has one ticket before and after is one call. -/
theorem Persists.of_ticket {h h' : Host σ} (p : h.Persists h') {ticket : Nat} {c c' : Call}
    (hc : h.calls[ticket]? = some c) (hc' : h'.calls[ticket]? = some c') : c.Persists c' := by
  obtain ⟨c'', hc'', kept⟩ := p.call ticket c hc
  obtain rfl : c'' = c' := Option.some.inj (hc''.symm.trans hc')
  exact kept

theorem service_of_modify {h h' : Host σ} {i : Nat} {f : Service → Service}
    (hs : h'.services = h.services.modify i f) (hf : ∀ s : Service, s.Persists (f s)) {j : Nat}
    {s : Service} (hj : h.services[j]? = some s) :
    ∃ s', h'.services[j]? = some s' ∧ s.Persists s' := by
  rw [hs, List.getElem?_modify, hj]
  refine ⟨_, rfl, ?_⟩
  dsimp only
  split
  · exact hf s
  · exact .refl

theorem call_of_set {h h' : Host σ} {ticket : Nat} {c c' : Call}
    (hc : h.calls[ticket]? = some c) (hs : h'.calls = h.calls.set ticket c') (hp : c.Persists c')
    {t : Nat} {d : Call} (ht : h.calls[t]? = some d) :
    ∃ d', h'.calls[t]? = some d' ∧ d.Persists d' := by
  obtain ⟨hlt, -⟩ := List.getElem?_eq_some_iff.mp hc
  rw [hs]
  by_cases same : ticket = t
  · subst same
    obtain rfl : c = d := by simpa [hc] using ht
    exact ⟨c', List.getElem?_set_self hlt, hp⟩
  · rw [List.getElem?_set_ne same]
    exact ⟨d, ht, .refl⟩

theorem Persists.of_eq {h h' : Host σ} (hs : h'.services = h.services) (hc : h'.calls = h.calls) :
    h.Persists h' where
  service _ s hi := ⟨s, hs ▸ hi, .refl⟩
  call _ c ht := ⟨c, hc ▸ ht, .refl⟩

theorem Persists.of_modify {h h' : Host σ} {i : Nat} {f : Service → Service}
    (hs : h'.services = h.services.modify i f) (hf : ∀ s : Service, s.Persists (f s))
    (hc : h'.calls = h.calls) : h.Persists h' where
  service _ _ hi := service_of_modify hs hf hi
  call _ c ht := ⟨c, hc ▸ ht, .refl⟩

theorem Persists.of_answer {h h' : Host σ} {i ticket : Nat} {f : Service → Service} {c c' : Call}
    (hc : h.calls[ticket]? = some c) (hs : h'.services = h.services.modify i f)
    (hcalls : h'.calls = h.calls.set ticket c') (hf : ∀ s : Service, s.Persists (f s))
    (hp : c.Persists c') : h.Persists h' where
  service _ _ hi := service_of_modify hs hf hi
  call _ _ ht := call_of_set hc hcalls hp ht

end Host

namespace World
variable {σ : Type} {R : Rules σ}

theorem Settlement.persists {E : Engine σ} {h h' : Host σ} {job : Job}
    (s : Settlement E h job h') : h.Persists h' := by
  cases s with
  | strayed | refused => exact .of_eq rfl rfl
  | resubmitted => exact .of_modify rfl (fun _ => ⟨rfl, rfl⟩) rfl
  | @finished job' ticket c exhausted hj hc hw hp hr =>
    exact .of_answer hc rfl rfl (Service.credit_persists c job') (c.answer_persists hw _ _)
  | @stranded job' ticket c exhausted hj hc =>
    have kept : c.Persists { c with slot := .completed job' } :=
      ⟨rfl, rfl, rfl, rfl, rfl, fun _ hr => hr⟩
    exact ⟨fun i s hi => ⟨s, hi, .refl⟩, fun t d ht => Host.call_of_set hc rfl kept ht⟩

theorem Effect.persists {w w' : World σ} (e : Effect R w w') : w.host.Persists w'.host := by
  cases e with
  | aside | misconfigured | changed | taken => exact .of_eq rfl rfl
  | installed =>
    refine ⟨fun i s hi => ⟨s, ?_, .refl⟩, fun ticket c ht => ⟨c, ht, .refl⟩⟩
    exact (List.getElem?_append_left (List.getElem?_eq_some_iff.mp hi).1).trans hi
  | dropped | opened | notOpened | rejected | starved =>
    exact .of_modify rfl (fun _ => ⟨rfl, rfl⟩) rfl
  | admitted =>
    refine ⟨fun i s hi => ⟨s, hi, .refl⟩, fun ticket c ht => ⟨c, ?_, .refl⟩⟩
    exact (List.getElem?_append_left (List.getElem?_eq_some_iff.mp ht).1).trans ht
  | passed h before after s => exact s.persists
  | @collected _ ticket c job hl hc hw hp =>
    exact .of_answer hc rfl rfl (Service.credit_persists c job) (c.answer_persists hw _ _)
  | @left _ ticket c reason hl hc hw hp =>
    exact .of_answer hc rfl rfl (fun _ => ⟨rfl, rfl⟩) (c.answer_persists hw _ _)

theorem Effects.persists {w w' : World σ} (e : Effects R w w') : w.host.Persists w'.host := by
  induction e with
  | refl => exact .of_eq rfl rfl
  | tail _ effect ih => exact ih.trans effect.persists

/-- A reply that is there stays there. -/
theorem Run.reply? {w w' : World σ} (run : Run R w w') {ticket : Nat} {reply : Reply}
    (hr : w.host.reply? ticket = some reply) : w'.host.reply? ticket = some reply := by
  obtain ⟨c, hc, hreply⟩ := Option.bind_eq_some_iff.mp hr
  obtain ⟨c', hc', persists⟩ := (Run.effects run).persists.call ticket c hc
  rw [Host.reply?, hc']
  exact persists.reply reply hreply

/-- A call that was there before the effect is the same call. -/
theorem Effect.call_before {w w' : World σ} (e : Effect R w w') {ticket : Nat} {c' : Call}
    (ht : ticket < w.host.calls.length) (hc : w'.host.calls[ticket]? = some c') :
    ∃ c, w.host.calls[ticket]? = some c ∧ c.Persists c' := by
  have before := List.getElem?_eq_getElem ht
  exact ⟨_, before, e.persists.of_ticket before hc⟩

/-- Calls come in one by one, each on a service that is there and that split its request. -/
theorem Effect.calls_length {w w' : World σ} (e : Effect R w w') :
    w'.host.calls.length = w.host.calls.length ∨
      ∃ (s : Service) (r : Request) (regions : Regions) (job : Job),
        w.host.services[r.service]? = some s ∧ w'.host.services = w.host.services ∧
        s.config.layout.split r.buffer.length r.length = .ok regions ∧
        w'.host.calls = w.host.calls ++ [r.call s regions job w.host.now] := by
  cases e with
  | aside | installed | misconfigured | dropped | changed | opened | notOpened | rejected |
    starved | taken => exact .inl rfl
  | @admitted _ s r lane regions session job hs hl hr =>
    exact .inr ⟨s, r, regions, job, hs, rfl, hr, rfl⟩
  | passed h before after s =>
    left
    cases s with
    | strayed | resubmitted | refused => rfl
    | finished | stranded => exact List.length_set
  | collected | left => exact .inl List.length_set

/-- Every call is on a service, in some relation to it. -/
def Employed (P : Service → Call → Prop) (w : World σ) : Prop :=
  ∀ (ticket : Nat) (c : Call), w.host.calls[ticket]? = some c →
    ∃ s : Service, w.host.services[c.request.service]? = some s ∧ P s c

/-- A relation that a service has to each new call of its own, and keeps. -/
structure Lasting (P : Service → Call → Prop) : Prop where
  keeps : ∀ {s s' c c'}, s.Persists s' → c.Persists c' → P s c → P s' c'
  makes : ∀ {s : Service} {r : Request} {regions : Regions} (job : Job) (now : Nat),
    s.config.layout.split r.buffer.length r.length = .ok regions → P s (r.call s regions job now)

namespace Employed
variable {P : Service → Call → Prop} {w w' : World σ}

theorem persists (k : Lasting P) (h : Employed P w) (p : w.host.Persists w'.host) {ticket : Nat}
    (ht : ticket < w.host.calls.length) {c' : Call} (hc : w'.host.calls[ticket]? = some c') :
    ∃ s : Service, w'.host.services[c'.request.service]? = some s ∧ P s c' := by
  have hget := List.getElem?_eq_getElem ht
  obtain ⟨s, hs, made⟩ := h ticket _ hget
  have kept := p.of_ticket hget hc
  obtain ⟨s', hs', same⟩ := p.service _ s hs
  refine ⟨s', ?_, k.keeps same kept made⟩
  rw [kept.request]
  exact hs'

theorem effect (k : Lasting P) (h : Employed P w) (e : Effect R w w') : Employed P w' := by
  intro ticket c' hc
  have hlt := (List.getElem?_eq_some_iff.mp hc).1
  rcases e.calls_length with same | ⟨s, r, regions, job, hs, hservices, hsplit, hcalls⟩
  · exact h.persists k e.persists (same ▸ hlt) hc
  · rw [hcalls, List.length_append, List.length_singleton] at hlt
    rcases Nat.lt_succ_iff_lt_or_eq.mp hlt with old | rfl
    · exact h.persists k e.persists old hc
    · rw [hcalls, List.getElem?_concat_length] at hc
      obtain rfl := Option.some.inj hc
      refine ⟨s, ?_, k.makes job w.host.now hsplit⟩
      rw [hservices]
      exact hs

theorem effects (k : Lasting P) (h : Employed P w) (e : Effects R w w') : Employed P w' := by
  induction e with
  | refl => exact h
  | tail _ effect ih => exact ih.effect k effect

end Employed

/-- Every call is on a service, under its policy. -/
def Engaged (w : World σ) : Prop :=
  ∀ (ticket : Nat) (c : Call), w.host.calls[ticket]? = some c →
    ∃ s : Service, w.host.services[c.request.service]? = some s ∧ c.retry = s.config.retry

theorem lasting_policy : Lasting fun s c => c.retry = s.config.retry where
  keeps same kept policy := by rw [kept.retry, policy, same.config]
  makes _ _ _ := rfl

theorem Engaged.effects {w w' : World σ} (h : Engaged w) (e : Effects R w w') : Engaged w' :=
  Employed.effects lasting_policy h e

/-- The layout of a service gives each of its calls the regions that it has. -/
theorem lasting_regions : Lasting fun s c =>
    s.config.layout.split c.request.buffer.length c.request.length = .ok c.regions where
  keeps same kept split := by rw [kept.request, kept.regions, same.config, split]
  makes _ _ split := split

end World
end PacketAuth
