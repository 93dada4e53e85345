import PacketAuth.Proofs.Record
import Mathlib.Algebra.BigOperators.Group.Finset.Piecewise

/-! What a service counts as retries, against the record of its engine: each job of its calls that
was submitted once more, whatever the engine is. -/
namespace PacketAuth.World
variable {σ : Type} {R : Rules σ} {w w' : World (Recorded σ)}

/-- What a service counted as retries. -/
def retries (w : World (Recorded σ)) (i : Nat) : Option Nat :=
  w.host.services[i]?.map (·.stats.busyRetries)

/-- The service of a call. -/
def serviceOf (w : World (Recorded σ)) (ticket : Nat) : Option Nat :=
  w.host.calls[ticket]?.map (·.request.service)

/-- How often the jobs of the calls of a service were submitted once more. -/
def resubmissions (w : World (Recorded σ)) (i : Nat) : Nat :=
  ∑ ticket ∈ Finset.range w.host.calls.length,
    if w.serviceOf ticket = some i then (w.jobs .submitted ticket).length - 1 else 0

/-- Every call has a service and a submitted job, and each service counted the rest. -/
structure Tallied (w : World (Recorded σ)) : Prop where
  none : ∀ ticket, w.serviceOf ticket = none → w.jobs .submitted ticket = []
  submitted : ∀ ticket i, w.serviceOf ticket = some i → w.jobs .submitted ticket ≠ []
  served : ∀ ticket i, w.serviceOf ticket = some i → i < w.host.services.length
  tally : ∀ i n, w.retries i = some n → n = w.resubmissions i

theorem jobs_submitted_of_kind {kind : Deed.Kind} {job : Job} (hk : kind ≠ .submitted)
    (hd : w'.host.engine.deeds = ⟨kind, job⟩ :: w.host.engine.deeds) (ticket : Nat) :
    w'.jobs .submitted ticket = w.jobs .submitted ticket := by
  rw [jobs, hd, Deed.jobs_cons_of_kind hk, jobs]

theorem retries_of_modify {i : Nat} {f : Service → Service}
    (hs : w'.host.services = w.host.services.modify i f)
    (hf : ∀ s, (f s).stats.busyRetries = s.stats.busyRetries) (j : Nat) :
    w'.retries j = w.retries j := by
  rw [retries, hs, List.getElem?_modify, retries]
  cases w.host.services[j]? with
  | none => rfl
  | some s =>
    simp only [Option.map_some, Option.map_eq_map]
    split
    · rw [hf]
    · rfl

theorem serviceOf_of_set {ticket : Nat} {c c' : Call} (hget : w.host.calls[ticket]? = some c)
    (hc : w'.host.calls = w.host.calls.set ticket c') (hr : c'.request = c.request) (t : Nat) :
    w'.serviceOf t = w.serviceOf t := by
  rw [serviceOf, hc, serviceOf]
  by_cases same : ticket = t
  · subst same
    rw [List.getElem?_set_self (List.getElem?_eq_some_iff.mp hget).1, hget, Option.map_some, hr,
      Option.map_some]
  · rw [List.getElem?_set_ne same]

theorem serviceOf_eq_none (w : World (Recorded σ)) {ticket : Nat} :
    w.serviceOf ticket = Option.none ↔ w.host.calls.length ≤ ticket := by
  rw [serviceOf, Option.map_eq_none_iff, List.getElem?_eq_none_iff]

theorem resubmissions_congr (hc : w'.host.calls.length = w.host.calls.length)
    (hs : ∀ ticket, w'.serviceOf ticket = w.serviceOf ticket)
    (hj : ∀ ticket, w'.jobs .submitted ticket = w.jobs .submitted ticket) (i : Nat) :
    w'.resubmissions i = w.resubmissions i := by
  rw [resubmissions, resubmissions, hc]
  exact Finset.sum_congr rfl fun ticket _ => by rw [hs, hj]

/-- The first submission of a call is not a repeated one. -/
theorem resubmissions_admitted (hc : w'.host.calls.length = w.host.calls.length + 1)
    (hs : ∀ ticket, ticket ≠ w.host.calls.length → w'.serviceOf ticket = w.serviceOf ticket)
    (hj : ∀ ticket, ticket ≠ w.host.calls.length →
      w'.jobs .submitted ticket = w.jobs .submitted ticket)
    (hnew : (w'.jobs .submitted w.host.calls.length).length = 1) (i : Nat) :
    w'.resubmissions i = w.resubmissions i := by
  rw [resubmissions, resubmissions, hc, Finset.sum_range_succ, hnew, Nat.sub_self, ite_self,
    Nat.add_zero]
  refine Finset.sum_congr rfl fun ticket hmem => ?_
  have old := Nat.ne_of_lt (Finset.mem_range.mp hmem)
  rw [hs ticket old, hj ticket old]

/-- Each further submission is a repeated one. -/
theorem resubmissions_again {ticket n : Nat} {job : Job} (hc : w'.host.calls = w.host.calls)
    (hservice : w.serviceOf ticket = some n) (hfirst : w.jobs .submitted ticket ≠ [])
    (hj : job.recipient = some (.call ticket))
    (hd : w'.host.engine.deeds = ⟨.submitted, job⟩ :: w.host.engine.deeds) (i : Nat) :
    w'.resubmissions i = w.resubmissions i + if n = i then 1 else 0 := by
  have hlt : ticket < w.host.calls.length := by
    refine Nat.not_le.mp fun le => ?_
    rw [w.serviceOf_eq_none.mpr le] at hservice
    cases hservice
  have entry : ∀ t ∈ Finset.range w.host.calls.length,
      (if w'.serviceOf t = some i then (w'.jobs .submitted t).length - 1 else 0) =
        (if w.serviceOf t = some i then (w.jobs .submitted t).length - 1 else 0) +
          if t = ticket then if n = i then 1 else 0 else 0 := by
    intro t _
    have hserved : w'.serviceOf t = w.serviceOf t := by rw [serviceOf, hc, serviceOf]
    rw [hserved]
    by_cases same : t = ticket
    · have positive := List.length_pos_iff.mpr hfirst
      rw [same, hservice, jobs_self hj hd, List.length_append, List.length_singleton, if_pos rfl]
      simp only [Option.some_inj]
      split
      · omega
      · rfl
    · rw [jobs_other hj hd .submitted same, if_neg same, Nat.add_zero]
  rw [resubmissions, hc, Finset.sum_congr rfl entry, Finset.sum_add_distrib, Finset.sum_ite_eq',
    if_pos (Finset.mem_range.mpr hlt), resubmissions]

namespace Tallied

/-- Nothing that a tally is about has changed. -/
theorem keep (h : Tallied w) (hr : ∀ i, w'.retries i = w.retries i)
    (hl : w'.host.services.length = w.host.services.length)
    (hc : w'.host.calls.length = w.host.calls.length)
    (hs : ∀ ticket, w'.serviceOf ticket = w.serviceOf ticket)
    (hj : ∀ ticket, w'.jobs .submitted ticket = w.jobs .submitted ticket) : Tallied w' where
  none ticket := by
    rw [hs, hj]
    exact h.none ticket
  submitted ticket := by
    rw [hs, hj]
    exact h.submitted ticket
  served ticket := by
    rw [hs, hl]
    exact h.served ticket
  tally i n hn := by
    rw [hr] at hn
    rw [h.tally i n hn, resubmissions_congr hc hs hj]

theorem installed (h : Tallied w) {s : Service} (h0 : s.stats.busyRetries = 0)
    (hs : w'.host.services = w.host.services ++ [s]) (hc : w'.host.calls = w.host.calls)
    (hd : w'.host.engine.deeds = w.host.engine.deeds) : Tallied w' := by
  have hserved : ∀ ticket, w'.serviceOf ticket = w.serviceOf ticket := by
    intro ticket
    rw [serviceOf, hc, serviceOf]
  have hjobs : ∀ ticket, w'.jobs .submitted ticket = w.jobs .submitted ticket := by
    intro ticket
    rw [jobs, hd, jobs]
  refine ⟨fun ticket => ?_, fun ticket => ?_, fun ticket i hi => ?_, fun i n hn => ?_⟩
  · rw [hserved, hjobs]
    exact h.none ticket
  · rw [hserved, hjobs]
    exact h.submitted ticket
  · rw [hserved] at hi
    rw [hs, List.length_append]
    exact Nat.lt_add_right _ (h.served ticket i hi)
  · rw [resubmissions_congr (by rw [hc]) hserved hjobs]
    rw [retries, hs] at hn
    by_cases new : i = w.host.services.length
    · -- nobody called a service that was not there
      have unused : w.resubmissions w.host.services.length = 0 := by
        refine Finset.sum_eq_zero fun ticket _ => if_neg fun hi => ?_
        exact absurd (h.served ticket _ hi) (Nat.lt_irrefl _)
      rw [new, List.getElem?_concat_length, Option.map_some, h0] at hn
      rw [new, unused]
      exact (Option.some.inj hn).symm
    · rw [getElem?_concat_of_ne new] at hn
      exact h.tally i n hn

theorem admitted (h : Tallied w) {s : Service} {r : Request} {regions : Regions}
    {session : SessionHandle} {job : Job} {now : Nat}
    (hr : w.host.services[r.service]? = some s) (hs : w'.host.services = w.host.services)
    (hc : w'.host.calls = w.host.calls ++ [r.call s regions job now])
    (hd : w'.host.engine.deeds =
      ⟨.submitted, r.fill s regions session w.host.calls.length job⟩ :: w.host.engine.deeds) :
    Tallied w' := by
  have addressed : (r.fill s regions session w.host.calls.length job).recipient =
      some (.call w.host.calls.length) := rfl
  have hservice : w'.serviceOf w.host.calls.length = some r.service := by
    rw [serviceOf, hc, List.getElem?_concat_length]
    rfl
  have hnew : w'.jobs .submitted w.host.calls.length =
      [r.fill s regions session w.host.calls.length job] := by
    rw [jobs_self addressed hd, h.none _ (w.serviceOf_eq_none.mpr (Nat.le_refl _)),
      List.nil_append]
  have hserved : ∀ ticket, ticket ≠ w.host.calls.length →
      w'.serviceOf ticket = w.serviceOf ticket := by
    intro ticket other
    rw [serviceOf, hc, getElem?_concat_of_ne other, serviceOf]
  have hjobs : ∀ ticket, ticket ≠ w.host.calls.length →
      w'.jobs .submitted ticket = w.jobs .submitted ticket :=
    fun _ other => jobs_other addressed hd .submitted other
  refine ⟨fun ticket => ?_, fun ticket => ?_, fun ticket i hi => ?_, fun i n hn => ?_⟩
  · by_cases new : ticket = w.host.calls.length
    · rw [new, hservice]
      intro hnone
      cases hnone
    · rw [hserved ticket new, hjobs ticket new]
      exact h.none ticket
  · by_cases new : ticket = w.host.calls.length
    · rw [new, hnew]
      exact fun _ _ => List.cons_ne_nil _ _
    · rw [hserved ticket new, hjobs ticket new]
      exact h.submitted ticket
  · rw [hs]
    by_cases new : ticket = w.host.calls.length
    · rw [new, hservice] at hi
      obtain rfl : r.service = i := Option.some.inj hi
      exact (List.getElem?_eq_some_iff.mp hr).1
    · rw [hserved ticket new] at hi
      exact h.served ticket i hi
  · rw [retries, hs] at hn
    rw [h.tally i n hn, resubmissions_admitted _ hserved hjobs (by rw [hnew]; rfl)]
    rw [hc, List.length_append, List.length_singleton]

theorem resubmitted (h : Tallied w) {ticket : Nat} {c : Call} {job : Job}
    (hget : w.host.calls[ticket]? = some c) (hj : job.recipient = some (.call ticket))
    (hs : w'.host.services = w.host.services.modify c.request.service (·.count .busyRetries))
    (hc : w'.host.calls = w.host.calls)
    (hd : w'.host.engine.deeds = ⟨.submitted, job⟩ :: w.host.engine.deeds) : Tallied w' := by
  have hserved : ∀ t, w'.serviceOf t = w.serviceOf t := by
    intro t
    rw [serviceOf, hc, serviceOf]
  have hservice : w.serviceOf ticket = some c.request.service := by
    rw [serviceOf, hget]
    rfl
  refine ⟨fun t hnone => ?_, fun t i hi => ?_, fun t i => ?_, fun i n hn => ?_⟩
  · rw [hserved] at hnone
    rw [jobs_other hj hd .submitted, h.none t hnone]
    rintro rfl
    rw [hservice] at hnone
    cases hnone
  · rw [hserved] at hi
    by_cases same : t = ticket
    · rw [same, jobs_self hj hd]
      exact List.append_ne_nil_of_right_ne_nil _ (List.cons_ne_nil _ _)
    · rw [jobs_other hj hd .submitted same]
      exact h.submitted t i hi
  · rw [hserved, hs, List.length_modify]
    exact h.served t i
  · rw [resubmissions_again hc hservice (h.submitted ticket _ hservice) hj hd]
    rw [retries, hs, List.getElem?_modify] at hn
    cases hi : w.host.services[i]? with
    | none =>
      rw [hi] at hn
      cases hn
    | some s =>
      have counted := h.tally i s.stats.busyRetries (by rw [retries, hi]; rfl)
      rw [hi, Option.map_eq_map, Option.map_some, Option.map_some] at hn
      rw [← Option.some.inj hn, ← counted]
      split
      · rfl
      · rfl

/-- Counting something else than a retry, and doing nothing with the engine. -/
theorem modify (h : Tallied w) {i : Nat} {f : Service → Service}
    (hs : w'.host.services = w.host.services.modify i f)
    (hf : ∀ s, (f s).stats.busyRetries = s.stats.busyRetries)
    (hc : w'.host.calls = w.host.calls)
    (hj : ∀ ticket, w'.jobs .submitted ticket = w.jobs .submitted ticket) : Tallied w' := by
  refine h.keep (retries_of_modify hs hf) ?_ (by rw [hc]) (fun ticket => ?_) hj
  · rw [hs, List.length_modify]
  · rw [serviceOf, hc, serviceOf]

/-- A call that ends does not submit a job. -/
theorem ended (h : Tallied w) {ticket i : Nat} {c c' : Call} {f : Service → Service}
    (hget : w.host.calls[ticket]? = some c)
    (hc : w'.host.calls = w.host.calls.set ticket c') (hr : c'.request = c.request)
    (hs : w'.host.services = w.host.services.modify i f)
    (hf : ∀ s, (f s).stats.busyRetries = s.stats.busyRetries)
    (hj : ∀ ticket, w'.jobs .submitted ticket = w.jobs .submitted ticket) : Tallied w' := by
  refine h.keep (retries_of_modify hs hf) ?_ ?_ (serviceOf_of_set hget hc hr) hj
  · rw [hs, List.length_modify]
  · rw [hc, List.length_set]

theorem passed {h h' : Host (Recorded σ)} {before after : List Job} {job : Job}
    (t : Tallied ⟨h, before ++ job :: after⟩) (s : Settlement R.recorded.engine h job h') :
    Tallied ⟨h', before ++ after⟩ := by
  cases s with
  | strayed => exact t.keep (fun _ => rfl) rfl rfl (fun _ => rfl) (fun _ => rfl)
  | @resubmitted ticket c hj hc hb ha hr submitted hq =>
    subst hq
    have again : job.rearm.recipient = some (.call ticket) := hj
    exact t.resubmitted hc again rfl rfl rfl
  | @finished job' ticket c exhausted hj hc hw hp hr =>
    exact t.ended hc rfl rfl rfl (c.credit_retries job')
      (jobs_submitted_of_kind (w := ⟨h, _⟩) (by decide) rfl)
  | stranded hj hc hw hp hr =>
    refine t.keep (fun _ => rfl) rfl ?_ (serviceOf_of_set hc rfl rfl) (fun _ => rfl)
    exact List.length_set
  | @refused job' ticket c exhausted hj hc hp hr =>
    refine t.keep (fun _ => rfl) rfl rfl (fun _ => rfl) fun t => ?_
    dsimp only [jobs]
    by_cases hu : h.isEngineInUse = true
    · rw [if_pos hu]
      exact Deed.jobs_cons_of_kind (by decide) t job' h.engine.deeds
    · rw [if_neg hu]

theorem effect (h : Tallied w) (e : Effect R.recorded w w') : Tallied w' := by
  cases e with
  | aside | misconfigured =>
    exact h.keep (fun _ => rfl) rfl rfl (fun _ => rfl) (fun _ => rfl)
  | changed _ hchange =>
    refine h.keep (fun _ => rfl) rfl rfl (fun _ => rfl) fun ticket => ?_
    rw [jobs, jobs]
    exact congrArg _ hchange.2
  | installed _ hb =>
    obtain ⟨-, key, rfl⟩ := build_ok hb
    exact h.installed rfl rfl rfl rfl
  | dropped | opened | notOpened | rejected | starved =>
    exact h.modify rfl (fun _ => rfl) rfl (fun _ => rfl)
  | admitted _ hs hl hr ho ha hq =>
    subst hq
    exact h.admitted hs rfl rfl rfl
  | taken _ hstep =>
    exact h.keep (fun _ => rfl) rfl rfl (fun _ => rfl)
      (jobs_submitted_of_kind (by decide) (Engine.recorded_handBack hstep))
  | passed host before after s => exact passed h s
  | @collected _ ticket c job hl hc hw hp =>
    exact h.ended hc rfl rfl rfl (c.credit_retries job) (jobs_submitted_of_kind (by decide) rfl)
  | @left _ ticket c reason hl hc hw hp =>
    refine h.ended hc rfl rfl rfl (fun _ => rfl) fun t => ?_
    rcases R.engine.recorded_withdraw c.job w.host.engine with kept | ⟨job, asked⟩
    · exact congrArg (Deed.jobs .submitted t) kept
    · rw [jobs]
      refine (congrArg (Deed.jobs .submitted t) asked).trans ?_
      rw [Deed.jobs_cons_of_kind (by decide), Deed.jobs_cons_of_kind (by decide), jobs]

theorem initial (s : σ) : Tallied (World.initial s) where
  none _ _ := rfl
  submitted _ _ h := by cases h
  served _ _ h := by cases h
  tally _ _ h := by cases h

theorem run {s : σ} (run : Run R.recorded (World.initial s) w) : Tallied w := by
  have effects := Run.effects run
  clear run
  induction effects with
  | refl => exact .initial s
  | tail _ effect ih => exact ih.effect effect

end Tallied
end PacketAuth.World
