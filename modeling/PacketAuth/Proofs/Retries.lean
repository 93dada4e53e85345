import PacketAuth.Engine.Scripted
import PacketAuth.Proofs.CallJobs
import PacketAuth.Proofs.Operation
import PacketAuth.Proofs.Resubmissions

/-! Busy answers, under any engine that keeps to its part. -/
namespace PacketAuth

theorem Call.recipient_of_settle {c : Call} {j k : Job} {exhausted : Bool}
    (h : c.react j = .settle k exhausted) : k.recipient = j.recipient := by
  unfold react at h
  split at h
  · split at h
    · cases h
    · cases h
      rfl
  · cases h
    rfl

/-- Nobody waits for a job that is there: the caller looks as soon as it comes. -/
def World.Alert {σ : Type} (w : World σ) : Prop :=
  ∀ c ∈ w.host.calls, c.isWaiting = true → ∀ job, c.slot ≠ .completed job

namespace World

section Alert
variable {σ : Type} {R : Rules σ} {w w' : World σ}

theorem Alert.set (h : Alert w) {ticket : Nat} {c : Call}
    (hcalls : w'.host.calls = w.host.calls.set ticket c) (hc : c.isWaiting = false) :
    Alert w' := by
  intro d hd hw
  rw [hcalls] at hd
  rcases List.mem_or_eq_of_mem_set hd with hd | rfl
  · exact h d hd hw
  · rw [hc] at hw
    cases hw

theorem Alert.effect (h : Alert w) (e : Effect R w w') : Alert w' := by
  cases e with
  | aside | installed | misconfigured | dropped | changed | opened | notOpened | rejected |
    starved | taken => exact h
  | admitted =>
    intro d hd hw
    rcases List.mem_append.mp hd with hd | hd
    · exact h d hd hw
    · rw [List.mem_singleton.mp hd]
      intro job hslot
      cases hslot
  | passed host before after s =>
    cases s with
    | strayed | resubmitted | refused => exact h
    | finished => exact h.set rfl rfl
    | stranded _ _ hw => exact h.set rfl hw
  | collected | left => exact h.set rfl rfl

theorem Alert.effects (h : Alert w) (e : Effects R w w') : Alert w' := by
  induction e with
  | refl => exact h
  | tail _ effect ih => exact ih.effect effect

end Alert

variable {σ : Type} {R : Rules σ} {w w' : World (Recorded σ)} {ticket : Nat}

def docket (w : World (Recorded σ)) (ticket : Nat) : Docket where
  submitted := w.jobs .submitted ticket
  completed := w.jobs .completed ticket
  released := w.jobs .released ticket
  inHand := w.inHand ticket

def Tended (w : World (Recorded σ)) (ticket : Nat) : Prop :=
  (w.docket ticket).Tended w.host.calls[ticket]?

/-- A call that an engine was fair to, that did not leave early, and whose policy keeps within what
the counter of a job can hold. -/
structure Regular (w : World (Recorded σ)) (ticket : Nat) : Prop where
  fair : Deed.Fair ticket w.host.engine.deeds
  calm : ∀ reply, w.host.reply? ticket = some reply → reply.status ≠ .waitInterrupted
  counted : ∀ c, w.host.calls[ticket]? = some c →
    ∀ m, c.retry.maxRetries = some m → m ≤ Job.maxRetryCount

theorem Regular.before (h : Regular w' ticket) (e : Effect R.recorded w w') :
    Regular w ticket := by
  obtain ⟨later, hdeeds⟩ := e.deeds
  refine ⟨(hdeeds ▸ h.fair).earlier, fun reply hr => h.calm reply ?_, fun c hc m hm => ?_⟩
  · obtain ⟨c, hc, hreply⟩ := Option.bind_eq_some_iff.mp hr
    obtain ⟨c', hc', kept⟩ := e.persists.call ticket c hc
    exact Option.bind_eq_some_iff.mpr ⟨c', hc', kept.reply reply hreply⟩
  · obtain ⟨c', hc', kept⟩ := e.persists.call ticket c hc
    exact h.counted c' hc' m (kept.retry ▸ hm)

theorem inHand_self {h : Host (Recorded σ)} {before after : List Job} {job : Job}
    (hj : job.recipient = some (.call ticket)) :
    inHand ⟨h, before ++ job :: after⟩ ticket =
      before.filter (·.recipient = some (.call ticket)) ++
        job :: after.filter (·.recipient = some (.call ticket)) := by
  simp [inHand, hj]

theorem inHand_other {h h' : Host (Recorded σ)} {before after : List Job} {job : Job}
    (hj : job.recipient ≠ some (.call ticket)) :
    inHand ⟨h', before ++ after⟩ ticket = inHand ⟨h, before ++ job :: after⟩ ticket := by
  simp [inHand, hj]

theorem docket_congr (hd : w'.host.engine.deeds = w.host.engine.deeds)
    (hh : w'.inHand ticket = w.inHand ticket) : w'.docket ticket = w.docket ticket := by
  simp only [docket, jobs, hd, hh]

theorem docket_self {kind : Deed.Kind} {job : Job} (hj : job.recipient = some (.call ticket))
    (hd : w'.host.engine.deeds = ⟨kind, job⟩ :: w.host.engine.deeds) :
    w'.docket ticket = { (w.docket ticket).note job kind with inHand := w'.inHand ticket } := by
  cases kind <;>
    simp [docket, jobs, Docket.note, hd, Deed.jobs_cons_self hj, Deed.jobs_cons_of_kind]

/-- What happens to the job of another call leaves a docket alone. -/
theorem docket_other (kind : Deed.Kind) {job : Job} (hj : job.recipient ≠ some (.call ticket))
    (hd : w'.host.engine.deeds = ⟨kind, job⟩ :: w.host.engine.deeds)
    (hh : w'.inHand ticket = w.inHand ticket) : w'.docket ticket = w.docket ticket := by
  simp only [docket, jobs, hd, hh, Deed.jobs_cons_of_recipient hj]

theorem Tended.congr (h : Tended w ticket) (hd : w'.docket ticket = w.docket ticket)
    (hc : w'.host.calls[ticket]? = w.host.calls[ticket]?) : Tended w' ticket := by
  rw [Tended, hd, hc]
  exact h

/-- Passing on a job of the call itself: it goes back to the engine, or ends the wait. -/
theorem Tended.passedSelf {h h' : Host (Recorded σ)} {before after : List Job} {job : Job}
    (t : Tended ⟨h, before ++ job :: after⟩ ticket) (hj : job.recipient = some (.call ticket))
    (hm : ∀ c, h.calls[ticket]? = some c →
      ∀ m, c.retry.maxRetries = some m → m ≤ Job.maxRetryCount)
    (s : Settlement R.recorded.engine h job h') : Tended ⟨h', before ++ after⟩ ticket := by
  obtain ⟨c, busy, hc, returned, hnil⟩ := Docket.Tended.returned t (inHand_self hj)
  have empty : inHand ⟨h', before ++ after⟩ ticket = [] := by
    rw [inHand, List.filter_append, hnil]
  cases s with
  | strayed handedBack lost =>
    rw [lost ticket hj] at hc
    cases hc
  | @resubmitted t c' hj' hc' hb ha hr submitted hq =>
    obtain rfl : ticket = t := by simpa [hj] using hj'
    obtain rfl : c = c' := Option.some.inj (hc.symm.trans hc')
    subst hq
    have again : job.rearm.recipient = some (.call ticket) := hj
    rw [Tended, docket_self (w := ⟨h, before ++ job :: after⟩) again rfl, empty, hc]
    exact Docket.Tended.resubmitted returned (hm c hc) hb hr
  | @finished job' t c' exhausted hj' hc' hw hp hr =>
    obtain rfl : ticket = t := by simpa [hj] using hj'
    obtain rfl : c = c' := Option.some.inj (hc.symm.trans hc')
    have same : job'.recipient = some (.call ticket) := (Call.recipient_of_settle hr).trans hj
    have hlt := (List.getElem?_eq_some_iff.mp hc).1
    rw [Tended, docket_self (w := ⟨h, before ++ job :: after⟩) same rfl, empty,
      List.getElem?_set_self hlt]
    exact Docket.Tended.finished returned hr
  | @stranded job' t c' exhausted hj' hc' hw =>
    obtain rfl : ticket = t := by simpa [hj] using hj'
    obtain rfl : c = c' := Option.some.inj (hc.symm.trans hc')
    rw [Call.isWaiting, returned.reply] at hw
    cases hw
  | @refused job' t c' exhausted hj' hc' hp =>
    obtain rfl : ticket = t := by simpa [hj] using hj'
    obtain rfl : c = c' := Option.some.inj (hc.symm.trans hc')
    exact absurd returned.slot hp

theorem Tended.passedOther {h h' : Host (Recorded σ)} {before after : List Job} {job : Job}
    (t : Tended ⟨h, before ++ job :: after⟩ ticket) (hj : job.recipient ≠ some (.call ticket))
    (s : Settlement R.recorded.engine h job h') : Tended ⟨h', before ++ after⟩ ticket := by
  have hand : inHand ⟨h', before ++ after⟩ ticket = inHand ⟨h, before ++ job :: after⟩ ticket :=
    inHand_other hj
  have others : ∀ {t : Nat}, job.recipient = some (.call t) → t ≠ ticket := by
    rintro t hj' rfl
    exact hj hj'
  cases s with
  | strayed => exact t.congr (docket_congr rfl hand) rfl
  | resubmitted _ _ _ _ _ hq =>
    subst hq
    have again : job.rearm.recipient ≠ some (.call ticket) := hj
    exact t.congr (docket_other (w := ⟨h, _⟩) .submitted again rfl hand) rfl
  | finished hj' hc hw hp hr =>
    have same := Call.recipient_of_settle hr
    exact t.congr (docket_other (w := ⟨h, _⟩) .released (same ▸ hj) rfl hand)
      (List.getElem?_set_ne (others hj'))
  | stranded hj' =>
    exact t.congr (docket_congr rfl hand) (List.getElem?_set_ne (others hj'))
  | @refused job' _ _ _ hj' hc hp hr =>
    by_cases hu : h.isEngineInUse = true
    · have same := Call.recipient_of_settle hr
      refine t.congr (docket_other .released (same ▸ hj) ?_ hand) rfl
      dsimp only
      rw [if_pos hu]
      rfl
    · refine t.congr (docket_congr ?_ hand) rfl
      dsimp only
      rw [if_neg hu]

theorem Tended.admitted {s : Service} {r : Request} {regions : Regions} {session : SessionHandle}
    {job : Job} (t : Tended w ticket) (fair : Deed.Fair ticket w'.host.engine.deeds)
    (hc : w'.host.calls = w.host.calls ++ [r.call s regions job w.host.now])
    (hd : w'.host.engine.deeds =
      ⟨.submitted, r.fill s regions session w.host.calls.length job⟩ :: w.host.engine.deeds)
    (hh : w'.hand = w.hand) : Tended w' ticket := by
  have hand : w'.inHand ticket = w.inHand ticket := by rw [inHand, hh, inHand]
  have addressed : (r.fill s regions session w.host.calls.length job).recipient =
      some (.call w.host.calls.length) := rfl
  by_cases new : ticket = w.host.calls.length
  · subst new
    have hget : w.host.calls[w.host.calls.length]? = none := List.getElem?_eq_none (Nat.le_refl _)
    have blank : w.docket w.host.calls.length = {} := by
      rw [Tended, hget] at t
      cases t with
      | unborn h => exact h
    have hinHand : w.inHand w.host.calls.length = [] := congrArg Docket.inHand blank
    have retries := fair.blank (r.fill s regions session w.host.calls.length job) (by
      have none : Deed.jobs .submitted w.host.calls.length w.host.engine.deeds = [] :=
        congrArg Docket.submitted blank
      rw [hd, Deed.jobs_cons_self addressed, none]
      rfl)
    have hnew : w'.host.calls[w.host.calls.length]? = some (r.call s regions job w.host.now) := by
      rw [hc]
      exact List.getElem?_concat_length
    rw [Tended, hnew, docket_self addressed hd, hand, blank, hinHand]
    exact Docket.Tended.admitted rfl rfl retries rfl
  · have other : (r.fill s regions session w.host.calls.length job).recipient ≠
        some (.call ticket) := by
      intro same
      rw [addressed] at same
      exact new (Recipient.call.inj (Option.some.inj same)).symm
    refine t.congr (docket_other .submitted other hd hand) ?_
    rw [hc, getElem?_concat_of_ne new]

theorem Tended.taken (t : Tended w ticket) (fair : Deed.Fair ticket w'.host.engine.deeds)
    {job : Job} (hc : w'.host.calls = w.host.calls)
    (hd : w'.host.engine.deeds = ⟨.completed, job⟩ :: w.host.engine.deeds)
    (hh : w'.hand = w.hand ++ [job]) : Tended w' ticket := by
  by_cases hj : job.recipient = some (.call ticket)
  · have once := fair.once
    rw [hd] at once
    obtain ⟨fewer, retries⟩ := once.1 rfl hj
    have hand : w'.inHand ticket = w.inHand ticket ++ [job] := by
      simp [inHand, hh, hj]
    rw [Tended, docket_self hj hd, hand, hc]
    exact Docket.Tended.completed t fewer retries
  · have hand : w'.inHand ticket = w.inHand ticket := by
      simp [inHand, hh, hj]
    exact t.congr (docket_other .completed hj hd hand) (by rw [hc])

theorem Tended.left (t : Tended w ticket) (regular : Regular w' ticket) {n : Nat} {c : Call}
    {f : Failure} (hk : f.kind = .waitInterrupted) (hget : w.host.calls[n]? = some c)
    (hc : w'.host.calls = w.host.calls.set n
      { c with slot := .abandoned, reply := some (.failed c.request f) })
    (hd : w'.host.engine = R.recorded.engine.withdraw c.job w.host.engine)
    (hh : w'.hand = w.hand) : Tended w' ticket := by
  by_cases same : n = ticket
  · subst same
    have hlt := (List.getElem?_eq_some_iff.mp hget).1
    refine absurd ?_ (regular.calm (.failed c.request f) ?_)
    · rw [Reply.status, Reply.failed, Status.ofResult, Status.ofFailure, hk]
    · rw [Host.reply?, hc, List.getElem?_set_self hlt]
      rfl
  · have hand : w'.inHand ticket = w.inHand ticket := by rw [inHand, hh, inHand]
    have hcalls : w'.host.calls[ticket]? = w.host.calls[ticket]? := by
      rw [hc, List.getElem?_set_ne same]
    rcases R.engine.recorded_withdraw c.job w.host.engine with kept | ⟨job, asked⟩
    · exact t.congr (docket_congr ((congrArg Recorded.deeds hd).trans kept) hand) hcalls
    · have hdeeds := (congrArg Recorded.deeds hd).trans asked
      have other : job.recipient ≠ some (.call ticket) := by
        intro hj
        have nothing := regular.fair.kept
        rw [hdeeds, Deed.jobs_cons_of_kind (by decide), Deed.jobs_cons_self hj] at nothing
        simp at nothing
      refine t.congr ?_ hcalls
      simp only [docket, jobs, hdeeds, hand, Deed.jobs_cons_of_recipient other]

theorem Tended.effect (t : Tended w ticket) (alert : Alert w) (regular : Regular w' ticket)
    (e : Effect R.recorded w w') : Tended w' ticket := by
  have counted := (regular.before e).counted
  cases e with
  | aside | installed | misconfigured | dropped | opened | notOpened | rejected | starved =>
    exact t.congr rfl rfl
  | changed _ h => exact t.congr (docket_congr h.2 rfl) rfl
  | admitted _ hs hl hr ho ha hq =>
    subst hq
    exact t.admitted regular.fair rfl rfl rfl
  | taken _ h => exact t.taken regular.fair rfl (Engine.recorded_handBack h) rfl
  | @passed h before job after h' s =>
    by_cases hj : job.recipient = some (.call ticket)
    · exact t.passedSelf hj counted s
    · exact t.passedOther hj s
  | collected _ hl hc hw hp =>
    exact absurd hp (alert _ (List.mem_of_getElem? hc) hw _)
  | left _ hl hc hw hp => exact t.left regular rfl hc rfl rfl rfl

theorem initial_tended (s : σ) (ticket : Nat) : Tended (initial s) ticket :=
  .unborn rfl

/-- The docket of a regular call is in order after every run. -/
theorem tended_of_run {s : σ} (run : Run R.recorded (initial s) w) (regular : Regular w ticket) :
    Tended w ticket := by
  have alert : ∀ {v}, Effects R.recorded (initial s) v → Alert v := by
    intro v e
    refine Alert.effects (w := initial s) ?_ e
    intro c hc
    cases hc
  have effects := Run.effects run
  clear run
  induction effects with
  | refl => exact initial_tended s ticket
  | tail earlier effect ih =>
    exact (ih (regular.before effect)).effect (alert earlier) regular effect

/-- Under any engine, whatever else happens on the host: the answers that the engine gave to the
submissions of a regular call, and that were passed on, decide the call under the policy of its
service, and the service counted as many retries as jobs of its calls were submitted once more. -/
theorem answers_decide_call {s : σ} (run : Run R.recorded (initial s) w) {c : Call}
    (hc : w.host.calls[ticket]? = some c) (regular : Regular w ticket) :
    (∃ answers, w.jobs .completed ticket = answers ++ w.inHand ticket ∧
      c.DecidedBy answers (w.jobs .submitted ticket) (w.jobs .released ticket)) ∧
    ∃ s, w.host.services[c.request.service]? = some s ∧ s.config.retry = c.retry ∧
      s.stats.busyRetries = w.resubmissions c.request.service := by
  constructor
  · have tended := tended_of_run run regular
    rw [Tended, hc] at tended
    exact tended.decidedBy
  · have engaged : Engaged w := by
      refine Engaged.effects (w := initial s) ?_ (Run.effects run)
      intro t d hd
      cases hd
    obtain ⟨s, hs, policy⟩ := engaged ticket c hc
    refine ⟨s, hs, policy.symm, (Tallied.run run).tally c.request.service _ ?_⟩
    rw [retries, hs]
    rfl

/-- A busy answer within the policy is followed by one more submission, and the next one counts. -/
theorem busy_answer_is_retried :
    ∃ (w : World (Recorded Scripted)) (c : Call) (s : Service) (j : Job) (reply : Reply),
      w.host.calls[0]? = some c ∧ w.host.services[0]? = some s ∧
      (w.jobs .completed 0)[1]? = some j ∧ c.reply = some reply ∧ c.Told j reply ∧
      (w.jobs .submitted 0).length = 2 ∧ (w.jobs .released 0).length = 1 ∧
      s.stats.busyRetries = 1 := by
  let R : Rules Scripted := { engine := Scripted.engine, change := fun _ _ => False }
  let engine : Scripted := { plan := [.finish { outcome := .busy }, .finish {}] }
  let b : Builder := { key := some (.ofSeed 1), config := { retry := .bounded 1 } }
  let s : Service := .create b.config (.ofSeed 1)
  let r : Request := ⟨0, ⟨0⟩, .write, List.replicate 20 0, 20, none⟩
  let installed : World (Recorded Scripted) := ⟨((initial engine).host.install b).2, []⟩
  let entered : World (Recorded Scripted) := ⟨(installed.host.enter R.recorded.engine s r).2, []⟩
  let final : World (Recorded Scripted) := ⟨entered.host.drain R.recorded.engine, []⟩
  have run : Run R.recorded (initial engine) final :=
    ((Relation.ReflTransGen.single (.install (initial engine) b)).tail
      (.enter installed (s := s) (r := r) rfl)).trans (run_drain entered.host [])
  have hcalls : 0 < final.host.calls.length := by decide
  have hcompleted : 1 < (final.jobs .completed 0).length := by decide
  obtain ⟨c, hc⟩ : ∃ c, final.host.calls[0]? = some c := ⟨_, List.getElem?_eq_getElem hcalls⟩
  obtain ⟨j, hj⟩ : ∃ j, (final.jobs .completed 0)[1]? = some j :=
    ⟨_, List.getElem?_eq_getElem hcompleted⟩
  have hcall : final.host.calls[0]?.map (fun c => (c.request.service, c.retry)) =
      some (0, .bounded 1) := by decide
  rw [hc] at hcall
  obtain ⟨hservice, hretry⟩ := Prod.mk.inj (Option.some.inj hcall)
  have regular : Regular final 0 := by
    refine ⟨⟨by decide, by decide, by decide⟩, fun reply hr => ?_, fun c' hc' m hm => ?_⟩
    · have success : (final.host.reply? 0).map Reply.status = some .success := by decide
      rw [hr] at success
      rw [Option.some.inj success]
      decide
    · obtain rfl : c = c' := Option.some.inj (hc.symm.trans hc')
      rw [hretry] at hm
      cases hm
      decide
  obtain ⟨⟨answers, hanswers, decided⟩, t, ht, -, counted⟩ := answers_decide_call run hc regular
  rw [hservice] at ht counted
  have none : final.inHand 0 = [] := by decide
  rw [none, List.append_nil] at hanswers
  subst hanswers
  have hk : Job.leadingBusy (final.jobs .completed 0) = 1 := by decide
  have tolerated : c.retry.Tolerates (Job.leadingBusy (final.jobs .completed 0)) := by
    intro m hm
    rw [hretry] at hm
    cases hm
    rw [hk]
  obtain ⟨reply, hreply, told⟩ := decided.decided tolerated j (by rw [hk]; exact hj)
  refine ⟨final, c, t, j, reply, hc, ht, hj, hreply, told, ?_, ?_, ?_⟩
  · rw [decided.tolerated tolerated, hk]
  · rw [decided.released, hreply]
    rfl
  · rw [counted]
    decide

end World
end PacketAuth
