import PacketAuth.Proofs.Persistence
import PacketAuth.Proofs.View

/-! A record of the jobs that pass between a host and its engine, whatever the engine is. Each entry
names a job, and thereby the call it belongs to. -/
namespace PacketAuth

/-- What became of a job: the engine got it to work on, gave it back with an outcome, gave it back
as it was, or got it for good. -/
inductive Deed.Kind where
  | submitted
  | completed
  | withdrawn
  | released
  deriving DecidableEq

structure Deed where
  kind : Deed.Kind
  job : Job

/-- The state of an engine with all its deeds, the newest in front. -/
structure Recorded (σ : Type) where
  state : σ
  deeds : List Deed := []

namespace Deed

/-- The jobs of a call to which something happened, the oldest first. -/
def jobs (kind : Kind) (ticket : Nat) (deeds : List Deed) : List Job :=
  ((deeds.filter fun d => d.kind = kind ∧ d.job.recipient = some (.call ticket)).map job).reverse

theorem jobs_cons_self {kind : Kind} {ticket : Nat} {j : Job}
    (hj : j.recipient = some (.call ticket)) (deeds : List Deed) :
    jobs kind ticket (⟨kind, j⟩ :: deeds) = jobs kind ticket deeds ++ [j] := by
  simp [jobs, hj]

theorem jobs_cons_of_kind {kind k : Kind} (hk : k ≠ kind) (ticket : Nat) (j : Job)
    (deeds : List Deed) : jobs kind ticket (⟨k, j⟩ :: deeds) = jobs kind ticket deeds := by
  simp [jobs, hk]

theorem jobs_cons_of_recipient {ticket : Nat} {j : Job} (hj : j.recipient ≠ some (.call ticket))
    (kind k : Kind) (deeds : List Deed) :
    jobs kind ticket (⟨k, j⟩ :: deeds) = jobs kind ticket deeds := by
  simp [jobs, hj]

theorem jobs_append (kind : Kind) (ticket : Nat) (later earlier : List Deed) :
    jobs kind ticket (later ++ earlier) = jobs kind ticket earlier ++ jobs kind ticket later := by
  simp [jobs]

/-- A job comes back for a call that was submitted and did not come back yet, and its retries are
those that it was submitted with. -/
def Answers (ticket : Nat) (j : Job) (earlier : List Deed) : Prop :=
  (jobs .completed ticket earlier).length < (jobs .submitted ticket earlier).length ∧
    (jobs .submitted ticket earlier).getLast?.map Job.retries = some j.retries

instance (ticket : Nat) (j : Job) (earlier : List Deed) : Decidable (Answers ticket j earlier) :=
  inferInstanceAs (Decidable (_ ∧ _))

/-- Every submission for a call is answered once at most, and nothing else is. -/
def Once (ticket : Nat) : List Deed → Prop
  | [] => True
  | d :: earlier =>
    (d.kind = .completed → d.job.recipient = some (.call ticket) → Answers ticket d.job earlier) ∧
      Once ticket earlier

instance decidableOnce (ticket : Nat) : (deeds : List Deed) → Decidable (Once ticket deeds)
  | [] => isTrue trivial
  | d :: earlier =>
    have := decidableOnce ticket earlier
    inferInstanceAs (Decidable ((d.kind = .completed → d.job.recipient = some (.call ticket) →
      Answers ticket d.job earlier) ∧ Once ticket earlier))

theorem Once.earlier {ticket : Nat} {later earlier : List Deed}
    (h : Once ticket (later ++ earlier)) : Once ticket earlier := by
  induction later with
  | nil => exact h
  | cons d later ih => exact ih h.2

/-- What an engine owes to a call: a job that was not retried yet, one answer to each submission,
and that it keeps the job unless it was asked for it. -/
structure Fair (ticket : Nat) (deeds : List Deed) : Prop where
  blank : ∀ j ∈ (jobs .submitted ticket deeds).head?, j.retries = 0
  once : Once ticket deeds
  kept : jobs .withdrawn ticket deeds = []

theorem Fair.earlier {ticket : Nat} {later earlier : List Deed}
    (h : Fair ticket (later ++ earlier)) : Fair ticket earlier := by
  refine ⟨fun j hj => h.blank j ?_, h.once.earlier, ?_⟩
  · rw [Option.mem_def] at hj ⊢
    rw [jobs_append, List.head?_append, hj, Option.some_or]
  · have kept := h.kept
    rw [jobs_append] at kept
    exact (List.append_eq_nil_iff.mp kept).1

end Deed

/-- What an engine did, with the deeds as they are afterwards. -/
def Step.keeping {σ α : Type} (deeds : List Deed) (step : Step σ α) : Step (Recorded σ) α :=
  ⟨step.answer, ⟨step.state, deeds⟩, step.events⟩

namespace Engine
variable {σ : Type}

/-- The same engine, with a record of its deeds. -/
def recorded (E : Engine σ) : Engine (Recorded σ) where
  createSession key s := (E.createSession key s.state).keeping s.deeds
  acquire s := (E.acquire s.state).keeping s.deeds
  submit job delay now s := (E.submit job delay now s.state).keeping (⟨.submitted, job⟩ :: s.deeds)
  handBack now s :=
    (E.handBack now s.state).map fun step => step.keeping (⟨.completed, step.answer⟩ :: s.deeds)
  release job s := ⟨E.release job s.state, ⟨.released, job⟩ :: s.deeds⟩
  cancel id s :=
    let step := E.cancel id s.state
    step.keeping (step.answer.toList.map (Deed.mk .withdrawn) ++ s.deeds)
  wake s := E.wake s.state
  backlog s := E.backlog s.state
  close s := (E.close s.state).keeping s.deeds

theorem recorded_handBack {E : Engine σ} {now : Nat} {s : Recorded σ} {step : Step (Recorded σ) Job}
    (h : E.recorded.handBack now s = some step) :
    step.state.deeds = ⟨.completed, step.answer⟩ :: s.deeds := by
  obtain ⟨inner, -, rfl⟩ := Option.map_eq_some_iff.mp h
  rfl

/-- A job that was asked back is released at once. -/
theorem recorded_withdraw (E : Engine σ) (id : JobId) (s : Recorded σ) :
    (E.recorded.withdraw id s).deeds = s.deeds ∨
      ∃ job, (E.recorded.withdraw id s).deeds =
        ⟨.released, job⟩ :: ⟨.withdrawn, job⟩ :: s.deeds := by
  unfold withdraw
  cases h : (E.cancel id s.state).answer with
  | none =>
    left
    simp [recorded, Step.keeping, h]
  | some job =>
    right
    refine ⟨job, ?_⟩
    simp [recorded, Step.keeping, h]

end Engine

/-- The same host, with the record of its engine forgotten. -/
def Host.forget {σ : Type} (h : Host (Recorded σ)) : Host σ :=
  ⟨h.engine.state, h.services, h.calls, h.interrupts, h.handedBack, h.log, h.now, h.isHeld⟩

def World.forget {σ : Type} (w : World (Recorded σ)) : World σ := ⟨w.host.forget, w.hand⟩

/-- The same rules for an engine with a record. Nobody else writes in it. -/
def Rules.recorded {σ : Type} (R : Rules σ) : Rules (Recorded σ) where
  engine := R.engine.recorded
  change s step := R.change s.state (step.view Recorded.state) ∧ step.state.deeds = s.deeds
  mayLook w := R.mayLook w.forget

namespace World
variable {σ : Type} {R : Rules σ} {w w' : World (Recorded σ)}

/-- A host with an engine that did nothing yet. -/
def initial (s : σ) : World (Recorded σ) := ⟨{ engine := ⟨s, []⟩ }, []⟩

/-- The jobs of a call to which something happened, the oldest first. -/
def jobs (w : World (Recorded σ)) (kind : Deed.Kind) (ticket : Nat) : List Job :=
  Deed.jobs kind ticket w.host.engine.deeds

theorem getElem?_concat_of_ne {α : Type} {xs : List α} {x : α} {i : Nat} (h : i ≠ xs.length) :
    (xs ++ [x])[i]? = xs[i]? := by
  rcases Nat.lt_or_gt_of_ne h with below | above
  · exact List.getElem?_append_left below
  · rw [List.getElem?_eq_none (Nat.le_of_lt above), List.getElem?_eq_none]
    rw [List.length_append]
    exact above

theorem jobs_self {kind : Deed.Kind} {job : Job} {ticket : Nat}
    (hj : job.recipient = some (.call ticket))
    (hd : w'.host.engine.deeds = ⟨kind, job⟩ :: w.host.engine.deeds) :
    w'.jobs kind ticket = w.jobs kind ticket ++ [job] := by
  rw [jobs, hd, Deed.jobs_cons_self hj, jobs]

/-- What happens to the job of a call is no business of the others. -/
theorem jobs_other {k : Deed.Kind} {job : Job} {n : Nat} (hj : job.recipient = some (.call n))
    (hd : w'.host.engine.deeds = ⟨k, job⟩ :: w.host.engine.deeds) (kind : Deed.Kind) {ticket : Nat}
    (other : ticket ≠ n) : w'.jobs kind ticket = w.jobs kind ticket := by
  rw [jobs, hd, Deed.jobs_cons_of_recipient, jobs]
  rw [hj]
  intro same
  exact other (Recipient.call.inj (Option.some.inj same)).symm

/-- The jobs of a call that came back and were not passed on yet. -/
def inHand (w : World (Recorded σ)) (ticket : Nat) : List Job :=
  w.hand.filter (·.recipient = some (.call ticket))

theorem Settlement.deeds {E : Engine σ} {h h' : Host (Recorded σ)} {job : Job}
    (s : Settlement E.recorded h job h') :
    ∃ later, h'.engine.deeds = later ++ h.engine.deeds := by
  cases s with
  | strayed | stranded => exact ⟨[], rfl⟩
  | resubmitted hj hc hb ha hr hq =>
    subst hq
    exact ⟨[⟨.submitted, job.rearm⟩], rfl⟩
  | @finished job' => exact ⟨[⟨.released, job'⟩], rfl⟩
  | @refused job' =>
    dsimp only
    split
    · exact ⟨[⟨.released, job'⟩], rfl⟩
    · exact ⟨[], rfl⟩

/-- Nothing is struck from the record. -/
theorem Effect.deeds (e : Effect R.recorded w w') :
    ∃ later, w'.host.engine.deeds = later ++ w.host.engine.deeds := by
  cases e with
  | aside | installed | misconfigured | dropped | opened | notOpened | rejected | starved =>
    exact ⟨[], rfl⟩
  | changed _ h => exact ⟨[], h.2⟩
  | @admitted _ s r lane regions session job hs hl hr ho ha submitted hq =>
    subst hq
    exact ⟨[⟨.submitted, r.fill s regions session w.host.calls.length job⟩], rfl⟩
  | @taken _ step h => exact ⟨[⟨.completed, step.answer⟩], Engine.recorded_handBack h⟩
  | passed h before after s => exact s.deeds
  | @collected _ ticket c job => exact ⟨[⟨.released, job⟩], rfl⟩
  | @left _ ticket c reason =>
    rcases R.engine.recorded_withdraw c.job w.host.engine with same | ⟨job, asked⟩
    · exact ⟨[], same⟩
    · exact ⟨[⟨.released, job⟩, ⟨.withdrawn, job⟩], asked⟩

end World
end PacketAuth
