import PacketAuth.Proofs.Effect

/-! One engine seen as another. An engine that keeps more than it needs does the same, in every run,
as the one that does not: what the one can do is what the other can do, with the rest forgotten. -/
namespace PacketAuth

variable {σ τ : Type}

/-- What an engine did, with its state seen through a map. -/
def Step.view {α : Type} (f : σ → τ) (step : Step σ α) : Step τ α :=
  ⟨step.answer, f step.state, step.events⟩

def Host.view (f : σ → τ) (h : Host σ) : Host τ :=
  ⟨f h.engine, h.services, h.calls, h.interrupts, h.handedBack, h.log, h.now, h.isHeld⟩

def World.view (f : σ → τ) (w : World σ) : World τ := ⟨w.host.view f, w.hand⟩

/-- An engine does what another does, and `f` forgets what it keeps beside. -/
structure Engine.Extends (E : Engine σ) (E' : Engine τ) (f : σ → τ) : Prop where
  createSession : ∀ key s, E'.createSession key (f s) = (E.createSession key s).view f
  acquire : ∀ s, E'.acquire (f s) = (E.acquire s).view f
  submit : ∀ job delay now s, E'.submit job delay now (f s) = (E.submit job delay now s).view f
  handBack : ∀ now s, E'.handBack now (f s) = (E.handBack now s).map (Step.view f)
  release : ∀ job s, E'.release job (f s) = f (E.release job s)
  cancel : ∀ id s, E'.cancel id (f s) = (E.cancel id s).view f

namespace Engine.Extends
variable {E : Engine σ} {E' : Engine τ} {f : σ → τ} (k : E.Extends E' f) (h : Host σ)
include k

theorem withdraw (id : JobId) (s : σ) : E'.withdraw id (f s) = f (E.withdraw id s) := by
  simp only [Engine.withdraw, k.cancel, Step.view]
  cases (E.cancel id s).answer with
  | none => rfl
  | some job => exact k.release job _

theorem openSession (i : Nat) (key : AuthKey) (lane : Lane) :
    (h.view f).openSession E' i key lane =
      ((h.openSession E i key lane).1, (h.openSession E i key lane).2.view f) := by
  rw [Host.openSession, Host.openSession]
  cases lane.session with
  | some handle => rfl
  | none =>
    dsimp only [Host.onEngine, Host.view]
    rw [k.createSession]
    dsimp only [Step.view]
    cases (E.createSession key h.engine).answer <;> rfl

theorem ensureSession (i : Nat) (s : Service) (l : LaneId) :
    ((h.view f).ensureSession E' i s l).2 = (h.ensureSession E i s l).2.view f := by
  rw [Host.ensureSession, Host.ensureSession]
  cases s.lane l with
  | error failure => rfl
  | ok lane => exact congrArg Prod.snd (k.openSession h i s.key lane)

theorem submitJob (s : Service) (r : Request) (regions : Regions) (session : SessionHandle)
    (job : Job) :
    (h.view f).submitJob E' s r regions session job =
      ((h.submitJob E s r regions session job).1,
        (h.submitJob E s r regions session job).2.view f) := by
  unfold Host.submitJob
  cases r.interrupt <;>
    dsimp only [Host.onEngine, Host.view, Host.setInterrupt] <;>
    rw [k.submit] <;>
    rfl

theorem enter (s : Service) (r : Request) :
    ((h.view f).enter E' s r).2 = (h.enter E s r).2.view f := by
  rw [Host.enter, Host.enter]
  cases s.prepare r with
  | error failure => rfl
  | ok found =>
    dsimp only
    rw [k.openSession]
    rcases h.openSession E r.service s.key found.1 with ⟨session, opened⟩
    cases session with
    | error failure => rfl
    | ok session =>
      have acquired : E'.acquire (opened.view f).engine = (E.acquire opened.engine).view f :=
        k.acquire opened.engine
      dsimp only [Host.onEngine]
      rw [acquired]
      dsimp only [Step.view]
      cases (E.acquire opened.engine).answer with
      | none => rfl
      | some job =>
        exact congrArg Prod.snd (k.submitJob
          { opened with
            engine := (E.acquire opened.engine).state
            log := (E.acquire opened.engine).events.reverse ++ opened.log }
          s r found.2 session job)

theorem finish (ticket : Nat) (c : Call) (job : Job) :
    (h.view f).finish E' ticket c job = (h.finish E ticket c job).view f := by
  rw [Host.finish_eq, Host.finish_eq]
  dsimp only [Host.view]
  rw [k.release]

theorem leave (ticket : Nat) (c : Call) (reason : CancelReason) :
    (h.view f).leave E' ticket c reason = (h.leave E ticket c reason).view f := by
  rw [Host.leave_eq, Host.leave_eq]
  dsimp only [Host.view]
  rw [k.withdraw, k.cancel]
  rfl

theorem look (ticket : Nat) : (h.view f).look E' ticket = (h.look E ticket).view f := by
  rw [Host.look, Host.look]
  have hc : (h.view f).calls = h.calls := rfl
  rw [hc]
  cases h.calls[ticket]? with
  | none => rfl
  | some c =>
    dsimp only
    split
    · have hr : (c.request.interrupt.bind fun i => ((h.view f).interrupts i).reason) =
          c.request.interrupt.bind fun i => (h.interrupts i).reason := rfl
      have hn : (h.view f).now = h.now := rfl
      rw [hr, hn]
      rcases c.slot.look (c.request.interrupt.bind fun i => (h.interrupts i).reason)
        (c.deadline.any (· ≤ h.now)) with ⟨arrival, slot⟩
      rcases arrival with - | job | reason
      · rfl
      · exact k.finish h ticket { c with slot } job
      · exact k.leave h ticket { c with slot } reason
    · rfl

theorem settle (ticket : Nat) (c : Call) (job : Job) :
    (h.view f).settle E' ticket c job = (h.settle E ticket c job).view f := by
  rw [Host.settle, Host.settle]
  cases c.react job with
  | resubmit job =>
    dsimp only [Host.resubmit, Host.noteRetry, Host.onEngine, Host.count, Host.updateService,
      Host.emit, Host.view]
    rw [k.submit]
    rfl
  | settle job exhausted =>
    dsimp only
    generalize hg : (if exhausted then h.noteExhausted job else h) = g
    have hg' : (if exhausted then (h.view f).noteExhausted job else h.view f) = g.view f := by
      rw [← hg]
      cases exhausted <;> rfl
    rw [hg']
    rcases c.slot.complete job with ⟨delivery, slot⟩
    cases delivery with
    | delivered => exact k.look (g.setCall ticket { c with slot }) ticket
    | refused job =>
      dsimp only
      have hu : ((g.view f).emit (.abandonedReleased job.id)).isEngineInUse =
          (g.emit (.abandonedReleased job.id)).isEngineInUse := rfl
      rw [hu]
      split
      · dsimp only [Host.mapEngine, Host.emit, Host.view]
        rw [k.release]
      · rfl

theorem deliver (job : Job) : (h.view f).deliver E' job = (h.deliver E job).view f := by
  rw [Host.deliver, Host.deliver]
  rcases job.recipient with - | ticket | i
  · rfl
  · dsimp only
    have hc : (h.view f).calls = h.calls := rfl
    rw [hc]
    cases h.calls[ticket]? with
    | none => rfl
    | some c => exact k.settle h ticket c job
  · rfl

end Engine.Extends

theorem Host.view_install (f : σ → τ) (h : Host σ) (b : Builder) :
    ((h.view f).install b).2 = (h.install b).2.view f := by
  unfold install
  cases b.build <;> rfl

/-- The same may happen under both rules, to an engine and to another that it extends. -/
structure Rules.Extends (R : Rules σ) (R' : Rules τ) (f : σ → τ) : Prop where
  engine : R.engine.Extends R'.engine f
  change : ∀ {s step}, R.change s step → R'.change (f s) (step.view f)
  changed : ∀ {s step}, R'.change (f s) step → ∃ step', step'.view f = step ∧ R.change s step'
  mayLook : ∀ {w ticket}, R.mayLook w ticket ↔ R'.mayLook (w.view f) ticket

namespace World
variable {R : Rules σ} {R' : Rules τ} {f : σ → τ} {w w' : World σ} {v : World τ}

/-- Each turn is one of the engine that is seen. -/
theorem Next.view (k : R.Extends R' f) (next : Next R w w') :
    Next R' (w.view f) (w'.view f) := by
  cases next with
  | install _ b =>
    have install := Next.install (R := R') (w.view f) b
    rwa [show (w.view f).host = w.host.view f from rfl, w.host.view_install f b] at install
  | ensureSession _ hs l =>
    have ensured := Next.ensureSession (R := R') (w.view f) hs l
    rwa [show (w.view f).host = w.host.view f from rfl, k.engine.ensureSession] at ensured
  | enter _ hs =>
    have entered := Next.enter (R := R') (w.view f) hs
    rwa [show (w.view f).host = w.host.view f from rfl, k.engine.enter] at entered
  | @take _ step h =>
    have viewed : R'.engine.handBack w.host.now (f w.host.engine) = some (step.view f) := by
      rw [k.engine.handBack, h]
      rfl
    exact .take (w.view f) viewed
  | deliver h before job after =>
    have delivered := Next.deliver (R := R') (h.view f) before job after
    rwa [k.engine.deliver] at delivered
  | look _ hl =>
    have looked := Next.look (w.view f) (k.mayLook.mp hl)
    rwa [show (w.view f).host = w.host.view f from rfl, k.engine.look] at looked
  | pass _ instant => exact .pass (w.view f) instant
  | trigger _ i reason => exact .trigger (w.view f) i reason
  | reset _ i => exact .reset (w.view f) i
  | dropService _ i => exact .dropService (w.view f) i
  | change _ h => exact .change (w.view f) (k.change h)

/-- Each turn of the engine that is seen is one of the engine that extends it. -/
theorem Next.exists_view (k : R.Extends R' f) (next : Next R' (w.view f) v) :
    ∃ w', w'.view f = v ∧ Next R w w' := by
  obtain ⟨h, hand⟩ := w
  cases next with
  | install _ b =>
    refine ⟨_, ?_, .install ⟨h, hand⟩ b⟩
    exact congrArg (World.mk · hand) (h.view_install f b).symm
  | ensureSession _ hs l =>
    refine ⟨_, ?_, .ensureSession ⟨h, hand⟩ hs l⟩
    exact congrArg (World.mk · hand) (k.engine.ensureSession h _ _ l).symm
  | enter _ hs =>
    refine ⟨_, ?_, .enter ⟨h, hand⟩ hs⟩
    exact congrArg (World.mk · hand) (k.engine.enter h _ _).symm
  | take _ hstep =>
    obtain ⟨step, hs, rfl⟩ := Option.map_eq_some_iff.mp ((k.engine.handBack _ _).symm.trans hstep)
    exact ⟨_, rfl, .take ⟨h, hand⟩ hs⟩
  | deliver _ before job after =>
    refine ⟨_, ?_, .deliver h before job after⟩
    exact congrArg (World.mk · _) (k.engine.deliver h job).symm
  | look _ hl =>
    refine ⟨_, ?_, .look ⟨h, hand⟩ (k.mayLook.mpr hl)⟩
    exact congrArg (World.mk · hand) (k.engine.look h _).symm
  | pass _ instant => exact ⟨_, rfl, .pass ⟨h, hand⟩ instant⟩
  | trigger _ i reason => exact ⟨_, rfl, .trigger ⟨h, hand⟩ i reason⟩
  | reset _ i => exact ⟨_, rfl, .reset ⟨h, hand⟩ i⟩
  | dropService _ i => exact ⟨_, rfl, .dropService ⟨h, hand⟩ i⟩
  | change _ hchange =>
    obtain ⟨step, rfl, hstep⟩ := k.changed hchange
    exact ⟨_, rfl, .change ⟨h, hand⟩ hstep⟩

theorem Run.view (k : R.Extends R' f) (run : Run R w w') : Run R' (w.view f) (w'.view f) :=
  run.lift (World.view f) fun _ _ => Next.view k

theorem Run.exists_view (k : R.Extends R' f) (run : Run R' (w.view f) v) :
    ∃ w', w'.view f = v ∧ Run R w w' := by
  induction run with
  | refl => exact ⟨w, rfl, .refl⟩
  | tail _ next ih =>
    obtain ⟨u, rfl, run⟩ := ih
    obtain ⟨w', hview, next⟩ := next.exists_view k
    exact ⟨w', hview, run.tail next⟩

end World
end PacketAuth
