import PacketAuth.Proofs.Software

/-! Letting a request in: what it takes, and what is there afterwards. -/
namespace PacketAuth.Host
variable {σ : Type} {E : Engine σ}

theorem openSession_frame (i : Nat) (key : AuthKey) (lane : Lane) (h : Host σ) :
    (h.openSession E i key lane).2.calls = h.calls ∧
      (h.openSession E i key lane).2.interrupts = h.interrupts ∧
      (h.openSession E i key lane).2.now = h.now := by
  rw [openSession]
  split
  · exact ⟨rfl, rfl, rfl⟩
  · dsimp only [onEngine]
    split <;> rename_i heq <;> obtain ⟨-, rfl⟩ := Prod.mk.inj heq <;> exact ⟨rfl, rfl, rfl⟩

/-- Opening a session asks the engine for one at most. -/
theorem openSession_engine (i : Nat) (key : AuthKey) (lane : Lane) (h : Host σ) :
    (h.openSession E i key lane).2.engine = h.engine ∨
      (h.openSession E i key lane).2.engine = (E.createSession key h.engine).state := by
  rw [openSession]
  split
  · exact .inl rfl
  · dsimp only [onEngine]
    split <;> rename_i heq <;> obtain ⟨-, rfl⟩ := Prod.mk.inj heq <;> exact .inr rfl

theorem openSession_eq_ok {i : Nat} {key : AuthKey} {lane : Lane} {h : Host σ}
    {session : SessionHandle} (hn : lane.session = none)
    (ha : (E.createSession key h.engine).answer = .ok session) :
    ∃ opened, h.openSession E i key lane = (.ok session, opened) ∧
      opened.engine = (E.createSession key h.engine).state := by
  rw [openSession, hn]
  dsimp only [onEngine]
  rw [ha]
  exact ⟨_, rfl, rfl⟩

theorem submitJob_eq (s : Service) (r : Request) (regions : Regions) (session : SessionHandle)
    (job : Job) (h : Host σ) :
    h.submitJob E s r regions session job =
      (h.calls.length,
        { h with
          engine := (E.submit (r.fill s regions session h.calls.length job) 0 h.now h.engine).state
          calls := h.calls ++ [r.call s regions job h.now]
          interrupts := r.registered h.calls.length h.interrupts
          log := (E.submit (r.fill s regions session h.calls.length job) 0 h.now
            h.engine).events.reverse ++ h.log }) := by
  unfold submitJob Request.registered
  cases hi : r.interrupt <;> rfl

/-- A request that is let in had its session opened and a job acquired, and is the newest call. -/
theorem enter_ok {h h' : Host σ} {s : Service} {r : Request} {ticket : Nat}
    (he : h.enter E s r = (.ok ticket, h')) :
    ∃ lane regions session opened job, s.prepare r = .ok (lane, regions) ∧
      h.openSession E r.service s.key lane = (.ok session, opened) ∧
      (E.acquire opened.engine).answer = some job ∧ ticket = h.calls.length ∧
      h'.calls = h.calls ++ [r.call s regions job h.now] ∧ h'.now = h.now ∧
      h'.engine = (E.submit (r.fill s regions session h.calls.length job) 0 h.now
        (E.acquire opened.engine).state).state := by
  rw [enter] at he
  split at he
  · cases he
  · rename_i lane regions hp
    obtain ⟨hcalls, -, hnow⟩ := openSession_frame (E := E) r.service s.key lane h
    split at he
    · cases he
    · rename_i session opened ho
      rw [ho] at hcalls hnow
      dsimp only at hcalls hnow
      dsimp only [onEngine] at he
      split at he
      · cases he
      · rename_i job acquired heq
        obtain ⟨ha, rfl⟩ := Prod.mk.inj heq
        rw [submitJob_eq] at he
        obtain ⟨hticket, rfl⟩ := Prod.mk.inj he
        cases hticket
        refine ⟨lane, regions, session, opened, job, hp, ho, ha, ?_, ?_, ?_, ?_⟩
        · rw [hcalls]
        · rw [hcalls, hnow]
        · exact hnow
        · rw [hcalls, hnow]

/-- A request that is turned away leaves the calls and the interrupts alone; one that is let in adds
its call, and enters it on the list of its interrupt. -/
theorem enter_calls (s : Service) (r : Request) (h : Host σ) :
    let h' := (h.enter E s r).2
    h'.calls = h.calls ∧ h'.interrupts = h.interrupts ∨
      ∃ c : Call, c.request = r ∧ h'.calls = h.calls ++ [c] ∧
        h'.interrupts = r.registered h.calls.length h.interrupts := by
  intro h'
  unfold h'
  rw [enter]
  split
  · exact .inl ⟨rfl, rfl⟩
  · rename_i lane regions hp
    obtain ⟨hcalls, hinterrupts, -⟩ := openSession_frame (E := E) r.service s.key lane h
    split <;> rename_i heq <;> rw [heq] at hcalls hinterrupts
    · exact .inl ⟨hcalls, hinterrupts⟩
    · dsimp only [onEngine]
      split <;> rename_i hacquire <;> obtain ⟨-, rfl⟩ := Prod.mk.inj hacquire
      · exact .inl ⟨hcalls, hinterrupts⟩
      · dsimp only at hcalls hinterrupts ⊢
        rw [submitJob_eq, hcalls, hinterrupts]
        exact .inr ⟨_, rfl, rfl, rfl⟩

theorem openSession_error {h h' : Host σ} {i : Nat} {key : AuthKey} {lane : Lane} {f : Failure}
    (ho : h.openSession E i key lane = (.error f, h')) : f.kind = .sessionCreationFailed := by
  rw [openSession] at ho
  split at ho
  · cases ho
  · dsimp only [onEngine] at ho
    split at ho
    · cases ho
    · cases (Prod.mk.inj ho).1
      rfl

theorem enter_error_of_prepared {h h' : Host σ} {s : Service} {r : Request} {lane : Lane}
    {regions : Regions} {f : Failure} (hp : s.prepare r = .ok (lane, regions))
    (he : h.enter E s r = (.error f, h')) :
    f.kind = .sessionCreationFailed ∨ f.kind = .engineUnavailable := by
  rw [enter, hp] at he
  dsimp only at he
  split at he
  · rename_i ho
    cases (Prod.mk.inj he).1
    exact .inl (openSession_error ho)
  · dsimp only [onEngine] at he
    split at he
    · cases (Prod.mk.inj he).1
      exact .inr rfl
    · cases (Prod.mk.inj he).1

/-- A request that is turned away never came as far as a tag. -/
theorem enter_error {h h' : Host σ} {s : Service} {r : Request} {f : Failure}
    (he : h.enter E s r = (.error f, h')) : f.kind = .invalidLane ∨ f.kind = .malformedRequest ∨
      f.kind = .sessionCreationFailed ∨ f.kind = .engineUnavailable := by
  cases hp : s.prepare r with
  | error f' =>
    rw [enter, hp] at he
    cases (Prod.mk.inj he).1
    rcases World.prepare_error hp with hk | hk
    · exact .inl hk
    · exact .inr (.inl hk)
  | ok prepared => exact .inr (.inr (enter_error_of_prepared hp he))

/-- A request with a lane and regions is a call, if its lane has a session or gets one, and a job is
to be had. -/
theorem enter_of_job {h opened : Host σ} {s : Service} {r : Request} {lane : Lane}
    {regions : Regions} {session : SessionHandle} {job : Job}
    (hp : s.prepare r = .ok (lane, regions))
    (ho : h.openSession E r.service s.key lane = (.ok session, opened))
    (ha : (E.acquire opened.engine).answer = some job) :
    ∃ log, h.enter E s r =
      (.ok opened.calls.length,
        { opened with
          engine := (E.submit (r.fill s regions session opened.calls.length job) 0 opened.now
            (E.acquire opened.engine).state).state
          calls := opened.calls ++ [r.call s regions job opened.now]
          interrupts := r.registered opened.calls.length opened.interrupts
          log }) := by
  rw [enter, hp]
  dsimp only
  rw [ho]
  dsimp only [onEngine]
  rw [ha]
  dsimp only
  rw [submitJob_eq]
  exact ⟨_, rfl⟩

theorem enter_eq_ok {h opened : Host σ} {s : Service} {r : Request} {lane : Lane}
    {regions : Regions} {session : SessionHandle} {job : Job}
    (hp : s.prepare r = .ok (lane, regions))
    (ho : h.openSession E r.service s.key lane = (.ok session, opened))
    (ha : (E.acquire opened.engine).answer = some job) :
    ∃ ticket h', h.enter E s r = (.ok ticket, h') := by
  obtain ⟨log, entered⟩ := enter_of_job hp ho ha
  exact ⟨_, _, entered⟩

/-- So it is on an open lane as soon as a job is to be had. -/
theorem enter_of_session {h : Host σ} {s : Service} {r : Request} {lane : Lane} {regions : Regions}
    {session : SessionHandle} {job : Job} (hp : s.prepare r = .ok (lane, regions))
    (hl : lane.session = some session) (ha : (E.acquire h.engine).answer = some job) :
    ∃ log, h.enter E s r =
      (.ok h.calls.length,
        { h with
          engine := (E.submit (r.fill s regions session h.calls.length job) 0 h.now
            (E.acquire h.engine).state).state
          calls := h.calls ++ [r.call s regions job h.now]
          interrupts := r.registered h.calls.length h.interrupts
          log }) :=
  enter_of_job hp (by rw [openSession, hl]) ha

/-- On a lane that gets no session a request fails on the spot. -/
theorem enter_of_refused {h : Host σ} {s : Service} {r : Request} {lane : Lane} {regions : Regions}
    {e : EngineError} (hp : s.prepare r = .ok (lane, regions)) (hl : lane.session = none)
    (ha : (E.createSession s.key h.engine).answer = .error e) :
    ∃ h', h.enter E s r = (.error ⟨.sessionCreationFailed, some e.message⟩, h') ∧
      h'.engine = (E.createSession s.key h.engine).state := by
  rw [enter, hp]
  dsimp only
  rw [openSession, hl]
  dsimp only [onEngine]
  rw [ha]
  exact ⟨_, rfl, rfl⟩

/-- So it does on an open lane if no job is to be had. -/
theorem enter_of_starved {h : Host σ} {s : Service} {r : Request} {lane : Lane} {regions : Regions}
    {session : SessionHandle} (hp : s.prepare r = .ok (lane, regions))
    (hl : lane.session = some session) (ha : (E.acquire h.engine).answer = none) :
    ∃ h', h.enter E s r =
        (.error ⟨.engineUnavailable, some (r.lane.text ++ ": no job available")⟩, h') ∧
      h'.engine = (E.acquire h.engine).state := by
  rw [enter, hp]
  dsimp only
  rw [openSession, hl]
  dsimp only [onEngine]
  rw [ha]
  exact ⟨_, rfl, rfl⟩

theorem deliverNext_of_none {h : Host σ} (hn : E.handBack h.now h.engine = none) (n : Nat) :
    h.deliverNext E n = h := by
  cases n with
  | zero => rfl
  | succ n => rw [deliverNext, hn]

theorem drain_of_none {h : Host σ} (hn : E.handBack h.now h.engine = none) : h.drain E = h :=
  deliverNext_of_none hn _

/-- A call that waits no more finds nothing when it looks. -/
theorem look_of_ended {h : Host σ} {ticket : Nat}
    (he : ∀ c, h.calls[ticket]? = some c → c.isWaiting = false) : h.look E ticket = h := by
  rw [look]
  split
  · rfl
  · rename_i c hc
    rw [he c hc, if_neg Bool.false_ne_true]

/-- Nothing happens if no call finds anything. -/
theorem looks_of_still {h : Host σ} (still : ∀ ticket, h.look E ticket = h) (tickets : List Nat) :
    tickets.foldl (fun h ticket => h.look E ticket) h = h := by
  induction tickets with
  | nil => rfl
  | cons ticket tickets ih => rw [List.foldl_cons, still ticket, ih]

/-- An instant at which nobody finds a reason to end a wait only brings back jobs. -/
theorem advance_of_still {h : Host σ} {instant : Nat}
    (still : ∀ ticket, ({ h with now := max h.now instant }.drain E).look E ticket =
      { h with now := max h.now instant }.drain E)
    (held : ({ h with now := max h.now instant }.drain E).isHeld = true) :
    h.advance E instant = { h with now := max h.now instant }.drain E := by
  rw [advance, looks_of_still still, closeUnused_of_held held]

theorem passUntil_of_done {done : Host σ → Bool} {h : Host σ} (hd : done h = true)
    (limit : Option Nat) (n : Nat) : h.passUntil E done limit n = h := by
  cases n with
  | zero => rfl
  | succ n => rw [passUntil, if_pos hd]

/-- On an engine that hands nothing back, a call that was let in looks at once. -/
theorem start_of_paused {h h' : Host σ} {s : Service} {r : Request} {ticket : Nat}
    (he : h.enter E s r = (.ok ticket, h')) (hn : E.handBack h'.now h'.engine = none) :
    h.start E s r = (.ok ticket, h'.look E ticket) := by
  rw [start, he]
  dsimp only
  rw [drain_of_none hn]

/-- A request whose call has its reply as soon as it is started is performed by that. -/
theorem perform_of_reply {h h' : Host σ} {s : Service} {r : Request} {ticket : Nat} {reply : Reply}
    (hs : h.start E s r = (.ok ticket, h')) (hr : h'.reply? ticket = some reply) :
    h.perform E s r = (some reply, h') := by
  have awaited : h'.await E ticket = h' := passUntil_of_done (by rw [hr]; rfl) none _
  rw [perform, hs]
  dsimp only
  rw [awaited, hr]

/-- Opening a session leaves the jobs of the engine alone, and does not set it going or stop it. -/
theorem openSession_software {h opened : Host Software} {i : Nat} {key : AuthKey} {lane : Lane}
    {answer : Except Failure SessionHandle}
    (ho : h.openSession Software.engine i key lane = (answer, opened)) :
    opened.engine.queue = h.engine.queue ∧ opened.engine.pool = h.engine.pool ∧
      opened.engine.paused = h.engine.paused ∧ opened.engine.isShutDown = h.engine.isShutDown := by
  have engine := openSession_engine (E := Software.engine) i key lane h
  rw [ho] at engine
  rcases engine with same | created
  · dsimp only at same
    rw [same]
    exact ⟨rfl, rfl, rfl, rfl⟩
  · dsimp only at created
    obtain ⟨hqueue, hpool, -⟩ := Software.createSession_frame key h.engine
    rw [created]
    exact ⟨hqueue, hpool, Software.createSession_paused key h.engine,
      Software.createSession_isShutDown key h.engine⟩

theorem openSession_inside {h opened : Host Software} {i : Nat} {key : AuthKey} {lane : Lane}
    {answer : Except Failure SessionHandle}
    (ho : h.openSession Software.engine i key lane = (answer, opened)) :
    opened.engine.inside = h.engine.inside := by
  have engine := openSession_engine (E := Software.engine) i key lane h
  rw [ho] at engine
  rcases engine with same | created
  · exact congrArg Software.inside same
  · exact (congrArg Software.inside created).trans (Software.createSession_inside key h.engine)

/-- A request that is turned away submits nothing. -/
theorem enter_error_inside {h h' : Host Software} {s : Service} {r : Request} {f : Failure}
    (he : h.enter Software.engine s r = (.error f, h')) : h'.engine.inside = h.engine.inside := by
  rw [enter] at he
  split at he
  · obtain ⟨-, rfl⟩ := Prod.mk.inj he
    rfl
  · split at he
    · rename_i ho
      obtain ⟨-, rfl⟩ := Prod.mk.inj he
      exact openSession_inside ho
    · rename_i ho
      dsimp only [onEngine] at he
      split at he
      · rename_i heq
        obtain ⟨-, rfl⟩ := Prod.mk.inj heq
        obtain ⟨-, rfl⟩ := Prod.mk.inj he
        exact (Software.acquire_inside _).trans (openSession_inside ho)
      · cases (Prod.mk.inj he).1

end PacketAuth.Host
