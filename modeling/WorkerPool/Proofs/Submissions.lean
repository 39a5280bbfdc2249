import WorkerPool.Proofs.Growth

/-!
What a step of a submission does.

A submission is declined, or its pool gets a worker for it, or it waits for one, or the pool takes
the task; and tasks are taken in no other steps. A submission that is declined leaves all pools and
tasks as they are.
-/
namespace WorkerPool

theorem Pool.refusal_eq_some {pool : Pool} {e : PoolError} (h : pool.refusal = some e) :
    (e = .shutDown ∧ pool.closed) ∨
      (e = .tooManyTasks pool.queue.length pool.queue.capacity ∧ pool.queue.isFull) := by
  unfold refusal at h
  split at h
  · next hc =>
    cases h
    exact .inl ⟨rfl, hc⟩
  · split at h
    · next hf =>
      cases h
      exact .inr ⟨rfl, hf⟩
    · cases h

/-- Why a submission of the task is declined. -/
inductive Declines (pool : Pool) (t : TaskId) (task : Task) : PoolError → Prop
  | refusal {e : PoolError} : pool.refusal = some e → Declines pool t task e
  | owned : pool.refusal = none → task.slot.ownership ≠ .caller →
      Declines pool t task (.alreadySubmitted (LogRecord.number t))
  | unstaffed (cause : String) : pool.refusal = none → task.slot.ownership = .caller →
      pool.needsWorker →
      Declines pool t task
        (.spawnFailed pool.rosterSize "Cannot create worker thread" (some cause))

/-- What a pool tells when it takes a task. -/
def Pool.receipt (p : PoolId) (pool : Pool) (t : TaskId) : List Event :=
  [.log (.submitted p t (pool.accept t).queue.length),
    .metric p (.submission (pool.accept t).queue.length), .replied .done]

namespace System

variable {s s' s₀ : System} {i : ThreadId} {p : PoolId} {t u : TaskId} {pool : Pool} {task : Task}
  {f : Frame} {rest : List Frame} {a : Action} {e : Effect} {es : List Event} {k : Nat}
  {pick : Pick} {th : Thread} {woken : Bool}

/-- The step is one of a submission of the task to the pool, which is called for or goes on. -/
inductive Attempts (s : System) (i : ThreadId) (p : PoolId) (t : TaskId) : Action → Prop
  | call (pick : Pick) : Attempts s i p t (.call (.submit p t) pick)
  | goOn {woken : Bool} {rest : List Frame} (a : Action) :
      s.Inside i (.awaitingWorker p t woken :: rest) → Attempts s i p t a

/-- What a step of a submission of the task to the pool does. -/
inductive Attempt (s : System) (i : ThreadId) (p : PoolId) (t : TaskId) (pool : Pool)
    (task : Task) : Effect → Prop
  | declined {s' : System} {e : PoolError} : Declines pool t task e → s'.pools = s.pools →
      s'.tasks = s.tasks → Attempt s i p t pool task (s', [.replied (.failed e)])
  | hires {s' : System} {j k : Nat} {name : String} {rest : List Frame} :
      task.slot.ownership = .caller → s'.pools = s.pools.set p (pool.hire j) →
      s'.tasks = s.tasks → s'.Inside i (.awaitingWorker p t false :: rest) →
      Attempt s i p t pool task (s', [.log (.spawned p k name)])
  /-- Whoever begins to wait has found the task in its caller's hands. -/
  | waits {s' : System} {rest : List Frame} : 0 < pool.unregistered →
      (task.slot.ownership ≠ .caller →
        ∃ woken rest, s.Inside i (.awaitingWorker p t woken :: rest)) →
      s'.pools = s.pools → s'.tasks = s.tasks →
      s'.Inside i (.awaitingWorker p t false :: rest) → Attempt s i p t pool task (s', [])
  | accepted {s₀ : System} (pick : Pick) : pool.refusal = none → pool.unregistered = 0 →
      task.slot.ownership = .caller → s₀ = s ∨ s₀ = s.inCall i →
      Attempt s i p t pool task
        ((((s₀.setSlot t task.slot.claim).setPool p (pool.accept t)).wakeOne p pick).onThread i
          Thread.pop, pool.receipt p t)

namespace Attempt

theorem accept (pick : Pick) (hr : pool.refusal = none) (hu : pool.unregistered = 0)
    (hs : s₀ = s ∨ s₀ = s.inCall i) :
    s.Attempt i p t pool task (s₀.accept i p pool t task pick) := by
  have hpools : s₀.pools = s.pools := by rcases hs with rfl | rfl <;> rfl
  have htasks : s₀.tasks = s.tasks := by rcases hs with rfl | rfl <;> rfl
  unfold System.accept
  split
  · next ho => exact .declined (.owned hr ho) hpools htasks
  · next ho => exact .accepted pick hr hu (not_not.mp ho) hs

theorem submit (pick : Pick) (hi : (s.inCall i).Inside i (f :: rest)) :
    s.Attempt i p t pool task ((s.inCall i).submit i p pool t task pick) := by
  unfold System.submit
  split
  · next e hr => exact .declined (.refusal hr) rfl rfl
  · next hr =>
    split
    · next ho => exact .declined (.owned hr ho) rfl rfl
    · next ho =>
      have ho := not_not.mp ho
      split
      · next hneeds =>
        split
        · exact .hires ho rfl rfl hi.hired.enter
        · next cause _ => exact .declined (.unstaffed cause hr ho hneeds) rfl rfl
      · split
        · next hu => exact .waits hu (absurd ho) rfl rfl hi.enter
        · next hu => exact .accept pick hr (by omega) (.inr rfl)

theorem resumeSubmit (pick : Pick) (hi : s.Inside i (.awaitingWorker p t woken :: rest)) :
    s.Attempt i p t pool task (s.resumeSubmit i p pool t task pick) := by
  unfold System.resumeSubmit
  split
  · next hu => exact .waits hu (fun _ => ⟨woken, rest, hi⟩) rfl rfl hi.enter
  · next hu =>
    split
    · next e hr => exact .declined (.refusal hr) rfl rfl
    · next hr => exact .accept pick hr (by omega) (.inl rfl)

end Attempt

theorem Attempts.attempt (tries : s.Attempts i p t a) (calls : s.Calls)
    (hs : s.step i a = some e) : ∃ pool task, s.pools[p]? = some pool ∧
      s.tasks[t]? = some task ∧ s.canShare t ∧ s.Attempt i p t pool task e := by
  cases tries with
  | call pick =>
    obtain ⟨th, pool, task, hth, hp, ht, share, rfl⟩ := step_submit hs
    exact ⟨pool, task, hp, ht, share, .submit pick (.inCall hth)⟩
  | goOn a hi =>
    obtain ⟨pool, task, pick, hp, ht, rfl⟩ := hi.resumesSubmit hs
    exact ⟨pool, task, hp, ht, calls.share hi, .resumeSubmit pick hi⟩

/-! ### Other steps -/

/-- The step tells of no task that a pool has taken. -/
def Hushed (e : Effect) : Prop := ∀ ev ∈ e.2, ∀ u, ev.buys u = false

theorem Hushed.emit (h : Hushed e) (hes : ∀ ev ∈ es, ∀ u, ev.buys u = false) :
    Hushed (emit es e) := by
  intro ev hev
  rcases List.mem_append.mp hev with hev | hev
  · exact hes ev hev
  · exact h ev hev

theorem hushed_silent : Hushed (s, []) := nofun

theorem hushed_reply (r : Reply) : Hushed (s.reply i r) := by
  simp [Hushed, reply, Event.buys]

theorem hushed_takeOutcome : Hushed (s.takeOutcome i t task) :=
  (hushed_reply _).emit (by simp [Event.buys])

theorem hushed_join {bound : Bound} : Hushed (s.join i t task bound) := by
  unfold System.join
  split
  · exact hushed_reply _
  · split
    · exact hushed_takeOutcome
    · split
      · exact hushed_reply _
      · exact hushed_silent

theorem hushed_resumeJoin {bound : Bound} : Hushed (s.resumeJoin i t task bound) := by
  unfold System.resumeJoin
  split
  · exact hushed_takeOutcome
  · exact hushed_silent

theorem hushed_expireJoin {nanos : Nat} : Hushed (s.expireJoin i t task nanos) := by
  unfold System.expireJoin
  split
  · exact hushed_takeOutcome
  · exact hushed_reply _

theorem hushed_detach : Hushed (s.detach i t task) := by
  unfold System.detach
  split
  · split <;> exact hushed_silent
  · exact hushed_reply _
  · exact hushed_reply _

theorem hushed_destroy : Hushed (s.destroy i t task) := by
  unfold System.destroy
  split
  · exact hushed_reply _
  · exact hushed_silent

theorem hushed_dispose {todo : List Disposal} {failure : Option Payload} {releasing : Bool}
    (calls : s.Calls) (hi : s.Inside i (.disposing todo failure releasing :: rest)) :
    Hushed (s.dispose i th todo failure releasing) := by
  have destructor (s : System) (r : Remains) : Hushed (s.runDestructor i r) := by
    simp [Hushed, runDestructor, Event.buys]
  cases todo with
  | nil =>
    simp only [System.dispose]
    split
    · split <;> simp [Hushed, Event.buys]
    · split <;> exact hushed_reply _
  | cons d todo =>
    cases d with
    | outcome t o =>
      simp only [System.dispose]
      split
      · exact destructor _ _
      · exact hushed_silent
    | work t => exact destructor _ _
    | record r =>
      obtain ⟨u, rfl⟩ := (calls.given hi).1
      simp only [System.dispose]
      split <;> simp [Hushed, Event.buys]
    | handle t =>
      simp only [System.dispose]
      split
      · exact hushed_silent
      · split
        · simp [Hushed, Event.buys]
        · exact hushed_silent
    | reference t =>
      simp only [System.dispose]
      split
      · exact hushed_silent
      · split <;> exact hushed_silent

theorem hushed_endShutdown (failure : Option PoolError) (dropping : Bool) :
    Hushed (s.endShutdown i p pool failure dropping) := by
  unfold System.endShutdown
  split
  · exact hushed_reply _
  · exact hushed_reply _
  · exact (hushed_reply _).emit (by simp [Event.buys])

theorem hushed_stopNext (next total : Nat) (dropping : Bool) :
    Hushed (s.stopNext i p pool next total dropping) := by
  unfold System.stopNext
  split
  · exact hushed_silent
  · exact (hushed_endShutdown _ _).emit (by simp [Event.buys])

theorem hushed_resumeShutdown (dropping : Bool) : Hushed (s.resumeShutdown i p pool dropping) := by
  unfold System.resumeShutdown System.decideShutdown
  split
  · exact hushed_silent
  · split
    · exact hushed_stopNext _ _ _
    · exact hushed_endShutdown _ _

theorem hushed_shutdown (dropping : Bool) : Hushed (s.shutdown i p pool dropping) := by
  unfold System.shutdown
  split
  · exact hushed_endShutdown _ _
  · exact hushed_resumeShutdown _

theorem hushed_waitIdle (dropping : Bool) : Hushed (s.waitIdle i p pool dropping) := by
  unfold System.waitIdle
  split
  · split
    · exact hushed_silent
    · exact hushed_reply _
  · exact hushed_silent

theorem hushed_dropPool : Hushed (s.dropPool i p pool) := by
  simp only [System.dropPool]
  split
  · exact hushed_reply _
  · exact hushed_waitIdle _

theorem hushed_joinCrew {next total : Nat} {dropping : Bool}
    (h : s.joinCrew? i p pool next total dropping = some e) : Hushed e := by
  unfold System.joinCrew? at h
  split at h
  · cases h
  · split at h
    · cases h
      exact (hushed_stopNext _ _ _).emit (by simp [Event.buys])
    · split at h
      · cases h
        exact hushed_stopNext _ _ _
      · cases h

theorem hushed_proceed : Hushed (s.proceed i p pool k) := by
  unfold System.proceed
  split
  · simp [Hushed, Event.buys]
  · split <;> simp [Hushed, Event.buys]

theorem hushed_work {phase : Phase} (h : s.work? i p k phase = some e) : Hushed e := by
  obtain ⟨pool, hp, h⟩ := Option.bind_eq_some_iff.mp h
  have task {t : TaskId} {f : Task → Effect}
      (h : (s.tasks[t]?.bind fun task => some (f task)) = some e) (hf : ∀ task, Hushed (f task)) :
      Hushed e := by
    obtain ⟨task, -, h⟩ := Option.bind_eq_some_iff.mp h
    cases h
    exact hf task
  cases phase with
  | starting =>
    cases h
    exact hushed_proceed.emit (by simp [Event.buys])
  | parked woken =>
    cases woken with
    | false => cases h
    | true =>
      cases h
      exact hushed_proceed
  | holding t =>
    refine task h fun task => ?_
    unfold System.begin
    split <;> simp [Hushed, Event.buys]
  | running t => cases h
  | stashing t work o => exact task h fun task => hushed_silent
  | stashed t returned =>
    cases h
    cases returned <;> simp [Hushed, count, Event.buys]
  | counted t =>
    refine task h fun task => ?_
    simp only [Hushed, retire]
    split <;> simp [Event.buys]
  | releasing =>
    cases h
    exact hushed_proceed
  | exited => cases h

theorem hushed_call {op : Operation} (h : s.call? i op pick = some e) :
    (∃ p t, op = .submit p t) ∨ Hushed e := by
  have owned {f : Task → Effect} {t : TaskId}
      (h : (s.tasks[t]?.bind fun task => if s.canOwn t then some (f task) else none) = some e)
      (hf : ∀ task, Hushed (f task)) : Hushed e := by
    obtain ⟨task, -, h⟩ := Option.bind_eq_some_iff.mp h
    obtain ⟨-, h⟩ := Option.ite_none_right_eq_some.mp h
    cases h
    exact hf task
  have used {f : Pool → Effect} {p : PoolId} {c : Bool}
      (h : (s.pools[p]?.bind fun pool => if c then some (f pool) else none) = some e)
      (hf : ∀ pool, Hushed (f pool)) : Hushed e := by
    obtain ⟨pool, -, h⟩ := Option.bind_eq_some_iff.mp h
    obtain ⟨-, h⟩ := Option.ite_none_right_eq_some.mp h
    cases h
    exact hf pool
  cases op with
  | createPool c =>
    simp only [call?] at h
    split at h
    · cases h
      exact .inr (hushed_reply _)
    · cases h
      exact .inr ((hushed_reply _).emit (by simp [Event.buys]))
  | createTask captured =>
    cases h
    exact .inr (hushed_reply _)
  | submit p t => exact .inl ⟨p, t, rfl⟩
  | join t bound => exact .inr (owned h fun _ => hushed_join)
  | detach t => exact .inr (owned h fun _ => hushed_detach)
  | destroy t => exact .inr (owned h fun _ => hushed_destroy)
  | drop t => exact .inr (owned h fun _ => hushed_silent)
  | waitIdle p => exact .inr (used h fun _ => hushed_waitIdle _)
  | shutdown p => exact .inr (used h fun _ => hushed_shutdown _)
  | dropPool p => exact .inr (used h fun _ => hushed_dropPool)

theorem hushed_finish {ending : Except Payload Value} (h : s.finish? i th ending = some e) :
    Hushed e := by
  unfold finish? at h
  split at h
  · cases h
    exact hushed_silent
  · obtain ⟨task, -, h⟩ := Option.bind_eq_some_iff.mp h
    cases h
    simp [Hushed, endWork, Event.buys]
  · cases h

theorem hushed_advance (calls : s.Calls) (hth : s.threads[i]? = some th)
    (h : s.advance? i th pick = some e) :
    (∃ p t woken rest, s.Inside i (.awaitingWorker p t woken :: rest)) ∨ Hushed e := by
  unfold advance? at h
  split at h
  · split at h
    · cases h
    · exact .inr (hushed_work h)
  · next hc => exact .inl ⟨_, _, _, _, th, hth, hc⟩
  · obtain ⟨task, -, h⟩ := Option.bind_eq_some_iff.mp h
    cases h
    exact .inr hushed_resumeJoin
  · obtain ⟨pool, -, h⟩ := Option.bind_eq_some_iff.mp h
    cases h
    exact .inr (hushed_waitIdle _)
  · obtain ⟨pool, -, h⟩ := Option.bind_eq_some_iff.mp h
    cases h
    exact .inr (hushed_shutdown _)
  · obtain ⟨pool, -, h⟩ := Option.bind_eq_some_iff.mp h
    cases h
    exact .inr (hushed_resumeShutdown _)
  · obtain ⟨pool, -, h⟩ := Option.bind_eq_some_iff.mp h
    exact .inr (hushed_joinCrew h)
  · next hc =>
    cases h
    exact .inr (hushed_dispose calls ⟨th, hth, hc⟩)
  all_goals cases h

theorem hushed_expire (h : s.expire? i th = some e) : Hushed e := by
  unfold expire? at h
  split at h
  · obtain ⟨task, -, h⟩ := Option.bind_eq_some_iff.mp h
    cases h
    exact hushed_expireJoin
  · cases h

/-- A pool takes a task in no step but of a submission. -/
theorem hushed_step (calls : s.Calls) (hs : s.step i a = some e) :
    (∃ p t, s.Attempts i p t a) ∨ Hushed e := by
  obtain ⟨th, hth, h⟩ := Option.bind_eq_some_iff.mp hs
  cases a with
  | call op pick =>
    simp only at h
    split at h
    · obtain ⟨p, t, rfl⟩ | hushed := hushed_call h
      · exact .inl ⟨p, t, .call pick⟩
      · exact .inr hushed
    · cases h
  | finish ending => exact .inr (hushed_finish h)
  | advance pick =>
    obtain ⟨p, t, woken, rest, hi⟩ | hushed := hushed_advance calls hth h
    · exact .inl ⟨p, t, .goOn _ hi⟩
    · exact .inr hushed
  | expire => exact .inr (hushed_expire h)

/-! ### What submissions tell -/

theorem Attempt.buys (attempt : s.Attempt i p t pool task e) {ev : Event} (hev : ev ∈ e.2)
    (hb : ev.buys u) : u = t ∧ e.2 = pool.receipt p t := by
  cases attempt with
  | declined _ _ _ => simp_all [Event.buys]
  | hires _ _ _ _ => simp_all [Event.buys]
  | waits _ _ _ _ _ => cases hev
  | accepted _ _ _ _ _ =>
    refine ⟨?_, rfl⟩
    simp only [Pool.receipt, List.mem_cons, List.not_mem_nil, or_false] at hev
    rcases hev with rfl | rfl | rfl
    · exact (beq_iff_eq.mp hb).symm
    · cases hb
    · cases hb

/-- Whoever tells that a pool has taken the task is in a submission of it, which has succeeded. -/
theorem submitted_by (calls : s.Calls) (hs : s.step i a = some e) {ev : Event} (hev : ev ∈ e.2)
    (hb : ev.buys t) : ∃ p pool, s.Attempts i p t a ∧ s.pools[p]? = some pool ∧
      e.2 = pool.receipt p t := by
  obtain ⟨p, u, tries⟩ | hushed := hushed_step calls hs
  · obtain ⟨pool, task, hp, -, -, attempt⟩ := tries.attempt calls hs
    obtain ⟨rfl, he⟩ := attempt.buys hev hb
    exact ⟨p, pool, tries, hp, he⟩
  · simp [hushed ev hev t] at hb

end System

end WorkerPool
