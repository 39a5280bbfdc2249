import WorkerPool.Proofs.Recruits
import WorkerPool.Proofs.SlotStates
import WorkerPool.Proofs.Takers
import WorkerPool.Proofs.Teardown

/-!
Closed pools leave nothing behind.

A pool is closed only when it is quiescent, and it takes no task from then on. So all it has ever
accepted has been executed and is finished. Submissions that were in progress at that moment, also
those that wait for a worker to register, come back refused, with their tasks untouched.
-/
namespace WorkerPool

/-- The work of a task that has been started runs on that worker. -/
theorem Record.At.of_started {r : Record} {life : Life} {n : Nat} {p : PoolId} {i : ThreadId}
    (hat : r.At (.started n p i) life) : ∃ t, life = .carried p i (.running t) := by
  have agrees := hat.agrees
  cases life with
  | idle => cases agrees.1
  | queued q => cases agrees.1
  | carried q j phase =>
    cases phase with
    | running t =>
      cases agrees.1
      exact ⟨t, rfl⟩
    | _ => simp [Life.Agrees] at agrees
  | done o => cases agrees.1

namespace System

variable {s s' : System} {i j : ThreadId} {p : PoolId} {pool : Pool} {t : TaskId} {task : Task}
  {rest : List Frame} {h h' : Trace} {callers n : Nat} {pick : Pick} {th : Thread} {phase : Phase}
  {schedule : List (ThreadId × Action)} {bound : Bound}

/-! ### The pool -/

theorem Run.idle_closed (run : Run callers h s) (hp : s.pools[p]? = some pool)
    (hc : pool.closed) : pool.queue.isEmpty ∧ pool.runningCount = 0 := by
  obtain ⟨hrun, hqueue⟩ := (run.books.pools p pool hp).calm hc
  exact ⟨by simp [PendingQueue.isEmpty, hqueue], hrun⟩

theorem Run.closed_replay (run : Run callers h s) (hr : s.replay schedule = some (h', s'))
    (hp : s.pools[p]? = some pool) (hc : pool.closed) : ∃ pool', s'.pools[p]? = some pool' ∧
      pool'.closed ∧ pool'.crew.length = pool.crew.length ∧ pool'.submitted = pool.submitted := by
  induction schedule generalizing h h' s pool with
  | nil =>
    cases hr
    exact ⟨pool, hp, hc, rfl, rfl⟩
  | cons move rest ih =>
    obtain ⟨s₁, es, h₁, hs, hr₁, rfl⟩ := replay_cons hr
    obtain ⟨pool₁, hp₁, hc₁, hlen₁, hsub₁, -⟩ := (moves_of_step run.calls hs).closed hp hc
    obtain ⟨pool₂, hp₂, hc₂, hlen₂, hsub₂⟩ := ih (run.step hs) hr₁ hp₁ hc₁
    exact ⟨pool₂, hp₂, hc₂, hlen₂.trans hlen₁, hsub₂.trans hsub₁⟩

/-- Workers are told of as long as the pool grows. -/
theorem Run.spawns_eq_nil (run : Run callers h s) (hr : s.replay schedule = some (h', s'))
    (hsize : s'.size p = s.size p) : h'.spawns p = [] := by
  have before := run.logged.spawns p
  have after := (run.replay hr).logged.spawns p
  rw [hsize, ← before] at after
  simpa [Trace.spawns] using after

/-! ### Submissions -/

theorem refusal_closed (hc : pool.closed) : pool.refusal = some .shutDown := by
  simp [Pool.refusal, hc]

theorem submit_closed (hth : s.threads[i]? = some th) (hu : th.inUserCode) (use : s.canUse p)
    (share : s.canShare t) (hc : s.isClosed p) :
    s.step i (.call (.submit p t) pick) = some (s, [.replied (.failed .shutDown)]) := by
  obtain ⟨pool, hp, hclosed⟩ := (Option.any_eq_true _ _).mp hc
  obtain ⟨⟨o, ho⟩, -⟩ := canShare_iff.mp share
  obtain ⟨task, ht, -⟩ := Option.map_eq_some_iff.mp ho
  have refused : (s.inCall i).submit i p pool t task pick =
      (s, [.replied (.failed .shutDown)]) := by
    simp [System.submit, refusal_closed hclosed, reply, pop_inCall]
  unfold inCall at refused
  simpa [step, hth, hu, call?, hp, ht, use, share] using refused

theorem Run.resumeSubmit_closed (run : Run callers h s)
    (hi : s.Inside i (.awaitingWorker p t true :: rest)) (hc : s.isClosed p) :
    s.step i (.advance pick) =
      some (s.onThread i Thread.pop, [.replied (.failed .shutDown)]) := by
  obtain ⟨pool, hp, hclosed⟩ := (Option.any_eq_true _ _).mp hc
  obtain ⟨o, ho⟩ : ∃ o, s.standing t = some (true, o) := run.calls.relies.inside hi
  obtain ⟨task, ht, -⟩ := Option.map_eq_some_iff.mp ho
  obtain ⟨th, hth, hcalls⟩ := hi
  -- No worker is waited for: the list of workers is taken.
  have unregistered : pool.unregistered = 0 := by
    simp [Pool.unregistered, Pool.rosterSize, hclosed]
  simp [System.step, hth, advance?, hcalls, hp, ht, System.resumeSubmit, unregistered,
    refusal_closed hclosed, reply]

/-! ### Tasks -/

/-- No worker of a pool that runs nothing has a task in hands. -/
theorem Books.free (books : s.Books) (hp : s.pools[p]? = some pool) (hr : pool.runningCount = 0)
    (has : s.Has i p phase) : phase.task? = none := by
  obtain ⟨th, k, hth, hrole⟩ := has
  have hbusy := books.busy hp
  rw [hr] at hbusy
  have := List.countP_eq_zero.mp hbusy.symm th (List.mem_of_getElem? hth)
  simpa [Thread.isBusyIn, hrole] using this

/-- Whatever workers of a closed pool have begun has ended. -/
theorem Run.ended_closed (run : Run callers h s) (hc : s.isClosed p) {h₁ h₂ : Trace}
    (hsplit : h = h₁ ++ (i, .started t n) :: h₂) (hi : s.employer i = some p) :
    ∃ o, o.run = n ∧ (i, .ended t o) ∈ h₂ := by
  obtain ⟨pool, hp, hclosed⟩ := (Option.any_eq_true _ _).mp hc
  obtain ⟨life, st, hat, story⟩ := run.kept t
  subst hsplit
  refine story.started_until.resolve_left ?_
  rintro ⟨q, rfl⟩
  obtain ⟨u, rfl⟩ := hat.of_started
  have has : s.Has i q (.running u) := has_of_bearing ((congrFun hat.bearing i).trans (if_pos rfl))
  obtain rfl : q = p := by
    obtain ⟨th, k, hth, hr⟩ := id has
    simpa [System.employer, hth, Thread.employer, hr] using hi
  cases run.books.free hp (run.idle_closed hp hclosed).2 has

/-- A task that a closed pool has accepted last, and that no join has taken, is finished. -/
theorem Run.finished_closed (run : Run callers h s) (hc : s.isClosed p)
    (ht : s.tasks[t]? = some task) (hh : task.handle) (ho : task.slot.ownership = .pool)
    (taker : h.taker t = some p) : ∃ o, task.slot.state = .finished ∧
      task.slot.outcome = some o ∧ o.run = h.submissions t ∧ ∃ j, (j, .ended t o) ∈ h := by
  obtain ⟨pool, hp, hclosed⟩ := (Option.any_eq_true _ _).mp hc
  obtain ⟨hempty, hrun⟩ := run.idle_closed hp hclosed
  obtain ⟨life, st, hat, story⟩ := run.kept t
  have taken := run.taken t
  have agrees := hat.agrees
  cases life with
  | idle =>
    rw [Life.Agrees, record_slot ht, ho] at agrees
    cases agrees.2.1
  | queued q =>
    have hq : (s.record t).queued q ≠ 0 := by simp [hat.queued, Life.queue]
    obtain rfl : p = q := Option.some.inj (taker.symm.trans (taken.queued q hq))
    simp [queued_eq hp, List.isEmpty_iff.mp hempty] at hq
  | carried q i phase =>
    have hb : (s.record t).bearing i = some (q, phase) :=
      (congrFun hat.bearing i).trans (if_pos rfl)
    obtain rfl : p = q := Option.some.inj (taker.symm.trans (taken.bearing i q phase hb))
    have hnone := run.books.free hp hrun (has_of_bearing hb)
    cases phase <;> simp_all [Phase.task?, Life.Agrees]
  | done o =>
    obtain ⟨rfl, hstate, -, held⟩ := agrees
    rw [record_slot ht] at hstate held
    obtain ⟨-, hout, -⟩ := held ((record_handle ht).trans hh)
    obtain ⟨hrun, hmem⟩ := story.ended_mem rfl
    exact ⟨o, hstate, hout, by rw [hrun, story.submissions_eq]; rfl, hmem⟩

theorem Run.join_closed (run : Run callers h s) (hc : s.isClosed p)
    (hth : s.threads[i]? = some th) (hu : th.inUserCode) (ht : s.tasks[t]? = some task)
    (own : s.canOwn t) (ho : task.slot.ownership = .pool) (taker : h.taker t = some p) :
    ∃ o, s.step i (.call (.join t bound) pick) = some (s.setSlot t task.slot.release,
        [.joined t (some o), .replied (joinReply t (some o))]) ∧
      o.run = h.submissions t ∧ ∃ j, (j, .ended t o) ∈ h := by
  obtain ⟨o, hstate, hout, hrun, hmem⟩ :=
    run.finished_closed hc ht (handle_of_canOwn own ht) ho taker
  refine ⟨o, ?_, hrun, hmem⟩
  have taken : (s.inCall i).join i t task bound = (s.setSlot t task.slot.release,
      [.joined t (some o), .replied (joinReply t (some o))]) := by
    have pop : ((s.inCall i).setSlot t task.slot.release).onThread i Thread.pop =
        s.setSlot t task.slot.release := pop_inCall (s := s.setSlot t task.slot.release)
    simp [System.join, ho, hstate, takeOutcome, hout, emit, reply, pop]
  unfold inCall at taken
  simpa [System.step, hth, hu, call?, ht, own] using taken

/-! ### What a closed pool leaves behind -/

/-- What a pool is like from the moment on at which it is closed. -/
structure StrandsNothing (h : Trace) (s : System) (p : PoolId) : Prop where
  empty : ∃ pool, s.pools[p]? = some pool ∧ pool.queue.isEmpty ∧ pool.runningCount = 0
  free : ∀ {i phase}, s.Has i p phase → phase.task? = none
  /-- It stays so; no task is accepted and no worker is spawned. -/
  lasts : ∀ {schedule h' s' pool}, s.replay schedule = some (h', s') → s.pools[p]? = some pool →
    ∃ pool', s'.pools[p]? = some pool' ∧ pool'.closed ∧ pool'.queue.isEmpty ∧
      pool'.runningCount = 0 ∧ pool'.submitted = pool.submitted ∧
      pool'.crew.length = pool.crew.length ∧ h'.spawns p = []
  /-- A submission that begins is refused and changes nothing. -/
  refuses : ∀ {i th t pick}, s.threads[i]? = some th → th.inUserCode → s.canUse p →
    s.canShare t → s.step i (.call (.submit p t) pick) = some (s, [.replied (.failed .shutDown)])
  /-- A submission in progress is refused and changes nothing as soon as it is woken. -/
  resumes : ∀ {i t rest pick}, s.Inside i (.awaitingWorker p t true :: rest) →
    s.step i (.advance pick) = some (s.onThread i Thread.pop, [.replied (.failed .shutDown)])
  /-- A worker has yet to register, which wakes all who wait for one. -/
  wakes : ∀ {i t rest}, s.Inside i (.awaitingWorker p t false :: rest) →
    ∃ j k, s.Working j p k .starting ∧ ∀ pick, ∃ s' es rest',
      s.step j (.advance pick) = some (s', es) ∧ s'.Inside i (.awaitingWorker p t true :: rest')
  /-- All that the pool has accepted has been invoked, and the invocations have ended. -/
  executed : ∀ t, h.invocations s.employer p t = h.acceptances p t
  ended : ∀ {h₁ i t n h₂}, h = h₁ ++ (i, .started t n) :: h₂ → s.employer i = some p →
    ∃ o, o.run = n ∧ (i, .ended t o) ∈ h₂
  /-- A join of such a task takes the outcome at once. -/
  join : ∀ {i th t bound pick task}, s.threads[i]? = some th → th.inUserCode →
    s.tasks[t]? = some task → s.canOwn t → task.slot.ownership = .pool → h.taker t = some p →
    ∃ o, s.step i (.call (.join t bound) pick) = some (s.setSlot t task.slot.release,
        [.joined t (some o), .replied (joinReply t (some o))]) ∧
      o.run = h.submissions t ∧ ∃ j, (j, .ended t o) ∈ h

theorem Run.strands_nothing (run : Run callers h s) (hc : s.isClosed p) :
    StrandsNothing h s p := by
  obtain ⟨pool, hp, hclosed⟩ := (Option.any_eq_true _ _).mp hc
  obtain ⟨hempty, hrun⟩ := run.idle_closed hp hclosed
  exact {
    empty := ⟨pool, hp, hempty, hrun⟩
    free := run.books.free hp hrun
    lasts := fun {schedule h' s' old} hr hold => by
      obtain rfl : pool = old := Option.some.inj (hp.symm.trans hold)
      obtain ⟨pool', hp', hc', hlen, hsub⟩ := run.closed_replay hr hp hclosed
      obtain ⟨hempty', hrun'⟩ := (run.replay hr).idle_closed hp' hc'
      have hsize : s'.size p = s.size p := by simp [size, hp, hp', hlen]
      exact ⟨pool', hp', hc', hempty', hrun', hsub, hlen, run.spawns_eq_nil hr hsize⟩
    refuses := fun hth hu use share => submit_closed hth hu use share hc
    resumes := fun hi => run.resumeSubmit_closed hi hc
    wakes := run.woken_by
    executed := fun t => (run.exactly_once t).once p pool hp hempty hrun
    ended := run.ended_closed hc
    join := run.join_closed hc }

/-- A submission waits for the first worker of the pool, and another caller shuts the pool down
meanwhile. -/
theorem strands_nothing_unregistered : ∃ h s, Run 2 h s ∧ s.isClosed 0 ∧
    s.Inside 0 [.awaitingWorker 0 0 false] ∧ StrandsNothing h s 0 := by
  have run : Run 2 _ _ := run_of_replay [(0, .call (.createPool (.new 1)) 0),
    (0, .call (.createTask none) 0), (0, .call (.submit 0 0) 0), (1, .call (.shutdown 0) 0)] rfl
  exact ⟨_, _, run, rfl, ⟨_, rfl, rfl⟩, run.strands_nothing rfl⟩

end System

end WorkerPool
