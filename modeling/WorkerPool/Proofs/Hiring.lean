import WorkerPool.Proofs.Rejections

/-!
When a pool grows.

A submission decides about a new worker when it is called for: the pool gets one if it has none, or
if no worker counts as being without a task and the ceiling allows another. Whether a task in the
queue waits for such a worker already makes no difference, so in a burst of submissions the queue
may outgrow the workers that wait for work. It does not as long as the pool has no more tasks on its
hands than workers.
-/
namespace WorkerPool.System

variable {s s' : System} {i : ThreadId} {p : PoolId} {pool : Pool} {t : TaskId}
  {own : List Passage} {last : Passage} {g h : Trace} {callers : Nat} {e : Effect}

/-- If more workers wait or are about to register than tasks will be queued, or if nothing is queued
or being let go of, the pool has a worker for one task more, counting the one that it gets. -/
theorem Books.room (books : s.Books) (hp : s.pools[p]? = some pool) (ho : pool.closed = false)
    {n : Nat} (enough : pool.queue.length + n < s.waiting p + pool.unregistered ∨
      pool.queue.length + n = 0 ∧ pool.releasing = [])
    (hmax : pool.needsWorker = false →
      0 < pool.unregistered ∨ pool.crew.length < pool.config.maxThreads) :
    pool.workload + n < pool.crew.length + pool.needsWorker.toNat := by
  have hcrew := books.crew_eq hp ho
  simp only [Pool.workload]
  rcases enough with hlt | ⟨hzero, hrel⟩
  · omega
  · simp only [hrel, List.length_nil, Nat.add_zero] at hcrew ⊢
    cases hn : pool.needsWorker with
    | true =>
      simp only [Bool.toNat_true]
      omega
    | false =>
      -- Otherwise all of its workers are busy, and the ceiling allows another.
      have spare : s.waiting p ≠ 0 ∨ pool.unregistered ≠ 0 := by
        by_contra none
        obtain ⟨hw, hu⟩ : s.waiting p = 0 ∧ pool.unregistered = 0 := by simpa using none
        have hbelow := (hmax hn).resolve_left (by omega)
        simp [(books.needsWorker_iff hp ho).mpr (.inr ⟨hw, hrel, hu, hbelow⟩)] at hn
      omega

/-- What a submission that succeeds leaves behind. -/
theorem Accepts.pool_eq (acc : s.Accepts p pool e) (books : s.Books)
    (hp : s.pools[p]? = some pool) : ∃ pool', e.1.pools[p]? = some pool' ∧
      pool'.unregistered = 0 ∧ pool'.workload = pool.workload + 1 ∧
      pool'.crew = pool.crew ∧ pool'.config = pool.config ∧
      (pool'.queue.length ≤ e.1.waiting p ↔ pool'.workload ≤ pool'.crew.length) := by
  obtain ⟨hr, hu, ⟨t, hpools⟩, hposts, -⟩ := acc
  have hlt := (List.getElem?_eq_some_iff.mp hp).1
  refine ⟨pool.accept t, by simp [hpools, hlt], hu, Pool.workload_accept, rfl, rfl, ?_⟩
  have hcrew := books.crew_eq hp (Pool.Balanced.isOpen hr).1
  have hwaiting : e.1.waiting p = s.waiting p := by rw [waiting_eq, waiting_eq, hposts]
  have hsame : (pool.accept t).crew.length = pool.crew.length := rfl
  rw [hwaiting, Pool.workload_accept, hsame, Pool.length_accept]
  simp only [Pool.workload]
  omega

/-- A submission that waits has got its pool the worker that it needed. In the meantime no worker is
lost, and only submissions add to what the pool has on its hands. -/
theorem Underway.workload (under : Underway s i (.submit p t) own h s') (run : Run callers g s)
    (hp : s.pools[p]? = some pool) : ∃ pool', s'.pools[p]? = some pool' ∧
      pool'.workload ≤ pool.workload + (h.pushes p).length ∧
      pool.crew.length + pool.needsWorker.toNat ≤ pool'.crew.length := by
  induction under with
  | call hs silent =>
    obtain ⟨⟨pool₀, task, begins⟩, -⟩ := begins_of_step run.calls hs silent
    obtain rfl : pool = pool₀ := Option.some.inj (hp.symm.trans begins.at_pool)
    have hlt := (List.getElem?_eq_some_iff.mp hp).1
    rcases begins.workers with ⟨hn, ⟨j, hpools⟩, -⟩ | ⟨hn, -, hpools, -⟩
    · have hp' := congrArg (·[p]?) hpools
      refine ⟨pool.hire j, hp'.trans (List.getElem?_set_self hlt), Nat.le_add_right _ _, ?_⟩
      simp [hn, Pool.hire]
    · refine ⟨pool, (congrArg (·[p]?) hpools).trans hp, Nat.le_add_right _ _, ?_⟩
      simp [hn]
  | own under hs silent ih =>
    obtain ⟨pool', hp', hload, hcrew⟩ := ih
    obtain ⟨-, woken, rest, hi⟩ := under.submission run
    obtain ⟨⟨idles, rfl⟩, -⟩ := idles_of_step hi hs silent
    exact ⟨pool', (congrArg (·[p]?) idles.pools).trans hp', by simpa using hload, hcrew⟩
  | @other own h s₁ s' j a es under _ hs ih =>
    obtain ⟨pool₁, hp₁, hload₁, hcrew₁⟩ := ih
    have run₁ := under.run run
    obtain ⟨pool', hp', hload, hcrew⟩ := (moves_of_step run₁.calls hs).workload run₁.books hp₁
    refine ⟨pool', hp', ?_, hcrew₁.trans hcrew⟩
    have hpushes : Trace.pushes (h ++ es.map (j, ·)) p =
        h.pushes p ++ es.filterMap (·.push? p) := by
      simp [Trace.pushes, List.filterMap_map]
    rw [hpushes, List.length_append]
    omega

/-- The last section of a submission that succeeds. -/
theorem Returns.accepts (returns : Returns s i (.submit p t) own h last .done)
    (run : Run callers g s) : ∃ pool, last.before.pools[p]? = some pool ∧
      last.before.Accepts p pool (last.after, last.told) := by
  cases returns with
  | atOnce hs done =>
    obtain ⟨pool, hp, step⟩ := submitStep_of_step hs
    cases step with
    | fails _ | hires _ _ _ _ | waits _ _ _ _ _ => simp at done
    | accepts _ acc _ => exact ⟨pool, hp, acc⟩
  | later under hs done =>
    obtain ⟨-, woken, rest, hi⟩ := under.submission run
    obtain ⟨pool, hp, -, accepts⟩ := resumeStep_of_step hi hs
    exact ⟨pool, hp, accepts done⟩

/-- A submission that succeeds has found a pool that takes submissions, and begins to wait only for
workers. -/
theorem Returns.called (returns : Returns s i (.submit p t) own h last .done)
    (run : Run callers g s) : ∃ pool, s.pools[p]? = some pool ∧ pool.refusal = none ∧
      (s.Warrants p t ↔ pool.needsWorker) ∧ (own = [] → pool.needsWorker = false) ∧
      (own ≠ [] → pool.needsWorker = false → 0 < pool.unregistered) := by
  have warrants {pool : Pool} {task : Task} (hp : s.pools[p]? = some pool)
      (ht : s.tasks[t]? = some task) (hr : pool.refusal = none)
      (ho : task.slot.ownership = .caller) : s.Warrants p t ↔ pool.needsWorker := by
    refine ⟨?_, fun hn => ⟨pool, task, hp, ht, hr, ho, hn⟩⟩
    rintro ⟨pool', -, hp', -, -, -, hn⟩
    rwa [Option.some.inj (hp.symm.trans hp')]
  obtain ⟨pool, task, hp, ht, -, decides⟩ := returns.decides run
  cases returns with
  | atOnce hs done =>
    obtain ⟨pool', hp', step⟩ := submitStep_of_step hs
    obtain rfl : pool = pool' := Option.some.inj (hp.symm.trans hp')
    cases step with
    | fails _ | hires _ _ _ _ | waits _ _ _ _ _ => simp at done
    | accepts hn acc _ =>
      cases decides with
      | accepted hr _ ho _ _ _ =>
        exact ⟨pool, hp, hr, warrants hp ht hr ho, fun _ => hn, fun h => absurd rfl h⟩
  | later under _ _ =>
    obtain ⟨⟨first, waits, hown, rfl, ⟨pool₀, task₀, begins⟩, -⟩, -⟩ := under.submission run
    refine ⟨pool₀, begins.at_pool, begins.accepts,
      warrants begins.at_pool begins.at_task begins.accepts begins.owned,
      fun hnil => ?_, fun _ hn => ?_⟩
    · cases hnil.symm.trans hown
    · rcases begins.workers with ⟨hn', -⟩ | ⟨-, hu, -⟩
      · simp [hn] at hn'
      · exact hu

/-- When a pool grows, and whom the tasks in its queue can count on: a submission that is called for
in the state `s` succeeds with its section `last`, and `h` tells what has happened before. -/
structure Growth (s : System) (p : PoolId) (pool : Pool) (own : List Passage) (h : Trace)
    (last : Passage) (pool' : Pool) : Prop where
  /-- The pool gets one worker at most, in the section that begins with the call, and no pool gets
  any in a later one. -/
  once : ∃ ks, ks.length ≤ 1 ∧ Passage.SpawnsFirst s p ks (own ++ [last])
  /-- It gets one if it has none, or if none waits for work, lets go of its last task or has yet to
  register, and the ceiling allows another; -/
  grows : pool.crew = [] ∨ s.waiting p = 0 ∧ pool.releasing = [] ∧ pool.unregistered = 0 ∧
    pool.crew.length < pool.config.maxThreads → ∃ x ∈ own ++ [last], ∃ q, x.spawns q ≠ []
  /-- and it gets none if a worker waits for work or has yet to register, be it for a task that is
  queued already. -/
  spares : (∃ x ∈ own ++ [last], ∃ q, x.spawns q ≠ []) → pool.crew = [] ∨ s.waiting p = 0 ∧
    pool.unregistered = 0 ∧ pool.crew.length < pool.config.maxThreads
  registered : pool'.unregistered = 0
  /-- If nothing is being let go of, each task in the queue finds a worker that waits exactly if the
  queued and the running tasks are no more than the workers. -/
  covered : pool'.releasing = [] → (pool'.queue.length ≤ last.after.waiting p ↔
    pool'.queue.length + pool'.runningCount ≤ pool'.crew.length)
  /-- So it is below the ceiling if there were more workers to come than tasks for them when the
  submission was called for, or nothing but tasks that run. -/
  enough : pool'.crew.length < pool'.config.maxThreads →
    (pool.queue.length + (h.pushes p).length < s.waiting p + pool.unregistered ∨
      pool.queue.length + (h.pushes p).length = 0 ∧ pool.releasing = []) →
    pool'.queue.length ≤ last.after.waiting p

theorem Run.grows (run : Run callers g s) (returns : Returns s i (.submit p t) own h last .done) :
    ∃ pool pool', s.pools[p]? = some pool ∧ last.after.pools[p]? = some pool' ∧
      Growth s p pool own h last pool' := by
  obtain ⟨pool, hp, hr, warrants, atOnce, waits⟩ := returns.called run
  obtain ⟨pool₁, hp₁, acc⟩ := returns.accepts run
  obtain ⟨pool', hp', hu, hload', hcrew', hconfig', hiff⟩ :=
    acc.pool_eq (returns.before run).books hp₁
  have ho := (Pool.Balanced.isOpen hr).1
  have needs := run.books.needsWorker_iff hp ho
  obtain ⟨ks, first, hks⟩ := returns.spawns run fun hown => by simp [warrants, atOnce hown]
  have spawned : (∃ x ∈ own ++ [last], ∃ q, x.spawns q ≠ []) ↔ pool.needsWorker := by
    rw [first.exists_iff, ← warrants]
    rcases hks with ⟨w, k, rfl⟩ | ⟨no, rfl⟩
    · simp [w]
    · simp [no]
  refine ⟨pool, pool', hp, hp', ?once, ?grows, ?spares, hu, fun hrel => ?covered,
    fun hmax enough => ?enough⟩
  case once => rcases hks with ⟨-, k, rfl⟩ | ⟨-, rfl⟩ <;> exact ⟨_, by simp, first⟩
  case grows => rw [spawned, needs]; exact id
  case spares =>
    rw [spawned, needs]
    rintro (hnone | ⟨hw, -, hreg, hbelow⟩)
    · exact .inl hnone
    · exact .inr ⟨hw, hreg, hbelow⟩
  case covered => simpa [Pool.workload, hrel] using hiff
  case enough =>
    rw [hiff, hload', hcrew']
    rw [hcrew', hconfig'] at hmax
    cases returns with
    | atOnce _ _ =>
      obtain rfl : pool = pool₁ := Option.some.inj (hp.symm.trans hp₁)
      have := run.books.room hp ho enough fun _ => .inr hmax
      rw [atOnce rfl, Bool.toNat_false] at this
      omega
    | later under _ _ =>
      obtain ⟨pool₂, hp₂, hload, hcrew⟩ := under.workload run hp
      obtain rfl : pool₂ = pool₁ := Option.some.inj (hp₂.symm.trans hp₁)
      have waited : own ≠ [] := by
        obtain ⟨⟨first, rest, hown, -⟩, -⟩ := under.submission run
        simp [hown]
      have := run.books.room hp ho enough fun hn => .inl (waits waited hn)
      omega

/-- The only worker of a pool that may have two has been woken for a task that is queued. -/
def owedWorker : List (ThreadId × Action) :=
  [(0, .call (.createPool (.new 2)) 0), (0, .call (.createTask none) 0),
    (0, .call (.createTask none) 0), (0, .call (.submit 0 0) 0), (1, .advance 0), (0, .advance 0)]

/-- A second task is submitted before the worker has claimed the first one. It gets no worker of its
own, so there are two tasks for one worker. -/
theorem uncovered_burst : ∃ h s s' es pool, Run 1 h s ∧
    s.step 0 (.call (.submit 0 1) 0) = some (s', es) ∧ .replied .done ∈ es ∧
    s'.pools[0]? = some pool ∧ pool.crew.length < pool.config.maxThreads ∧ pool.releasing = [] ∧
    s'.waiting 0 < pool.queue.length := by
  have run : Run 1 _ _ := run_of_replay owedWorker rfl
  let told : List Event :=
    [.log (.submitted 0 1 2), .metric 0 (.submission 2), .replied .done]
  exact ⟨_, _, _, told, _, run, rfl, by simp [told], rfl, by decide, rfl, by decide⟩

/-- The first submission to a pool spawns a worker and waits for it. So does a second one while that
worker is busy and the ceiling allows another. -/
theorem grows_twice :
    (∃ g s pool, Run 1 g s ∧ s.pools[0]? = some pool ∧ pool.crew = [] ∧
      ∃ own h last pool', own ≠ [] ∧ Returns s 0 (.submit 0 0) own h last .done ∧
        Growth s 0 pool own h last pool') ∧
    ∃ g s pool, Run 2 g s ∧ s.pools[0]? = some pool ∧ pool.crew.length = 1 ∧
      pool.crew.length + 1 < pool.config.maxThreads ∧
      ∃ own h last pool', own ≠ [] ∧ Returns s 1 (.submit 0 1) own h last .done ∧
        Growth s 0 pool own h last pool' := by
  have grown {callers : Nat} {i : ThreadId} {t : TaskId} {g : Trace} {s : System} {pool : Pool}
      (run : Run callers g s) (hp : s.pools[0]? = some pool)
      (ended : ∃ own h last, own ≠ [] ∧ Returns s i (.submit 0 t) own h last .done) :
      ∃ own h last pool', own ≠ [] ∧ Returns s i (.submit 0 t) own h last .done ∧
        Growth s 0 pool own h last pool' := by
    obtain ⟨own, h, last, waited, returns⟩ := ended
    obtain ⟨pool₀, pool', hp₀, -, growth⟩ := run.grows returns
    obtain rfl : pool = pool₀ := Option.some.inj (hp.symm.trans hp₀)
    exact ⟨own, h, last, pool', waited, returns, growth⟩
  refine ⟨?first, ?second⟩
  case first =>
    have run : Run 1 _ _ := run_of_replay [(0, .call (.createPool (.new 2)) 0),
      (0, .call (.createTask none) 0)] rfl
    exact ⟨_, _, _, run, rfl, rfl, grown run rfl (returns_of_replay 0 [(1, .advance 0)]
      (.advance 0) [.log (.submitted 0 0 1), .metric 0 (.submission 1), .replied .done]
      rfl rfl rfl rfl (by simp))⟩
  case second =>
    have run : Run 2 _ _ := run_of_replay (busyPool 3) rfl
    exact ⟨_, _, _, run, rfl, rfl, by decide, grown run rfl (returns_of_replay 0 [(3, .advance 0)]
      (.advance 0) [.log (.submitted 0 1 1), .metric 0 (.submission 1), .replied .done]
      rfl rfl rfl rfl (by simp))⟩

end WorkerPool.System
