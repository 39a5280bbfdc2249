import WorkerPool.Proofs.ExitOrders
import WorkerPool.Proofs.Passages

/-!
Workers from their registration to their exit.

A submission returns without an error only once every worker of the pool has registered, no matter
which submission has started it. Whoever has registered stays until the pool is closed and the
worker is told to exit.
-/
namespace WorkerPool

namespace System

variable {s s' : System} {i j : ThreadId} {p : PoolId} {pool pool' : Pool} {rest : List Frame}
  {own : List Passage} {last : Passage} {g h h' : Trace} {es : List Event} {e : Effect}
  {callers k l : Nat} {t : TaskId} {task : Task} {th : Thread} {phase : Phase}
  {a : Action} {schedule : List (ThreadId × Action)}

/-! ### Registration -/

/-- A submission that goes on to wait leaves the pool with a worker. -/
theorem staffed_of_begins {x : Passage} (begins : x.Begins p t pool task) :
    ∃ pool', x.after.pools[p]? = some pool' ∧ 0 < pool'.crew.length := by
  obtain ⟨hp, -, -, -, -, ⟨-, ⟨j, hpools⟩, -⟩ | ⟨-, hu, hpools, -⟩⟩ := begins
  · have hlt := (List.getElem?_eq_some_iff.mp hp).1
    exact ⟨pool.hire j, by simp [hpools, hlt], by simp [Pool.hire]⟩
  · refine ⟨pool, by rw [hpools, hp], ?_⟩
    unfold Pool.unregistered Pool.rosterSize at hu
    split at hu <;> omega

/-- While a submission is underway, the pool has a worker. -/
theorem Underway.staffed (under : Underway s i (.submit p t) own h s') (run : Run callers g s) :
    ∃ pool, s'.pools[p]? = some pool ∧ 0 < pool.crew.length := by
  have keep {h : Trace} {s s' : System} {j : ThreadId} {a : Action} {es : List Event}
      (run : Run callers h s) (hs : s.step j a = some (s', es))
      (staffed : ∃ pool, s.pools[p]? = some pool ∧ 0 < pool.crew.length) :
      ∃ pool, s'.pools[p]? = some pool ∧ 0 < pool.crew.length := by
    obtain ⟨pool, hp, hpos⟩ := staffed
    obtain ⟨pool', hp', -, hle⟩ := (moves_of_step run.calls hs).workload run.books hp
    exact ⟨pool', hp', hpos.trans_le hle⟩
  induction under with
  | call hs silent =>
    obtain ⟨⟨pool, task, begins⟩, -⟩ := begins_of_step run.calls hs silent
    exact staffed_of_begins begins
  | own under hs _ ih => exact keep (under.run run) hs ih
  | other under _ hs ih => exact keep (under.run run) hs ih

/-- A pool that takes a task has a worker. -/
theorem Returns.staffed (returns : Returns s i (.submit p t) own h last .done)
    (run : Run callers g s) (hp : last.before.pools[p]? = some pool) (ho : pool.closed = false) :
    0 < pool.crew.length := by
  cases returns with
  | atOnce hs hr =>
    obtain ⟨pool', hp', step⟩ := submitStep_of_step hs
    obtain rfl : pool = pool' := Option.some.inj (hp.symm.trans hp')
    cases step with
    | fails _ => simp at hr
    | hires _ _ _ _ => simp at hr
    | waits _ _ _ _ _ => cases hr
    | accepts hn _ _ =>
      have : pool.rosterSize ≠ 0 := fun hsize => by simp [Pool.needsWorker, hsize] at hn
      simp only [Pool.rosterSize, ho] at this
      exact Nat.pos_of_ne_zero this
  | later under _ _ =>
    obtain ⟨pool', hp', hpos⟩ := under.staffed run
    obtain rfl : pool = pool' := Option.some.inj (hp.symm.trans hp')
    exact hpos

/-- Every worker that the pool has ever got has registered, and it has got one. -/
structure Enlisted (h : Trace) (s : System) (p : PoolId) : Prop where
  pool : ∃ pool, s.pools[p]? = some pool ∧ pool.closed = false ∧
    pool.threadCount = pool.crew.length ∧ pool.threadCount = (h.spawns p).length ∧
    0 < pool.threadCount
  started : ∀ {j}, ¬ s.Has j p .starting

theorem Returns.enlisted (returns : Returns s i (.submit p t) own h last .done)
    (run : Run callers g s) :
    Enlisted (g ++ h ++ last.told.map (i, ·)) last.after p := by
  obtain ⟨pool, task, hp, ht, -, decides⟩ := returns.decides run
  have run' := returns.after run
  cases decides with
  | accepted hopen hu _ _ hpools _ =>
    have hlt := (List.getElem?_eq_some_iff.mp hp).1
    have hp' : last.after.pools[p]? = some (pool.accept t) := by simp [hpools, hlt]
    have ho : pool.closed = false := (Pool.Balanced.isOpen hopen).1
    have hpos := returns.staffed run hp ho
    have balanced := run'.books.pools p _ hp'
    have enlisted : pool.crew.length = pool.threadCount + staff last.after.posts p .starting :=
      balanced.enlisted ho
    have none_left : pool.crew.length - pool.threadCount = 0 := by
      simpa [Pool.unregistered, Pool.rosterSize, ho] using hu
    have spawned : (Trace.spawns (g ++ h ++ last.told.map (i, ·)) p).length = pool.crew.length := by
      rw [run'.logged.spawns p, List.length_range]
      simp [size, hp', Pool.accept]
    refine ⟨⟨_, hp', ho, ?_, ?_, ?_⟩, fun {j} has => ?_⟩
    · change pool.threadCount = pool.crew.length
      omega
    · change pool.threadCount = _
      omega
    · change 0 < pool.threadCount
      omega
    · obtain ⟨th, k, hth, hr⟩ := has
      have hpost : last.after.posts[j]? = some (some ⟨p, k, .starting⟩) := by
        simp [posts, hth, Thread.post, hr, Phase.station]
      have := staff_pos hpost
      omega

/-! ### Stay -/

theorem Run.threadCount_le (run : Run callers h s) (hr : s.replay schedule = some (h', s'))
    (hp : s.pools[p]? = some pool) (hp' : s'.pools[p]? = some pool') (ho : pool'.closed = false) :
    pool.threadCount ≤ pool'.threadCount := by
  obtain ⟨new, hnew, keep⟩ : ∃ new, s'.pools[p]? = some new ∧
      (new.closed = false → pool.threadCount ≤ new.threadCount) := by
    refine run.along (P := fun _ s' => ∃ new, s'.pools[p]? = some new ∧
      (new.closed = false → pool.threadCount ≤ new.threadCount)) hr ⟨pool, hp, fun _ => le_rfl⟩ ?_
    rintro h s i a es s' run ⟨old, hold, hle⟩ hs
    obtain ⟨new, hnew, -, keep⟩ := (moves_of_step run.calls hs).opened hold
    exact ⟨new, hnew, fun ho => (hle (keep ho).1).trans (keep ho).2⟩
  obtain rfl : new = pool' := Option.some.inj (hnew.symm.trans hp')
  exact keep ho

/-! ### Exit -/

theorem Departed.hasExited (departed : s.Departed i p k) (books : s.Books)
    (hth : s.threads[j]? = some th) (hr : th.role = .worker p k phase) : th.hasExited ∨ j = i := by
  obtain ⟨j', st, hpost', how⟩ := departed
  have hpost : s.posts[j]? = some (some ⟨p, k, phase.station⟩) := by
    simp [posts, hth, Thread.post, hr]
  obtain ⟨pool, hp⟩ : ∃ pool, s.pools[p]? = some pool := by
    have hlt := books.known _ (List.mem_of_getElem? hpost)
    exact ⟨_, List.getElem?_eq_getElem hlt⟩
  have crew := (books.pools p pool hp).crew k
  obtain rfl : j = j' :=
    Option.some.inj (((crew j).mpr ⟨_, hpost⟩).symm.trans ((crew j').mpr ⟨_, hpost'⟩))
  refine how.imp_left ?_
  rintro rfl
  exact Thread.hasExited_iff.mpr ⟨p, k, by simpa [posts, hth] using hpost'⟩

/-- A shutdown on the thread tells the worker `k` to exit, after the first ones. These have
terminated, but for one that the shutdown runs on. -/
structure GivesNotice (s : System) (i : ThreadId) (p : PoolId) (k : Nat) (s' : System) : Prop where
  joins : ∃ total dropping rest, s'.Inside i (.joiningCrew p k total dropping :: rest)
  before : ∀ l, s.orders p l ↔ l < k
  after : ∀ l, s'.orders p l ↔ l ≤ k
  departed : ∀ {l j th phase}, l < k → s.threads[j]? = some th → th.role = .worker p l phase →
    th.hasExited ∨ j = i

/-- How the workers of a pool come and go. -/
structure Tenure (h : Trace) (s : System) (p : PoolId) : Prop where
  /-- As long as the pool is open, its workers do not get fewer. -/
  stays : ∀ {schedule h' s' pool pool'}, s.pools[p]? = some pool →
    s.replay schedule = some (h', s') → s'.pools[p]? = some pool' → pool'.closed = false →
    pool.threadCount ≤ pool'.threadCount
  registers : ∀ {i t own g last}, Returns s i (.submit p t) own g last .done →
    Enlisted (h ++ g ++ last.told.map (i, ·)) last.after p
  /-- A worker exits in a step of its own, and has been told to before. -/
  exits : ∀ {i j a e th k}, s.step i a = some e → e.1.threads[j]? = some th →
    th.role = .worker p k .exited →
    s.threads[j]?.any Thread.hasExited ∨ j = i ∧ s.orders p k
  /-- No order to exit is taken back, and they are given one by one, in the order of the workers. -/
  orders : ∀ {i a e}, s.step i a = some e →
    (∀ k, e.1.orders p k = s.orders p k) ∨ ∃ k, GivesNotice s i p k e.1

theorem Run.tenure (run : Run callers h s) (p : PoolId) : Tenure h s p where
  stays hp hr hp' ho := run.threadCount_le hr hp hp' ho
  registers returns := returns.enlisted run
  exits {i j a e th k} hs hth hr := by
    have hpost : e.1.posts[j]? = some (some ⟨p, k, .exited⟩) := by
      simpa [posts, hth] using Thread.post_exited.mpr hr
    exact (run.exits hs hpost).imp_left hasExited_of_post
  orders {i a e} hs := by
    refine (run.ordered_step hs run.ordered).imp And.left ?_
    rintro ⟨k, total, dropping, rest, hi, before, after, departed⟩
    exact ⟨k, ⟨total, dropping, rest, hi⟩, before, after, fun hl hth hr =>
      (departed _ hl).hasExited run.books hth hr⟩

/-- Two workers have each run a task, and a shutdown has seen the first one terminate. -/
def firstJoined : List (ThreadId × Action) :=
  let call (op : Operation) : ThreadId × Action := (0, .call op 0)
  let go (i : ThreadId) (n : Nat) := List.replicate n (i, Action.advance 0)
  [call (.createPool (.new 2)), call (.createTask none), call (.createTask none),
    call (.submit 0 0)] ++ go 1 1 ++ go 0 1 ++ go 1 2 ++
  [call (.submit 0 1)] ++ go 2 1 ++ go 0 1 ++ go 2 2 ++
  [(1, .finish (.ok .null)), (2, .finish (.ok .null))] ++ go 1 6 ++ go 2 6 ++
  [call (.shutdown 0)] ++ go 1 1

/-- A submission waits for the worker of another one and succeeds; a shutdown tells the second
worker to exit. -/
theorem tenure_shared_firstJoined :
    (∃ g s, Run 2 g s ∧
      (∃ own h last, own ≠ [] ∧ Returns s 1 (.submit 0 1) own h last .done) ∧ Tenure g s 0) ∧
    ∃ g s e, Run 1 g s ∧ s.step 0 (.advance 0) = some e ∧ s.orders 0 1 = false ∧ e.1.orders 0 1 ∧
      Tenure g s 0 := by
  have shared : Run 2 _ _ := run_of_replay [(0, .call (.createPool (.new 1)) 0),
    (0, .call (.createTask none) 0), (0, .call (.createTask none) 0),
    (0, .call (.submit 0 0) 0)] rfl
  have joined : Run 1 _ _ := run_of_replay firstJoined rfl
  exact ⟨⟨_, _, shared,
      returns_of_replay 0 [(2, .advance 0)] (.advance 0)
        [.log (.submitted 0 1 1), .metric 0 (.submission 1), .replied .done] rfl rfl rfl rfl
        (by simp),
      shared.tenure 0⟩,
    _, _, _, joined, rfl, rfl, rfl, joined.tenure 0⟩

end System

end WorkerPool
