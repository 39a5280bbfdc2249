import WorkerPool.Proofs.Books

/-!
Bookkeeping as callers may rely on it.

Whenever the lock of a pool is free, the counters of the pool agree with what its worker threads do,
and so does every snapshot of them. No counter is ever counted down from zero, and no task is pushed
on a full queue.
-/
namespace WorkerPool

/-! ### What the log says about a pool -/

/-- The number of the worker that the event says the pool has spawned. -/
def Event.spawn? (p : PoolId) : Event → Option Nat
  | .log (.spawned q k _) => if q = p then some k else none
  | _ => none

/-- The length of the queue of the pool after the event has pushed a task. -/
def Event.push? (p : PoolId) : Event → Option Nat
  | .log (.submitted q _ n) => if q = p then some n else none
  | _ => none

namespace Trace

def spawns (h : Trace) (p : PoolId) : List Nat := h.filterMap fun e => e.2.spawn? p

def pushes (h : Trace) (p : PoolId) : List Nat := h.filterMap fun e => e.2.push? p

end Trace

namespace System

variable {s s' : System} {i : ThreadId} {p q : PoolId} {k : Nat} {t : TaskId} {pool new : Pool}
  {es : List Event} {h : Trace}

/-! ### What a pool shows -/

section view

variable {α : Type} {f : Pool → α} (d : α)

theorem getD_pools_set (hq : s.pools[q]? = some pool) (hpools : s'.pools = s.pools.set q new) :
    (s'.pools[p]?.map f).getD d = if p = q then f new else (s.pools[p]?.map f).getD d := by
  have hlt := (List.getElem?_eq_some_iff.mp hq).1
  by_cases hp : q = p
  · subst hp
    simp [hpools, hlt]
  · simp [hpools, hp, Ne.symm hp]

theorem getD_pools_same (hq : s.pools[q]? = some pool) (hpools : s'.pools = s.pools.set q new)
    (hn : f new = f pool) : (s'.pools[p]?.map f).getD d = (s.pools[p]?.map f).getD d := by
  rw [getD_pools_set d hq hpools]
  split
  · next hp => simp [hp, hq, hn]
  · rfl

theorem getD_addPool (hn : f new = d) :
    ((s.addPool new).pools[p]?.map f).getD d = (s.pools[p]?.map f).getD d := by
  unfold System.addPool
  rw [getElem?_snoc]
  split
  · next hp => simp [hp, hn]
  · rfl

end view

/-- The number of workers that the pool has spawned. -/
def size (s : System) (p : PoolId) : Nat := (s.pools[p]?.map (·.crew.length)).getD 0

/-- The capacity of the queue of the pool. -/
def limit (s : System) (p : PoolId) : Nat := (s.pools[p]?.map (·.config.maxPending)).getD 0

/-- The log tells of every worker and of no push on a full queue. -/
structure Logged (h : Trace) (s : System) : Prop where
  spawns : ∀ p, h.spawns p = List.range (s.size p)
  pushes : ∀ p, ∀ n ∈ h.pushes p, 1 ≤ n ∧ n ≤ s.limit p

namespace Logged

theorem append (logged : Logged h s)
    (hs : ∀ p, List.range (s.size p) ++ es.filterMap (·.spawn? p) = List.range (s'.size p))
    (hl : ∀ p, 0 < s.limit p → s'.limit p = s.limit p)
    (hp : ∀ p, ∀ n ∈ es.filterMap (·.push? p), 1 ≤ n ∧ n ≤ s'.limit p) :
    Logged (h ++ es.map (i, ·)) s' := by
  refine ⟨fun p => ?_, fun p n hn => ?_⟩
  · have := logged.spawns p
    simp only [Trace.spawns] at this
    simp only [Trace.spawns, List.filterMap_append, List.filterMap_map, this]
    exact hs p
  · simp only [Trace.pushes, List.filterMap_append, List.filterMap_map, List.mem_append] at hn
    rcases hn with hn | hn
    · have := logged.pushes p n hn
      have := hl p (by omega)
      omega
    · exact hp p n hn

theorem quiet (logged : Logged h s) (hs : ∀ p, s'.size p = s.size p)
    (hl : ∀ p, s'.limit p = s.limit p)
    (he : ∀ e ∈ es, ∀ p, e.spawn? p = none ∧ e.push? p = none) :
    Logged (h ++ es.map (i, ·)) s' := by
  refine logged.append (fun p => ?_) (fun p _ => hl p) fun p n hn => ?_
  · have : es.filterMap (·.spawn? p) = [] := List.filterMap_eq_nil_iff.mpr fun e h => (he e h p).1
    rw [this, hs, List.append_nil]
  · obtain ⟨e, hmem, hpush⟩ := List.mem_filterMap.mp hn
    simp [(he e hmem p).2] at hpush

theorem same (logged : Logged h s) (hp : s'.pools = s.pools)
    (he : ∀ e ∈ es, ∀ p, e.spawn? p = none ∧ e.push? p = none) :
    Logged (h ++ es.map (i, ·)) s' :=
  logged.quiet (fun p => by simp [size, hp]) (fun p => by simp [limit, hp]) he

theorem size_set (hpools : s'.pools = s.pools.set p new) (hp : s.pools[p]? = some pool)
    (q : PoolId) : s'.size q = if q = p then new.crew.length else s.size q :=
  getD_pools_set 0 hp hpools

theorem limit_set (hpools : s'.pools = s.pools.set p new) (hp : s.pools[p]? = some pool)
    (hc : new.config = pool.config) (q : PoolId) : s'.limit q = s.limit q :=
  getD_pools_same 0 hp hpools (congrArg Config.maxPending hc)

theorem setPool (logged : Logged h s) (hpools : s'.pools = s.pools.set p new)
    (hp : s.pools[p]? = some pool) (hc : new.config = pool.config)
    (hs : new.crew.length = pool.crew.length)
    (he : ∀ e ∈ es, ∀ p, e.spawn? p = none ∧ e.push? p = none) :
    Logged (h ++ es.map (i, ·)) s' := by
  refine logged.quiet (fun q => ?_) (limit_set hpools hp hc) he
  rw [size_set hpools hp]
  split
  · next hq => simp [hq, size, hp, hs]
  · rfl

theorem hire (logged : Logged h s) (hp : s.pools[p]? = some pool) (hr : pool.refusal = none) :
    Logged (h ++ [Event.log (.spawned p pool.rosterSize pool.config.threadName)].map (i, ·))
      (s.hired p pool) := by
  have hsize : pool.rosterSize = pool.crew.length := by
    simp [Pool.rosterSize, (Pool.Balanced.isOpen hr).1]
  have hpools : (s.hired p pool).pools = s.pools.set p (pool.hire s.threads.length) := rfl
  refine logged.append (fun q => ?_) (fun q _ => limit_set hpools hp rfl q)
    fun q n hn => ?_
  · rw [size_set hpools hp q]
    by_cases hq : p = q
    · subst hq
      simp [Event.spawn?, size, hp, hsize, Pool.hire, List.range_succ]
    · simp [Event.spawn?, hq, Ne.symm hq]
  · simp [Event.push?] at hn

theorem accept {pick : Pick} {task : Task} (logged : Logged h s) (books : s.Books)
    (hp : s.pools[p]? = some pool) (hr : pool.refusal = none) :
    Logged (h ++ [Event.log (.submitted p t (pool.accept t).queue.length),
        .metric p (.submission (pool.accept t).queue.length)].map (i, ·))
      (((s.setSlot t task.slot.claim).setPool p (pool.accept t)).wakeOne p pick) := by
  have hpools : (((s.setSlot t task.slot.claim).setPool p (pool.accept t)).wakeOne p pick).pools =
      s.pools.set p (pool.accept t) := pools_wakeOne pick
  have hlimit := limit_set hpools hp rfl
  have balanced := (books.pools p pool hp).accept (t := t) hr
  refine logged.append (fun q => ?_) (fun q _ => hlimit q) fun q n hn => ?_
  · rw [size_set hpools hp]
    by_cases hq : q = p
    · simp [Event.spawn?, size, hq, hp, Pool.accept]
    · simp [Event.spawn?, hq]
  · by_cases hq : p = q
    · subst hq
      obtain rfl : n = (pool.accept t).queue.length := by simpa [Event.push?] using hn
      have hlen := Pool.length_accept pool t
      have hcap : (pool.accept t).queue.capacity = pool.config.maxPending :=
        (books.pools p pool hp).capacity
      have hroom := balanced.room
      rw [hlimit]
      simp only [limit, hp, Option.map_some, Option.getD_some]
      omega
    · simp [Event.push?, hq] at hn

theorem addPool {c : Config} (logged : Logged h s) (hc : Pool.create c = .ok pool) :
    Logged (h ++ [Event.log (.created c)].map (i, ·)) (s.addPool pool) := by
  have hcrew : pool.crew = [] := by
    unfold Pool.create at hc
    split at hc
    · cases hc
    · cases hc
      rfl
  have hpools : ∀ q, (s.addPool pool).pools[q]? =
      if q = s.pools.length then some pool else s.pools[q]? := getElem?_snoc s.pools pool
  refine logged.append (fun q => ?_) (fun q hq => ?_) fun q n hn => ?_
  · by_cases hq : q = s.pools.length
    · simp [Event.spawn?, size, hpools, hq, hcrew]
    · simp [Event.spawn?, size, hpools, hq]
  · by_cases hlen : q = s.pools.length
    · simp [limit, hlen] at hq
    · simp [limit, hpools, hlen]
  · simp [Event.push?] at hn

theorem move (logged : Logged h s) (books : s.Books) (m : Move i s es s') :
    Logged (h ++ es.map (i, ·)) s' := by
  cases m with
  | call _ _ => exact logged.same rfl (by simp)
  | leave _ _ he =>
    rcases he with rfl | ⟨r, rfl⟩ <;>
      exact logged.same rfl (by simp [Event.spawn?, Event.push?])
  | wait _ _ _ => exact logged.same rfl (by simp)
  | @note r hr =>
    refine logged.same rfl ?_
    cases r <;> simp_all [LogRecord.isNote, Event.spawn?, Event.push?]
  | addPool hc => exact logged.addPool hc
  | addTask captured => exact logged.same rfl (by simp)
  | hire hp hr _ => exact logged.hire hp hr
  | accept hp _ hr _ _ _ => exact logged.accept books hp hr
  | take _ _ _ _ _ _ => exact logged.same rfl (by simp [Event.spawn?, Event.push?])
  | letGo _ _ _ _ _ => exact logged.same rfl (by simp)
  | discard _ _ => exact logged.same rfl (by simp)
  | destroy _ _ => exact logged.same rfl (by simp [Event.spawn?, Event.push?])
  | release _ _ _ => exact logged.same rfl (by simp)
  | abandon _ _ _ _ => exact logged.same rfl (by simp [Event.spawn?, Event.push?])
  | unref _ _ => exact logged.same rfl (by simp)
  | clear _ _ _ => exact logged.same rfl (by simp)
  | resume _ => exact logged.same rfl (by simp)
  | close hp _ => exact logged.setPool rfl hp rfl rfl (by simp)
  | stop k hp _ => exact logged.setPool rfl hp rfl (by simp [Pool.requestExit]) (by simp)
  | dismiss total hp _ =>
    exact logged.setPool rfl hp rfl rfl (by simp [Event.spawn?, Event.push?])
  | dropPool hp _ => exact logged.setPool rfl hp rfl rfl (by simp)
  | register _ hp _ =>
    exact logged.setPool (pools_settled _) hp rfl rfl (by simp [Event.spawn?, Event.push?])
  | released _ hp => exact logged.setPool (pools_settled _) hp rfl rfl (by simp)
  | exit _ _ _ _ => exact logged.same rfl (by simp [Event.spawn?, Event.push?])
  | claim _ hp _ hc =>
    obtain ⟨queue, -, rfl⟩ := Pool.claim?_eq hc
    exact logged.setPool rfl hp rfl rfl (by simp [Event.spawn?, Event.push?])
  | park _ _ _ _ => exact logged.same rfl (by simp)
  | begin _ _ _ _ => exact logged.same rfl (by simp [Event.spawn?, Event.push?])
  | beginEmpty _ _ _ _ => exact logged.same rfl (by simp)
  | endWork _ _ _ _ => exact logged.same rfl (by simp [Event.spawn?, Event.push?])
  | stash _ _ => exact logged.same rfl (by simp)
  | @count _ _ _ _ returned _ _ hp _ =>
    refine logged.setPool rfl hp rfl (by simp [Pool.count]) ?_
    cases returned <;> simp [Event.spawn?, Event.push?]
  | retire _ hp _ =>
    refine logged.setPool (Books.pools_retired) hp rfl rfl ?_
    split <;> simp [Event.spawn?, Event.push?]

theorem start (callers : Nat) : Logged [] (System.start callers) :=
  ⟨fun p => by simp [Trace.spawns, size, System.start],
    fun p n hn => by simp [Trace.pushes] at hn⟩

end Logged

theorem Run.logged {callers : Nat} (run : Run callers h s) : Logged h s := by
  have := run.keeps (P := fun h s => s.Books ∧ Logged h s) ⟨.start callers, .start callers⟩
    fun _ kept m => ⟨kept.1.move m, kept.2.move kept.1 m⟩
  exact this.2

end System

/-! ### The books of a pool -/

namespace Pool

/-- The pool as a worker in the given phase finds it when it next looks for work. -/
def seenBy (pool : Pool) (i : ThreadId) : Phase → Pool
  | .starting => pool.register
  | .releasing => pool.released i
  | _ => pool

end Pool

/-- The next critical section of a worker in this phase ends with a look for work. -/
def Phase.seeksWork : Phase → Bool
  | .starting | .parked true | .releasing => true
  | _ => false

/-- Whether the thread is a worker of the pool that has claimed a task and not completed it. -/
def Thread.isBusyIn (p : PoolId) (th : Thread) : Bool :=
  match th.role with
  | .caller => false
  | .worker q _ phase => q == p && phase.task?.isSome

namespace System

variable {s : System} {i : ThreadId} {p : PoolId} {k : Nat} {pool : Pool} {phase : Phase}
  {h : Trace} {callers : Nat}

theorem work?_seeksWork (hp : s.pools[p]? = some pool) (hphase : phase.seeksWork) :
    ∃ (s₀ : System) (es : List Event), s.work? i p k phase =
      some (emit es (s₀.proceed i p (pool.seenBy i phase) k)) := by
  cases phase with
  | starting => exact ⟨_, _, by simp only [work?, hp]; rfl⟩
  | parked woken =>
    cases woken with
    | false => cases hphase
    | true => exact ⟨s, [], by simp only [work?, hp]; rfl⟩
  | releasing => exact ⟨_, [], by simp only [work?, hp]; rfl⟩
  | _ => cases hphase

/-- What the books of the pool tell while its lock is free. -/
structure Bookkept (h : Trace) (s : System) (p : PoolId) (pool : Pool) : Prop where
  total : pool.idleCount + pool.runningCount = pool.threadCount
  pending : pool.queue.length ≤ pool.config.maxPending
  ceiling : pool.closed = false →
    pool.threadCount ≤ pool.crew.length ∧ pool.crew.length ≤ pool.config.maxThreads
  /-- The list of workers has an entry for each worker spawned, in the order of spawning. -/
  spawned : h.spawns p = List.range pool.crew.length
  crew : ∀ (k : Nat) (j : ThreadId), pool.hands[k]? = some j ↔
    ∃ th phase, s.threads[j]? = some th ∧ th.role = .worker p k phase
  order : pool.hands.Pairwise (· < ·)
  running : pool.runningCount = s.threads.countP (Thread.isBusyIn p)
  /-- A claim counts the idle workers down. -/
  claims : ∀ (i : ThreadId) (k : Nat) (phase : Phase), s.Working i p k phase → phase.seeksWork →
    (pool.seenBy i phase).claim?.isSome → 0 < (pool.seenBy i phase).idleCount
  /-- A completion counts the running tasks down. -/
  completions : ∀ (i : ThreadId) (k : Nat) (t : TaskId), s.Working i p k (.counted t) →
    0 < pool.runningCount
  /-- The queue has room for what is pushed. -/
  pushes : ∀ n ∈ h.pushes p, 1 ≤ n ∧ n ≤ pool.config.maxPending
  snapshot_total : pool.stats.idleCount.toNat + pool.stats.runningCount.toNat =
    pool.stats.threadCount.toNat
  snapshot_pending : pool.stats.pendingCount.toNat ≤ pool.config.maxPending
  snapshot_ceiling : pool.closed = false → pool.stats.threadCount.toNat ≤ pool.crew.length ∧
    pool.stats.threadCount ≤ pool.stats.maxThreads
  snapshot_running : pool.stats.runningCount.toNat = s.threads.countP (Thread.isBusyIn p)

theorem staff_busy : staff s.posts p .busy = s.threads.countP (Thread.isBusyIn p) := by
  unfold staff posts
  rw [List.countP_map]
  apply List.countP_congr
  intro th _
  unfold Thread.isBusyIn
  cases hr : th.role with
  | caller => simp [Thread.post, hr]
  | worker q k phase => cases phase <;> simp [Thread.post, hr, Phase.station, Phase.task?]

theorem mem_posts {j : ThreadId} : (∃ st, s.posts[j]? = some (some ⟨p, k, st⟩)) ↔
    ∃ th phase, s.threads[j]? = some th ∧ th.role = .worker p k phase := by
  simp only [posts, List.getElem?_map, Option.map_eq_some_iff]
  constructor
  · rintro ⟨st, th, hth, hpost⟩
    cases hr : th.role with
    | caller => simp [Thread.post, hr] at hpost
    | worker q k' phase =>
      simp only [Thread.post, hr, Option.some.injEq, Post.mk.injEq] at hpost
      obtain ⟨rfl, rfl, -⟩ := hpost
      exact ⟨th, phase, hth, hr⟩
  · rintro ⟨th, phase, hth, hr⟩
    exact ⟨phase.station, th, hth, by simp [Thread.post, hr]⟩

theorem Books.busy (books : s.Books) (hp : s.pools[p]? = some pool) :
    pool.runningCount = s.threads.countP (Thread.isBusyIn p) :=
  (books.pools p pool hp).running.trans staff_busy

/-- Whoever finds a task is counted among the idle workers of the pool it sees. -/
theorem Books.claims (books : s.Books) (hp : s.pools[p]? = some pool)
    (hw : s.Working i p k phase) (hphase : phase.seeksWork)
    (hc : (pool.seenBy i phase).claim?.isSome) : 0 < (pool.seenBy i phase).idleCount := by
  have balanced := books.pools p pool hp
  have hlt := (List.getElem?_eq_some_iff.mp hw.post).1
  cases phase with
  | starting => exact (balanced.register hw.post).idle_pos (List.getElem?_set_self hlt) hc
  | parked woken => exact balanced.idle_pos hw.post hc
  | releasing => exact (balanced.released hw.post).idle_pos (List.getElem?_set_self hlt) hc
  | _ => cases hphase

theorem toNat_ofNat {n : Nat} (h : n ≤ 100) : (UInt64.ofNat n).toNat = n :=
  UInt64.toNat_ofNat_of_lt' (h.trans_lt (by decide))

theorem Run.bookkept (run : Run callers h s) (hp : s.pools[p]? = some pool) :
    Bookkept h s p pool := by
  have balanced := run.books.pools p pool hp
  have logged := run.logged
  have hthreads := (Config.valid_bounds balanced.valid).1.2
  have hpending := (Config.valid_bounds balanced.valid).2.2
  unfold maxThreadsLimit at hthreads
  unfold maxPendingLimit at hpending
  have hsize : s.size p = pool.crew.length := by simp [size, hp]
  have hlimit : s.limit p = pool.config.maxPending := by simp [limit, hp]
  have hroom : pool.queue.length ≤ pool.config.maxPending := balanced.capacity ▸ balanced.room
  have hroster : pool.threadCount ≤ pool.crew.length := by
    have := balanced.roster
    omega
  have htotal := balanced.total
  have hceiling := balanced.ceiling
  have idle : pool.stats.idleCount.toNat = pool.idleCount := toNat_ofNat (by omega)
  have running : pool.stats.runningCount.toNat = pool.runningCount := toNat_ofNat (by omega)
  have threads : pool.stats.threadCount.toNat = pool.threadCount := toNat_ofNat (by omega)
  have pending : pool.stats.pendingCount.toNat = pool.queue.length := toNat_ofNat (by omega)
  have maxThreads : pool.stats.maxThreads.toNat = pool.config.maxThreads :=
    toNat_ofNat (by omega)
  have hbusy := run.books.busy hp
  exact {
    total := htotal
    pending := hroom
    ceiling := fun _ => ⟨hroster, hceiling⟩
    spawned := hsize ▸ logged.spawns p
    crew := fun k j => (balanced.crew k j).trans mem_posts
    order := balanced.order
    running := hbusy
    claims := fun i k phase => run.books.claims hp
    completions := fun i k t hw => balanced.running_pos hw.post
    pushes := hlimit ▸ logged.pushes p
    snapshot_total := by rw [idle, running, threads, htotal]
    snapshot_pending := pending ▸ hroom
    snapshot_ceiling := fun _ => by
      rw [UInt64.le_iff_toNat_le, threads, maxThreads]
      exact ⟨hroster, hroster.trans hceiling⟩
    snapshot_running := running ▸ hbusy }

/-- A worker has registered and claimed the only task of the pool. -/
theorem bookkept_claimed : ∃ h s pool, Run 1 h s ∧ s.pools[0]? = some pool ∧
    pool.runningCount = 1 ∧ Bookkept h s 0 pool := by
  have run : Run 1 _ _ := run_of_replay [(0, .call (.createPool (.new 2)) 0),
    (0, .call (.createTask none) 0), (0, .call (.submit 0 0) 0), (1, .advance 0), (0, .advance 0),
    (1, .advance 0)] rfl
  exact ⟨_, _, _, run, rfl, rfl, run.bookkept rfl⟩

end System

end WorkerPool
