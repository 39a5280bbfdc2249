import Mathlib.Algebra.Order.Ring.Int
import WorkerPool.Proofs.Passages
import WorkerPool.Proofs.Totals

/-!
What the metric events of a pool add up to.

`Beat` lists what a step can do to the counters of a pool and to its busy workers, with the metric
events it lets known. Whoever adds up the events knows the counters: `Meters.Reads` says so, and
every beat keeps it.
-/
namespace WorkerPool

open Function (update)

namespace Metric

/-- The value of a counter or gauge in the event, zero if the event has none. -/
def amount (name : String) (m : Metric) : Int := (m.fields.lookup name).getD 0

/-- The sum of a counter or gauge over some events. -/
def sum (name : String) (ms : List Metric) : Int := (ms.map (amount name)).sum

/-- What the events about the worker add to the gauge of busy workers, one after the other. -/
def shifts (k : Nat) (ms : List Metric) : List Int :=
  (ms.filter fun m => m.fields.lookup "worker_id" == some (k : Int)).map
    (amount "gauge.workers_busy")

/-- The counter of executions that returned, or that panicked. -/
def executions (returned : Bool) : String :=
  if returned then "counter.tasks_completed" else "counter.tasks_panicked"

/-- What the gauge of busy workers gains and loses in turn. -/
def swing (n : Nat) : Int := if n % 2 = 0 then 1 else -1

def isFarewell : Metric → Bool
  | shutdown .. => true
  | _ => false

variable {name : String} {ms ms' : List Metric} {k : Nat} {m : Metric} {b : Bool}

/-- Submissions count themselves. -/
theorem amount_submitted : m.amount "counter.tasks_submitted" = match m with
    | .submission _ => 1
    | _ => 0 := by
  cases m with
  | completion millis => cases millis <;> rfl
  | panic millis => cases millis <;> rfl
  | _ => rfl

/-- So do executions. -/
theorem amount_executions : m.amount (executions b) = match m with
    | .completion _ => if b then 1 else 0
    | .panic _ => if b then 0 else 1
    | _ => 0 := by
  cases m with
  | completion millis => cases b <;> cases millis <;> rfl
  | panic millis => cases b <;> cases millis <;> rfl
  | _ => cases b <;> rfl

theorem amount_busy : m.amount "gauge.workers_busy" = match m with
    | .busy _ => 1
    | .idle _ => -1
    | _ => 0 := by
  cases m with
  | completion millis => cases millis <;> rfl
  | panic millis => cases millis <;> rfl
  | _ => rfl

theorem lookup_worker : m.fields.lookup "worker_id" = match m with
    | .busy k | .idle k => some (k : Int)
    | _ => none := by
  cases m with
  | completion millis => cases millis <;> rfl
  | panic millis => cases millis <;> rfl
  | _ => rfl

theorem lookup_depth {n : Nat} :
    (submission n).fields.lookup "gauge.queue_depth" = some (signed n) := rfl

theorem signed_eq {n : Nat} (h : n ≤ maxPendingLimit) : signed n = n := by
  unfold maxPendingLimit at h
  apply Int.bmod_eq_of_le <;> simp [UInt64.size]
  all_goals omega

@[simp] theorem sum_append : sum name (ms ++ ms') = sum name ms + sum name ms' := by
  simp [sum]

theorem sum_concat (m : Metric) : sum name (ms ++ [m]) = sum name ms + m.amount name := by
  simp [sum]

@[simp] theorem shifts_append : shifts k (ms ++ ms') = shifts k ms ++ shifts k ms' := by
  simp [shifts]

end Metric

/-- A counter of 64 bits mirrors a sum: it is exact until it wraps. -/
structure Mirrors (n : Nat) (sum : Int) : Prop where
  wraps : (n : Int) = sum % 2 ^ 64
  exact : sum < 2 ^ 64 → (n : Int) = sum

theorem Mirrors.zero : Mirrors 0 0 := ⟨rfl, fun _ => rfl⟩

theorem Mirrors.add_one {n : UInt64} {sum : Int} (h : Mirrors n.toNat sum) :
    Mirrors (n + 1).toNat (sum + 1) := by
  obtain ⟨wraps, exact⟩ := h
  have next : (n + 1).toNat = (n.toNat + 1) % 2 ^ 64 := by
    rw [UInt64.toNat_add, UInt64.toNat_one]
  exact ⟨by omega, by omega⟩

/-- What the metric events of a pool are about. -/
structure Meters where
  submitted : UInt64 := 0
  total : Bool → UInt64 := fun _ => 0
  running : Nat := 0
  closed : Bool := false

def Pool.meters (pool : Pool) : Meters where
  submitted := pool.submitted
  total b := pool.total b
  running := pool.runningCount
  closed := pool.closed

/-- The meters of a pool and its busy workers before and after a move, with the metric events in
between. -/
inductive Beat (x : Meters) (busy : Nat → Prop) : List Metric → Meters → (Nat → Prop) → Prop
  | same : Beat x busy [] x busy
  | submission (depth : Nat) : x.closed = false →
      Beat x busy [.submission depth] { x with submitted := x.submitted + 1 } busy
  | busy {k : Nat} : x.closed = false → ¬ busy k →
      Beat x busy [.busy k] { x with running := x.running + 1 } (update busy k True)
  | execution (returned : Bool) : x.closed = false →
      Beat x busy [if returned then .completion none else .panic none]
        { x with total := fun b => x.total b + if returned = b then 1 else 0 } busy
  | idle {k : Nat} : x.closed = false → 0 < x.running → busy k →
      Beat x busy [.idle k] { x with running := x.running - 1 } (update busy k False)
  | close : Beat x busy [] { x with closed := true } busy
  | shutdown : x.closed →
      Beat x busy [.shutdown (x.total true).toNat (x.total false).toNat] x busy

/-- The metric events add up to the meters. -/
structure Meters.Reads (ms : List Metric) (x : Meters) (busy : Nat → Prop) : Prop where
  submitted : Mirrors x.submitted.toNat (Metric.sum "counter.tasks_submitted" ms)
  executed : ∀ b, Mirrors (x.total b).toNat (Metric.sum (Metric.executions b) ms)
  running : x.running = Metric.sum "gauge.workers_busy" ms
  /-- A worker becomes busy and idle in turn. -/
  shifts : ∀ k, ∃ n, Metric.shifts k ms = (List.range n).map Metric.swing ∧ (n % 2 = 1 ↔ busy k)
  /-- The event of a shutdown carries the sums, and only such events follow. -/
  farewell : ∀ {ms₁ completed panicked ms₂}, ms = ms₁ ++ .shutdown completed panicked :: ms₂ →
    Mirrors completed (Metric.sum (Metric.executions true) ms₁) ∧
    Mirrors panicked (Metric.sum (Metric.executions false) ms₁) ∧ ∀ m ∈ ms₂, m.isFarewell
  going : x.closed = false → ∀ m ∈ ms, m.isFarewell = false

namespace Meters.Reads

variable {ms : List Metric} {x x' : Meters} {busy busy' : Nat → Prop} {m : Metric} {k : Nat}

theorem start : Reads [] {} fun _ => False where
  submitted := .zero
  executed _ := .zero
  running := rfl
  shifts _ := ⟨0, rfl, by simp⟩
  farewell h := by simp at h
  going _ := nofun

/-- An event while the pool is open. -/
theorem told (reads : x.Reads ms busy) (ho : x.closed = false) (hm : m.isFarewell = false)
    (submitted : Mirrors x'.submitted.toNat
      (Metric.sum "counter.tasks_submitted" ms + m.amount "counter.tasks_submitted"))
    (executed : ∀ b, Mirrors (x'.total b).toNat
      (Metric.sum (Metric.executions b) ms + m.amount (Metric.executions b)))
    (running : x'.running = Metric.sum "gauge.workers_busy" ms + m.amount "gauge.workers_busy")
    (shifts : ∀ k, ∃ n, Metric.shifts k (ms ++ [m]) = (List.range n).map Metric.swing ∧
      (n % 2 = 1 ↔ busy' k)) :
    x'.Reads (ms ++ [m]) busy' := by
  have none : ∀ m' ∈ ms ++ [m], m'.isFarewell = false :=
    List.forall_mem_append.mpr ⟨reads.going ho, List.forall_mem_singleton.mpr hm⟩
  refine ⟨by rwa [Metric.sum_concat], fun b => by rw [Metric.sum_concat]; exact executed b,
    by rwa [Metric.sum_concat], shifts, fun {ms₁ c q ms₂} h => ?_, fun _ => none⟩
  have := none (.shutdown c q) (by simp [h])
  simp [Metric.isFarewell] at this

/-- An event that is not about the worker. -/
theorem shift_other (reads : x.Reads ms busy)
    (hid : m.fields.lookup "worker_id" ≠ some (k : Int)) : ∃ n,
      Metric.shifts k (ms ++ [m]) = (List.range n).map Metric.swing ∧ (n % 2 = 1 ↔ busy k) := by
  obtain ⟨n, hn, hodd⟩ := reads.shifts k
  exact ⟨n, by simpa [Metric.shifts, hid] using hn, hodd⟩

/-- An event with which the worker changes over. -/
theorem shift {n : Nat} (hn : Metric.shifts k ms = (List.range n).map Metric.swing)
    (hid : m.fields.lookup "worker_id" = some (k : Int))
    (hm : m.amount "gauge.workers_busy" = Metric.swing n) :
    Metric.shifts k (ms ++ [m]) = (List.range (n + 1)).map Metric.swing := by
  have last : Metric.shifts k [m] = [Metric.swing n] := by simp [Metric.shifts, hid, hm]
  simp [hn, List.range_succ, last]

theorem submission (depth : Nat) (reads : x.Reads ms busy) (ho : x.closed = false) :
    Reads (ms ++ [.submission depth]) { x with submitted := x.submitted + 1 } busy :=
  reads.told ho rfl (by simpa [Metric.amount_submitted] using reads.submitted.add_one)
    (by simpa [Metric.amount_executions] using reads.executed)
    (by simpa [Metric.amount_busy] using reads.running)
    fun k => reads.shift_other (by simp [Metric.lookup_worker])

theorem execution (returned : Bool) (reads : x.Reads ms busy) (ho : x.closed = false) :
    Reads (ms ++ [if returned then .completion none else .panic none])
      { x with total := fun b => x.total b + if returned = b then 1 else 0 } busy := by
  refine reads.told ho (by cases returned <;> rfl) ?_ (fun b => ?_) ?_ fun k =>
    reads.shift_other (by cases returned <;> simp [Metric.lookup_worker])
  · cases returned <;> simpa [Metric.amount_submitted] using reads.submitted
  · have same := reads.executed b
    have more := same.add_one
    cases returned <;> cases b <;> simpa [Metric.amount_executions] using by assumption
  · cases returned <;> simpa [Metric.amount_busy] using reads.running

theorem becomes_busy (reads : x.Reads ms busy) (ho : x.closed = false) (hk : ¬ busy k) :
    Reads (ms ++ [.busy k]) { x with running := x.running + 1 } (update busy k True) := by
  refine reads.told ho rfl (by simpa [Metric.amount_submitted] using reads.submitted)
    (by simpa [Metric.amount_executions] using reads.executed)
    (by simpa [Metric.amount_busy] using reads.running) fun k' => ?_
  by_cases hk' : k' = k
  · subst hk'
    obtain ⟨n, hn, hodd⟩ := reads.shifts k'
    have even : n % 2 = 0 := by
      have := mt hodd.mp hk
      omega
    refine ⟨n + 1, shift hn rfl ?_, ?_⟩
    · simp [Metric.swing, even, Metric.amount_busy]
    · simp only [Function.update_self, iff_true]
      omega
  · rw [Function.update_of_ne hk']
    exact reads.shift_other (by simpa [Metric.lookup_worker] using mt Int.ofNat.inj (Ne.symm hk'))

theorem becomes_idle (reads : x.Reads ms busy) (ho : x.closed = false) (hpos : 0 < x.running)
    (hk : busy k) :
    Reads (ms ++ [.idle k]) { x with running := x.running - 1 } (update busy k False) := by
  refine reads.told ho rfl (by simpa [Metric.amount_submitted] using reads.submitted)
    (by simpa [Metric.amount_executions] using reads.executed) ?_ fun k' => ?_
  · have := reads.running
    simp only [Metric.amount_busy]
    omega
  · by_cases hk' : k' = k
    · subst hk'
      obtain ⟨n, hn, hodd⟩ := reads.shifts k'
      have odd := hodd.mpr hk
      refine ⟨n + 1, shift hn rfl ?_, ?_⟩
      · simp [Metric.swing, odd, Metric.amount_busy]
      · simp only [Function.update_self, iff_false]
        omega
    · rw [Function.update_of_ne hk']
      exact reads.shift_other (by simpa [Metric.lookup_worker] using mt Int.ofNat.inj (Ne.symm hk'))

/-- Only shutdowns are told of while the pool is closed. -/
theorem shutdown (reads : x.Reads ms busy) (hc : x.closed) :
    x.Reads (ms ++ [.shutdown (x.total true).toNat (x.total false).toNat]) busy := by
  refine ⟨?_, fun b => ?_, ?_, fun k => reads.shift_other ?_, fun {ms₁ c q ms₂} h => ?_,
    fun ho => ?_⟩
  · simpa only [Metric.sum_concat, Metric.amount_submitted, Int.add_zero] using reads.submitted
  · simpa only [Metric.sum_concat, Metric.amount_executions, Int.add_zero] using reads.executed b
  · simpa only [Metric.sum_concat, Metric.amount_busy, Int.add_zero] using reads.running
  · simp [Metric.lookup_worker]
  · rcases List.eq_nil_or_concat ms₂ with rfl | ⟨front, last, rfl⟩
    · obtain ⟨rfl, hlast⟩ := List.append_inj' h rfl
      cases hlast
      exact ⟨reads.executed true, reads.executed false, nofun⟩
    · rw [List.concat_eq_append, ← List.cons_append, ← List.append_assoc] at h
      obtain ⟨rfl, hlast⟩ := List.append_inj' h rfl
      cases hlast
      obtain ⟨hcompleted, hpanicked, later⟩ := reads.farewell rfl
      refine ⟨hcompleted, hpanicked, ?_⟩
      rw [List.concat_eq_append]
      exact List.forall_mem_append.mpr ⟨later, List.forall_mem_singleton.mpr rfl⟩
  · simp [hc] at ho

theorem beat {es : List Metric} (reads : x.Reads ms busy) (beat : Beat x busy es x' busy') :
    x'.Reads (ms ++ es) busy' := by
  cases beat with
  | same => simpa using reads
  | submission depth ho => exact reads.submission depth ho
  | busy ho hk => exact reads.becomes_busy ho hk
  | execution returned ho => exact reads.execution returned ho
  | idle ho hpos hk => exact reads.becomes_idle ho hpos hk
  | close =>
    rw [List.append_nil]
    exact ⟨reads.submitted, reads.executed, reads.running, reads.shifts, reads.farewell, nofun⟩
  | shutdown hc => exact reads.shutdown hc

end Meters.Reads

/-- The metric event of the pool. -/
def Event.metric? (p : PoolId) : Event → Option Metric
  | .metric q m => if q = p then some m else none
  | _ => none

namespace Trace

/-- The metric events of the pool. -/
def metrics (h : Trace) (p : PoolId) : List Metric := h.filterMap fun e => e.2.metric? p

theorem metrics_append {h : Trace} {es : List Event} {i : ThreadId} {p : PoolId} :
    metrics (h ++ es.map (i, ·)) p = h.metrics p ++ es.filterMap (·.metric? p) := by
  simp [metrics, List.filterMap_map]

end Trace

namespace System

variable {s s' : System} {i : ThreadId} {p q : PoolId} {k n : Nat} {pool new : Pool}
  {st st' : Station} {es : List Event} {h : Trace} {callers : Nat}

def meters (s : System) (p : PoolId) : Meters := (s.pools[p]?.map Pool.meters).getD {}

theorem meters_eq (hp : s.pools[p]? = some pool) : s.meters p = pool.meters := by
  simp [meters, hp]

theorem meters_set (hq : s.pools[q]? = some pool) (hpools : s'.pools = s.pools.set q new) :
    s'.meters p = if p = q then new.meters else s.meters p :=
  getD_pools_set ({} : Meters) hq hpools

theorem meters_same (hq : s.pools[q]? = some pool) (hpools : s'.pools = s.pools.set q new)
    (hn : new.meters = pool.meters) : s'.meters p = s.meters p :=
  getD_pools_same ({} : Meters) hq hpools hn

/-- The worker `k` of the pool has a task. -/
def Employs (s : System) (p : PoolId) (k : Nat) : Prop :=
  ∃ i : ThreadId, s.posts[i]? = some (some ⟨p, k, .busy⟩)

theorem employs_congr (hposts : s'.posts = s.posts) : s'.Employs p = s.Employs p := by
  funext k
  rw [Employs, hposts, Employs]

theorem employs_hired (hposts : s'.posts = s.posts ++ [some ⟨q, n, .starting⟩]) :
    s'.Employs p = s.Employs p := by
  funext k
  simp [Employs, hposts, getElem?_concat]

/-- The busy workers after one has changed its station. -/
theorem employs_set (hi : s.posts[i]? = some (some ⟨q, n, st⟩))
    (hposts : s'.posts = s.posts.set i (some ⟨q, n, st'⟩)) : s'.Employs p k ↔
      (p = q ∧ k = n ∧ st' = .busy) ∨
        ∃ j, j ≠ i ∧ s.posts[j]? = some (some ⟨p, k, .busy⟩) := by
  simp only [Employs, hposts, getElem?_post_set hi, exists_or, exists_eq_left, Post.mk.injEq]
  simp [eq_comm]

theorem employs_same (hi : s.posts[i]? = some (some ⟨q, n, st⟩))
    (hposts : s'.posts = s.posts.set i (some ⟨q, n, st'⟩))
    (hst : q = p → st ≠ .busy ∧ st' ≠ .busy) : s'.Employs p = s.Employs p := by
  funext k
  refine propext ((employs_set hi hposts).trans ⟨?_, fun ⟨j, hj⟩ => .inr ⟨j, ?_, hj⟩⟩)
  · rintro (⟨hp, -, hbusy⟩ | ⟨j, -, hj⟩)
    · exact absurd hbusy (hst hp.symm).2
    · exact ⟨j, hj⟩
  · rintro rfl
    rw [hi] at hj
    cases hj
    exact (hst rfl).1 rfl

/-- A worker gets a task. -/
theorem employs_begins (hi : s.posts[i]? = some (some ⟨p, n, st⟩))
    (hposts : s'.posts = s.posts.set i (some ⟨p, n, .busy⟩)) :
    s'.Employs p = update (s.Employs p) n True := by
  funext k
  by_cases hk : k = n
  · subst hk
    simp [employs_set hi hposts]
  · rw [Function.update_of_ne hk]
    refine propext ((employs_set hi hposts).trans ⟨?_, fun ⟨j, hj⟩ => .inr ⟨j, ?_, hj⟩⟩)
    · rintro (⟨-, hkn, -⟩ | ⟨j, -, hj⟩)
      · exact absurd hkn hk
      · exact ⟨j, hj⟩
    · rintro rfl
      rw [hi] at hj
      cases hj
      exact hk rfl

/-- A worker has its number for itself. -/
theorem Books.post_unique (books : s.Books) (hp : s.pools[p]? = some pool) {j : ThreadId}
    (hi : s.posts[i]? = some (some ⟨p, k, st⟩)) (hj : s.posts[j]? = some (some ⟨p, k, st'⟩)) :
    j = i := by
  have crew := (books.pools p pool hp).crew k
  exact Option.some.inj (((crew j).mpr ⟨st', hj⟩).symm.trans ((crew i).mpr ⟨st, hi⟩))

/-- A worker is done with its task. -/
theorem employs_ends (books : s.Books) (hp : s.pools[p]? = some pool)
    (hi : s.posts[i]? = some (some ⟨p, n, .busy⟩))
    (hposts : s'.posts = s.posts.set i (some ⟨p, n, st'⟩)) (hst' : st' ≠ .busy) :
    s'.Employs p = update (s.Employs p) n False := by
  funext k
  refine propext ((employs_set hi hposts).trans ?_)
  by_cases hk : k = n
  · subst hk
    rw [Function.update_self, iff_false]
    rintro (⟨-, -, hbusy⟩ | ⟨j, hj, hpost⟩)
    · exact hst' hbusy
    · exact hj (books.post_unique hp hi hpost)
  · rw [Function.update_of_ne hk]
    refine ⟨?_, fun ⟨j, hj⟩ => .inr ⟨j, ?_, hj⟩⟩
    · rintro (⟨-, hkn, -⟩ | ⟨j, -, hj⟩)
      · exact absurd hkn hk
      · exact ⟨j, hj⟩
    · rintro rfl
      rw [hi] at hj
      cases hj
      exact hk rfl

/-- A pool with a busy worker is open. -/
theorem Books.open_of_busy (books : s.Books) (hp : s.pools[p]? = some pool)
    (hi : s.posts[i]? = some (some ⟨p, k, .busy⟩)) :
    pool.closed = false ∧ 0 < pool.runningCount := by
  have balanced := books.pools p pool hp
  have hpos : 0 < pool.runningCount := balanced.running ▸ staff_pos hi
  refine ⟨?_, hpos⟩
  by_contra hc
  have := (balanced.calm (by simpa using hc)).1
  omega

/-- A change of one pool, about which alone metric events tell. -/
theorem beat_set (hq : s.pools[q]? = some pool) (hpools : s'.pools = s.pools.set q new)
    (others : q ≠ p → s'.Employs p = s.Employs p ∧ es.filterMap (·.metric? p) = [])
    (beat : Beat pool.meters (s.Employs q) (es.filterMap (·.metric? q)) new.meters
      (s'.Employs q)) :
    Beat (s.meters p) (s.Employs p) (es.filterMap (·.metric? p)) (s'.meters p)
      (s'.Employs p) := by
  by_cases hp : q = p
  · subst hp
    rwa [meters_set hq hpools, if_pos rfl, meters_eq hq]
  · obtain ⟨hwork, he⟩ := others hp
    rw [meters_set hq hpools, if_neg (Ne.symm hp), hwork, he]
    exact .same

theorem Move.beat (m : Move i s es s') (books : s.Books) (p : PoolId) :
    Beat (s.meters p) (s.Employs p) (es.filterMap (·.metric? p)) (s'.meters p) (s'.Employs p) := by
  have quiet (hm : s'.meters p = s.meters p) (hw : s'.Employs p = s.Employs p)
      (he : es.filterMap (·.metric? p) = []) : Beat (s.meters p) (s.Employs p)
        (es.filterMap (·.metric? p)) (s'.meters p) (s'.Employs p) := by
    rw [hm, hw, he]
    exact .same
  have same (hpools : s'.pools = s.pools) : s'.meters p = s.meters p := by
    rw [meters, hpools, meters]
  have roles {g : Thread → Thread} (hg : ∀ th, (g th).role = th.role) :
      (s.onThread i g).Employs p = s.Employs p := employs_congr (posts_onThread hg)
  have twice {g g' : Thread → Thread} (hg : ∀ th, (g th).role = th.role)
      (hg' : ∀ th, (g' th).role = th.role) :
      ((s.onThread i g).onThread i g').Employs p = s.Employs p :=
    employs_congr ((posts_onThread hg').trans (posts_onThread hg))
  cases m with
  | call _ _ => exact quiet (same rfl) (roles fun _ => rfl) rfl
  | leave _ _ he =>
    rcases he with rfl | ⟨r, rfl⟩
    · exact quiet (same rfl) (roles fun _ => rfl) rfl
    · exact quiet (same rfl) (roles fun _ => rfl) rfl
  | wait _ _ _ => exact quiet (same rfl) (roles fun _ => rfl) rfl
  | note _ => exact quiet (same rfl) rfl rfl
  | addPool hc =>
    refine quiet (getD_addPool _ ?_) rfl rfl
    rw [(Pool.create_eq hc).2]
    rfl
  | addTask _ => exact quiet (same rfl) rfl rfl
  | @hire q pool hq _ _ =>
    refine quiet (meters_same hq rfl ?_) (employs_hired (q := q) (n := pool.rosterSize) ?_) rfl
    · simp [Pool.meters, Pool.total_hire]
      exact ⟨rfl, rfl, rfl⟩
    · simp [System.posts, hired, System.spawn, System.setPool, Thread.post, Phase.station]
  | @accept q pool t task pick hq _ hr _ _ _ =>
    let told := (s.setSlot t task.slot.claim).setPool q (pool.accept t)
    have hpools : (told.wakeOne q pick).pools = s.pools.set q (pool.accept t) := pools_wakeOne pick
    have hwork (p : PoolId) : (told.wakeOne q pick).Employs p = s.Employs p :=
      employs_congr (posts_wakeOne pick)
    refine beat_set hq hpools (fun hp => ⟨hwork p, by simp [Event.metric?, hp]⟩) ?_
    rw [hwork]
    simpa [Event.metric?] using .submission _ (Pool.Balanced.isOpen hr).1
  | take _ _ _ _ _ _ => exact quiet (same rfl) (roles fun _ => rfl) rfl
  | letGo _ _ _ _ _ => exact quiet (same rfl) (roles fun _ => rfl) rfl
  | discard _ _ => exact quiet (same rfl) (roles fun _ => rfl) rfl
  | destroy _ _ => exact quiet (same rfl) (twice (fun _ => rfl) fun _ => rfl) rfl
  | release _ _ _ => exact quiet (same rfl) (roles fun _ => rfl) rfl
  | abandon _ _ _ _ => exact quiet (same rfl) (roles fun _ => rfl) rfl
  | unref _ _ => exact quiet (same rfl) (roles fun _ => rfl) rfl
  | clear _ _ _ => exact quiet (same rfl) (roles fun _ => rfl) rfl
  | resume _ => exact quiet (same rfl) (twice (fun _ => rfl) fun _ => rfl) rfl
  | close hq _ => exact beat_set hq rfl (fun _ => ⟨rfl, rfl⟩) .close
  | stop k hq _ =>
    refine quiet (meters_same hq rfl ?_) (employs_congr (posts_wakeAll _)) rfl
    simp [Pool.meters, Pool.total_requestExit]
    exact ⟨rfl, rfl, rfl⟩
  | @dismiss q pool total hq hc =>
    have shutdown : Beat pool.meters (s.Employs q) _ pool.meters (s.Employs q) := .shutdown hc
    refine beat_set hq rfl (fun hp => ⟨rfl, by simp [Event.metric?, hp]⟩) ?_
    simp only [Event.metric?, List.filterMap_cons, List.filterMap_nil, if_pos]
    exact shutdown
  | dropPool hq _ => exact quiet (meters_same hq rfl rfl) rfl rfl
  | @register q pool k g hw hq hg =>
    have hw' : ((s.onThread i g).wakeAll (.workerRegistered q)).Working i q k .starting :=
      (hw.stay hg).wakeAll (.workerRegistered q)
    have hposts : ((s.onThread i g).wakeAll (.workerRegistered q)).posts = s.posts :=
      (posts_wakeAll _).trans (posts_onThread fun th => (hg th).1)
    refine quiet (meters_same hq (pools_settled _) rfl) ?_ rfl
    refine (employs_same hw'.post (hw'.posts_settled _) fun _ => ⟨?_, ?_⟩).trans
      (employs_congr hposts)
    all_goals simp [Phase.station]
  | released hw hq =>
    refine quiet (meters_same hq (pools_settled _) rfl)
      (employs_same hw.post (hw.posts_settled _) fun _ => ⟨?_, ?_⟩) rfl
    all_goals simp [Phase.station]
  | exit hw _ _ hg =>
    refine quiet (same rfl)
      (employs_same hw.post (hw.posts .exited fun th => (hg th).1) fun _ => ⟨?_, ?_⟩) rfl
    all_goals simp [Phase.station]
  | @claim q pool pool' k t hw hq _ hc =>
    have hw' : (s.setPool q pool').Working i q k (.parked true) := hw
    have hposts := hw'.posts (g := (·.setPhase (.holding t))) (.holding t) fun _ => rfl
    obtain ⟨queue, hpop, rfl⟩ := Pool.claim?_eq hc
    have ho : pool.closed = false := by
      by_contra hclosed
      have hempty := ((books.pools q pool hq).calm (by simpa using hclosed)).2
      simp [PendingQueue.pop?, hempty] at hpop
    have free : ¬ s.Employs q k := by
      rintro ⟨j, hj⟩
      obtain rfl := books.post_unique hq hw.post hj
      simp [hw.post, Phase.station] at hj
    refine beat_set hq rfl (fun hp => ⟨employs_same hw.post hposts fun h => absurd h hp,
      by simp [Event.metric?, hp]⟩) ?_
    rw [employs_begins hw.post hposts]
    simpa [Event.metric?] using .busy ho free
  | park hw _ _ _ =>
    exact quiet (same rfl) (employs_congr (hw.posts_same Thread.rephases_setPhase rfl)) rfl
  | begin hw _ _ hg =>
    exact quiet (same rfl)
      (employs_congr (Working.posts_same (s := s.setTask _ _) hw hg rfl)) rfl
  | beginEmpty hw _ _ hg =>
    exact quiet (same rfl)
      (employs_congr (Working.posts_same (s := s.setTask _ _) hw hg rfl)) rfl
  | endWork hw _ _ hg => exact quiet (same rfl) (employs_congr (hw.posts_same hg rfl)) rfl
  | stash hw _ =>
    exact quiet (same rfl) (employs_congr
      (Working.posts_same (s := s.setSlot _ _) hw Thread.rephases_setPhase rfl)) rfl
  | @count q pool k t returned g hw hq hg =>
    have hwork (p : PoolId) :
        ((s.setPool q (pool.count k returned)).onThread i g).Employs p = s.Employs p :=
      employs_congr (Working.posts_same (s := s.setPool _ _) hw hg rfl)
    have hk : k < pool.crew.length := by
      have hhand := ((books.pools q pool hq).crew k i).mpr ⟨_, hw.post⟩
      simpa [Pool.hands] using (List.getElem?_eq_some_iff.mp hhand).1
    have counted : (pool.count k returned).meters = { pool.meters with
        total := fun b => pool.meters.total b + if returned = b then 1 else 0 } := by
      simp only [Pool.meters, Pool.total_count hk returned]
      rfl
    have execution : Beat pool.meters (s.Employs q) _ _ (s.Employs q) :=
      .execution returned (books.open_of_busy hq hw.post).1
    refine beat_set hq rfl (fun hp => ⟨hwork p, ?_⟩) ?_
    · cases returned <;> simp [Event.metric?, hp]
    · rw [hwork, counted]
      cases returned <;> simpa [Event.metric?] using execution
  | @retire q pool k t task hw hq _ =>
    have hw' : (s.published i q pool t task).Working i q k (.counted t) := hw.published rfl
    have hposts : (s.retired i q pool t task).posts =
        (s.published i q pool t task).posts.set i (some ⟨q, k, .releasing⟩) :=
      hw'.posts .releasing fun _ => rfl
    rw [Books.posts_published] at hposts
    obtain ⟨ho, hpos⟩ := books.open_of_busy hq hw.post
    have idle : Beat pool.meters (s.Employs q) [.idle k] (pool.retire i).meters
      (update (s.Employs q) k False) := .idle ho hpos ⟨i, hw.post⟩
    refine beat_set hq Books.pools_retired
      (fun hp => ⟨employs_same hw.post hposts fun h => absurd h hp, ?_⟩) ?_
    · simp [Event.metric?, hp]
    · rw [employs_ends books hq hw.post hposts (by simp)]
      split <;> simpa [Event.metric?] using idle

/-! ### Runs -/

/-- In every run, the metric events of a pool add up to its meters. -/
theorem Run.reads (run : Run callers h s) (p : PoolId) :
    (s.meters p).Reads (h.metrics p) (s.Employs p) := by
  have start : (System.start callers).Employs p = fun _ => False := by
    funext k
    simp [Employs, System.posts, System.start, List.getElem?_replicate, Thread.post]
  have both : s.Books ∧ (s.meters p).Reads (h.metrics p) (s.Employs p) :=
    run.keeps (P := fun h s => s.Books ∧ (s.meters p).Reads (h.metrics p) (s.Employs p))
      ⟨.start callers, start ▸ .start⟩ fun i both m => by
        refine ⟨both.1.move m, ?_⟩
        rw [Trace.metrics_append]
        exact both.2.beat (m.beat both.1 p)
  exact both.2

/-- An event of a run has been told by a step of it. -/
theorem Run.moment {j : ThreadId} {e : Event} {h₁ h₂ : Trace}
    (run : Run callers (h₁ ++ (j, e) :: h₂) s) : ∃ g s₀ a s₁ es₁ es₂, Run callers g s₀ ∧
      s₀.step j a = some (s₁, es₁ ++ e :: es₂) ∧ h₁ = g ++ es₁.map (j, ·) := by
  generalize hh : h₁ ++ (j, e) :: h₂ = h at run
  induction run generalizing h₂ with
  | start => simp at hh
  | @step h s s' i a es run hs ih =>
    rcases List.append_eq_append_iff.mp hh.symm with ⟨front, rfl, hes⟩ | ⟨back, rfl, hback⟩
    · obtain ⟨es₁, es₂', rfl, rfl, htail⟩ := List.map_eq_append_iff.mp hes
      obtain ⟨e', es₂, rfl, he, -⟩ := List.map_eq_cons_iff.mp htail
      cases he
      exact ⟨h, s, a, s', es₁, es₂, run, hs, rfl⟩
    · cases back with
      | nil =>
        obtain ⟨e', es₂, rfl, he, -⟩ := List.map_eq_cons_iff.mp hback.symm
        cases he
        exact ⟨_, s, a, s', [], es₂, by simpa using run, hs, by simp⟩
      | cons x back =>
        cases hback
        exact ih rfl

theorem Move.told_submission (m : Move i s es s') (hev : .metric p (.submission n) ∈ es) :
    ∃ t, .log (.submitted p t n) ∈ es := by
  cases m with
  | leave _ _ he => rcases he with rfl | ⟨r, rfl⟩ <;> simp at hev
  | @accept q pool t _ _ _ _ _ _ _ _ =>
    obtain ⟨rfl, rfl⟩ : p = q ∧ n = (pool.accept t).queue.length := by simpa using hev
    exact ⟨t, by simp⟩
  | count _ _ _ => split at hev <;> simp at hev
  | retire _ _ _ => split at hev <;> simp at hev
  | _ => simp at hev

theorem Moves.told_submission (ms : Moves i s es s') (hev : .metric p (.submission n) ∈ es) :
    ∃ t, .log (.submitted p t n) ∈ es := by
  induction ms with
  | nil => cases hev
  | cons m _ ih =>
    rcases List.mem_append.mp hev with hev | hev
    · obtain ⟨t, ht⟩ := m.told_submission hev
      exact ⟨t, List.mem_append_left _ ht⟩
    · obtain ⟨t, ht⟩ := ih hev
      exact ⟨t, List.mem_append_right _ ht⟩

/-- A task is pushed on the queue of the pool, and the event carries the length that this gives. -/
def Deepens (s s' : System) (p : PoolId) (m : Metric) : Prop :=
  ∃ pool t, s.pools[p]? = some pool ∧ s'.pools[p]? = some (pool.accept t) ∧
    m.fields.lookup "gauge.queue_depth" = some ((pool.accept t).queue.length : Int) ∧
    1 ≤ (pool.accept t).queue.length ∧ (pool.accept t).queue.length ≤ pool.config.maxPending

theorem Run.deepens {a : Action} (run : Run callers h s) (hs : s.step i a = some (s', es))
    (hev : .metric p (.submission n) ∈ es) : s.Deepens s' p (.submission n) := by
  obtain ⟨t, ht⟩ := (moves_of_step run.calls hs).told_submission hev
  obtain ⟨q, pool', tries, -, he⟩ := submitted_by (t := t) run.calls hs ht (by simp [Event.buys])
  have done : .replied .done ∈ es := by
    rw [show es = pool'.receipt q t from he]
    simp [Pool.receipt]
  obtain ⟨pool, task, hp, -, -, decides⟩ := tries.decides run.calls hs done
  cases decides with
  | accepted _ _ _ _ hpools htold =>
    obtain ⟨rfl, rfl⟩ : p = q ∧ n = (pool.accept t).queue.length := by
      rw [show es = pool.receipt q t from htold] at hev
      simpa [Pool.receipt] using hev
    have hlt := (List.getElem?_eq_some_iff.mp hp).1
    have hp' : s'.pools[p]? = some (pool.accept t) := by
      rw [show s'.pools = s.pools.set p (pool.accept t) from hpools]
      simp [hlt]
    have balanced := (run.step hs).books.pools p _ hp'
    have hroom : (pool.accept t).queue.length ≤ pool.config.maxPending :=
      balanced.room.trans_eq balanced.capacity
    have hlimit : pool.config.maxPending ≤ maxPendingLimit :=
      (Config.valid_bounds balanced.valid).2.2
    refine ⟨pool, t, hp, hp', ?_, ?_, hroom⟩
    · rw [Metric.lookup_depth, Metric.signed_eq (hroom.trans hlimit)]
    · rw [Pool.length_accept]
      omega

/-- What the metric events of a pool tell. -/
structure Metered (callers : Nat) (h : Trace) (p : PoolId) (pool : Pool) : Prop where
  submitted : Mirrors pool.submitted.toNat (Metric.sum "counter.tasks_submitted" (h.metrics p))
  /-- The event of a submission carries the length of the queue right after the push. -/
  depth : ∀ {h₁ h₂ : Trace} {j m}, h = h₁ ++ (j, .metric p m) :: h₂ → m.message = "task submitted" →
    ∃ g s₀ a s₁ es₁ es₂, Run callers g s₀ ∧
      s₀.step j a = some (s₁, es₁ ++ .metric p m :: es₂) ∧ h₁ = g ++ es₁.map (j, ·) ∧
      s₀.Deepens s₁ p m
  running : pool.runningCount = Metric.sum "gauge.workers_busy" (h.metrics p)
  /-- Each worker becomes busy and idle in turn. -/
  shifts : ∀ k, ∃ n, Metric.shifts k (h.metrics p) = (List.range n).map Metric.swing
  completed : Mirrors pool.totalCompleted.toNat (Metric.sum "counter.tasks_completed" (h.metrics p))
  panicked : Mirrors pool.totalPanicked.toNat (Metric.sum "counter.tasks_panicked" (h.metrics p))
  /-- The event of a shutdown carries the sums up to there, and no event about a task follows. -/
  farewell : ∀ {h₁ h₂ : Trace} {j c q}, h = h₁ ++ (j, .metric p (.shutdown c q)) :: h₂ →
    Mirrors c (Metric.sum "counter.tasks_completed" (h₁.metrics p)) ∧
    Mirrors q (Metric.sum "counter.tasks_panicked" (h₁.metrics p)) ∧
    ∀ m ∈ h₂.metrics p, m.isFarewell

theorem Run.metered (run : Run callers h s) (hp : s.pools[p]? = some pool) :
    Metered callers h p pool := by
  have reads := run.reads p
  rw [meters_eq hp] at reads
  refine ⟨reads.submitted, fun {h₁ h₂ j m} hh hm => ?_, reads.running, fun k => ?_,
    reads.executed true, reads.executed false, fun {h₁ h₂ j c q} hh => ?_⟩
  · obtain ⟨d, rfl⟩ : ∃ d, m = .submission d := by cases m <;> simp_all [Metric.message]
    subst hh
    obtain ⟨g, s₀, a, s₁, es₁, es₂, run₀, hs, hh₁⟩ := run.moment
    exact ⟨g, s₀, a, s₁, es₁, es₂, run₀, hs, hh₁, run₀.deepens hs (by simp)⟩
  · obtain ⟨n, hn, -⟩ := reads.shifts k
    exact ⟨n, hn⟩
  · have hmetrics : h.metrics p = h₁.metrics p ++ .shutdown c q :: h₂.metrics p := by
      simp [hh, Trace.metrics, Event.metric?]
    exact reads.farewell hmetrics

/-- A task has been executed, and the pool has been shut down. -/
theorem metered_shutdown : ∃ h s pool, Run 1 h s ∧ s.pools[0]? = some pool ∧
    h.metrics 0 = [.submission 1, .busy 0, .completion none, .idle 0, .shutdown 1 0] ∧
    Metered 1 h 0 pool := by
  have run : Run 1 _ _ := run_of_replay [(0, .call (.createPool (.new 1)) 0),
    (0, .call (.createTask none) 0), (0, .call (.submit 0 0) 0), (1, .advance 0), (0, .advance 0),
    (1, .advance 0), (1, .advance 0), (1, .finish (.ok .null)), (1, .advance 0), (1, .advance 0),
    (1, .advance 0), (1, .advance 0), (1, .advance 0), (1, .advance 0),
    (0, .call (.shutdown 0) 0), (1, .advance 0), (0, .advance 0)] rfl
  exact ⟨_, _, _, run, rfl, rfl, run.metered rfl⟩

end System

end WorkerPool
