import WorkerPool.Proofs.Seats
import WorkerPool.Proofs.Teardown

/-!
Orders to exit.

Only the shutdown that has closed the pool tells workers to exit, one after the other. `OrderStep`
is all that a step can do to the orders; from it follows which workers have been told when a
shutdown joins, and that the ones before have terminated or run the shutdown themselves.
-/
namespace WorkerPool

theorem Pool.exitRequested_requestExit {pool : Pool} {n : Nat} (hn : n < pool.crew.length)
    (k : Nat) : (pool.requestExit n).exitRequested k ↔ pool.exitRequested k ∨ k = n := by
  simp only [exitRequested, requestExit, List.getElem?_modify]
  by_cases hk : n = k
  · subst hk
    simp [hn]
  · simp [hk, Ne.symm hk]

theorem Thread.post_exited {th : Thread} {p : PoolId} {k : Nat} :
    th.post = some ⟨p, k, .exited⟩ ↔ th.role = .worker p k .exited := by
  unfold Thread.post
  cases th.role with
  | caller => simp
  | worker q l phase => cases phase <;> simp [Phase.station]

namespace Pool.Change

variable {s : System} {i : ThreadId} {p : PoolId} {es : List Event} {pool pool' : Pool} {k : Nat}

/-- An order to exit is not taken back. -/
theorem exitRequested (change : Pool.Change s i p es pool pool') (h : pool.exitRequested k) :
    pool'.exitRequested k := by
  cases change with
  | hire j _ => rwa [exitRequested_hire]
  | stop n _ =>
    simp only [Pool.exitRequested, requestExit, List.getElem?_modify] at h ⊢
    cases hm : pool.crew[k]? with
    | none => simp [hm] at h
    | some m => by_cases hn : n = k <;> simp_all
  | claim hq =>
    obtain ⟨queue, -, rfl⟩ := claim?_eq hq
    exact h
  | count n returned => rwa [exitRequested_count]
  | _ => exact h

end Pool.Change

namespace System

variable {s s' : System} {i j : ThreadId} {p q : PoolId} {pool old : Pool} {rest : List Frame}
  {es : List Event} {e : Effect} {h : Trace} {callers k l next total : Nat} {dropping : Bool}
  {a : Action} {st : Station}

theorem orders_eq (hp : s.pools[p]? = some pool) : s.orders p k = pool.exitRequested k := by
  simp [orders, hp]

/-! ### Steps -/

namespace Stops

/-- A shutdown that comes to the next worker tells it to exit, and else nobody. -/
theorem orders (stops : Stops s.pools i p pool next total e) (hp : s.pools[p]? = some old)
    (hk : pool.exitRequested = old.exitRequested) (hlen : total ≤ pool.crew.length) :
    ((∀ k, e.1.orders p k = s.orders p k) ∧ ¬ e.1.Joins i p) ∨
      ∃ dropping rest, e.1.Inside i (.joiningCrew p next total dropping :: rest) ∧
        ∀ k, e.1.orders p k ↔ s.orders p k ∨ k = next := by
  have hlt := (List.getElem?_eq_some_iff.mp hp).1
  cases stops with
  | @waits s' dropping rest hnext hpools hi =>
    have hp' : s'.pools[p]? = some (pool.requestExit next) := by simp [hpools, hlt]
    refine .inr ⟨dropping, rest, hi, fun k => ?_⟩
    rw [orders_eq hp', orders_eq hp, Pool.exitRequested_requestExit (hnext.trans_le hlen), hk]
  | @ends s' _ hpools free =>
    have hp' : s'.pools[p]? = some pool.dismiss := by simp [hpools, hlt]
    refine .inl ⟨fun k => ?_, free.not_joins⟩
    rw [orders_eq hp', orders_eq hp, ← hk]
    rfl

theorem orders_ne (stops : Stops s.pools i q pool next total e) (hpq : p ≠ q) :
    (∀ k, e.1.orders p k = s.orders p k) ∧ ¬ e.1.Joins i p := by
  refine ⟨fun k => ?_, fun joins => hpq (stops.joins joins)⟩
  cases stops with
  | waits _ hpools _ => simp [System.orders, hpools, Ne.symm hpq]
  | ends _ hpools _ => simp [System.orders, hpools, Ne.symm hpq]

end Stops

/-- The worker `k` of the pool has terminated, or the thread is its own. -/
def Departed (s : System) (i : ThreadId) (p : PoolId) (k : Nat) : Prop :=
  ∃ (j : ThreadId) (st : Station), s.posts[j]? = some (some ⟨p, k, st⟩) ∧ (st = .exited ∨ j = i)

/-- What a step does to the orders to exit in one pool. -/
inductive OrderStep (s : System) (i : ThreadId) (p : PoolId) (e : Effect) : Prop
  | same : (∀ k, e.1.orders p k = s.orders p k) → ¬ e.1.Joins i p → OrderStep s i p e
  /-- A shutdown closes the pool and tells the first worker. -/
  | begins {total : Nat} {dropping : Bool} {rest : List Frame} : s.isClosed p = false →
      e.1.Inside i (.joiningCrew p 0 total dropping :: rest) →
      (∀ k, e.1.orders p k ↔ s.orders p k ∨ k = 0) → OrderStep s i p e
  /-- A shutdown that has joined a worker tells the next one. -/
  | goesOn {next total : Nat} {dropping dropping' : Bool} {rest rest' : List Frame} :
      s.Inside i (.joiningCrew p next total dropping :: rest) → s.Departed i p next →
      e.1.Inside i (.joiningCrew p (next + 1) total dropping' :: rest') →
      (∀ k, e.1.orders p k ↔ s.orders p k ∨ k = next + 1) → OrderStep s i p e

theorem Run.total_eq (run : Run callers h s) (hp : s.pools[p]? = some pool)
    (hi : s.Inside i (.joiningCrew p next total dropping :: rest)) : total = pool.crew.length := by
  have joins : s.Joins i p := hi.joins.mpr rfl
  cases run.stage p with
  | running _ idle => exact absurd joins (idle i)
  | stopping hp' _ hi' only _ =>
    obtain rfl := only i joins
    obtain rfl := Option.some.inj (hp.symm.trans hp')
    cases hi.unique hi'
    rfl
  | stopped _ _ idle _ _ => exact absurd joins (idle i)

/-- The worker that a shutdown has joined. -/
theorem Run.departed (run : Run callers h s) (hp : s.pools[p]? = some pool)
    (hj : pool.hands[k]? = some j) (left : s.threads[j]?.any Thread.hasExited ∨ j = i) :
    s.Departed i p k := by
  obtain ⟨st, hpost⟩ := ((run.books.pools p pool hp).crew k j).mp hj
  exact ⟨j, st, hpost, left.imp_left (exited_of_post hpost)⟩

theorem Run.orderStep (run : Run callers h s) (hs : s.step i a = some e) (p : PoolId) :
    s.OrderStep i p e := by
  cases teardownStep_of_step run.calls run.nested hs with
  | @joins q step =>
    by_cases hpq : p = q
    · subst hpq
      obtain ⟨hi, hp, hj, left, stops⟩ := step
      rcases stops.orders hp rfl (run.total_eq hp hi).le with ⟨same, idle⟩ | ⟨_, _, hi', told⟩
      · exact .same same idle
      · exact .goesOn hi (run.departed hp hj (left.imp And.left And.left)) hi' told
    · obtain ⟨_, _, _, _, stops⟩ := step
      exact (stops.orders_ne hpq).elim .same
  | calls _ step =>
    cases step with
    | aloof aloof => exact .same (aloof.same.orders p) aloof.free.not_joins
    | waits _ _ _ _ hpools hi => exact .same (fun k => by simp [orders, hpools]) hi.not_joins
    | @begins q pool _ hp ho _ stops =>
      by_cases hpq : p = q
      · subst hpq
        rcases stops.orders hp rfl le_rfl with ⟨same, idle⟩ | ⟨_, _, hi, told⟩
        · exact .same same idle
        · exact .begins (by simp [isClosed, hp, ho]) hi told
      · exact (stops.orders_ne hpq).elim .same
    | @repeats q pool _ _ hp _ stops =>
      by_cases hpq : p = q
      · subst hpq
        -- There are no workers left that could be told.
        rcases stops.orders hp rfl (Nat.zero_le _) with ⟨same, idle⟩ | ⟨_, _, hi, -⟩
        · exact .same same idle
        · cases stops with
          | waits hlt _ _ => exact absurd hlt (Nat.lt_irrefl 0)
          | ends _ _ free => exact absurd hi (free.not_inside rfl)
      · exact (stops.orders_ne hpq).elim .same

/-! ### Runs -/

/-- Nobody is told to leave an open pool. -/
theorem Books.unordered (books : s.Books) (ho : s.isClosed p = false) (k : Nat) :
    s.orders p k = false := by
  cases hp : s.pools[p]? with
  | none => simp [orders, hp]
  | some pool =>
    rw [orders_eq hp]
    exact (books.pools p pool hp).stays (by simpa [isClosed, hp] using ho) k

/-- A shutdown on the thread joins the worker `k`: it has told the first ones to exit, up to this
one, and those before have departed. -/
structure Ordered (s : System) (i : ThreadId) (p : PoolId) (k : Nat) : Prop where
  told : ∀ l, s.orders p l ↔ l ≤ k
  departed : ∀ l < k, s.Departed i p l

theorem Departed.step (departed : s.Departed i p k) (ms : Moves j s es s') : s'.Departed i p k := by
  obtain ⟨j, st, hj, how⟩ := departed
  obtain ⟨st', hj', exited, -⟩ := ms.station hj
  exact ⟨j, st', hj', how.imp_left exited⟩

/-- Once a step has told another worker, the first ones have been told, and those before have
departed. -/
theorem Run.ordered_step (run : Run callers h s) (hs : s.step i a = some (s', es))
    (ordered : ∀ {i k total dropping rest},
      s.Inside i (.joiningCrew p k total dropping :: rest) → s.Ordered i p k) :
    ((∀ k, s'.orders p k = s.orders p k) ∧ ¬ s'.Joins i p) ∨
      ∃ k total dropping rest, s'.Inside i (.joiningCrew p k total dropping :: rest) ∧
        (∀ l, s.orders p l ↔ l < k) ∧ (∀ l, s'.orders p l ↔ l ≤ k) ∧ ∀ l < k, s.Departed i p l := by
  cases run.orderStep hs p with
  | same same idle => exact .inl ⟨same, idle⟩
  | @begins total dropping rest ho hi told =>
    have none (l : Nat) : s.orders p l = false := run.books.unordered ho l
    refine .inr ⟨0, total, dropping, rest, hi, fun l => by simp [none], fun l => ?_, fun l hl => ?_⟩
    · rw [told, none]
      simp
    · exact absurd hl (Nat.not_lt_zero l)
  | @goesOn next total _ dropping _ rest hi left hi' told =>
    obtain ⟨before, departed⟩ := ordered hi
    refine .inr ⟨next + 1, total, dropping, rest, hi', fun l => ?_, fun l => ?_, fun l hl => ?_⟩
    · rw [before]
      omega
    · rw [told, before]
      omega
    · rcases Nat.lt_succ_iff_lt_or_eq.mp hl with hl | rfl
      · exact departed l hl
      · exact left

theorem Run.ordered (run : Run callers h s)
    (hi : s.Inside i (.joiningCrew p k total dropping :: rest)) : s.Ordered i p k := by
  induction run generalizing i k total dropping rest with
  | start =>
    obtain ⟨th, hth, hc⟩ := hi
    rw [List.eq_of_mem_replicate (List.mem_of_getElem? hth)] at hc
    cases hc
  | @step h s s' j a es run hs ih =>
    have ms := moves_of_step run.calls hs
    rcases run.ordered_step hs ih with ⟨same, idle⟩ | ⟨k', _, _, _, hi', -, told, departed⟩
    · by_cases hij : i = j
      · subst hij
        exact absurd (hi.joins.mpr rfl) idle
      · obtain ⟨rest', hi⟩ := ms.inside_before run.unentered hij hi rfl
        obtain ⟨told, departed⟩ := ih hi
        exact ⟨fun l => by rw [same, told], fun l hl => (departed l hl).step ms⟩
    · obtain rfl : i = j :=
        (run.step hs).single_joiner (hi.joins.mpr rfl) (hi'.joins.mpr rfl)
      cases hi.unique hi'
      exact ⟨told, fun l hl => (departed l hl).step ms⟩

/-! ### Workers that leave -/

theorem Move.orders (m : Move i s es s') (told : s.orders p k) : s'.orders p k := by
  obtain ⟨pool, hp, told⟩ := (Option.any_eq_true _ _).mp told
  obtain ⟨pool', hp', change⟩ := m.pool_change hp
  rw [orders_eq hp']
  exact change.exitRequested told

theorem Moves.orders (ms : Moves i s es s') (told : s.orders p k) : s'.orders p k := by
  induction ms with
  | nil => exact told
  | cons m _ ih => exact ih (m.orders told)

/-- A worker exits in a step of its own, with an order to do so. -/
theorem Moves.exits (ms : Moves i s es s') (hj : s'.posts[j]? = some (some ⟨p, k, .exited⟩)) :
    s.posts[j]? = some (some ⟨p, k, .exited⟩) ∨ j = i ∧ s'.orders p k := by
  induction ms with
  | nil => exact .inl hj
  | cons m ms ih =>
    rcases ih hj with hj | left
    · refine (m.post_change.exits hj).imp_right fun ⟨hji, pool, hp, told⟩ => ⟨hji, ?_⟩
      exact ms.orders (m.orders ((orders_eq hp).trans told))
    · exact .inr left

/-- A worker exits only if it had been told to before. -/
theorem Run.exits (run : Run callers h s) (hs : s.step i a = some (s', es))
    (hj : s'.posts[j]? = some (some ⟨p, k, .exited⟩)) :
    s.posts[j]? = some (some ⟨p, k, .exited⟩) ∨ j = i ∧ s.orders p k := by
  rcases (moves_of_step run.calls hs).exits hj with hj | ⟨rfl, told⟩
  · exact .inl hj
  · right
    refine ⟨rfl, ?_⟩
    rcases run.ordered_step hs run.ordered with ⟨same, -⟩ | ⟨_, _, _, _, ⟨th, hth, hc⟩, -⟩
    · rwa [same] at told
    · -- A worker that has exited is inside no shutdown.
      have seated := (run.step hs).seated th (List.mem_of_getElem? hth)
      have hr : th.role = .worker p k .exited :=
        Thread.post_exited.mp (by simpa [posts, hth] using hj)
      simp [seated.free p k .exited hr rfl] at hc

end System

end WorkerPool
