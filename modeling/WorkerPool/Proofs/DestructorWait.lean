import WorkerPool.Proofs.QuietWait

/-!
Destructors that wait for the pool of their own worker wait for good.

A destructor that runs while a worker lets go of a task goes on at once if the pool is quiescent for
the worker. If it is not, the destructor waits for a wake-up that no worker ever sends, and once the
other work of the pool is over, the pool is stuck.
-/
namespace WorkerPool

/-- Whether the thread is a worker of the pool. -/
def Thread.worksFor (p : PoolId) (th : Thread) : Bool :=
  match th.role with
  | .worker q _ _ => q == p
  | .caller => false

theorem Thread.post_releasing {th : Thread} {p : PoolId} {k : Nat}
    (h : th.post = some ⟨p, k, .releasing⟩) : th.role = .worker p k .releasing := by
  unfold Thread.post at h
  cases hr : th.role with
  | caller => simp [hr] at h
  | worker q k' phase => cases phase <;> simp_all [Phase.station]

namespace System

variable {s s' : System} {i j : ThreadId} {p : PoolId} {a : Action} {es : List Event} {h : Trace}
  {callers : Nat} {pool : Pool} {f : Frame} {rest : List Frame} {woken : Bool}

/-! ### Steps -/

theorem Moves.quietWait_other (books : s.Books) (ms : Moves j s es s') (hij : j ≠ i) :
    s'.quietWait p i = s.quietWait p i := by
  induction ms with
  | nil => rfl
  | cons m _ ih => exact (ih (books.move m)).trans (m.quietWait_other books hij)

theorem Moves.quietWait_own (books : s.Books) (nested : s.Nested) (ms : Moves i s es s')
    (hw : s'.quietWait p i = some woken) :
    (s.quietWait p i = some woken ∧ (s.Unquiet p i → s'.Unquiet p i)) ∨
      (woken = false ∧ s'.Unquiet p i) := by
  induction ms with
  | nil => exact .inl ⟨hw, id⟩
  | cons m _ ih =>
    rcases ih (books.move m) (nested.move m) hw with ⟨hw, keep⟩ | new
    · rcases m.quietWait_own books nested hw with ⟨hw, keep'⟩ | ⟨hfalse, hun⟩
      · exact .inl ⟨hw, keep ∘ keep'⟩
      · exact .inr ⟨hfalse, keep hun⟩
    · exact .inr new

theorem Run.nested (run : Run callers h s) : s.Nested :=
  run.keeps (P := fun _ s => s.Nested)
    (fun th hth f hf => by
      rw [List.eq_of_mem_replicate hth] at hf
      cases hf)
    fun _ nested m => nested.move m

/-- No wake-up reaches a destructor that waits for the pool of its own worker. -/
theorem Run.unwoken (run : Run callers h s) (hw : s.quietWait p i = some woken) :
    woken = false := by
  have all : ∀ i p woken, s.quietWait p i = some woken → woken = false :=
    (run.keeps (P := fun _ s => s.Books ∧ s.Nested ∧
        ∀ i p woken, s.quietWait p i = some woken → woken = false)
      ⟨.start callers, Run.nested .start, fun i p woken hw => by
        obtain ⟨th, hth, hq⟩ := Option.bind_eq_some_iff.mp hw
        rw [List.eq_of_mem_replicate (List.mem_of_getElem? hth)] at hq
        cases hq⟩
      fun {j _ _ _ _} _ ⟨books, nested, all⟩ m => ⟨books.move m, nested.move m,
        fun i p woken hw => by
          by_cases hij : j = i
          · subst hij
            rcases m.quietWait_own books nested hw with ⟨hw, -⟩ | ⟨hfalse, -⟩
            · exact all j p woken hw
            · exact hfalse
          · exact all i p woken ((m.quietWait_other books hij).symm.trans hw)⟩).2.2
  exact all i p woken hw

/-- A thread that waits takes no step. -/
theorem Waits.no_step (waits : s.Waits i p) (a : Action) : s.step i a = none := by
  obtain ⟨th, hth, hq⟩ := Option.bind_eq_some_iff.mp waits
  obtain ⟨huser, hadvance, hfinish, hexpire⟩ := Thread.quietWait_stuck hq
  cases a <;> simp [step, hth, huser, hadvance, hfinish, hexpire]

theorem Waits.step (waits : s.Waits i p) (run : Run callers h s)
    (hs : s.step j a = some (s', es)) : s'.Waits i p := by
  by_cases hij : j = i
  · subst hij
    rw [waits.no_step] at hs
    cases hs
  · exact ((moves_of_step run.calls hs).quietWait_other run.books hij).trans waits

/-- Nothing ends the wait. -/
theorem Waits.later (waits : s.Waits i p) (run : Run callers h s) (later : Later s s') :
    s'.Waits i p := by
  induction later with
  | refl => exact waits
  | step later hs ih =>
    obtain ⟨h', run'⟩ := run.later later
    exact ih.step run' hs

theorem Waits.begins (run : Run callers h s) (hs : s.step j a = some (s', es))
    (before : ¬ s.Waits i p) (waits : s'.Waits i p) : j = i ∧ s'.Unquiet p i := by
  have ms := moves_of_step run.calls hs
  by_cases hij : j = i
  · subst hij
    have new := ms.quietWait_own run.books run.nested waits
    exact ⟨rfl, (new.resolve_left fun h => before h.1).2⟩
  · exact absurd ((ms.quietWait_other run.books hij).symm.trans waits) before

/-! ### Calls -/

theorem enter_waits {f' : Frame} (has : s.Has i p .releasing) :
    (s.enter i f').Waits i p ↔ f'.quietWait p = some false := by
  obtain ⟨th, k, hth, hr⟩ := has
  have henter : (s.enter i f').threads[i]? = some (th.replace f') := by
    simp [enter, getElem?_onThread, hth]
  have hq : (th.replace f').quietWait p = f'.quietWait p := Thread.quietWait_eq (k := k) hr rfl
  unfold Waits
  rw [quietWait_of_thread henter, hq]

theorem reply_waits (nested : s.Nested) (hi : s.Inside i (f :: rest)) (r : Reply) :
    ¬ (s.reply i r).1.Waits i p := by
  have := nested.quietWait_pop (p := p) hi
  simp [Waits, reply, this]

theorem endShutdown_waits (pool : Pool) (failure : Option PoolError) (dropping : Bool)
    (nested : s.Nested) (hi : s.Inside i (f :: rest)) :
    ¬ (s.endShutdown i p pool failure dropping).1.Waits i p := by
  unfold endShutdown
  split
  · exact reply_waits nested hi _
  · exact reply_waits nested hi _
  · exact reply_waits nested hi .done

theorem stopNext_waits (next total : Nat) (dropping : Bool) (nested : s.Nested)
    (hi : s.Inside i (f :: rest)) (hf : f.isBare) :
    ¬ (s.stopNext i p pool next total dropping).1.Waits i p := by
  unfold stopNext
  split
  · have hi' : (s.setPool p (pool.requestExit next)).Inside i (f :: rest) := hi
    obtain ⟨f', rest', hi', -⟩ := hi'.wakeAll hf (.workAvailable p)
    have calm := quietWait_inside (p := p) (f := .joiningCrew p next total dropping) hi'.enter rfl
    simp [Waits, calm]
  · have hi' : (s.setPool p pool.dismiss).Inside i (f :: rest) := hi
    have nested' : (s.setPool p pool.dismiss).Nested := nested
    exact endShutdown_waits pool none dropping nested' hi'

theorem waitIdle_waits (pool : Pool) (dropping : Bool) (nested : s.Nested)
    (has : s.Has i p .releasing) (hi : s.Inside i (f :: rest)) :
    (s.waitIdle i p pool dropping).1.Waits i p ↔ pool.isQuiescentFor i = false := by
  unfold waitIdle
  split
  · next hquiet =>
    simp only [hquiet, Bool.true_eq_false, iff_false]
    split
    · rw [enter_waits has]
      simp [Frame.quietWait]
    · exact reply_waits nested hi _
  · next hquiet =>
    rw [enter_waits has]
    simp [Frame.quietWait, hquiet]

theorem resumeShutdown_waits (pool : Pool) (dropping : Bool) (nested : s.Nested)
    (has : s.Has i p .releasing) (hi : s.Inside i (f :: rest)) (hf : f.isBare) :
    (s.resumeShutdown i p pool dropping).1.Waits i p ↔
      pool.isSettled ∧ pool.isQuiescentFor i = false := by
  unfold resumeShutdown
  split
  · next hwait =>
    rw [enter_waits has]
    simpa [Frame.quietWait] using hwait
  · next hwait =>
    have hgo : ¬ (pool.isSettled ∧ pool.isQuiescentFor i = false) := by simpa using hwait
    simp only [hgo, iff_false]
    unfold decideShutdown
    split
    · exact stopNext_waits _ _ _ nested hi hf
    · exact endShutdown_waits _ _ _ nested hi

theorem shutdown_waits (pool : Pool) (dropping : Bool) (nested : s.Nested)
    (has : s.Has i p .releasing) (hi : s.Inside i (f :: rest)) (hf : f.isBare) :
    (s.shutdown i p pool dropping).1.Waits i p ↔
      pool.closed = false ∧ pool.isSettled ∧ pool.isQuiescentFor i = false := by
  unfold shutdown
  split
  · next hc =>
    simp only [hc, Bool.true_eq_false, false_and, iff_false]
    exact endShutdown_waits _ _ _ nested hi
  · next hc =>
    rw [resumeShutdown_waits _ _ nested has hi hf]
    simp [hc]

theorem dropPool_waits (pool : Pool) (nested : s.Nested) (has : s.Has i p .releasing)
    (hi : s.Inside i (f :: rest)) :
    (s.dropPool i p pool).1.Waits i p ↔
      pool.closed = false ∧ pool.isQuiescentFor i = false := by
  have has' : (s.setPool p { pool with handle := false }).Has i p .releasing := has
  have hi' : (s.setPool p { pool with handle := false }).Inside i (f :: rest) := hi
  have nested' : (s.setPool p { pool with handle := false }).Nested := nested
  simp only [dropPool]
  split
  · next hc =>
    have hc : pool.closed := hc
    simp only [hc, Bool.true_eq_false, false_and, iff_false]
    exact reply_waits nested' hi' .done
  · next hc =>
    have hc : pool.closed = false := by simpa using hc
    rw [waitIdle_waits _ _ nested' has' hi']
    simp only [hc, true_and]
    rfl

/-- What a call of a worker that lets go of a task begins with. -/
theorem Has.call {op : Operation} {pick : Pick} (has : s.Has i p .releasing) (nested : s.Nested)
    (hs : s.step i (.call op pick) = some (s', es)) : ∃ rest,
      (s.inCall i).Inside i (.disposing [] none false :: rest) ∧ (s.inCall i).Nested ∧
      (s.inCall i).Has i p .releasing ∧ s.call? i op pick = some (s', es) := by
  obtain ⟨th, k, hth, hr⟩ := has
  obtain ⟨hu, hcall⟩ : th.inUserCode ∧ s.call? i op pick = some (s', es) := by
    simpa [step, hth] using hs
  refine ⟨th.calls, .inCall hth, nested.move (.call hth hu), ?_, hcall⟩
  exact ⟨th.push (.disposing [] none false), k, by simp [inCall, getElem?_onThread, hth], hr⟩

theorem Has.waitIdle {pick : Pick} (has : s.Has i p .releasing) (nested : s.Nested)
    (hp : s.pools[p]? = some pool) (hs : s.step i (.call (.waitIdle p) pick) = some (s', es)) :
    s'.Waits i p ↔ pool.isQuiescentFor i = false := by
  obtain ⟨rest, hi, nested, has, hcall⟩ := has.call nested hs
  simp only [call?, hp, Option.bind_eq_bind, Option.bind_some, Option.ite_none_right_eq_some,
    Option.some.injEq] at hcall
  rw [← waitIdle_waits pool false nested has hi, inCall, hcall.2]

theorem Has.shutdown {pick : Pick} (has : s.Has i p .releasing) (nested : s.Nested)
    (hp : s.pools[p]? = some pool) (hs : s.step i (.call (.shutdown p) pick) = some (s', es)) :
    s'.Waits i p ↔ pool.closed = false ∧ pool.isSettled ∧ pool.isQuiescentFor i = false := by
  obtain ⟨rest, hi, nested, has, hcall⟩ := has.call nested hs
  simp only [call?, hp, Option.bind_eq_bind, Option.bind_some, Option.ite_none_right_eq_some,
    Option.some.injEq] at hcall
  rw [← shutdown_waits pool false nested has hi rfl, inCall, hcall.2]

theorem Has.dropPool {pick : Pick} (has : s.Has i p .releasing) (nested : s.Nested)
    (hp : s.pools[p]? = some pool) (hs : s.step i (.call (.dropPool p) pick) = some (s', es)) :
    s'.Waits i p ↔ pool.closed = false ∧ pool.isQuiescentFor i = false := by
  obtain ⟨rest, hi, nested, has, hcall⟩ := has.call nested hs
  simp only [call?, hp, Option.bind_eq_bind, Option.bind_some, Option.ite_none_right_eq_some,
    Option.some.injEq] at hcall
  rw [← dropPool_waits pool nested has hi, inCall, hcall.2]

/-- Dropping a pool goes on to shut it down. -/
theorem Has.closing {pick : Pick} {dropping : Bool} (has : s.Has i p .releasing)
    (nested : s.Nested) (hp : s.pools[p]? = some pool)
    (hi : s.Inside i (.closing p dropping :: rest))
    (hs : s.step i (.advance pick) = some (s', es)) :
    s'.Waits i p ↔ pool.closed = false ∧ pool.isSettled ∧ pool.isQuiescentFor i = false := by
  have waits := shutdown_waits pool dropping nested has hi rfl
  obtain ⟨th, hth, hc⟩ := hi
  obtain hshut : s.shutdown i p pool dropping = (s', es) := by
    simpa [step, hth, advance?, hc, hp] using hs
  rw [← waits, hshut]

/-- The pool lists its workers that let go of a task. -/
theorem Books.mem_releasing (books : s.Books) (hp : s.pools[p]? = some pool) :
    j ∈ pool.releasing ↔ s.Has j p .releasing := by
  rw [(books.pools p pool hp).releasing]
  constructor
  · rintro ⟨k, hk⟩
    simp only [posts, List.getElem?_map, Option.map_eq_some_iff] at hk
    obtain ⟨th, hth, hpost⟩ := hk
    exact ⟨th, k, hth, Thread.post_releasing hpost⟩
  · rintro ⟨th, k, hth, hr⟩
    exact ⟨k, by simp [posts, hth, Thread.post, hr, Phase.station]⟩

/-- What stands in the way of quiescence: work that is left, or another worker in destructors. -/
theorem Books.unquiet (books : s.Books) (hp : s.pools[p]? = some pool) :
    pool.isQuiescentFor i = false ↔
      pool.queue.isEmpty = false ∨ pool.runningCount ≠ 0 ∨ ∃ j, j ≠ i ∧ s.Has j p .releasing := by
  have balanced := books.pools p pool hp
  have hidle : pool.runningCount = 0 → pool.idleCount = pool.threadCount := by
    have := balanced.total
    omega
  have hothers : pool.releasing.all (· == i) = false ↔ ∃ j, j ≠ i ∧ s.Has j p .releasing := by
    simp [books.mem_releasing hp, and_comm]
  rw [← hothers]
  by_cases hrun : pool.runningCount = 0
  · simp only [Pool.isQuiescentFor, Pool.isSettled, hrun, hidle hrun, beq_self_eq_true,
      Bool.and_true, Bool.and_eq_false_iff, ne_eq, not_true_eq_false, false_or]
  · simp [Pool.isQuiescentFor, Pool.isSettled, hrun]

/-! ### The pool -/

/-- Nothing is queued and nothing runs, and every worker of the pool sleeps or waits, in a
destructor, for the pool to become quiescent. -/
structure AtRest (s : System) (p : PoolId) : Prop where
  drained : ∃ pool, s.pools[p]? = some pool ∧ pool.queue.isEmpty ∧ pool.runningCount = 0
  workers : ∀ th ∈ s.threads, th.worksFor p → th.sleepsIn p ∨ (th.quietWait p).isSome

/-- A pool at rest whose destructors that wait for it have got no wake-up. -/
structure Stuck (s : System) (p : PoolId) : Prop where
  rest : s.AtRest p
  waiting : ∃ i, (s.quietWait p i).isSome
  unwoken : ∀ i, s.quietWait p i ≠ some true

/-- When destructors wait for the pool of the worker they run on, and what becomes of it. -/
structure OwnPoolWaits (s : System) (p : PoolId) : Prop where
  stuck : s.Stuck p ↔ s.AtRest p ∧ ∃ i, (s.quietWait p i).isSome
  blocked : ∀ {i a}, s.Waits i p → s.step i a = none
  forever : ∀ {i s'}, s.Waits i p → Later s s' → s'.Waits i p
  /-- Once a destructor waits, the pool is stuck whenever its other work is over. -/
  stays : ∀ {i s'}, s.Waits i p → Later s s' → s'.AtRest p → s'.Stuck p
  begins : ∀ {i j a es s'}, s.step j a = some (s', es) → ¬ s.Waits i p → s'.Waits i p →
    j = i ∧ s'.Unquiet p i
  unquiet : ∀ {i pool}, s.pools[p]? = some pool → (pool.isQuiescentFor i = false ↔
    pool.queue.isEmpty = false ∨ pool.runningCount ≠ 0 ∨ ∃ j, j ≠ i ∧ s.Has j p .releasing)
  wait_idle : ∀ {i pick es s' pool}, s.Has i p .releasing → s.pools[p]? = some pool →
    s.step i (.call (.waitIdle p) pick) = some (s', es) →
    (s'.Waits i p ↔ pool.isQuiescentFor i = false)
  shutdown : ∀ {i pick es s' pool}, s.Has i p .releasing → s.pools[p]? = some pool →
    s.step i (.call (.shutdown p) pick) = some (s', es) →
    (s'.Waits i p ↔ pool.closed = false ∧ pool.isSettled ∧ pool.isQuiescentFor i = false)
  drop_pool : ∀ {i pick es s' pool}, s.Has i p .releasing → s.pools[p]? = some pool →
    s.step i (.call (.dropPool p) pick) = some (s', es) →
    (s'.Waits i p ↔ pool.closed = false ∧ pool.isQuiescentFor i = false)
  closing : ∀ {i pick es s' pool dropping rest}, s.Has i p .releasing →
    s.pools[p]? = some pool → s.Inside i (.closing p dropping :: rest) →
    s.step i (.advance pick) = some (s', es) →
    (s'.Waits i p ↔ pool.closed = false ∧ pool.isSettled ∧ pool.isQuiescentFor i = false)

theorem AtRest.stuck (rest : s.AtRest p) (run : Run callers h s)
    (waiting : ∃ i, (s.quietWait p i).isSome) : s.Stuck p := by
  refine ⟨rest, waiting, fun i hw => ?_⟩
  cases run.unwoken hw

theorem Run.own_pool_waits (run : Run callers h s) (p : PoolId) : s.OwnPoolWaits p where
  stuck := by
    constructor
    · intro stuck
      exact ⟨stuck.rest, stuck.waiting⟩
    · rintro ⟨rest, waiting⟩
      exact rest.stuck run waiting
  blocked waits := waits.no_step _
  forever waits later := waits.later run later
  stays waits later rest := by
    obtain ⟨h', run'⟩ := run.later later
    have waits' := waits.later run later
    exact rest.stuck run' ⟨_, Option.isSome_of_eq_some waits'⟩
  begins hs before waits := waits.begins run hs before
  unquiet hp := run.books.unquiet hp
  wait_idle has hp hs := has.waitIdle run.nested hp hs
  shutdown has hp hs := has.shutdown run.nested hp hs
  drop_pool has hp hs := has.dropPool run.nested hp hs
  closing has hp hi hs := has.closing run.nested hp hi hs

/-- Two workers of one pool run a task each. The first task is detached, and its destructor drops
the pool while the second one runs. -/
def selfDrop : List (ThreadId × Action) :=
  let call (op : Operation) : ThreadId × Action := (0, .call op 0)
  let go (i : ThreadId) (n : Nat) := List.replicate n (i, Action.advance 0)
  [call (.createPool (.new 2)), call (.createTask none), call (.createTask none),
    call (.submit 0 0)] ++ go 1 1 ++ go 0 1 ++ go 1 2 ++
  [call (.submit 0 1)] ++ go 2 1 ++ go 0 1 ++ go 2 2 ++
  [call (.detach 0)] ++ go 0 4 ++
  [(1, .finish (.ok .null))] ++ go 1 5 ++
  [(1, .call (.dropPool 0) 0)] ++
  [(2, .finish (.ok .null))] ++ go 2 6

/-- The worker of the second task goes to sleep without waking the destructor. -/
theorem stuck_selfDrop : ∃ h s, Run 1 h s ∧ s.Stuck 0 := by
  have run : Run 1 _ _ := run_of_replay selfDrop rfl
  refine ⟨_, _, run, ⟨⟨_, rfl, rfl, rfl⟩, by decide⟩, ⟨1, rfl⟩, fun i hw => ?_⟩
  cases run.unwoken hw

theorem own_pool_waits_selfDrop : ∃ h s, Run 1 h s ∧ s.Waits 1 0 ∧ s.OwnPoolWaits 0 := by
  have run : Run 1 _ _ := run_of_replay selfDrop rfl
  exact ⟨_, _, run, rfl, run.own_pool_waits 0⟩

end System

end WorkerPool
