import Mathlib.Algebra.BigOperators.Ring.Finset
import WorkerPool.Proofs.ShutdownWait
import WorkerPool.Proofs.Teardown

/-!
How often a pool is torn down.

The shutdown that closes a pool takes its workers and tells how many they were once all of them have
terminated. A shutdown that waits for destructors at that moment does not look again whether the
pool is closed: it comes to the same end, with no workers to join. So the shutdowns that have told
and those that have yet to tell are the one that closed the pool and those that waited then.
-/
namespace WorkerPool

/-- The number of workers that the event says a shutdown of the pool has joined. -/
def Event.teardown? (p : PoolId) : Event → Option Nat
  | .log (.closed q _ n) => if q = p then some n else none
  | _ => none

namespace Trace

def teardowns (h : Trace) (p : PoolId) : List Nat := h.filterMap fun e => e.2.teardown? p

theorem teardowns_append {h : Trace} {i : ThreadId} {es : List Event} {p : PoolId} :
    Trace.teardowns (h ++ es.map (i, ·)) p = h.teardowns p ++ es.filterMap (·.teardown? p) := by
  simp [teardowns, List.filterMap_map]

end Trace

theorem Pool.teardown?_farewell {p q : PoolId} {pool : Pool} {total : Nat} :
    (pool.farewell q total).filterMap (·.teardown? p) = if q = p then [total] else [] := by
  by_cases h : q = p <;> simp [Pool.farewell, Event.teardown?, h]

namespace Frame

/-- What a shutdown of the pool has yet to tell, weighed. Who waits for destructors has no workers
to join. -/
def toll (w : Nat → Nat) (p : PoolId) : Frame → Nat
  | awaitingReleases q _ _ => if q = p then w 0 else 0
  | joiningCrew q _ total _ => if q = p then w total else 0
  | _ => 0

/-- A shutdown of the pool waits for destructors. -/
def awaits (p : PoolId) : Frame → Nat
  | awaitingReleases q _ _ => if q = p then 1 else 0
  | _ => 0

/-- A weight that tells parts of shutdowns that wait, whatever wake-ups have been delivered. -/
structure IsTeardownWeight (g : Frame → Nat) : Prop where
  wake : ∀ c f, g (f.wake c) = g f
  calm : ∀ f, f.isTeardown = false → g f = 0

theorem isTeardownWeight_toll (w : Nat → Nat) (p : PoolId) : IsTeardownWeight (toll w p) where
  wake c f := by cases f <;> rfl
  calm f hf := by cases f <;> simp_all [toll, isTeardown]

theorem isTeardownWeight_awaits (p : PoolId) : IsTeardownWeight (awaits p) where
  wake c f := by cases f <;> rfl
  calm f hf := by cases f <;> simp_all [awaits, isTeardown]

end Frame

theorem Thread.Woken.weigh {th th' : Thread} {g : Frame → Nat}
    (hg : ∀ c f, g (f.wake c) = g f) (woken : th.Woken th') : th'.weigh g = th.weigh g := by
  induction woken with
  | refl => rfl
  | wake c _ ih => rw [Thread.wakeFree_weigh hg, ih]

namespace System

variable {s s' s₁ : System} {i : ThreadId} {p q : PoolId} {pool : Pool} {f : Frame}
  {calls rest : List Frame} {es : List Event} {e : Effect} {h : Trace} {callers : Nat}
  {dropping woken : Bool} {a : Action} {th : Thread} {g : Frame → Nat} {w : Nat → Nat}
  {next total : Nat} {pick : Pick}

/-! ### The weight of one thread -/

/-- The frames of one thread, weighed. -/
def load (s : System) (g : Frame → Nat) (i : ThreadId) : Nat :=
  (s.threads[i]?.map (Thread.weigh g)).getD 0

theorem sum_getElem?_range {α : Type} (v : α → Nat) (l : List α) {n : Nat} (hn : l.length ≤ n) :
    ∑ j ∈ Finset.range n, (l[j]?.map v).getD 0 = (l.map v).sum := by
  induction l generalizing n with
  | nil => simp
  | cons a l ih =>
    obtain ⟨m, rfl⟩ : ∃ m, n = m + 1 := ⟨n - 1, by simp at hn; omega⟩
    rw [Finset.sum_range_succ']
    simp only [List.getElem?_cons_succ, List.getElem?_cons_zero]
    rw [ih (by simpa using hn)]
    simp [Nat.add_comm]

theorem weight_eq_sum {n : Nat} (hn : s.threads.length ≤ n) :
    s.weight g = ∑ j ∈ Finset.range n, s.load g j :=
  (sum_getElem?_range (Thread.weigh g) s.threads hn).symm

/-- The steps of a thread change its own load only. -/
theorem Moves.load (ms : Moves i s es s') (un : s.Unentered) (hg : ∀ c f, g (f.wake c) = g f)
    {j : ThreadId} (hj : j ≠ i) : s'.load g j = s.load g j := by
  unfold System.load
  cases hth : s.threads[j]? with
  | some th =>
    obtain ⟨th', hth', woken⟩ := ms.spares j th hj hth
    simp [hth', woken.weigh hg]
  | none =>
    cases hth' : s'.threads[j]? with
    | none => rfl
    | some th' =>
      have hc : th'.calls = [] := by
        by_contra hc
        obtain ⟨th, hth₀, -⟩ := ms.before un hj hth' hc
        cases hth.symm.trans hth₀
      simp [Thread.weigh, hc]

theorem Moves.weight (ms : Moves i s es s') (un : s.Unentered)
    (hg : ∀ c f, g (f.wake c) = g f) : s'.weight g + s.load g i = s.weight g + s'.load g i := by
  let n := max s.threads.length s'.threads.length + i + 1
  have hi : i ∈ Finset.range n := Finset.mem_range.mpr (by omega)
  have others : ∑ j ∈ (Finset.range n).erase i, s'.load g j =
      ∑ j ∈ (Finset.range n).erase i, s.load g j :=
    Finset.sum_congr rfl fun j hj => ms.load un hg (Finset.ne_of_mem_erase hj)
  have before := Finset.add_sum_erase (Finset.range n) (s.load g) hi
  have after := Finset.add_sum_erase (Finset.range n) (s'.load g) hi
  rw [weight_eq_sum (s := s) (n := n) (by omega), weight_eq_sum (s := s') (n := n) (by omega)]
  omega

theorem Inside.load (hg : Frame.IsTeardownWeight g) (nested : s.Nested)
    (hi : s.Inside i (f :: rest)) : s.load g i = g f := by
  obtain ⟨th, hth, hc⟩ := hi
  have outer : ∀ f ∈ rest, g f = 0 := fun f hf => hg.calm f
    (Frame.isTeardown_of_isOuter (nested th (List.mem_of_getElem? hth) f (by simp [hc, hf])))
  have hrest : (rest.map g).sum = 0 := by simpa [List.sum_eq_zero_iff] using outer
  simp [System.load, hth, Thread.weigh, hc, hrest]

theorem Free.load (hg : Frame.IsTeardownWeight g) (free : s.Free i) : s.load g i = 0 := by
  unfold System.load
  cases hth : s.threads[i]? with
  | none => rfl
  | some th =>
    have hz : ∀ f ∈ th.calls, g f = 0 := fun f hf => hg.calm f (free th hth f hf)
    simpa [Thread.weigh, List.sum_eq_zero_iff] using hz

/-- A thread that joins no workers may be waiting for destructors at most. -/
theorem load_toll (nested : s.Nested) (hj : ¬ s.Joins i p) :
    s.load (Frame.toll w p) i = w 0 * s.load (Frame.awaits p) i := by
  cases hth : s.threads[i]? with
  | none => simp [System.load, hth]
  | some th =>
    cases hc : th.calls with
    | nil => simp [System.load, hth, Thread.weigh, hc]
    | cons f rest =>
      have hi : s.Inside i (f :: rest) := ⟨th, hth, hc⟩
      rw [hi.load (Frame.isTeardownWeight_toll w p) nested,
        hi.load (Frame.isTeardownWeight_awaits p) nested]
      cases f with
      | awaitingReleases q dropping woken =>
        by_cases hq : q = p <;> simp [Frame.toll, Frame.awaits, hq]
      | joiningCrew q next total dropping =>
        have hq : q ≠ p := fun hq => hj (hi.joins.mpr hq.symm)
        simp [Frame.toll, Frame.awaits, hq]
      | _ => rfl

theorem load_awaits (nested : s.Nested) (ha : ¬ s.Awaits i p) :
    s.load (Frame.awaits p) i = 0 := by
  cases hth : s.threads[i]? with
  | none => simp [System.load, hth]
  | some th =>
    cases hc : th.calls with
    | nil => simp [System.load, hth, Thread.weigh, hc]
    | cons f rest =>
      have hi : s.Inside i (f :: rest) := ⟨th, hth, hc⟩
      rw [hi.load (Frame.isTeardownWeight_awaits p) nested]
      cases f with
      | awaitingReleases q dropping woken =>
        have hq : q ≠ p := fun hq => ha ⟨dropping, woken, rest, hq ▸ hi⟩
        simp [Frame.awaits, hq]
      | _ => rfl

/-! ### Steps -/

/-- A shutdown tells how many workers it has joined, or will do so. -/
theorem Stops.toll {pools : List Pool} (stops : Stops pools i q pool next total e)
    (nested : e.1.Nested) : ((e.2.filterMap (·.teardown? p)).map w).sum +
      e.1.load (Frame.toll w p) i = if q = p then w total else 0 := by
  cases stops with
  | waits _ _ hi =>
    rw [hi.load (Frame.isTeardownWeight_toll w p) nested]
    simp [Frame.toll]
  | ends _ _ free =>
    rw [free.load (Frame.isTeardownWeight_toll w p), Pool.teardown?_farewell]
    by_cases hq : q = p <;> simp [hq]

theorem Stops.told_ne {pools : List Pool} (stops : Stops pools i q pool next total e)
    (hq : q ≠ p) : e.2.filterMap (·.teardown? p) = [] := by
  cases stops with
  | waits _ _ _ => rfl
  | ends _ _ _ => rw [Pool.teardown?_farewell, if_neg hq]

theorem filterMap_teardown?_quiet (quiet : es.all (!·.isTeardown)) :
    es.filterMap (·.teardown? p) = [] := by
  refine List.filterMap_eq_nil_iff.mpr fun e he => ?_
  have := List.all_eq_true.mp quiet e he
  cases e with
  | log r => cases r <;> simp_all [Event.isTeardown, Event.teardown?]
  | _ => rfl

/-- Who comes back from waiting for destructors to a closed pool waits again or comes to the end of
the shutdown, with no workers to join. -/
theorem Run.resume_closed (run : Run callers h s)
    (hi : s.Inside i (.awaitingReleases p dropping woken :: rest)) (hp : s.pools[p]? = some pool)
    (hc : pool.closed) (hs : s.step i a = some (s', es)) :
    pool.isQuiescentFor i = false ∧ s' = s.enter i (.awaitingReleases p dropping false) ∧ es = [] ∨
      pool.isQuiescentFor i ∧ s' = (s.setPool p pool.dismiss).onThread i Thread.pop ∧
        es = pool.farewell p 0 := by
  obtain ⟨pool', hp', he⟩ := hi.resumes hs
  obtain rfl : pool = pool' := Option.some.inj (hp.symm.trans hp')
  have calm := (run.books.pools p pool hp).calm hc
  have settled : pool.isSettled :=
    (run.books.isSettled hp).mpr ⟨by simp [PendingQueue.isEmpty, calm.2], calm.1⟩
  rw [resumeShutdown_settled settled] at he
  cases hq : pool.isQuiescentFor i with
  | false =>
    rw [hq, if_neg Bool.false_ne_true] at he
    cases he
    exact .inl ⟨rfl, rfl, rfl⟩
  | true =>
    have hsize : pool.rosterSize = 0 := by simp [Pool.rosterSize, hc]
    rw [hq, if_pos rfl, hsize, Pool.close_of_closed hc, stopNext, if_neg (Nat.lt_irrefl 0)] at he
    cases he
    exact .inr ⟨rfl, rfl, rfl⟩

/-- On a closed pool, what a step tells of the teardown is what its thread had yet to tell. -/
theorem Run.toll_closed (run : Run callers h s) (hs : s.step i a = some (s', es))
    (hc : s.isClosed p) : ((es.filterMap (·.teardown? p)).map w).sum +
      s'.load (Frame.toll w p) i = s.load (Frame.toll w p) i := by
  have toll := Frame.isTeardownWeight_toll w p
  have nested' := (run.step hs).nested
  obtain ⟨pool, hp, hclosed⟩ := (Option.any_eq_true _ _).mp hc
  by_cases ha : s.Awaits i p
  · obtain ⟨dropping, woken, rest, hi⟩ := ha
    rcases run.resume_closed hi hp hclosed hs with ⟨-, rfl, rfl⟩ | ⟨-, rfl, rfl⟩
    · have hi' : (s.enter i (.awaitingReleases p dropping false)).Inside i _ := hi.enter
      rw [hi.load toll run.nested, hi'.load toll nested']
      simp [Frame.toll]
    · have free : ((s.setPool p pool.dismiss).onThread i Thread.pop).Free i :=
        free_pop (s := s.setPool p pool.dismiss) run.nested
      rw [hi.load toll run.nested, free.load toll, Pool.teardown?_farewell]
      simp [Frame.toll]
  · cases teardownStep_of_step run.calls run.nested hs with
    | @joins q step =>
      obtain ⟨hi, hq, -, how, stops⟩ := step
      have told := stops.toll (p := p) (w := w) nested'
      rw [hi.load toll run.nested]
      rcases how with ⟨-, rfl⟩ | ⟨-, rfl⟩
      · exact told
      · exact told
    | calls idle step =>
      have hzero : s.load (Frame.toll w p) i = 0 := by
        rw [load_toll run.nested (idle p), load_awaits run.nested ha, Nat.mul_zero]
      rw [hzero]
      cases step with
      | aloof h =>
        have free := h.free.load toll
        simp [filterMap_teardown?_quiet h.quiet, free]
      | @waits _ q pool' _ _ hq _ _ hwait _ hi =>
        have hne : q ≠ p := by
          rintro rfl
          obtain rfl : pool = pool' := Option.some.inj (hp.symm.trans hq)
          exact ha (hwait hclosed)
        rw [hi.load toll nested']
        simp [Frame.toll, hne]
      | @begins q pool' _ hq ho _ stops =>
        have hne : q ≠ p := by
          rintro rfl
          obtain rfl : pool = pool' := Option.some.inj (hp.symm.trans hq)
          simp [hclosed] at ho
        rw [stops.toll nested', if_neg hne]
      | @repeats q _ _ hwait _ _ stops =>
        have hne : q ≠ p := fun hqp => ha (hqp ▸ hwait)
        rw [stops.toll nested', if_neg hne]

/-- A closed pool stays closed and gets no workers. -/
theorem Run.stays_closed (run : Run callers h s) (hs : s.step i a = some (s', es))
    (hc : s.isClosed p) : s'.isClosed p ∧ s'.size p = s.size p := by
  obtain ⟨pool, hp, hclosed⟩ := (Option.any_eq_true _ _).mp hc
  obtain ⟨pool', hp', hclosed', hlen, -⟩ := (moves_of_step run.calls hs).closed hp hclosed
  exact ⟨isClosed_of_pool hp' hclosed', by simp [size, hp, hp', hlen]⟩

/-- Nobody tells of a teardown while the pool is open. -/
theorem Run.told_open (run : Run callers h s) (hs : s.step i a = some (s', es))
    (ho : s'.isClosed p = false) : es.filterMap (·.teardown? p) = [] := by
  have hopen {q : PoolId} (hc : s.isClosed q) : q ≠ p := by
    rintro rfl
    simp [(run.stays_closed hs hc).1] at ho
  cases teardownStep_of_step run.calls run.nested hs with
  | @joins q step =>
    obtain ⟨hi, -, -, how, stops⟩ := step
    have told := stops.told_ne (hopen (run.calls.relies.inside hi))
    rcases how with ⟨-, rfl⟩ | ⟨-, rfl⟩
    · exact told
    · exact told
  | calls _ step =>
    cases step with
    | aloof h => exact filterMap_teardown?_quiet h.quiet
    | waits _ _ _ _ _ _ => rfl
    | @begins q pool _ hq _ _ stops =>
      refine stops.told_ne fun hqp => ?_
      obtain ⟨new, hnew, hclosed, -⟩ := stops.pool_eq hq rfl
      have hc : s'.isClosed q := isClosed_of_pool hnew hclosed
      simp [hqp ▸ hc] at ho
    | repeats _ hq hc stops => exact stops.told_ne (hopen (isClosed_of_pool hq hc))

/-- The step that closes a pool takes all of its workers. -/
theorem Run.closing (run : Run callers h s) (hs : s.step i a = some e)
    (ho : s.isClosed p = false) (hc : e.1.isClosed p) : ∃ pool, s.pools[p]? = some pool ∧
      Stops s.pools i p pool.close 0 pool.crew.length e := by
  cases crewStep_of_step run.calls run.nested hs p with
  | apart _ _ hsame => simp [hsame, ho] at hc
  | begins _ hp _ stops => exact ⟨_, hp, stops⟩
  | joined step =>
    obtain ⟨hi, _, _, _, _⟩ := step
    have hclosed : s.isClosed p := run.calls.relies.inside hi
    simp [ho] at hclosed

/-- When a pool is closed, the workers taken are yet to be told of, and so is the end of every
shutdown that waits for destructors. -/
theorem Run.toll_closing (run : Run callers h s) (hs : s.step i a = some (s', es))
    (ho : s.isClosed p = false) (hc : s'.isClosed p) :
    ((es.filterMap (·.teardown? p)).map w).sum + s'.weight (Frame.toll w p) =
      w (s'.size p) + w 0 * s'.weight (Frame.awaits p) := by
  have ms := moves_of_step run.calls hs
  have nested' := (run.step hs).nested
  have idle (j : ThreadId) : ¬ s.Joins j p := by
    rintro ⟨next, total, dropping, rest, hi⟩
    have hclosed : s.isClosed p := run.calls.relies.inside hi
    simp [ho] at hclosed
  obtain ⟨pool, hp, stops⟩ := run.closing hs ho hc
  obtain ⟨new, hnew, -, hlen⟩ := stops.pool_eq hp rfl
  have hsize : s'.size p = pool.crew.length := by
    have hnew : s'.pools[p]? = some new := hnew
    simp [size, hnew, hlen, Pool.close]
  have told : ((es.filterMap (·.teardown? p)).map w).sum + s'.load (Frame.toll w p) i =
      w pool.crew.length := (stops.toll nested').trans (if_pos rfl)
  have before : s.weight (Frame.toll w p) = w 0 * s.weight (Frame.awaits p) := by
    rw [weight_eq_sum le_rfl, weight_eq_sum le_rfl, Finset.mul_sum]
    exact Finset.sum_congr rfl fun j _ => load_toll run.nested (idle j)
  have after : s'.load (Frame.awaits p) i = 0 := load_awaits nested' stops.not_awaits
  have tolls := ms.weight run.unentered (Frame.isTeardownWeight_toll w p).wake
  have waits := ms.weight run.unentered (Frame.isTeardownWeight_awaits p).wake
  rw [load_toll run.nested (idle i), before] at tolls
  rw [after, Nat.add_zero] at waits
  have scaled := congrArg (w 0 * ·) waits
  simp only [Nat.mul_add] at scaled
  rw [hsize]
  omega

/-! ### Runs -/

/-- The step that closed the pool has led to the state `s₁`. -/
inductive ClosedAt (callers : Nat) (p : PoolId) (s₁ : System) : Trace → System → Prop
  | now {h : Trace} {s : System} {i : ThreadId} {a : Action} {es : List Event} :
      Run callers h s → s.isClosed p = false → s.step i a = some (s₁, es) → s₁.isClosed p →
      ClosedAt callers p s₁ (h ++ es.map (i, ·)) s₁
  | later {h : Trace} {s s' : System} {i : ThreadId} {a : Action} {es : List Event} :
      ClosedAt callers p s₁ h s → s.step i a = some (s', es) →
      ClosedAt callers p s₁ (h ++ es.map (i, ·)) s'

theorem ClosedAt.run (closed : ClosedAt callers p s₁ h s) : Run callers h s := by
  induction closed with
  | now run _ hs _ => exact run.step hs
  | later _ hs ih => exact ih.step hs

theorem ClosedAt.isClosed (closed : ClosedAt callers p s₁ h s) : s.isClosed p := by
  induction closed with
  | now _ _ _ hc => exact hc
  | later closed hs ih => exact (closed.run.stays_closed hs ih).1

theorem Run.closedAt (run : Run callers h s) (hc : s.isClosed p) :
    ∃ s₁, ClosedAt callers p s₁ h s := by
  induction run with
  | start => simp [System.isClosed, System.start] at hc
  | @step h s s' i a es run hs ih =>
    cases ho : s.isClosed p with
    | false => exact ⟨s', .now run ho hs hc⟩
    | true =>
      obtain ⟨s₁, closed⟩ := ih ho
      exact ⟨s₁, .later closed hs⟩

theorem Run.teardowns_open (run : Run callers h s) (ho : s.isClosed p = false) :
    h.teardowns p = [] := by
  induction run with
  | start => rfl
  | @step h s s' i a es run hs ih =>
    have before : s.isClosed p = false := by
      by_contra hc
      simp [(run.stays_closed hs (by simpa using hc)).1] at ho
    rw [Trace.teardowns_append, ih before, run.told_open hs ho]
    rfl

/-- What shutdowns have told and what they have yet to tell add up to the workers of the pool, and
nothing for each one that waited for destructors when the pool was closed. -/
theorem ClosedAt.toll (closed : ClosedAt callers p s₁ h s) (w : Nat → Nat) :
    ((h.teardowns p).map w).sum + s.weight (Frame.toll w p) =
      w (s.size p) + w 0 * s₁.weight (Frame.awaits p) := by
  induction closed with
  | now run ho hs hc =>
    rw [Trace.teardowns_append, run.teardowns_open ho]
    exact run.toll_closing hs ho hc
  | later closed hs ih =>
    have run := closed.run
    have told := run.toll_closed (w := w) hs closed.isClosed
    have others := (moves_of_step run.calls hs).weight run.unentered
      (Frame.isTeardownWeight_toll w p).wake
    rw [Trace.teardowns_append, List.map_append, List.sum_append,
      (run.stays_closed hs closed.isClosed).2]
    omega

/-! ### Calls on a closed pool -/

theorem shutdown_closed (hth : s.threads[i]? = some th) (hu : th.inUserCode) (use : s.canUse p)
    (hc : s.isClosed p) : s.step i (.call (.shutdown p) pick) = some (s, [.replied .done]) := by
  obtain ⟨pool, hp, hclosed⟩ := (Option.any_eq_true _ _).mp hc
  have done : (s.inCall i).shutdown i p pool false = (s, [.replied .done]) := by
    simp [System.shutdown, hclosed, endShutdown, reply, pop_inCall]
  unfold inCall at done
  simpa [step, hth, hu, call?, hp, use] using done

theorem closing_closed (hi : s.Inside i (.closing p dropping :: rest)) (hc : s.isClosed p) :
    s.step i (.advance pick) = some (s.onThread i Thread.pop, [.replied .done]) := by
  obtain ⟨th, hth, hcalls⟩ := hi
  obtain ⟨pool, hp, hclosed⟩ := (Option.any_eq_true _ _).mp hc
  simp [step, hth, advance?, hcalls, hp, System.shutdown, hclosed, endShutdown, reply]

theorem dropPool_closed (hth : s.threads[i]? = some th) (hu : th.inUserCode) (drop : s.canDrop p)
    (hp : s.pools[p]? = some pool) (hc : pool.closed) :
    s.step i (.call (.dropPool p) pick) =
      some (s.setPool p { pool with handle := false }, [.replied .done]) := by
  have done : (s.inCall i).dropPool i p pool =
      (s.setPool p { pool with handle := false }, [.replied .done]) := by
    dsimp only [System.dropPool]
    rw [if_pos hc]
    exact congrArg (·, _) (pop_inCall (s := s.setPool p { pool with handle := false }))
  unfold inCall at done
  simpa [step, hth, hu, call?, hp, drop] using done

/-! ### How often a pool is torn down -/

/-- The shutdowns of the pool that have yet to tell of their end. -/
def tearingDown (s : System) (p : PoolId) : Nat := s.weight (Frame.toll (fun _ => 1) p)

/-- The workers of the pool that a shutdown has taken and has yet to tell of. -/
def taken (s : System) (p : PoolId) : Nat := s.weight (Frame.toll id p)

/-- The shutdowns of the pool that wait for destructors. -/
def awaiting (s : System) (p : PoolId) : Nat := s.weight (Frame.awaits p)

/-- How often a pool is torn down, and what the calls do that find it closed. -/
structure Teardowns (callers : Nat) (h : Trace) (s : System) (p : PoolId) : Prop where
  not_open : s.isClosed p = false → h.teardowns p = []
  closed : s.isClosed p → ∃ s₁, ClosedAt callers p s₁ h s
  /-- The teardowns told of and to be told of are the one that closed the pool and one for each
  shutdown that waited for destructors then. -/
  counted : ∀ {s₁}, ClosedAt callers p s₁ h s →
    (h.teardowns p).length + s.tearingDown p = 1 + s₁.awaiting p
  once : ∀ {s₁}, ClosedAt callers p s₁ h s → s₁.awaiting p = 0 → (h.teardowns p).length ≤ 1
  again : ∀ {s₁}, ClosedAt callers p s₁ h s → s.tearingDown p = 0 → 0 < s₁.awaiting p →
    1 < (h.teardowns p).length
  /-- The workers are taken once. -/
  crew : s.isClosed p → (h.teardowns p).sum + s.taken p = s.size p
  /-- A shutdown called for on a closed pool changes nothing and tells nothing. -/
  call : ∀ {i th pick}, s.threads[i]? = some th → th.inUserCode → s.canUse p → s.isClosed p →
    s.step i (.call (.shutdown p) pick) = some (s, [.replied .done])
  closing : ∀ {i dropping rest pick}, s.Inside i (.closing p dropping :: rest) → s.isClosed p →
    s.step i (.advance pick) = some (s.onThread i Thread.pop, [.replied .done])
  dropping : ∀ {i th pool pick}, s.threads[i]? = some th → th.inUserCode → s.canDrop p →
    s.pools[p]? = some pool → pool.closed → s.step i (.call (.dropPool p) pick) =
      some (s.setPool p { pool with handle := false }, [.replied .done])
  /-- Who comes back from waiting for destructors to a closed pool waits again or tears the pool
  down again, with no workers to join. -/
  waiting : ∀ {i dropping woken rest pool a s' es},
    s.Inside i (.awaitingReleases p dropping woken :: rest) → s.pools[p]? = some pool →
    pool.closed → s.step i a = some (s', es) →
    pool.isQuiescentFor i = false ∧ s' = s.enter i (.awaitingReleases p dropping false) ∧ es = [] ∨
      pool.isQuiescentFor i ∧ s' = (s.setPool p pool.dismiss).onThread i Thread.pop ∧
        es = pool.farewell p 0

theorem ClosedAt.counted (closed : ClosedAt callers p s₁ h s) :
    (h.teardowns p).length + s.tearingDown p = 1 + s₁.awaiting p := by
  have := closed.toll fun _ => 1
  simpa [tearingDown, awaiting] using this

theorem Run.counts_teardowns (run : Run callers h s) (p : PoolId) : Teardowns callers h s p where
  not_open ho := run.teardowns_open ho
  closed hc := run.closedAt hc
  counted closed := closed.counted
  once closed hz := by
    have := closed.counted
    omega
  again closed hend hpos := by
    have := closed.counted
    omega
  crew hc := by
    obtain ⟨s₁, closed⟩ := run.closedAt hc
    simpa [System.taken] using closed.toll id
  call hth hu use hc := shutdown_closed hth hu use hc
  closing hi hc := closing_closed hi hc
  dropping hth hu drop hp hc := dropPool_closed hth hu drop hp hc
  waiting hi hp hc hs := run.resume_closed hi hp hc hs

/-- A caller shuts a pool down while a destructor runs on its worker, which then shuts the pool down
itself. -/
def awaitedShutdown : List (ThreadId × Action) :=
  let call (i : ThreadId) (op : Operation) : ThreadId × Action := (i, .call op 0)
  let go (i : ThreadId) (n : Nat) := List.replicate n (i, Action.advance 0)
  [call 0 (.createPool (.new 1)), call 0 (.createTask none), call 0 (.submit 0 0)] ++ go 1 1 ++
  go 0 1 ++ go 1 2 ++ [call 0 (.detach 0)] ++ go 0 4 ++ [(1, .finish (.ok .null))] ++ go 1 5 ++
  [call 0 (.shutdown 0), call 1 (.shutdown 0)] ++ go 1 1

/-- The worker tears the pool down, and the caller does so again once the destructors are done. -/
theorem twice_awaitedShutdown : ∃ h s, Run 1 h s ∧ h.teardowns 0 = [1, 0] := by
  let go (i : ThreadId) := (i, Action.advance 0)
  let destructor : ThreadId × Action := (1, .finish (.ok .null))
  have run : Run 1 _ _ := run_of_replay
    (awaitedShutdown ++ [destructor, go 1, destructor, go 1, go 1, go 0]) rfl
  exact ⟨_, _, run, rfl⟩

/-- The worker has torn the pool down and the caller still waits. -/
theorem counts_awaitedShutdown : ∃ h s, Run 1 h s ∧ h.teardowns 0 = [1] ∧ s.awaiting 0 = 1 ∧
    s.tearingDown 0 = 1 ∧ Teardowns 1 h s 0 := by
  have run : Run 1 _ _ := run_of_replay awaitedShutdown rfl
  exact ⟨_, _, run, rfl, rfl, rfl, run.counts_teardowns 0⟩

end System

end WorkerPool
