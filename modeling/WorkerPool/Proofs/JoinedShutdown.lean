import WorkerPool.Proofs.ShutdownWait
import WorkerPool.Proofs.Takers
import WorkerPool.Proofs.Teardown

/-!
Shutdowns after every task has been joined.

A worker publishes the outcome of a task in the critical section in which it stops being busy. So
once a join has taken the outcome, the worker may at most be letting go of the task, and a shutdown
waits for that. Joins of all that a pool has accepted leave a shutdown no reason to be refused.
-/
namespace WorkerPool

/-- A shutdown is refused, be it called for or the last part of dropping a pool. -/
def Event.isRefusal : Event → Bool
  | .replied (.failed _) | .log (.closeFailed _ _ _) => true
  | _ => false

/-- A join ends a submission of the task and takes the outcome. -/
def Event.joins (t : TaskId) : Event → Bool
  | .joined u (some _) => u == t
  | _ => false

namespace Trace

/-- Each submission that the pool has accepted has been ended by a join since. -/
def allJoined (p : PoolId) : Trace → Bool
  | [] => true
  | (_, .log (.submitted q t _)) :: h => (q != p || h.any (·.2.joins t)) && allJoined p h
  | _ :: h => allJoined p h

theorem joined_of_allJoined {h₁ h₂ : Trace} {i : ThreadId} {p : PoolId} {t : TaskId} {n : Nat}
    (joined : allJoined p (h₁ ++ (i, .log (.submitted p t n)) :: h₂)) :
    ∃ j o, (j, .joined t (some o)) ∈ h₂ := by
  induction h₁ with
  | nil =>
    obtain ⟨⟨j, e⟩, hmem, he⟩ : ∃ e ∈ h₂, e.2.joins t := by
      simp only [List.nil_append, allJoined, bne_self_eq_false, Bool.false_or, Bool.and_eq_true,
        List.any_eq_true] at joined
      exact joined.1
    cases e with
    | joined u o =>
      cases o with
      | none => cases he
      | some o =>
        obtain rfl : u = t := by simpa [Event.joins] using he
        exact ⟨j, o, hmem⟩
    | _ => cases he
  | cons x h₁ ih =>
    obtain ⟨j, e⟩ := x
    refine ih ?_
    cases e with
    | log r => cases r <;> simp_all [allJoined]
    | _ => exact joined

end Trace

namespace System

variable {s s' : System} {i : ThreadId} {p : PoolId} {pool : Pool} {f : Frame} {rest : List Frame}
  {es : List Event} {e : Effect} {h : Trace} {callers : Nat} {a : Action} {dropping : Bool}
  {next total : Nat}

/-- In the step, if it happens, a shutdown of the pool decides: as it is called for, as the last
part of dropping the pool, or after it has waited. -/
inductive Decides (s : System) (i : ThreadId) (p : PoolId) : Action → Prop
  | call (pick : Pick) : Decides s i p (.call (.shutdown p) pick)
  | closing {dropping : Bool} {rest : List Frame} (pick : Pick) :
      s.Inside i (.closing p dropping :: rest) → Decides s i p (.advance pick)
  | waiting {dropping woken : Bool} {rest : List Frame} (pick : Pick) :
      s.Inside i (.awaitingReleases p dropping woken :: rest) → Decides s i p (.advance pick)

/-- The shutdown is not refused: the pool is closed, or the thread waits for others to let go of
their tasks. -/
def GoesOn (i : ThreadId) (p : PoolId) (e : Effect) : Prop :=
  (∀ ev ∈ e.2, ev.isRefusal = false) ∧ (e.1.isClosed p ∨
    ∃ dropping rest, e.1.Inside i (.awaitingReleases p dropping false :: rest))

theorem Stops.goesOn (stops : Stops s.pools i p pool next total e) {old : Pool}
    (hp : s.pools[p]? = some old) (hc : pool.closed) : GoesOn i p e := by
  obtain ⟨new, hnew, hclosed, -⟩ := stops.pool_eq hp hc
  refine ⟨?_, .inl (isClosed_of_pool hnew hclosed)⟩
  cases stops with
  | waits _ _ _ => simp
  | ends _ _ _ => simp [Pool.farewell, Event.isRefusal]

theorem resumeShutdown_goesOn (nested : s.Nested) (hi : s.Inside i (f :: rest)) (hf : f.isBare)
    (hp : s.pools[p]? = some pool) (hset : pool.isSettled) :
    GoesOn i p (s.resumeShutdown i p pool dropping) := by
  rw [resumeShutdown_settled hset]
  split
  · exact (stops_stopNext 0 pool.rosterSize nested hi hf).goesOn hp rfl
  · exact ⟨by simp, .inr ⟨dropping, rest, hi.enter⟩⟩

theorem shutdown_goesOn (nested : s.Nested) (hi : s.Inside i (f :: rest)) (hf : f.isBare)
    (hp : s.pools[p]? = some pool) (hset : pool.isSettled) :
    GoesOn i p (s.shutdown i p pool dropping) := by
  unfold System.shutdown
  split
  · next hc =>
    exact ⟨by simp [endShutdown, reply, Event.isRefusal], .inl (isClosed_of_pool hp hc)⟩
  · exact resumeShutdown_goesOn nested hi hf hp hset

/-- On a settled pool, no shutdown is refused. -/
theorem Decides.goesOn (decides : s.Decides i p a) (run : Run callers h s)
    (hs : s.step i a = some e) (hset : ∀ pool, s.pools[p]? = some pool → pool.isSettled) :
    GoesOn i p e := by
  cases decides with
  | call pick =>
    obtain ⟨th, pool, hth, hu, hp, rfl⟩ := step_shutdown hs
    have nested : (s.inCall i).Nested := run.nested.move (.call hth hu)
    exact shutdown_goesOn (s := s.inCall i) nested (.inCall hth) rfl hp (hset pool hp)
  | @closing dropping rest pick hi =>
    obtain ⟨pool, hp, rfl⟩ : ∃ pool, s.pools[p]? = some pool ∧
        s.shutdown i p pool dropping = e := by
      obtain ⟨th, hth, hc⟩ := id hi
      simpa [step, hth, advance?, hc, Option.bind_eq_some_iff] using hs
    exact shutdown_goesOn run.nested hi rfl hp (hset pool hp)
  | waiting pick hi =>
    obtain ⟨pool, hp, rfl⟩ := hi.resumes hs
    exact resumeShutdown_goesOn run.nested hi rfl hp (hset pool hp)

/-- A shutdown that decides when all that the pool has accepted has been joined is not refused. It
closes the pool, finds it closed, or waits for other workers to let go of what was joined. -/
theorem Run.joined_shutdown (run : Run callers h s) (joined : h.allJoined p)
    (decides : s.Decides i p a) (hs : s.step i a = some (s', es)) :
    (∀ ev ∈ es, ev.isRefusal = false) ∧
      (s'.isClosed p ∨ s'.Awaits i p ∧ s'.OnlyReleases p i) := by
  have settled (pool : Pool) (hp : s.pools[p]? = some pool) : pool.isSettled :=
    (run.books.isSettled hp).mpr <| run.idle_of_joined hp fun h₁ i t n h₂ hsplit => by
      obtain ⟨j, o, hmem⟩ := Trace.joined_of_allJoined (hsplit ▸ joined)
      exact ⟨j, some o, hmem⟩
  obtain ⟨accepted, hc | ⟨dropping, rest, hi⟩⟩ := decides.goesOn run hs settled
  · exact ⟨accepted, .inl hc⟩
  · exact ⟨accepted, .inr ⟨⟨dropping, false, rest, hi⟩, run.wait_begins hs hi⟩⟩

/-- The outcome of the only task has been joined, and its worker has yet to let go of the task. -/
def joinedTask : List (ThreadId × Action) :=
  let call (i : ThreadId) (op : Operation) : ThreadId × Action := (i, .call op 0)
  let go (i : ThreadId) (n : Nat) := List.replicate n (i, Action.advance 0)
  [call 0 (.createPool (.new 1)), call 0 (.createTask none), call 0 (.submit 0 0)] ++ go 1 1 ++
  go 0 1 ++ go 1 2 ++ [(1, .finish (.ok .null))] ++ go 1 3 ++ [call 0 (.join 0 none)]

/-- A shutdown waits for that worker. -/
theorem joined_shutdown_waits : ∃ h s s' es, Run 1 h s ∧ h.allJoined 0 ∧
    s.Decides 0 0 (.call (.shutdown 0) 0) ∧ s.step 0 (.call (.shutdown 0) 0) = some (s', es) ∧
    (∀ ev ∈ es, ev.isRefusal = false) ∧
      (s'.isClosed 0 ∨ s'.Awaits 0 0 ∧ s'.OnlyReleases 0 0) := by
  have run : Run 1 _ _ := run_of_replay joinedTask rfl
  exact ⟨_, _, _, _, run, rfl, .call 0, rfl, run.joined_shutdown rfl (.call 0) rfl⟩

end System

end WorkerPool
