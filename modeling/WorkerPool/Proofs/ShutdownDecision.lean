import WorkerPool.Proofs.Bookkeeping
import WorkerPool.Proofs.JoinedShutdown
import WorkerPool.Proofs.Passages

/-!
How shutdowns decide.

A shutdown that finds the pool open decides in one critical section: it refuses if work is
outstanding, waits if all that is left are workers that let go of their tasks, and else closes the
pool. The workers with a task and those without one are all that have registered, so a shutdown that
is not settled has work to name, and no refusal comes with both counts zero.
-/
namespace WorkerPool

/-- The reason for which a shutdown is refused, be it called for or the last part of dropping a
pool. -/
def Event.refusal? : Event → Option PoolError
  | .replied (.failed e) | .log (.closeFailed _ _ e) => some e
  | _ => none

theorem Event.isRefusal_eq (ev : Event) : ev.isRefusal = ev.refusal?.isSome := by
  cases ev with
  | log r => cases r <;> rfl
  | replied r => cases r <;> rfl
  | _ => rfl

namespace Pool

/-- The error that names the work that is left. -/
def outstanding (pool : Pool) : PoolError :=
  .hasOutstandingTasks pool.queue.length pool.runningCount

/-- What a shutdown that is refused tells. -/
def objection (p : PoolId) (pool : Pool) (dropping : Bool) : List Event :=
  if dropping then [.log (.closeFailed p pool.config.threadName pool.outstanding), .replied .done]
  else [.replied (.failed pool.outstanding)]

theorem refusals_objection (p : PoolId) (pool : Pool) (dropping : Bool) :
    (pool.objection p dropping).filterMap Event.refusal? = [pool.outstanding] := by
  cases dropping <;> rfl

end Pool

namespace System

variable {s s' : System} {i j : ThreadId} {p : PoolId} {pool : Pool} {f : Frame}
  {rest : List Frame} {es : List Event} {e : Effect} {g h : Trace} {callers : Nat} {pick : Pick}
  {a : Action}
  {dropping woken : Bool} {next total : Nat} {own : List Passage} {last x : Passage} {r : Reply}
  {err : PoolError}

/-- Nothing is queued, nothing runs, every registered worker is without a task, and no worker but
possibly the thread lets go of one. -/
structure Quiescent (s : System) (i : ThreadId) (p : PoolId) (pool : Pool) : Prop where
  queue : pool.queue.entries = []
  running : pool.runningCount = 0
  busy : s.threads.countP (Thread.isBusyIn p) = 0
  idle : pool.idleCount = pool.threadCount
  releasing : ∀ {j}, s.Has j p .releasing → j = i

theorem Books.quiescent (books : s.Books) (hp : s.pools[p]? = some pool) :
    pool.isQuiescentFor i ↔ s.Quiescent i p pool := by
  constructor
  · intro hq
    simp only [Pool.isQuiescentFor, Pool.isSettled, PendingQueue.isEmpty, Bool.and_eq_true,
      List.isEmpty_iff, beq_iff_eq, List.all_eq_true] at hq
    obtain ⟨⟨⟨queue, running⟩, idle⟩, others⟩ := hq
    refine ⟨queue, running, (books.busy hp).symm.trans running, idle, fun {j} has => ?_⟩
    exact others j ((books.mem_releasing hp).mpr has)
  · rintro ⟨queue, running, -, idle, others⟩
    simp only [Pool.isQuiescentFor, Pool.isSettled, PendingQueue.isEmpty, Bool.and_eq_true,
      List.isEmpty_iff, beq_iff_eq, List.all_eq_true]
    exact ⟨⟨⟨queue, running⟩, idle⟩, fun j hj => others ((books.mem_releasing hp).mp hj)⟩

theorem Books.settled_iff (books : s.Books) (hp : s.pools[p]? = some pool) :
    pool.isSettled ↔ pool.queue.length + pool.runningCount = 0 := by
  rw [books.isSettled hp, Nat.add_eq_zero_iff]
  simp [PendingQueue.isEmpty, PendingQueue.length]

/-- A closed pool is settled. -/
theorem Books.settled_of_closed (books : s.Books) (hp : s.pools[p]? = some pool)
    (hc : pool.closed) : pool.isSettled := by
  obtain ⟨running, queue⟩ := (books.pools p pool hp).calm hc
  exact (books.settled_iff hp).mpr (by simp [running, queue, PendingQueue.length])

/-! ### One section -/

/-- The section in which a shutdown decides. -/
inductive Judges (pools : List Pool) (tasks : List Task) (i : ThreadId) (p : PoolId) (pool : Pool)
    (dropping : Bool) : Effect → Prop
  | waits {s : System} {rest : List Frame} : pool.isSettled → pool.isQuiescentFor i = false →
      s.pools = pools → s.tasks = tasks →
      s.Inside i (.awaitingReleases p dropping false :: rest) →
      Judges pools tasks i p pool dropping (s, [])
  | refuses {s : System} : pool.isSettled = false → s.pools = pools → s.tasks = tasks → s.Free i →
      Judges pools tasks i p pool dropping (s, pool.objection p dropping)
  | commits {e : Effect} : pool.isQuiescentFor i →
      Stops pools i p pool.close 0 pool.rosterSize e → Judges pools tasks i p pool dropping e

theorem resumeShutdown_judges (nested : s.Nested) (hi : s.Inside i (f :: rest)) (hf : f.isBare) :
    Judges s.pools s.tasks i p pool dropping (s.resumeShutdown i p pool dropping) := by
  unfold System.resumeShutdown
  split
  · next hwait =>
    simp only [Bool.and_eq_true, Bool.not_eq_true'] at hwait
    exact .waits hwait.1 hwait.2 rfl rfl hi.enter
  · next hgo =>
    unfold System.decideShutdown
    split
    · next hq => exact .commits hq (stops_stopNext 0 pool.rosterSize nested hi hf)
    · next hq =>
      have hset : pool.isSettled = false := by simpa [hq] using hgo
      have refused : s.endShutdown i p pool (some pool.outstanding) dropping =
          (s.onThread i Thread.pop, pool.objection p dropping) := by
        cases dropping <;> rfl
      exact refused ▸ .refuses hset rfl rfl (free_pop nested)

/-- A shutdown that is called for finds the pool closed, or decides. -/
theorem shutdown_judges (run : Run callers h s)
    (hs : s.step i (.call (.shutdown p) pick) = some e) : ∃ pool, s.pools[p]? = some pool ∧
      (pool.closed ∧ e.1.pools = s.pools ∧ e.2 = [.replied .done] ∨
        pool.closed = false ∧ Judges s.pools s.tasks i p pool false e) := by
  obtain ⟨th, pool, hth, hu, hp, rfl⟩ := step_shutdown hs
  refine ⟨pool, hp, ?_⟩
  unfold System.shutdown
  split
  · next hc => exact .inl ⟨hc, rfl, rfl⟩
  · next ho =>
    have nested : (s.inCall i).Nested := run.nested.move (.call hth hu)
    exact .inr ⟨by simpa using ho, resumeShutdown_judges nested (.inCall hth) rfl⟩

/-- On an open pool, a shutdown decides in each section that is none of the joins. -/
theorem Decides.judges (decides : s.Decides i p a) (run : Run callers h s)
    (hs : s.step i a = some e) (hp : s.pools[p]? = some pool) (ho : pool.closed = false) :
    ∃ dropping, Judges s.pools s.tasks i p pool dropping e := by
  cases decides with
  | call pick =>
    obtain ⟨pool', hp', ⟨hc, -⟩ | ⟨-, judges⟩⟩ := shutdown_judges run hs
    · obtain rfl : pool = pool' := Option.some.inj (hp.symm.trans hp')
      simp [ho] at hc
    · obtain rfl : pool = pool' := Option.some.inj (hp.symm.trans hp')
      exact ⟨false, judges⟩
  | @closing dropping rest pick hi =>
    have hshut : s.shutdown i p pool dropping = e := by
      obtain ⟨th, hth, hc⟩ := id hi
      simpa [step, hth, advance?, hc, hp] using hs
    have open_pool : ¬ pool.closed = true := by simp [ho]
    rw [System.shutdown, if_neg open_pool] at hshut
    exact ⟨dropping, hshut ▸ resumeShutdown_judges run.nested hi rfl⟩
  | @waiting dropping woken rest pick hi =>
    obtain ⟨pool', hp', rfl⟩ := hi.resumes hs
    obtain rfl : pool = pool' := Option.some.inj (hp.symm.trans hp')
    exact ⟨dropping, resumeShutdown_judges run.nested hi rfl⟩

/-- What a shutdown makes of an open pool. -/
structure Verdict (s : System) (i : ThreadId) (p : PoolId) (pool : Pool) (e : Effect) : Prop where
  /-- It refuses exactly if work is outstanding, and names the tasks that are queued and those in
  the hands of workers. -/
  refuses : e.2.filterMap Event.refusal? =
    if 0 < pool.queue.length + pool.runningCount then
      [.hasOutstandingTasks pool.queue.length pool.runningCount] else []
  running : pool.runningCount = s.threads.countP (Thread.isBusyIn p)
  /-- It waits exactly if releases are all that is in its way. -/
  waits : e.1.Awaits i p ↔ s.OnlyReleases p i
  commits : e.1.isClosed p ↔ s.Quiescent i p pool
  /-- Unless it closes the pool, it leaves all pools and tasks as they are. -/
  spares : e.1.isClosed p = false → e.1.pools = s.pools ∧ e.1.tasks = s.tasks

theorem Stops.refusals {pools : List Pool} (stops : Stops pools i p pool next total e) :
    e.2.filterMap Event.refusal? = [] := by
  cases stops with
  | waits _ _ _ => rfl
  | ends _ _ _ => rfl

theorem Judges.verdict (judges : Judges s.pools s.tasks i p pool dropping e) (books : s.Books)
    (hp : s.pools[p]? = some pool) (ho : pool.closed = false) : s.Verdict i p pool e := by
  have settled := books.settled_iff hp
  have quiescent := books.quiescent (i := i) hp
  have unquiet (h : pool.isQuiescentFor i = false) : s.OnlyReleases p i ↔ s.Settled p :=
    books.onlyReleases ⟨pool, hp, h⟩
  have isSettled : s.Settled p ↔ pool.isSettled := by simp [Settled, hp]
  have still_open {s' : System} (hpools : s'.pools = s.pools) : s'.isClosed p = false := by
    simp [isClosed, hpools, hp, ho]
  cases judges with
  | @waits s' rest hset hq hpools htasks hi =>
    have none_left : ¬ 0 < pool.queue.length + pool.runningCount := by
      simp [settled.mp hset]
    refine ⟨by rw [if_neg none_left]; rfl, books.busy hp, ?_, ?_, fun _ => ⟨hpools, htasks⟩⟩
    · rw [unquiet hq, isSettled]
      exact iff_of_true ⟨dropping, false, rest, hi⟩ hset
    · rw [still_open hpools, ← quiescent, hq]
  | @refuses s' hset hpools htasks free =>
    have some_left : 0 < pool.queue.length + pool.runningCount := by
      rw [Nat.pos_iff_ne_zero]
      exact fun h => by simp [settled.mpr h] at hset
    have hq : pool.isQuiescentFor i = false := by simp [Pool.isQuiescentFor, hset]
    refine ⟨?_, books.busy hp, ?_, ?_, fun _ => ⟨hpools, htasks⟩⟩
    · rw [if_pos some_left]
      exact pool.refusals_objection p dropping
    · rw [unquiet hq, isSettled, hset]
      refine iff_of_false ?_ Bool.false_ne_true
      rintro ⟨_, _, _, hi⟩
      exact free.not_inside rfl hi
    · rw [still_open hpools, ← quiescent, hq]
  | commits hq stops =>
    have hset : pool.isSettled := (Bool.and_eq_true _ _ ▸ hq).1
    have none_left : ¬ 0 < pool.queue.length + pool.runningCount := by
      simp [settled.mp hset]
    have closed : e.1.isClosed p := by
      obtain ⟨new, hnew, hc, -⟩ := stops.pool_eq hp rfl
      exact isClosed_of_pool hnew hc
    refine ⟨by rw [if_neg none_left]; exact stops.refusals, books.busy hp, ?_,
      iff_of_true closed (quiescent.mp hq), fun h => ?_⟩
    · refine iff_of_false stops.not_awaits ?_
      rintro ⟨pool', hp', -, -, j, hj, has⟩
      exact hj ((quiescent.mp hq).releasing has)
    · simp [h] at closed

/-! ### Steps that close a pool -/

/-- Whatever closes a pool has found it quiescent. -/
theorem Run.quiescent_of_closes (run : Run callers h s) (hs : s.step i a = some e)
    (ho : s.isClosed p = false) (hc : e.1.isClosed p) :
    ∃ pool, s.pools[p]? = some pool ∧ pool.closed = false ∧ s.Quiescent i p pool := by
  have changes : e.1.isClosed p ≠ s.isClosed p := by simp [ho, hc]
  cases teardownStep_of_step run.calls run.nested hs with
  | @joins q step =>
    obtain ⟨hi, -, -, -, stops⟩ := step
    by_cases hpq : p = q
    · have hclosed : s.isClosed q := run.calls.relies.inside hi
      simp [← hpq, ho] at hclosed
    · exact absurd (stops.isClosed_ne hpq) changes
  | calls _ step =>
    cases step with
    | aloof aloof => exact absurd (aloof.closed p) changes
    | waits _ _ _ _ hpools _ => exact absurd (by simp [isClosed, hpools]) changes
    | @begins q pool _ hq hopen quiet stops =>
      by_cases hpq : p = q
      · subst hpq
        exact ⟨pool, hq, hopen, (run.books.quiescent hq).mp quiet⟩
      · exact absurd (stops.isClosed_ne hpq) changes
    | @repeats q pool _ _ hq hclosed stops =>
      by_cases hpq : p = q
      · subst hpq
        simp [isClosed, hq, hclosed] at ho
      · exact absurd (stops.isClosed_ne hpq) changes

/-! ### Whole calls -/

/-- Who joins goes on with this, one worker after the other. -/
theorem Run.joined_step (run : Run callers h s) (hs : s.step i a = some e) (joins : s.Joins i p) :
    s.CrewJoin i p e := by
  cases crewStep_of_step run.calls run.nested hs p with
  | apart hno _ _ => exact absurd joins hno
  | begins hno _ _ _ => exact absurd joins hno
  | joined step => exact step

/-- A shutdown that joins comes to the next worker or returns without an error. -/
theorem CrewJoin.ends (step : s.CrewJoin i p e) :
    e.1.Joins i p ∧ (∀ r, .replied r ∉ e.2) ∨ ∀ r, .replied r ∈ e.2 ↔ r = .done := by
  obtain ⟨-, -, -, left, stops⟩ := step
  have told {es es' : List Event} {k : Nat} {j : ThreadId}
      (left : s.threads[j]?.any Thread.hasExited ∧ es = es' ∨
        j = i ∧ es = .log (.stopsItself p k) :: es') (r : Reply) :
      .replied r ∈ es ↔ .replied r ∈ es' := by
    rcases left with ⟨-, rfl⟩ | ⟨-, rfl⟩ <;> simp
  cases stops with
  | waits _ _ hi => exact .inl ⟨hi.joins.mpr rfl, fun r => by simp [told left]⟩
  | ends _ _ _ => exact .inr fun r => by simp [told left, Pool.farewell]

/-- A shutdown that is underway waits for releases, and has changed nothing, or joins. -/
theorem Underway.shutdown (under : Underway s i (.shutdown p) own h s') (run : Run callers g s) :
    ((∀ x ∈ own, x.Idles) ∧
        ∃ woken rest, s'.Inside i (.awaitingReleases p false woken :: rest)) ∨
      s'.Joins i p := by
  have underway {s s' : System} {pool : Pool} {es : List Event}
      (judges : Judges s.pools s.tasks i p pool false (s', es)) (silent : ∀ r, .replied r ∉ es) :
      (Passage.Idles ⟨s, s', es⟩ ∧ ∃ rest, s'.Inside i (.awaitingReleases p false false :: rest)) ∨
        s'.Joins i p := by
    cases judges with
    | waits _ _ hpools htasks hi => exact .inl ⟨⟨hpools, htasks⟩, _, hi⟩
    | refuses _ _ _ _ => exact absurd (by simp [Pool.objection]) (silent (.failed pool.outstanding))
    | commits _ stops =>
      cases stops with
      | waits _ _ hi => exact .inr (hi.joins.mpr rfl)
      | ends _ _ _ => exact absurd (by simp [Pool.farewell]) (silent .done)
  induction under with
  | @call pick s' es hs silent =>
    obtain ⟨pool, hp, ⟨-, -, htold⟩ | ⟨-, judges⟩⟩ := shutdown_judges run hs
    · obtain rfl : es = [.replied .done] := htold
      exact absurd (List.mem_singleton_self _) (silent .done)
    · refine (underway judges silent).imp_left ?_
      rintro ⟨idles, rest, hi⟩
      exact ⟨by simpa using idles, false, rest, hi⟩
  | @own own h s₁ s' a es under hs silent ih =>
    rcases ih with ⟨idle, woken, rest, hi⟩ | ⟨next, total, dropping, rest, hi⟩
    · obtain ⟨pool, hp, he⟩ := hi.resumes hs
      have judges : Judges s₁.pools s₁.tasks i p pool false (s', es) :=
        he ▸ resumeShutdown_judges (under.run run).nested hi rfl
      refine (underway judges silent).imp_left ?_
      rintro ⟨idles, rest, hi⟩
      refine ⟨?_, false, rest, hi⟩
      exact List.forall_mem_append.mpr ⟨idle, List.forall_mem_singleton.mpr idles⟩
    · have joined := (under.run run).joined_step hs (hi.joins.mpr rfl)
      rcases joined.ends with ⟨joins, -⟩ | ended
      · exact .inr joins
      · exact absurd ((ended .done).mpr rfl) (silent .done)
  | @other own h s₁ s' j a es under hij hs ih =>
    have run₁ := under.run run
    rcases ih with ⟨idle, woken, rest, hi⟩ | ⟨next, total, dropping, rest, hi⟩
    · obtain ⟨f, rest', hi', hf⟩ := (moves_of_step run₁.calls hs).spares.inside hij hi
      obtain ⟨woken', rfl⟩ : ∃ woken, f = .awaitingReleases p false woken := by
        cases f <;> simp_all [Frame.asleep]
      exact .inl ⟨idle, woken', rest', hi'⟩
    · obtain ⟨rest', hi'⟩ := run₁.joining_other hs hij hi
      exact .inr ⟨_, _, _, _, hi'⟩

/-- A shutdown that is refused names the work that it finds left, and has changed no pool and no
task, also while it waited. -/
structure Refused (p : PoolId) (own : List Passage) (last : Passage) (err : PoolError) : Prop where
  pool : ∃ pool, last.before.pools[p]? = some pool ∧ pool.closed = false ∧
    err = .hasOutstandingTasks pool.queue.length pool.runningCount ∧
    pool.runningCount = last.before.threads.countP (Thread.isBusyIn p) ∧
    0 < pool.queue.length + pool.runningCount
  idles : ∀ x ∈ own ++ [last], x.Idles

/-- How the section ends a shutdown in which it decides. -/
theorem Judges.ends (judges : Judges s.pools s.tasks i p pool false (s', es)) (books : s.Books)
    (hp : s.pools[p]? = some pool) (hr : .replied r ∈ es) (idle : ∀ x ∈ own, x.Idles) :
    r = .done ∧ s'.isClosed p ∨ ∃ err, r = .failed err ∧ Refused p own ⟨s, s', es⟩ err := by
  cases judges with
  | waits _ _ _ _ _ => cases hr
  | refuses hset hpools htasks _ =>
    right
    obtain rfl : r = .failed pool.outstanding := by simpa [Pool.objection] using hr
    have ho : pool.closed = false := by
      by_contra hc
      simp [books.settled_of_closed hp (by simpa using hc)] at hset
    have some_left : 0 < pool.queue.length + pool.runningCount := by
      rw [Nat.pos_iff_ne_zero]
      exact fun h => by simp [(books.settled_iff hp).mpr h] at hset
    refine ⟨_, rfl, ⟨pool, hp, ho, rfl, books.busy hp, some_left⟩, ?_⟩
    exact List.forall_mem_append.mpr ⟨idle, List.forall_mem_singleton.mpr ⟨hpools, htasks⟩⟩
  | commits _ stops =>
    left
    obtain ⟨new, hnew, hc, -⟩ := stops.pool_eq hp rfl
    refine ⟨?_, isClosed_of_pool hnew hc⟩
    cases stops with
    | waits _ _ _ => cases hr
    | ends _ _ _ => simpa [Pool.farewell] using hr

/-- A shutdown returns with the pool closed, or is refused. -/
theorem Returns.shutdown (returns : Returns s i (.shutdown p) own h last r)
    (run : Run callers g s) :
    r = .done ∧ last.after.isClosed p ∨ ∃ err, r = .failed err ∧ Refused p own last err := by
  cases returns with
  | @atOnce pick s' es _ hs hr =>
    obtain ⟨pool, hp, ⟨hc, hpools, htold⟩ | ⟨-, judges⟩⟩ := shutdown_judges run hs
    · obtain rfl : es = [.replied .done] := htold
      have hp' : s'.pools[p]? = some pool := by rw [hpools, hp]
      exact .inl ⟨by simpa using hr, isClosed_of_pool hp' hc⟩
    · exact judges.ends run.books hp hr nofun
  | @later own h s₁ s' a es _ under hs hr =>
    have run₁ := under.run run
    rcases under.shutdown run with ⟨idle, woken, rest, hi⟩ | joins
    · obtain ⟨pool, hp, he⟩ := hi.resumes hs
      have judges : Judges s₁.pools s₁.tasks i p pool false (s', es) :=
        he ▸ resumeShutdown_judges run₁.nested hi rfl
      exact judges.ends run₁.books hp hr idle
    · have hclosed : s'.isClosed p := by
        obtain ⟨_, _, _, _, hi⟩ := id joins
        have before : s₁.isClosed p := run₁.calls.relies.inside hi
        obtain ⟨pool, hp, hc⟩ := (Option.any_eq_true _ _).mp before
        obtain ⟨pool', hp', hc', -⟩ := (moves_of_step run₁.calls hs).closed hp hc
        exact isClosed_of_pool hp' hc'
      rcases (run₁.joined_step hs joins).ends with ⟨-, silent⟩ | ended
      · exact absurd hr (silent r)
      · exact .inl ⟨(ended r).mp hr, hclosed⟩

/-- How the shutdowns of a pool decide. -/
structure ShutdownDecides (s : System) (p : PoolId) : Prop where
  decides : ∀ {i a e pool}, s.Decides i p a → s.step i a = some e → s.pools[p]? = some pool →
    pool.closed = false → s.Verdict i p pool e
  /-- Nothing else closes a pool, -/
  closes : ∀ {i a e}, s.step i a = some e → s.isClosed p = false → e.1.isClosed p →
    ∃ pool, s.pools[p]? = some pool ∧ pool.closed = false ∧ s.Quiescent i p pool
  /-- and no shutdown of a closed pool is refused. -/
  accepts : ∀ {i a e}, s.Decides i p a → s.step i a = some e → s.isClosed p →
    e.2.filterMap Event.refusal? = []
  /-- A shutdown that is called for returns with the pool closed, or is refused. -/
  returns : ∀ {i own h last r}, Returns s i (.shutdown p) own h last r →
    r = .done ∧ last.after.isClosed p ∨ ∃ err, r = .failed err ∧ Refused p own last err
  /-- If one of its sections closes the pool, it has found the pool quiescent. -/
  commits : ∀ {i own h last r x}, Returns s i (.shutdown p) own h last r → x ∈ own ++ [last] →
    x.before.isClosed p = false → x.after.isClosed p →
    ∃ pool, x.before.pools[p]? = some pool ∧ pool.closed = false ∧ x.before.Quiescent i p pool

theorem Run.shutdown_decides (run : Run callers g s) (p : PoolId) : ShutdownDecides s p where
  decides decides hs hp ho := by
    obtain ⟨dropping, judges⟩ := decides.judges run hs hp ho
    exact judges.verdict run.books hp ho
  closes hs ho hc := run.quiescent_of_closes hs ho hc
  accepts {i a e} decides hs hclosed := by
    obtain ⟨pool, hp, hc⟩ := (Option.any_eq_true _ _).mp hclosed
    have settled (pool' : Pool) (hp' : s.pools[p]? = some pool') : pool'.isSettled := by
      obtain rfl : pool = pool' := Option.some.inj (hp.symm.trans hp')
      exact run.books.settled_of_closed hp hc
    have accepted := (decides.goesOn run hs settled).1
    refine List.filterMap_eq_nil_iff.mpr fun ev hev => ?_
    simpa [Event.isRefusal_eq] using accepted ev hev
  returns returned := returned.shutdown run
  commits returned hx ho hc := by
    obtain ⟨h, a, run, hs⟩ := returned.sections run _ hx
    exact run.quiescent_of_closes hs ho hc

/-- Destructors of a detached task run on a worker, and a shutdown waits for that. If another caller
submits a task before the shutdown goes on, it is refused, and else it closes the pool. -/
theorem shutdown_decides_waited : ∃ g s, Run 2 g s ∧
    (∃ own h last, own ≠ [] ∧
      Returns s 0 (.shutdown 0) own h last (.failed (.hasOutstandingTasks 1 0))) ∧
    (∃ own h last, own ≠ [] ∧ Returns s 0 (.shutdown 0) own h last .done) ∧
    ShutdownDecides s 0 := by
  have run : Run 2 _ _ := run_of_replay lateSubmit.dropLast.dropLast rfl
  let released : List (ThreadId × Action) := [(2, .finish (.ok .null)), (2, .advance 0),
    (2, .finish (.ok .null)), (2, .advance 0), (2, .advance 0)]
  exact ⟨_, _, run,
    returns_of_replay 0 (released ++ [(1, .call (.submit 0 1) 0)]) (.advance 0)
      [.replied (.failed (.hasOutstandingTasks 1 0))] rfl rfl rfl rfl (by simp),
    returns_of_replay 0 (released ++ [(0, .advance 0), (2, .advance 0)]) (.advance 0)
      [.log (.closed 0 (Config.new 1).threadName 1), .metric 0 (.shutdown 1 0), .replied .done]
      rfl rfl rfl rfl (by simp),
    run.shutdown_decides 0⟩

end System

end WorkerPool
