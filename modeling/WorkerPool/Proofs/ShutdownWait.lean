import WorkerPool.Proofs.Newcomers
import WorkerPool.Proofs.OutsideWait
import WorkerPool.Proofs.ShutdownSteps

/-!
Shutdowns that wait for destructors.

A shutdown that finds the pool settled waits for the workers that let go of their last task. A wait
begins only then, and nothing but a submission adds to what the shutdown waits for. A submission
does not wake it, so from then on it waits for the new task, too, which it would have to refuse.
-/
namespace WorkerPool

/-- A pool that is settled stays so until it takes a task. -/
theorem Pool.Change.settled {s : System} {i : ThreadId} {p : PoolId} {es : List Event}
    {pool pool' : Pool} (change : Pool.Change s i p es pool pool') (books : s.Books)
    (hp : s.pools[p]? = some pool) (quiet : es.filterMap (·.push? p) = [])
    (h : pool.isSettled) : pool'.isSettled := by
  have balanced := books.pools p pool hp
  obtain ⟨⟨hqueue, hrun⟩, hidle⟩ :
      (pool.queue.entries = [] ∧ pool.runningCount = 0) ∧ pool.idleCount = pool.threadCount := by
    simpa [Pool.isSettled, PendingQueue.isEmpty] using h
  cases change with
  | same => exact h
  | hire _ _ => exact h
  | accept _ _ hpush => exact absurd quiet hpush
  | close _ => exact h
  | stop _ _ => exact h
  | dismiss _ => simp [Pool.isSettled, Pool.dismiss, PendingQueue.isEmpty, hqueue, hrun]
  | dropHandle => exact h
  | register _ =>
    simp [Pool.isSettled, Pool.register, PendingQueue.isEmpty, hqueue, hrun, hidle]
  | released _ => exact h
  | claim hc =>
    obtain ⟨queue, hpop, -⟩ := Pool.claim?_eq hc
    obtain ⟨rest, hentries, -⟩ := PendingQueue.pop?_eq hpop
    simp [hqueue] at hentries
  | count _ _ => exact h
  | retire hw =>
    have := balanced.running_pos hw.post
    omega

namespace System

variable {s s' : System} {i j : ThreadId} {p : PoolId} {pool : Pool}
  {calls rest : List Frame} {es : List Event} {e : Effect} {h h' : Trace} {callers : Nat}
  {dropping : Bool} {a : Action} {t : TaskId} {task : Task} {pick : Pick}

/-- Nothing is queued and nothing runs. -/
def Settled (s : System) (p : PoolId) : Prop := ∃ pool, s.pools[p]? = some pool ∧ pool.isSettled

/-- Nothing is queued and nothing runs, and another worker lets go of its task. -/
def OnlyReleases (s : System) (p : PoolId) (i : ThreadId) : Prop :=
  ∃ pool, s.pools[p]? = some pool ∧ pool.queue.isEmpty ∧ pool.runningCount = 0 ∧
    ∃ j, j ≠ i ∧ s.Has j p .releasing

theorem Books.isSettled (books : s.Books) (hp : s.pools[p]? = some pool) :
    pool.isSettled ↔ pool.queue.isEmpty ∧ pool.runningCount = 0 := by
  have total := (books.pools p pool hp).total
  simp only [Pool.isSettled, Bool.and_eq_true, beq_iff_eq]
  constructor
  · rintro ⟨⟨hq, hr⟩, -⟩
    exact ⟨hq, hr⟩
  · rintro ⟨hq, hr⟩
    exact ⟨⟨hq, hr⟩, by omega⟩

/-- A pool that is settled and not quiescent has another worker that lets go of its task. -/
theorem Books.onlyReleases (books : s.Books) (hun : s.Unquiet p i) :
    s.OnlyReleases p i ↔ s.Settled p := by
  constructor
  · rintro ⟨pool, hp, hq, hr, -⟩
    exact ⟨pool, hp, (books.isSettled hp).mpr ⟨hq, hr⟩⟩
  · rintro ⟨pool, hp, hset⟩
    obtain ⟨pool', hp', hun⟩ := hun
    obtain rfl : pool = pool' := Option.some.inj (hp.symm.trans hp')
    obtain ⟨hq, hr⟩ := (books.isSettled hp).mp hset
    refine ⟨pool, hp, hq, hr, ?_⟩
    simpa [hq, hr] using (books.unquiet hp).mp hun

/-! ### How long a pool stays settled -/

theorem Moves.settled (ms : Moves i s es s') (books : s.Books) (hset : s.Settled p)
    (quiet : es.filterMap (·.push? p) = []) : s'.Settled p := by
  induction ms with
  | nil => exact hset
  | cons m _ ih =>
    rw [List.filterMap_append, List.append_eq_nil_iff] at quiet
    obtain ⟨pool, hp, h⟩ := hset
    obtain ⟨pool', hp', change⟩ := m.pool_change hp
    exact ih (books.move m) ⟨pool', hp', change.settled books hp quiet.1 h⟩ quiet.2

theorem Run.settled (run : Run callers h s) {schedule : List (ThreadId × Action)}
    (hr : s.replay schedule = some (h', s')) (hset : s.Settled p) (quiet : h'.pushes p = []) :
    s'.Settled p := by
  induction schedule generalizing h h' s with
  | nil =>
    cases hr
    exact hset
  | cons move rest ih =>
    obtain ⟨s₁, es, h₁, hs, hr₁, rfl⟩ := replay_cons hr
    simp only [Trace.pushes, List.filterMap_append, List.append_eq_nil_iff, List.filterMap_map,
      Function.comp_def] at quiet
    have hset₁ := (moves_of_step run.calls hs).settled run.books hset quiet.1
    exact ih (run.step hs) hr₁ hset₁ quiet.2

/-! ### How a wait begins -/

/-- A shutdown that has closed the pool does not wait for releases any more. -/
theorem Stops.not_awaits {pools : List Pool} {q : PoolId} {next total : Nat}
    (stops : Stops pools i q pool next total e) : ¬ e.1.Awaits i p := by
  rintro ⟨dropping, woken, rest, hi⟩
  cases stops with
  | waits _ _ hi' => simpa using hi.unique hi'
  | ends _ _ free => exact free.not_inside rfl hi

/-- A wait begins only for the sake of releases. -/
theorem Run.wait_begins (run : Run callers h s) (hs : s.step i a = some (s', es))
    (hi : s'.Inside i (.awaitingReleases p dropping false :: rest)) : s'.OnlyReleases p i := by
  have books := (run.step hs).books
  cases teardownStep_of_step run.calls run.nested hs with
  | joins step =>
    obtain ⟨_, _, _, _, stops⟩ := step
    exact absurd ⟨_, _, _, hi⟩ stops.not_awaits
  | calls _ step =>
    cases step with
    | aloof h => exact absurd hi (h.free.not_inside rfl)
    | waits hp hset hun _ hpools hi' =>
      obtain ⟨⟨rfl, -⟩, -⟩ := by simpa using hi.unique hi'
      rw [← hpools] at hp
      exact (books.onlyReleases ⟨_, hp, hun⟩).mpr ⟨_, hp, hset⟩
    | begins _ _ _ stops => exact absurd ⟨_, _, _, hi⟩ stops.not_awaits
    | repeats _ _ _ stops => exact absurd ⟨_, _, _, hi⟩ stops.not_awaits

/-- Who waits has done so since a state in which there was nothing but releases to wait for. -/
theorem Run.wait_begun (run : Run callers h s)
    (hi : s.Inside i (.awaitingReleases p dropping false :: rest)) :
    ∃ h₀ h₁ s₀ schedule, h = h₀ ++ h₁ ∧ Run callers h₀ s₀ ∧
      s₀.replay schedule = some (h₁, s) ∧ (∀ move ∈ schedule, move.1 ≠ i) ∧
      s₀.OnlyReleases p i := by
  induction run generalizing rest with
  | start =>
    obtain ⟨th, hth, hc⟩ := hi
    rw [List.eq_of_mem_replicate (List.mem_of_getElem? hth)] at hc
    cases hc
  | @step h s s' j a es run hs ih =>
    by_cases hij : i = j
    · subst hij
      exact ⟨_, [], s', [], by simp, run.step hs, rfl, by simp, run.wait_begins hs hi⟩
    · have ms := moves_of_step run.calls hs
      obtain ⟨rest', hi'⟩ := ms.inside_before run.unentered hij hi rfl
      obtain ⟨h₀, h₁, s₀, schedule, rfl, run₀, hr, others, only⟩ := ih hi'
      refine ⟨h₀, _, s₀, _, List.append_assoc .., run₀, replay_snoc hr hs, ?_, only⟩
      simpa [or_imp, forall_and, Ne.symm hij] using others

/-! ### Submissions -/

/-- The step, if it succeeds, is the last one of a submission to the pool. -/
inductive Submits (s : System) (j : ThreadId) (p : PoolId) : Action → Prop
  | call (t : TaskId) (pick : Pick) : Submits s j p (.call (.submit p t) pick)
  | advance {t : TaskId} {rest : List Frame} (pick : Pick) :
      s.Inside j (.awaitingWorker p t true :: rest) → Submits s j p (.advance pick)

/-- A shutdown on the thread waits without a wake-up while a task is queued. -/
structure Overlooks (s : System) (i : ThreadId) (p : PoolId) : Prop where
  waits : ∃ dropping rest, s.Inside i (.awaitingReleases p dropping false :: rest)
  queued : ∃ pool, s.pools[p]? = some pool ∧ pool.queue.isEmpty = false

theorem Overlooks.not_onlyReleases (overlooked : s.Overlooks i p) : ¬ s.OnlyReleases p i := by
  rintro ⟨pool, hp, hempty, -⟩
  obtain ⟨pool', hp', hq⟩ := overlooked.queued
  obtain rfl : pool = pool' := Option.some.inj (hp.symm.trans hp')
  simp [hempty] at hq

theorem Inside.other (hi : s.Inside i calls) (g : Thread → Thread) (hij : j ≠ i) :
    (s.onThread j g).Inside i calls := by
  obtain ⟨th, hth, hc⟩ := hi
  exact ⟨th, by rw [getElem?_onThread, if_neg hij, hth], hc⟩

/-- A worker that is woken for a task is no waiting shutdown. -/
theorem Inside.awaiting_wakeOne {q : PoolId} (pick : Pick)
    (hi : s.Inside i (.awaitingReleases p dropping false :: rest)) :
    ∃ rest', (s.wakeOne q pick).Inside i (.awaitingReleases p dropping false :: rest') := by
  obtain ⟨k, hk⟩ := wakeOne_eq s q pick
  rw [hk]
  by_cases hki : k = i
  · subst hki
    exact ⟨rest.map (Frame.wake (.workAvailable q)), hi.onThread fun th hc => by
      simp [hc, Frame.wake]⟩
  · exact ⟨rest, hi.other _ hki⟩

theorem accept_overlooks (hp : s.pools[p]? = some pool) (hij : j ≠ i)
    (hi : s.Inside i (.awaitingReleases p dropping false :: rest))
    (done : .replied .done ∈ (s.accept j p pool t task pick).2) :
    (s.accept j p pool t task pick).1.Overlooks i p := by
  unfold System.accept at done ⊢
  split at done
  · simp [System.reply] at done
  · next hown =>
    rw [if_neg hown]
    let told := (s.setSlot t task.slot.claim).setPool p (pool.accept t)
    have hi : told.Inside i (.awaitingReleases p dropping false :: rest) := hi
    obtain ⟨rest', hi⟩ := hi.awaiting_wakeOne pick
    have hpool : (told.wakeOne p pick).pools[p]? = some (pool.accept t) := by
      have hlt := (List.getElem?_eq_some_iff.mp hp).1
      simp [told, System.setPool, System.setSlot, hlt]
    have queued : (pool.accept t).queue.isEmpty = false := by
      simp only [Pool.accept, PendingQueue.push, PendingQueue.isEmpty]
      cases pool.queue.order <;> simp
    exact ⟨⟨dropping, rest', hi.other _ hij⟩, _, hpool, queued⟩

theorem submit_accepted (done : .replied .done ∈ (s.submit j p pool t task pick).2) :
    s.submit j p pool t task pick = s.accept j p pool t task pick := by
  revert done
  unfold System.submit
  split
  · simp [System.reply]
  · split
    · simp [System.reply]
    · split
      · split <;> simp [System.reply]
      · split
        · simp
        · simp

theorem resumeSubmit_accepted (done : .replied .done ∈ (s.resumeSubmit j p pool t task pick).2) :
    s.resumeSubmit j p pool t task pick = s.accept j p pool t task pick := by
  revert done
  unfold System.resumeSubmit
  split
  · simp
  · split
    · simp [System.reply]
    · simp

/-- No submission wakes a shutdown. -/
theorem Submits.overlooks (sub : s.Submits j p a) (hs : s.step j a = some (s', es))
    (hij : j ≠ i) (hi : s.Inside i (.awaitingReleases p dropping false :: rest))
    (done : .replied .done ∈ es) : s'.Overlooks i p := by
  cases sub with
  | call t pick =>
    obtain ⟨th, pool, task, -, hp, -, -, he⟩ := step_submit hs
    have done : .replied .done ∈ ((s.inCall j).submit j p pool t task pick).2 := he ▸ done
    have accepted := submit_accepted done
    have overlooked := accept_overlooks (s := s.inCall j) hp hij (hi.other _ hij) (accepted ▸ done)
    rwa [← accepted, he] at overlooked
  | @advance t rest' _ hj =>
    obtain ⟨pool, task, pick, hp, -, he⟩ := hj.resumesSubmit hs
    have done : .replied .done ∈ (s.resumeSubmit j p pool t task pick).2 := he ▸ done
    have accepted := resumeSubmit_accepted done
    have overlooked := accept_overlooks hp hij hi (accepted ▸ done)
    rwa [← accepted, he] at overlooked

/-! ### What a waiting shutdown can rely on -/

/-- What a shutdown that waits for a pool, and has got no wake-up, can rely on. -/
structure ShutdownWaits (callers : Nat) (h : Trace) (s : System) (p : PoolId) : Prop where
  blocked : ∀ {i dropping rest a}, s.Inside i (.awaitingReleases p dropping false :: rest) →
    s.step i a = none
  /-- From outside, the shutdown has a reason to wait, and releases are the only one exactly as long
  as the pool is settled. -/
  reason : ∀ {i dropping rest}, s.Inside i (.awaitingReleases p dropping false :: rest) →
    ¬ s.Has i p .releasing → s.Unquiet p i ∧ (s.OnlyReleases p i ↔ s.Settled p)
  begins : ∀ {i dropping rest a es s'}, s.step i a = some (s', es) →
    s'.Inside i (.awaitingReleases p dropping false :: rest) → s'.OnlyReleases p i
  /-- Since the wait began, with releases only to wait for, nothing but a submission has added to
  what the shutdown waits for. -/
  lasts : ∀ {i dropping rest}, s.Inside i (.awaitingReleases p dropping false :: rest) →
    ∃ h₀ h₁ s₀ schedule, h = h₀ ++ h₁ ∧ Run callers h₀ s₀ ∧ s₀.replay schedule = some (h₁, s) ∧
      (∀ move ∈ schedule, move.1 ≠ i) ∧ s₀.OnlyReleases p i ∧
      (h₁.pushes p = [] → s.Settled p ∧ (¬ s.Has i p .releasing → s.OnlyReleases p i))
  /-- A submission does not wake the shutdown. -/
  overlooks : ∀ {i j dropping rest a es s'},
    s.Inside i (.awaitingReleases p dropping false :: rest) → s.Submits j p a →
    s.step j a = some (s', es) → .replied .done ∈ es → s'.Overlooks i p ∧ ¬ s'.OnlyReleases p i

theorem Run.shutdown_awaits (run : Run callers h s) (p : PoolId) :
    ShutdownWaits callers h s p where
  blocked hi := hi.no_step Frame.quietWait_releases _
  reason hi outside := by
    have hun := run.unquiet_outside hi Frame.quietWait_releases outside
    exact ⟨hun, run.books.onlyReleases hun⟩
  begins hs hi := run.wait_begins hs hi
  lasts {i dropping rest} hi := by
    obtain ⟨h₀, h₁, s₀, schedule, rfl, run₀, hr, others, only⟩ := run.wait_begun hi
    refine ⟨h₀, h₁, s₀, schedule, rfl, run₀, hr, others, only, fun quiet => ?_⟩
    obtain ⟨pool, hp, hq, hrun, -⟩ := only
    have hset₀ : s₀.Settled p := ⟨pool, hp, (run₀.books.isSettled hp).mpr ⟨hq, hrun⟩⟩
    have hset := run₀.settled hr hset₀ quiet
    refine ⟨hset, fun outside => ?_⟩
    have hun := run.unquiet_outside hi Frame.quietWait_releases outside
    exact (run.books.onlyReleases hun).mpr hset
  overlooks {i j dropping rest a es s'} hi sub hs done := by
    have hij : j ≠ i := by
      rintro rfl
      simp [hi.no_step Frame.quietWait_releases a] at hs
    have overlooked := sub.overlooks hs hij hi done
    exact ⟨overlooked, overlooked.not_onlyReleases⟩

/-- A worker lets go of a detached task, and its destructor runs; one caller shuts the pool down and
another one submits a task. -/
def lateSubmit : List (ThreadId × Action) :=
  let call (i : ThreadId) (op : Operation) : ThreadId × Action := (i, .call op 0)
  let go (i : ThreadId) (n : Nat) := List.replicate n (i, Action.advance 0)
  [call 0 (.createPool (.new 1)), call 0 (.createTask none), call 0 (.createTask none),
    call 0 (.submit 0 0)] ++ go 2 1 ++ go 0 1 ++ go 2 2 ++ [call 0 (.detach 0)] ++ go 0 4 ++
  [(2, .finish (.ok .null))] ++ go 2 5 ++ [call 0 (.shutdown 0), call 1 (.submit 0 1)]

/-- The shutdown goes on waiting with the new task in the queue. -/
theorem overlooks_lateSubmit : ∃ h s, Run 2 h s ∧ h.getLast? = some (1, .replied .done) ∧
    s.Overlooks 0 0 := by
  have run : Run 2 _ _ := run_of_replay lateSubmit rfl
  exact ⟨_, _, run, rfl, ⟨false, [], _, rfl, rfl⟩, _, rfl, rfl⟩

theorem shutdown_awaits_lateSubmit : ∃ h s, Run 2 h s ∧
    s.Inside 0 [.awaitingReleases 0 false false] ∧ ¬ s.Has 0 0 .releasing ∧
    ShutdownWaits 2 h s 0 := by
  have run : Run 2 _ _ := run_of_replay lateSubmit rfl
  refine ⟨_, _, run, ⟨_, rfl, rfl⟩, ?_, run.shutdown_awaits 0⟩
  rintro ⟨th, k, hth, hr⟩
  cases hth
  cases hr

end System

end WorkerPool
