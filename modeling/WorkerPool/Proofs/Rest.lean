import WorkerPool.Proofs.Halting
import WorkerPool.Proofs.ShutdownDecision
import WorkerPool.Proofs.Totals
import WorkerPool.Proofs.WakeUps

/-!
Pools at rest.

Once every worker sleeps or has terminated, no work is left: a pool that has taken tasks has got a
worker to run them, and it would not sleep otherwise. So nothing is queued, nothing runs, and what
pools own has finished. No call is told then to come back later.
-/
namespace WorkerPool

/-- The error that a call comes back with, if it does. -/
def Reply.error? : Reply → Option PoolError
  | failed e | rejected e => some e
  | _ => none

/-- No error of a finished join passes by itself. -/
theorem recoverable_joinReply {t : TaskId} {o : Option Outcome} {e : PoolError}
    (he : (System.joinReply t o).error? = some e) : e.isRecoverable = false := by
  unfold System.joinReply at he
  split at he <;> cases he <;> rfl

namespace System

variable {s s' : System} {i j : ThreadId} {p : PoolId} {k n : Nat} {t : TaskId} {pool : Pool}
  {task : Task} {f : Frame} {th : Thread} {es : List Event} {a : Action}
  {e : Effect} {h : Trace} {callers : Nat} {pick : Pick} {phase : Phase}

/-! ### Pools with workers -/

/-- The pool has got a worker at some time. -/
def Staffed (s : System) (p : PoolId) : Prop :=
  ∃ pool, s.pools[p]? = some pool ∧ 0 < pool.crew.length

theorem Moves.staffed (ms : Moves i s es s') (books : s.Books) (staffed : s.Staffed p) :
    s'.Staffed p := by
  obtain ⟨pool, hp, hlen⟩ := staffed
  obtain ⟨pool', hp', -, hle⟩ := ms.workload books hp
  exact ⟨pool', hp', hlen.trans_le hle⟩

theorem Books.staffed_of_role (books : s.Books) (hth : s.threads[i]? = some th)
    (hr : th.role = .worker p k phase) : s.Staffed p := by
  obtain ⟨pool, hp⟩ := books.pool_of_role hth hr
  have hand : pool.hands[k]? = some i :=
    ((books.pools p pool hp).crew k i).mpr (mem_posts.mpr ⟨th, phase, hth, hr⟩)
  have hlt := (List.getElem?_eq_some_iff.mp hand).1
  rw [Pool.hands, List.length_map] at hlt
  exact ⟨pool, hp, by omega⟩

/-- Whoever waits for a worker to register has one to wait for. -/
theorem Books.staffed_of_due {woken : Bool} (books : s.Books)
    (due : s.Due i (.awaitingWorker p t woken)) : s.Staffed p := by
  obtain ⟨-, -, ⟨th, hth, k, hr⟩ | ⟨pool, hp, hu⟩⟩ := due
  · obtain ⟨j, hj⟩ := List.getElem?_of_mem hth
    exact books.staffed_of_role hj hr
  · refine ⟨pool, hp, ?_⟩
    unfold Pool.unregistered Pool.rosterSize at hu
    split at hu <;> omega

/-- Submissions that wait have been called for on pools with a worker. -/
def Attending (s : System) : Prop :=
  s.EachFrame fun f => ∀ p t woken, f = .awaitingWorker p t woken → s.Staffed p

theorem Attending.move (attending : s.Attending) (books : s.Books) (m : Move i s es s') :
    s'.Attending := by
  have before : s.EachFrame fun f => ∀ p t woken, f = .awaitingWorker p t woken → s'.Staffed p :=
    attending.mono fun f hf p t woken h => (Moves.single m).staffed books (hf p t woken h)
  refine m.eachFrame before (fun c f hf p t woken h => ?_) (fun f due p t woken h => ?_)
    (fun _ _ _ p t woken h => by cases h) (fun p t woken h => by cases h)
  · cases f <;> cases h
    exact hf _ _ _ rfl
  · have popped : (s.onThread i Thread.pop).Books := books.onThread fun _ => rfl
    have waits : (s.onThread i Thread.pop).Staffed p := popped.staffed_of_due (h ▸ due)
    exact (Moves.single m).staffed books waits

theorem Run.attending (run : Run callers h s) : s.Attending :=
  (run.keeps (P := fun _ s => s.Books ∧ s.Attending)
    ⟨.start callers, fun th hth => by simp [List.eq_of_mem_replicate hth]⟩
    fun _ ⟨books, attending⟩ m => ⟨books.move m, attending.move books m⟩).2

/-- A pool that takes a task has a worker. -/
theorem Run.staffed_of_accepted (run : Run callers h s) (hs : s.step i a = some (s', es))
    (hev : .log (.submitted p t n) ∈ es) : s.Staffed p := by
  obtain ⟨q, pool, tries, hp, he⟩ := submitted_by run.calls hs hev (t := t) (by simp [Event.buys])
  have he : es = pool.receipt q t := he
  obtain rfl : p = q := by
    rw [he] at hev
    have told : p = q ∧ n = (pool.accept t).queue.length := by simpa [Pool.receipt] using hev
    exact told.1
  cases tries with
  | goOn _ hi => exact run.attending.inside hi _ _ _ rfl
  | call pick =>
    obtain ⟨pool', hp', step⟩ := submitStep_of_step hs
    obtain rfl : pool = pool' := Option.some.inj (hp.symm.trans hp')
    refine ⟨pool, hp, Nat.pos_of_ne_zero fun hlen => ?_⟩
    cases step with
    | accepts hn acc _ =>
      have ho := (Pool.Balanced.isOpen acc.refusal).1
      simp [Pool.needsWorker, Pool.rosterSize, ho, hlen] at hn
    | _ => simp [Pool.receipt] at he

/-- Whoever has told of a task that the pool has taken, the pool has got a worker. -/
theorem Run.staffed_of_submitted (run : Run callers h s)
    (hev : (i, .log (.submitted p t n)) ∈ h) : s.Staffed p := by
  induction run with
  | start => cases hev
  | @step h s s' j a es run hs ih =>
    have later := (moves_of_step run.calls hs).staffed run.books (p := p)
    rcases List.mem_append.mp hev with old | new
    · exact later (ih old)
    · obtain ⟨ev, hmem, heq⟩ := List.mem_map.mp new
      obtain ⟨-, rfl⟩ := Prod.mk.inj heq
      exact later (run.staffed_of_accepted hs hmem)

/-- A pool that has tasks in its queue has got a worker. -/
theorem Run.staffed_of_queued (run : Run callers h s) (hp : s.pools[p]? = some pool)
    (hq : 0 < pool.queue.length) : s.Staffed p := by
  have opened := (run.accounted p).invocations
  have queued : (s.figures p).queued = pool.queue.length := by rw [figures_eq hp]; rfl
  have some_job : 0 < (h.jobs p).length :=
    lt_of_lt_of_le (by omega) (List.countP_le_length (p := Job.isOpen))
  have told : 0 < (h.filterMap fun x => x.2.sold? p).length := by
    rwa [← Trace.tasks_jobs, List.length_map]
  obtain ⟨t, ht⟩ := List.exists_mem_of_length_pos told
  obtain ⟨⟨j, ev⟩, hmem, hsold⟩ := List.mem_filterMap.mp ht
  obtain ⟨n, rfl⟩ : ∃ n, ev = .log (.submitted p t n) := by
    unfold Event.sold? at hsold
    split at hsold
    · next q u n hev =>
      obtain rfl : ev = _ := hev
      split at hsold
      · next hq =>
        cases hsold
        exact ⟨n, by rw [hq]⟩
      · cases hsold
    · cases hsold
  exact run.staffed_of_submitted hmem

/-! ### Pools at rest -/

namespace Rested

variable (rested : s.Rested)
include rested

theorem phase_of_role (hth : s.threads[j]? = some th) (hr : th.role = .worker p k phase) :
    phase = .parked false ∨ phase = .exited := by
  have still := rested j th hth (by simp [Thread.employer, hr])
  unfold Thread.isAtRest at still
  split at still
  · next hr' =>
    rw [hr] at hr'
    cases hr'
    exact .inl rfl
  · next hr' =>
    rw [hr] at hr'
    cases hr'
    exact .inr rfl
  · cases still

/-- All workers are without a task, or gone. -/
theorem staff_eq_zero {st : Station} (hidle : st ≠ .idle) (hgone : st ≠ .exited) :
    staff s.posts p st = 0 := by
  refine List.countP_eq_zero.mpr fun post hpost => ?_
  obtain ⟨th, hth, rfl⟩ := List.mem_map.mp hpost
  obtain ⟨j, hj⟩ := List.getElem?_of_mem hth
  cases hr : th.role with
  | caller => simp [Thread.post, hr]
  | worker q k phase =>
    rcases rested.phase_of_role hj hr with rfl | rfl
    · simp [Thread.post, hr, Phase.station, hidle.symm]
    · simp [Thread.post, hr, Phase.station, hgone.symm]

theorem woken_eq_zero (p : PoolId) : s.resting p true = 0 := by
  refine List.countP_eq_zero.mpr fun th hth => ?_
  obtain ⟨j, hj⟩ := List.getElem?_of_mem hth
  cases hr : th.role with
  | caller => simp [Thread.worksAt, hr]
  | worker q k phase =>
    rcases rested.phase_of_role hj hr with rfl | rfl <;> simp [Thread.worksAt, hr, Phase.rests]

theorem asleep_pos (hw : 0 < s.waiting p) : 0 < s.resting p false := by
  obtain ⟨th, hth, waits⟩ := List.countP_pos_iff.mp hw
  refine List.countP_pos_iff.mpr ⟨th, hth, ?_⟩
  obtain ⟨j, hj⟩ := List.getElem?_of_mem hth
  cases hr : th.role with
  | caller => simp [Thread.waitsIn, hr] at waits
  | worker q k phase =>
    rcases rested.phase_of_role hj hr with rfl | rfl
    · simpa [Thread.waitsIn, Thread.worksAt, hr, Phase.rests] using waits
    · simp [Thread.waitsIn, hr] at waits

/-- The workers of an open pool wait for work. -/
theorem waiting_eq_crew (run : Run callers h s) (hp : s.pools[p]? = some pool)
    (ho : pool.closed = false) : pool.unregistered = 0 ∧ s.waiting p = pool.crew.length := by
  have balanced := run.books.pools p pool hp
  have crew := run.books.crew_eq hp ho
  have started := balanced.enlisted ho
  rw [rested.staff_eq_zero (by simp) (by simp)] at started
  have registered : pool.unregistered = 0 := by
    simp [Pool.unregistered, Pool.rosterSize, ho, started]
  have running := balanced.running
  rw [rested.staff_eq_zero (by simp) (by simp)] at running
  have releasing := balanced.length_releasing
  rw [rested.staff_eq_zero (by simp) (by simp)] at releasing
  exact ⟨registered, by omega⟩

theorem queue_eq_zero (run : Run callers h s) (hp : s.pools[p]? = some pool) :
    pool.queue.length = 0 := by
  by_contra hq
  have ho : pool.closed = false := by
    by_contra hc
    have empty := ((run.books.pools p pool hp).calm (by simpa using hc)).2
    simp [PendingQueue.length, empty] at hq
  obtain ⟨pool', hp', staffed⟩ := run.staffed_of_queued hp (Nat.pos_of_ne_zero hq)
  obtain rfl : pool = pool' := Option.some.inj (hp.symm.trans hp')
  have waiting := (rested.waiting_eq_crew run hp ho).2
  have asleep := rested.asleep_pos (p := p) (by omega)
  have awake := rested.woken_eq_zero p
  rcases run.alert p with none | enough
  · omega
  · rw [backlog_eq hp] at enough
    omega

/-- Nothing is queued, nothing runs, and nothing is let go of. -/
theorem calm (run : Run callers h s) (hp : s.pools[p]? = some pool) : pool.isCalm := by
  have balanced := run.books.pools p pool hp
  have queue := rested.queue_eq_zero run hp
  have running := balanced.running
  rw [rested.staff_eq_zero (by simp) (by simp)] at running
  have releasing := balanced.length_releasing
  rw [rested.staff_eq_zero (by simp) (by simp)] at releasing
  have settled : pool.isSettled := (run.books.settled_iff hp).mpr (by omega)
  simp [Pool.isCalm, settled, List.length_eq_zero_iff.mp releasing]

/-- What a pool owns has finished. -/
theorem concluded (run : Run callers h s) (ho : (s.task t).slot.ownership ≠ .caller) :
    s.Concluded t := by
  by_contra hfin
  obtain ⟨p, pool, hp, -, ⟨pool', hp', hmem⟩ | ⟨j, phase, ⟨th, k, hth, hr⟩, ht⟩⟩ :=
    run.entrusted ho hfin
  · have empty := rested.queue_eq_zero run hp'
    rw [PendingQueue.length, List.length_eq_zero_iff] at empty
    simp [empty] at hmem
  · rcases rested.phase_of_role hth hr with rfl | rfl <;> cases ht

end Rested

/-! ### Calls -/

/-- What user code calls, and what the first section of the call does. -/
inductive Called (s : System) (i : ThreadId) (pick : Pick) : Operation → Effect → Prop
  | rejected {c : Config} {e : PoolError} : Pool.create c = .error e →
      Called s i pick (.createPool c) ((s.inCall i).reply i (.failed e))
  | createPool {c : Config} {pool : Pool} : Pool.create c = .ok pool →
      Called s i pick (.createPool c) (emit [.log (.created c)]
        (((s.inCall i).addPool pool).reply i (.pool s.pools.length)))
  | createTask {captured : Option Span} : Called s i pick (.createTask captured)
      (((s.inCall i).addTask { captured }).reply i (.task s.tasks.length))
  | submit {p : PoolId} {t : TaskId} {pool : Pool} {task : Task} : s.pools[p]? = some pool →
      s.tasks[t]? = some task → s.canUse p → s.canShare t →
      Called s i pick (.submit p t) ((s.inCall i).submit i p pool t task pick)
  | join {t : TaskId} {bound : Bound} {task : Task} : s.tasks[t]? = some task → s.canOwn t →
      Called s i pick (.join t bound) ((s.inCall i).join i t task bound)
  | detach {t : TaskId} {task : Task} : s.tasks[t]? = some task → s.canOwn t →
      Called s i pick (.detach t) ((s.inCall i).detach i t task)
  | destroy {t : TaskId} {task : Task} : s.tasks[t]? = some task → s.canOwn t →
      Called s i pick (.destroy t) ((s.inCall i).destroy i t task)
  | drop {t : TaskId} {task : Task} : s.tasks[t]? = some task → s.canOwn t →
      Called s i pick (.drop t) ((s.inCall i).letGo i t task [.handle t])
  | waitIdle {p : PoolId} {pool : Pool} : s.pools[p]? = some pool → s.canUse p →
      Called s i pick (.waitIdle p) ((s.inCall i).waitIdle i p pool false)
  | shutdown {p : PoolId} {pool : Pool} : s.pools[p]? = some pool → s.canUse p →
      Called s i pick (.shutdown p) ((s.inCall i).shutdown i p pool false)
  | dropPool {p : PoolId} {pool : Pool} : s.pools[p]? = some pool → s.canDrop p →
      Called s i pick (.dropPool p) ((s.inCall i).dropPool i p pool)

theorem step_call {op : Operation} (hs : s.step i (.call op pick) = some e) :
    (∃ th, s.threads[i]? = some th ∧ th.inUserCode) ∧ s.Called i pick op e := by
  obtain ⟨th, hth, hs⟩ := Option.bind_eq_some_iff.mp hs
  obtain ⟨user, hs⟩ : th.inUserCode ∧ s.call? i op pick = some e := by simpa using hs
  refine ⟨⟨th, hth, user⟩, ?_⟩
  cases op with
  | createPool c =>
    simp only [call?] at hs
    split at hs
    · next hc =>
      cases hs
      exact .rejected hc
    · next hc =>
      cases hs
      exact .createPool hc
  | createTask captured =>
    cases hs
    exact .createTask
  | submit p t =>
    obtain ⟨pool, hp, hs⟩ := Option.bind_eq_some_iff.mp hs
    obtain ⟨task, ht, hs⟩ := Option.bind_eq_some_iff.mp hs
    obtain ⟨admits, hs⟩ := Option.ite_none_right_eq_some.mp hs
    obtain ⟨use, share⟩ := (Bool.and_eq_true _ _).mp admits
    cases hs
    exact .submit hp ht use share
  | join t bound | detach t | destroy t | drop t =>
    obtain ⟨task, ht, hs⟩ := Option.bind_eq_some_iff.mp hs
    obtain ⟨own, hs⟩ := Option.ite_none_right_eq_some.mp hs
    cases hs
    constructor <;> assumption
  | waitIdle p | shutdown p | dropPool p =>
    obtain ⟨pool, hp, hs⟩ := Option.bind_eq_some_iff.mp hs
    obtain ⟨use, hs⟩ := Option.ite_none_right_eq_some.mp hs
    cases hs
    constructor <;> assumption

theorem join_of_step {bound : Bound} (hs : s.step i (.call (.join t bound) pick) = some e) :
    ∃ task, s.tasks[t]? = some task ∧ s.canOwn t ∧ (s.inCall i).join i t task bound = e := by
  cases (step_call hs).2 with
  | join ht own => exact ⟨_, ht, own, rfl⟩

theorem detach_of_step (hs : s.step i (.call (.detach t) pick) = some e) :
    ∃ task, s.tasks[t]? = some task ∧ s.canOwn t ∧ (s.inCall i).detach i t task = e := by
  cases (step_call hs).2 with
  | detach ht own => exact ⟨_, ht, own, rfl⟩

theorem destroy_of_step (hs : s.step i (.call (.destroy t) pick) = some e) :
    ∃ task, s.tasks[t]? = some task ∧ s.canOwn t ∧ (s.inCall i).destroy i t task = e := by
  cases (step_call hs).2 with
  | destroy ht own => exact ⟨_, ht, own, rfl⟩

/-! ### Calls that are answered at once -/

theorem Underway.called {op : Operation} {own : List Passage}
    (under : Underway s i op own h s') : ∃ pick s₁ es,
      s.step i (.call op pick) = some (s₁, es) ∧ ∀ r, .replied r ∉ es := by
  induction under with
  | call hs silent => exact ⟨_, _, _, hs, silent⟩
  | own _ _ _ ih => exact ih
  | other _ _ _ ih => exact ih

/-- A call that never waits returns with its first section. -/
theorem Returns.at_once {op : Operation} {own : List Passage} {last : Passage} {r : Reply}
    (returns : Returns s i op own h last r)
    (once : ∀ {pick s' es}, s.step i (.call op pick) = some (s', es) → ∃ r, .replied r ∈ es) :
    ∃ pick s' es, s.step i (.call op pick) = some (s', es) ∧ .replied r ∈ es := by
  cases returns with
  | atOnce hs hr => exact ⟨_, _, _, hs, hr⟩
  | later under _ _ =>
    obtain ⟨pick, s₁, es, hs, silent⟩ := under.called
    obtain ⟨r, hr⟩ := once hs
    exact absurd hr (silent r)

/-! ### Calls on pools at rest -/

namespace Rested

variable (rested : s.Rested) (run : Run callers g s)
include rested run

/-- A pool with workers at rest does not let a submission wait. -/
theorem submit_replies (staffed : s.Staffed p)
    (hs : s.step i (.call (.submit p t) pick) = some (s', es)) : ∃ r, .replied r ∈ es := by
  by_contra silent
  obtain ⟨⟨pool, task, hp, -, accepts, -, -, workers⟩, -⟩ :=
    begins_of_step run.calls hs (not_exists.mp silent)
  have hp : s.pools[p]? = some pool := hp
  have ho := (Pool.Balanced.isOpen accepts).1
  obtain ⟨registered, waiting⟩ := rested.waiting_eq_crew run hp ho
  obtain ⟨pool', hp', hlen⟩ := staffed
  obtain rfl : pool = pool' := Option.some.inj (hp.symm.trans hp')
  rcases workers with ⟨needs, -⟩ | ⟨-, hu, -⟩
  · rcases (run.books.needsWorker_iff hp ho).mp needs with hcrew | ⟨hw, -⟩
    · simp [hcrew] at hlen
    · omega
  · omega

theorem submit_error {r : Reply} {e : PoolError}
    (hs : s.step i (.call (.submit p t) pick) = some (s', es)) (hr : .replied r ∈ es)
    (he : r.error? = some e) : e.isRecoverable = false := by
  obtain ⟨pool, task, hp, -, -, attempt⟩ := Attempts.attempt (.call pick) run.calls hs
  cases attempt with
  | declined declines _ _ =>
    obtain rfl : r = .failed _ := by simpa using hr
    cases he
    cases declines with
    | refusal refused =>
      rcases Pool.refusal_eq_some refused with ⟨rfl, -⟩ | ⟨-, full⟩
      · rfl
      · have balanced := run.books.pools p pool hp
        have capacity := (Config.valid_bounds balanced.valid).2.1
        have queue := rested.queue_eq_zero run hp
        have full : pool.queue.capacity ≤ pool.queue.length := by
          simpa [PendingQueue.isFull] using full
        rw [balanced.capacity] at full
        omega
    | owned _ _ => rfl
    | unstaffed _ _ _ _ => rfl
  | hires _ _ _ _ => simp at hr
  | waits _ _ _ _ _ => cases hr
  | accepted _ _ _ _ _ =>
    obtain rfl : r = .done := by simpa [Pool.receipt] using hr
    cases he

/-- Whoever joins a task now finds it finished, or with its caller. -/
theorem join_replies {bound : Bound}
    (hs : s.step i (.call (.join t bound) pick) = some (s', es)) :
    ∃ r, (∀ r', .replied r' ∈ es ↔ r' = r) ∧ ∀ e, r.error? = some e → e.isRecoverable = false := by
  obtain ⟨task, ht, -, hjoin⟩ := join_of_step hs
  unfold join at hjoin
  split at hjoin
  · cases hjoin
    exact ⟨.failed .notSubmitted, by simp, fun e he => by cases he; rfl⟩
  · next ho =>
    have owned : (s.task t).slot.ownership ≠ .caller := by
      rw [task_eq ht, not_not.mp ho]
      simp
    have finished : task.slot.state = .finished := by
      have concluded := rested.concluded run owned
      rwa [Concluded, task_eq ht] at concluded
    rw [if_pos finished] at hjoin
    cases hjoin
    exact ⟨joinReply t task.slot.outcome, by simp [reply],
      fun e he => recoverable_joinReply he⟩

/-- A shutdown finds the pool closed, or closes it. -/
theorem shutdown_closes (hs : s.step i (.call (.shutdown p) pick) = some (s', es)) :
    s'.isClosed p := by
  obtain ⟨pool, hp, ⟨hc, hpools, -⟩ | ⟨-, judges⟩⟩ := shutdown_judges run hs
  · have hp' : s'.pools[p]? = some pool := hpools ▸ hp
    exact isClosed_of_pool hp' hc
  · have calm := rested.calm run hp
    have quiet := Pool.isQuiescentFor_of_isCalm (i := i) calm
    cases judges with
    | waits _ unquiet _ _ _ => simp [quiet] at unquiet
    | refuses unsettled _ _ _ => simp [Pool.isCalm, unsettled] at calm
    | commits _ stops =>
      obtain ⟨new, hnew, hc, -⟩ := stops.pool_eq hp rfl
      exact isClosed_of_pool hnew hc

theorem closed_of_underway {own : List Passage} (under : Underway s i (.shutdown p) own h s') :
    s'.isClosed p := by
  induction under with
  | call hs _ => exact rested.shutdown_closes run hs
  | own under hs _ ih | other under _ hs ih =>
    obtain ⟨pool, hp, hc⟩ := (Option.any_eq_true _ _).mp ih
    obtain ⟨pool', hp', hc', -⟩ := (moves_of_step (under.run run).calls hs).closed hp hc
    exact isClosed_of_pool hp' hc'

theorem shutdown_done {own : List Passage} {last : Passage} {r : Reply}
    (returns : Returns s i (.shutdown p) own h last r) : r = .done := by
  rcases returns.shutdown run with ⟨done, -⟩ | ⟨err, -, refused⟩
  · exact done
  · obtain ⟨pool, hp, ho, -⟩ := refused.pool
    have still_open : last.before.isClosed p = false := by simp [isClosed, hp, ho]
    cases returns with
    | atOnce hs _ =>
      have same := (refused.idles _ (List.mem_append_right _ (List.mem_singleton_self _))).pools
      have closed := rested.shutdown_closes run hs
      rw [isClosed, same] at closed
      rw [isClosed, closed] at still_open
      cases still_open
    | later under _ _ =>
      rw [rested.closed_of_underway run under] at still_open
      cases still_open

end Rested

end System

end WorkerPool
