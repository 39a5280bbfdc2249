import WorkerPool.Proofs.Ledger

/-!
Totals that do not depend on the schedule.

When all threads are through with their programs and the pool is quiescent, the trace tells of the
same submissions, joins and invocations as the plan, if in another order. So the totals are those of
`Plan.totals`, which knows nothing of schedules.
-/
namespace WorkerPool

/-- Whether a pool has accepted the task and no worker has invoked it. -/
def Stage.queued : Stage → Nat
  | accepted .. => 1
  | resting _ | started .. | ended .. => 0

/-- A task is invoked as often as it is submitted, or once less. -/
theorem Story.begun_eq {employer : ThreadId → Option PoolId} {t : TaskId} {h : Trace} {st : Stage}
    (story : Story employer t h st) :
    (h.named Event.begin?).count t + st.queued = h.submissions t := by
  rw [Trace.count_begun]
  induction story with
  | nil => rfl
  | other i _ hc ih =>
    rw [Trace.submissions_concat, ← ih, List.countP_append, Event.buys_of_other hc]
    simp [Event.starts_of_other hc]
  | accepted i p n _ ih =>
    rw [Trace.submissions_concat, ← ih, List.countP_append]
    simp [Event.starts, Event.buys, Stage.queued]
  | started _ _ ih =>
    rw [Trace.submissions_concat, ← ih, List.countP_append]
    simp [Event.starts, Event.buys, Stage.queued]
  | ended _ _ ih | joined i _ ih =>
    rw [Trace.submissions_concat, ← ih, List.countP_append]
    simp [Event.starts, Event.buys, Stage.queued]

namespace Workload

open WorkerPool.System

/-! ### Totals -/

/-- What a workload comes to. -/
structure Totals where
  invocations : Nat
  /-- The sum of the joined values. -/
  sum : Nat
  joinedPanics : Nat
  submitted : UInt64
  completed : UInt64
  panicked : UInt64
  pending : UInt64
  running : UInt64
  deriving DecidableEq, Repr

/-- What the threads have noted, and what the pool shows. -/
def Progress.totals (s : Progress) (pool : Pool) : Totals where
  invocations := s.runs
  sum := s.sum
  joinedPanics := s.joinedPanics
  submitted := pool.stats.submitted
  completed := pool.totalCompleted
  panicked := pool.totalPanicked
  pending := pool.stats.pendingCount
  running := pool.stats.runningCount

/-- Every task is submitted, invoked and counted once, and the joins of the plan are done. -/
def Plan.totals (plan : Plan) : Totals where
  invocations := plan.tasks.length
  sum := ((plan.due Chore.joins?).map plan.yield).sum
  joinedPanics := (plan.due Chore.joins?).countP plan.panics
  submitted := .ofNat plan.tasks.length
  completed := .ofNat ((List.range plan.tasks.length).countP fun t => !plan.panics t)
  panicked := .ofNat ((List.range plan.tasks.length).countP plan.panics)
  pending := 0
  running := 0

/-- All threads are through with their programs, but for waits. -/
def Progress.IsOver (s : Progress) : Prop := ∀ cs ∈ s.chores, ∀ c ∈ cs, c = .waitIdle

variable {plan : Plan} {s s' : Progress} {i : ThreadId} {a : Action} {e : Effect} {h : Trace}
  {c : Chore} {rest : List Chore} {pool : Pool} {p : PoolId}

/-! ### What is over -/

theorem Progress.IsOver.left_nil {duty : Chore → Option TaskId} (through : s.IsOver)
    (hd : duty .waitIdle = none) : s.left duty = [] := by
  refine List.filterMap_eq_nil_iff.mpr fun c hc => ?_
  obtain ⟨cs, hcs, hmem⟩ := List.mem_flatten.mp hc
  rw [through cs hcs c hmem, hd]

namespace Ledger

theorem sold_perm (ledger : Ledger plan h s) (through : s.IsOver) :
    (h.named Event.sale?).Perm (List.range plan.tasks.length) := by
  have covers := ledger.sold
  rw [Plan.Covers, through.left_nil rfl, List.append_nil] at covers
  exact covers.trans plan.submitted

theorem collected_perm (ledger : Ledger plan h s) (through : s.IsOver) :
    (h.named Event.collect?).Perm (plan.due Chore.joins?) := by
  have covers := ledger.collected
  rwa [Plan.Covers, through.left_nil rfl, List.append_nil] at covers

/-- The pool of the plan accepts all that is accepted. -/
theorem tasks_jobs (ledger : Ledger plan h s) :
    (h.jobs thePool).map Job.task = h.named Event.sale? := by
  rw [Trace.tasks_jobs]
  refine List.filterMap_congr fun x hx => ?_
  have := ledger.foreseen x hx
  obtain ⟨j, e⟩ := x
  cases e with
  | log r => cases r <;> simp_all [Plan.Foresees, Event.sold?, Event.sale?]
  | _ => rfl

/-- Other pools get no jobs. -/
theorem pool_of_job (ledger : Ledger plan h s) {j : Job} (hj : j ∈ h.jobs p) : p = thePool := by
  have hmem := List.mem_map_of_mem (f := Job.task) hj
  rw [Trace.tasks_jobs] at hmem
  obtain ⟨⟨k, e⟩, hx, hsold⟩ := List.mem_filterMap.mp hmem
  have := ledger.foreseen _ hx
  cases e with
  | log r => cases r <;> simp_all [Plan.Foresees, Event.sold?]
  | _ => cases hsold

/-- A closed job of a task that panics as planned is counted as a panic. -/
theorem hasEnded_eq (ledger : Ledger plan h s) {j : Job} (hj : j ∈ h.jobs thePool)
    (closed : j.isOpen = false) (b : Bool) : j.hasEnded b = (plan.panics j.task == !b) := by
  obtain ⟨o, ho⟩ : ∃ o, j.outcome = some o := by
    cases ho : j.outcome with
    | none => simp [Job.isOpen, ho] at closed
    | some o => exact ⟨o, rfl⟩
  obtain ⟨k, hmem⟩ := Trace.ended_of_job hj ho
  have planned : o.ending = .of (plan.ending j.task) := ledger.foreseen _ hmem
  cases hend : plan.ending j.task <;> cases b <;>
    simp [Job.hasEnded, ho, Outcome.returned, planned, Plan.panics, Ending.of, hend]

theorem countP_hasEnded (ledger : Ledger plan h s) (through : s.IsOver)
    (closed : ∀ j ∈ h.jobs thePool, j.isOpen = false) (b : Bool) :
    (h.jobs thePool).countP (Job.hasEnded b) =
      (List.range plan.tasks.length).countP fun t => plan.panics t == !b := by
  rw [← (ledger.sold_perm through).countP_eq, ← ledger.tasks_jobs, List.countP_map]
  exact List.countP_congr fun j hj => by
    rw [ledger.hasEnded_eq hj (closed j hj) b]
    rfl

end Ledger

namespace OnCourse

/-- With all jobs closed, every task has been invoked once. -/
theorem begun_perm (course : OnCourse plan h s) (through : s.IsOver)
    (closed : ∀ j ∈ h.jobs thePool, j.isOpen = false) :
    (h.named Event.begin?).Perm (List.range plan.tasks.length) := by
  refine List.Perm.trans (List.perm_iff_count.mpr fun t => ?_) (course.ledger.sold_perm through)
  obtain ⟨life, st, -, story⟩ := course.run.kept t
  have hbegun := story.begun_eq
  have hsold : (h.named Event.sale?).count t = h.submissions t := Trace.count_sold
  suffices st.queued = 0 by omega
  -- A task that is queued has an open job.
  cases st with
  | accepted n p =>
    have hopen := story.openFor_eq p
    simp only [Stage.openFor, if_true] at hopen
    obtain ⟨j, hj, hfor⟩ := List.countP_pos_iff.mp (Nat.lt_of_lt_of_eq Nat.zero_lt_one hopen.symm)
    obtain rfl := course.ledger.pool_of_job hj
    simp [Job.isOpenFor, closed j hj] at hfor
  | _ => rfl

end OnCourse

/-! ### Settled pools -/

theorem settled_of_quiescent (quiescent : pool.isQuiescentFor i) :
    pool.queue.length = 0 ∧ pool.runningCount = 0 ∧ pool.idleCount = pool.threadCount := by
  simp only [Pool.isQuiescentFor, Pool.isSettled, Bool.and_eq_true, beq_iff_eq] at quiescent
  obtain ⟨⟨⟨hempty, hrunning⟩, hidle⟩, -⟩ := quiescent
  refine ⟨?_, hrunning, hidle⟩
  simpa [PendingQueue.isEmpty, PendingQueue.length] using hempty

/-- What a pool shows when all threads are through with the plan and nothing is left to run. -/
structure Settled (plan : Plan) (s : Progress) (pool : Pool) : Prop where
  totals : s.totals pool = plan.totals
  /-- The counters have not wrapped around. -/
  exact : plan.tasks.length < 2 ^ 64 → pool.stats.submitted.toNat = plan.tasks.length ∧
    pool.totalPanicked.toNat = (List.range plan.tasks.length).countP plan.panics ∧
    pool.totalCompleted.toNat + pool.totalPanicked.toNat = plan.tasks.length
  idle : pool.stats.idleCount = pool.stats.threadCount
  ceiling : pool.stats.threadCount.toNat ≤ plan.config.maxThreads
  staffed : plan.tasks ≠ [] → 1 ≤ pool.stats.threadCount.toNat

theorem Plan.completed_panicked (plan : Plan) :
    ((List.range plan.tasks.length).countP fun t => !plan.panics t) +
      (List.range plan.tasks.length).countP plan.panics = plan.tasks.length := by
  have both := List.length_eq_countP_add_countP plan.panics (l := List.range plan.tasks.length)
  rw [List.length_range, Nat.add_comm] at both
  simpa using both.symm

namespace OnCourse

variable (course : OnCourse plan h s) (through : s.IsOver)
  (hp : s.system.pools[thePool]? = some pool) (quiescent : pool.isQuiescentFor i)

include course through hp quiescent

theorem totals : s.totals pool = plan.totals := by
  obtain ⟨hqueue, hrunning, -⟩ := settled_of_quiescent quiescent
  obtain ⟨closed, submitted, total⟩ := course.run.settled_jobs hp hqueue hrunning
  have invoked := (course.begun_perm through closed).length_eq
  have sold := (course.ledger.sold_perm through).length_eq
  have collected := course.ledger.collected_perm through
  rw [List.length_range] at invoked sold
  rw [← List.length_map (f := Job.task), course.ledger.tasks_jobs, sold] at submitted
  have counted (b : Bool) : pool.total b =
      .ofNat ((List.range plan.tasks.length).countP fun t => plan.panics t == !b) := by
    rw [total, course.ledger.countP_hasEnded through closed]
  have completed : pool.totalCompleted =
      .ofNat ((List.range plan.tasks.length).countP fun t => !plan.panics t) := by
    simpa [Pool.total_true] using counted true
  have panicked : pool.totalPanicked =
      .ofNat ((List.range plan.tasks.length).countP plan.panics) := by
    simpa [Pool.total_false] using counted false
  simp only [Progress.totals, Plan.totals, Totals.mk.injEq]
  refine ⟨course.ledger.runs.trans invoked, ?_, ?_, submitted, completed, panicked, ?_, ?_⟩
  · rw [course.ledger.sum, (collected.map plan.yield).sum_eq]
  · rw [course.ledger.joinedPanics, collected.countP_eq]
  · rw [Pool.stats, hqueue]
    rfl
  · rw [Pool.stats, hrunning]
    rfl

/-- The closed form, with all that a snapshot of the pool shows. -/
theorem settled : Settled plan s pool := by
  have totals := course.totals through hp quiescent
  have submitted : pool.stats.submitted = .ofNat plan.tasks.length :=
    congrArg Totals.submitted totals
  have completed : pool.totalCompleted = .ofNat _ := congrArg Totals.completed totals
  have panicked : pool.totalPanicked = .ofNat _ := congrArg Totals.panicked totals
  have books := course.run.bookkept hp
  obtain ⟨pool', hp', hconfig, hopen, hstaff⟩ := course.hosts
  obtain rfl : pool' = pool := Option.some.inj (hp'.symm.trans hp)
  obtain ⟨hroster, hceiling⟩ := books.ceiling hopen
  have hthreads := (Config.valid_bounds plan.valid).1.2
  rw [hconfig] at hceiling
  unfold maxThreadsLimit at hthreads
  have threads : pool'.stats.threadCount.toNat = pool'.threadCount := toNat_ofNat (by omega)
  obtain ⟨-, -, hidle⟩ := settled_of_quiescent quiescent
  exact {
    totals
    exact := fun hfew => by
      have both := plan.completed_panicked
      have exact {n : Nat} (hn : n ≤ plan.tasks.length) : (UInt64.ofNat n).toNat = n :=
        UInt64.toNat_ofNat_of_lt' (hn.trans_lt hfew)
      rw [submitted, completed, panicked, exact le_rfl, exact (by omega), exact (by omega)]
      exact ⟨rfl, rfl, both⟩
    idle := by simp only [Pool.stats, hidle]
    ceiling := by rw [threads]; omega
    staffed := fun htasks => by
      rw [threads]
      refine hstaff fun hnone => htasks ?_
      have invoked := congrArg Totals.invocations totals
      rw [Progress.totals, course.ledger.runs, hnone] at invoked
      exact List.length_eq_zero_iff.mp invoked.symm }

end OnCourse

/-! ### The closed form -/

/-- How the call for a chore may end. -/
def Chore.Expects (plan : Plan) : Chore → Reply → Prop
  | submit _, r => r = .done ∨ ∃ err, r = .failed err ∧ err.isRecoverable
  | join t, r =>
    match plan.ending t with
    | .ok v => r = .value 1 v
    | .error payload => r = .failed (.taskPanicked (LogRecord.number t) payload.message)
  | waitIdle, r => r = .done
  | trySubmit _, _ | detach _, _ | drop _, _ | shutdown, _ => True

/-- A thread has one chore at a time. -/
theorem chore_unique {c' : Chore} {rest' : List Chore} (hc : s.chores[i]? = some (c :: rest))
    (hc' : s.chores[i]? = some (c' :: rest')) : c' = c := by
  rw [hc] at hc'
  cases hc'
  rfl

namespace Verdict

theorem expects {r : Reply} (v : Verdict plan s i e s') (hc : s.chores[i]? = some (c :: rest))
    (hr : .replied r ∈ e.2) : c.Expects plan r := by
  cases v with
  | quiet quiet => cases quiet _ hr
  | @fails u t _ err hc' passes =>
    obtain rfl := chore_unique hc hc'
    obtain rfl : r = .failed err := by simpa using hr
    exact .inr ⟨err, rfl, passes⟩
  | begins _ _ => simp at hr
  | ends _ => simp at hr
  | submits pool hc' =>
    obtain rfl := chore_unique hc hc'
    exact .inl (by simpa [Pool.receipt] using hr)
  | @joins u t _ hc' =>
    obtain rfl := chore_unique hc hc'
    obtain rfl : r = joinReply t (some (plan.outcome t)) := by simpa using hr
    cases hend : plan.ending t <;>
      simp [Chore.Expects, Plan.outcome, Ending.of, joinReply, hend]
  | @gaveAway u c' t _ r' hc' hgive =>
    obtain rfl := chore_unique hc hc'
    cases c' with
    | detach _ | drop _ => trivial
    | _ => cases hgive
  | idle hc' _ _ _ =>
    obtain rfl := chore_unique hc hc'
    simpa [Chore.Expects] using hr

theorem returned (v : Verdict plan s i e s') (hc : s.chores[i]? = some (.waitIdle :: rest))
    (hr : .replied .done ∈ e.2) : ∃ pool, s.system.pools[thePool]? = some pool ∧
      pool.isQuiescentFor i ∧ s'.system.pools = s.system.pools ∧
        s'.totals pool = s.totals pool := by
  cases v with
  | quiet quiet => cases quiet _ hr
  | fails hc' _ => cases chore_unique hc hc'
  | begins _ _ => simp at hr
  | ends _ => simp at hr
  | submits _ hc' => cases chore_unique hc hc'
  | joins hc' => cases chore_unique hc hc'
  | gaveAway _ hc' hgive =>
    obtain rfl := chore_unique hc hc'
    cases hgive
  | @idle u pool _ _ hp hq hpools => exact ⟨pool, hp, hq, hpools, rfl⟩

end Verdict

/-- What a plan comes to under all schedules, seen from a state on one of its courses. -/
structure ClosedForm (plan : Plan) (s : Progress) : Prop where
  /-- Submissions succeed or fail for a reason that may pass, and joins deliver what the works have
  come to. -/
  answers : ∀ {i a e c rest r}, plan.Allows s i a → s.system.step i a = some e →
    s.chores[i]? = some (c :: rest) → .replied r ∈ e.2 → c.Expects plan r
  /-- When a wait for the pool returns after the end of all programs, the totals are those of the
  plan. -/
  returns : ∀ {i a e rest}, plan.Allows s i a → s.system.step i a = some e →
    s.chores[i]? = some (.waitIdle :: rest) → .replied .done ∈ e.2 → s.IsOver →
    ∃ pool, (s.apply i e).system.pools[thePool]? = some pool ∧ Settled plan (s.apply i e) pool

theorem Course.closedForm (course : Course plan h s) : ClosedForm plan s where
  answers allowed hs hc hr := (course.onCourse.verdict allowed hs).expects hc hr
  returns allowed hs hc hr through := by
    obtain ⟨pool, hp, quiescent, hpools, same⟩ :=
      (course.onCourse.verdict allowed hs).returned hc hr
    have settled := course.onCourse.settled through hp quiescent
    exact ⟨pool, hpools ▸ hp, { settled with totals := same.trans settled.totals }⟩

/-! ### Schedules -/

/-- Lets the threads take turns in this order; submissions wake the first worker that sleeps, and no
destructor panics. -/
def Plan.follow (plan : Plan) : List ThreadId → Progress → Option (Trace × Progress)
  | [], s => some ([], s)
  | i :: turns, s =>
    match plan.action? s i 0 (.ok .null) with
    | none => none
    | some a =>
      match s.system.step i a with
      | none => none
      | some e => (plan.follow turns (s.apply i e)).map fun (h, s') => (e.2.map (i, ·) ++ h, s')

theorem Course.follow {turns : List ThreadId} {h' : Trace} (course : Course plan h s)
    (hr : plan.follow turns s = some (h', s')) : Course plan (h ++ h') s' := by
  induction turns generalizing h h' s with
  | nil =>
    cases hr
    simpa using course
  | cons i turns ih =>
    simp only [Plan.follow] at hr
    split at hr
    · cases hr
    · next a ha =>
      split at hr
      · cases hr
      · next e hs =>
        obtain ⟨⟨h₁, s₁⟩, hr₁, he⟩ := Option.map_eq_some_iff.mp hr
        cases he
        simpa using ih (course.step ⟨0, .ok .null, rfl, ha⟩ hs) hr₁

/-- The schedule of a workload is one of many. -/
theorem Plan.action?_eq {w : Workload} {th : Thread} (hend : plan.ending = w.ending)
    (hstart : w.config.startFailure = none) (hgate : s.gated = false)
    (hth : s.system.threads[i]? = some th) :
    plan.action? s i 0 (.ok .null) = s.action? w i th := by
  rw [Plan.action?, Progress.action?, hth, hgate, hend, Config.pick, hstart]
  rfl

theorem Course.run_workload {w : Workload} (course : Course plan h s)
    (hend : plan.ending = w.ending) (hstart : w.config.startFailure = none)
    (hgate : s.gated = false) (fuel : Nat) : ∃ h', Course plan h' (s.run w fuel) := by
  induction fuel generalizing h s with
  | zero => exact ⟨h, course⟩
  | succ fuel ih =>
    unfold Progress.run
    split
    · exact ⟨h, course⟩
    · next s' hm =>
      obtain ⟨i, -, hm⟩ := List.exists_of_findSome?_eq_some hm
      simp only [Progress.move?, Option.bind_eq_bind, Option.bind_eq_some_iff, Option.pure_def,
        Option.some.injEq] at hm
      obtain ⟨th, hth, a, ha, e, hs, rfl⟩ := hm
      have allowed : plan.action? s i 0 (.ok .null) = some a :=
        (Plan.action?_eq hend hstart hgate hth).trans ha
      exact ih (course.step ⟨0, .ok .null, rfl, allowed⟩ hs)
        (by rw [Progress.gated_apply, hgate])

/-- One thread joins a task that returns, and another one detaches a task that panics. -/
def oneTaskEach : Plan where
  config := { maxThreads := 1, maxPending := 1 }
  tasks := [none, none]
  programs := [[.submit 0, .join 0, .waitIdle], [.submit 1, .detach 1]]
  ending t := if t = 0 then .ok (.nat 7) else .error (.text "boom")
  valid := rfl
  plain := by decide
  submitted := by decide
  joined := by decide
  order := by decide

/-- The second thread finds the queue full at first. -/
def secondFindsFull : List ThreadId :=
  [0, 2, 0, 1, 2, 2, 2, 1, 0, 2, 2, 2, 2, 2, 2, 0, 0, 1, 1, 1, 1, 1] ++ List.replicate 11 2

theorem closedForm_oneTaskEach : ∃ h s u, Course oneTaskEach h s ∧
    h[9]? = some (1, .replied (.failed (.tooManyTasks 1 1))) ∧
    oneTaskEach.Allows s 0 (.advance 0) ∧
    s.system.step 0 (.advance 0) = some (u, [.replied .done]) ∧
    s.chores = [[.waitIdle], []] ∧ s.IsOver ∧
    oneTaskEach.totals = ⟨2, 7, 0, 2, 1, 1, 0, 0⟩ ∧ ClosedForm oneTaskEach s := by
  have course : Course oneTaskEach _ _ :=
    (Course.start rfl).follow (rfl : oneTaskEach.follow secondFindsFull _ = some (_, _))
  refine ⟨_, _, _, course, rfl, ⟨0, .ok .null, rfl, rfl⟩, rfl, rfl, ?_, by decide,
    course.closedForm⟩
  intro cs (hcs : cs ∈ [[Chore.waitIdle], []])
  revert cs
  decide

end Workload

end WorkerPool
