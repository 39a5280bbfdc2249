import WorkerPool.Proofs.Jobs
import WorkerPool.Proofs.Rounds
import WorkerPool.Proofs.WorkerWait

/-!
The totals of a pool.

Submissions are counted under the lock of the pool, executions by each worker without it, and a
running task is counted down only later. `System.Account` puts next to each other what the counters
show and what each worker still owes for its task; every move keeps it in agreement with the jobs
that the trace tells of.
-/
namespace WorkerPool

/-- What a worker has yet to do for the task in its hands. -/
inductive Duty
  /-- The invocation has not ended. -/
  | invoke
  /-- The execution has to be counted. -/
  | count (returned : Bool)
  /-- The task has to be completed. -/
  | complete
  deriving DecidableEq, Repr

def Phase.duty : Phase → Option Duty
  | holding _ | running _ => some .invoke
  | stashing _ _ o => some (.count o.returned)
  | stashed _ returned => some (.count returned)
  | counted _ => some .complete
  | starting | parked _ | releasing | exited => none

/-- Whether a worker in this phase has the duty. -/
def Phase.owes (d : Duty) (phase : Phase) : Bool := decide (phase.duty = some d)

theorem Phase.wakeStable_owes (d : Duty) : WakeStable (Phase.owes d) := fun _ => rfl

/-! ### Counters of the workers of a pool -/

/-- Executions by the worker that returned, or that panicked. -/
def Member.executions (returned : Bool) (m : Member) : UInt64 :=
  if returned then m.stats.completed else m.stats.panicked

namespace Pool

variable {pool : Pool} {k : Nat} {j : ThreadId} {b : Bool}

/-- Executions that returned, or that panicked, over all workers. -/
def total (b : Bool) (pool : Pool) : UInt64 :=
  pool.crew.foldl (fun n m => n + m.executions b) 0

theorem total_true : pool.total true = pool.totalCompleted := rfl

theorem total_false : pool.total false = pool.totalPanicked := rfl

theorem foldl_executions_add (l : List Member) (a c : UInt64) :
    l.foldl (fun n m => n + m.executions b) (a + c) =
      l.foldl (fun n m => n + m.executions b) a + c := by
  induction l generalizing a with
  | nil => rfl
  | cons m l ih =>
    have comm : a + c + m.executions b = a + m.executions b + c := by
      rw [UInt64.add_assoc, UInt64.add_comm c, ← UInt64.add_assoc]
    rw [List.foldl_cons, List.foldl_cons, comm, ih]

theorem foldl_executions_modify {l : List Member} {g : Member → Member} {c : UInt64}
    (hk : k < l.length) (hg : ∀ m, (g m).executions b = m.executions b + c) (a : UInt64) :
    (l.modify k g).foldl (fun n m => n + m.executions b) a =
      l.foldl (fun n m => n + m.executions b) a + c := by
  induction l generalizing k a with
  | nil => simp at hk
  | cons m l ih =>
    cases k with
    | zero =>
      rw [List.modify_zero_cons, List.foldl_cons, List.foldl_cons, hg, ← UInt64.add_assoc,
        foldl_executions_add]
    | succ k =>
      rw [List.modify_succ_cons, List.foldl_cons, List.foldl_cons]
      exact ih (by simpa using hk) _

theorem total_hire : (pool.hire j).total b = pool.total b := by
  have fresh : Member.executions b { thread := j } = 0 := by cases b <;> rfl
  simp [total, hire, List.foldl_append, fresh]

theorem total_requestExit : (pool.requestExit k).total b = pool.total b := by
  have views (l : List Member) : l.foldl (fun n m => n + m.executions b) 0 =
      (l.map (Member.executions b)).foldl (· + ·) 0 := by rw [List.foldl_map]
  have same : (pool.requestExit k).crew.map (Member.executions b) =
      pool.crew.map (Member.executions b) := map_modify_of_eq fun _ => rfl
  rw [total, total, views, views, same]

/-- An execution is counted once, as what it was. -/
theorem total_count (hk : k < pool.crew.length) (returned : Bool) :
    (pool.count k returned).total b = pool.total b + if returned = b then 1 else 0 := by
  refine foldl_executions_modify hk (fun m => ?_) 0
  cases returned <;> cases b <;>
    simp [Member.executions, WorkerStats.addCompleted, WorkerStats.addPanicked,
      WorkerStats.completed, WorkerStats.panicked]

end Pool

/-! ### Accounts -/

/-- What the counters of a pool show. -/
structure Figures where
  submitted : UInt64 := 0
  total : Bool → UInt64 := fun _ => 0
  queued : Nat := 0

def Pool.figures (pool : Pool) : Figures where
  submitted := pool.submitted
  total b := pool.total b
  queued := pool.queue.length

/-- The figures of a pool, and how many of its workers have each duty, fit the jobs. -/
structure Figures.Fit (staff : Duty → Nat) (jobs : List Job) (f : Figures) : Prop where
  submitted : f.submitted = .ofNat jobs.length
  /-- An open job is in the queue or in the hands of a worker. -/
  invocations : jobs.countP Job.isOpen = f.queued + staff .invoke
  /-- Every other job is counted, or a worker has yet to count it. -/
  executions : ∃ n : Bool → Nat, (∀ b, f.total b = .ofNat (n b)) ∧
    (∀ b, jobs.countP (Job.hasEnded b) = n b + staff (.count b)) ∧
    staff .complete ≤ n true + n false

namespace Figures.Fit

variable {staff staff' : Duty → Nat} {jobs : List Job} {f f' : Figures} {t : TaskId} {o : Outcome}
  {returned : Bool}

theorem accept (fit : f.Fit staff jobs) (hs : f'.submitted = f.submitted + 1)
    (ht : f'.total = f.total) (hq : f'.queued = f.queued + 1) :
    f'.Fit staff (jobs ++ [⟨t, none⟩]) := by
  obtain ⟨submitted, invocations, executions⟩ := fit
  refine ⟨?_, ?_, ?_⟩
  · rw [hs, submitted, List.length_append, UInt64.ofNat_add]
    rfl
  · rw [List.countP_append, invocations, hq]
    simp only [List.countP_singleton, Job.isOpen, Option.isNone_none, if_true]
    omega
  · simpa [ht, List.countP_append, Job.hasEnded] using executions

/-- A worker takes a task out of the queue. -/
theorem claim (fit : f.Fit staff jobs) (hs : f'.submitted = f.submitted) (ht : f'.total = f.total)
    (hq : f'.queued + 1 = f.queued) (hinvoke : staff' .invoke = staff .invoke + 1)
    (hrest : ∀ d, d ≠ .invoke → staff' d = staff d) : f'.Fit staff' jobs := by
  obtain ⟨submitted, invocations, executions⟩ := fit
  refine ⟨hs.trans submitted, by omega, ?_⟩
  simpa [ht, hrest (.count _), hrest .complete] using executions

/-- An invocation ends and closes one job. -/
theorem endWork (fit : f.Fit staff jobs) (hone : jobs.countP (Job.isOpenFor t) = 1)
    (hinvoke : staff' .invoke + 1 = staff .invoke)
    (hcount : ∀ b, staff' (.count b) = staff (.count b) + if o.returned = b then 1 else 0)
    (hrest : staff' .complete = staff .complete) :
    f.Fit staff' (jobs.map (Job.hear (.ended t o))) := by
  obtain ⟨submitted, invocations, n, total, ended, completed⟩ := fit
  have closed : (jobs.map (Job.hear (.ended t o))).countP Job.isOpen +
      jobs.countP (Job.isOpenFor t) = jobs.countP Job.isOpen := Job.open_ended
  refine ⟨by simpa using submitted, by omega, n, total, fun b => ?_, hrest ▸ completed⟩
  rw [Job.hasEnded_ended, ended, hone, hcount, Nat.add_assoc]

/-- A worker counts an execution. -/
theorem count (fit : f.Fit staff jobs) (hs : f'.submitted = f.submitted)
    (ht : ∀ b, f'.total b = f.total b + if returned = b then 1 else 0)
    (hq : f'.queued = f.queued) (hinvoke : staff' .invoke = staff .invoke)
    (hcount : ∀ b, staff' (.count b) + (if returned = b then 1 else 0) = staff (.count b))
    (hcomplete : staff' .complete = staff .complete + 1) : f'.Fit staff' jobs := by
  obtain ⟨submitted, invocations, n, total, ended, completed⟩ := fit
  refine ⟨hs.trans submitted, by omega, fun b => n b + if returned = b then 1 else 0,
    fun b => ?_, fun b => ?_, ?_⟩
  · rw [ht, total, UInt64.ofNat_add]
    split <;> rfl
  · rw [ended, ← hcount, Nat.add_comm (staff' _), Nat.add_assoc]
  · cases returned <;> simp <;> omega

/-- A worker completes its task. -/
theorem retire (fit : f.Fit staff jobs) (hcomplete : staff' .complete ≤ staff .complete)
    (hrest : ∀ d, d ≠ .complete → staff' d = staff d) : f.Fit staff' jobs := by
  obtain ⟨submitted, invocations, n, total, ended, completed⟩ := fit
  refine ⟨submitted, ?_, n, total, fun b => ?_, hcomplete.trans completed⟩
  · rw [hrest .invoke nofun, invocations]
  · rw [hrest (.count b) nofun, ended]

end Figures.Fit

namespace System

variable {s s' : System} {i : ThreadId} {p q : PoolId} {k : Nat} {pool new : Pool}
  {phase phase' : Phase} {g : Thread → Thread} {es : List Event} {h : Trace} {callers : Nat}
  {t : TaskId} {task : Task} {d : Duty} {o : Outcome}

/-- The number of workers of the pool that have the duty. -/
def onDuty (s : System) (p : PoolId) (d : Duty) : Nat := s.headcount p (Phase.owes d)

def figures (s : System) (p : PoolId) : Figures := (s.pools[p]?.map Pool.figures).getD {}

theorem figures_eq (hp : s.pools[p]? = some pool) : s.figures p = pool.figures := by
  simp [figures, hp]

/-- The workers that have a duty are those that are busy. -/
theorem busy_eq : s.threads.countP (Thread.isBusyIn p) = s.onDuty p .invoke +
    (s.onDuty p (.count true) + (s.onDuty p (.count false) + s.onDuty p .complete)) := by
  have busy : Thread.isBusyIn p = Thread.worksAt p fun phase => phase.owes .invoke ||
      (phase.owes (.count true) || (phase.owes (.count false) || phase.owes .complete)) := by
    funext th
    unfold Thread.isBusyIn Thread.worksAt
    cases th.role with
    | caller => rfl
    | worker q k phase => cases phase <;> simp [Phase.task?, Phase.owes, Phase.duty]
  have all : s.threads.countP (Thread.isBusyIn p) = s.headcount p fun phase => phase.owes .invoke ||
      (phase.owes (.count true) || (phase.owes (.count false) || phase.owes .complete)) := by
    rw [busy]
    rfl
  unfold onDuty
  rw [all, headcount_or, headcount_or, headcount_or]
  all_goals
    intro phase
    cases phase <;> simp_all [Phase.owes, Phase.duty]

/-! ### Moves -/

theorem figures_set (hq : s.pools[q]? = some pool) (hpools : s'.pools = s.pools.set q new) :
    s'.figures p = if p = q then new.figures else s.figures p :=
  getD_pools_set ({} : Figures) hq hpools

theorem figures_same (hq : s.pools[q]? = some pool) (hpools : s'.pools = s.pools.set q new)
    (hn : new.figures = pool.figures) : s'.figures p = s.figures p :=
  getD_pools_same ({} : Figures) hq hpools hn

/-- A worker changes its phase. -/
theorem Working.onDuty (s₁ : System) (p : PoolId) (hw : s.Working i q k phase)
    (ht : s₁.threads = s.threads) (hg : ∀ th, (g th).role = (th.setPhase phase').role) (d : Duty) :
    (s₁.onThread i g).onDuty p d + (if q = p ∧ phase.duty = some d then 1 else 0) =
      s.onDuty p d + if q = p ∧ phase'.duty = some d then 1 else 0 := by
  obtain ⟨th, hth, hr, hc⟩ := hw
  have hw' : s₁.Working i q k phase := ⟨th, ht ▸ hth, hr, hc⟩
  have same : s₁.headcount p (Phase.owes d) = s.headcount p (Phase.owes d) := headcount_congr ht
  have weight (phase : Phase) : (q == p && phase.owes d).toNat =
      if q = p ∧ phase.duty = some d then 1 else 0 := by
    by_cases hq : q = p <;> by_cases hd : phase.duty = some d <;> simp [Phase.owes, hq, hd]
  unfold System.onDuty
  rw [← weight phase, ← weight phase', hw'.headcount p (Phase.owes d) hg, same]

/-- The figures of the pool and the duties of its workers fit what the trace tells. -/
def Accounted (h : Trace) (s : System) (p : PoolId) : Prop :=
  (s.figures p).Fit (s.onDuty p) (h.jobs p)

namespace Accounted

theorem quiet (acc : Accounted h s p) (hf : s'.figures p = s.figures p)
    (hd : ∀ d, s'.onDuty p d = s.onDuty p d) (he : ∀ e ∈ es, e.staffs = false) :
    Accounted (h ++ es.map (i, ·)) s' p := by
  unfold Accounted
  rw [Trace.jobs_quiet he, hf, funext hd]
  exact acc

theorem accept {n : Nat} {m : Metric} (acc : Accounted h s p) (hq : s.pools[q]? = some pool)
    (hpools : s'.pools = s.pools.set q (pool.accept t))
    (hd : ∀ d, s'.onDuty p d = s.onDuty p d) :
    Accounted (h ++ [Event.log (.submitted q t n), .metric q m].map (i, ·)) s' p := by
  unfold Accounted at *
  rw [Trace.jobs_submitted, funext hd, figures_set hq hpools]
  by_cases hp : q = p
  · subst hp
    rw [figures_eq hq] at acc
    rw [if_pos rfl, if_pos rfl]
    exact acc.accept rfl rfl (Pool.length_accept pool t)
  · rwa [if_neg (Ne.symm hp), if_neg hp, List.append_nil]

theorem claim (acc : Accounted h s p) (hw : s.Working i q k (.parked true))
    (hq : s.pools[q]? = some pool) (hc : pool.claim? = some (t, new))
    (he : ∀ e ∈ es, e.staffs = false) : Accounted (h ++ es.map (i, ·))
      ((s.setPool q new).onThread i (·.setPhase (.holding t))) p := by
  have hg (th : Thread) : (th.setPhase (.holding t)).role = (th.setPhase (.holding t)).role := rfl
  have duty := hw.onDuty (s.setPool q new) p rfl hg
  have hfig : ((s.setPool q new).onThread i (·.setPhase (.holding t))).figures p =
      if p = q then new.figures else s.figures p := figures_set hq rfl
  by_cases hp : q = p
  · subst hp
    unfold Accounted at *
    rw [Trace.jobs_quiet he, hfig, if_pos rfl]
    rw [figures_eq hq] at acc
    obtain ⟨queue, -, hnew⟩ := Pool.claim?_eq hc
    refine acc.claim (by rw [hnew]; rfl) (by rw [hnew]; rfl) (length_claim hc) ?_ fun d hd => ?_
    · simpa [Phase.duty] using duty .invoke
    · simpa [Phase.duty, hd.symm] using duty d
  · exact acc.quiet (by rw [hfig, if_neg (Ne.symm hp)]) (fun d => by simpa [hp] using duty d) he

theorem endWork (acc : Accounted h s p) (kept : (s.record t).Kept t h)
    (hw : s.Working i q k (.running t))
    (hg : ∀ th, (g th).role = (th.setPhase (.stashing t true o)).role) :
    Accounted (h ++ [Event.ended t o].map (i, ·)) (s.onThread i g) p := by
  have duty := hw.onDuty s p rfl hg
  have hfig : (s.onThread i g).figures p = s.figures p := rfl
  obtain ⟨life, st, hat, story⟩ := kept
  obtain rfl := hat.of_bearing (hw.bearing_self rfl)
  obtain ⟨rfl, -⟩ := hat.agrees
  have hopen := story.openFor_eq p
  unfold Accounted at *
  rw [Trace.jobs_ended, hfig]
  by_cases hp : q = p
  · subst hp
    refine acc.endWork (by simpa [Stage.openFor] using hopen) ?_ (fun b => ?_) ?_
    · simpa [Phase.duty] using duty .invoke
    · simpa [Phase.duty] using duty (.count b)
    · simpa [Phase.duty] using duty .complete
  · have same (d : Duty) : (s.onThread i g).onDuty p d = s.onDuty p d := by
      simpa [hp] using duty d
    rwa [Job.map_hear_ended (by simpa [Stage.openFor, hp] using hopen), funext same]

theorem count {returned : Bool} (acc : Accounted h s p) (books : s.Books)
    (hw : s.Working i q k (.stashed t returned)) (hq : s.pools[q]? = some pool)
    (hg : ∀ th, (g th).role = (th.setPhase (.counted t)).role)
    (he : ∀ e ∈ es, e.staffs = false) :
    Accounted (h ++ es.map (i, ·)) ((s.setPool q (pool.count k returned)).onThread i g) p := by
  have duty := hw.onDuty (s.setPool q (pool.count k returned)) p rfl hg
  have hfig : ((s.setPool q (pool.count k returned)).onThread i g).figures p =
      if p = q then (pool.count k returned).figures else s.figures p := figures_set hq rfl
  by_cases hp : q = p
  · subst hp
    have hk : k < pool.crew.length := by
      have hhand := ((books.pools q pool hq).crew k i).mpr ⟨_, hw.post⟩
      simpa [Pool.hands] using (List.getElem?_eq_some_iff.mp hhand).1
    unfold Accounted at *
    rw [Trace.jobs_quiet he, hfig, if_pos rfl]
    rw [figures_eq hq] at acc
    refine acc.count rfl (fun b => Pool.total_count hk returned) rfl ?_ (fun b => ?_) ?_
    · simpa [Phase.duty] using duty .invoke
    · simpa [Phase.duty] using duty (.count b)
    · simpa [Phase.duty] using duty .complete
  · exact acc.quiet (by rw [hfig, if_neg (Ne.symm hp)]) (fun d => by simpa [hp] using duty d) he

theorem retire (acc : Accounted h s p) (hw : s.Working i q k (.counted t))
    (hq : s.pools[q]? = some pool) (he : ∀ e ∈ es, e.staffs = false) :
    Accounted (h ++ es.map (i, ·)) (s.retired i q pool t task) p := by
  have hfig : (s.retired i q pool t task).figures p = s.figures p :=
    figures_same hq Books.pools_retired rfl
  have duty (d : Duty) : (s.retired i q pool t task).onDuty p d +
      (q == p && Phase.owes d (.counted t)).toNat =
        s.onDuty p d + (q == p && Phase.owes d .releasing).toNat :=
    hw.headcount_retired p (Phase.owes d)
  unfold Accounted at *
  rw [Trace.jobs_quiet he, hfig]
  refine acc.retire ?_ fun d hd => ?_
  · have := duty .complete
    simp only [Phase.owes, Phase.duty, reduceCtorEq, decide_false, Bool.and_false,
      Bool.toNat_false] at this
    omega
  · simpa [Phase.owes, Phase.duty, hd.symm] using duty d

/-- A worker has no task yet, or no more. -/
theorem settled (acc : Accounted h s p) (hw : s.Working i q k phase) (hq : s.pools[q]? = some pool)
    (hn : new.figures = pool.figures) (hphase : phase.duty = none)
    (he : ∀ e ∈ es, e.staffs = false) : Accounted (h ++ es.map (i, ·)) (s.settled i q new) p := by
  refine acc.quiet (figures_same hq (pools_settled _) hn) (fun d => ?_) he
  have parked : (Phase.parked true).duty = none := rfl
  simpa [onDuty, Phase.owes, hphase, parked] using hw.headcount_settled p (Phase.owes d) new

theorem move (acc : Accounted h s p) (books : s.Books) (kept : ∀ t, (s.record t).Kept t h)
    (m : Move i s es s') : Accounted (h ++ es.map (i, ·)) s' p := by
  -- Moves of calls change no phase.
  have calls {g : Thread → Thread} (hg : ∀ th, (g th).role = th.role) (d : Duty) :
      (s.onThread i g).onDuty p d = s.onDuty p d := headcount_of_role hg
  have twice {g g' : Thread → Thread} (hg : ∀ th, (g th).role = th.role)
      (hg' : ∀ th, (g' th).role = th.role) (d : Duty) :
      ((s.onThread i g).onThread i g').onDuty p d = s.onDuty p d :=
    (headcount_of_role hg').trans (calls hg d)
  -- Some phases of a worker come with the same duty, or none.
  have same {s₁ : System} {q : PoolId} {k : Nat} {phase phase' : Phase} {g : Thread → Thread}
      (hw : s.Working i q k phase) (ht : s₁.threads = s.threads)
      (hg : ∀ th, (g th).role = (th.setPhase phase').role) (hp : phase.duty = phase'.duty)
      (d : Duty) : (s₁.onThread i g).onDuty p d = s.onDuty p d := by
    have := hw.onDuty s₁ p ht hg d
    rw [hp] at this
    exact Nat.add_right_cancel this
  cases m with
  | call _ _ => exact acc.quiet rfl (calls fun _ => rfl) (by simp)
  | leave _ _ he =>
    refine acc.quiet rfl (calls fun _ => rfl) ?_
    rcases he with rfl | ⟨r, rfl⟩ <;> simp [Event.staffs]
  | wait _ _ _ => exact acc.quiet rfl (calls fun _ => rfl) (by simp)
  | @note r hr =>
    refine acc.quiet rfl (fun _ => rfl) ?_
    cases r <;> simp_all [LogRecord.isNote, Event.staffs]
  | addPool hc =>
    refine acc.quiet (getD_addPool _ ?_) (fun _ => rfl) (by simp [Event.staffs])
    rw [(Pool.create_eq hc).2]
    simp [Pool.figures, Pool.new, Pool.total, PendingQueue.empty, PendingQueue.length]
  | addTask _ => exact acc.quiet rfl (fun _ => rfl) (by simp)
  | hire hq _ _ =>
    refine acc.quiet (figures_same hq rfl ?_) (fun _ => headcount_spawn rfl)
      (by simp [Event.staffs])
    simp [Pool.figures, Pool.total_hire]
    exact ⟨rfl, rfl⟩
  | accept hq _ _ _ _ _ =>
    exact acc.accept hq (pools_wakeOne _) fun d => headcount_wakeOne (Phase.wakeStable_owes d)
  | take _ _ _ _ _ _ => exact acc.quiet rfl (calls fun _ => rfl) (by simp [Event.staffs])
  | letGo _ _ _ _ _ => exact acc.quiet rfl (calls fun _ => rfl) (by simp)
  | discard _ _ => exact acc.quiet rfl (calls fun _ => rfl) (by simp)
  | destroy _ _ =>
    exact acc.quiet rfl (twice (fun _ => rfl) fun _ => rfl) (by simp [Event.staffs])
  | release _ _ _ => exact acc.quiet rfl (calls fun _ => rfl) (by simp)
  | abandon _ _ _ _ => exact acc.quiet rfl (calls fun _ => rfl) (by simp [Event.staffs])
  | unref _ _ => exact acc.quiet rfl (calls fun _ => rfl) (by simp)
  | clear _ _ _ => exact acc.quiet rfl (calls fun _ => rfl) (by simp)
  | resume _ => exact acc.quiet rfl (twice (fun _ => rfl) fun _ => rfl) (by simp)
  | close hq _ => exact acc.quiet (figures_same hq rfl rfl) (fun _ => rfl) (by simp)
  | stop k hq _ =>
    refine acc.quiet (figures_same hq rfl ?_)
      (fun d => headcount_wakeAll (Phase.wakeStable_owes d)) (by simp)
    simp [Pool.figures, Pool.total_requestExit]
    exact ⟨rfl, rfl⟩
  | dismiss _ hq _ =>
    exact acc.quiet (figures_same hq rfl rfl) (fun _ => rfl) (by simp [Event.staffs])
  | dropPool hq _ => exact acc.quiet (figures_same hq rfl rfl) (fun _ => rfl) (by simp)
  | @register q pool k g hw hq hg =>
    have told : Accounted (h ++ ([] : List Event).map (i, ·))
        ((s.onThread i g).wakeAll (.workerRegistered q)) p := by
      refine acc.quiet rfl (fun d => ?_) (by simp)
      exact (headcount_wakeAll (Phase.wakeStable_owes d)).trans (calls (fun th => (hg th).1) d)
    rw [List.map_nil, List.append_nil] at told
    exact told.settled ((hw.stay hg).wakeAll (.workerRegistered q)) hq rfl rfl
      (by simp [Event.staffs])
  | released hw hq => exact acc.settled hw hq rfl rfl (by simp)
  | exit hw _ _ hg =>
    exact acc.quiet rfl (same hw rfl (fun th => (hg th).1) rfl) (by simp [Event.staffs])
  | claim hw hq _ hc => exact acc.claim hw hq hc (by simp [Event.staffs])
  | park hw _ _ _ => exact acc.quiet rfl (same hw rfl (fun _ => rfl) rfl) (by simp)
  | begin hw _ _ hg =>
    exact acc.quiet rfl (same hw rfl (fun th => (hg th).1) rfl) (by simp [Event.staffs])
  | @beginEmpty _ _ t _ _ _ hw ht hwork _ =>
    -- A worker always finds the work in the slot.
    have := (kept t).equipped (hw.bearing_self rfl)
    simp [record_slot ht, hwork] at this
  | @endWork _ _ t _ _ _ hw _ _ hg => exact acc.endWork (kept t) hw fun th => (hg th).1
  | stash hw _ => exact acc.quiet rfl (same hw rfl (fun _ => rfl) rfl) (by simp)
  | @count _ _ _ _ returned _ hw hq hg =>
    refine acc.count books hw hq (fun th => (hg th).1) ?_
    cases returned <;> simp [Event.staffs]
  | retire hw hq _ =>
    refine acc.retire hw hq ?_
    split <;> simp [Event.staffs]

theorem start (callers : Nat) (p : PoolId) : Accounted [] (System.start callers) p := by
  have idle (d : Duty) : (System.start callers).onDuty p d = 0 := by
    simp [onDuty, headcount, System.start, List.countP_replicate, Thread.worksAt]
  exact ⟨rfl, by rw [idle]; rfl, fun _ => 0, fun _ => rfl,
    fun b => by simp [Trace.jobs, idle], by simp [idle]⟩

end Accounted

/-- In every run, the figures of every pool and what its workers owe fit what the trace tells. -/
theorem Run.accounted (run : Run callers h s) (p : PoolId) : Accounted h s p := by
  have all : s.Books ∧ (∀ t, (s.record t).Kept t h) ∧ Accounted h s p :=
    run.keeps (P := fun h s => s.Books ∧ (∀ t, (s.record t).Kept t h) ∧ Accounted h s p)
      ⟨.start callers, kept_start callers, .start callers p⟩
      fun _ ⟨books, kept, acc⟩ m =>
        ⟨books.move m, fun t => (kept t).change (m.change t), acc.move books kept m⟩
  exact all.2.2

/-! ### Totals -/

/-- What the totals of a pool and a snapshot of its bookkeeping tell while its lock is free. -/
structure Totalled (h : Trace) (p : PoolId) (pool : Pool) : Prop where
  submitted : pool.stats.submitted.toNat = (h.jobs p).length
  /-- No submission is pending and running. -/
  apart : pool.stats.pendingCount.toNat + pool.stats.runningCount.toNat ≤
    pool.stats.submitted.toNat
  /-- What is neither pending nor running is counted. -/
  lower : pool.stats.submitted.toNat - pool.stats.pendingCount.toNat -
    pool.stats.runningCount.toNat ≤ pool.totalCompleted.toNat + pool.totalPanicked.toNat
  /-- Nothing is counted while it is pending. -/
  upper : pool.totalCompleted.toNat + pool.totalPanicked.toNat ≤
    pool.stats.submitted.toNat - pool.stats.pendingCount.toNat
  /-- With nothing pending or running, every submission has been counted as what it came to. -/
  settled : pool.stats.pendingCount = 0 → pool.stats.runningCount = 0 →
    pool.totalCompleted.toNat + pool.totalPanicked.toNat = pool.stats.submitted.toNat ∧
    pool.totalCompleted.toNat = (h.jobs p).countP (Job.hasEnded true) ∧
    pool.totalPanicked.toNat = (h.jobs p).countP (Job.hasEnded false) ∧
    ∀ j ∈ h.jobs p, j.isOpen = false

theorem Run.totalled (run : Run callers h s) (hp : s.pools[p]? = some pool)
    (hfew : (h.jobs p).length < 2 ^ 64) : Totalled h p pool := by
  have books := run.bookkept hp
  obtain ⟨submitted, invocations, n, total, ended, completed⟩ := run.accounted p
  rw [figures_eq hp] at submitted invocations total
  have hlen := Job.length_eq (l := h.jobs p)
  have htrue := ended true
  have hfalse := ended false
  have queued : pool.figures.queued = pool.queue.length := rfl
  have bound : pool.queue.length ≤ 100 :=
    books.pending.trans (Config.valid_bounds (run.books.pools p pool hp).valid).2.2
  have hsubmitted : pool.stats.submitted.toNat = (h.jobs p).length := by
    rw [show pool.stats.submitted = .ofNat (h.jobs p).length from submitted,
      UInt64.toNat_ofNat_of_lt' hfew]
  have hpending : pool.stats.pendingCount.toNat = pool.queue.length := toNat_ofNat bound
  have hrunning := books.snapshot_running.trans busy_eq
  have counted (b : Bool) : (pool.total b).toNat = n b := by
    have hb := ended b
    have hle : n b ≤ (h.jobs p).countP (Job.hasEnded b) := by omega
    rw [show pool.total b = .ofNat (n b) from total b,
      UInt64.toNat_ofNat_of_lt' ((hle.trans List.countP_le_length).trans_lt hfew)]
  have hcompleted : pool.totalCompleted.toNat = n true := counted true
  have hpanicked : pool.totalPanicked.toNat = n false := counted false
  refine ⟨hsubmitted, by omega, by omega, by omega, fun hp0 hr0 => ?_⟩
  have hp0 : pool.stats.pendingCount.toNat = 0 := by rw [hp0]; rfl
  have hr0 : pool.stats.runningCount.toNat = 0 := by rw [hr0]; rfl
  refine ⟨by omega, by omega, by omega, ?_⟩
  have closed : (h.jobs p).countP Job.isOpen = 0 := by omega
  simpa using List.countP_eq_zero.mp closed

/-- With nothing pending or running, all jobs are closed and counted. -/
theorem Run.settled_jobs (run : Run callers h s) (hp : s.pools[p]? = some pool)
    (hqueue : pool.queue.length = 0) (hrunning : pool.runningCount = 0) :
    (∀ j ∈ h.jobs p, j.isOpen = false) ∧ pool.submitted = .ofNat (h.jobs p).length ∧
      ∀ b, pool.total b = .ofNat ((h.jobs p).countP (Job.hasEnded b)) := by
  obtain ⟨submitted, invocations, n, total, ended, -⟩ := run.accounted p
  rw [figures_eq hp] at submitted invocations total
  have off := (run.books.busy hp).symm.trans hrunning
  rw [busy_eq] at off
  have queued : pool.figures.queued = pool.queue.length := rfl
  have closed : (h.jobs p).countP Job.isOpen = 0 := by omega
  refine ⟨by simpa using List.countP_eq_zero.mp closed, submitted, fun b => ?_⟩
  have idle : s.onDuty p (.count b) = 0 := by cases b <;> omega
  have hb := ended b
  rw [idle, Nat.add_zero] at hb
  rw [hb]
  exact total b

/-- The only worker of a pool runs a task that returns and then one that panics. -/
def oneReturnsOnePanics : List (ThreadId × Action) :=
  let call (op : Operation) : ThreadId × Action := (0, .call op 0)
  let go (i : ThreadId) (n : Nat) := List.replicate n (i, Action.advance 0)
  [call (.createPool (.new 1)), call (.createTask none), call (.createTask none),
    call (.submit 0 0)] ++ go 1 1 ++ go 0 1 ++ go 1 2 ++ [(1, .finish (.ok .null))] ++ go 1 6 ++
  [call (.submit 0 1)] ++ go 1 2 ++ [(1, .finish (.error (.text "boom")))] ++ go 1 3

theorem totalled_returned_panicked : ∃ h s pool, Run 1 h s ∧ s.pools[0]? = some pool ∧
    (h.jobs 0).length < 2 ^ 64 ∧ pool.stats.pendingCount = 0 ∧ pool.stats.runningCount = 0 ∧
    pool.totalCompleted = 1 ∧ pool.totalPanicked = 1 ∧ Totalled h 0 pool := by
  have run : Run 1 _ _ := run_of_replay oneReturnsOnePanics rfl
  exact ⟨_, _, _, run, rfl, by decide, rfl, rfl, rfl, rfl, run.totalled rfl (by decide)⟩

end System

end WorkerPool
