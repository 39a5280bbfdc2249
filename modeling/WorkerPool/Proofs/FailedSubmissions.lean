import WorkerPool.Proofs.PanicContainment
import WorkerPool.Proofs.Passages

/-!
How submissions end.

A submission takes effect in its last section or not at all. If it fails, it has changed no task, no
queue and no counter, also while it waited for a worker; so a task that was with its caller is as it
was, unless another submission has succeeded with it, and can be destroyed or submitted elsewhere.
-/
namespace WorkerPool

namespace Passage

/-- The section leaves every task as it is, and every pool but for workers that `p` may get. -/
structure Spares (x : Passage) (p : PoolId) : Prop where
  tasks : x.after.tasks = x.before.tasks
  pool : ∀ {pool}, x.before.pools[p]? = some pool →
    ∃ new, x.after.pools[p]? = some { pool with crew := pool.crew ++ new }
  others : ∀ {q}, q ≠ p → x.after.pools[q]? = x.before.pools[q]?

variable {x : Passage} {p : PoolId} {t : TaskId} {pool : Pool} {task : Task}

theorem Idles.spares (idles : x.Idles) : x.Spares p where
  tasks := idles.tasks
  pool {pool} hp := ⟨[], by simp [idles.pools, hp]⟩
  others _ := by rw [idles.pools]

theorem Begins.spares (begins : x.Begins p t pool task) : x.Spares p := by
  obtain ⟨hp, -, -, -, tasks, ⟨-, ⟨j, hpools⟩, -⟩ | ⟨-, -, hpools, -⟩⟩ := begins
  · have hlt := (List.getElem?_eq_some_iff.mp hp).1
    refine ⟨tasks, fun {old} hold => ?_, fun hq => ?_⟩
    · obtain rfl : pool = old := Option.some.inj (hp.symm.trans hold)
      exact ⟨[{ thread := j }], by simp [hpools, hlt, Pool.hire]⟩
    · rw [hpools, List.getElem?_set_ne (Ne.symm hq)]
  · exact Idles.spares ⟨hpools, tasks⟩

end Passage

namespace Record.Change

variable {r r' : Record} {i : ThreadId} {t : TaskId} {es : List Event} {h : Trace}

/-- The handle of a task does not come back. -/
theorem handle_before (change : r.Change i t es r') (hh : r'.handle) : r.handle := by
  cases change with
  | surrender hh' _ => exact hh'
  | accept hh' _ => exact hh'
  | take hh' _ _ => exact hh'
  | _ => exact hh

/-- A task that is with its caller stays as it is as long as it has its handle and no pool takes
it. -/
theorem rests (change : r.Change i t es r') (kept : r.Kept t h) (hh : r'.handle)
    (ho : r.slot.ownership = .caller) (quiet : ∀ e ∈ es, e.buys t = false) :
    r'.slot = r.slot ∧ r'.runs = r.runs := by
  obtain ⟨life, st, hat, -⟩ := kept
  have free := (hat.free_caller (change.handle_before hh) ho).2
  cases change with
  | same _ => exact ⟨rfl, rfl⟩
  | hire _ _ => exact ⟨rfl, rfl⟩
  | accept _ _ => simp [Event.buys] at quiet
  | take _ hp _ => simp [ho] at hp
  | surrender _ _ => cases hh
  | abandon hno _ _ => exact absurd hh (by simp [hno])
  | clear hno _ _ => exact absurd hh (by simp [hno])
  | claim _ _ => exact ⟨rfl, rfl⟩
  | begin hb _ => simp [free] at hb
  | beginEmpty hb _ => simp [free] at hb
  | endWork _ _ => exact ⟨rfl, rfl⟩
  | stash hb => simp [free] at hb
  | count _ _ => exact ⟨rfl, rfl⟩
  | retire hb _ => simp [free] at hb

end Record.Change

namespace System

variable {s s' : System} {i j : ThreadId} {own : List Passage} {last : Passage} {g h : Trace}
  {es : List Event} {a : Action} {r : Reply} {callers : Nat} {pick : Pick} {p q : PoolId}
  {t : TaskId}
  {pool : Pool} {task : Task} {e : PoolError} {th : Thread} {rest : List Frame} {woken : Bool}

/-! ### Tasks that stay with their caller -/

theorem Moves.handle_before (ms : Moves i s es s') (hh : (s'.record t).handle) :
    (s.record t).handle := by
  induction ms with
  | nil => exact hh
  | cons m _ ih => exact (m.change t).handle_before (ih hh)

theorem Moves.rests (ms : Moves i s es s') (kept : (s.record t).Kept t h)
    (hh : (s'.record t).handle) (ho : (s.record t).slot.ownership = .caller)
    (quiet : ∀ e ∈ es, e.buys t = false) :
    (s'.record t).slot = (s.record t).slot ∧ (s'.record t).runs = (s.record t).runs := by
  induction ms generalizing h with
  | nil => exact ⟨rfl, rfl⟩
  | cons m ms ih =>
    have change := m.change t
    obtain ⟨quiet₁, quiet₂⟩ := List.forall_mem_append.mp quiet
    obtain ⟨hslot₁, hruns₁⟩ := change.rests kept (ms.handle_before hh) ho quiet₁
    obtain ⟨hslot₂, hruns₂⟩ := ih (kept.change change) hh (hslot₁ ▸ ho) quiet₂
    exact ⟨hslot₂.trans hslot₁, hruns₂.trans hruns₁⟩

/-- While a submission waits, the task stays as it is if no submission succeeds with it. -/
theorem Underway.rests (under : Underway s i (.submit p t) own h s') (run : Run callers g s)
    (ho : (s.record t).slot.ownership = .caller) (quiet : h.submissions t = 0) :
    (s'.record t).slot = (s.record t).slot ∧ (s'.record t).runs = (s.record t).runs := by
  have same {s s' : System} (htasks : s'.tasks = s.tasks) :
      (s'.record t).slot = (s.record t).slot ∧ (s'.record t).runs = (s.record t).runs := by
    simp [record, System.task, htasks]
  induction under with
  | call hs silent =>
    obtain ⟨⟨pool, task, begins⟩, -⟩ := begins_of_step run.calls hs silent
    exact same begins.tasks
  | @own own h s₁ s' a es under hs silent ih =>
    rw [Trace.submissions_append, Nat.add_eq_zero_iff] at quiet
    obtain ⟨-, woken, rest, hi⟩ := under.submission run
    obtain ⟨⟨idles, -⟩, -⟩ := idles_of_step hi hs silent
    obtain ⟨hslot, hruns⟩ := same (s := s₁) idles.tasks
    obtain ⟨hslot₁, hruns₁⟩ := ih quiet.1
    exact ⟨hslot.trans hslot₁, hruns.trans hruns₁⟩
  | @other own h s₁ s' j a es under hij hs ih =>
    rw [Trace.submissions_append, Nat.add_eq_zero_iff] at quiet
    obtain ⟨hslot₁, hruns₁⟩ := ih quiet.1
    have run₁ := under.run run
    -- The submission that waits keeps the handle of the task.
    have hh : (s'.record t).handle := by
      obtain ⟨-, woken, rest, hi⟩ := (Underway.other under hij hs).submission run
      exact handle_of_canShare ((run₁.step hs).calls.share hi)
    have told : ∀ e ∈ es, e.buys t = false := by
      have := List.countP_eq_zero.mp quiet.2
      simpa using this
    obtain ⟨hslot, hruns⟩ := (moves_of_step run₁.calls hs).rests (run₁.kept t) hh
      (hslot₁ ▸ ho) told
    exact ⟨hslot.trans hslot₁, hruns.trans hruns₁⟩

/-! ### Submissions that fail -/

theorem accept_failed (hr : .replied (.failed e) ∈ (s.accept i p pool t task pick).2) :
    s.accept i p pool t task pick = s.reply i (.failed e) ∧
      e = .alreadySubmitted (LogRecord.number t) := by
  unfold System.accept at hr ⊢
  split at hr
  · next ho =>
    obtain rfl : e = .alreadySubmitted (LogRecord.number t) := by simpa [reply] using hr
    exact ⟨if_pos ho, rfl⟩
  · simp [emit, reply] at hr

theorem submit_failed (hr : .replied (.failed e) ∈ (s.submit i p pool t task pick).2) :
    s.submit i p pool t task pick = s.reply i (.failed e) := by
  unfold System.submit at hr ⊢
  split at hr
  · obtain rfl : e = _ := by simpa [reply] using hr
    rfl
  · split at hr
    · next ho =>
      obtain rfl : e = _ := by simpa [reply] using hr
      exact if_pos ho
    · next ho =>
      rw [if_neg ho]
      split at hr
      · next hn =>
        rw [if_pos hn]
        split at hr
        · simp at hr
        · obtain rfl : e = _ := by simpa [reply] using hr
          rfl
      · next hn =>
        rw [if_neg hn]
        split at hr
        · simp at hr
        · next hu =>
          rw [if_neg hu]
          exact (accept_failed hr).1

/-- A submission that fails at once leaves the whole state as it was. -/
theorem fails_at_once (hs : s.step i (.call (.submit p t) pick) = some (s', es))
    (hr : .replied (.failed e) ∈ es) : s' = s := by
  obtain ⟨th, pool, task, -, -, -, -, he⟩ := step_submit hs
  have failed := submit_failed (by rwa [he])
  rw [he, reply, pop_inCall] at failed
  exact congrArg Prod.fst failed

/-- A submission that has waited does not start a worker. -/
theorem staffed_later {k : Nat} {message : String} {cause : Option String}
    (hi : s.Inside i (.awaitingWorker p t woken :: rest)) (hs : s.step i a = some (s', es)) :
    .replied (.failed (.spawnFailed k message cause)) ∉ es := by
  intro hr
  obtain ⟨pool, task, pick, -, -, he⟩ := hi.resumesSubmit hs
  have hr : .replied (.failed (.spawnFailed k message cause)) ∈
      (s.resumeSubmit i p pool t task pick).2 := by rwa [he]
  unfold System.resumeSubmit at hr
  split at hr
  · cases hr
  · split at hr
    · next e href =>
      obtain rfl : e = .spawnFailed k message cause := by simpa [reply, eq_comm] using hr
      rcases Pool.refusal_eq_some href with ⟨he, -⟩ | ⟨he, -⟩ <;> cases he
    · cases (accept_failed hr).2

/-- Whoever may give a task away that is with its caller can destroy it. -/
theorem step_destroy (hth : s.threads[j]? = some th) (code : th.inUserCode) (own : s.canOwn t)
    (ht : s.tasks[t]? = some task) (ho : task.slot.ownership = .caller) :
    ∃ s', s.step j (.call (.destroy t) pick) = some (s', []) ∧
      s'.Inside j (.disposing [.handle t] none false :: th.calls) := by
  have hne : task.slot.ownership ≠ .pool := by simp [ho]
  have given : (s.inCall j).destroy j t task = (s.inCall j).letGo j t task [.handle t] :=
    if_neg hne
  refine ⟨((s.inCall j).letGo j t task [.handle t]).1, ?_, ?_⟩
  · unfold inCall at given
    simp only [step, hth, code, call?, ht, own, Option.bind_eq_bind, Option.bind_some, if_true,
      given]
    rfl
  · have called : ((s.inCall j).setTask t { task with handle := false }).Inside j
        (.disposing [] none false :: th.calls) := Inside.inCall hth
    exact called.enter

/-- What a submission leaves behind that fails. -/
structure Declined (s : System) (p : PoolId) (t : TaskId) (own : List Passage) (h : Trace)
    (last : Passage) (e : PoolError) : Prop where
  reason : e = .shutDown ∨ (∃ n m, e = .tooManyTasks n m) ∨
    e = .alreadySubmitted (LogRecord.number t) ∨ ∃ k message cause, e = .spawnFailed k message cause
  idles : last.Idles
  /-- Unless it has waited, nothing at all has changed, -/
  at_once : own = [] → last.after = s
  /-- and it does not wait if the platform does not start the worker that the pool needs, however
  many it has: these stay as they are, with their statistics. -/
  unstaffed : ∀ {k message cause}, e = .spawnFailed k message cause → own = [] ∧
    ∃ pool, s.pools[p]? = some pool ∧ last.after.pools[p]? = some pool ∧ pool.needsWorker ∧
      k = pool.rosterSize
  /-- A task that was with its caller is as it was, unless a submission has succeeded with it. -/
  rests : ∀ {task}, s.tasks[t]? = some task → task.slot.ownership = .caller →
    h.submissions t = 0 → ∃ task', last.after.tasks[t]? = some task' ∧ task'.slot = task.slot ∧
      task'.handle ∧ task'.runs = task.runs
  /-- If it is with its caller, it can be destroyed, -/
  destroys : ∀ {j th task} (pick : Pick), last.after.threads[j]? = some th → th.inUserCode →
    last.after.canOwn t → last.after.tasks[t]? = some task → task.slot.ownership = .caller →
    ∃ s', last.after.step j (.call (.destroy t) pick) = some (s', []) ∧
      s'.Inside j (.disposing [.handle t] none false :: th.calls)
  /-- and submitted to any pool that takes tasks at once. -/
  submits : ∀ {j th q pool task} (pick : Pick), last.after.threads[j]? = some th → th.inUserCode →
    last.after.canUse q → last.after.canShare t → last.after.pools[q]? = some pool → pool.Takes →
    last.after.tasks[t]? = some task → task.slot.ownership = .caller →
    ∃ s', last.after.step j (.call (.submit q t) pick) = some (s', pool.receipt q t)

/-- The last section of a submission that succeeds: the task goes from its caller into the queue. -/
structure Enqueued (p : PoolId) (t : TaskId) (last : Passage) : Prop where
  task : ∃ task, last.before.tasks[t]? = some task ∧ task.slot.ownership = .caller ∧
    last.after.tasks = last.before.tasks.set t { task with slot := task.slot.claim }
  slot : ∃ task, last.after.tasks[t]? = some task ∧ task.slot.ownership = .pool ∧
    task.slot.state = .pending ∧ task.slot.outcome = none
  pool : ∃ pool, last.before.pools[p]? = some pool ∧ last.after.pools = last.before.pools.set p
    { pool with queue := pool.queue.push t, submitted := pool.submitted + 1 }
  /-- Before, the task is in no queue. -/
  fresh : ∀ {q : PoolId} {pool : Pool}, last.before.pools[q]? = some pool → t ∉ pool.queue.entries
  once : ∀ {q : PoolId} {pool : Pool}, last.after.pools[q]? = some pool →
    pool.queue.entries.count t = if q = p then 1 else 0

/-- How a submission ends that is called for in the state `s`. -/
structure Submitted (s : System) (p : PoolId) (t : TaskId) (own : List Passage) (h : Trace)
    (last : Passage) (r : Reply) : Prop where
  /-- While it waits, it changes no task, and of the pools no more than the workers of `p`. -/
  waits : ∀ x ∈ own, x.Spares p
  ends : r = .done ∨ ∃ e, r = .failed e
  declined : ∀ {e}, r = .failed e → Declined s p t own h last e
  taken : r = .done → Enqueued p t last

theorem enqueued_of_decides (decides : last.Decides p t pool task .done)
    (run : Run callers h last.before) (hp : last.before.pools[p]? = some pool)
    (ht : last.before.tasks[t]? = some task) (share : last.before.canShare t) :
    Enqueued p t last := by
  obtain ⟨life, st, hat, -⟩ := run.kept t
  cases decides with
  | accepted _ _ ho tasks pools _ =>
    have hlt := (List.getElem?_eq_some_iff.mp hp).1
    have htlt := (List.getElem?_eq_some_iff.mp ht).1
    have free := (hat.free_caller (handle_of_canShare share) (by rw [record_slot ht, ho])).1
    have none {q : PoolId} {pool : Pool} (hq : last.before.pools[q]? = some pool) :
        pool.queue.entries.count t = 0 := (queued_eq hq).symm.trans (free q)
    refine ⟨⟨task, ht, ho, tasks⟩,
      ⟨{ task with slot := task.slot.claim }, by simp [tasks, htlt], rfl, rfl, rfl⟩,
      ⟨pool, hp, pools⟩, fun hq => List.count_eq_zero.mp (none hq), fun {q new} hq => ?_⟩
    by_cases hqp : q = p
    · subst hqp
      obtain rfl : pool.accept t = new := by simpa [pools, hlt] using hq
      have := pool.queue.count_push t t
      simpa [Pool.accept, none hp] using this
    · rw [pools, List.getElem?_set_ne (Ne.symm hqp)] at hq
      simp [none hq, hqp]

/-- A task that was with its caller when a submission began is still as it was at its last section,
unless a submission has succeeded with it. -/
theorem Returns.rests (returns : Returns s i (.submit p t) own h last r) (run : Run callers g s)
    (ho : (s.record t).slot.ownership = .caller) (quiet : h.submissions t = 0) :
    (last.before.record t).slot = (s.record t).slot ∧
      (last.before.record t).runs = (s.record t).runs := by
  cases returns with
  | atOnce _ _ => exact ⟨rfl, rfl⟩
  | later under _ _ => exact under.rests run ho quiet

theorem Returns.declined (returns : Returns s i (.submit p t) own h last (.failed e))
    (run : Run callers g s) : Declined s p t own h last e := by
  obtain ⟨pool, task, hp, ht, share, decides⟩ := returns.decides run
  obtain ⟨declines, idles⟩ : Declines pool t task e ∧ last.Idles := by
    cases decides with
    | declined declines idles _ => exact ⟨declines, idles⟩
  refine ⟨?_, idles, fun hown => ?_, fun {k message cause} he => ?_,
    fun {task₀} ht₀ ho quiet => ⟨task, ?_, ?_, ?_, ?_⟩, ?_, ?_⟩
  · cases declines with
    | refusal hr =>
      rcases Pool.refusal_eq_some hr with ⟨rfl, -⟩ | ⟨rfl, -⟩
      · exact .inl rfl
      · exact .inr (.inl ⟨_, _, rfl⟩)
    | owned _ _ => exact .inr (.inr (.inl rfl))
    | unstaffed _ _ _ _ => exact .inr (.inr (.inr ⟨_, _, _, rfl⟩))
  · cases returns with
    | atOnce hs hr => exact fails_at_once hs hr
    | later under _ _ =>
      obtain ⟨⟨first, waits, hsections, -⟩, -⟩ := under.submission run
      cases hown.symm.trans hsections
  · cases returns with
    | atOnce hs hr =>
      refine ⟨rfl, pool, hp, (congrArg (·.pools[p]?) (fails_at_once hs hr)).trans hp, ?_⟩
      subst he
      cases declines with
      | refusal hr => rcases Pool.refusal_eq_some hr with ⟨he, -⟩ | ⟨he, -⟩ <;> cases he
      | unstaffed _ _ _ needs => exact ⟨needs, rfl⟩
    | later under hs hr =>
      obtain ⟨-, woken, rest, hi⟩ := under.submission run
      exact absurd (he ▸ hr) (staffed_later hi hs)
  · rw [idles.tasks, ht]
  · have := (returns.rests run (by rwa [record_slot ht₀]) quiet).1
    rwa [record_slot ht, record_slot ht₀] at this
  · rw [← record_handle ht]
    exact handle_of_canShare share
  · have := (returns.rests run (by rwa [record_slot ht₀]) quiet).2
    rwa [record_runs ht, record_runs ht₀] at this
  · exact fun pick hth code own ht ho => step_destroy hth code own ht ho
  · exact fun pick hth code use share hp takes ht ho =>
      submit_takes pick hth code use share hp takes ht ho

/-- Every submission that ends has taken effect in its last section, or not at all. -/
theorem Run.submitted (run : Run callers g s)
    (returns : Returns s i (.submit p t) own h last r) : Submitted s p t own h last r := by
  obtain ⟨pool, task, hp, ht, share, decides⟩ := returns.decides run
  refine ⟨fun x hx => ?_, ?_, fun he => ?_, fun hr => ?_⟩
  · cases returns with
    | atOnce _ _ => cases hx
    | later under _ _ =>
      obtain ⟨⟨first, waits, rfl, -, ⟨_, _, begins⟩, idle⟩, -⟩ := under.submission run
      rcases List.mem_cons.mp hx with rfl | hx
      · exact begins.spares
      · exact (idle x hx).1.spares
  · cases decides with
    | declined _ _ _ => exact .inr ⟨_, rfl⟩
    | accepted _ _ _ _ _ _ => exact .inl rfl
  · subst he
    exact returns.declined run
  · subst hr
    exact enqueued_of_decides decides (returns.before run) hp ht share

/-- The only worker of a pool that may have `max` is busy with a task. -/
def busyPool (max : Nat) : List (ThreadId × Action) :=
  [(0, .call (.createPool (.new max)) 0), (0, .call (.createTask none) 0),
    (0, .call (.createTask none) 0), (0, .call (.submit 0 0) 0), (2, .advance 0), (0, .advance 0),
    (2, .advance 0), (2, .advance 0)]

/-- A submission waits for the worker that it has got, another caller shuts the pool down, and the
submission fails; without the shutdown it succeeds. Another one fails since the platform does not
start a second worker. -/
theorem submitted_waiting :
    (∃ g s, Run 2 g s ∧
      (∃ own h last, own ≠ [] ∧ Returns s 0 (.submit 0 0) own h last (.failed .shutDown) ∧
        Submitted s 0 0 own h last (.failed .shutDown)) ∧
      ∃ own h last, own ≠ [] ∧ Returns s 0 (.submit 0 0) own h last .done ∧
        Submitted s 0 0 own h last .done) ∧
    ∃ g s pool last message cause, Run 2 g s ∧ s.pools[0]? = some pool ∧
      pool.crew.length = 1 ∧
      Returns s 1 (.submit 0 1) [] [] last (.failed (.spawnFailed 1 message cause)) ∧
      Submitted s 0 1 [] [] last (.failed (.spawnFailed 1 message cause)) := by
  refine ⟨?waits, ?unstaffed⟩
  case waits =>
    have submitted {g : Trace} {s : System} {r : Reply} (run : Run 2 g s)
        (ended : ∃ own h last, own ≠ [] ∧ Returns s 0 (.submit 0 0) own h last r) :
        ∃ own h last, own ≠ [] ∧ Returns s 0 (.submit 0 0) own h last r ∧
          Submitted s 0 0 own h last r := by
      obtain ⟨own, h, last, waited, returns⟩ := ended
      exact ⟨own, h, last, waited, returns, run.submitted returns⟩
    have run : Run 2 _ _ := run_of_replay [(0, .call (.createPool (.new 1)) 0),
      (0, .call (.createTask none) 0)] rfl
    exact ⟨_, _, run,
      submitted run (returns_of_replay 0 [(1, .call (.shutdown 0) 0), (2, .advance 0)] (.advance 0)
        [.replied (.failed .shutDown)] rfl rfl rfl rfl (by simp)),
      submitted run (returns_of_replay 0 [(2, .advance 0)] (.advance 0)
        [.log (.submitted 0 0 1), .metric 0 (.submission 1), .replied .done] rfl rfl rfl rfl
        (by simp))⟩
  case unstaffed =>
    have unstaffed {g : Trace} {s : System} {pool : Pool} (run : Run 2 g s)
        (hp : s.pools[0]? = some pool) (staff : pool.crew.length = 1)
        (called : s.step 1 (.call (.submit 0 1) { refusal := some "out of memory" }) =
          some (s, [.replied (.failed (.spawnFailed 1 "Cannot create worker thread"
            (some "out of memory")))])) :
        ∃ g s pool last message cause, Run 2 g s ∧ s.pools[0]? = some pool ∧
          pool.crew.length = 1 ∧
          Returns s 1 (.submit 0 1) [] [] last (.failed (.spawnFailed 1 message cause)) ∧
          Submitted s 0 1 [] [] last (.failed (.spawnFailed 1 message cause)) := by
      have returns := Returns.atOnce called (List.mem_singleton_self _)
      exact ⟨g, s, pool, _, _, _, run, hp, staff, returns, run.submitted returns⟩
    exact unstaffed (run_of_replay (busyPool 2) rfl) rfl rfl rfl

end System

end WorkerPool
