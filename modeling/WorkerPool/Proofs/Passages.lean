import WorkerPool.Proofs.Submissions

/-!
Calls from their beginning to their end.

A call goes through critical sections of its own, and other threads take steps in between.
`Underway` and `Returns` follow one call and keep its sections apart from what happens around them.
They are meant for submissions and shutdowns, inside of which no user code runs.
-/
namespace WorkerPool

/-- A critical section of a call: the state before it, the state after it, and what it tells. -/
structure Passage where
  before : System
  after : System
  told : List Event

def Event.isReply : Event → Bool
  | .replied _ => true
  | _ => false

namespace Passage

/-- The call does not return with the section. -/
def isSilent (x : Passage) : Bool := x.told.all (!·.isReply)

theorem not_replied {x : Passage} (silent : x.isSilent) (r : Reply) : .replied r ∉ x.told :=
  fun hr => by simpa [Event.isReply] using List.all_eq_true.mp silent _ hr

/-- The section leaves all pools and all tasks as they are. -/
structure Idles (x : Passage) : Prop where
  pools : x.after.pools = x.before.pools
  tasks : x.after.tasks = x.before.tasks

/-- The section begins a submission that goes on to wait. The pool takes submissions and the task is
with its caller; the pool gets a worker if it needs one, and else it has one that has yet to
register. -/
structure Begins (x : Passage) (p : PoolId) (t : TaskId) (pool : Pool) (task : Task) : Prop where
  at_pool : x.before.pools[p]? = some pool
  at_task : x.before.tasks[t]? = some task
  accepts : pool.refusal = none
  owned : task.slot.ownership = .caller
  tasks : x.after.tasks = x.before.tasks
  workers :
    (pool.needsWorker ∧ (∃ j, x.after.pools = x.before.pools.set p (pool.hire j)) ∧
      ∃ k name, x.told = [.log (.spawned p k name)]) ∨
    (pool.needsWorker = false ∧ 0 < pool.unregistered ∧ x.after.pools = x.before.pools ∧
      x.told = [])

/-- The section is the last one of a submission: it declines the task and changes nothing, or the
pool takes the task. -/
inductive Decides (x : Passage) (p : PoolId) (t : TaskId) (pool : Pool) (task : Task) : Reply → Prop
  | declined {e : PoolError} : Declines pool t task e → x.Idles →
      x.told = [.replied (.failed e)] → Decides x p t pool task (.failed e)
  | accepted : pool.refusal = none → pool.unregistered = 0 → task.slot.ownership = .caller →
      x.after.tasks = x.before.tasks.set t { task with slot := task.slot.claim } →
      x.after.pools = x.before.pools.set p (pool.accept t) → x.told = pool.receipt p t →
      Decides x p t pool task .done

end Passage

namespace System

variable {s s' s₁ : System} {i j : ThreadId} {op : Operation} {own : List Passage} {last : Passage}
  {g h : Trace} {es : List Event} {a : Action} {r : Reply} {callers : Nat} {pick : Pick}
  {p : PoolId}
  {t : TaskId} {pool : Pool} {task : Task} {woken : Bool} {rest : List Frame} {e : PoolError}

/-- The call that the thread makes in the state `s` has gone through some sections and not returned;
the trace tells of all steps since, also of those of other threads. -/
inductive Underway (s : System) (i : ThreadId) (op : Operation) :
    List Passage → Trace → System → Prop
  | call {pick : Pick} {s' : System} {es : List Event} : s.step i (.call op pick) = some (s', es) →
      (∀ r, .replied r ∉ es) → Underway s i op [⟨s, s', es⟩] (es.map (i, ·)) s'
  | own {own : List Passage} {h : Trace} {s₁ s' : System} {a : Action} {es : List Event} :
      Underway s i op own h s₁ → s₁.step i a = some (s', es) → (∀ r, .replied r ∉ es) →
      Underway s i op (own ++ [⟨s₁, s', es⟩]) (h ++ es.map (i, ·)) s'
  | other {own : List Passage} {h : Trace} {s₁ s' : System} {j : ThreadId} {a : Action}
      {es : List Event} : Underway s i op own h s₁ → i ≠ j → s₁.step j a = some (s', es) →
      Underway s i op own (h ++ es.map (j, ·)) s'

/-- The call that the thread makes in the state `s` returns with the section `last`; the trace tells
of all steps before. -/
inductive Returns (s : System) (i : ThreadId) (op : Operation) :
    List Passage → Trace → Passage → Reply → Prop
  | atOnce {pick : Pick} {s' : System} {es : List Event} {r : Reply} :
      s.step i (.call op pick) = some (s', es) → .replied r ∈ es →
      Returns s i op [] [] ⟨s, s', es⟩ r
  | later {own : List Passage} {h : Trace} {s₁ s' : System} {a : Action} {es : List Event}
      {r : Reply} : Underway s i op own h s₁ → s₁.step i a = some (s', es) → .replied r ∈ es →
      Returns s i op own h ⟨s₁, s', es⟩ r

/-- What happens while a call is underway is a schedule. -/
theorem Underway.schedule (under : Underway s i op own h s') :
    ∃ schedule, s.replay schedule = some (h, s') := by
  induction under with
  | call hs _ => exact ⟨_, replay_one hs⟩
  | own _ hs _ ih =>
    obtain ⟨schedule, hr⟩ := ih
    exact ⟨_, replay_snoc hr hs⟩
  | other _ _ hs ih =>
    obtain ⟨schedule, hr⟩ := ih
    exact ⟨_, replay_snoc hr hs⟩

theorem Underway.run (under : Underway s i op own h s') (run : Run callers g s) :
    Run callers (g ++ h) s' := by
  obtain ⟨schedule, hr⟩ := under.schedule
  exact run.replay hr

theorem Returns.before (returns : Returns s i op own h last r) (run : Run callers g s) :
    Run callers (g ++ h) last.before := by
  cases returns with
  | atOnce _ _ => simpa using run
  | later under _ _ => exact under.run run

theorem Returns.step (returns : Returns s i op own h last r) :
    ∃ a, last.before.step i a = some (last.after, last.told) := by
  cases returns with
  | atOnce hs _ => exact ⟨_, hs⟩
  | later _ hs _ => exact ⟨_, hs⟩

theorem Returns.after (returns : Returns s i op own h last r) (run : Run callers g s) :
    Run callers (g ++ h ++ last.told.map (i, ·)) last.after := by
  obtain ⟨a, hs⟩ := returns.step
  exact (returns.before run).step hs

/-- The sections of a call are steps of its thread. -/
theorem Underway.sections (under : Underway s i op own h s') (run : Run callers g s) :
    ∀ x ∈ own, ∃ h a, Run callers h x.before ∧ x.before.step i a = some (x.after, x.told) := by
  induction under with
  | call hs _ => exact List.forall_mem_singleton.mpr ⟨_, _, run, hs⟩
  | own under hs _ ih =>
    exact List.forall_mem_append.mpr
      ⟨ih, List.forall_mem_singleton.mpr ⟨_, _, under.run run, hs⟩⟩
  | other _ _ _ ih => exact ih

theorem Returns.sections (returns : Returns s i op own h last r) (run : Run callers g s) :
    ∀ x ∈ own ++ [last], ∃ h a, Run callers h x.before ∧
      x.before.step i a = some (x.after, x.told) := by
  have earlier : ∀ x ∈ own, ∃ h a, Run callers h x.before ∧
      x.before.step i a = some (x.after, x.told) := by
    cases returns with
    | atOnce _ _ => exact nofun
    | later under _ _ => exact under.sections run
  obtain ⟨a, hs⟩ := returns.step
  exact List.forall_mem_append.mpr
    ⟨earlier, List.forall_mem_singleton.mpr ⟨_, a, returns.before run, hs⟩⟩

/-- The sections that the thread goes through in a schedule. -/
def passages (i : ThreadId) : List (ThreadId × Action) → System → List Passage
  | [], _ => []
  | (j, a) :: rest, s =>
    match s.step j a with
    | none => []
    | some (s', es) => if i = j then ⟨s, s', es⟩ :: passages i rest s' else passages i rest s'

/-- A call stays underway in a schedule in which its thread does not reply. -/
theorem Underway.replay {schedule : List (ThreadId × Action)} {h' : Trace}
    (under : Underway s i op own h s₁) (hr : s₁.replay schedule = some (h', s'))
    (silent : (passages i schedule s₁).all (·.isSilent)) :
    Underway s i op (own ++ passages i schedule s₁) (h ++ h') s' := by
  induction schedule generalizing own h h' s₁ with
  | nil =>
    cases hr
    simpa [passages] using under
  | cons move rest ih =>
    obtain ⟨j, a⟩ := move
    obtain ⟨s₂, es, h₂, hs, hr₂, rfl⟩ := replay_cons hr
    by_cases hij : i = j
    · subst hij
      simp only [passages, hs, if_true, List.all_cons, Bool.and_eq_true] at silent ⊢
      simpa using ih (under.own hs (Passage.not_replied silent.1)) hr₂ silent.2
    · simp only [passages, hs, hij, if_false] at silent ⊢
      simpa using ih (under.other hij hs) hr₂ silent

/-- A call that waits at first, and replies after a schedule. -/
theorem Returns.replay {schedule : List (ThreadId × Action)} {s₂ : System} {told : List Event}
    (called : s.step i (.call op pick) = some (s₁, es)) (hr : s₁.replay schedule = some (h, s₂))
    (hs : s₂.step i a = some (s', told))
    (silent : (⟨s, s₁, es⟩ :: passages i schedule s₁).all (·.isSilent)) (ends : .replied r ∈ told) :
    Returns s i op (⟨s, s₁, es⟩ :: passages i schedule s₁) (es.map (i, ·) ++ h) ⟨s₂, s', told⟩
      r := by
  simp only [List.all_cons, Bool.and_eq_true] at silent
  exact .later ((Underway.call called (Passage.not_replied silent.1)).replay hr silent.2) hs ends

theorem returns_of_replay {s₂ : System} (pick : Pick) (schedule : List (ThreadId × Action))
    (a : Action) (told : List Event)
    (called : s.step i (.call op pick) = some (s₁, es)) (hr : s₁.replay schedule = some (h, s₂))
    (hs : s₂.step i a = some (s', told))
    (silent : (⟨s, s₁, es⟩ :: passages i schedule s₁).all (·.isSilent)) (ends : .replied r ∈ told) :
    ∃ own h last, own ≠ [] ∧ Returns s i op own h last r :=
  ⟨_, _, _, List.cons_ne_nil _ _, .replay called hr hs silent ends⟩

/-! ### Submissions -/

theorem begins_of_step (calls : s.Calls)
    (hs : s.step i (.call (.submit p t) pick) = some (s', es)) (silent : ∀ r, .replied r ∉ es) :
    (∃ pool task, Passage.Begins ⟨s, s', es⟩ p t pool task) ∧
      ∃ rest, s'.Inside i (.awaitingWorker p t false :: rest) := by
  obtain ⟨pool, task, hp, ht, -, attempt⟩ := Attempts.attempt (.call pick) calls hs
  obtain ⟨pool', hp', step⟩ := submitStep_of_step hs
  obtain rfl : pool = pool' := Option.some.inj (hp.symm.trans hp')
  cases attempt with
  | @declined _ e _ _ _ => exact absurd (List.mem_singleton_self _) (silent (.failed e))
  | accepted _ _ _ _ _ => exact absurd (by simp [Pool.receipt]) (silent .done)
  | @hires _ j k name rest ho hpools htasks hi =>
    cases step with
    | hires hr hn _ _ =>
      exact ⟨⟨pool, task, hp, ht, hr, ho, htasks, .inl ⟨hn, ⟨j, hpools⟩, k, name, rfl⟩⟩, rest, hi⟩
    | accepts _ acc _ =>
      have := acc.done
      simp at this
  | @waits _ rest hu inside hpools htasks hi =>
    -- Who calls is not inside another submission.
    have outside : ¬ ∃ woken rest, s.Inside i (.awaitingWorker p t woken :: rest) := by
      rintro ⟨woken, rest, th, hth, hc⟩
      simp [System.step, hth, Thread.inUserCode, hc] at hs
    have ho : task.slot.ownership = .caller := not_not.mp fun ho => outside (inside ho)
    cases step with
    | waits hr hn _ _ _ =>
      exact ⟨⟨pool, task, hp, ht, hr, ho, htasks, .inr ⟨hn, hu, hpools, rfl⟩⟩, rest, hi⟩
    | accepts _ acc _ => exact absurd acc.done (List.not_mem_nil)

/-- A submission that goes on to wait changes nothing. -/
theorem idles_of_step (hi : s.Inside i (.awaitingWorker p t woken :: rest))
    (hs : s.step i a = some (s', es)) (silent : ∀ r, .replied r ∉ es) :
    (Passage.Idles ⟨s, s', es⟩ ∧ es = []) ∧
      ∃ rest, s'.Inside i (.awaitingWorker p t false :: rest) := by
  obtain ⟨pool, -, he | ⟨r, hr⟩, -⟩ := resumeStep_of_step hi hs
  · cases he
    exact ⟨⟨⟨rfl, rfl⟩, rfl⟩, _, hi.enter⟩
  · exact absurd hr (silent r)

/-- The sections of a submission that is underway. -/
theorem Underway.submission (under : Underway s i (.submit p t) own h s') (run : Run callers g s) :
    (∃ first waits, own = first :: waits ∧ first.before = s ∧
      (∃ pool task, first.Begins p t pool task) ∧ ∀ x ∈ waits, x.Idles ∧ x.told = []) ∧
      ∃ woken rest, s'.Inside i (.awaitingWorker p t woken :: rest) := by
  induction under with
  | call hs silent =>
    obtain ⟨begins, rest, hi⟩ := begins_of_step run.calls hs silent
    exact ⟨⟨_, [], rfl, rfl, begins, nofun⟩, false, rest, hi⟩
  | @own own h s₁ s' a es under hs silent ih =>
    obtain ⟨⟨first, waits, rfl, hfirst, begins, idle⟩, woken, rest, hi⟩ := ih
    obtain ⟨idles, rest, hi'⟩ := idles_of_step hi hs silent
    refine ⟨⟨first, waits ++ [⟨s₁, s', es⟩], rfl, hfirst, begins, ?_⟩, false, rest, hi'⟩
    exact List.forall_mem_append.mpr ⟨idle, List.forall_mem_singleton.mpr idles⟩
  | other under hij hs ih =>
    obtain ⟨sections, woken, rest, hi⟩ := ih
    exact ⟨sections, (moves_of_step (under.run run).calls hs).spares.awaitingWorker hij hi⟩

/-- The step of a submission that replies ends it. -/
theorem Attempts.decides (tries : s.Attempts i p t a) (calls : s.Calls)
    (hs : s.step i a = some (s', es)) (hr : .replied r ∈ es) :
    ∃ pool task, s.pools[p]? = some pool ∧ s.tasks[t]? = some task ∧ s.canShare t ∧
      Passage.Decides ⟨s, s', es⟩ p t pool task r := by
  obtain ⟨pool, task, hp, ht, share, attempt⟩ := tries.attempt calls hs
  refine ⟨pool, task, hp, ht, share, ?_⟩
  cases attempt with
  | declined declines hpools htasks =>
    obtain rfl : r = .failed _ := by simpa using hr
    exact .declined declines ⟨hpools, htasks⟩ rfl
  | hires _ _ _ _ => simp at hr
  | waits _ _ _ _ _ => cases hr
  | @accepted s₀ pick hopen hu ho hs₀ =>
    obtain rfl : r = .done := by simpa [Pool.receipt] using hr
    have hpools : s₀.pools = s.pools := by rcases hs₀ with rfl | rfl <;> rfl
    have htasks : s₀.tasks = s.tasks := by rcases hs₀ with rfl | rfl <;> rfl
    have ht₀ : s₀.tasks[t]? = some task := htasks ▸ ht
    let told := (s₀.setSlot t task.slot.claim).setPool p (pool.accept t)
    have tasks : (told.wakeOne p pick).tasks =
        s.tasks.set t { task with slot := task.slot.claim } := by
      rw [tasks_wakeOne, ← htasks]
      exact congrArg System.tasks (setSlot_eq ht₀)
    have pools : (told.wakeOne p pick).pools = s.pools.set p (pool.accept t) := by
      rw [pools_wakeOne, ← hpools]
      rfl
    exact .accepted hopen hu ho tasks pools rfl

theorem Returns.attempts (returns : Returns s i (.submit p t) own h last r)
    (run : Run callers g s) :
    ∃ a, last.before.Attempts i p t a ∧ last.before.step i a = some (last.after, last.told) ∧
      .replied r ∈ last.told := by
  cases returns with
  | atOnce hs hr => exact ⟨_, .call _, hs, hr⟩
  | later under hs hr =>
    obtain ⟨-, woken, rest, hi⟩ := under.submission run
    exact ⟨_, .goOn _ hi, hs, hr⟩

/-- The last section of a submission. -/
theorem Returns.decides (returns : Returns s i (.submit p t) own h last r)
    (run : Run callers g s) : ∃ pool task, last.before.pools[p]? = some pool ∧
      last.before.tasks[t]? = some task ∧ last.before.canShare t ∧
      last.Decides p t pool task r := by
  obtain ⟨a, tries, hs, hr⟩ := returns.attempts run
  exact tries.decides (returns.before run).calls hs hr

end System

end WorkerPool
