import WorkerPool.Proofs.FailedSubmissions

/-!
Workers of submissions that are rejected.

A submission asks the pool and the task before it starts a worker, and again after it has waited for
the worker to register. So it starts none for a task that cannot be queued. If it is rejected after
all, the pool has been closed or filled, or the task has been taken, while it waited.
-/
namespace WorkerPool

/-- A pool does not take the task, and could have started a worker. -/
def PoolError.isRejection : PoolError → Bool
  | shutDown | tooManyTasks .. | alreadySubmitted _ => true
  | _ => false

theorem Pool.Change.queue {s : System} {i : ThreadId} {p : PoolId} {es : List Event}
    {pool pool' : Pool} (change : Pool.Change s i p es pool pool') :
    pool'.queue.length ≤ pool.queue.length + (es.filterMap (·.push? p)).length ∧
      pool'.queue.capacity = pool.queue.capacity := by
  cases change with
  | accept t _ hpush =>
    have := List.length_pos_iff.mpr hpush
    refine ⟨?_, rfl⟩
    rw [length_accept]
    omega
  | claim hc =>
    obtain ⟨queue, hpop, rfl⟩ := claim?_eq hc
    obtain ⟨rest, hentries, rfl⟩ := PendingQueue.pop?_eq hpop
    refine ⟨?_, rfl⟩
    simp only [PendingQueue.length, hentries, List.length_cons]
    omega
  | _ => exact ⟨Nat.le_add_right _ _, rfl⟩

namespace Event

variable {ev : Event} {p : PoolId} {t : TaskId} {n : Nat}

theorem push?_eq_some (h : ev.push? p = some n) : ∃ t, ev = .log (.submitted p t n) := by
  cases ev with
  | log r =>
    cases r with
    | submitted q t m =>
      obtain ⟨rfl, rfl⟩ : q = p ∧ m = n := by simpa [push?] using h
      exact ⟨t, rfl⟩
    | _ => cases h
  | _ => cases h

theorem eq_of_buys (h : ev.buys t) : ∃ p n, ev = .log (.submitted p t n) := by
  cases ev with
  | log r =>
    cases r with
    | submitted p u n =>
      obtain rfl : u = t := beq_iff_eq.mp h
      exact ⟨p, n, rfl⟩
    | _ => cases h
  | _ => cases h

end Event

namespace Passage

/-- The workers of the pool that the section tells to have spawned. -/
def spawns (x : Passage) (p : PoolId) : List Nat := x.told.filterMap (·.spawn? p)

/-- The first of the sections, which begins in the state `s`, spawns the workers `ks` for the pool
`p`, and no other section spawns any. -/
def SpawnsFirst (s : System) (p : PoolId) (ks : List Nat) : List Passage → Prop
  | [] => False
  | first :: later => first.before = s ∧ (∀ q, first.spawns q = if q = p then ks else []) ∧
    ∀ x ∈ later, ∀ q, x.spawns q = []

theorem SpawnsFirst.exists_iff {s : System} {p : PoolId} {ks : List Nat} {sections : List Passage}
    (spawns : SpawnsFirst s p ks sections) :
    (∃ x ∈ sections, ∃ q, x.spawns q ≠ []) ↔ ks ≠ [] := by
  cases sections with
  | nil => cases spawns
  | cons first later =>
    obtain ⟨-, hfirst, none⟩ := spawns
    refine ⟨fun ⟨x, hx, q, hne⟩ => ?_,
      fun hks => ⟨first, List.mem_cons_self, p, by simp [hfirst, hks]⟩⟩
    rcases List.mem_cons.mp hx with rfl | hx
    · rintro rfl
      simp [hfirst] at hne
    · exact absurd (none x hx q) hne

end Passage

namespace System

variable {s s' : System} {i j : ThreadId} {own : List Passage} {last : Passage} {g h : Trace}
  {es : List Event} {a : Action} {r : Reply} {callers : Nat} {pick : Pick} {p q : PoolId}
  {t : TaskId} {pool : Pool} {task : Task} {e : PoolError} {op : Operation}
  {schedule : List (ThreadId × Action)}

/-! ### What happens in the meantime -/

theorem Moves.queue (ms : Moves i s es s') (hp : s.pools[p]? = some pool) :
    ∃ pool', s'.pools[p]? = some pool' ∧
      pool'.queue.length ≤ pool.queue.length + (es.filterMap (·.push? p)).length ∧
      pool'.queue.capacity = pool.queue.capacity := by
  induction ms generalizing pool with
  | nil => exact ⟨pool, hp, Nat.le_add_right _ _, rfl⟩
  | cons m _ ih =>
    obtain ⟨pool₁, hp₁, change⟩ := m.pool_change hp
    obtain ⟨hlen₁, hcap₁⟩ := change.queue
    obtain ⟨pool₂, hp₂, hlen₂, hcap₂⟩ := ih hp₁
    refine ⟨pool₂, hp₂, ?_, hcap₂.trans hcap₁⟩
    rw [List.filterMap_append, List.length_append]
    omega

/-- Only pushes make a queue longer. -/
theorem Run.queue (run : Run callers g s) (hr : s.replay schedule = some (h, s'))
    (hp : s.pools[p]? = some pool) : ∃ pool', s'.pools[p]? = some pool' ∧
      pool'.queue.length ≤ pool.queue.length + (h.pushes p).length ∧
      pool'.queue.capacity = pool.queue.capacity := by
  induction schedule generalizing g h s pool with
  | nil =>
    cases hr
    exact ⟨pool, hp, Nat.le_add_right _ _, rfl⟩
  | cons move rest ih =>
    obtain ⟨s₁, es, h₁, hs, hr₁, rfl⟩ := replay_cons hr
    obtain ⟨pool₁, hp₁, hlen₁, hcap₁⟩ := (moves_of_step run.calls hs).queue hp
    obtain ⟨pool₂, hp₂, hlen₂, hcap₂⟩ := ih (run.step hs) hr₁ hp₁
    refine ⟨pool₂, hp₂, ?_, hcap₂.trans hcap₁⟩
    have hpushes : Trace.pushes (es.map (move.1, ·) ++ h₁) p =
        es.filterMap (·.push? p) ++ h₁.pushes p := by
      simp [Trace.pushes, List.filterMap_map]
    rw [hpushes, List.length_append]
    omega

/-- What the thread of a call has told is what the sections of the call have told. -/
theorem Underway.told (under : Underway s i op own h s') {ev : Event} (hev : (i, ev) ∈ h) :
    ∃ x ∈ own, ev ∈ x.told := by
  induction under with
  | @call pick s' es hs _ =>
    obtain ⟨ev', hmem, he⟩ := List.mem_map.mp hev
    cases he
    exact ⟨_, List.mem_singleton_self _, hmem⟩
  | @own own h s₁ s' a es under hs _ ih =>
    rcases List.mem_append.mp hev with hev | hev
    · obtain ⟨x, hx, hmem⟩ := ih hev
      exact ⟨x, List.mem_append_left _ hx, hmem⟩
    · obtain ⟨ev', hmem, he⟩ := List.mem_map.mp hev
      cases he
      exact ⟨_, List.mem_append_right _ (List.mem_singleton_self _), hmem⟩
  | @other own h s₁ s' j a es under hij hs ih =>
    rcases List.mem_append.mp hev with hev | hev
    · exact ih hev
    · obtain ⟨ev', hmem, he⟩ := List.mem_map.mp hev
      cases he
      exact absurd rfl hij

/-- A submission that waits tells of no task that a pool takes. -/
theorem Underway.not_submitted (under : Underway s i (.submit p t) own h s')
    (run : Run callers g s) {u : TaskId} {n : Nat} : (i, .log (.submitted q u n)) ∉ h := by
  intro hev
  obtain ⟨⟨first, waits, rfl, -, ⟨pool, task, begins⟩, idle⟩, -⟩ := under.submission run
  obtain ⟨x, hx, hmem⟩ := under.told hev
  rcases List.mem_cons.mp hx with rfl | hx
  · rcases begins.workers with ⟨-, -, k, name, htold⟩ | ⟨-, -, -, htold⟩ <;> simp [htold] at hmem
  · simp [(idle x hx).2] at hmem

/-! ### Submissions that are rejected -/

/-- The pool takes submissions and has to grow for one, and the task is with its caller. -/
def Warrants (s : System) (p : PoolId) (t : TaskId) : Prop :=
  ∃ pool task, s.pools[p]? = some pool ∧ s.tasks[t]? = some task ∧ pool.refusal = none ∧
    task.slot.ownership = .caller ∧ pool.needsWorker

/-- What a submission that is rejected has to do with workers. -/
structure Rejected (s : System) (i : ThreadId) (p : PoolId) (t : TaskId) (own : List Passage)
    (h : Trace) (last : Passage) (e : PoolError) : Prop where
  /-- It spawns a worker exactly if, when it was called for, the pool would have taken the task and
  needed a worker for it; -/
  spawns : (∃ x ∈ own ++ [last], ∃ q, x.spawns q ≠ []) ↔ s.Warrants p t
  /-- and then one worker, for that pool, in the section that begins with the call. -/
  once : ∃ ks, ks.length ≤ 1 ∧ Passage.SpawnsFirst s p ks (own ++ [last])
  /-- In that case the pool has been closed, -/
  closed : e = .shutDown → s.Warrants p t → s.isClosed p = false ∧ last.before.isClosed p
  /-- or another thread has submitted something to it, -/
  filled : ∀ {n m}, e = .tooManyTasks n m → s.Warrants p t →
    ∃ j u n, j ≠ i ∧ (j, .log (.submitted p u n)) ∈ h
  /-- or has submitted the task, while the submission waited. -/
  taken : ∀ {n}, e = .alreadySubmitted n → s.Warrants p t →
    ∃ j q n, j ≠ i ∧ (j, .log (.submitted q t n)) ∈ h

theorem not_warrants (declines : Declines pool t task e) (hp : s.pools[p]? = some pool)
    (ht : s.tasks[t]? = some task) (he : e.isRejection) : ¬ s.Warrants p t := by
  rintro ⟨pool', task', hp', ht', hr, ho, -⟩
  obtain rfl : pool = pool' := Option.some.inj (hp.symm.trans hp')
  obtain rfl : task = task' := Option.some.inj (ht.symm.trans ht')
  cases declines with
  | refusal hr' => simp [hr] at hr'
  | owned _ hne => exact hne ho
  | unstaffed _ _ _ _ => cases he

/-- The last section of a submission that fails. -/
theorem Returns.declines (returns : Returns s i (.submit p t) own h last (.failed e))
    (run : Run callers g s) : ∃ pool task, last.before.pools[p]? = some pool ∧
      last.before.tasks[t]? = some task ∧ Declines pool t task e ∧
      last.told = [.replied (.failed e)] := by
  obtain ⟨pool, task, hp, ht, -, decides⟩ := returns.decides run
  cases decides with
  | declined declines _ htold => exact ⟨pool, task, hp, ht, declines, htold⟩

/-- The last section of a submission spawns nothing. -/
theorem Returns.spawns_last (returns : Returns s i (.submit p t) own h last r)
    (run : Run callers g s) (q : PoolId) : last.spawns q = [] := by
  obtain ⟨pool, task, -, -, -, decides⟩ := returns.decides run
  cases decides with
  | declined _ _ htold => simp [Passage.spawns, htold, Event.spawn?]
  | accepted _ _ _ _ _ htold => simp [Passage.spawns, htold, Pool.receipt, Event.spawn?]

/-- A submission spawns a worker in its first section, and only if it is called for at the right
moment. -/
theorem Returns.spawns (returns : Returns s i (.submit p t) own h last r) (run : Run callers g s)
    (atOnce : own = [] → ¬ s.Warrants p t) :
    ∃ ks, Passage.SpawnsFirst s p ks (own ++ [last]) ∧
      (s.Warrants p t ∧ (∃ k, ks = [k]) ∨ ¬ s.Warrants p t ∧ ks = []) := by
  have ends := returns.spawns_last run
  cases returns with
  | atOnce _ _ => exact ⟨[], ⟨rfl, by simp [ends], nofun⟩, .inr ⟨atOnce rfl, rfl⟩⟩
  | later under _ _ =>
    obtain ⟨⟨first, waits, rfl, rfl, ⟨pool, task, begins⟩, idle⟩, -⟩ := under.submission run
    have none : ∀ x ∈ waits ++ [_], ∀ q, x.spawns q = [] := fun x hx q => by
      rcases List.mem_append.mp hx with hx | hx
      · simp [Passage.spawns, (idle x hx).2]
      · exact List.mem_singleton.mp hx ▸ ends q
    obtain ⟨hp, ht, hr, ho, -, ⟨hn, -, k, name, hfirst⟩ | ⟨hn, -, -, hfirst⟩⟩ := begins
    · refine ⟨[k], ⟨rfl, fun q => ?_, none⟩, .inl ⟨⟨pool, task, hp, ht, hr, ho, hn⟩, k, rfl⟩⟩
      by_cases hq : q = p
      · simp [Passage.spawns, hfirst, Event.spawn?, hq]
      · simp [Passage.spawns, hfirst, Event.spawn?, hq, Ne.symm hq]
    · refine ⟨[], ⟨rfl, fun q => by simp [Passage.spawns, hfirst], none⟩, .inr ⟨?_, rfl⟩⟩
      rintro ⟨pool', -, hp', -, -, -, hn'⟩
      obtain rfl : pool = pool' := Option.some.inj (hp.symm.trans hp')
      simp [hn] at hn'

theorem Returns.unwarranted (returns : Returns s i (.submit p t) own h last (.failed e))
    (run : Run callers g s) (he : e.isRejection) (hown : own = []) : ¬ s.Warrants p t := by
  obtain ⟨pool, task, hp, ht, declines, -⟩ := returns.declines run
  cases returns with
  | atOnce _ _ => exact not_warrants declines hp ht he
  | later under _ _ =>
    obtain ⟨⟨first, waits, hsections, -⟩, -⟩ := under.submission run
    cases hown.symm.trans hsections

/-- A submission that is rejected though it was called for at the right moment has waited. -/
theorem Returns.waited (returns : Returns s i (.submit p t) own h last (.failed e))
    (run : Run callers g s) (he : e.isRejection) (warrants : s.Warrants p t) :
    Underway s i (.submit p t) own h last.before := by
  have no := returns.unwarranted run he
  cases returns with
  | atOnce _ _ => exact absurd warrants (no rfl)
  | later under _ _ => exact under

theorem Returns.filled {n m : Nat}
    (returns : Returns s i (.submit p t) own h last (.failed (.tooManyTasks n m)))
    (run : Run callers g s) (warrants : s.Warrants p t) :
    ∃ j u n, j ≠ i ∧ (j, .log (.submitted p u n)) ∈ h := by
  have under := returns.waited run rfl warrants
  obtain ⟨schedule, hr⟩ := under.schedule
  obtain ⟨pool, task, hp, ht, hopen, -, -⟩ := warrants
  obtain ⟨pool', hp', hlen, hcap⟩ := run.queue hr hp
  obtain ⟨pool'', task', hp'', -, declines, -⟩ := returns.declines run
  obtain rfl : pool'' = pool' := Option.some.inj (hp''.symm.trans hp')
  have full : pool''.queue.capacity ≤ pool''.queue.length := by
    cases declines with
    | refusal hr =>
      rcases Pool.refusal_eq_some hr with ⟨he, -⟩ | ⟨-, hfull⟩
      · cases he
      · simpa [PendingQueue.isFull] using hfull
  have room : pool.queue.length < pool.queue.capacity := by
    simpa [PendingQueue.isFull] using (Pool.Balanced.isOpen hopen).2
  have pushed : h.pushes p ≠ [] := fun hnil => by
    rw [hnil, List.length_nil] at hlen
    omega
  obtain ⟨n, hn⟩ := List.exists_mem_of_ne_nil _ pushed
  obtain ⟨⟨j, ev⟩, hmem, hpush⟩ := List.mem_filterMap.mp hn
  obtain ⟨u, rfl⟩ := Event.push?_eq_some hpush
  refine ⟨j, u, n, ?_, hmem⟩
  rintro rfl
  exact under.not_submitted run hmem

theorem Returns.overtaken {n : Nat}
    (returns : Returns s i (.submit p t) own h last (.failed (.alreadySubmitted n)))
    (run : Run callers g s) (warrants : s.Warrants p t) :
    ∃ j q n, j ≠ i ∧ (j, .log (.submitted q t n)) ∈ h := by
  have under := returns.waited run rfl warrants
  obtain ⟨pool, task, -, ht, -, ho, -⟩ := warrants
  obtain ⟨pool', task', -, ht', declines, -⟩ := returns.declines run
  have owned : task'.slot.ownership ≠ .caller := by
    cases declines with
    | refusal hr => rcases Pool.refusal_eq_some hr with ⟨he, -⟩ | ⟨he, -⟩ <;> cases he
    | owned _ hne => exact hne
  have sold : h.submissions t ≠ 0 := fun quiet => by
    have := (under.rests run (by rwa [record_slot ht]) quiet).1
    rw [record_slot ht, record_slot ht'] at this
    exact owned (this ▸ ho)
  obtain ⟨⟨j, ev⟩, hmem, hbuys⟩ := List.countP_pos_iff.mp (Nat.pos_of_ne_zero sold)
  obtain ⟨q, n, rfl⟩ := Event.eq_of_buys hbuys
  refine ⟨j, q, n, ?_, hmem⟩
  rintro rfl
  exact under.not_submitted run hmem

/-- A submission that is rejected has spawned a worker only if it was called for at the right
moment. -/
theorem Run.rejects (run : Run callers g s)
    (returns : Returns s i (.submit p t) own h last (.failed e)) (he : e.isRejection) :
    Rejected s i p t own h last e where
  spawns := by
    obtain ⟨ks, first, hks⟩ := returns.spawns run (returns.unwarranted run he)
    rw [first.exists_iff]
    rcases hks with ⟨warrants, k, rfl⟩ | ⟨no, rfl⟩
    · simp [warrants]
    · simp [no]
  once := by
    obtain ⟨ks, first, ⟨-, k, rfl⟩ | ⟨-, rfl⟩⟩ := returns.spawns run (returns.unwarranted run he)
    · exact ⟨[k], le_rfl, first⟩
    · exact ⟨[], Nat.zero_le 1, first⟩
  closed hclosed warrants := by
    subst hclosed
    obtain ⟨pool, task, hp, -, hopen, -, -⟩ := warrants
    obtain ⟨pool', task', hp', -, declines, -⟩ := returns.declines run
    refine ⟨by simp [isClosed, hp, (Pool.Balanced.isOpen hopen).1], isClosed_of_pool hp' ?_⟩
    cases declines with
    | refusal hr =>
      rcases Pool.refusal_eq_some hr with ⟨-, hc⟩ | ⟨he, -⟩
      · exact hc
      · cases he
  filled hfull warrants := by
    subst hfull
    exact returns.filled run warrants
  taken howned warrants := by
    subst howned
    exact returns.overtaken run warrants

/-- One of two callers gets a worker for its submission, which is then rejected all the same. -/
def SpawnedInVain (e : PoolError) : Prop :=
  ∃ g s own h last, Run 2 g s ∧ Returns s 0 (.submit 0 0) own h last (.failed e) ∧
    (own ++ [last]).flatMap (·.spawns 0) = [0]

theorem spawnedInVain_of_replay (schedule : List (ThreadId × Action)) {s₁ s₂ : System}
    (run : Run 2 g s)
    (called : s.step 0 (.call (.submit 0 0) 0) = some (s₁, [.log (.spawned 0 0 "task-worker")]))
    (hr : s₁.replay schedule = some (h, s₂)) (others : passages 0 schedule s₁ = [])
    (hs : s₂.step 0 (.advance 0) = some (s', [.replied (.failed e)])) : SpawnedInVain e := by
  have silent : (⟨s, s₁, [.log (.spawned 0 0 "task-worker")]⟩ :: passages 0 schedule s₁).all
      (·.isSilent) := by
    rw [others]
    rfl
  have returns : Returns s 0 (.submit 0 0) _ _ _ (.failed e) :=
    .replay called hr hs silent (List.mem_singleton_self _)
  exact ⟨g, s, _, _, _, run, returns, by simp [others, Passage.spawns, Event.spawn?]⟩

/-- While the submission waits for its worker, the other caller shuts the pool down, fills its
queue, or submits the task to another pool. -/
theorem spawns_in_vain : SpawnedInVain .shutDown ∧ SpawnedInVain (.tooManyTasks 1 1) ∧
    SpawnedInVain (.alreadySubmitted 1) := by
  refine ⟨?shut, ?filled, ?taken⟩
  case shut =>
    exact spawnedInVain_of_replay [(1, .call (.shutdown 0) 0), (2, .advance 0)]
      (run_of_replay [(0, .call (.createPool (.new 1)) 0), (0, .call (.createTask none) 0)] rfl)
      rfl rfl rfl rfl
  case filled =>
    exact spawnedInVain_of_replay [(1, .call (.submit 0 1) 0), (2, .advance 0), (1, .advance 0)]
      (run_of_replay [(0, .call (.createPool { Config.new 1 with maxPending := 1 }) 0),
        (0, .call (.createTask none) 0), (0, .call (.createTask none) 0)] rfl)
      rfl rfl rfl rfl
  case taken =>
    exact spawnedInVain_of_replay
      [(1, .call (.submit 1 0) 0), (3, .advance 0), (1, .advance 0), (2, .advance 0)]
      (run_of_replay [(0, .call (.createPool (.new 1)) 0), (0, .call (.createPool (.new 1)) 0),
        (0, .call (.createTask none) 0)] rfl)
      rfl rfl rfl rfl

/-- A submission is rejected since another caller has closed the pool while it waited. -/
theorem rejects_closed : ∃ g s own h last, Run 2 g s ∧
    Returns s 0 (.submit 0 0) own h last (.failed .shutDown) ∧ s.Warrants 0 0 ∧
    Rejected s 0 0 0 own h last .shutDown := by
  have rejected {g : Trace} {s : System} (run : Run 2 g s) (warrants : s.Warrants 0 0)
      (ended : ∃ own h last, own ≠ [] ∧
        Returns s 0 (.submit 0 0) own h last (.failed .shutDown)) :
      ∃ g s own h last, Run 2 g s ∧ Returns s 0 (.submit 0 0) own h last (.failed .shutDown) ∧
        s.Warrants 0 0 ∧ Rejected s 0 0 0 own h last .shutDown := by
    obtain ⟨own, h, last, -, returns⟩ := ended
    exact ⟨g, s, own, h, last, run, returns, warrants, run.rejects returns rfl⟩
  have run : Run 2 _ _ := run_of_replay [(0, .call (.createPool (.new 1)) 0),
    (0, .call (.createTask none) 0)] rfl
  exact rejected run ⟨_, _, rfl, rfl, rfl, rfl, rfl⟩
    (returns_of_replay 0 [(1, .call (.shutdown 0) 0), (2, .advance 0)] (.advance 0)
      [.replied (.failed .shutDown)] rfl rfl rfl rfl (by simp))

end System

end WorkerPool
