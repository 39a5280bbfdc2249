import WorkerPool.Proofs.ClosedPool
import WorkerPool.Proofs.OneOwner

/-!
Wake-ups of joins and submissions.

A join waits for a task that has not finished. Only a worker that completes the task finishes it,
and it wakes the join in the same critical section, since nobody detaches a task that is being
joined. So whoever waits for a task without a wake-up waits for one that an open pool has in its
queue or in the hands of a worker. Submissions that wait for a worker to register are woken by the
registration, whatever has become of the pool.
-/
namespace WorkerPool

/-- A join of the task waits, and has got no wake-up. -/
def Frame.listens (t : TaskId) : Frame → Bool
  | awaitingOutcome u _ false => u == t
  | _ => false

theorem Frame.listens_wake {t : TaskId} {f : Frame} (c : Condition) (hf : f.listens t = false) :
    (f.wake c).listens t = false := by
  cases f with
  | awaitingOutcome u bound woken =>
    cases woken with
    | true => rfl
    | false => by_cases hc : c = .finished u <;> simp_all [Frame.wake, Frame.listens]
  | _ => rfl

namespace System

variable {s s' : System} {i j : ThreadId} {p : PoolId} {t u : TaskId} {k : Nat} {f : Frame}
  {rest : List Frame} {es : List Event} {h : Trace} {callers : Nat} {bound : Bound} {a : Action}

/-! ### Frames after a move -/

/-- The frames after a move are those before it, up to wake-ups, and new ones. -/
theorem Move.eachFrame {P : Frame → Prop} (m : Move i s es s') (frames : s.EachFrame P)
    (wake : ∀ c f, P f → P (f.wake c)) (due : ∀ f, (s.onThread i Thread.pop).Due i f → P f)
    (disposing : ∀ todo failure releasing, P (.disposing todo failure releasing))
    (destructor : P .destructor) : s'.EachFrame P := by
  have same (hf : SameFrames s s') : s'.EachFrame P := hf.each P wake frames
  cases m with
  | call _ _ => exact frames.push (disposing _ _ _)
  | leave _ _ _ => exact frames.pop
  | wait _ _ hdue => exact frames.enter (due _ hdue)
  | note _ => exact frames
  | addPool _ => exact same (.of_threads rfl)
  | addTask _ => exact same (.of_threads rfl)
  | hire _ _ _ => exact same ((SameFrames.spawn rfl).trans (.of_threads rfl))
  | @accept q pool t task pick _ _ _ _ _ _ =>
    have told : SameFrames s ((s.setSlot t task.slot.claim).setPool q (pool.accept t)) :=
      .of_threads rfl
    exact same (told.trans (.wakeOne pick))
  | take _ _ _ _ _ _ => exact EachFrame.pop (s := s) frames
  | letGo _ _ _ _ _ => exact EachFrame.enter (s := s) frames (disposing _ _ _)
  | discard _ _ => exact frames.enter (disposing _ _ _)
  | destroy _ _ => exact (EachFrame.enter frames (disposing _ _ _)).push destructor
  | release _ _ _ => exact frames.enter (disposing _ _ _)
  | abandon _ _ _ _ => exact EachFrame.enter (s := s) frames (disposing _ _ _)
  | unref _ _ => exact frames.enter (disposing _ _ _)
  | clear _ _ _ => exact EachFrame.enter (s := s) frames (disposing _ _ _)
  | resume _ => exact frames.pop.enter (disposing _ _ _)
  | close _ _ => exact same (.of_threads rfl)
  | @stop q pool k _ _ =>
    have told : SameFrames s (s.setPool q (pool.requestExit k)) := .of_threads rfl
    exact same (told.trans (.wakeAll _))
  | dismiss _ _ _ => exact same (.of_threads rfl)
  | dropPool _ _ => exact same (.of_threads rfl)
  | register _ _ hg =>
    exact same (((SameFrames.onThread fun th => (hg th).2).trans (.wakeAll _)).trans (.settled _))
  | released _ _ => exact same (.settled _)
  | exit _ _ _ hg => exact same (.onThread fun th => (hg th).2)
  | claim _ _ _ _ => exact same (.after rfl fun _ => Thread.calls_setPhase)
  | park _ _ _ _ => exact same (.onThread fun _ => Thread.calls_setPhase)
  | begin _ _ _ hg => exact same (.after rfl fun th => (hg th).2)
  | beginEmpty _ _ _ hg => exact same (.after rfl fun th => (hg th).2)
  | endWork _ _ _ hg => exact same (.onThread fun th => (hg th).2)
  | stash _ _ => exact same (.after rfl fun _ => Thread.calls_setPhase)
  | count _ _ hg => exact same (.after rfl fun th => (hg th).2)
  | @retire q pool k t task _ _ _ =>
    have told : SameFrames s ((s.published i q pool t task).onThread i (·.setPhase .releasing)) :=
      (SameFrames.published pool).trans (.onThread fun _ => Thread.calls_setPhase)
    rw [retired_eq]
    exact (told.each P wake frames).push (disposing _ _ _)

/-! ### Tasks that finish -/

/-- The outcome of the task is visible. -/
def Concluded (s : System) (t : TaskId) : Prop := (s.task t).slot.state = .finished

theorem concluded_congr (h : s'.tasks = s.tasks) : s'.Concluded t ↔ s.Concluded t := by
  simp [Concluded, System.task, h]

/-- One task changes, and it does not finish if it is the one in question. -/
theorem Concluded.of_set {task new : Task} (hfin : s'.Concluded t) (hu : s.tasks[u]? = some task)
    (htasks : s'.tasks = s.tasks.set u new)
    (hnew : u = t → new.slot.state = .finished → task.slot.state = .finished) :
    s.Concluded t := by
  have hlt := (List.getElem?_eq_some_iff.mp hu).1
  by_cases ht : u = t
  · subst ht
    simp only [Concluded, System.task, htasks, List.getElem?_set_self hlt, Option.getD_some] at hfin
    simpa [Concluded, task_eq hu] using hnew rfl hfin
  · simpa [Concluded, System.task, htasks, ht] using hfin

theorem Concluded.of_setSlot {task : Task} {slot : Slot} (hfin : s'.Concluded t)
    (hu : s.tasks[u]? = some task) (htasks : s'.tasks = (s.setSlot u slot).tasks)
    (hnew : u = t → slot.state = .finished → task.slot.state = .finished) : s.Concluded t := by
  rw [setSlot_eq hu] at htasks
  exact hfin.of_set hu htasks hnew

theorem tasks_retired (s : System) (i : ThreadId) (p : PoolId) (pool : Pool) (u : TaskId)
    (task : Task) : (s.retired i p pool u task).tasks = (s.setSlot u task.slot.complete).tasks := by
  unfold retired published
  dsimp only
  split <;> rfl

/-- Only a worker that completes a task finishes it. -/
theorem Move.finishes (m : Move i s es s') (hfin : s'.Concluded t) : s.Concluded t ∨
    ∃ p pool k task, s.Working i p k (.counted t) ∧ s.tasks[t]? = some task ∧
      s' = s.retired i p pool t task := by
  have same (htasks : s'.tasks = s.tasks) : s.Concluded t := (concluded_congr htasks).mp hfin
  cases m with
  | call _ _ => exact .inl (same rfl)
  | leave _ _ _ => exact .inl (same rfl)
  | wait _ _ _ => exact .inl (same rfl)
  | note _ => exact .inl hfin
  | addPool _ => exact .inl (same rfl)
  | addTask captured =>
    refine .inl ?_
    by_cases ht : t = s.tasks.length
    · simp [Concluded, System.task, System.addTask, ht] at hfin
    · simpa [Concluded, System.task, System.addTask, getElem?_snoc, ht] using hfin
  | hire _ _ _ => exact .inl (same rfl)
  | accept _ hu _ _ _ _ =>
    exact .inl (hfin.of_setSlot hu (tasks_wakeOne _) fun _ h => by simp [Slot.claim] at h)
  | take _ _ hu _ _ _ => exact .inl (hfin.of_setSlot hu rfl fun _ => id)
  | letGo _ _ hu _ surrender =>
    refine .inl (hfin.of_set hu rfl fun _ => ?_)
    cases surrender <;> exact id
  | discard _ _ => exact .inl (same rfl)
  | destroy _ _ => exact .inl (same rfl)
  | release _ _ _ => exact .inl (same rfl)
  | abandon _ hu _ _ => exact .inl (hfin.of_setSlot hu rfl fun _ => id)
  | unref _ _ => exact .inl (same rfl)
  | clear _ hu _ => exact .inl (hfin.of_setSlot hu rfl fun _ => id)
  | resume _ => exact .inl (same rfl)
  | close _ _ => exact .inl (same rfl)
  | stop _ _ _ => exact .inl (same rfl)
  | dismiss _ _ _ => exact .inl (same rfl)
  | dropPool _ _ => exact .inl (same rfl)
  | register _ _ _ =>
    rw [Concluded, task_settled] at hfin
    exact .inl hfin
  | released _ _ =>
    rw [Concluded, task_settled] at hfin
    exact .inl hfin
  | exit _ _ _ _ => exact .inl (same rfl)
  | claim _ _ _ _ => exact .inl (same rfl)
  | park _ _ _ _ => exact .inl (same rfl)
  | begin _ hu _ _ => exact .inl (hfin.of_set hu rfl fun _ h => by simp [Slot.start] at h)
  | beginEmpty _ hu _ _ => exact .inl (hfin.of_set hu rfl fun _ h => by simp [Slot.start] at h)
  | endWork _ _ _ _ => exact .inl (same rfl)
  | stash _ hu => exact .inl (hfin.of_setSlot hu rfl fun _ => id)
  | count _ _ _ => exact .inl (same rfl)
  | @retire q pool k u task hw _ hu =>
    by_cases ht : u = t
    · subst ht
      exact .inr ⟨q, pool, k, task, hw, hu, rfl⟩
    · exact .inl (hfin.of_setSlot hu (tasks_retired ..) fun hut => absurd hut ht)

/-! ### Joins -/

/-- All joins of the task that wait have got a wake-up. -/
def Told (s : System) (t : TaskId) : Prop := s.EachFrame fun f => f.listens t = false

theorem Told.same (told : s.Told t) (frames : SameFrames s s') : s'.Told t :=
  frames.each _ (fun c _ hf => Frame.listens_wake c hf) told

/-- The wake-up of a completion reaches everybody. -/
theorem told_wakeAll (s : System) (t : TaskId) : (s.wakeAll (.finished t)).Told t := by
  intro th hth f hf
  obtain ⟨old, -, rfl⟩ := List.mem_map.mp hth
  obtain ⟨g, -, rfl⟩ := List.mem_map.mp hf
  cases g with
  | awaitingOutcome u bound woken =>
    cases woken with
    | true => rfl
    | false => by_cases hu : u = t <;> simp [Frame.wake, Frame.listens, Ne.symm, hu]
  | _ => rfl

/-- Nobody joins a task that is detached. -/
theorem Calls.told_detached {task : Task} (calls : s.Calls) (ht : s.tasks[t]? = some task)
    (ho : task.slot.ownership = .detached) : s.Told t := by
  refine calls.relies.mono fun f relies => ?_
  cases f with
  | awaitingOutcome u bound woken =>
    cases woken with
    | true => rfl
    | false =>
      by_contra hu
      obtain rfl : u = t := by simpa [Frame.listens] using hu
      have owned : s.standing u = some (true, .pool) := relies
      simp [standing_eq ht, ho] at owned
  | _ => rfl

/-- Who completes a task wakes all who wait for it. -/
theorem Calls.told_retired {pool : Pool} {task : Task} (calls : s.Calls)
    (ht : s.tasks[t]? = some task) : (s.retired i p pool t task).Told t := by
  have told : (s.published i p pool t task).Told t := by
    unfold published
    dsimp only
    split
    · next ho => exact calls.told_detached ht ho
    · exact told_wakeAll _ t
  rw [retired_eq]
  exact (told.same (.onThread fun _ => Thread.calls_setPhase)).push rfl

/-- A join waits only for a task that has not finished. -/
theorem Due.listens (due : s.Due i f) (hfin : s.Concluded t) : f.listens t = false := by
  cases f with
  | awaitingOutcome u bound woken =>
    by_contra hu
    cases woken with
    | true => simp [Frame.listens] at hu
    | false =>
      obtain rfl : u = t := by simpa [Frame.listens] using hu
      exact due.2.2.2 hfin
  | _ => rfl

theorem Told.move (told : s.Concluded t → s.Told t) (calls : s.Calls) (m : Move i s es s')
    (hfin : s'.Concluded t) : s'.Told t := by
  rcases m.finishes hfin with old | ⟨p, pool, k, task, -, ht, rfl⟩
  · exact m.eachFrame (told old) (fun c _ hf => Frame.listens_wake c hf)
      (fun _ due => due.listens old) (fun _ _ _ => rfl) rfl
  · exact calls.told_retired ht

/-- In every run, whoever waits for a task that has finished has got a wake-up. -/
theorem Run.told (run : Run callers h s) (t : TaskId) (hfin : s.Concluded t) : s.Told t :=
  run.keeps (P := fun _ s => s.Concluded t → s.Told t)
    (fun hfin => by simp [Concluded, System.task, System.start] at hfin)
    (fun calls told m => Told.move told calls m) hfin

/-- An open pool has the task in its queue, or one of its workers, which has not exited, has it in
hands. -/
def Entrusted (s : System) (t : TaskId) : Prop :=
  ∃ p pool, s.pools[p]? = some pool ∧ pool.closed = false ∧ s.InCustody p t

theorem task?_of_bearing {phase : Phase} (hb : s.bearing t i = some (p, phase)) :
    phase.task? = some t := by
  obtain ⟨th, -, hb⟩ := Option.bind_eq_some_iff.mp hb
  cases hr : th.role with
  | caller => simp [Thread.bears, hr] at hb
  | worker q k x =>
    simp only [Thread.bears, hr, Phase.bears, Option.ite_none_right_eq_some, Option.some.injEq,
      Prod.mk.injEq] at hb
    obtain ⟨htask, -, rfl⟩ := hb
    exact htask

/-- A task that its caller does not own, and that has not finished, is with an open pool. -/
theorem Run.entrusted (run : Run callers h s) (ho : (s.task t).slot.ownership ≠ .caller)
    (hfin : ¬ s.Concluded t) : s.Entrusted t := by
  obtain ⟨life, st, hat, -⟩ := run.kept t
  have agrees := hat.agrees
  cases life with
  | idle => exact absurd agrees.2.1 ho
  | queued p =>
    have hq : s.queued t p = 1 := (congrFun hat.queued p).trans (if_pos rfl)
    obtain ⟨pool, hp⟩ : ∃ pool, s.pools[p]? = some pool := by
      by_contra hnone
      simp [System.queued, Option.eq_none_iff_forall_ne_some.mpr (not_exists.mp hnone)] at hq
    have hcount : pool.queue.entries.count t = 1 := by simpa [System.queued, hp] using hq
    have hmem : t ∈ pool.queue.entries := List.count_pos_iff.mp (by omega)
    refine ⟨p, pool, hp, ?_, .inl ⟨pool, hp, hmem⟩⟩
    by_contra hc
    have hempty := ((run.books.pools p pool hp).calm (by simpa using hc)).2
    simp [hempty] at hmem
  | carried p j phase =>
    have hb : s.bearing t j = some (p, phase) := (congrFun hat.bearing j).trans (if_pos rfl)
    have has : s.Has j p phase := has_of_bearing hb
    have htask : phase.task? = some t := task?_of_bearing hb
    obtain ⟨pool, hp⟩ : ∃ pool, s.pools[p]? = some pool := by
      obtain ⟨th, k, hth, hr⟩ := id has
      have hpost : some ⟨p, k, phase.station⟩ ∈ s.posts :=
        List.mem_map.mpr ⟨th, List.mem_of_getElem? hth, by simp [Thread.post, hr]⟩
      exact ⟨_, List.getElem?_eq_getElem (run.books.known _ hpost)⟩
    refine ⟨p, pool, hp, ?_, .inr ⟨j, phase, has, htask⟩⟩
    by_contra hc
    have hrun := ((run.books.pools p pool hp).calm (by simpa using hc)).1
    simp [run.books.free hp hrun has] at htask
  | done o => exact absurd agrees.2.1 hfin

/-! ### Waits -/

/-- A worker that has not registered can do nothing else. -/
theorem Working.registers {e : Effect} (hw : s.Working j p k .starting)
    (hs : s.step j a = some e) : ∃ pick, a = .advance pick := by
  obtain ⟨th, hth, hr, hc⟩ := hw
  cases a with
  | advance pick => exact ⟨pick, rfl⟩
  | call op pick => simp [step, hth, Thread.inUserCode, hc, hr] at hs
  | finish ending => simp [step, hth, finish?, hc, hr] at hs
  | expire => simp [step, hth, expire?, hc] at hs

/-- What threads that wait for a task, or for a worker to register, can rely on. -/
structure WakesUp (s : System) : Prop where
  /-- Who has got no wake-up waits for a task that is with an open pool. -/
  awaits : ∀ {i t bound rest}, s.Inside i (.awaitingOutcome t bound false :: rest) →
    (s.task t).slot.state ≠ .finished ∧ (s.task t).slot.ownership = .pool ∧ s.Entrusted t
  /-- The step that finishes the task delivers the wake-up. -/
  told : ∀ {i j t bound rest a es s'}, s.Inside i (.awaitingOutcome t bound false :: rest) →
    j ≠ i → s.step j a = some (s', es) → (s'.task t).slot.state = .finished →
    ∃ rest, s'.Inside i (.awaitingOutcome t bound true :: rest)
  /-- Who waits for a worker to register is woken by the next step of one, whether or not the pool
  is closed. -/
  expects : ∀ {i p t rest}, s.Inside i (.awaitingWorker p t false :: rest) →
    ∃ j k, s.Working j p k .starting ∧
      (∀ a e, s.step j a = some e → ∃ pick, a = .advance pick) ∧
      ∀ pick, ∃ s' es rest, s.step j (.advance pick) = some (s', es) ∧
        s'.Inside i (.awaitingWorker p t true :: rest)

theorem Run.wakes_up (run : Run callers h s) : s.WakesUp where
  awaits {i t bound rest} hi := by
    have hfin : ¬ s.Concluded t := fun hfin => by
      simpa [Frame.listens] using (run.told t hfin).inside hi
    have owned : s.standing t = some (true, .pool) := run.calls.relies.inside hi
    obtain ⟨task, ht, hown⟩ := Option.map_eq_some_iff.mp owned
    have ho : (s.task t).slot.ownership = .pool := by
      rw [task_eq ht]
      exact (Prod.mk.inj hown).2
    exact ⟨hfin, ho, run.entrusted (by simp [ho]) hfin⟩
  told {i j t bound rest a es s'} hi hij hs hfin := by
    obtain ⟨f, rest', hi', hf⟩ := (moves_of_step run.calls hs).spares.inside hij.symm hi
    obtain ⟨woken, rfl⟩ : ∃ woken, f = .awaitingOutcome t bound woken := by
      cases f <;> simp_all [Frame.asleep]
    cases woken with
    | true => exact ⟨rest', hi'⟩
    | false => simpa [Frame.listens] using ((run.step hs).told t hfin).inside hi'
  expects hi := by
    obtain ⟨j, k, hw, wakes⟩ := run.woken_by hi
    exact ⟨j, k, hw, fun _ _ hs => hw.registers hs, wakes⟩

/-- One caller waits for a worker of a pool that another one has shut down meanwhile, and a third
one joins a task that a worker of another pool executes. -/
theorem wakes_up_allWaiting : ∃ h s, Run 3 h s ∧ s.isClosed 0 ∧
    s.Inside 0 [.awaitingWorker 0 0 false] ∧ s.Inside 2 [.awaitingOutcome 1 none false] ∧
    s.WakesUp := by
  have run : Run 3 _ _ := run_of_replay [(0, .call (.createPool (.new 1)) 0),
    (0, .call (.createPool (.new 1)) 0), (0, .call (.createTask none) 0),
    (0, .call (.createTask none) 0), (2, .call (.submit 1 1) 0), (3, .advance 0), (2, .advance 0),
    (3, .advance 0), (3, .advance 0), (2, .call (.join 1 none) 0), (0, .call (.submit 0 0) 0),
    (1, .call (.shutdown 0) 0)] rfl
  exact ⟨_, _, run, rfl, ⟨_, rfl, rfl⟩, ⟨_, rfl, rfl⟩, run.wakes_up⟩

end System

end WorkerPool
