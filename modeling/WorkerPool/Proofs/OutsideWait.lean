import WorkerPool.Proofs.DestructorWait
import WorkerPool.Proofs.Others

/-!
Threads that wait for a pool from outside.

Whoever waits for a pool to become quiescent, and has got no wake-up, finds the pool with work left
or with a worker that lets go of its last task: every change that makes the pool quiescent, with no
worker in destructors, wakes all who wait. Only a destructor on a worker of the pool itself can miss
its wake-up, since that worker counts as one in destructors.
-/
namespace WorkerPool

/-- Settled, and no worker is letting go of a task. -/
def Pool.isCalm (pool : Pool) : Bool := pool.isSettled && pool.releasing.isEmpty

namespace Pool

variable {pool : Pool} {i : ThreadId} {t : TaskId}

theorem isQuiescentFor_of_isCalm (h : pool.isCalm) : pool.isQuiescentFor i := by
  simp only [isCalm, Bool.and_eq_true, List.isEmpty_iff] at h
  simp [isQuiescentFor, h.1, h.2]

theorem isCalm_of_isQuiescentFor (h : pool.isQuiescentFor i) (hi : i ∉ pool.releasing) :
    pool.isCalm := by
  simp only [isQuiescentFor, Bool.and_eq_true, List.all_eq_true, beq_iff_eq] at h
  simp only [isCalm, Bool.and_eq_true, List.isEmpty_iff, h.1, true_and]
  exact List.eq_nil_iff_forall_not_mem.mpr fun j hj => hi (h.2 j hj ▸ hj)

theorem not_calm_accept : (pool.accept t).isCalm = false := by
  by_contra h
  have := isQuiescentFor_of_isCalm (i := 0) (by simpa using h)
  simp [accept_unquiet] at this

theorem not_calm_claim {pool' : Pool} (h : pool.claim? = some (t, pool')) :
    pool'.isCalm = false := by
  obtain ⟨queue, -, rfl⟩ := claim?_eq h
  simp [isCalm, isSettled]

theorem not_calm_retire : (pool.retire i).isCalm = false := by
  simp [isCalm, retire]

theorem not_calm_dismiss {posts : List (Option Post)} {p : PoolId} (h : pool.Balanced posts p)
    (hc : pool.closed) (busy : pool.isCalm = false) : pool.dismiss.isCalm = false := by
  obtain ⟨hr, hq⟩ := h.calm hc
  have ht := h.total
  have hi : pool.idleCount = pool.threadCount := by omega
  have hrel : pool.releasing.isEmpty = false := by
    simpa [isCalm, isSettled, PendingQueue.isEmpty, hr, hq, hi] using busy
  simp [isCalm, dismiss, hrel]

end Pool

namespace System

variable {s s' : System} {i j : ThreadId} {p q : PoolId} {pool new : Pool} {f : Frame}
  {rest : List Frame} {es : List Event} {h : Trace} {callers : Nat} {dropping woken : Bool}
  {a : Action}

/-- Nobody waits for the pool to become quiescent without a wake-up. -/
def Unawaited (s : System) (p : PoolId) : Prop := s.EachFrame fun f => f.quietWait p ≠ some false

/-- The pool has work left, or a worker that lets go of a task. -/
def Busy (s : System) (p : PoolId) : Prop := ∃ pool, s.pools[p]? = some pool ∧ pool.isCalm = false

theorem quietWait_wake_ne (c : Condition) (hf : f.quietWait p ≠ some false) :
    (f.wake c).quietWait p ≠ some false := by
  cases f with
  | awaitingIdle q dropping woken | awaitingReleases q dropping woken =>
    by_cases hq : q = p <;> simp_all [Frame.wake, Frame.quietWait]
  | _ => exact hf

theorem Unawaited.same (idle : s.Unawaited p) (frames : SameFrames s s') : s'.Unawaited p :=
  frames.each _ (fun c _ hf => quietWait_wake_ne c hf) idle

/-- A wake-up for the pool reaches everybody. -/
theorem unawaited_wakeAll (s : System) (p : PoolId) : (s.wakeAll (.quiescent p)).Unawaited p := by
  intro th hth f hf
  obtain ⟨old, -, rfl⟩ := List.mem_map.mp hth
  obtain ⟨g, -, rfl⟩ := List.mem_map.mp hf
  cases g with
  | awaitingIdle q dropping woken | awaitingReleases q dropping woken =>
    by_cases hq : q = p <;> simp [Frame.wake, Frame.quietWait, hq]
  | _ => simp [Frame.wake, Frame.quietWait]

theorem Busy.setPool (busy : s.Busy p) (hq : s.pools[q]? = some pool)
    (hnew : pool.isCalm = false → new.isCalm = false) : (s.setPool q new).Busy p := by
  obtain ⟨old, hold, hb⟩ := busy
  by_cases hp : q = p
  · subst hp
    obtain rfl : pool = old := Option.some.inj (hq.symm.trans hold)
    exact ⟨new, getElem?_setPool hq new, hnew hb⟩
  · exact ⟨old, by simpa [System.setPool, List.getElem?_set, hp] using hold, hb⟩

theorem Busy.addPool (busy : s.Busy p) : (s.addPool new).Busy p := by
  obtain ⟨pool, hp, hb⟩ := busy
  have hlt : p < s.pools.length := (List.getElem?_eq_some_iff.mp hp).1
  exact ⟨pool, (List.getElem?_append_left hlt).trans hp, hb⟩

/-- A wait begins only if the pool is busy. -/
theorem Due.busy (due : s.Due i f) (hf : f.quietWait p = some woken) : s.Busy p := by
  obtain ⟨pool, hp, hun⟩ : s.Unquiet p i := by
    cases f with
    | awaitingIdle q dropping w =>
      obtain ⟨rfl, -⟩ : q = p ∧ w = woken := by simpa [Frame.quietWait] using hf
      exact due.2
    | awaitingReleases q dropping w =>
      obtain ⟨rfl, -⟩ : q = p ∧ w = woken := by simpa [Frame.quietWait] using hf
      obtain ⟨-, pool, hp, -, hun⟩ := due
      exact ⟨pool, hp, hun⟩
    | _ => simp [Frame.quietWait] at hf
  refine ⟨pool, hp, ?_⟩
  by_contra hcalm
  simp [Pool.isQuiescentFor_of_isCalm (by simpa using hcalm)] at hun

/-- Whoever waits for a pool waits for a busy one. -/
def Attended (s : System) (p : PoolId) : Prop := s.Unawaited p ∨ s.Busy p

/-- A worker that is without a task again wakes those who wait if the pool has become calm. -/
theorem Attended.settled (att : s.Attended p) (hq : s.pools[q]? = some pool) :
    (s.settled i q new).Attended p := by
  by_cases hp : q = p
  · subst hp
    cases hquiet : new.isQuiescentFor i with
    | true =>
      unfold System.settled
      rw [if_pos hquiet]
      exact .inl (unawaited_wakeAll _ q)
    | false =>
      refine .inr ⟨new, getElem?_settled hq new, ?_⟩
      by_contra hcalm
      simp [Pool.isQuiescentFor_of_isCalm (by simpa using hcalm)] at hquiet
  · refine att.imp (fun idle => idle.same (.settled new)) ?_
    rintro ⟨old, hold, hb⟩
    exact ⟨old, by simpa [pools_settled, List.getElem?_set, hp] using hold, hb⟩

theorem Attended.move (att : s.Attended p) (books : s.Books) (m : Move i s es s') :
    s'.Attended p := by
  have same (hp : s'.pools = s.pools) (frames : SameFrames s s') : s'.Attended p :=
    att.imp (·.same frames) fun ⟨pool, hpool, hb⟩ => ⟨pool, hp ▸ hpool, hb⟩
  have inner (hp : s'.pools = s.pools) (frames : s.Unawaited p → s'.Unawaited p) :
      s'.Attended p :=
    att.imp frames fun ⟨pool, hpool, hb⟩ => ⟨pool, hp ▸ hpool, hb⟩
  have pools {q : PoolId} {pool new : Pool} (hq : s.pools[q]? = some pool)
      (hp : s'.pools = (s.setPool q new).pools) (frames : SameFrames s s')
      (hnew : pool.isCalm = false → new.isCalm = false) : s'.Attended p :=
    att.imp (·.same frames) fun busy => by
      obtain ⟨old, hold, hb⟩ := busy.setPool hq hnew
      exact ⟨old, hp ▸ hold, hb⟩
  cases m with
  | call _ _ => exact inner rfl fun idle => idle.push (by simp [Frame.quietWait])
  | leave _ _ _ => exact inner rfl fun idle => idle.pop
  | @wait f f' rest _ _ due =>
    cases hf : f'.quietWait p with
    | none => exact inner rfl fun idle => idle.enter (by simp [hf])
    | some woken => exact .inr (due.busy hf)
  | note _ => exact att
  | addPool _ => exact att.imp (·.same (.of_threads rfl)) Busy.addPool
  | addTask captured => exact same rfl (.of_threads rfl)
  | hire hp _ _ => exact pools hp rfl ((SameFrames.spawn rfl).trans (.of_threads rfl)) id
  | @accept q pool t task pick hp _ _ _ _ _ =>
    have told : SameFrames s ((s.setSlot t task.slot.claim).setPool q (pool.accept t)) :=
      .of_threads rfl
    exact pools hp (pools_wakeOne pick) (told.trans (.wakeOne pick)) fun _ => Pool.not_calm_accept
  | take _ _ _ _ _ _ =>
    exact inner rfl fun idle => EachFrame.pop (s := s) idle
  | letGo _ _ _ _ _ =>
    exact inner rfl fun idle => EachFrame.enter (s := s) idle (by simp [Frame.quietWait])
  | discard _ _ => exact inner rfl fun idle => idle.enter (by simp [Frame.quietWait])
  | destroy _ _ =>
    exact inner rfl fun idle =>
      (EachFrame.enter idle (by simp [Frame.quietWait])).push (by simp [Frame.quietWait])
  | release _ _ _ => exact inner rfl fun idle => idle.enter (by simp [Frame.quietWait])
  | abandon _ _ _ _ =>
    exact inner rfl fun idle => EachFrame.enter (s := s) idle (by simp [Frame.quietWait])
  | unref _ _ => exact inner rfl fun idle => idle.enter (by simp [Frame.quietWait])
  | clear _ _ _ =>
    exact inner rfl fun idle => EachFrame.enter (s := s) idle (by simp [Frame.quietWait])
  | resume _ => exact inner rfl fun idle => idle.pop.enter (by simp [Frame.quietWait])
  | close hp _ => exact pools hp rfl (.of_threads rfl) id
  | @stop q pool k hp _ =>
    have told : SameFrames s (s.setPool q (pool.requestExit k)) := .of_threads rfl
    exact pools hp rfl (told.trans (.wakeAll _)) id
  | dismiss total hp hc =>
    exact pools hp rfl (.of_threads rfl) (Pool.not_calm_dismiss (books.pools _ _ hp) hc)
  | dropPool hp _ => exact pools hp rfl (.of_threads rfl) id
  | @register q pool k g _ hp hg =>
    have told : ((s.onThread i g).wakeAll (.workerRegistered q)).Attended p :=
      att.imp (·.same ((SameFrames.onThread fun th => (hg th).2).trans (.wakeAll _))) id
    exact told.settled hp
  | released _ hp => exact att.settled hp
  | exit _ _ _ hg => exact same rfl (.onThread fun th => (hg th).2)
  | claim _ hp _ hc =>
    exact pools hp rfl (.after rfl fun _ => Thread.calls_setPhase) fun _ => Pool.not_calm_claim hc
  | park _ _ _ _ => exact same rfl (.onThread fun _ => Thread.calls_setPhase)
  | begin _ _ _ hg => exact same rfl (.after rfl fun th => (hg th).2)
  | beginEmpty _ _ _ hg => exact same rfl (.after rfl fun th => (hg th).2)
  | endWork _ _ _ hg => exact same rfl (.onThread fun th => (hg th).2)
  | stash _ _ => exact same rfl (.after rfl fun _ => Thread.calls_setPhase)
  | count _ hp hg => exact pools hp rfl (.after rfl fun th => (hg th).2) id
  | @retire q pool k t task hw hp ht =>
    have frames : SameFrames s ((s.published i q pool t task).onThread i (·.setPhase .releasing)) :=
      (SameFrames.published pool).trans (.onThread fun _ => Thread.calls_setPhase)
    refine att.imp (fun idle => ?_) fun busy => ?_
    · rw [retired_eq]
      exact (idle.same frames).push (by simp [Frame.quietWait])
    · obtain ⟨old, hold, hb⟩ := busy.setPool hp fun _ => Pool.not_calm_retire (i := i)
      exact ⟨old, Books.pools_retired ▸ hold, hb⟩

/-- In every run, whoever waits for a pool without a wake-up waits for a busy one. -/
theorem Run.attended (run : Run callers h s) (p : PoolId) : s.Attended p := by
  have both : s.Books ∧ s.Attended p :=
    run.keeps (P := fun _ s => s.Books ∧ s.Attended p)
      ⟨.start callers, .inl fun th hth f hf => by
        rw [List.eq_of_mem_replicate hth] at hf
        cases hf⟩
      fun _ ⟨books, att⟩ m => ⟨books.move m, att.move books m⟩
  exact both.2

/-! ### Waiting from outside -/

/-- A pool is not quiescent for those who wait for it without a wake-up, unless they are destructors
on its own workers. -/
theorem Run.unquiet_outside (run : Run callers h s) (hi : s.Inside i (f :: rest))
    (hf : f.quietWait p = some false) (outside : ¬ s.Has i p .releasing) : s.Unquiet p i := by
  obtain ⟨pool, hp, hb⟩ := (run.attended p).resolve_left fun idle => idle.inside hi hf
  refine ⟨pool, hp, ?_⟩
  have hrel : i ∉ pool.releasing := fun hmem => outside ((run.books.mem_releasing hp).mp hmem)
  by_contra hquiet
  simp [Pool.isCalm_of_isQuiescentFor (by simpa using hquiet) hrel] at hb

/-- A thread that waits for a pool without a wake-up takes no step. -/
theorem Inside.no_step (hi : s.Inside i (f :: rest)) (hf : f.quietWait p = some false)
    (a : Action) : s.step i a = none := by
  obtain ⟨th, hth, hc⟩ := hi
  have stuck : th.inUserCode = false ∧ (∀ pick, s.advance? i th pick = none) ∧
      (∀ ending, s.finish? i th ending = none) ∧ s.expire? i th = none := by
    cases f with
    | awaitingIdle q dropping woken | awaitingReleases q dropping woken =>
      obtain ⟨-, rfl⟩ : q = p ∧ woken = false := by simpa [Frame.quietWait] using hf
      simp [Thread.inUserCode, advance?, finish?, expire?, hc]
    | _ => simp [Frame.quietWait] at hf
  obtain ⟨huser, hadvance, hfinish, hexpire⟩ := stuck
  cases a <;> simp [step, hth, huser, hadvance, hfinish, hexpire]

/-- What a thread that waits until a pool is quiescent can rely on. -/
structure OutsideWaits (s : System) (p : PoolId) : Prop where
  blocked : ∀ {i dropping rest a}, s.Inside i (.awaitingIdle p dropping false :: rest) →
    s.step i a = none
  /-- Who has got no wake-up has a reason to wait. -/
  reason : ∀ {i dropping rest}, s.Inside i (.awaitingIdle p dropping false :: rest) →
    ¬ s.Has i p .releasing → ∃ pool, s.pools[p]? = some pool ∧ pool.isQuiescentFor i = false ∧
      (pool.queue.isEmpty = false ∨ pool.runningCount ≠ 0 ∨ ∃ j, j ≠ i ∧ s.Has j p .releasing)
  /-- The step that makes the pool quiescent delivers the wake-up. -/
  woken : ∀ {i j dropping rest a es s' pool},
    s.Inside i (.awaitingIdle p dropping false :: rest) → s.step j a = some (s', es) →
    ¬ s'.Has i p .releasing → s'.pools[p]? = some pool → pool.isQuiescentFor i →
    ∃ rest, s'.Inside i (.awaitingIdle p dropping true :: rest)

theorem Run.outside_waits (run : Run callers h s) (p : PoolId) : s.OutsideWaits p where
  blocked hi := hi.no_step Frame.quietWait_idle _
  reason hi outside := by
    obtain ⟨pool, hp, hun⟩ :=
      run.unquiet_outside hi Frame.quietWait_idle outside
    exact ⟨pool, hp, hun, (run.books.unquiet hp).mp hun⟩
  woken {i j dropping rest a es s' pool} hi hs outside hp hquiet := by
    have hij : i ≠ j := by
      rintro rfl
      simp [hi.no_step Frame.quietWait_idle a] at hs
    obtain ⟨f, rest', hi', hf⟩ := (moves_of_step run.calls hs).spares.inside hij hi
    obtain ⟨woken, rfl⟩ : ∃ woken, f = .awaitingIdle p dropping woken := by
      cases f <;> simp_all [Frame.asleep]
    cases woken with
    | true => exact ⟨rest', hi'⟩
    | false =>
      obtain ⟨pool', hp', hun⟩ :=
        (run.step hs).unquiet_outside hi' Frame.quietWait_idle outside
      obtain rfl : pool = pool' := Option.some.inj (hp.symm.trans hp')
      simp [hquiet] at hun

/-- A caller waits for a pool that runs a task, and its worker is about to count the execution. -/
theorem outside_waits_running : ∃ h s, Run 1 h s ∧ s.Inside 0 [.awaitingIdle 0 false false] ∧
    ¬ s.Has 0 0 .releasing ∧ s.OutsideWaits 0 := by
  have run : Run 1 _ _ := run_of_replay [(0, .call (.createPool (.new 1)) 0),
    (0, .call (.createTask none) 0), (0, .call (.submit 0 0) 0), (1, .advance 0), (0, .advance 0),
    (1, .advance 0), (1, .advance 0), (0, .call (.waitIdle 0) 0), (1, .finish (.ok .null)),
    (1, .advance 0)] rfl
  refine ⟨_, _, run, ⟨_, rfl, rfl⟩, ?_, run.outside_waits 0⟩
  rintro ⟨th, k, hth, hr⟩
  cases hth
  cases hr

end System

end WorkerPool
