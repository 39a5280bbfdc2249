import WorkerPool.Proofs.Books
import WorkerPool.Proofs.Changes

/-!
Destructors that wait for the pool of their own worker.

While a worker lets go of a task, the destructors that it runs may call its pool. One that waits for
the pool to become quiescent depends on a wake-up by another worker of the pool; `System.quietWait`
shows who waits so. A wake-up goes out when the pool is quiescent for the worker that sends it, and
that is never the case while the waiting one lets go of its task.
-/
namespace WorkerPool

/-- The frame waits for the pool to become quiescent, with a wake-up delivered or not. -/
def Frame.quietWait (p : PoolId) : Frame → Option Bool
  | awaitingIdle q _ woken | awaitingReleases q _ woken => if q = p then some woken else none
  | _ => none

theorem Frame.quietWait_idle {p : PoolId} {dropping woken : Bool} :
    (awaitingIdle p dropping woken).quietWait p = some woken := by
  simp [quietWait]

theorem Frame.quietWait_releases {p : PoolId} {dropping woken : Bool} :
    (awaitingReleases p dropping woken).quietWait p = some woken := by
  simp [quietWait]

/-- The innermost call of a worker of the pool that lets go of a task waits for the pool. -/
def Thread.quietWait (p : PoolId) (th : Thread) : Option Bool :=
  match th.role, th.calls with
  | .worker q _ .releasing, f :: _ => if q = p then f.quietWait p else none
  | _, _ => none

/-- Frames that may stand below others: code of the user, and what it was called for. -/
def Frame.isOuter : Frame → Bool
  | disposing .. | destructor => true
  | _ => false

namespace Thread

variable {th : Thread} {p q : PoolId} {k : Nat} {f : Frame} {rest : List Frame} {woken : Bool}

theorem quietWait_eq (hr : th.role = .worker p k .releasing) (hc : th.calls = f :: rest) :
    th.quietWait p = f.quietWait p := by
  simp [quietWait, hr, hc]

theorem quietWait_of_calls (hc : th.calls = []) : th.quietWait p = none := by
  unfold quietWait
  rw [hc]
  split <;> simp_all

theorem quietWait_of_frame (hc : th.calls = f :: rest) (hf : f.quietWait p = none) :
    th.quietWait p = none := by
  unfold quietWait
  rw [hc]
  split <;> simp_all

/-- Who waits for its pool is one of its workers. -/
theorem quietWait_inv (h : th.quietWait p = some woken) : ∃ k f rest,
    th.role = .worker p k .releasing ∧ th.calls = f :: rest ∧ f.quietWait p = some woken := by
  unfold quietWait at h
  split at h
  · next q k f rest hr hc =>
    split at h
    · next hq => exact ⟨k, f, rest, hq ▸ hr, hc, h⟩
    · cases h
  · cases h

theorem quietWait_wake (c : Condition) (th : Thread) (p : PoolId) :
    (th.wake c).quietWait p = (th.quietWait p).map (· || c = .quiescent p) := by
  have frame (f : Frame) :
      (f.wake c).quietWait p = (f.quietWait p).map (· || c = .quiescent p) := by
    cases f with
    | awaitingIdle q dropping woken | awaitingReleases q dropping woken =>
      by_cases hq : q = p <;> simp [Frame.wake, Frame.quietWait, hq]
    | _ => rfl
  cases hc : th.calls with
  | nil =>
    rw [quietWait_of_calls hc, quietWait_of_calls (by simp [hc])]
    rfl
  | cons f rest =>
    cases hr : th.role with
    | caller => simp [quietWait, hr, Role.wake]
    | worker q k phase =>
      cases phase with
      | releasing =>
        by_cases hq : q = p <;> simp [quietWait, hr, hc, hq, Role.wake, Phase.wake, frame]
      | _ => simp [quietWait, hr, Role.wake, Phase.wake]

/-- A thread that waits without a wake-up takes no step. -/
theorem quietWait_stuck (h : th.quietWait p = some false) :
    th.inUserCode = false ∧ (∀ s : System, ∀ i pick, s.advance? i th pick = none) ∧
      (∀ s : System, ∀ i ending, s.finish? i th ending = none) ∧
      ∀ s : System, ∀ i, s.expire? i th = none := by
  obtain ⟨k, f, rest, hr, hc, hf⟩ := quietWait_inv h
  cases f with
  | awaitingIdle q dropping woken | awaitingReleases q dropping woken =>
    obtain ⟨rfl, rfl⟩ : q = p ∧ woken = false := by
      simpa [Frame.quietWait] using hf
    simp [inUserCode, System.advance?, System.finish?, System.expire?, hc]
  | _ => simp [Frame.quietWait] at hf

end Thread

/-- A pool with something queued is not quiescent. -/
theorem Pool.accept_unquiet (pool : Pool) (t : TaskId) (i : ThreadId) :
    (pool.accept t).isQuiescentFor i = false := by
  have h : (pool.accept t).queue.isEmpty = false := by
    simp only [accept, PendingQueue.push, PendingQueue.isEmpty]
    split <;> simp
  simp [isQuiescentFor, isSettled, h]

namespace System

variable {s s' : System} {i j : ThreadId} {p q : PoolId} {k : Nat} {t : TaskId} {th : Thread}
  {pool new : Pool} {f : Frame} {rest : List Frame} {es : List Event} {phase : Phase}
  {g : Thread → Thread} {woken : Bool}

/-- How the thread waits for the pool of its worker, if it does. -/
def quietWait (s : System) (p : PoolId) (i : ThreadId) : Option Bool :=
  s.threads[i]?.bind (Thread.quietWait p)

/-- A destructor on the worker waits for the pool, and no wake-up has been delivered. -/
def Waits (s : System) (i : ThreadId) (p : PoolId) : Prop := s.quietWait p i = some false

theorem quietWait_of_thread (hth : s.threads[i]? = some th) :
    s.quietWait p i = th.quietWait p := by
  simp [quietWait, hth]

theorem quietWait_onThread_ne (h : j ≠ i) :
    (s.onThread j g).quietWait p i = s.quietWait p i := by
  simp [quietWait, getElem?_onThread, h]

theorem quietWait_inside (hi : s.Inside i (f :: rest)) (hf : f.quietWait p = none) :
    s.quietWait p i = none := by
  obtain ⟨th, hth, hc⟩ := hi
  rw [quietWait_of_thread hth, Thread.quietWait_of_frame hc hf]

theorem Working.quietWait (hw : s.Working i q k phase) : s.quietWait p i = none := by
  obtain ⟨th, hth, -, hc⟩ := hw
  rw [quietWait_of_thread hth, Thread.quietWait_of_calls hc]

theorem quietWait_wakeAll (c : Condition) :
    (s.wakeAll c).quietWait p i = (s.quietWait p i).map (· || c = .quiescent p) := by
  unfold quietWait
  rw [getElem?_wakeAll]
  cases s.threads[i]? with
  | none => rfl
  | some th => exact Thread.quietWait_wake c th p

theorem quietWait_wakeAll_of_ne (c : Condition) (hc : c ≠ .quiescent p) :
    (s.wakeAll c).quietWait p i = s.quietWait p i := by
  rw [quietWait_wakeAll]
  cases s.quietWait p i <;> simp [hc]

theorem quietWait_wakeOne (pick : Pick) :
    (s.wakeOne q pick).quietWait p i = s.quietWait p i := by
  obtain ⟨j, hj⟩ := wakeOne_eq s q pick
  rw [hj]
  by_cases h : j = i
  · subst h
    unfold quietWait
    rw [getElem?_onThread, if_pos rfl]
    cases s.threads[j]? with
    | none => rfl
    | some th =>
      have := Thread.quietWait_wake (.workAvailable q) th p
      cases hw : th.quietWait p <;> simp_all
  · exact quietWait_onThread_ne h

theorem quietWait_spawn (h : th.calls = []) : (s.spawn th).quietWait p i = s.quietWait p i := by
  unfold quietWait spawn
  rw [getElem?_snoc]
  split
  · next hi => simp [hi, Thread.quietWait_of_calls h]
  · rfl

/-- A worker that waits for its pool lets go of a task. -/
theorem Books.releasing (books : s.Books) (hp : s.pools[p]? = some pool)
    (hw : s.quietWait p i = some woken) : i ∈ pool.releasing := by
  obtain ⟨th, hth, hq⟩ := Option.bind_eq_some_iff.mp hw
  obtain ⟨k, f, rest, hr, -⟩ := Thread.quietWait_inv hq
  refine ((books.pools p pool hp).releasing i).mpr ⟨k, ?_⟩
  simp [posts, hth, Thread.post, hr, Phase.station]

/-- Another worker that is without a task again wakes nobody who lets go of one. -/
theorem quietWait_settled (hij : j ≠ i)
    (hrel : ∀ woken, q = p → s.quietWait p i = some woken → i ∈ new.releasing) :
    (s.settled j q new).quietWait p i = s.quietWait p i := by
  have hsame : ((s.setPool q new).onThread j (·.setPhase (.parked true))).quietWait p i =
      s.quietWait p i := quietWait_onThread_ne hij
  unfold System.settled
  split
  · next hquiet =>
    rw [quietWait_wakeAll, hsame]
    cases hw : s.quietWait p i with
    | none => rfl
    | some woken =>
      have hq : q ≠ p := by
        intro hq
        simp only [Pool.isQuiescentFor, Bool.and_eq_true, List.all_eq_true, beq_iff_eq] at hquiet
        exact hij (hquiet.2 i (hrel woken hq hw)).symm
      simp [hq]
  · exact hsame

/-! ### Moves of other threads -/

/-- No move of another thread ends a wait or delivers a wake-up. -/
theorem Move.quietWait_other (books : s.Books) (m : Move j s es s') (hij : j ≠ i) :
    s'.quietWait p i = s.quietWait p i := by
  cases m with
  | call _ _ => exact quietWait_onThread_ne hij
  | leave _ _ _ => exact quietWait_onThread_ne hij
  | wait _ _ _ => exact quietWait_onThread_ne hij
  | note _ => rfl
  | addPool _ => rfl
  | addTask _ => rfl
  | hire _ _ _ => exact quietWait_spawn rfl
  | accept _ _ _ _ _ _ => exact quietWait_wakeOne _
  | take _ _ _ _ _ _ => exact quietWait_onThread_ne hij
  | letGo _ _ _ _ _ => exact quietWait_onThread_ne hij
  | discard _ _ => exact quietWait_onThread_ne hij
  | destroy _ _ => exact (quietWait_onThread_ne hij).trans (quietWait_onThread_ne hij)
  | release _ _ _ => exact quietWait_onThread_ne hij
  | abandon _ _ _ _ => exact quietWait_onThread_ne hij
  | unref _ _ => exact quietWait_onThread_ne hij
  | clear _ _ _ => exact quietWait_onThread_ne hij
  | resume _ => exact (quietWait_onThread_ne hij).trans (quietWait_onThread_ne hij)
  | close _ _ => rfl
  | stop _ _ _ => exact quietWait_wakeAll_of_ne _ (by simp)
  | dismiss _ _ _ => rfl
  | dropPool _ _ => rfl
  | @register q pool k g _ hp _ =>
    have hsame : ((s.onThread j g).wakeAll (.workerRegistered q)).quietWait p i =
        s.quietWait p i :=
      (quietWait_wakeAll_of_ne _ (by simp)).trans (quietWait_onThread_ne hij)
    refine (quietWait_settled hij fun woken hq hw => ?_).trans hsame
    have hrel : i ∈ pool.releasing := books.releasing (hq ▸ hp) (hsame ▸ hw)
    exact hrel
  | @released q pool k _ hp =>
    apply quietWait_settled hij
    intro woken hq hw
    have hrel := books.releasing (hq ▸ hp) hw
    simpa [Pool.released, hrel] using hij.symm
  | exit _ _ _ _ => exact quietWait_onThread_ne hij
  | claim _ _ _ _ => exact quietWait_onThread_ne hij
  | park _ _ _ _ => exact quietWait_onThread_ne hij
  | begin _ _ _ _ => exact quietWait_onThread_ne hij
  | beginEmpty _ _ _ _ => exact quietWait_onThread_ne hij
  | endWork _ _ _ _ => exact quietWait_onThread_ne hij
  | stash _ _ => exact quietWait_onThread_ne hij
  | count _ _ _ => exact quietWait_onThread_ne hij
  | retire _ _ _ =>
    refine (quietWait_onThread_ne hij).trans ?_
    unfold published
    split
    · rfl
    · exact quietWait_wakeAll_of_ne _ (by simp)

/-! ### Nested calls -/

/-- Below every frame is code of the user, or what it was called for. -/
def Nested (s : System) : Prop := ∀ th ∈ s.threads, ∀ f ∈ th.calls.tail, f.isOuter

namespace Nested

theorem onThread (nested : s.Nested) (hg : ∀ th, s.threads[i]? = some th →
      (∀ f ∈ th.calls.tail, f.isOuter) → ∀ f ∈ (g th).calls.tail, f.isOuter) :
    (s.onThread i g).Nested := by
  intro th hth
  obtain ⟨j, hj⟩ := List.getElem?_of_mem hth
  rw [getElem?_onThread] at hj
  split at hj
  · next hij =>
    subst hij
    obtain ⟨old, hold, rfl⟩ := Option.map_eq_some_iff.mp hj
    exact hg old hold (nested old (List.mem_of_getElem? hold))
  · exact nested th (List.mem_of_getElem? hj)

theorem same (nested : s.Nested) (hg : ∀ th, (g th).calls = th.calls) :
    (s.onThread i g).Nested :=
  nested.onThread fun th _ h => by rwa [hg]

theorem push (nested : s.Nested) (hf : ∀ th, s.threads[i]? = some th →
      ∀ f ∈ th.calls.head?, f.isOuter) : (s.onThread i (·.push f)).Nested := by
  apply nested.onThread
  intro th hth h
  cases hc : th.calls with
  | nil => simp [hc]
  | cons f' rest =>
    have hhead := hf th hth f' (by simp [hc])
    rw [hc, List.tail_cons] at h
    simpa [hc, hhead] using h

theorem pop (nested : s.Nested) : (s.onThread i Thread.pop).Nested :=
  nested.onThread fun _ _ h f hf => h f (List.mem_of_mem_tail hf)

theorem enter (nested : s.Nested) : (s.enter i f).Nested :=
  nested.onThread fun _ _ h => h

theorem wakeAll (nested : s.Nested) (c : Condition) : (s.wakeAll c).Nested := by
  intro th hth f hf
  obtain ⟨old, hold, rfl⟩ := List.mem_map.mp hth
  rw [Thread.calls_wake, ← List.map_tail] at hf
  obtain ⟨f', hf', rfl⟩ := List.mem_map.mp hf
  have := nested old hold f' hf'
  cases f' <;> simp_all [Frame.isOuter, Frame.wake]

theorem wakeOne (nested : s.Nested) (pick : Pick) : (s.wakeOne p pick).Nested := by
  obtain ⟨j, hj⟩ := wakeOne_eq s p pick
  rw [hj]
  apply nested.onThread
  intro th _ h f hf
  rw [Thread.calls_wake, ← List.map_tail] at hf
  obtain ⟨f', hf', rfl⟩ := List.mem_map.mp hf
  have := h f' hf'
  cases f' <;> simp_all [Frame.isOuter, Frame.wake]

theorem spawn (nested : s.Nested) (h : th.calls = []) : (s.spawn th).Nested := by
  intro new hnew
  rcases List.mem_append.mp hnew with hnew | hnew
  · exact nested new hnew
  · simp [List.mem_singleton.mp hnew, h]

theorem settled (nested : s.Nested) : (s.settled i p pool).Nested := by
  have h : ((s.setPool p pool).onThread i (·.setPhase (.parked true))).Nested :=
    same (s := s.setPool p pool) nested fun _ => Thread.calls_setPhase
  unfold System.settled
  split
  · exact h.wakeAll _
  · exact h

/-- A call that ends goes back to code of the user. -/
theorem quietWait_pop (nested : s.Nested) (hi : s.Inside i (f :: rest)) :
    (s.onThread i Thread.pop).quietWait p i = none := by
  obtain ⟨th, hth, hc⟩ := hi
  have hpop : (s.onThread i Thread.pop).threads[i]? = some th.pop := by
    simp [getElem?_onThread, hth]
  rw [quietWait_of_thread hpop]
  have hrest : th.pop.calls = rest := by simp [hc]
  cases rest with
  | nil => exact Thread.quietWait_of_calls hrest
  | cons f' rest =>
    refine Thread.quietWait_of_frame hrest ?_
    have := nested th (List.mem_of_getElem? hth) f' (by simp [hc])
    cases f' <;> simp_all [Frame.isOuter, Frame.quietWait]

theorem move (nested : s.Nested) (m : Move i s es s') : s'.Nested := by
  cases m with
  | @call th hth hu =>
    apply nested.push
    intro th' hth' f hf
    obtain rfl : th = th' := Option.some.inj (hth.symm.trans hth')
    cases hc : th.calls with
    | nil => simp [hc] at hf
    | cons f' rest =>
      obtain rfl : f' = f := by simpa [hc] using hf
      cases f' <;> simp_all [Thread.inUserCode, Frame.isOuter]
  | leave _ _ _ => exact nested.pop
  | wait _ _ _ => exact nested.enter
  | note _ => exact nested
  | addPool _ => exact nested
  | addTask _ => exact nested
  | hire _ _ _ => exact nested.spawn rfl
  | @accept p pool t task pick _ _ _ _ _ _ =>
    exact wakeOne (s := (s.setSlot t task.slot.claim).setPool p (pool.accept t)) nested pick
  | take _ _ _ _ _ _ => exact nested.pop
  | letGo _ _ _ _ _ => exact nested.enter
  | discard _ _ => exact nested.enter
  | @destroy d r todo failure releasing rest hi _ =>
    apply nested.enter.push
    intro th hth f hf
    obtain ⟨th', hth', hc⟩ : (s.enter i (.disposing todo failure releasing)).Inside i
        (.disposing todo failure releasing :: rest) := hi.enter
    obtain rfl : th' = th := Option.some.inj (hth'.symm.trans hth)
    rw [hc] at hf
    cases hf
    rfl
  | release _ _ _ => exact nested.enter
  | abandon _ _ _ _ => exact nested.enter
  | unref _ _ => exact nested.enter
  | clear _ _ _ => exact nested.enter
  | resume _ => exact nested.pop.enter
  | close _ _ => exact nested
  | @stop p pool k _ _ => exact wakeAll (s := s.setPool p (pool.requestExit k)) nested _
  | dismiss _ _ _ => exact nested
  | dropPool _ _ => exact nested
  | register _ _ hg => exact ((nested.same fun th => (hg th).2).wakeAll _).settled
  | released _ _ => exact nested.settled
  | exit _ _ _ hg => exact nested.same fun th => (hg th).2
  | @claim p pool pool' k t _ _ _ _ =>
    exact same (s := s.setPool p pool') nested fun _ => Thread.calls_setPhase
  | park _ _ _ _ => exact nested.same fun _ => Thread.calls_setPhase
  | begin _ _ _ hg => exact onThread (s := s) nested fun th _ h => by rwa [(hg th).2]
  | beginEmpty _ _ _ hg => exact onThread (s := s) nested fun th _ h => by rwa [(hg th).2]
  | endWork _ _ _ hg => exact nested.same fun th => (hg th).2
  | stash _ _ => exact onThread (s := s) nested fun th _ h => by rwa [Thread.calls_setPhase]
  | count _ _ hg => exact onThread (s := s) nested fun th _ h => by rwa [(hg th).2]
  | @retire p pool k t task hw hp ht =>
    have told : (s.published i p pool t task).Nested := by
      unfold published
      split
      · exact nested
      · exact wakeAll (s := (s.setPool p (pool.retire i)).setSlot t task.slot.complete) nested _
    obtain ⟨th, hth, hc⟩ : (s.published i p pool t task).Inside i [] := (hw.published rfl).inside
    apply told.onThread
    intro th' hth' _
    obtain rfl : th = th' := Option.some.inj (hth.symm.trans hth')
    simp [hc]

end Nested

/-! ### Moves of the waiting thread -/

/-- The pool is not quiescent for the thread. -/
def Unquiet (s : System) (p : PoolId) (i : ThreadId) : Prop :=
  ∃ pool, s.pools[p]? = some pool ∧ pool.isQuiescentFor i = false

theorem Unquiet.setPool (h : s.Unquiet p i) (hq : s.pools[q]? = some pool)
    (hnew : pool.isQuiescentFor i = false → new.isQuiescentFor i = false) :
    (s.setPool q new).Unquiet p i := by
  obtain ⟨old, hold, hun⟩ := h
  by_cases hp : q = p
  · subst hp
    obtain rfl : pool = old := Option.some.inj (hq.symm.trans hold)
    exact ⟨new, getElem?_setPool hq new, hnew hun⟩
  · exact ⟨old, by simpa [System.setPool, List.getElem?_set, hp] using hold, hun⟩

theorem Unquiet.addPool (h : s.Unquiet p i) : (s.addPool new).Unquiet p i := by
  obtain ⟨pool, hp, hun⟩ := h
  have hlt : p < s.pools.length := (List.getElem?_eq_some_iff.mp hp).1
  exact ⟨pool, (List.getElem?_append_left hlt).trans hp, hun⟩

theorem dismiss_unquiet (h : pool.Balanced s.posts p) (hc : pool.closed)
    (hun : pool.isQuiescentFor i = false) : pool.dismiss.isQuiescentFor i = false := by
  obtain ⟨hr, hq⟩ := h.calm hc
  have hall : pool.releasing.all (· == i) = false := by
    have ht := h.total
    have hi : pool.idleCount = pool.threadCount := by omega
    simpa [Pool.isQuiescentFor, Pool.isSettled, PendingQueue.isEmpty, hr, hq, hi] using hun
  simp [Pool.isQuiescentFor, Pool.dismiss, hall]

/-- A thread gets into a wait only if the pool is not quiescent for it. -/
theorem Move.quietWait_own (books : s.Books) (nested : s.Nested) (m : Move i s es s')
    (hw : s'.quietWait p i = some woken) :
    (s.quietWait p i = some woken ∧ (s.Unquiet p i → s'.Unquiet p i)) ∨
      (woken = false ∧ s'.Unquiet p i) := by
  have calm (h : s'.quietWait p i = none) : (s.quietWait p i = some woken ∧
      (s.Unquiet p i → s'.Unquiet p i)) ∨ (woken = false ∧ s'.Unquiet p i) := by
    simp [h] at hw
  have worked {q k phase} (h : s'.Working i q k phase) := calm h.quietWait
  cases m with
  | call hth _ =>
    exact calm (quietWait_inside (Inside.push ⟨_, hth, rfl⟩) rfl)
  | leave hi _ _ => exact calm (nested.quietWait_pop hi)
  | @wait f f' rest hi hf due =>
    obtain ⟨th, hth, hc⟩ : (s.enter i f').Inside i (f' :: rest) := hi.enter
    rw [quietWait_of_thread hth] at hw
    obtain ⟨k, f₁, rest₁, hr, hc₁, hf₁⟩ := Thread.quietWait_inv hw
    obtain ⟨rfl, rfl⟩ : f' = f₁ ∧ rest = rest₁ := by simpa [hc] using hc₁
    cases f' with
    | awaitingIdle q dropping w =>
      obtain ⟨rfl, rfl⟩ : q = p ∧ w = woken := by simpa [Frame.quietWait] using hf₁
      exact .inr due
    | awaitingReleases q dropping w =>
      obtain ⟨rfl, rfl⟩ : q = p ∧ w = woken := by simpa [Frame.quietWait] using hf₁
      obtain ⟨hwoken, pool, hp, -, hun⟩ := due
      exact .inr ⟨hwoken, pool, hp, hun⟩
    | _ => simp [Frame.quietWait] at hf₁
  | note _ => exact .inl ⟨hw, id⟩
  | addPool _ => exact .inl ⟨hw, Unquiet.addPool⟩
  | addTask _ => exact .inl ⟨hw, id⟩
  | hire hp _ _ =>
    exact .inl ⟨(quietWait_spawn rfl).symm.trans hw,
      fun h => Unquiet.setPool (s := s.spawn _) h hp id⟩
  | @accept q pool t task pick hp _ _ _ _ _ =>
    have hsame := quietWait_wakeOne (s := (s.setSlot t task.slot.claim).setPool q (pool.accept t))
      (p := p) (q := q) (i := i) pick
    refine .inl ⟨hsame.symm.trans hw, fun h => ?_⟩
    have hun : ((s.setSlot t task.slot.claim).setPool q (pool.accept t)).Unquiet p i :=
      Unquiet.setPool (s := s.setSlot t task.slot.claim) h hp fun _ => pool.accept_unquiet t i
    simpa [Unquiet] using hun
  | take hi _ _ _ _ _ => exact calm (nested.quietWait_pop hi)
  | letGo hi _ _ _ _ => exact calm (quietWait_inside hi.enter rfl)
  | discard hi _ => exact calm (quietWait_inside hi.enter rfl)
  | destroy hi _ => exact calm (quietWait_inside hi.enter.push rfl)
  | release hi _ _ => exact calm (quietWait_inside hi.enter rfl)
  | abandon hi _ _ _ => exact calm (quietWait_inside hi.enter rfl)
  | unref hi _ => exact calm (quietWait_inside hi.enter rfl)
  | clear hi _ _ => exact calm (quietWait_inside hi.enter rfl)
  | resume hi => exact calm (quietWait_inside hi.pop.enter rfl)
  | close hp _ => exact .inl ⟨hw, fun h => h.setPool hp id⟩
  | @stop q pool k hp _ =>
    refine .inl ⟨(quietWait_wakeAll_of_ne _ (by simp)).symm.trans hw, fun h => ?_⟩
    have told : (s.setPool q (pool.requestExit k)).Unquiet p i := h.setPool hp id
    exact told
  | dismiss total hp hc =>
    exact .inl ⟨hw, fun h => h.setPool hp (dismiss_unquiet (books.pools _ _ hp) hc)⟩
  | dropPool hp _ => exact .inl ⟨hw, fun h => h.setPool hp id⟩
  | @register q pool k g hwork _ hg =>
    exact worked (((hwork.stay hg).wakeAll (.workerRegistered q)).settled _)
  | released hwork _ => exact worked (hwork.settled _)
  | exit hwork _ _ hg => exact worked (hwork.onThread hg)
  | @claim q pool pool' k t hwork _ _ _ =>
    have hwork : (s.setPool q pool').Working i q k (.parked true) := hwork
    exact worked (hwork.onThread Thread.rephases_setPhase)
  | park hwork _ _ _ => exact worked (hwork.onThread Thread.rephases_setPhase)
  | begin hwork _ _ hg => exact worked (Working.onThread (s := _) hwork hg)
  | beginEmpty hwork _ _ hg => exact worked (Working.onThread (s := _) hwork hg)
  | endWork hwork _ _ hg => exact worked (hwork.onThread hg)
  | stash hwork _ => exact worked (Working.onThread (s := _) hwork Thread.rephases_setPhase)
  | count hwork _ hg => exact worked (Working.onThread (s := _) hwork hg)
  | @retire q pool k t task hwork _ _ =>
    have told : (s.published i q pool t task).Inside i [] := (hwork.published rfl).inside
    have inside : (s.retired i q pool t task).Inside i
        [.disposing (.reference t :: task.slot.leftovers t) none true] :=
      told.onThread fun th hth => by simp [hth]
    exact calm (quietWait_inside inside rfl)

end System

end WorkerPool
