import WorkerPool.Proofs.DestructorWait

/-!
What a step does to shutdowns.

Most steps leave every pool as open or closed as it is, and leave their thread outside the parts of
a shutdown that wait. The others are steps of a shutdown: it waits for workers that let go of their
tasks, takes the workers of an open pool, or has seen one more of them terminate; or it has waited
while another one closed the pool, and comes to its end once more. The lemmas follow the functions
that `System.step` is put together from.
-/
namespace WorkerPool

/-- A shutdown waits for workers that let go of their tasks, or terminate. -/
def Frame.isTeardown : Frame → Bool
  | awaitingReleases .. | joiningCrew .. => true
  | _ => false

/-- A shutdown has come to the worker that it runs on, or to its end. -/
def Event.isTeardown : Event → Bool
  | .log (.stopsItself _ _) | .log (.closed _ _ _) => true
  | _ => false

/-- What the end of a shutdown tells that has taken so many workers. -/
def Pool.farewell (p : PoolId) (pool : Pool) (total : Nat) : List Event :=
  [.log (.closed p pool.config.threadName total),
    .metric p (.shutdown pool.totalCompleted.toNat pool.totalPanicked.toNat), .replied .done]

namespace Pool

theorem exitRequested_hire (pool : Pool) (i : ThreadId) :
    (pool.hire i).exitRequested = pool.exitRequested := by
  funext k
  simp only [exitRequested, hire]
  rw [getElem?_snoc]
  split
  · next hk => simp [hk]
  · rfl

theorem exitRequested_count (pool : Pool) (k : Nat) (returned : Bool) :
    (pool.count k returned).exitRequested = pool.exitRequested := by
  funext l
  simp only [exitRequested, count, List.getElem?_modify]
  split <;> cases pool.crew[l]? <;> rfl

end Pool

theorem Pool.close_of_closed {pool : Pool} (h : pool.closed) : pool.close = pool := by
  obtain ⟨_, _, _, _, _, _, _, _, closed, _⟩ := pool
  obtain rfl : closed = true := h
  rfl

theorem Frame.isTeardown_of_isOuter {f : Frame} (h : f.isOuter) : f.isTeardown = false := by
  cases f <;> simp_all [isOuter, isTeardown]

namespace System

variable {s s' : System} {i j : ThreadId} {p q : PoolId} {pool new : Pool} {f : Frame}
  {rest : List Frame} {es : List Event} {e : Effect} {t : TaskId} {task : Task} {th : Thread}
  {k next total : Nat} {dropping woken : Bool} {a : Action}

/-- The thread is in no part of a shutdown that waits. -/
def Free (s : System) (i : ThreadId) : Prop :=
  ∀ th, s.threads[i]? = some th → ∀ f ∈ th.calls, f.isTeardown = false

/-- The worker `k` of the pool is told to exit. -/
def orders (s : System) (p : PoolId) (k : Nat) : Bool := s.pools[p]?.any (·.exitRequested k)

/-- The pools are open or closed as before, and the same workers are told to exit. -/
structure SameOrders (s s' : System) : Prop where
  closed : ∀ p, s'.isClosed p = s.isClosed p
  orders : ∀ p k, s'.orders p k = s.orders p k

/-- A step of the thread has nothing to do with shutdowns that wait. -/
structure Aloof (s : System) (i : ThreadId) (e : Effect) : Prop where
  same : SameOrders s e.1
  free : e.1.Free i
  quiet : e.2.all (!·.isTeardown)

theorem isClosed_set (hp : s.pools[p]? = some pool) (hpools : s'.pools = s.pools.set p new)
    (hc : new.closed = pool.closed) (q : PoolId) : s'.isClosed q = s.isClosed q := by
  obtain ⟨hlt, hpool⟩ := List.getElem?_eq_some_iff.mp hp
  by_cases hq : p = q
  · subst hq
    simp [isClosed, hpools, hlt, hpool, hc]
  · simp [isClosed, hpools, hq]

theorem sameOrders_of_pools (hpools : s'.pools = s.pools) : SameOrders s s' :=
  ⟨fun p => by simp [isClosed, hpools], fun p k => by simp [orders, hpools]⟩

theorem SameOrders.trans {s'' : System} (h : SameOrders s s') (h' : SameOrders s' s'') :
    SameOrders s s'' :=
  ⟨fun p => (h'.closed p).trans (h.closed p), fun p k => (h'.orders p k).trans (h.orders p k)⟩

theorem sameOrders_set (hp : s.pools[p]? = some pool) (hpools : s'.pools = s.pools.set p new)
    (hc : new.closed = pool.closed) (hk : new.exitRequested = pool.exitRequested) :
    SameOrders s s' := by
  refine ⟨isClosed_set hp hpools hc, fun q k => ?_⟩
  obtain ⟨hlt, hpool⟩ := List.getElem?_eq_some_iff.mp hp
  by_cases hq : p = q
  · subst hq
    simp [orders, hpools, hlt, hpool, hk]
  · simp [orders, hpools, hq]

/-- A new pool is open and has no workers. -/
theorem sameOrders_addPool {c : Config} (hc : Pool.create c = .ok pool) :
    SameOrders s (s.addPool pool) := by
  obtain ⟨hopen, hcrew⟩ : pool.closed = false ∧ pool.crew = [] := by
    rw [(Pool.create_eq hc).2]
    exact ⟨rfl, rfl⟩
  refine ⟨fun p => ?_, fun p k => ?_⟩
  · simp only [isClosed, System.addPool]
    rw [getElem?_snoc]
    split
    · next hp => simp [hp, hopen]
    · rfl
  · simp only [orders, System.addPool]
    rw [getElem?_snoc]
    split
    · next hp => simp [hp, Pool.exitRequested, hcrew]
    · rfl

/-! ### Frames -/

theorem Free.onThread {g : Thread → Thread} (nested : s.Nested)
    (hg : ∀ th, (∀ f ∈ th.calls.tail, f.isTeardown = false) →
      ∀ f ∈ (g th).calls, f.isTeardown = false) : (s.onThread i g).Free i := by
  intro th hth
  rw [getElem?_onThread, if_pos rfl] at hth
  obtain ⟨old, hold, rfl⟩ := Option.map_eq_some_iff.mp hth
  exact hg old fun f hf =>
    Frame.isTeardown_of_isOuter (nested old (List.mem_of_getElem? hold) f hf)

theorem free_pop (nested : s.Nested) : (s.onThread i Thread.pop).Free i :=
  .onThread nested fun _ h => h

theorem free_enter (nested : s.Nested) (hf : f.isTeardown = false) : (s.enter i f).Free i :=
  .onThread nested fun _ h => List.forall_mem_cons.mpr ⟨hf, h⟩

theorem Working.free {phase : Phase} (hw : s.Working i p k phase) : s.Free i := by
  obtain ⟨old, hold, -, hc⟩ := hw
  intro th hth
  obtain rfl : old = th := Option.some.inj (hold.symm.trans hth)
  simp [hc]

theorem Free.not_inside (free : s.Free i) (hf : f.isTeardown) : ¬ s.Inside i (f :: rest) := by
  rintro ⟨th, hth, hc⟩
  have := free th hth f (by simp [hc])
  simp [hf] at this

/-- The thread is inside a shutdown that joins the workers of the pool. -/
def Joins (s : System) (i : ThreadId) (p : PoolId) : Prop :=
  ∃ next total dropping rest, s.Inside i (.joiningCrew p next total dropping :: rest)

theorem Inside.joins (hi : s.Inside i (.joiningCrew q next total dropping :: rest)) :
    s.Joins i p ↔ p = q := by
  constructor
  · rintro ⟨next', total', dropping', rest', hi'⟩
    cases hi'.unique hi
    rfl
  · rintro rfl
    exact ⟨next, total, dropping, rest, hi⟩

theorem Inside.not_joins (hi : s.Inside i (.awaitingReleases q dropping false :: rest)) :
    ¬ s.Joins i p := by
  rintro ⟨next', total', dropping', rest', hi'⟩
  simpa using hi'.unique hi

theorem Free.not_joins (free : s.Free i) : ¬ s.Joins i p := by
  rintro ⟨next, total, dropping, rest, hi⟩
  exact free.not_inside rfl hi

namespace Aloof

theorem closed (h : s.Aloof i e) (p : PoolId) : e.1.isClosed p = s.isClosed p := h.same.closed p

theorem reply (nested : s.Nested) (r : Reply) : s.Aloof i (s.reply i r) :=
  ⟨sameOrders_of_pools rfl, free_pop nested, rfl⟩

theorem enter (nested : s.Nested) (hf : f.isTeardown = false) : s.Aloof i (s.enter i f, []) :=
  ⟨sameOrders_of_pools rfl, free_enter nested hf, rfl⟩

theorem emit (h : s.Aloof i e) (he : es.all (!·.isTeardown)) : s.Aloof i (emit es e) := by
  refine ⟨h.same, h.free, ?_⟩
  rw [System.emit, List.all_append, he, h.quiet]
  rfl

theorem tell (h : s.Aloof i (s', [])) (he : es.all (!·.isTeardown)) : s.Aloof i (s', es) :=
  ⟨h.same, h.free, he⟩

theorem after (h : s'.Aloof i e) (same : SameOrders s s') : s.Aloof i e :=
  ⟨same.trans h.same, h.free, h.quiet⟩

/-- A worker is inside no call. -/
theorem working {phase : Phase} (hw : e.1.Working i p k phase) (same : SameOrders s e.1)
    (he : e.2.all (!·.isTeardown)) : s.Aloof i e :=
  ⟨same, hw.free, he⟩

/-! ### Submissions and joins -/

theorem accept (pick : Pick) (nested : s.Nested) (hp : s.pools[p]? = some pool) :
    s.Aloof i (s.accept i p pool t task pick) := by
  unfold System.accept
  split
  · exact .reply nested _
  · have told : ((s.setSlot t task.slot.claim).setPool p (pool.accept t)).Nested := nested
    exact ((Aloof.reply (told.wakeOne pick) .done).emit rfl).after
      (sameOrders_set hp (pools_wakeOne pick) rfl rfl)

theorem submit (pick : Pick) (nested : s.Nested) (hp : s.pools[p]? = some pool) :
    s.Aloof i (s.submit i p pool t task pick) := by
  unfold System.submit
  split
  · exact .reply nested _
  · split
    · exact .reply nested _
    · split
      · split
        · have hired : (s.hired p pool).Nested := nested.spawn rfl
          exact ((Aloof.enter hired rfl).tell rfl).after
            (sameOrders_set hp rfl rfl (pool.exitRequested_hire _))
        · exact .reply nested _
      · split
        · exact .enter nested rfl
        · exact .accept pick nested hp

theorem resumeSubmit (pick : Pick) (nested : s.Nested) (hp : s.pools[p]? = some pool) :
    s.Aloof i (s.resumeSubmit i p pool t task pick) := by
  unfold System.resumeSubmit
  split
  · exact .enter nested rfl
  · split
    · exact .reply nested _
    · exact .accept pick nested hp

theorem takeOutcome (nested : s.Nested) : s.Aloof i (s.takeOutcome i t task) := by
  have nested' : (s.setSlot t task.slot.release).Nested := nested
  exact ((Aloof.reply nested' (joinReply t task.slot.outcome)).emit rfl).after
    (sameOrders_of_pools rfl)

theorem join {bound : Bound} (nested : s.Nested) : s.Aloof i (s.join i t task bound) := by
  unfold System.join
  split
  · exact .reply nested _
  · split
    · exact .takeOutcome nested
    · split
      · exact .reply nested _
      · exact .enter nested rfl

theorem resumeJoin {bound : Bound} (nested : s.Nested) :
    s.Aloof i (s.resumeJoin i t task bound) := by
  unfold System.resumeJoin
  split
  · exact .takeOutcome nested
  · exact .enter nested rfl

theorem expireJoin {nanos : Nat} (nested : s.Nested) :
    s.Aloof i (s.expireJoin i t task nanos) := by
  unfold System.expireJoin
  split
  · exact .takeOutcome nested
  · exact .reply nested _

/-! ### Letting go -/

theorem letGo {todo : List Disposal} (nested : s.Nested) : s.Aloof i (s.letGo i t task todo) := by
  have nested' : (s.setTask t { task with handle := false }).Nested := nested
  exact (Aloof.enter (f := .disposing todo none false) nested' rfl).after (sameOrders_of_pools rfl)

theorem detach (nested : s.Nested) : s.Aloof i (s.detach i t task) := by
  unfold System.detach
  split
  · split
    · exact .letGo nested
    · exact .letGo nested
  · exact .reply nested _
  · exact .reply nested _

theorem destroy (nested : s.Nested) : s.Aloof i (s.destroy i t task) := by
  unfold System.destroy
  split
  · exact .reply nested _
  · exact .letGo nested

theorem runDestructor (nested : s.Nested) (r : Remains) (todo : List Disposal)
    (failure : Option Payload) (releasing : Bool) :
    s.Aloof i ((s.enter i (.disposing todo failure releasing)).runDestructor i r) := by
  refine ⟨sameOrders_of_pools rfl, ?_, rfl⟩
  rw [System.runDestructor, System.enter, onThread_onThread]
  exact .onThread nested fun _ h => List.forall_mem_cons.mpr
    ⟨rfl, List.forall_mem_cons.mpr ⟨rfl, h⟩⟩

theorem dispose {todo : List Disposal} {failure : Option Payload} {releasing : Bool}
    (calls : s.Calls) (nested : s.Nested)
    (hi : s.Inside i (.disposing todo failure releasing :: rest)) :
    s.Aloof i (s.dispose i th todo failure releasing) := by
  have go (todo : List Disposal) : s.Aloof i (s.enter i (.disposing todo failure releasing), []) :=
    .enter nested rfl
  cases todo with
  | nil =>
    have leave : s.Aloof i (s.onThread i Thread.pop, []) :=
      ⟨sameOrders_of_pools rfl, free_pop nested, rfl⟩
    simp only [System.dispose]
    split
    · split
      · exact leave.tell rfl
      · exact leave
    · split
      · exact .reply nested _
      · exact .reply nested _
  | cons d todo =>
    cases d with
    | outcome t o =>
      simp only [System.dispose]
      split
      · exact .runDestructor nested _ _ _ _
      · exact go todo
    | work t => exact .runDestructor nested _ _ _ _
    | record r =>
      obtain ⟨u, rfl⟩ := (calls.given hi).1
      simp only [System.dispose]
      split
      · exact (go todo).tell rfl
      · exact go todo
    | handle t =>
      simp only [System.dispose]
      split
      · exact go todo
      · split
        · exact ⟨sameOrders_of_pools rfl, (go (.reference t :: todo)).free, rfl⟩
        · exact go (.reference t :: todo)
    | reference t =>
      simp only [System.dispose]
      split
      · exact go todo
      · split
        · exact ⟨sameOrders_of_pools rfl, (go _).free, rfl⟩
        · exact go todo

/-! ### Waiting and refusing -/

theorem endShutdown (failure : Option PoolError) (nested : s.Nested) :
    s.Aloof i (s.endShutdown i p pool failure dropping) := by
  unfold System.endShutdown
  split
  · exact .reply nested _
  · exact .reply nested _
  · exact (Aloof.reply nested .done).emit rfl

theorem waitIdle (nested : s.Nested) : s.Aloof i (s.waitIdle i p pool dropping) := by
  unfold System.waitIdle
  split
  · split
    · exact .enter nested rfl
    · exact .reply nested _
  · exact .enter nested rfl

theorem dropPool (nested : s.Nested) (hp : s.pools[p]? = some pool) :
    s.Aloof i (s.dropPool i p pool) := by
  have nested' : (s.setPool p { pool with handle := false }).Nested := nested
  have same : SameOrders s (s.setPool p { pool with handle := false }) :=
    sameOrders_set hp rfl rfl rfl
  simp only [System.dropPool]
  split
  · exact (Aloof.reply nested' .done).after same
  · exact (Aloof.waitIdle nested').after same

/-! ### Workers -/

theorem proceed (hw : s.Working i p k (.parked true)) (hp : s.pools[p]? = some pool) :
    s.Aloof i (s.proceed i p pool k) := by
  unfold System.proceed
  split
  · exact .working (hw.onThread (Thread.rephases_leave _)) (sameOrders_of_pools rfl) rfl
  · split
    · exact .working (hw.onThread Thread.rephases_setPhase) (sameOrders_of_pools rfl) rfl
    · next t pool' hc =>
      obtain ⟨queue, -, rfl⟩ := Pool.claim?_eq hc
      have hw' : (s.setPool p { pool with
          queue, idleCount := pool.idleCount - 1
          runningCount := pool.runningCount + 1 }).Working i p k (.parked true) := hw
      exact .working (hw'.onThread Thread.rephases_setPhase) (sameOrders_set hp rfl rfl rfl) rfl

theorem settle {phase : Phase} (hw : s.Working i p k phase) (hp : s.pools[p]? = some pool)
    (hc : new.closed = pool.closed) (hk : new.exitRequested = pool.exitRequested) :
    s.Aloof i (s.settle i p new k) :=
  (Aloof.proceed (hw.settled new) (getElem?_settled hp new)).after
    (sameOrders_set hp (pools_settled new) hc hk)

theorem register (hw : s.Working i p k .starting) (hp : s.pools[p]? = some pool) :
    s.Aloof i (s.register i p pool k) := by
  let g (th : Thread) : Thread := { th with spans := th.spans.enter (some .worker) }
  have hw' : (s.onThread i g).Working i p k .starting := hw.stay fun _ => ⟨rfl, rfl⟩
  let told := (s.onThread i g).wakeAll (.workerRegistered p)
  have settle : told.Aloof i (told.settle i p pool.register k) := .settle (hw'.wakeAll _) hp rfl rfl
  exact (settle.emit rfl).after (sameOrders_of_pools rfl)

theorem begin (hw : s.Working i p k (.holding t)) : s.Aloof i (s.begin i t task) := by
  have g : Thread.Rephases (.running t) fun th =>
      { ({ th with spans := th.spans.enter (some .execution) } : Thread).setPhase (.running t) with
        spans := (th.spans.enter (some .execution)).enter task.captured } :=
    fun th => Thread.rephases_enter (fun th => th.spans.enter (some .execution)) th
  unfold System.begin
  split
  · have hw' : (s.setTask t { task with slot := task.slot.start, runs := task.runs + 1 }).Working
      i p k (.holding t) := hw
    exact .working (hw'.onThread g) (sameOrders_of_pools rfl) rfl
  · have hw' : (s.setTask t { task with slot := task.slot.start }).Working i p k (.holding t) := hw
    exact .working (hw'.onThread (Thread.rephases_enter _)) (sameOrders_of_pools rfl) rfl

theorem retire (hw : s.Working i p k (.counted t)) (hp : s.pools[p]? = some pool) :
    s.Aloof i (s.retire i p pool k t task) := by
  have hw' : (s.published i p pool t task).Working i p k (.counted t) := hw.published rfl
  have quiet : (s.retire i p pool k t task).2.all (!·.isTeardown) := by
    by_cases hd : task.slot.ownership = .detached <;> simp [System.retire, hd, Event.isTeardown]
  refine ⟨sameOrders_set hp Books.pools_retired rfl rfl, ?_, quiet⟩
  have inside : (s.retired i p pool t task).Inside i
      [.disposing (.reference t :: task.slot.leftovers t) none true] :=
    hw'.inside.onThread fun th hth => by simp [hth]
  intro th hth
  obtain ⟨old, hold, hc⟩ := inside
  obtain rfl : old = th := Option.some.inj (hold.symm.trans hth)
  simp [hc, Frame.isTeardown]

theorem work {phase : Phase} (hw : s.Working i p k phase)
    (h : s.work? i p k phase = some e) : s.Aloof i e := by
  unfold System.work? at h
  cases hp : s.pools[p]? with
  | none => simp [hp] at h
  | some pool =>
    simp only [hp, Option.bind_eq_bind, Option.bind_some] at h
    cases phase with
    | starting =>
      cases h
      exact .register hw hp
    | parked woken =>
      cases woken with
      | false => cases h
      | true =>
        cases h
        exact .proceed hw hp
    | holding t =>
      obtain ⟨task, ht, h⟩ := Option.bind_eq_some_iff.mp h
      cases h
      exact .begin hw
    | running t => cases h
    | stashing t work o =>
      obtain ⟨task, ht, h⟩ := Option.bind_eq_some_iff.mp h
      cases h
      have hw' : (s.setSlot t (task.slot.stash work o)).Working i p k (.stashing t work o) := hw
      exact .working (hw'.onThread Thread.rephases_setPhase) (sameOrders_of_pools rfl) rfl
    | stashed t returned =>
      cases h
      have hw' : (s.setPool p (pool.count k returned)).Working i p k (.stashed t returned) := hw
      have quiet : (s.count i p pool k t returned).2.all (!·.isTeardown) := by
        cases returned <;> rfl
      have same : SameOrders s (s.setPool p (pool.count k returned)) :=
        sameOrders_set hp rfl rfl (pool.exitRequested_count k returned)
      exact .working (hw'.onThread (Thread.rephases_leave _)) (same.trans (sameOrders_of_pools rfl))
        quiet
    | counted t =>
      obtain ⟨task, ht, h⟩ := Option.bind_eq_some_iff.mp h
      cases h
      exact .retire hw hp
    | releasing =>
      cases h
      exact .settle hw hp rfl rfl
    | exited => cases h

end Aloof

/-! ### Shutdowns -/

/-- A shutdown that has closed the pool comes to the worker `next`: it tells the worker to exit and
waits, or it ends since there is no such worker. -/
inductive Stops (pools : List Pool) (i : ThreadId) (p : PoolId) (pool : Pool) (next total : Nat) :
    Effect → Prop
  | waits {s : System} {dropping : Bool} {rest : List Frame} : next < total →
      s.pools = pools.set p (pool.requestExit next) →
      s.Inside i (.joiningCrew p next total dropping :: rest) →
      Stops pools i p pool next total (s, [])
  | ends {s : System} : total ≤ next → s.pools = pools.set p pool.dismiss → s.Free i →
      Stops pools i p pool next total (s, pool.farewell p total)

theorem stops_stopNext (next total : Nat) (nested : s.Nested) (hi : s.Inside i (f :: rest))
    (hf : f.isBare) :
    Stops s.pools i p pool next total (s.stopNext i p pool next total dropping) := by
  unfold stopNext
  split
  · next hlt =>
    have hi' : (s.setPool p (pool.requestExit next)).Inside i (f :: rest) := hi
    obtain ⟨f', rest', hi', -⟩ := hi'.wakeAll hf (.workAvailable p)
    exact .waits hlt rfl hi'.enter
  · next hle =>
    have nested' : (s.setPool p pool.dismiss).Nested := nested
    exact .ends (by omega) rfl (free_pop nested')

/-- The thread is inside a shutdown that waits for workers to let go of their tasks. -/
def Awaits (s : System) (i : ThreadId) (p : PoolId) : Prop :=
  ∃ dropping woken rest, s.Inside i (.awaitingReleases p dropping woken :: rest)

/-- On a pool that is settled, a shutdown waits for destructors or begins to stop the workers. -/
theorem resumeShutdown_settled (h : pool.isSettled) :
    s.resumeShutdown i p pool dropping =
      if pool.isQuiescentFor i then s.stopNext i p pool.close 0 pool.rosterSize dropping
      else (s.enter i (.awaitingReleases p dropping false), []) := by
  unfold System.resumeShutdown System.decideShutdown
  cases hq : pool.isQuiescentFor i <;> simp [h]

theorem Inside.resumes (hi : s.Inside i (.awaitingReleases p dropping woken :: rest))
    (hs : s.step i a = some e) :
    ∃ pool, s.pools[p]? = some pool ∧ s.resumeShutdown i p pool dropping = e := by
  obtain ⟨th, hth, hc⟩ := hi
  obtain ⟨th', hth', hs⟩ := Option.bind_eq_some_iff.mp hs
  obtain rfl : th = th' := Option.some.inj (hth.symm.trans hth')
  cases a with
  | call op pick => simp [Thread.inUserCode, hc] at hs
  | finish ending => simp [finish?, hc] at hs
  | advance pick =>
    cases woken with
    | false => simp [advance?, hc] at hs
    | true => simpa [advance?, hc, Option.bind_eq_some_iff] using hs
  | expire => simp [expire?, hc] at hs

/-- What a step of a thread that joins no worker does to shutdowns. -/
inductive ShutdownStep (s : System) (i : ThreadId) : Effect → Prop
  | aloof {e : Effect} : s.Aloof i e → ShutdownStep s i e
  | waits {s' : System} {p : PoolId} {pool : Pool} {dropping : Bool} {rest : List Frame} :
      s.pools[p]? = some pool → pool.isSettled → pool.isQuiescentFor i = false →
      (pool.closed → s.Awaits i p) → s'.pools = s.pools →
      s'.Inside i (.awaitingReleases p dropping false :: rest) → ShutdownStep s i (s', [])
  | begins {p : PoolId} {pool : Pool} {e : Effect} : s.pools[p]? = some pool →
      pool.closed = false → pool.isQuiescentFor i →
      Stops s.pools i p pool.close 0 pool.crew.length e → ShutdownStep s i e
  /-- Who decides again on a closed pool finds no workers left to stop. -/
  | repeats {p : PoolId} {pool : Pool} {e : Effect} : s.Awaits i p → s.pools[p]? = some pool →
      pool.closed → Stops s.pools i p pool 0 0 e → ShutdownStep s i e

namespace ShutdownStep

theorem after (h : s'.ShutdownStep i e) (hp : s'.pools = s.pools)
    (ha : ∀ p, s'.Awaits i p → s.Awaits i p) : s.ShutdownStep i e := by
  cases h with
  | aloof h => exact .aloof (h.after (sameOrders_of_pools hp))
  | waits hpool hs hq hc hp' hi =>
    exact .waits (hp ▸ hpool) hs hq (fun closed => ha _ (hc closed)) (hp'.trans hp) hi
  | begins hpool ho hq stops => exact .begins (hp ▸ hpool) ho hq (hp ▸ stops)
  | repeats hi hpool hc stops => exact .repeats (ha _ hi) (hp ▸ hpool) hc (hp ▸ stops)

theorem decideShutdown (nested : s.Nested) (hi : s.Inside i (f :: rest)) (hf : f.isBare)
    (hp : s.pools[p]? = some pool) (ha : pool.closed → s.Awaits i p) :
    s.ShutdownStep i (s.decideShutdown i p pool dropping) := by
  unfold System.decideShutdown
  split
  · next hq =>
    have stops : Stops s.pools i p pool.close 0 pool.rosterSize
        (s.stopNext i p pool.close 0 pool.rosterSize dropping) :=
      stops_stopNext 0 pool.rosterSize nested hi hf
    cases hc : pool.closed with
    | false =>
      have hsize : pool.rosterSize = pool.crew.length := by simp [Pool.rosterSize, hc]
      rw [hsize] at stops ⊢
      exact .begins hp hc hq stops
    | true =>
      have hsize : pool.rosterSize = 0 := by simp [Pool.rosterSize, hc]
      rw [hsize, Pool.close_of_closed hc] at stops ⊢
      exact .repeats (ha hc) hp hc stops
  · exact .aloof (.endShutdown _ nested)

theorem resumeShutdown (nested : s.Nested) (hi : s.Inside i (f :: rest)) (hf : f.isBare)
    (hp : s.pools[p]? = some pool) (ha : pool.closed → s.Awaits i p) :
    s.ShutdownStep i (s.resumeShutdown i p pool dropping) := by
  unfold System.resumeShutdown
  split
  · next h =>
    simp only [Bool.and_eq_true, Bool.not_eq_true'] at h
    exact .waits hp h.1 h.2 ha rfl hi.enter
  · exact .decideShutdown nested hi hf hp ha

theorem shutdown (nested : s.Nested) (hi : s.Inside i (f :: rest)) (hf : f.isBare)
    (hp : s.pools[p]? = some pool) : s.ShutdownStep i (s.shutdown i p pool dropping) := by
  unfold System.shutdown
  split
  · exact .aloof (.endShutdown _ nested)
  · next ho => exact .resumeShutdown nested hi hf hp fun hc => absurd hc ho

theorem call {op : Operation} {pick : Pick} (nested : s.Nested) (hth : s.threads[i]? = some th)
    (hu : th.inUserCode) (h : s.call? i op pick = some e) : s.ShutdownStep i e := by
  have nested : (s.inCall i).Nested := nested.move (.call hth hu)
  have hi := Inside.inCall hth
  suffices (s.inCall i).ShutdownStep i e by
    refine this.after rfl fun p ha => ?_
    obtain ⟨_, _, _, ha⟩ := ha
    cases ha.unique hi
  simp only [call?] at h
  cases op with
  | createPool c =>
    simp only at h
    split at h
    · cases h
      exact .aloof (.reply nested _)
    · next pool hc =>
      cases h
      have nested' : ((s.inCall i).addPool pool).Nested := nested
      exact .aloof (((Aloof.reply nested' (.pool s.pools.length)).emit rfl).after
        (sameOrders_addPool hc))
  | createTask captured =>
    cases h
    have nested' : ((s.inCall i).addTask { captured }).Nested := nested
    exact .aloof ((Aloof.reply nested' (.task s.tasks.length)).after (sameOrders_of_pools rfl))
  | submit p t =>
    obtain ⟨pool, hp, h⟩ := Option.bind_eq_some_iff.mp h
    obtain ⟨task, ht, h⟩ := Option.bind_eq_some_iff.mp h
    split at h
    · cases h
      exact .aloof (.submit pick nested hp)
    · cases h
  | join t bound =>
    obtain ⟨task, ht, h⟩ := Option.bind_eq_some_iff.mp h
    split at h
    · cases h
      exact .aloof (.join nested)
    · cases h
  | detach t =>
    obtain ⟨task, ht, h⟩ := Option.bind_eq_some_iff.mp h
    split at h
    · cases h
      exact .aloof (.detach nested)
    · cases h
  | destroy t =>
    obtain ⟨task, ht, h⟩ := Option.bind_eq_some_iff.mp h
    split at h
    · cases h
      exact .aloof (.destroy nested)
    · cases h
  | drop t =>
    obtain ⟨task, ht, h⟩ := Option.bind_eq_some_iff.mp h
    split at h
    · cases h
      exact .aloof (.letGo nested)
    · cases h
  | waitIdle p =>
    obtain ⟨pool, hp, h⟩ := Option.bind_eq_some_iff.mp h
    split at h
    · cases h
      exact .aloof (.waitIdle nested)
    · cases h
  | shutdown p =>
    obtain ⟨pool, hp, h⟩ := Option.bind_eq_some_iff.mp h
    split at h
    · cases h
      exact .shutdown nested hi rfl hp
    · cases h
  | dropPool p =>
    obtain ⟨pool, hp, h⟩ := Option.bind_eq_some_iff.mp h
    split at h
    · cases h
      exact .aloof (.dropPool nested hp)
    · cases h

theorem finish {ending : Except Payload Value} (nested : s.Nested)
    (hth : s.threads[i]? = some th) (h : s.finish? i th ending = some e) :
    s.ShutdownStep i e := by
  unfold finish? at h
  split at h
  · cases h
    have popped : (s.onThread i Thread.pop).Nested := nested.pop
    exact .aloof ⟨sameOrders_of_pools rfl, free_enter popped rfl, rfl⟩
  · next hc hr =>
    obtain ⟨task, ht, h⟩ := Option.bind_eq_some_iff.mp h
    cases h
    have hw : s.Working i _ _ (.running _) := ⟨th, hth, hr, hc⟩
    exact .aloof (.working (hw.onThread (Thread.rephases_leave _)) (sameOrders_of_pools rfl) rfl)
  · cases h

theorem advance {pick : Pick} (calls : s.Calls) (nested : s.Nested)
    (hth : s.threads[i]? = some th) (idle : ∀ p, ¬ s.Joins i p)
    (h : s.advance? i th pick = some e) : s.ShutdownStep i e := by
  unfold advance? at h
  split at h
  · next hc =>
    split at h
    · cases h
    · next hr => exact .aloof (.work ⟨th, hth, hr, hc⟩ h)
  · obtain ⟨pool, hp, h⟩ := Option.bind_eq_some_iff.mp h
    obtain ⟨task, ht, h⟩ := Option.bind_eq_some_iff.mp h
    cases h
    exact .aloof (.resumeSubmit pick nested hp)
  · obtain ⟨task, ht, h⟩ := Option.bind_eq_some_iff.mp h
    cases h
    exact .aloof (.resumeJoin nested)
  · obtain ⟨pool, hp, h⟩ := Option.bind_eq_some_iff.mp h
    cases h
    exact .aloof (.waitIdle nested)
  · next hc =>
    obtain ⟨pool, hp, h⟩ := Option.bind_eq_some_iff.mp h
    cases h
    exact .shutdown nested ⟨th, hth, hc⟩ rfl hp
  · next hc =>
    obtain ⟨pool, hp, h⟩ := Option.bind_eq_some_iff.mp h
    cases h
    have hi : s.Inside i _ := ⟨th, hth, hc⟩
    exact .resumeShutdown nested hi rfl hp fun _ => ⟨_, _, _, hi⟩
  · next hc => exact absurd ⟨_, _, _, _, th, hth, hc⟩ (idle _)
  · next hc =>
    cases h
    exact .aloof (.dispose calls nested ⟨th, hth, hc⟩)
  all_goals cases h

theorem expire (nested : s.Nested) (h : s.expire? i th = some e) : s.ShutdownStep i e := by
  unfold expire? at h
  split at h
  · obtain ⟨task, ht, h⟩ := Option.bind_eq_some_iff.mp h
    cases h
    exact .aloof (.expireJoin nested)
  · cases h

end ShutdownStep

/-- A shutdown has seen the worker that it waits for terminate, or it runs on this worker. -/
inductive CrewJoin (s : System) (i : ThreadId) (p : PoolId) : Effect → Prop
  | joined {pool : Pool} {next total : Nat} {dropping : Bool} {rest : List Frame} {j : ThreadId}
      {s' : System} {es es' : List Event} :
      s.Inside i (.joiningCrew p next total dropping :: rest) → s.pools[p]? = some pool →
      pool.hands[next]? = some j →
      (s.threads[j]?.any Thread.hasExited ∧ es = es' ∨
        j = i ∧ es = .log (.stopsItself p next) :: es') →
      Stops s.pools i p pool (next + 1) total (s', es') → CrewJoin s i p (s', es)

theorem CrewJoin.advance {pick : Pick} (nested : s.Nested) (hth : s.threads[i]? = some th)
    (hc : th.calls = .joiningCrew p next total dropping :: rest)
    (h : s.advance? i th pick = some e) : s.CrewJoin i p e := by
  have hi : s.Inside i (.joiningCrew p next total dropping :: rest) := ⟨th, hth, hc⟩
  obtain ⟨pool, hp, h⟩ : ∃ pool, s.pools[p]? = some pool ∧
      s.joinCrew? i p pool next total dropping = some e := by
    simpa [advance?, hc, Option.bind_eq_some_iff] using h
  have stops : Stops s.pools i p pool (next + 1) total
      (s.stopNext i p pool (next + 1) total dropping) :=
    stops_stopNext (next + 1) total nested hi rfl
  unfold joinCrew? at h
  generalize s.stopNext i p pool (next + 1) total dropping = e' at h stops
  obtain ⟨s₁, es₁⟩ := e'
  split at h
  · cases h
  · next member hm =>
    have hj : pool.hands[next]? = some member.thread := by simp [Pool.hands, hm]
    split at h
    · next hself =>
      cases h
      exact .joined hi hp hj (.inr ⟨hself, rfl⟩) stops
    · split at h
      · next hx =>
        cases h
        exact .joined hi hp hj (.inl ⟨hx, rfl⟩) stops
      · cases h

/-- What a step does to shutdowns. -/
inductive TeardownStep (s : System) (i : ThreadId) (e : Effect) : Prop
  | calls : (∀ p, ¬ s.Joins i p) → s.ShutdownStep i e → TeardownStep s i e
  | joins {p : PoolId} : s.CrewJoin i p e → TeardownStep s i e

theorem teardownStep_of_step {a : Action} (calls : s.Calls) (nested : s.Nested)
    (h : s.step i a = some e) : s.TeardownStep i e := by
  obtain ⟨th, hth, h⟩ := Option.bind_eq_some_iff.mp h
  by_cases hjoin : ∃ p, s.Joins i p
  · obtain ⟨p, next, total, dropping, rest, th', hth', hc⟩ := hjoin
    obtain rfl : th = th' := Option.some.inj (hth.symm.trans hth')
    cases a with
    | call op pick => simp [Thread.inUserCode, hc] at h
    | finish ending => simp [finish?, hc] at h
    | advance pick => exact .joins (.advance nested hth hc h)
    | expire => simp [expire?, hc] at h
  · have idle : ∀ p, ¬ s.Joins i p := not_exists.mp hjoin
    refine .calls idle ?_
    cases a with
    | call op pick =>
      simp only at h
      split at h
      · next hu => exact .call nested hth hu h
      · cases h
    | finish ending => exact .finish nested hth h
    | advance pick => exact .advance calls nested hth idle h
    | expire => exact .expire nested h

end System

end WorkerPool
