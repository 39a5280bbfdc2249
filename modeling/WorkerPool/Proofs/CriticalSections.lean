import WorkerPool.Proofs.Conservation
import WorkerPool.Proofs.Submissions
import WorkerPool.Proofs.Works
import WorkerPool.Proofs.Sections
import WorkerPool.Proofs.Seats

/-!
Critical sections destroy no user data.

A step ends with a critical section of the lock of a pool or of a task, or takes no lock at all; a
destructor begins in steps of the second kind only. What a critical section overwrites is empty, and
what it takes from its place it hands to somebody: works and values stay as many as they were, and
no task loses a reference.
-/
namespace WorkerPool

/-- Whether the next step of the thread holds the lock of a pool or of a task. Creating pools and
tasks takes no lock, nor does letting go of anything but a handle. -/
def Thread.locks (th : Thread) : Action → Bool
  | .call (.createPool _) _ | .call (.createTask _) _ | .call (.drop _) _ | .finish _ => false
  | .call _ _ | .expire => true
  | .advance _ =>
    match th.calls, th.role with
    | [], .worker _ _ (.stashed ..) => false
    | .disposing (.handle _ :: _) _ _ :: _, _ => true
    | .disposing .. :: _, _ | .destructor :: _, _ => false
    | _, _ => true

namespace System

variable {callers : Nat} {h : Trace} {s s' : System} {i : ThreadId} {p : PoolId} {t : TaskId}
  {th : Thread} {a : Action} {e : Effect} {es : List Event} {rest : List Frame} {k : Nat}
  {pick : Pick}

/-- The step destroys no work and no value, and takes no reference to a task away. -/
structure Harmless (s : System) (e : Effect) : Prop where
  quiet : ∀ r, .destroying r ∉ e.2
  works : ∀ t, e.1.works t = s.works t
  values : ∀ t n, e.1.holdings t (·.isValueOf n) + e.2.countP (Event.hands t (·.isValueOf n)) =
    s.holdings t (·.isValueOf n)
  references : ∀ t, s.references t ≤ e.1.references t

/-- The handles that the operation needs are there, and in no use that excludes it. -/
def Admits (s : System) : Operation → Prop
  | .createPool _ | .createTask _ => True
  | .submit p t => s.canUse p ∧ s.canShare t
  | .join t _ | .detach t | .destroy t | .drop t => s.canOwn t
  | .waitIdle p | .shutdown p => s.canUse p
  | .dropPool p => s.canDrop p

/-! ### Sections with a lock -/

/-- A step with a lock is none of those that destroy something. -/
theorem mild_locked (calls : s.Calls) (hth : s.threads[i]? = some th)
    (hs : s.step i a = some e) (locks : th.locks a) : Mild (fun _ _ => True) s e := by
  have lasting : Frame.Lasting fun _ _ => True :=
    ⟨fun _ _ _ _ => trivial, fun _ _ _ _ => trivial⟩
  have code : ∀ ending, a ≠ .finish ending := by
    rintro ending rfl
    cases locks
  have new : ∀ captured pick, a ≠ .call (.createTask captured) pick := by
    rintro captured pick rfl
    cases locks
  by_cases sheds : s.Sheds i
  · obtain ⟨d, todo, failure, releasing, rest, hi⟩ := sheds
    obtain ⟨th', hth', hc⟩ := hi
    obtain rfl : th = th' := Option.some.inj (hth.symm.trans hth')
    cases a with
    | call op pick => simp [step, hth, Thread.inUserCode, hc] at hs
    | finish ending => exact absurd rfl (code ending)
    | expire => simp [step, hth, expire?, hc] at hs
    | advance pick =>
      have hs : s.dispose i th (d :: todo) failure releasing = e := by
        simpa [step, hth, advance?, hc] using hs
      subst hs
      cases d with
      | handle t =>
        obtain ⟨o, ho⟩ := (calls.given ⟨th, hth, hc⟩).1
        obtain ⟨task, ht, -⟩ := Option.map_eq_some_iff.mp ho
        exact mild_handle lasting ⟨th, hth, hc⟩ ht
      | _ => simp [Thread.locks, hc] at locks
  · exact mild_step lasting (fun _ _ => trivial) hs code new sheds

theorem discarded_of_mild (mild : ∀ ev ∈ es, ev.isMild) :
    Trace.discarded (es.map (i, ·)) t = 0 := by
  rw [Trace.discarded, List.countP_map, List.countP_eq_zero]
  intro ev hev
  have := mild ev hev
  cases ev <;> simp_all [Event.isMild]

theorem destroyed_of_mild (mild : ∀ ev ∈ es, ev.isMild) :
    Trace.destroyed (es.map (i, ·)) t = [] := by
  rw [Trace.destroyed, List.filterMap_map, List.filterMap_eq_nil_iff]
  intro ev hev
  have := mild ev hev
  cases ev <;> simp_all [Event.isMild, Event.destroyed?]

theorem yielded_of_mild {q : Outcome → Bool} (mild : ∀ ev ∈ es, ev.isMild) :
    Trace.yielded (es.map (i, ·)) t q = 0 := by
  rw [Trace.yielded, List.countP_map, List.countP_eq_zero]
  intro ev hev
  have := mild ev hev
  cases ev <;> simp_all [Event.isMild, Event.yields]

/-- What a step with mild events takes from one place is in another place, or a join has it. -/
theorem Run.harmless (run : Run callers h s) (hs : s.step i a = some (s', es))
    (mild : Mild (fun _ _ => True) s (s', es)) : s.Harmless (s', es) := by
  have told : ∀ ev ∈ es, ev.isMild := mild.events
  refine ⟨fun r hr => ?_, fun t => ?_, fun t n => ?_, mild.retains.references⟩
  · have := told _ hr
    cases this
  · have before := run.works t
    have after := (run.step hs).works t
    have none := discarded_of_mild (i := i) (t := t) told
    rw [Trace.discarded_append] at after
    show s'.works t = s.works t
    omega
  · obtain ⟨gone, before⟩ := run.accounts t
    obtain ⟨gone', after⟩ := (run.step hs).accounts t
    have lost : gone'.countP (·.isValueOf n) = gone.countP (·.isValueOf n) := by
      rw [← before.count_destroyed, ← after.count_destroyed, Trace.destroyed_append,
        destroyed_of_mild told, List.append_nil]
    have hbefore := before.balance (·.isValueOf n)
    have hafter := after.balance (·.isValueOf n)
    rw [Trace.yielded_append, yielded_of_mild told, Trace.handed_append] at hafter
    have hands : Trace.handed (es.map (i, ·)) t (·.isValueOf n) =
        es.countP (Event.hands t (·.isValueOf n)) := by
      rw [Trace.handed, List.countP_map]
      rfl
    show s'.holdings t (·.isValueOf n) + es.countP (Event.hands t (·.isValueOf n)) = _
    omega

/-! ### Places -/

/-- A pool that takes a task finds no outcome in its slot. -/
theorem Run.claims_empty (run : Run callers h s) (hs : s.step i a = some (s', es)) {n : Nat}
    (hev : .log (.submitted p t n) ∈ es) : (s.task t).slot.outcome = none := by
  obtain ⟨q, pool, tries, -, -⟩ := submitted_by run.calls hs hev (t := t) (by simp [Event.buys])
  obtain ⟨pool', task, -, ht, share, attempt⟩ := tries.attempt run.calls hs
  have free : task.slot.ownership = .caller := by
    cases attempt with
    | accepted _ _ _ ho _ => exact ho
    | _ => simp at hev
  rw [← record_slot ht] at free
  exact (run.kept t).empty_caller (handle_of_canShare share) free

/-- A worker that brings a work and an outcome back finds the slot empty. -/
theorem Run.stores_empty (run : Run callers h s) {work : Bool} {o : Outcome}
    (has : s.Has i p (.stashing t work o)) :
    (s.task t).slot.work = false ∧ (s.task t).slot.outcome = none := by
  obtain ⟨th, k, hth, hr⟩ := has
  have free := (run.seated th (List.mem_of_getElem? hth)).free p k _ hr rfl
  have hw : s.Working i p k (.stashing t work o) := ⟨th, hth, hr, free⟩
  have hb := hw.bearing_self (t := t) rfl
  obtain ⟨-, rfl⟩ := (run.kept t).stashable hb
  exact ⟨WorkKept.empty_stashing (run.works t) hw, (run.kept t).empty_stashing hb⟩

/-- What a worker lets go of in its loop is gone before it goes on. -/
theorem Run.not_retired (run : Run callers h s) {phase : Phase} (hth : s.threads[i]? = some th)
    (hr : th.role = .worker p k phase) (hp : phase ≠ .releasing) :
    ∀ f ∈ th.calls, f.isRetired = false := by
  intro f hf
  by_contra hret
  have seated := run.seated th (List.mem_of_getElem? hth)
  obtain ⟨q, k', hr'⟩ := seated.retired f hf (by simpa using hret)
  rw [hr] at hr'
  cases hr'
  exact hp rfl

/-! ### Calls from destructors -/

theorem pool_of_canUse (use : s.canUse p) : ∃ pool, s.pools[p]? = some pool := by
  cases hp : s.pools[p]? with
  | none => simp [canUse, hp] at use
  | some pool => exact ⟨pool, rfl⟩

theorem task_of_canShare (share : s.canShare t) : ∃ task, s.tasks[t]? = some task := by
  cases ht : s.tasks[t]? with
  | none => simp [canShare, ht] at share
  | some task => exact ⟨task, rfl⟩

theorem task_of_canOwn (own : s.canOwn t) : ∃ task, s.tasks[t]? = some task :=
  task_of_canShare (canOwn_iff.mp own).1

/-- User code, a destructor like any other, may begin every call that the handles admit. -/
theorem call_of_admits {op : Operation} (hth : s.threads[i]? = some th) (user : th.inUserCode)
    (admits : s.Admits op) : (s.step i (.call op pick)).isSome := by
  have hstep : s.step i (.call op pick) = s.call? i op pick := by simp [step, hth, user]
  rw [hstep]
  cases op with
  | createPool c =>
    simp only [call?]
    split <;> rfl
  | createTask captured => rfl
  | submit p t =>
    obtain ⟨use, share⟩ := admits
    obtain ⟨pool, hp⟩ := pool_of_canUse use
    obtain ⟨task, ht⟩ := task_of_canShare share
    simp [call?, hp, ht, use, share]
  | join t bound | detach t | destroy t | drop t =>
    have own : s.canOwn t := admits
    obtain ⟨task, ht⟩ := task_of_canOwn own
    simp [call?, ht, own]
  | waitIdle p | shutdown p =>
    have use : s.canUse p := admits
    obtain ⟨pool, hp⟩ := pool_of_canUse use
    simp [call?, hp, use]
  | dropPool p =>
    have drop : s.canDrop p := admits
    obtain ⟨pool, hp⟩ := pool_of_canUse (Bool.and_eq_true _ _ ▸ drop).1
    simp [call?, hp, drop]

/-! ### Every step -/

/-- What a step that the thread takes from a reachable state does to user data. -/
structure Guarded (s : System) (i : ThreadId) (th : Thread) (a : Action) (e : Effect) : Prop where
  /-- A step with a lock leaves all user data alive, and every task referred to. -/
  locked : th.locks a → s.Harmless e
  /-- The reset of the outcome finds none. -/
  claims : ∀ p t n, .log (.submitted p t n) ∈ e.2 → (s.task t).slot.outcome = none
  /-- The stores of the work and the outcome find the slot empty. -/
  stores : ∀ p k t work o, th.role = .worker p k (.stashing t work o) →
    (s.task t).slot.work = false ∧ (s.task t).slot.outcome = none
  /-- A worker that completes a task has let go of the one before. -/
  overwrites : ∀ p k t, th.role = .worker p k (.counted t) → ∀ f ∈ th.calls, f.isRetired = false
  /-- A worker that has left its loop has let go of everything. -/
  leaves : ∀ p k th', e.1.threads[i]? = some th' → th'.role = .worker p k .exited →
    ∀ f ∈ th'.calls, f.isRetired = false
  /-- A destructor begins with no lock held. -/
  destructors : ∀ r, .destroying r ∈ e.2 → th.locks a = false
  /-- A destructor may begin the calls that other user code may. -/
  callbacks : ∀ rest op pick, th.calls = .destructor :: rest → s.Admits op →
    (s.step i (.call op pick)).isSome

/-- No critical section destroys user data, in any run. -/
theorem Run.guarded (run : Run callers h s) (hth : s.threads[i]? = some th)
    (hs : s.step i a = some e) : s.Guarded i th a e := by
  obtain ⟨s', es⟩ := e
  have locked (locks : th.locks a) : s.Harmless (s', es) :=
    run.harmless hs (mild_locked run.calls hth hs locks)
  refine ⟨locked, fun p t n hev => run.claims_empty hs hev,
    fun p k t work o hr => run.stores_empty ⟨th, k, hth, hr⟩,
    fun p k t hr => run.not_retired hth hr nofun,
    fun p k th' hth' hr => (run.step hs).not_retired hth' hr nofun, fun r hr => ?_,
    fun rest op pick hc admits => call_of_admits hth (by simp [Thread.inUserCode, hc]) admits⟩
  by_contra locks
  exact (locked (by simpa using locks)).quiet r hr

/-- The worker of a detached task is about to complete it: the section empties the slot and destroys
neither the work nor the value that it finds there. -/
theorem guarded_detached : ∃ h s th e, Run 1 h s ∧ s.threads[1]? = some th ∧
    s.step 1 (.advance 0) = some e ∧ th.locks (.advance 0) ∧
    (s.task 0).slot.work ∧ (s.task 0).slot.outcome.isSome ∧
    (e.1.task 0).slot.work = false ∧ (e.1.task 0).slot.outcome.isSome = false ∧
    s.Guarded 1 th (.advance 0) e := by
  have run : Run 1 _ _ := run_of_replay [(0, .call (.createPool (.new 1)) 0),
    (0, .call (.createTask none) 0), (0, .call (.submit 0 0) 0), (1, .advance 0), (0, .advance 0),
    (1, .advance 0), (1, .advance 0), (0, .call (.detach 0) 0), (1, .finish (.ok .null)),
    (1, .advance 0), (1, .advance 0)] rfl
  exact ⟨_, _, _, _, run, rfl, rfl, rfl, rfl, rfl, rfl, rfl, run.guarded rfl rfl⟩

end System

end WorkerPool
