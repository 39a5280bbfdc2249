import WorkerPool.Proofs.Chores
import WorkerPool.Proofs.Coasting
import WorkerPool.Proofs.OneOwner
import WorkerPool.Proofs.WorkerWait

/-!
Programs that coast come to a halt.

What is left to do is finite. Each step of a program that coasts takes something off it, or answers
a wake-up and leaves it as it is. So there comes a state in which no worker can take a step any
more: each of them sleeps, has terminated, or is inside a call that waits.
-/
namespace WorkerPool

/-! ### What is left to do -/

/-- What is left to do for a thing that is to be let go of. The last reference to a task becomes a
work and an outcome, and these have destructors. -/
def Disposal.burden : Disposal → Nat
  | record _ => 1
  | outcome .. | work _ => 2
  | reference _ => 5
  | handle _ => 6

/-- What is left to do in a frame. A wait for a pool may go on to the next part of a shutdown, and
the last part may go over all workers. -/
def Frame.burden : Frame → Nat
  | destructor | awaitingOutcome .. => 1
  | disposing todo _ _ => 1 + (todo.map Disposal.burden).sum
  | joiningCrew _ next total _ => 1 + (total - next)
  | awaitingReleases .. => maxThreadsLimit + 2
  | closing .. => maxThreadsLimit + 3
  | awaitingIdle .. => maxThreadsLimit + 4
  | awaitingWorker .. => 18

/-- What a worker has left to do until it has no task any more. -/
def Phase.burden : Phase → Nat
  | exited => 0
  | parked _ => 1
  | starting | releasing => 2
  | counted _ => 13
  | stashed .. => 14
  | stashing .. => 15
  | running _ => 16
  | holding _ => 17

/-- Whether a wake-up has been delivered and not been answered. -/
def Frame.alarm : Frame → Nat
  | awaitingWorker _ _ true | awaitingOutcome _ _ true | awaitingIdle _ _ true
  | awaitingReleases _ _ true => 1
  | _ => 0

def Phase.alarm : Phase → Nat
  | parked true => 1
  | _ => 0

theorem Frame.burden_wake (c : Condition) (f : Frame) : (f.wake c).burden = f.burden := by
  cases f <;> rfl

theorem Phase.burden_wake (c : Condition) (p : PoolId) (phase : Phase) :
    (phase.wake c p).burden = phase.burden := by
  cases phase <;> rfl

namespace Slot

variable (t : TaskId) (slot : Slot)

theorem burden_contents : ((slot.contents t).map Disposal.burden).sum ≤ 4 := by
  unfold contents
  cases slot.work <;> cases slot.outcome <;> simp [Disposal.burden]

theorem burden_leftovers : ((slot.leftovers t).map Disposal.burden).sum ≤ 4 := by
  unfold leftovers
  cases slot.work <;> cases slot.outcome <;> split <;> simp [Disposal.burden]

end Slot

/-- What the phase of a worker and the frames of a thread weigh together. -/
def Thread.cost (phases : Phase → Nat) (frames : Frame → Nat) (th : Thread) : Nat :=
  (match th.role with
    | .caller => 0
    | .worker _ _ phase => phases phase) + th.weigh frames

theorem Thread.wakeFree_cost : WakeFree (Thread.cost Phase.burden Frame.burden) := by
  intro c th
  have frames := wakeFree_weigh Frame.burden_wake c th
  cases h : th.role <;> simp [cost, h, Role.wake, Phase.burden_wake, frames]

namespace System

variable {s s' s₁ : System} {i j : ThreadId} {p : PoolId} {k : Nat} {t : TaskId} {pool new : Pool}
  {task : Task} {f f' : Frame} {rest calls : List Frame} {th : Thread} {es : List Event}
  {a : Action} {e : Effect} {g h : Trace} {callers : Nat} {phase phase' : Phase}
  {change : Thread → Thread}

section cost

variable (phases : Phase → Nat) (frames : Frame → Nat)

theorem cost_pop (hi : s.Inside i (f :: rest)) :
    (s.onThread i Thread.pop).tally (Thread.cost phases frames) + frames f =
      s.tally (Thread.cost phases frames) := by
  obtain ⟨th, hth, hc⟩ := hi
  have tally := tally_onThread (w := Thread.cost phases frames) Thread.pop hth
  have weight := Thread.weigh_pop frames hc
  simp only [Thread.cost, Thread.role_pop] at tally ⊢
  omega

theorem cost_push (hi : s.Inside i calls) :
    (s.onThread i (·.push f)).tally (Thread.cost phases frames) =
      s.tally (Thread.cost phases frames) + frames f := by
  obtain ⟨th, hth, -⟩ := hi
  have tally := tally_onThread (w := Thread.cost phases frames) (·.push f) hth
  simp only [Thread.cost, Thread.role_push, Thread.weigh_push] at tally ⊢
  omega

theorem cost_enter (f' : Frame) (hi : s.Inside i (f :: rest)) :
    (s.enter i f').tally (Thread.cost phases frames) + frames f =
      s.tally (Thread.cost phases frames) + frames f' := by
  have popped := cost_pop phases frames hi
  have pushed := cost_push (f := f') phases frames hi.pop
  rw [onThread_onThread] at pushed
  have entered : s.enter i f' = s.onThread i ((·.push f') ∘ Thread.pop) := rfl
  rw [entered]
  omega

theorem cost_rephase (hw : s.Working i p k phase) (hg : Thread.Rephases phase' change) :
    (s.onThread i change).tally (Thread.cost phases frames) + phases phase =
      s.tally (Thread.cost phases frames) + phases phase' := by
  obtain ⟨th, hth, hr, hc⟩ := hw
  have tally := tally_onThread (w := Thread.cost phases frames) change hth
  have weight : (change th).weigh frames = th.weigh frames := by
    simp [Thread.weigh, (hg th).2]
  simp only [Thread.cost, (hg th).1, Thread.role_setPhase hr, hr, weight] at tally ⊢
  omega

end cost

/-- The tasks in all queues. -/
def unclaimed (s : System) : Nat := (s.pools.map (·.queue.length)).sum

/-- What is left to do without a further call. -/
def burden (s : System) : Nat :=
  s.tally (Thread.cost Phase.burden Frame.burden) + 17 * s.unclaimed

/-- The wake-ups that have not been answered. -/
def alarms (s : System) : Nat := s.tally (Thread.cost Phase.alarm Frame.alarm)

theorem burden_pop (hi : s.Inside i (f :: rest)) :
    (s.onThread i Thread.pop).burden + f.burden = s.burden := by
  have cost := cost_pop Phase.burden Frame.burden hi
  simp only [burden, unclaimed, System.onThread] at cost ⊢
  omega

theorem burden_push (hi : s.Inside i calls) :
    (s.onThread i (·.push f)).burden = s.burden + f.burden := by
  have cost := cost_push (f := f) Phase.burden Frame.burden hi
  simp only [burden, unclaimed, System.onThread] at cost ⊢
  omega

theorem burden_enter (f' : Frame) (hi : s.Inside i (f :: rest)) :
    (s.enter i f').burden + f.burden = s.burden + f'.burden := by
  have cost := cost_enter Phase.burden Frame.burden f' hi
  simp only [burden, unclaimed, System.enter, System.onThread] at cost ⊢
  omega

theorem burden_rephase (phase' : Phase) (hw : s.Working i p k phase)
    (hg : Thread.Rephases phase' change) :
    (s.onThread i change).burden + phase.burden = s.burden + phase'.burden := by
  have cost := cost_rephase Phase.burden Frame.burden hw hg
  simp only [burden, unclaimed, System.onThread] at cost ⊢
  omega

theorem burden_stay (hg : ∀ th, (change th).role = th.role ∧ (change th).calls = th.calls) :
    (s.onThread i change).burden = s.burden := by
  have cost (th : Thread) : (change th).cost Phase.burden Frame.burden =
      th.cost Phase.burden Frame.burden := by
    simp only [Thread.cost, Thread.weigh, (hg th).1, (hg th).2]
  simp only [burden, tally_onThread_of_eq cost]
  rfl

@[simp] theorem burden_wakeAll (c : Condition) : (s.wakeAll c).burden = s.burden := by
  have cost := tally_wakeAll (s := s) Thread.wakeFree_cost c
  simp only [burden, cost]
  rfl

@[simp] theorem burden_wakeOne (pick : Pick) : (s.wakeOne p pick).burden = s.burden := by
  simp only [burden, unclaimed, tally_wakeOne Thread.wakeFree_cost, pools_wakeOne]

theorem burden_setPool (hp : s.pools[p]? = some pool) (new : Pool) :
    (s.setPool p new).burden + 17 * pool.queue.length = s.burden + 17 * new.queue.length := by
  have sum : (s.setPool p new).unclaimed + pool.queue.length = s.unclaimed + new.queue.length := by
    have modified := sum_map_modify (·.queue.length) (fun _ => new) hp
    rwa [List.modify_eq_set_getElem?, hp] at modified
  have tally := tally_setPool (s := s) (p := p) (w := Thread.cost Phase.burden Frame.burden) new
  simp only [burden, tally]
  omega

theorem burden_sameQueue (new : Pool) (hp : s.pools[p]? = some pool) (hq : new.queue = pool.queue) :
    (s.setPool p new).burden = s.burden := by
  have set := burden_setPool hp new
  rw [hq] at set
  omega

/-! ### Steps -/

/-- Something has been done of what was left to do, or a wake-up has been answered. -/
def Lightens (s s' : System) : Prop :=
  s'.burden < s.burden ∨ s'.burden = s.burden ∧ s'.alarms < s.alarms

theorem Lightens.le (lightens : Lightens s s') : s'.burden ≤ s.burden := by
  rcases lightens with lt | ⟨eq, -⟩
  · exact lt.le
  · exact eq.le

/-- A call leaves its frame. -/
theorem lightens_pop (hi : s.Inside i (f :: rest)) (hf : 0 < f.burden) :
    Lightens s (s.onThread i Thread.pop) := by
  have popped := burden_pop hi
  exact .inl (by omega)

/-- A call that has been woken in vain waits again. -/
theorem lightens_wait (hi : s.Inside i (f :: rest)) (hb : f'.burden = f.burden)
    (ha : f'.alarm < f.alarm) : Lightens s (s.enter i f') := by
  have entered := burden_enter f' hi
  have alarms : (s.enter i f').alarms + f.alarm = s.alarms + f'.alarm :=
    cost_enter Phase.alarm Frame.alarm f' hi
  exact .inr ⟨by omega, by omega⟩

theorem lightens_enter (hi : s.Inside i (f :: rest)) (hf : f'.burden < f.burden) :
    Lightens s (s.enter i f') := by
  have entered := burden_enter f' hi
  exact .inl (by omega)

/-! ### Submissions and joins -/

theorem lightens_accept {woken : Bool} (pick : Pick)
    (hi : s.Inside i (.awaitingWorker p t woken :: rest)) (hp : s.pools[p]? = some pool) :
    Lightens s (s.accept i p pool t task pick).1 := by
  unfold System.accept
  split
  · exact lightens_pop hi (by simp [Frame.burden])
  · let claimed := (s.setSlot t task.slot.claim).setPool p (pool.accept t)
    have inside : (claimed.wakeOne p pick).Inside i (.awaitingWorker p t woken :: rest) :=
      Inside.wakeOne_same (s := claimed) hi pick
    have queued : claimed.burden + 17 * pool.queue.length =
        s.burden + 17 * (pool.queue.length + 1) := by
      rw [← Pool.length_accept pool t]
      exact burden_setPool (s := s.setSlot t task.slot.claim) hp _
    have popped : ((claimed.wakeOne p pick).onThread i Thread.pop).burden + 18 =
        (claimed.wakeOne p pick).burden := burden_pop inside
    rw [burden_wakeOne] at popped
    refine .inl (show ((claimed.wakeOne p pick).onThread i Thread.pop).burden < s.burden from ?_)
    omega

theorem lightens_resumeSubmit (pick : Pick)
    (hi : s.Inside i (.awaitingWorker p t true :: rest)) (hp : s.pools[p]? = some pool) :
    Lightens s (s.resumeSubmit i p pool t task pick).1 := by
  unfold System.resumeSubmit
  split
  · exact lightens_wait hi rfl (by simp [Frame.alarm])
  · split
    · exact lightens_pop hi (by simp [Frame.burden])
    · exact lightens_accept pick hi hp

section joins

variable {bound : Bound} {woken : Bool}

theorem lightens_takeOutcome (hi : s.Inside i (.awaitingOutcome t bound woken :: rest)) :
    Lightens s (s.takeOutcome i t task).1 :=
  lightens_pop (s := s.setSlot t task.slot.release) hi (by simp [Frame.burden])

theorem lightens_resumeJoin (hi : s.Inside i (.awaitingOutcome t bound true :: rest)) :
    Lightens s (s.resumeJoin i t task bound).1 := by
  unfold System.resumeJoin
  split
  · exact lightens_takeOutcome hi
  · exact lightens_wait hi rfl (by simp [Frame.alarm])

theorem lightens_expireJoin (nanos : Nat)
    (hi : s.Inside i (.awaitingOutcome t bound woken :: rest)) :
    Lightens s (s.expireJoin i t task nanos).1 := by
  unfold System.expireJoin
  split
  · exact lightens_takeOutcome hi
  · exact lightens_pop hi (by simp [Frame.burden])

end joins

/-! ### Letting go -/

theorem lightens_dispose {todo : List Disposal} {failure : Option Payload} {releasing : Bool}
    (hi : s.Inside i (.disposing todo failure releasing :: rest)) :
    Lightens s (s.dispose i th todo failure releasing).1 := by
  cases todo with
  | nil =>
    simp only [System.dispose]
    split <;> split <;> exact lightens_pop hi (by simp [Frame.burden])
  | cons d todo =>
    have less (todo' : List Disposal)
        (lt : (todo'.map Disposal.burden).sum < d.burden + (todo.map Disposal.burden).sum) :
        Lightens s (s.enter i (.disposing todo' failure releasing)) := by
      refine lightens_enter hi ?_
      simp only [Frame.burden, List.map_cons, List.sum_cons]
      omega
    have destroys (hd : d.burden = 2) (r : Remains) : Lightens s
        ((s.enter i (.disposing todo failure releasing)).runDestructor i r).1 := by
      have inside : (s.enter i (.disposing todo failure releasing)).Inside i
          (.disposing todo failure releasing :: rest) := hi.enter
      have entered := burden_enter (.disposing todo failure releasing) hi
      have pushed := burden_push (f := .destructor) inside
      simp only [Frame.burden, List.map_cons, List.sum_cons] at entered pushed
      refine .inl ?_
      simp only [System.runDestructor]
      omega
    cases d with
    | outcome t o =>
      simp only [System.dispose]
      split
      · exact destroys rfl _
      · exact less _ (by simp [Disposal.burden])
    | work t => exact destroys rfl _
    | record r => exact less _ (by simp [Disposal.burden])
    | handle t =>
      simp only [System.dispose]
      split
      · exact less _ (by simp [Disposal.burden])
      · split <;> exact less _ (by simp [Disposal.burden])
    | reference t =>
      simp only [System.dispose]
      split
      · exact less _ (by simp [Disposal.burden])
      · next task ht =>
        split
        · have few := task.slot.burden_contents t
          refine less (task.slot.contents t ++ todo) ?_
          simp only [List.map_append, List.sum_append, Disposal.burden]
          omega
        · exact less _ (by simp [Disposal.burden])

/-- A destructor has ended. -/
theorem lightens_resume {todo : List Disposal} {failure : Option Payload} {releasing : Bool}
    (failure' : Option Payload)
    (hi : s.Inside i (.destructor :: .disposing todo failure releasing :: rest)) :
    Lightens s ((s.onThread i Thread.pop).enter i (.disposing todo failure' releasing)) := by
  have popped := burden_pop hi
  have entered := burden_enter (.disposing todo failure' releasing) hi.pop
  simp only [Frame.burden] at popped entered
  exact .inl (by omega)

theorem lightens_finish {ending : Except Payload Value} (hth : s.threads[i]? = some th)
    (h : s.finish? i th ending = some e) : Lightens s e.1 := by
  unfold finish? at h
  split at h
  · next todo failure releasing rest hc =>
    cases h
    have hi : s.Inside i (.destructor :: .disposing todo failure releasing :: rest) :=
      ⟨th, hth, hc⟩
    exact lightens_resume _ hi
  · next p k t hc hr =>
    obtain ⟨task, ht, h⟩ := Option.bind_eq_some_iff.mp h
    cases h
    have hw : s.Working i p k (.running t) := ⟨th, hth, hr, hc⟩
    have rephased := burden_rephase (.stashing t true ⟨task.runs, .of ending⟩) hw
      (Thread.rephases_leave fun th => th.spans.leave task.captured)
    simp only [Phase.burden] at rephased
    refine .inl ?_
    simp only [endWork]
    omega
  · cases h

/-! ### Waiting for a pool and shutting it down -/

section shutdown

variable {dropping : Bool}

theorem lightens_endShutdown (failure : Option PoolError) (hi : s.Inside i (f :: rest))
    (hf : 0 < f.burden) : Lightens s (s.endShutdown i p pool failure dropping).1 := by
  unfold System.endShutdown
  split <;> exact lightens_pop hi hf

variable (dropping) in
theorem burden_stopNext (new : Pool) (next total : Nat) (hi : s.Inside i (f :: rest))
    (hp : s.pools[p]? = some pool) (hq : new.queue = pool.queue) :
    (s.stopNext i p new next total dropping).1.burden + f.burden =
      s.burden + if next < total then 1 + (total - next) else 0 := by
  unfold System.stopNext
  split
  · let told := (s.setPool p (new.requestExit next)).wakeAll (.workAvailable p)
    obtain ⟨th, hth, hc⟩ := hi
    have inside : told.Inside i (f.wake (.workAvailable p) ::
        rest.map (Frame.wake (.workAvailable p))) :=
      ⟨th.wake (.workAvailable p), by simp [told, getElem?_wakeAll, System.setPool, hth],
        by simp [hc]⟩
    have asked := burden_sameQueue (new.requestExit next) hp hq
    have entered : (told.enter i (.joiningCrew p next total dropping)).burden + f.burden =
        (s.setPool p (new.requestExit next)).burden + (1 + (total - next)) := by
      have entered := burden_enter (.joiningCrew p next total dropping) inside
      rwa [Frame.burden_wake, burden_wakeAll] at entered
    show (told.enter i (.joiningCrew p next total dropping)).burden + f.burden = _
    omega
  · have dismissed := burden_sameQueue new.dismiss hp hq
    have popped := burden_pop (s := s.setPool p new.dismiss) hi
    simp only [System.finishTeardown, emit, System.endShutdown, System.reply]
    omega

theorem lightens_decideShutdown (books : s.Books) (hi : s.Inside i (f :: rest))
    (hp : s.pools[p]? = some pool) (hf : maxThreadsLimit + 1 < f.burden) :
    Lightens s (s.decideShutdown i p pool dropping).1 := by
  have balanced := books.pools p pool hp
  have roster : pool.rosterSize ≤ maxThreadsLimit := by
    have few := (Config.valid_bounds balanced.valid).1.2
    have ceiling := balanced.ceiling
    unfold Pool.rosterSize
    split <;> omega
  unfold System.decideShutdown
  split
  · have stops := burden_stopNext dropping pool.close 0 pool.rosterSize hi hp rfl
    refine .inl ?_
    split at stops <;> omega
  · exact lightens_endShutdown _ hi (by omega)

theorem lightens_resumeShutdown (books : s.Books) (hi : s.Inside i (f :: rest))
    (hp : s.pools[p]? = some pool) (hf : maxThreadsLimit + 1 < f.burden)
    (waits : Lightens s (s.enter i (.awaitingReleases p dropping false))) :
    Lightens s (s.resumeShutdown i p pool dropping).1 := by
  unfold System.resumeShutdown
  split
  · exact waits
  · exact lightens_decideShutdown books hi hp hf

theorem lightens_shutdown (books : s.Books) (hi : s.Inside i (.closing p dropping :: rest))
    (hp : s.pools[p]? = some pool) : Lightens s (s.shutdown i p pool dropping).1 := by
  unfold System.shutdown
  split
  · exact lightens_endShutdown none hi (by simp [Frame.burden])
  · exact lightens_resumeShutdown books hi hp (by simp [Frame.burden])
      (lightens_enter hi (by simp [Frame.burden]))

theorem lightens_waitIdle (hi : s.Inside i (.awaitingIdle p dropping true :: rest)) :
    Lightens s (s.waitIdle i p pool dropping).1 := by
  unfold System.waitIdle
  split
  · split
    · exact lightens_enter hi (by simp [Frame.burden])
    · exact lightens_pop hi (by simp [Frame.burden])
  · exact lightens_wait hi rfl (by simp [Frame.alarm])

theorem lightens_joinCrew {next total : Nat}
    (hi : s.Inside i (.joiningCrew p next total dropping :: rest)) (hp : s.pools[p]? = some pool)
    (h : s.joinCrew? i p pool next total dropping = some e) : Lightens s e.1 := by
  have stops : Lightens s (s.stopNext i p pool (next + 1) total dropping).1 := by
    have stopped := burden_stopNext dropping _ (next + 1) total hi hp rfl
    simp only [Frame.burden] at stopped
    refine .inl ?_
    split at stopped <;> omega
  unfold joinCrew? at h
  split at h
  · cases h
  · split at h
    · cases h
      exact stops
    · split at h
      · cases h
        exact stops
      · cases h

end shutdown

/-! ### Workers -/

theorem lightens_proceed (hw : s.Working i p k (.parked true)) (hp : s.pools[p]? = some pool) :
    Lightens s (s.proceed i p pool k).1 := by
  unfold System.proceed
  split
  · have exits := burden_rephase .exited hw
      (Thread.rephases_leave fun th => th.spans.leave (some .worker))
    simp only [Phase.burden] at exits
    refine .inl ?_
    simp only
    omega
  · split
    · have parks := burden_rephase (.parked false) hw Thread.rephases_setPhase
      have alarms : (s.onThread i (·.setPhase (.parked false))).alarms + 1 = s.alarms + 0 :=
        cost_rephase Phase.alarm Frame.alarm hw Thread.rephases_setPhase
      simp only [Phase.burden] at parks
      exact .inr ⟨by simp only; omega, by simp only; omega⟩
    · next t new hc =>
      have fewer := length_claim hc
      have taken := burden_setPool hp new
      have hw' : (s.setPool p new).Working i p k (.parked true) := hw
      have holds := burden_rephase (.holding t) hw' Thread.rephases_setPhase
      simp only [Phase.burden] at holds
      refine .inl ?_
      simp only
      omega

/-- A worker that is without a task again has less to do, whatever it finds next. -/
theorem burden_settle (new : Pool) (hw : s.Working i p k phase) (hp : s.pools[p]? = some pool)
    (hq : new.queue = pool.queue) (hphase : 1 < phase.burden) :
    (s.settle i p new k).1.burden < s.burden := by
  have same := burden_sameQueue new hp hq
  have hw' : (s.setPool p new).Working i p k phase := hw
  have parks : ((s.setPool p new).onThread i (·.setPhase (.parked true))).burden + phase.burden =
      (s.setPool p new).burden + 1 :=
    burden_rephase _ hw' Thread.rephases_setPhase
  have settled : (s.settled i p new).burden =
      ((s.setPool p new).onThread i (·.setPhase (.parked true))).burden := by
    unfold System.settled
    split
    · exact burden_wakeAll _
    · rfl
  have proceeds := (lightens_proceed (hw.settled new) (getElem?_settled hp new)).le
  exact proceeds.trans_lt (by omega)

theorem lightens_register (hw : s.Working i p k .starting) (hp : s.pools[p]? = some pool) :
    Lightens s (s.register i p pool k).1 := by
  let spanned := s.onThread i fun th => { th with spans := th.spans.enter (some .worker) }
  have entered : spanned.Working i p k .starting := hw.stay fun _ => ⟨rfl, rfl⟩
  have woken : (spanned.wakeAll (.workerRegistered p)).Working i p k .starting :=
    entered.wakeAll _
  have settles := burden_settle pool.register woken hp rfl (by simp [Phase.burden])
  have same : spanned.burden = s.burden := burden_stay fun _ => ⟨rfl, rfl⟩
  rw [burden_wakeAll, same] at settles
  exact .inl settles

theorem lightens_rephase (hw : s.Working i p k phase) (hg : Thread.Rephases phase' change)
    (hphase : phase'.burden < phase.burden) : Lightens s (s.onThread i change) := by
  have rephased := burden_rephase phase' hw hg
  exact .inl (by omega)

theorem lightens_begin (hw : s.Working i p k (.holding t)) : Lightens s (s.begin i t task).1 := by
  unfold System.begin
  split
  · exact lightens_rephase (s := s.setTask t { task with slot := task.slot.start, runs := _ }) hw
      (Thread.rephases_enter _) (by simp [Phase.burden])
  · exact lightens_rephase (s := s.setTask t _) hw (Thread.rephases_enter _)
      (by simp [Phase.burden])

theorem lightens_retire (hw : s.Working i p k (.counted t)) (hp : s.pools[p]? = some pool) :
    Lightens s (s.retire i p pool k t task).1 := by
  have same : (s.setPool p (pool.retire i)).burden = s.burden := burden_sameQueue _ hp rfl
  have published : (s.published i p pool t task).burden = s.burden := by
    unfold System.published
    split
    · exact same
    · exact (burden_wakeAll _).trans same
  have hw' : (s.published i p pool t task).Working i p k (.counted t) := hw.published rfl
  have hw₁ : ((s.published i p pool t task).onThread i (·.setPhase .releasing)).Working i p k
      .releasing := hw'.onThread Thread.rephases_setPhase
  have releases := burden_rephase .releasing hw' Thread.rephases_setPhase
  have pushed := burden_push (f := .disposing (.reference t :: task.slot.leftovers t) none true)
    hw₁.inside
  have retired : (s.retire i p pool k t task).1 = s.retired i p pool t task := rfl
  have few := task.slot.burden_leftovers t
  simp only [Frame.burden, Disposal.burden, Phase.burden, List.map_cons, List.sum_cons]
    at releases pushed
  rw [retired, retired_eq]
  exact .inl (by omega)

theorem lightens_work (hw : s.Working i p k phase) (h : s.work? i p k phase = some e) :
    Lightens s e.1 := by
  obtain ⟨pool, hp, h⟩ := Option.bind_eq_some_iff.mp h
  cases phase with
  | starting =>
    cases h
    exact lightens_register hw hp
  | parked woken =>
    cases woken with
    | false => cases h
    | true =>
      cases h
      exact lightens_proceed hw hp
  | holding t =>
    obtain ⟨task, ht, h⟩ := Option.bind_eq_some_iff.mp h
    cases h
    exact lightens_begin hw
  | stashing t work o =>
    obtain ⟨task, ht, h⟩ := Option.bind_eq_some_iff.mp h
    cases h
    exact lightens_rephase (s := s.setSlot t _) hw Thread.rephases_setPhase
      (by simp [Phase.burden])
  | stashed t returned =>
    cases h
    have same : (s.setPool p (pool.count k returned)).burden = s.burden :=
      burden_sameQueue _ hp rfl
    have hw' : (s.setPool p (pool.count k returned)).Working i p k (.stashed t returned) := hw
    have counts : (s.count i p pool k t returned).1.burden + 14 =
        (s.setPool p (pool.count k returned)).burden + 13 :=
      burden_rephase _ hw' (Thread.rephases_leave fun th => th.spans.leave (some .execution))
    exact .inl (by omega)
  | counted t =>
    obtain ⟨task, ht, h⟩ := Option.bind_eq_some_iff.mp h
    cases h
    exact lightens_retire hw hp
  | releasing =>
    cases h
    exact .inl (burden_settle _ hw hp rfl (by simp [Phase.burden]))
  | running _ => cases h
  | exited => cases h

/-! ### Steps that are no calls -/

theorem lightens_advance (books : s.Books) (hth : s.threads[i]? = some th) {pick : Pick}
    (h : s.advance? i th pick = some e) : Lightens s e.1 := by
  unfold advance? at h
  split at h
  · next hc =>
    split at h
    · cases h
    · next hr => exact lightens_work ⟨th, hth, hr, hc⟩ h
  · next hc =>
    obtain ⟨pool, hp, h⟩ := Option.bind_eq_some_iff.mp h
    obtain ⟨task, -, h⟩ := Option.bind_eq_some_iff.mp h
    cases h
    exact lightens_resumeSubmit pick ⟨th, hth, hc⟩ hp
  · next hc =>
    obtain ⟨task, -, h⟩ := Option.bind_eq_some_iff.mp h
    cases h
    exact lightens_resumeJoin ⟨th, hth, hc⟩
  · next hc =>
    obtain ⟨pool, -, h⟩ := Option.bind_eq_some_iff.mp h
    cases h
    exact lightens_waitIdle ⟨th, hth, hc⟩
  · next hc =>
    obtain ⟨pool, hp, h⟩ := Option.bind_eq_some_iff.mp h
    cases h
    exact lightens_shutdown books ⟨th, hth, hc⟩ hp
  · next p dropping rest hc =>
    obtain ⟨pool, hp, h⟩ := Option.bind_eq_some_iff.mp h
    cases h
    have hi : s.Inside i (.awaitingReleases p dropping true :: rest) := ⟨th, hth, hc⟩
    exact lightens_resumeShutdown books hi hp (by simp [Frame.burden])
      (lightens_wait hi rfl (by simp [Frame.alarm]))
  · next hc =>
    obtain ⟨pool, hp, h⟩ := Option.bind_eq_some_iff.mp h
    exact lightens_joinCrew ⟨th, hth, hc⟩ hp h
  · next hc =>
    cases h
    exact lightens_dispose ⟨th, hth, hc⟩
  all_goals cases h

theorem lightens_expire (hth : s.threads[i]? = some th) (h : s.expire? i th = some e) :
    Lightens s e.1 := by
  unfold expire? at h
  split at h
  · next hc =>
    obtain ⟨task, -, h⟩ := Option.bind_eq_some_iff.mp h
    cases h
    exact lightens_expireJoin _ ⟨th, hth, hc⟩
  · cases h

theorem lightens_of_step (books : s.Books) (hs : s.step i a = some e) (ha : a.isCall = false) :
    Lightens s e.1 := by
  obtain ⟨th, hth, hs⟩ := Option.bind_eq_some_iff.mp hs
  cases a with
  | call op pick => cases ha
  | finish ending => exact lightens_finish hth hs
  | advance pick => exact lightens_advance books hth hs
  | expire => exact lightens_expire hth hs

/-! ### The halt -/

/-- The second state follows the first one in steps of workers, where works and destructors call
nothing and return; the trace tells of these steps. -/
inductive Settles (s : System) : Trace → System → Prop
  | refl : Settles s [] s
  | step {h : Trace} {s' s'' : System} {j : ThreadId} {a : Action} {es : List Event} :
      Settles s h s' → (s'.employer j).isSome → a.returns → s'.step j a = some (s'', es) →
      Settles s (h ++ es.map (j, ·)) s''

namespace Settles

theorem coasts (settles : s.Settles h s') : s.Coasts h s' := by
  induction settles with
  | refl => exact .refl
  | step _ worker ha hs ih => exact ih.step worker (Action.isCall_of_returns ha) hs

theorem single (worker : (s.employer j).isSome) (ha : a.returns)
    (hs : s.step j a = some (s', es)) : s.Settles (es.map (j, ·)) s' := by
  simpa using step refl worker ha hs

theorem trans (settles : s.Settles g s₁) (settles' : s₁.Settles h s') :
    s.Settles (g ++ h) s' := by
  induction settles' with
  | refl => simpa using settles
  | step _ worker ha hs ih => simpa using ih.step worker ha hs

end Settles

/-- Workers can do nothing more without a call or a panic. -/
def Spent (s : System) : Prop :=
  ∀ j a, (s.employer j).isSome → a.returns → s.step j a = none

/-- A program that coasts comes to a halt. -/
theorem Run.halts {g : Trace} {s : System} (run : Run callers g s) :
    ∃ h s', s.Settles h s' ∧ s'.Spent := by
  by_cases spent : s.Spent
  · exact ⟨[], s, .refl, spent⟩
  · obtain ⟨j, a, worker, ha, hs⟩ : ∃ j a, (s.employer j).isSome ∧ a.returns ∧
        s.step j a ≠ none := by
      simpa [Spent] using spent
    obtain ⟨⟨s₁, es⟩, hs⟩ := Option.ne_none_iff_exists'.mp hs
    have lightens : Lightens s s₁ := lightens_of_step run.books hs (Action.isCall_of_returns ha)
    obtain ⟨h, s', settles, spent⟩ := (run.step hs).halts
    exact ⟨_, s', (Settles.single worker ha hs).trans settles, spent⟩
termination_by (s.burden, s.alarms)
decreasing_by
  exact Prod.lex_def.mpr lightens

theorem Books.pool_of_role (books : s.Books) (hth : s.threads[i]? = some th)
    (hr : th.role = .worker p k phase) : ∃ pool, s.pools[p]? = some pool := by
  have post : some ⟨p, k, phase.station⟩ ∈ s.posts :=
    List.mem_map.mpr ⟨th, List.mem_of_getElem? hth, by simp [Thread.post, hr]⟩
  exact ⟨_, List.getElem?_eq_getElem (books.known _ post)⟩

/-- What a worker has in hands is a task. -/
theorem Run.task_of_hands (run : Run callers h s) (has : s.Has i p phase)
    (ht : phase.task? = some t) : ∃ task, s.tasks[t]? = some task := by
  by_contra none
  have missing : s.task t = {} := by
    simp [System.task, Option.eq_none_iff_forall_ne_some.mpr (not_exists.mp none)]
  obtain ⟨life, st, hat, -⟩ := run.kept t
  have free := (hat.free_caller (by simp [record, missing]) (by simp [record, missing])).2 i
  rw [has.bearing ht] at free
  cases free

/-- No worker is inside a call of the library that may have to wait. -/
def Unhindered (s : System) : Prop :=
  s.Frames fun j f => (s.employer j).isSome → f.isWait = false

/-- Every worker sleeps or has terminated. -/
def Rested (s : System) : Prop :=
  ∀ (j : ThreadId) (th : Thread), s.threads[j]? = some th → th.employer.isSome → th.isAtRest

/-- A worker that can do nothing more, and is inside no call that waits, is at rest. -/
theorem Spent.rested (spent : s.Spent) (run : Run callers h s) (unhindered : s.Unhindered) :
    s.Rested := by
  intro j th hth worker
  have employed : (s.employer j).isSome := by simpa [employer, hth] using worker
  have stuck (a : Action) (ha : a.returns) : s.step j a = none := spent j a employed ha
  obtain ⟨p, k, phase, hr⟩ : ∃ p k phase, th.role = .worker p k phase := by
    cases hr : th.role with
    | caller => simp [Thread.employer, hr] at worker
    | worker p k phase => exact ⟨p, k, phase, rfl⟩
  cases hc : th.calls with
  | nil =>
    obtain ⟨pool, hp⟩ := run.books.pool_of_role hth hr
    have advance := stuck (.advance 0) rfl
    have task {t : TaskId} (ht : phase.task? = some t) := run.task_of_hands ⟨th, k, hth, hr⟩ ht
    cases phase with
    | exited => simp [Thread.isAtRest, hc, hr]
    | parked woken =>
      cases woken with
      | false => simp [Thread.isAtRest, hc, hr]
      | true => simp [step, hth, advance?, hc, hr, work?, hp] at advance
    | running t =>
      obtain ⟨task, ht⟩ := task rfl
      have ends := stuck (.finish (.ok .null)) rfl
      simp [step, hth, finish?, hc, hr, ht] at ends
    | holding t | stashing t _ _ | counted t =>
      obtain ⟨task, ht⟩ := task rfl
      simp [step, hth, advance?, hc, hr, work?, hp, ht] at advance
    | starting | stashed _ _ | releasing =>
      simp [step, hth, advance?, hc, hr, work?, hp] at advance
  | cons f rest =>
    have free := unhindered j th hth f (by simp [hc]) employed
    cases f with
    | disposing todo failure releasing =>
      obtain ⟨th', hs⟩ := Inside.advance (s := s) ⟨th, hth, hc⟩ 0
      rw [stuck _ rfl] at hs
      cases hs
    | destructor =>
      have ends := run.layered.finishes ⟨th, hth, hc⟩ (.ok .null)
      rw [stuck _ rfl] at ends
      cases ends
    | _ => cases free

theorem Unhindered.coasts (unhindered : s.Unhindered) (coasts : s.Coasts h s')
    (run : Run callers g s) : s'.Unhindered := by
  have before : s'.Frames fun j f => (s.employer j).isSome → f.isWait = false := by
    refine coasts.frames ⟨fun j c f hf worker => ?_, fun _ _ _ _ _ => rfl⟩ (fun _ _ => rfl)
      (fun same hf worker => same.isWait.trans (hf worker)) unhindered
    rw [← hf worker]
    cases f <;> rfl
  intro j th hth f hf worker
  exact before j th hth f hf (coasts.staff run j ▸ worker)

/-- A program that coasts comes to rest, unless workers are inside calls that wait. -/
theorem Run.comes_to_rest (run : Run callers g s) (unhindered : s.Unhindered) :
    ∃ h s', s.Settles h s' ∧ s'.Rested := by
  obtain ⟨h, s', settles, spent⟩ := run.halts
  have coasts := settles.coasts
  exact ⟨h, s', settles, spent.rested (coasts.run run) (unhindered.coasts coasts run)⟩

end System

end WorkerPool
