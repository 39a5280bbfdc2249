import Mathlib.Logic.Function.Basic
import WorkerPool.Proofs.Steps
import WorkerPool.Proofs.Story

/-!
Where a task is.

A task that a pool has accepted is in the queue of that pool, or in the hands of one of its workers,
or finished; never in two of these, and its slot and its story fit the place. `System.Custody` says
so, and every move keeps it.
-/
namespace WorkerPool

/-- The pool that employs the thread. -/
def Thread.employer (th : Thread) : Option PoolId :=
  match th.role with
  | .caller => none
  | .worker p _ _ => some p

/-- What a worker of the pool has in hands of the task. -/
def Phase.bears (t : TaskId) (p : PoolId) (phase : Phase) : Option (PoolId × Phase) :=
  if phase.task? = some t then some (p, phase) else none

theorem Phase.bears_self {t : TaskId} {p : PoolId} {phase : Phase} (h : phase.task? = some t) :
    phase.bears t p = some (p, phase) := by
  simp [bears, h]

theorem Phase.bears_none {t : TaskId} {p : PoolId} {phase : Phase} (h : phase.task? = none) :
    phase.bears t p = none := by
  simp [bears, h]

/-- A worker that has one task in hands has no other. -/
theorem Phase.bears_ne {t u : TaskId} {p : PoolId} {phase : Phase} (h : phase.task? = some t)
    (hu : t ≠ u) : phase.bears u p = none := by
  simp [bears, h, hu]

def Thread.bears (t : TaskId) (th : Thread) : Option (PoolId × Phase) :=
  match th.role with
  | .caller => none
  | .worker p _ phase => phase.bears t p

/-- All that the state shows about one task, and who employs the workers. -/
structure Record where
  slot : Slot
  handle : Bool
  runs : Nat
  bearing : ThreadId → Option (PoolId × Phase)
  queued : PoolId → Nat
  employer : ThreadId → Option PoolId

/-- The place of a task. -/
inductive Life
  /-- No pool has the task. -/
  | idle
  /-- The task is queued in the pool. -/
  | queued (p : PoolId)
  /-- A worker of the pool has the task in hands. -/
  | carried (p : PoolId) (i : ThreadId) (phase : Phase)
  /-- The task has finished; no join has taken the outcome. -/
  | done (o : Outcome)

namespace Life

def bearing : Life → ThreadId → Option (PoolId × Phase)
  | carried p i phase, j => if j = i then some (p, phase) else none
  | _, _ => none

def queue : Life → PoolId → Nat
  | queued p, q => if q = p then 1 else 0
  | _, _ => 0

/-- The slot of the task, and the stage of its story, at this place. -/
def Agrees (r : Record) (st : Stage) : Life → Prop
  | idle => st = .resting r.runs ∧ r.slot.ownership = .caller ∧ r.slot.outcome = none ∧
      (r.handle → r.slot.work)
  | queued p => st = .accepted r.runs p ∧ r.slot.ownership ≠ .caller ∧ r.slot.state = .pending ∧
      r.slot.outcome = none ∧ r.slot.work
  | carried p _ (.holding _) => st = .accepted r.runs p ∧ r.slot.ownership ≠ .caller ∧
      r.slot.state = .pending ∧ r.slot.outcome = none ∧ r.slot.work
  | carried p i (.running _) => st = .started r.runs p i ∧ r.slot.ownership ≠ .caller ∧
      r.slot.state = .running ∧ r.slot.outcome = none
  | carried _ _ (.stashing _ work o) => st = .ended r.runs o ∧ r.slot.ownership ≠ .caller ∧
      r.slot.state = .running ∧ r.slot.outcome = none ∧ work
  | carried _ _ (.stashed _ _) | carried _ _ (.counted _) =>
      ∃ o, st = .ended r.runs o ∧ r.slot.ownership ≠ .caller ∧ r.slot.state = .running ∧
        r.slot.outcome = some o ∧ r.slot.work
  | carried _ _ _ => False
  | done o => st = .ended r.runs o ∧ r.slot.state = .finished ∧
      (r.slot.ownership ≠ .pool → r.slot.outcome = none) ∧
      (r.handle → r.slot.ownership = .pool ∧ r.slot.outcome = some o ∧ r.slot.work)

end Life

/-- The record of a task at some place, with its story. -/
structure Record.At (r : Record) (st : Stage) (life : Life) : Prop where
  bearing : r.bearing = life.bearing
  queued : r.queued = life.queue
  /-- Who detaches a task has no handle left. -/
  detached : r.slot.ownership = .detached → r.handle = false
  agrees : life.Agrees r st

namespace Record.At

variable {r : Record} {st : Stage} {life : Life} {p : PoolId} {i : ThreadId} {phase : Phase}

/-- What a worker has in hands is all there is of the task. -/
theorem of_bearing (h : r.At st life) (hb : r.bearing i = some (p, phase)) :
    life = .carried p i phase := by
  rw [h.bearing] at hb
  cases life with
  | carried q j old =>
    by_cases hj : i = j
    · simp_all [Life.bearing]
    · simp [Life.bearing, hj] at hb
  | _ => simp [Life.bearing] at hb

/-- What is queued is all there is of the task. -/
theorem of_queued (h : r.At st life) (hq : r.queued p ≠ 0) : life = .queued p := by
  rw [h.queued] at hq
  cases life with
  | queued q =>
    by_cases hp : p = q
    · rw [hp]
    · simp [Life.queue, hp] at hq
  | _ => simp [Life.queue] at hq

end Record.At

namespace System

variable {s s' : System} {i j : ThreadId} {p q : PoolId} {k : Nat} {t u : TaskId}
  {pool new : Pool} {task : Task} {slot : Slot} {phase phase' : Phase} {g : Thread → Thread}

def employer (s : System) (i : ThreadId) : Option PoolId := s.threads[i]?.bind Thread.employer

def bearing (s : System) (t : TaskId) (i : ThreadId) : Option (PoolId × Phase) :=
  s.threads[i]?.bind (Thread.bears t)

def queued (s : System) (t : TaskId) (p : PoolId) : Nat :=
  (s.pools[p]?.map fun pool => pool.queue.entries.count t).getD 0

def record (s : System) (t : TaskId) : Record where
  slot := (s.task t).slot
  handle := (s.task t).handle
  runs := (s.task t).runs
  bearing := s.bearing t
  queued := s.queued t
  employer := s.employer

/-- The thread is a worker of the pool in the given phase, whatever calls its task is inside of. -/
def Has (s : System) (i : ThreadId) (p : PoolId) (phase : Phase) : Prop :=
  ∃ th k, s.threads[i]? = some th ∧ th.role = .worker p k phase

/-! ### Records of other states -/

theorem record_eq (ht : (s'.task t).slot = (s.task t).slot ∧
      (s'.task t).handle = (s.task t).handle ∧ (s'.task t).runs = (s.task t).runs)
    (hb : ∀ j, s'.bearing t j = s.bearing t j) (hq : ∀ p, s'.queued t p = s.queued t p)
    (he : ∀ j, s'.employer j = s.employer j) : s'.record t = s.record t := by
  simp only [record, ht.1, ht.2.1, ht.2.2, funext hb, funext hq, funext he]

theorem bears_of_role {th th' : Thread} (h : th'.role = th.role) : th'.bears t = th.bears t := by
  simp [Thread.bears, h]

theorem bears_wake (c : Condition) (th : Thread) : (th.wake c).bears t = th.bears t := by
  simp only [Thread.bears, Thread.role_wake]
  cases th.role with
  | caller => rfl
  | worker p k phase => cases phase <;> rfl

theorem employer_of_role {th th' : Thread} (h : th'.role = th.role) :
    th'.employer = th.employer := by
  simp [Thread.employer, h]

theorem employer_setPhase (th : Thread) : (th.setPhase phase).employer = th.employer := by
  unfold Thread.setPhase
  cases hr : th.role <;> simp [Thread.employer, hr]

theorem employer_wake (c : Condition) (th : Thread) : (th.wake c).employer = th.employer := by
  simp only [Thread.employer, Thread.role_wake]
  cases th.role <;> rfl

theorem employer_onThread (hg : ∀ th, (g th).employer = th.employer) (j : ThreadId) :
    (s.onThread i g).employer j = s.employer j := by
  unfold employer
  rw [getElem?_onThread]
  split
  · next hij =>
    subst hij
    cases hth : s.threads[i]? with
    | none => rfl
    | some th => simp [hg]
  · rfl

theorem bearing_onThread (hg : ∀ th, (g th).bears t = th.bears t) (j : ThreadId) :
    (s.onThread i g).bearing t j = s.bearing t j := by
  unfold bearing
  rw [getElem?_onThread]
  split
  · next hij =>
    subst hij
    cases hth : s.threads[i]? with
    | none => rfl
    | some th => simp [hg]
  · rfl

theorem record_onThread (hg : ∀ th, (g th).role = th.role) :
    (s.onThread i g).record t = s.record t :=
  record_eq ⟨rfl, rfl, rfl⟩ (bearing_onThread fun th => bears_of_role (hg th)) (fun _ => rfl)
    (employer_onThread fun th => employer_of_role (hg th))

@[simp] theorem record_push (f : Frame) : (s.onThread i (·.push f)).record t = s.record t :=
  record_onThread fun _ => rfl

@[simp] theorem record_pop : (s.onThread i Thread.pop).record t = s.record t :=
  record_onThread fun _ => rfl

@[simp] theorem record_enter (f : Frame) : (s.enter i f).record t = s.record t :=
  record_onThread fun _ => rfl

@[simp] theorem record_wakeAll (c : Condition) : (s.wakeAll c).record t = s.record t := by
  refine record_eq ⟨rfl, rfl, rfl⟩ (fun j => ?_) (fun _ => rfl) fun j => ?_
  · unfold bearing
    rw [getElem?_wakeAll]
    cases s.threads[j]? <;> simp [bears_wake]
  · unfold employer
    rw [getElem?_wakeAll]
    cases s.threads[j]? <;> simp [employer_wake]

@[simp] theorem record_wakeOne (pick : Pick) : (s.wakeOne p pick).record t = s.record t := by
  obtain ⟨j, hj⟩ := wakeOne_eq s p pick
  rw [hj]
  exact record_eq ⟨rfl, rfl, rfl⟩ (bearing_onThread fun th => bears_wake _ th) (fun _ => rfl)
    (employer_onThread fun th => employer_wake _ th)

theorem record_setPool (hp : s.pools[p]? = some pool) :
    (s.setPool p new).record t = { s.record t with
      queued := Function.update (s.record t).queued p (new.queue.entries.count t) } := by
  have hlt := (List.getElem?_eq_some_iff.mp hp).1
  have hq : (s.setPool p new).queued t =
      Function.update (s.queued t) p (new.queue.entries.count t) := by
    funext q
    by_cases hq : p = q
    · subst hq
      simp [queued, setPool, hlt]
    · simp [queued, setPool, hq, Function.update_of_ne (Ne.symm hq)]
  simp only [record, hq]
  rfl

theorem queued_eq (hp : s.pools[p]? = some pool) :
    (s.record t).queued p = pool.queue.entries.count t := by
  simp [record, queued, hp]

theorem record_setPool_same (hp : s.pools[p]? = some pool)
    (hc : new.queue.entries.count t = pool.queue.entries.count t) :
    (s.setPool p new).record t = s.record t := by
  rw [record_setPool hp, hc, ← queued_eq hp, Function.update_eq_self]

theorem record_addPool (hc : new.queue.entries = []) : (s.addPool new).record t = s.record t := by
  refine record_eq ⟨rfl, rfl, rfl⟩ (fun _ => rfl) (fun q => ?_) fun _ => rfl
  unfold queued addPool
  rw [getElem?_snoc]
  split
  · next hq => simp [hq, hc]
  · rfl

theorem record_addTask (captured : Option Span) :
    (s.addTask { captured }).record t = s.record t := by
  refine record_eq ?_ (fun _ => rfl) (fun _ => rfl) fun _ => rfl
  unfold System.task addTask
  rw [getElem?_snoc]
  split
  · next ht => simp [ht]
  · simp

theorem record_spawn {th : Thread} (hth : th.bears t = none) :
    (s.spawn th).record t = { s.record t with employer := (s.spawn th).employer } := by
  have hb : (s.spawn th).bearing t = s.bearing t := by
    funext j
    unfold bearing spawn
    rw [getElem?_snoc]
    split
    · next hj => simp [hj, hth]
    · rfl
  simp only [record, hb]
  rfl

theorem employer_spawn {th : Thread} (h : s.employer j = some p) :
    (s.spawn th).employer j = some p := by
  unfold employer spawn at *
  rw [getElem?_snoc]
  split
  · next hj => simp [hj] at h
  · exact h

theorem task_setTask (ht : s.tasks[t]? = some task) (new : Task) :
    (s.setTask t new).task t = new := by
  have hlt : t < s.tasks.length := (List.getElem?_eq_some_iff.mp ht).1
  simp [System.task, setTask, hlt]

theorem record_setTask (ht : s.tasks[t]? = some task) (new : Task) :
    (s.setTask t new).record t =
      { s.record t with slot := new.slot, handle := new.handle, runs := new.runs } := by
  simp only [record, task_setTask ht]
  rfl

theorem record_setTask_ne (new : Task) (hu : t ≠ u) : (s.setTask t new).record u = s.record u := by
  refine record_eq ?_ (fun _ => rfl) (fun _ => rfl) fun _ => rfl
  simp [System.task, setTask, hu]

theorem task_eq (ht : s.tasks[t]? = some task) : s.task t = task := by
  simp [System.task, ht]

theorem record_slot (ht : s.tasks[t]? = some task) : (s.record t).slot = task.slot := by
  simp [record, task_eq ht]

theorem record_handle (ht : s.tasks[t]? = some task) : (s.record t).handle = task.handle := by
  simp [record, task_eq ht]

theorem record_runs (ht : s.tasks[t]? = some task) : (s.record t).runs = task.runs := by
  simp [record, task_eq ht]

theorem record_setSlot (ht : s.tasks[t]? = some task) (slot : Slot) :
    (s.setSlot t slot).record t = { s.record t with slot } := by
  rw [setSlot_eq ht, record_setTask ht, ← record_handle ht, ← record_runs ht]

theorem record_setSlot_ne (slot : Slot) (hu : t ≠ u) :
    (s.setSlot t slot).record u = s.record u := by
  refine record_eq ?_ (fun _ => rfl) (fun _ => rfl) fun _ => rfl
  simp [System.task, setSlot, hu]

/-- A worker changes what it has in hands. -/
theorem Working.record (phase' : Phase) (h : s.Working i p k phase)
    (hg : ∀ th, (g th).role = (th.setPhase phase').role) :
    (s.onThread i g).record t =
      { s.record t with bearing := Function.update (s.record t).bearing i (phase'.bears t p) } := by
  obtain ⟨th, hth, hr, -⟩ := h
  have hb : (s.onThread i g).bearing t =
      Function.update (s.bearing t) i (phase'.bears t p) := by
    funext j
    unfold bearing
    rw [getElem?_onThread]
    by_cases hj : i = j
    · subst hj
      simp [hth, Thread.bears, hg, Thread.role_setPhase hr]
    · simp [hj, Function.update_of_ne (Ne.symm hj)]
  have he : (s.onThread i g).employer = s.employer := by
    funext j
    exact employer_onThread (fun th => (employer_of_role (hg th)).trans (employer_setPhase th)) j
  simp only [System.record, hb, he]
  rfl

theorem Working.bearing (h : s.Working i p k phase) :
    (s.record t).bearing i = phase.bears t p := by
  obtain ⟨th, hth, hr, -⟩ := h
  simp [System.record, System.bearing, hth, Thread.bears, hr]

theorem Working.record_same (h : s.Working i p k phase)
    (hg : ∀ th, (g th).role = (th.setPhase phase').role)
    (hb : phase'.bears t p = phase.bears t p) : (s.onThread i g).record t = s.record t := by
  rw [h.record phase' hg, hb, ← h.bearing, Function.update_eq_self]

theorem Working.record_settled (new : Pool) (h : s.Working i p k phase)
    (hp : s.pools[p]? = some pool) (hb : phase.task? = none) (hc : new.queue = pool.queue) :
    (s.settled i p new).record t = s.record t := by
  have h' : (s.setPool p new).Working i p k phase := h
  have hsame : ((s.setPool p new).onThread i (·.setPhase (.parked true))).record t = s.record t :=
    (h'.record_same (fun _ => rfl) ((Phase.bears_none rfl).trans (Phase.bears_none hb).symm)).trans
      (record_setPool_same hp (by rw [hc]))
  unfold System.settled
  split
  · rw [record_wakeAll, hsame]
  · exact hsame

/-- A task that nothing refers to is at rest for good. -/
theorem record_of_references (h : s.references t = 0) (ht : s.tasks[t]? = some task) :
    (s.record t).handle = false ∧ (s.record t).bearing = (fun _ => none) ∧
      (s.record t).queued = fun _ => 0 := by
  simp only [references, foldr_weigh, ht, Option.any_some, Nat.add_eq_zero_iff] at h
  obtain ⟨⟨hh, hq⟩, hth⟩ := h
  refine ⟨?_, funext fun i => ?_, funext fun p => ?_⟩
  · simpa [record, task_eq ht] using hh
  · cases hi : s.threads[i]? with
    | none => simp [record, bearing, hi]
    | some th =>
      have hz := List.sum_eq_zero_iff.mp hth _ (List.mem_map_of_mem (List.mem_of_getElem? hi))
      have hrole : th.role.task? ≠ some t := by
        intro hr
        simp [Thread.holds, hr] at hz
      cases hr : th.role with
      | caller => simp [record, bearing, hi, Thread.bears, hr]
      | worker p k phase =>
        have hphase : phase.task? ≠ some t := by simpa [hr, Role.task?] using hrole
        simp [record, bearing, hi, Thread.bears, hr, Phase.bears, hphase]
  · cases hp : s.pools[p]? with
    | none => simp [record, queued, hp]
    | some pool =>
      have := List.sum_eq_zero_iff.mp hq _ (List.mem_map_of_mem (List.mem_of_getElem? hp))
      simpa [record, queued, hp] using this

end System

end WorkerPool
