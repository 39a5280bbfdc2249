import WorkerPool.Proofs.Move

/-!
Masks.

A mask rewrites parts of a state that the program carries along and hardly looks at: outcomes, the
statistics of workers, what a thread has yet to let go of, the panic of a destructor. Everything
that decides what a thread does next shows in the masked state as well.
-/
namespace WorkerPool

/-- Whether user code begins or ends. -/
def Event.isCode : Event → Bool
  | started .. | ended .. | destroying _ => true
  | _ => false

/-- How to rewrite each part of a state. -/
structure Mask where
  slot : TaskId → Slot → Slot := fun _ slot => slot
  /-- What a worker has in hands of an execution: the outcome, then whether the work returned. -/
  outcome : TaskId → Outcome → Outcome := fun _ o => o
  returned : TaskId → Bool → Bool := fun _ returned => returned
  /-- A thing to let go of may disappear. -/
  item : Disposal → Option Disposal := some
  /-- The panic that a worker has met while it lets go of its task. -/
  failure : Option Payload → Option Payload := id
  /-- The statistics of the worker on a thread. -/
  stats : ThreadId → WorkerStats → WorkerStats := fun _ stats => stats

namespace Mask

def phase (m : Mask) : Phase → Phase
  | .stashing t work o => .stashing t work (m.outcome t o)
  | .stashed t returned => .stashed t (m.returned t returned)
  | phase => phase

def role (m : Mask) : Role → Role
  | .caller => .caller
  | .worker p k phase => .worker p k (m.phase phase)

def frame (m : Mask) : Frame → Frame
  | .disposing todo failure releasing =>
    .disposing (todo.filterMap m.item) (if releasing then m.failure failure else failure) releasing
  | frame => frame

def thread (m : Mask) (th : Thread) : Thread :=
  { th with role := m.role th.role, calls := th.calls.map m.frame }

def member (m : Mask) (member : Member) : Member :=
  { member with stats := m.stats member.thread member.stats }

def pool (m : Mask) (pool : Pool) : Pool := { pool with crew := pool.crew.map m.member }

def task (m : Mask) (t : TaskId) (task : Task) : Task := { task with slot := m.slot t task.slot }

/-- The masked state. -/
def apply (m : Mask) (s : System) : System where
  pools := s.pools.map m.pool
  tasks := s.tasks.mapIdx m.task
  threads := s.threads.map m.thread

/-- The masked state after a step, with what the step shows of user code. -/
def effect (m : Mask) (e : System.Effect) : System.Effect := (m.apply e.1, e.2.filter Event.isCode)

/-- What every mask here has in common: references stay, and so does what the last one of them
takes along; no panic is none in the masked state, and one more execution is one more there. -/
structure Lawful (m : Mask) : Prop where
  holds : ∀ t todo failure releasing,
    (Frame.disposing (todo.filterMap m.item) failure releasing).holds t =
      (Frame.disposing todo failure releasing).holds t
  reference : ∀ t, m.item (.reference t) = some (.reference t)
  contents : ∀ t slot, (slot.contents t).filterMap m.item = (m.slot t slot).contents t
  clear : ∀ t slot, m.slot t slot.clear = (m.slot t slot).clear
  calm : m.failure none = none
  completed : ∀ i stats, m.stats i stats.addCompleted = (m.stats i stats).addCompleted
  panicked : ∀ i stats, m.stats i stats.addPanicked = (m.stats i stats).addPanicked

/-- The mask rewrites nothing of the task but its outcomes. -/
structure Plain (m : Mask) (t : TaskId) : Prop where
  slot : ∀ slot, m.slot t slot = { slot with outcome := slot.outcome.map (m.outcome t) }
  outcome : ∀ o, m.item (.outcome t o) = some (.outcome t (m.outcome t o))
  work : m.item (.work t) = some (.work t)

/-- The mask rewrites nothing in which the handle of the task is given up. -/
structure Shares (m : Mask) (t : TaskId) : Prop extends m.Plain t where
  handle : m.item (.handle t) = some (.handle t)
  record : m.item (.record (.detached t)) = some (.record (.detached t))

variable {m : Mask} {t : TaskId} {c : Condition} {f : Frame} {th : Thread} {slot : Slot}

/-! ### Threads -/

@[simp] theorem phase_task? (phase : Phase) : (m.phase phase).task? = phase.task? := by
  cases phase <;> rfl

@[simp] theorem role_task? (role : Role) : (m.role role).task? = role.task? := by
  cases role <;> simp [role, Role.task?]

theorem role_wake (role : Role) : m.role (role.wake c) = (m.role role).wake c := by
  cases role with
  | caller => rfl
  | worker p k phase => cases phase <;> rfl

theorem frame_wake : m.frame (f.wake c) = (m.frame f).wake c := by cases f <;> rfl

@[simp] theorem frame_joins : (m.frame f).joins t = f.joins t := by cases f <;> rfl

@[simp] theorem frame_submits : (m.frame f).submits t = f.submits t := by cases f <;> rfl

@[simp] theorem frame_uses (p : PoolId) : (m.frame f).uses p = f.uses p := by cases f <;> rfl

theorem Lawful.frame_holds (law : m.Lawful) : (m.frame f).holds t = f.holds t := by
  cases f with
  | disposing todo failure releasing => exact law.holds t todo _ _
  | _ => rfl

@[simp] theorem thread_calls : (m.thread th).calls = th.calls.map m.frame := rfl

@[simp] theorem thread_role : (m.thread th).role = m.role th.role := rfl

@[simp] theorem thread_spans : (m.thread th).spans = th.spans := rfl

@[simp] theorem thread_push : m.thread (th.push f) = (m.thread th).push (m.frame f) := rfl

@[simp] theorem thread_pop : m.thread th.pop = (m.thread th).pop := by
  simp [thread, Thread.pop]

@[simp] theorem thread_replace : m.thread (th.replace f) = (m.thread th).replace (m.frame f) := by
  simp [Thread.replace]

@[simp] theorem thread_setPhase (phase : Phase) :
    m.thread (th.setPhase phase) = (m.thread th).setPhase (m.phase phase) := by
  unfold Thread.setPhase
  cases h : th.role <;> simp [thread, role, h]

@[simp] theorem thread_withSpans (spans : SpanHistory) :
    m.thread { th with spans } = { m.thread th with spans } := rfl

@[simp] theorem thread_wake : m.thread (th.wake c) = (m.thread th).wake c := by
  simp [thread, Thread.wake, role_wake, frame_wake]

@[simp] theorem thread_sleepsIn (p : PoolId) : (m.thread th).sleepsIn p = th.sleepsIn p := by
  unfold Thread.sleepsIn
  cases h : th.role with
  | caller => simp [role, h]
  | worker q k phase => cases phase <;> simp [role, Mask.phase, h]

@[simp] theorem thread_hasExited : (m.thread th).hasExited = th.hasExited := by
  unfold Thread.hasExited
  cases h : th.role with
  | caller => simp [role, h]
  | worker q k phase => cases phase <;> simp [role, Mask.phase, h]

@[simp] theorem thread_inUserCode : (m.thread th).inUserCode = th.inUserCode := by
  unfold Thread.inUserCode
  cases hc : th.calls with
  | nil =>
    cases h : th.role with
    | caller => simp [role, h, hc]
    | worker q k phase => cases phase <;> simp [role, Mask.phase, h, hc]
  | cons f rest => cases f <;> simp [frame, hc]

theorem Lawful.thread_holds (law : m.Lawful) : (m.thread th).holds t = th.holds t := by
  have h : (fun f n => (m.frame f).holds t + n) = fun f n => f.holds t + n := by
    funext f n
    rw [law.frame_holds]
  simp [Thread.holds, List.foldr_map, h]

/-! ### Slots -/

namespace Plain

variable (plain : m.Plain t)

include plain

theorem state : (m.slot t slot).state = slot.state := by rw [plain.slot]

theorem ownership : (m.slot t slot).ownership = slot.ownership := by rw [plain.slot]

theorem work_eq : (m.slot t slot).work = slot.work := by rw [plain.slot]

theorem claim : m.slot t slot.claim = (m.slot t slot).claim := by simp [plain.slot, Slot.claim]

theorem start : m.slot t slot.start = (m.slot t slot).start := by simp [plain.slot, Slot.start]

theorem stash (work : Bool) (o : Outcome) :
    m.slot t (slot.stash work o) = (m.slot t slot).stash work (m.outcome t o) := by
  simp [plain.slot, Slot.stash]

theorem complete : m.slot t slot.complete = (m.slot t slot).complete := by
  unfold Slot.complete
  split <;> simp_all [plain.slot]

theorem release : m.slot t slot.release = (m.slot t slot).release := by
  simp [plain.slot, Slot.release]

theorem detach : m.slot t slot.detach = (m.slot t slot).detach := by
  simp [plain.slot, Slot.detach]

theorem isOutstanding : (m.slot t slot).isOutstanding = slot.isOutstanding := by
  simp [plain.slot, Slot.isOutstanding]

/-- The things to let go of that a slot's outcome makes. -/
theorem outcomes : (slot.outcome.toList.map (.outcome t)).filterMap m.item =
    (m.slot t slot).outcome.toList.map (.outcome t) := by
  cases h : slot.outcome <;> simp [plain.slot, plain.outcome, h]

theorem leftovers : (slot.leftovers t).filterMap m.item = (m.slot t slot).leftovers t := by
  unfold Slot.leftovers
  rw [plain.ownership, plain.work_eq]
  split
  · rw [List.filterMap_append, plain.outcomes]
    cases slot.work <;> simp [plain.work]
  · rfl

end Plain

/-! ### Pools -/

section pool

variable {pool : Pool} {i : ThreadId} {k : Nat}

@[simp] theorem pool_config : (m.pool pool).config = pool.config := rfl

@[simp] theorem pool_queue : (m.pool pool).queue = pool.queue := rfl

@[simp] theorem pool_closed : (m.pool pool).closed = pool.closed := rfl

@[simp] theorem pool_handle : (m.pool pool).handle = pool.handle := rfl

@[simp] theorem pool_threadCount : (m.pool pool).threadCount = pool.threadCount := rfl

@[simp] theorem pool_runningCount : (m.pool pool).runningCount = pool.runningCount := rfl

@[simp] theorem pool_crew : (m.pool pool).crew = pool.crew.map m.member := rfl

@[simp] theorem pool_isSettled : (m.pool pool).isSettled = pool.isSettled := rfl

@[simp] theorem pool_isQuiescentFor : (m.pool pool).isQuiescentFor i = pool.isQuiescentFor i := rfl

@[simp] theorem pool_refusal : (m.pool pool).refusal = pool.refusal := rfl

@[simp] theorem pool_rosterSize : (m.pool pool).rosterSize = pool.rosterSize := by
  simp [Pool.rosterSize]

@[simp] theorem pool_unregistered : (m.pool pool).unregistered = pool.unregistered := by
  simp [Pool.unregistered]

@[simp] theorem pool_needsWorker : (m.pool pool).needsWorker = pool.needsWorker := by
  have idle : (m.pool pool).idleCount = pool.idleCount := rfl
  simp [Pool.needsWorker, idle]

@[simp] theorem pool_exitRequested : (m.pool pool).exitRequested k = pool.exitRequested k := by
  unfold Pool.exitRequested
  cases h : pool.crew[k]? <;> simp [h, member]

@[simp] theorem pool_accept : m.pool (pool.accept t) = (m.pool pool).accept t := rfl

@[simp] theorem pool_register : m.pool pool.register = (m.pool pool).register := rfl

@[simp] theorem pool_retire : m.pool (pool.retire i) = (m.pool pool).retire i := rfl

@[simp] theorem pool_released : m.pool (pool.released i) = (m.pool pool).released i := rfl

@[simp] theorem pool_close : m.pool pool.close = (m.pool pool).close := rfl

@[simp] theorem pool_dismiss : m.pool pool.dismiss = (m.pool pool).dismiss := rfl

@[simp] theorem pool_giveUp : m.pool { pool with handle := false } =
    { m.pool pool with handle := false } := rfl

theorem pool_new (config : Config) : m.pool (Pool.new config) = Pool.new config := rfl

theorem pool_hire (new : m.stats i {} = {}) : m.pool (pool.hire i) = (m.pool pool).hire i := by
  simp [Mask.pool, Pool.hire, member, new]

theorem pool_claim? : (m.pool pool).claim? = pool.claim?.map fun (t, pool) => (t, m.pool pool) := by
  unfold Pool.claim?
  cases h : pool.queue.pop? <;> simp [h, Mask.pool]

/-- A change of an element and a view that go together. -/
theorem map_modify {α β : Type} {f : α → β} {g : α → α} {g' : β → β} {l : List α}
    (hg : ∀ a ∈ l, f (g a) = g' (f a)) : (l.modify k g).map f = (l.map f).modify k g' := by
  apply List.ext_getElem?
  intro j
  rw [List.getElem?_map, List.getElem?_modify, List.getElem?_modify, List.getElem?_map]
  cases h : l[j]? with
  | none => rfl
  | some a =>
    split
    · simp [hg a (List.mem_of_getElem? h)]
    · rfl

@[simp] theorem pool_requestExit : m.pool (pool.requestExit k) = (m.pool pool).requestExit k := by
  have crew : (m.pool (pool.requestExit k)).crew = ((m.pool pool).requestExit k).crew :=
    map_modify fun _ _ => rfl
  exact congrArg (fun crew => { m.pool pool with crew }) crew

theorem Lawful.pool_count (law : m.Lawful) (returned : Bool) :
    m.pool (pool.count k returned) = (m.pool pool).count k returned := by
  have crew : (m.pool (pool.count k returned)).crew = ((m.pool pool).count k returned).crew :=
    map_modify fun _ _ => by cases returned <;> simp [member, law.completed, law.panicked]
  exact congrArg (fun crew => { m.pool pool with crew }) crew

end pool

end Mask

end WorkerPool
