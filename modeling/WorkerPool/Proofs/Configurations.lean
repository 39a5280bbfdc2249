import WorkerPool.Proofs.Rejections
import WorkerPool.Proofs.Rest

/-!
Configurations and the pools that are made of them.

A configuration is built by calls that set one field each, and only the last call for a field
counts. A pool is made of it exactly if its first submission can be served: there is room for a
task, the ceiling allows a worker, and the worker can be named.
-/
namespace WorkerPool

namespace Config

/-! ### Fields -/

inductive Field
  | maxThreads
  | maxPending
  | threadName
  | stackSize
  | order
  deriving DecidableEq

/-- The field that a call sets. -/
def Setting.field : Setting → Field
  | .maxThreads _ => .maxThreads
  | .maxPending _ => .maxPending
  | .threadName _ => .threadName
  | .stackSize _ => .stackSize
  | .order _ | .fifo => .order

/-- The configuration has what the call asks for. -/
def Setting.Obeyed : Setting → Config → Prop
  | .maxThreads n, c => c.maxThreads = n
  | .maxPending n, c => c.maxPending = n
  | .threadName name, c => c.threadName = name
  | .stackSize bytes, c => c.stackSize = some bytes
  | .order o, c => c.order = o
  | .fifo, c => c.order = .fifo

/-- Both configurations have the same in this field. -/
def Agree : Field → Config → Config → Prop
  | .maxThreads, c, d => c.maxThreads = d.maxThreads
  | .maxPending, c, d => c.maxPending = d.maxPending
  | .threadName, c, d => c.threadName = d.threadName
  | .stackSize, c, d => c.stackSize = d.stackSize
  | .order, c, d => c.order = d.order

/-- The last of the calls that sets the field. -/
def lastFor (f : Field) (calls : List Setting) : Option Setting :=
  (calls.filter fun call => call.field = f).getLast?

variable {c d e : Config} {f : Field} {call : Setting} {calls calls' : List Setting}

theorem Agree.refl (f : Field) (c : Config) : Agree f c c := by
  cases f <;> rfl

theorem Agree.symm (h : Agree f c d) : Agree f d c := by
  cases f <;> exact Eq.symm h

theorem Agree.trans (h : Agree f c d) (h' : Agree f d e) : Agree f c e := by
  cases f <;> exact Eq.trans h h'

/-- There are no other fields. -/
theorem eq_of_agree (h : ∀ f, Agree f c d) : c = d := by
  obtain ⟨threads, pending, name, stack, order⟩ := c
  obtain rfl : threads = _ := h .maxThreads
  obtain rfl : pending = _ := h .maxPending
  obtain rfl : name = _ := h .threadName
  obtain rfl : stack = _ := h .stackSize
  obtain rfl : order = _ := h .order
  rfl

theorem agree_set_of_ne (h : call.field ≠ f) (c : Config) : Agree f (c.set call) c := by
  cases call <;> cases f <;> first | rfl | exact absurd rfl h

theorem agree_set_field (call : Setting) (c d : Config) :
    Agree call.field (c.set call) (d.set call) := by
  cases call <;> rfl

theorem setAll_concat (c : Config) (calls : List Setting) (call : Setting) :
    c.setAll (calls ++ [call]) = (c.setAll calls).set call := by
  rw [setAll, List.foldl_append]
  rfl

theorem lastFor_concat : lastFor f (calls ++ [call]) =
    if call.field = f then some call else lastFor f calls := by
  rw [lastFor, List.filter_append, List.filter_singleton]
  split
  · next h => simp_all
  · next h => simp_all [lastFor]

theorem field_of_lastFor (h : lastFor f calls = some call) : call.field = f := by
  have hmem := List.mem_of_getLast? h
  simpa using (List.mem_filter.mp hmem).2

/-- Each field is what the last call for it makes of it, and as it was if there is none. -/
theorem agree_setAll (f : Field) (c : Config) (calls : List Setting) :
    Agree f (c.setAll calls) ((lastFor f calls).elim c c.set) := by
  induction calls using List.reverseRecOn with
  | nil => exact .refl f c
  | append_singleton calls call ih =>
    rw [setAll_concat, lastFor_concat]
    split
    · next h =>
      subst h
      exact agree_set_field call _ _
    · next h => exact (agree_set_of_ne h _).trans ih

theorem obeyed_setAll (c : Config) (h : lastFor f calls = some call) :
    call.Obeyed (c.setAll calls) := by
  have agree := agree_setAll f c calls
  rw [h, ← field_of_lastFor h] at agree
  cases call <;> exact agree

theorem setAll_congr (c : Config) (h : ∀ f, lastFor f calls = lastFor f calls') :
    c.setAll calls = c.setAll calls' :=
  eq_of_agree fun f => (agree_setAll f c calls).trans (h f ▸ (agree_setAll f c calls').symm)

theorem lastFor_swap {a b : Setting} (h : a.field ≠ b.field) (before after : List Setting) :
    lastFor f (before ++ b :: a :: after) = lastFor f (before ++ a :: b :: after) := by
  have both : ¬ (a.field = f ∧ b.field = f) := fun hf => h (hf.1.trans hf.2.symm)
  by_cases ha : a.field = f
  · have hb : b.field ≠ f := fun hb => both ⟨ha, hb⟩
    simp [lastFor, List.filter_append, ha, hb]
  · simp [lastFor, List.filter_append, List.filter_cons, ha]

/-! ### Checks -/

/-- What a pool asks of its configuration, and what it says otherwise. -/
structure Check where
  parameter : String
  met : Config → Bool
  complaint : Config → String

/-- All checks, in their order. -/
def checks : List Check :=
  [⟨"max_threads", fun c => 1 ≤ c.maxThreads ∧ c.maxThreads ≤ maxThreadsLimit,
      fun c => outOfRange maxThreadsLimit c.maxThreads⟩,
    ⟨"max_pending", fun c => 1 ≤ c.maxPending ∧ c.maxPending ≤ maxPendingLimit,
      fun c => outOfRange maxPendingLimit c.maxPending⟩,
    ⟨"thread_name_prefix", fun c => '\x00' ∉ c.threadName.toList,
      fun _ => "must not contain null bytes"⟩,
    ⟨"stack_size", fun c => c.stackSize ≠ some 0, fun _ => "must be greater than 0"⟩]

/-- The first check that the configuration does not pass. -/
def firstUnmet (c : Config) : Option Check := checks.find? fun check => !check.met c

theorem create_eq_firstUnmet (c : Config) : Pool.create c =
    match c.firstUnmet with
    | none => .ok (Pool.new c)
    | some check => .error (.invalidArgument check.parameter (check.complaint c)) := by
  unfold Pool.create validate firstUnmet
  by_cases threads : 1 ≤ c.maxThreads ∧ c.maxThreads ≤ maxThreadsLimit
  · by_cases pending : 1 ≤ c.maxPending ∧ c.maxPending ≤ maxPendingLimit
    · by_cases name : '\x00' ∈ c.threadName.toList
      · simp [checks, threads, pending, name]
      · by_cases stack : c.stackSize = some 0
        · simp [checks, threads, pending, name, stack]
        · simp [checks, threads, pending, name, stack]
    · simp only [checks, List.find?_cons, threads, pending]
      simp
  · simp only [checks, List.find?_cons, threads]
    simp

/-- The values with which a pool can be used. -/
structure Usable (c : Config) : Prop where
  threads : 1 ≤ c.maxThreads ∧ c.maxThreads ≤ 20
  pending : 1 ≤ c.maxPending ∧ c.maxPending ≤ 100
  name : '\x00' ∉ c.threadName.toList
  stack : ∀ bytes ∈ c.stackSize, 0 < bytes

theorem usable_iff : c.Usable ↔ c.firstUnmet = none := by
  have stack : c.stackSize ≠ some 0 ↔ ∀ bytes ∈ c.stackSize, 0 < bytes := by
    cases c.stackSize with
    | none => simp
    | some bytes => simp [Nat.pos_iff_ne_zero]
  have met : c.firstUnmet = none ↔ ∀ check ∈ checks, check.met c := by
    simp [firstUnmet, List.find?_eq_none]
  rw [met]
  simp only [checks, List.forall_mem_cons, decide_eq_true_eq, stack]
  constructor
  · rintro ⟨threads, pending, name, stack⟩
    exact ⟨threads, pending, name, stack, by simp⟩
  · rintro ⟨threads, pending, name, stack, -⟩
    exact ⟨threads, pending, name, stack⟩

theorem Usable.create (h : c.Usable) : Pool.create c = .ok (Pool.new c) := by
  rw [create_eq_firstUnmet, usable_iff.mp h]

theorem usable_iff_create : (∃ pool, Pool.create c = .ok pool) ↔ c.Usable := by
  rw [usable_iff, create_eq_firstUnmet]
  cases c.firstUnmet <;> simp

/-! ### Names of workers -/

theorem toList_workerName (c : Config) (k : Nat) :
    (c.workerName k).toList = c.threadName.toList ++ '-' :: Nat.toDigits 10 k := by
  have name : c.workerName k = c.threadName ++ "-" ++ toString k := rfl
  simp [name]

/-- The name of a worker has no null character that the prefix has not. -/
theorem Usable.workerName (h : c.Usable) (k : Nat) : '\x00' ∉ (c.workerName k).toList := by
  rw [toList_workerName]
  intro hmem
  rcases List.mem_append.mp hmem with hmem | hmem
  · exact h.name hmem
  · rcases List.mem_cons.mp hmem with heq | hmem
    · cases heq
    · cases Nat.isDigit_of_mem_toDigits (by decide) (by decide) hmem

end Config

namespace System

variable {s s₁ s₂ s' : System} {i : ThreadId} {p : PoolId} {t : TaskId} {pool : Pool} {c : Config}
  {e : Effect} {err : PoolError} {g h : Trace} {es : List Event} {callers : Nat} {pick : Pick}
  {schedule : List (ThreadId × Action)}

/-! ### Creating pools -/

theorem step_create_usable (usable : c.Usable)
    (hs : s.step i (.call (.createPool c) pick) = some e) :
    e = (s.addPool (Pool.new c), [.log (.created c), .replied (.pool s.pools.length)]) :=
  step_createPool (Pool.create_eq usable.create).1 hs

/-- A configuration that is refused leaves no trace. -/
theorem step_create_refused (refused : Pool.create c = .error err)
    (hs : s.step i (.call (.createPool c) pick) = some e) : e = (s, [.replied (.failed err)]) := by
  cases (step_call hs).2 with
  | rejected hc =>
    obtain rfl : _ = err := Except.error.inj (hc.symm.trans refused)
    rw [System.reply, pop_inCall]
  | createPool hc => cases hc.symm.trans refused

/-! ### First submissions -/

/-- The pool can serve its first submission. -/
structure Ready (s : System) (p : PoolId) (pool : Pool) : Prop where
  at_pool : s.pools[p]? = some pool
  /-- Its queue has room for the task, -/
  room : pool.queue.length < pool.queue.capacity
  accepts : pool.refusal = none
  /-- and it gets a worker for it, which the ceiling allows. -/
  needs : pool.needsWorker
  ceiling : ∀ j, (pool.hire j).crew.length ≤ pool.config.maxThreads
  /-- A submission of a task that its caller has spawns the worker, unless the platform cannot start
  a thread. -/
  spawns : ∀ {i : ThreadId} {t : TaskId} {task : Task} {pick : Pick} {s' : System}
    {es : List Event},
    s.step i (.call (.submit p t) pick) = some (s', es) → s.tasks[t]? = some task →
    task.slot.ownership = .caller →
    match pick.refusal with
    | none => es = [.log (.spawned p 0 pool.config.threadName)] ∧
      s'.pools = s.pools.set p (pool.hire s.threads.length)
    | some cause => s'.pools = s.pools ∧
      ∃ message, es = [.replied (.failed (.spawnFailed 0 message (some cause)))]
  /-- It finds the queue full only if another thread has filled it in the meantime. -/
  filled : ∀ {i : ThreadId} {t : TaskId} {own : List Passage} {h : Trace} {last : Passage}
    {n m : Nat}, Returns s i (.submit p t) own h last (.failed (.tooManyTasks n m)) →
    ∃ j u l, j ≠ i ∧ (j, .log (.submitted p u l)) ∈ h

theorem Run.queue_eq_zero (run : Run callers g s) (hp : s.pools[p]? = some pool)
    (unstaffed : pool.crew = []) : pool.queue.length = 0 := by
  by_contra hq
  obtain ⟨pool', hp', staffed⟩ := run.staffed_of_queued hp (Nat.pos_of_ne_zero hq)
  obtain rfl : pool = pool' := Option.some.inj (hp.symm.trans hp')
  simp [unstaffed] at staffed

theorem Run.filled_meanwhile {own : List Passage} {last : Passage} {n m : Nat}
    (run : Run callers g s) (hp : s.pools[p]? = some pool) (accepts : pool.refusal = none)
    (needs : pool.needsWorker)
    (returns : Returns s i (.submit p t) own h last (.failed (.tooManyTasks n m))) :
    ∃ j u l, j ≠ i ∧ (j, .log (.submitted p u l)) ∈ h := by
  have warrants : s.Warrants p t := by
    obtain ⟨pool', task, hp', -, declines, -⟩ := returns.declines run
    cases returns with
    | atOnce _ _ =>
      obtain rfl : pool = pool' := Option.some.inj (hp.symm.trans hp')
      cases declines with
      | refusal hr => simp [accepts] at hr
    | later under _ _ =>
      obtain ⟨⟨first, waits, -, rfl, ⟨pool₀, task₀, begins⟩, -⟩, -⟩ := under.submission run
      exact ⟨pool, task₀, hp, begins.at_task, accepts, begins.owned, needs⟩
  exact returns.filled run warrants

/-- An open pool that has got no worker yet can serve a submission. -/
theorem Run.ready (run : Run callers g s) (hp : s.pools[p]? = some pool)
    (unstaffed : pool.crew = []) (opened : pool.closed = false) : s.Ready p pool := by
  have balanced := run.books.pools p pool hp
  obtain ⟨threads, pending⟩ := Config.valid_bounds balanced.valid
  have empty := run.queue_eq_zero hp unstaffed
  have room : pool.queue.length < pool.queue.capacity := by
    rw [empty, balanced.capacity]
    exact pending.1
  have size : pool.rosterSize = 0 := by simp [Pool.rosterSize, unstaffed]
  have accepts : pool.refusal = none := by
    simp [Pool.refusal, opened, PendingQueue.isFull, room]
  have needs : pool.needsWorker := by simp [Pool.needsWorker, size]
  refine ⟨hp, room, accepts, needs, fun j => ?ceiling, ?spawns, ?filled⟩
  case ceiling => simpa [Pool.hire, unstaffed] using threads.1
  case spawns =>
    intro i t task pick s' es hs ht owned
    obtain ⟨th, pool', task', -, hp', ht', -, he⟩ := step_submit hs
    obtain rfl : pool = pool' := Option.some.inj (hp.symm.trans hp')
    obtain rfl : task = task' := Option.some.inj (ht.symm.trans ht')
    unfold System.submit at he
    rw [accepts] at he
    simp only [owned, needs, size, ne_eq, not_true_eq_false, if_false, if_true] at he
    cases hstart : pick.refusal with
    | none =>
      simp only [hstart] at he
      obtain ⟨rfl, rfl⟩ := Prod.mk.inj he
      have thread : (s.inCall i).threads.length = s.threads.length := List.length_modify ..
      rw [thread]
      exact ⟨rfl, rfl⟩
    | some cause =>
      simp only [hstart] at he
      obtain ⟨rfl, rfl⟩ := Prod.mk.inj he
      exact ⟨rfl, _, rfl⟩
  case filled => exact run.filled_meanwhile hp accepts needs

/-- A pool keeps its configuration. -/
theorem Run.same_config (run : Run callers g s) (hr : s.replay schedule = some (h, s'))
    (hp : s.pools[p]? = some pool) :
    ∃ pool', s'.pools[p]? = some pool' ∧ pool'.config = pool.config := by
  induction schedule generalizing g h s pool with
  | nil =>
    cases hr
    exact ⟨pool, hp, rfl⟩
  | cons move rest ih =>
    obtain ⟨s₁, es, h₁, hs, hr₁, rfl⟩ := replay_cons hr
    obtain ⟨pool₁, hp₁, hconfig₁, -⟩ := (moves_of_step run.calls hs).opened hp
    obtain ⟨pool₂, hp₂, hconfig₂⟩ := ih (run.step hs) hr₁ hp₁
    exact ⟨pool₂, hp₂, hconfig₂.trans hconfig₁⟩

/-- A pool can serve its first submission from its creation on, until it spawns a worker or is
closed. -/
theorem Run.ready_since (run : Run callers g s) (usable : c.Usable)
    (hs : s.step i (.call (.createPool c) pick) = some (s₁, es))
    (hr : s₁.replay schedule = some (h, s₂)) (unstaffed : h.spawns s.pools.length = [])
    (opened : s₂.isClosed s.pools.length = false) :
    ∃ pool, pool.config = c ∧ s₂.Ready s.pools.length pool := by
  have created := step_create_usable usable hs
  obtain ⟨rfl, rfl⟩ := Prod.mk.inj created
  have hp₁ : (s.addPool (Pool.new c)).pools[s.pools.length]? = some (Pool.new c) := by
    simp [System.addPool]
  have run₁ := run.step hs
  obtain ⟨pool, hp, hconfig⟩ := run₁.same_config hr hp₁
  have empty : pool.crew.length = 0 := by
    have before := run.logged.spawns s.pools.length
    have after := (run₁.replay hr).logged.spawns s.pools.length
    simp only [Trace.spawns, List.filterMap_append] at before after unstaffed
    rw [before, unstaffed] at after
    simpa [size, hp, Event.spawn?] using after
  have ho : pool.closed = false := by simpa [isClosed, hp] using opened
  exact ⟨pool, hconfig, (run₁.replay hr).ready hp (List.length_eq_zero_iff.mp empty) ho⟩

end System

/-! ### Configurations -/

/-- What becomes of the configuration `c` that the calls make of one with the ceiling `n`. -/
structure Config.Decided (n : Nat) (calls : List Config.Setting) (c : Config) : Prop where
  /-- It has what the last call for each field asks for, -/
  obeyed : ∀ f call, lastFor f calls = some call → call.Obeyed c
  /-- and the default of a field that no call is for. -/
  default : ∀ f, lastFor f calls = none → Agree f c (new n)
  /-- No other call counts, -/
  determined : ∀ calls', (∀ f, lastFor f calls' = lastFor f calls) → (new n).setAll calls' = c
  /-- so that calls for different fields may trade places. -/
  commutes : ∀ before a b after, calls = before ++ a :: b :: after → a.field ≠ b.field →
    (new n).setAll (before ++ b :: a :: after) = c
  /-- A pool is made of it exactly if it is usable; -/
  accepted : (∃ pool, Pool.create c = .ok pool) ↔ c.Usable
  /-- otherwise the error names the first parameter at fault. -/
  refused : ¬ c.Usable → ∃ check, c.firstUnmet = some check ∧
    Pool.create c = .error (.invalidArgument check.parameter (check.complaint c))
  /-- Who asks for a pool gets it, -/
  created : c.Usable → ∀ {s : System} {i : ThreadId} {pick : Pick} {e : System.Effect},
    s.step i (.call (.createPool c) pick) = some e →
    e = (s.addPool (Pool.new c), [.log (.created c), .replied (.pool s.pools.length)])
  /-- or the error, and nothing else happens. -/
  unchanged : ∀ {s : System} {i : ThreadId} {pick : Pick} {e : System.Effect} {err : PoolError},
    Pool.create c = .error err → s.step i (.call (.createPool c) pick) = some e →
    e = (s, [.replied (.failed err)])
  /-- Its workers can be named after it. -/
  names : c.Usable → ∀ k,
    (c.workerName k).toList = c.threadName.toList ++ '-' :: Nat.toDigits 10 k ∧
      '\x00' ∉ (c.workerName k).toList
  /-- The pool that is made of it can serve its first submission. -/
  serves : c.Usable → ∀ {callers : Nat} {g h : Trace} {s s₁ s₂ : System} {i : ThreadId}
    {pick : Pick} {es : List Event} {schedule : List (ThreadId × Action)}, System.Run callers g s →
    s.step i (.call (.createPool c) pick) = some (s₁, es) →
    s₁.replay schedule = some (h, s₂) → h.spawns s.pools.length = [] →
    s₂.isClosed s.pools.length = false →
    ∃ pool, pool.config = c ∧ s₂.Ready s.pools.length pool

/-- A configuration is accepted exactly if the pool that is made of it can be used. -/
theorem Config.decided (n : Nat) (calls : List Config.Setting) :
    Config.Decided n calls ((new n).setAll calls) where
  obeyed _ _ h := obeyed_setAll _ h
  default f h := by
    have agree := agree_setAll f (new n) calls
    rwa [h] at agree
  determined calls' h := setAll_congr _ h
  commutes before a b after hcalls hne := by
    rw [hcalls]
    exact setAll_congr _ fun _ => lastFor_swap hne before after
  accepted := usable_iff_create
  refused := fun unusable => by
    obtain ⟨check, hcheck⟩ := Option.ne_none_iff_exists'.mp (mt usable_iff.mpr unusable)
    exact ⟨check, hcheck, by rw [create_eq_firstUnmet, hcheck]⟩
  created usable := System.step_create_usable usable
  unchanged := System.step_create_refused
  names usable k := ⟨toList_workerName _ k, usable.workerName k⟩
  serves usable := fun run hs hr unstaffed opened =>
    run.ready_since usable hs hr unstaffed opened

/-- Calls that take back what earlier ones have asked for. -/
def Config.overwritten : List Config.Setting :=
  [.maxPending 0, .threadName "a\x00b", .stackSize 0, .fifo, .maxPending 1, .stackSize 4096,
    .order .lifo, .threadName "pool"]

theorem decided_overwritten :
    (∃ pool, Pool.create ((Config.new 20).setAll Config.overwritten) = .ok pool) ∧
    (∃ h s pool, System.Run 2 h s ∧ pool.config = (Config.new 20).setAll Config.overwritten ∧
      s.Ready 0 pool) ∧
    Pool.create ((Config.new 20).setAll (Config.overwritten.take 3 ++ [.maxPending 1])) =
      .error (.invalidArgument "thread_name_prefix" "must not contain null bytes") := by
  have usable : ((Config.new 20).setAll Config.overwritten).Usable :=
    ⟨by decide, by decide, by decide, by decide⟩
  have ready {s₁ s₂ : System} {es : List Event} {h : Trace}
      (hs : (System.start 2).step 0
        (.call (.createPool ((Config.new 20).setAll Config.overwritten)) 0) = some (s₁, es))
      (hr : s₁.replay [(1, .call (.createTask none) 0)] = some (h, s₂))
      (unstaffed : h.spawns 0 = []) (opened : s₂.isClosed 0 = false) :
      ∃ h s pool, System.Run 2 h s ∧
        pool.config = (Config.new 20).setAll Config.overwritten ∧ s.Ready 0 pool := by
    obtain ⟨pool, hconfig, ready⟩ :=
      (Config.decided 20 _).serves usable .start hs hr unstaffed opened
    exact ⟨_, s₂, pool, (System.Run.start.step hs).replay hr, hconfig, ready⟩
  refine ⟨(Config.decided 20 _).accepted.mpr usable, ready rfl rfl rfl rfl, ?refused⟩
  have unusable :
      ¬ ((Config.new 20).setAll (Config.overwritten.take 3 ++ [.maxPending 1])).Usable :=
    fun usable => usable.name (by decide)
  obtain ⟨check, hcheck, hcreate⟩ := (Config.decided 20 _).refused unusable
  cases hcheck
  exact hcreate

end WorkerPool
