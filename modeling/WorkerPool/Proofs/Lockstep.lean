import WorkerPool.Proofs.Masks
import WorkerPool.Proofs.Steps

/-!
Steps of masked states.

Every function that a step is made of does to the masked state what it does to the state, and so
does the step, unless it works on something that the mask rewrites in a way of its own.
-/
namespace WorkerPool

namespace Mask

open WorkerPool.System (Effect)

variable {m : Mask} {s : System} {i : ThreadId} {p : PoolId} {t : TaskId} {pool : Pool}
  {task : Task} {th : Thread} {f : Frame}

/-- The state after a step, with what the step shows of user code. -/
def outline (e : Effect) : Effect := (e.1, e.2.filter Event.isCode)

/-! ### The parts of a state -/

theorem apply_threads : (m.apply s).threads = s.threads.map m.thread := rfl

theorem apply_pools : (m.apply s).pools = s.pools.map m.pool := rfl

@[simp] theorem apply_thread? : (m.apply s).threads[i]? = s.threads[i]?.map m.thread := by
  simp [apply]

@[simp] theorem apply_pool? : (m.apply s).pools[p]? = s.pools[p]?.map m.pool := by simp [apply]

@[simp] theorem apply_task? : (m.apply s).tasks[t]? = s.tasks[t]?.map (m.task t) := by
  simp [apply]

@[simp] theorem length_threads : (m.apply s).threads.length = s.threads.length := by simp [apply]

@[simp] theorem length_tasks : (m.apply s).tasks.length = s.tasks.length := by simp [apply]

@[simp] theorem length_pools : (m.apply s).pools.length = s.pools.length := by simp [apply]

theorem apply_onThread {g g' : Thread → Thread} (hg : ∀ th, m.thread (g th) = g' (m.thread th)) :
    m.apply (s.onThread i g) = (m.apply s).onThread i g' := by
  simp only [apply, System.onThread]
  rw [map_modify fun th _ => hg th]

@[simp] theorem apply_push :
    m.apply (s.onThread i (·.push f)) = (m.apply s).onThread i (·.push (m.frame f)) :=
  apply_onThread fun _ => thread_push

@[simp] theorem apply_pop :
    m.apply (s.onThread i Thread.pop) = (m.apply s).onThread i Thread.pop :=
  apply_onThread fun _ => thread_pop

@[simp] theorem apply_enter : m.apply (s.enter i f) = (m.apply s).enter i (m.frame f) :=
  apply_onThread fun _ => thread_replace

@[simp] theorem apply_setPhase (phase : Phase) : m.apply (s.onThread i (·.setPhase phase)) =
    (m.apply s).onThread i (·.setPhase (m.phase phase)) :=
  apply_onThread fun _ => thread_setPhase phase

/-- A worker goes on in other spans. -/
theorem apply_leave (phase : Phase) (spans : Thread → SpanHistory)
    (blind : ∀ th, spans (m.thread th) = spans th) :
    m.apply (s.onThread i fun th => { th.setPhase phase with spans := spans th }) =
      (m.apply s).onThread i fun th =>
        { th.setPhase (m.phase phase) with spans := spans th } := by
  refine apply_onThread fun th => ?_
  have rephased : m.thread (th.setPhase phase) = (m.thread th).setPhase (m.phase phase) :=
    thread_setPhase phase
  rw [blind]
  exact congrArg (fun th' : Thread => { th' with spans := spans th }) rephased

@[simp] theorem apply_setPool :
    m.apply (s.setPool p pool) = (m.apply s).setPool p (m.pool pool) := by
  simp [apply, System.setPool, List.map_set]

@[simp] theorem apply_setTask :
    m.apply (s.setTask t task) = (m.apply s).setTask t (m.task t task) := by
  simp [apply, System.setTask, List.mapIdx_set]

@[simp] theorem apply_setSlot (slot : Slot) :
    m.apply (s.setSlot t slot) = (m.apply s).setSlot t (m.slot t slot) := by
  simp only [apply, System.setSlot, System.mk.injEq, true_and, and_true]
  apply List.ext_getElem?
  intro u
  simp only [List.getElem?_mapIdx, List.getElem?_modify]
  cases s.tasks[u]? with
  | none => rfl
  | some task =>
    split
    · next hu =>
      subst hu
      rfl
    · rfl

@[simp] theorem apply_addPool :
    m.apply (s.addPool pool) = (m.apply s).addPool (m.pool pool) := by
  simp [apply, System.addPool]

@[simp] theorem apply_addTask :
    m.apply (s.addTask task) = (m.apply s).addTask (m.task s.tasks.length task) := by
  simp [apply, System.addTask, List.mapIdx_append]

@[simp] theorem apply_spawn : m.apply (s.spawn th) = (m.apply s).spawn (m.thread th) := by
  simp [apply, System.spawn]

@[simp] theorem apply_wakeAll (c : Condition) :
    m.apply (s.wakeAll c) = (m.apply s).wakeAll c := by
  simp [apply, System.wakeAll, Function.comp_def]

@[simp] theorem apply_sleepers : (m.apply s).sleepers p = s.sleepers p := by
  simp only [System.sleepers, length_threads]
  refine List.filter_congr fun i _ => ?_
  cases h : s.threads[i]? <;> simp [h]

@[simp] theorem apply_wakeOne (pick : Pick) :
    m.apply (s.wakeOne p pick) = (m.apply s).wakeOne p pick := by
  unfold System.wakeOne
  rw [apply_sleepers]
  dsimp only
  split
  · rfl
  · exact apply_onThread fun _ => thread_wake

@[simp] theorem apply_canUse : (m.apply s).canUse p = s.canUse p := by
  cases h : s.pools[p]? <;> simp [System.canUse, h]

@[simp] theorem apply_canShare : (m.apply s).canShare t = s.canShare t := by
  cases h : s.tasks[t]? <;>
    simp [System.canShare, h, Mask.task, apply_threads, Function.comp_def]

@[simp] theorem apply_canOwn : (m.apply s).canOwn t = s.canOwn t := by
  simp [System.canOwn, apply_threads, Function.comp_def]

@[simp] theorem apply_canDrop : (m.apply s).canDrop p = s.canDrop p := by
  simp [System.canDrop, apply_threads, Function.comp_def]

theorem Lawful.references (law : m.Lawful) : (m.apply s).references t = s.references t := by
  have handle : (m.apply s).tasks[t]?.any (·.handle) = s.tasks[t]?.any (·.handle) := by
    cases h : s.tasks[t]? <;> simp [h, Mask.task]
  simp only [System.references, handle, apply_pools, apply_threads, List.foldr_map, pool_queue,
    law.thread_holds]

/-! ### Submissions and joins -/

theorem effect_eq {e e' : Effect} (hs : e'.1 = m.apply e.1)
    (hes : e'.2.filter Event.isCode = e.2.filter Event.isCode) : outline e' = m.effect e :=
  Prod.ext hs hes

@[simp] theorem outline_mk (es : List Event) :
    outline (s, es) = (s, es.filter Event.isCode) := rfl

@[simp] theorem effect_mk (es : List Event) :
    m.effect (s, es) = (m.apply s, es.filter Event.isCode) := rfl

/-- Records and metrics do not show. -/
theorem outline_emit {e : Effect} {es : List Event} (silent : es.filter Event.isCode = []) :
    outline (System.emit es e) = outline e := by
  simp [outline, System.emit, silent]

theorem effect_emit {e : Effect} {es : List Event} (silent : es.filter Event.isCode = []) :
    m.effect (System.emit es e) = m.effect e := by
  simp [effect, System.emit, silent]

/-- Whatever two calls reply, they end in the same way. -/
theorem reply (r r' : Reply) : outline ((m.apply s).reply i r') = m.effect (s.reply i r) := by
  simp [System.reply, Event.isCode]

theorem accept (plain : m.Plain t) (pick : Pick) :
    outline ((m.apply s).accept i p (m.pool pool) t (m.task t task) pick) =
      m.effect (s.accept i p pool t task pick) := by
  unfold System.accept
  simp only [Mask.task, plain.ownership]
  split
  · exact reply _ _
  · simp [System.emit, System.reply, Event.isCode, plain.claim]

theorem submit (plain : m.Plain t) (new : m.stats s.threads.length {} = {}) (pick : Pick) :
    outline ((m.apply s).submit i p (m.pool pool) t (m.task t task) pick) =
      m.effect (s.submit i p pool t task pick) := by
  unfold System.submit
  simp only [pool_refusal, Mask.task, plain.ownership, pool_needsWorker, pool_config,
    pool_rosterSize, pool_unregistered, length_threads]
  split
  · exact reply _ _
  · split
    · exact reply _ _
    · split
      · split
        · simp [Event.isCode, pool_hire new, Mask.thread, role, Mask.phase, frame]
        · exact reply _ _
      · split
        · simp [frame]
        · exact accept plain pick

theorem resumeSubmit (plain : m.Plain t) (pick : Pick) :
    outline ((m.apply s).resumeSubmit i p (m.pool pool) t (m.task t task) pick) =
      m.effect (s.resumeSubmit i p pool t task pick) := by
  unfold System.resumeSubmit
  simp only [pool_refusal, pool_unregistered]
  split
  · simp [frame]
  · split
    · exact reply _ _
    · exact accept plain pick

theorem takeOutcome (plain : m.Plain t) :
    outline ((m.apply s).takeOutcome i t (m.task t task)) =
      m.effect (s.takeOutcome i t task) := by
  simp [System.takeOutcome, System.emit, System.reply, Event.isCode, Mask.task, plain.release]

theorem join (plain : m.Plain t) (bound : Bound) :
    outline ((m.apply s).join i t (m.task t task) bound) = m.effect (s.join i t task bound) := by
  unfold System.join
  simp only [Mask.task, plain.ownership, plain.state]
  split
  · exact reply _ _
  · split
    · exact takeOutcome plain
    · split
      · exact reply _ _
      · simp [frame]

theorem resumeJoin (plain : m.Plain t) (bound : Bound) :
    outline ((m.apply s).resumeJoin i t (m.task t task) bound) =
      m.effect (s.resumeJoin i t task bound) := by
  unfold System.resumeJoin
  simp only [Mask.task, plain.state]
  split
  · exact takeOutcome plain
  · simp [frame]

theorem expireJoin (plain : m.Plain t) (nanos : Nat) :
    outline ((m.apply s).expireJoin i t (m.task t task) nanos) =
      m.effect (s.expireJoin i t task nanos) := by
  unfold System.expireJoin
  simp only [Mask.task, plain.state]
  split
  · exact takeOutcome plain
  · exact reply _ _

/-! ### Giving tasks away -/

theorem letGo (task : Task) {todo todo' : List Disposal} (items : todo.filterMap m.item = todo') :
    outline ((m.apply s).letGo i t (m.task t task) todo') = m.effect (s.letGo i t task todo) := by
  simp [System.letGo, Mask.task, frame, items]

theorem detach (shares : m.Shares t) :
    outline ((m.apply s).detach i t (m.task t task)) = m.effect (s.detach i t task) := by
  have plain := shares.toPlain
  unfold System.detach
  simp only [Mask.task, plain.ownership, plain.state]
  split
  · split
    · rw [← plain.release]
      refine letGo { task with slot := task.slot.release } ?_
      rw [List.filterMap_append, plain.outcomes]
      simp [shares.record, shares.handle]
    · rw [← plain.detach]
      exact letGo { task with slot := task.slot.detach }
        (by simp [shares.record, shares.handle])
  · exact reply _ _
  · exact reply _ _

theorem destroy (shares : m.Shares t) :
    outline ((m.apply s).destroy i t (m.task t task)) = m.effect (s.destroy i t task) := by
  have plain := shares.toPlain
  unfold System.destroy
  simp only [Mask.task, plain.ownership]
  split
  · exact reply _ _
  · exact letGo task (by simp [shares.handle])

/-- The mask keeps the thing, and what user code it runs. -/
def Keeps (m : Mask) : Disposal → Prop
  | .outcome t o => ∃ o', m.item (.outcome t o) = some (.outcome t o') ∧
      o'.returned = o.returned ∧ o'.run = o.run
  | .work t => m.item (.work t) = some (.work t)
  | .handle t => m.Shares t
  | .reference _ => True
  | .record r => ∃ r', m.item (.record r) = some (.record r')

section dispose

variable {todo : List Disposal} {failure : Option Payload} {releasing : Bool}

theorem runDestructor (r : Remains) :
    outline ((m.apply s).runDestructor i r) = m.effect (s.runDestructor i r) := by
  simp [System.runDestructor, frame]

/-- The next thing to let go of shows in the masked state, if there is one. -/
theorem dispose (law : m.Lawful) (keeps : ∀ d rest, todo = d :: rest → m.Keeps d) :
    outline ((m.apply s).dispose i (m.thread th) (todo.filterMap m.item)
      (if releasing then m.failure failure else failure) releasing) =
      m.effect (s.dispose i th todo failure releasing) := by
  have entered (todo : List Disposal) : (m.apply s).enter i (.disposing (todo.filterMap m.item)
      (if releasing then m.failure failure else failure) releasing) =
      m.apply (s.enter i (.disposing todo failure releasing)) := by simp [frame]
  cases todo with
  | nil =>
    simp only [List.filterMap_nil, System.dispose]
    split
    · refine effect_eq ?_ ?_ <;> (split <;> split <;> simp [Event.isCode])
    · split <;> exact reply _ _
  | cons d todo =>
    have kept := keeps d todo rfl
    cases d with
    | outcome t o =>
      obtain ⟨o', item, returned, run⟩ := kept
      simp only [List.filterMap_cons, item, System.dispose, returned, run, entered]
      split
      · exact runDestructor _
      · simp
    | work t =>
      have item : m.item (.work t) = some (.work t) := kept
      simp only [List.filterMap_cons, item, System.dispose, entered]
      exact runDestructor _
    | record r =>
      obtain ⟨r', item⟩ := kept
      simp only [List.filterMap_cons, item, System.dispose, entered]
      refine effect_eq rfl ?_
      split <;> split <;> simp [Event.isCode]
    | handle t =>
      have shares : m.Shares t := kept
      have next : .reference t :: todo.filterMap m.item =
          (.reference t :: todo).filterMap m.item := by simp [law.reference]
      rw [List.filterMap_cons_some shares.handle]
      simp only [System.dispose, apply_task?, next, entered]
      cases h : s.tasks[t]? with
      | none => simp
      | some task =>
        simp only [Option.map_some, Mask.task, shares.isOutstanding]
        split
        · simp only [outline_mk, effect_mk, apply_setSlot, shares.detach]
          rfl
        · rfl
    | reference t =>
      simp only [List.filterMap_cons, law.reference, System.dispose, apply_task?, entered]
      cases h : s.tasks[t]? with
      | none => simp
      | some task =>
        simp only [Option.map_some, Mask.task, law.references]
        split
        · have := law.contents t task.slot
          simp only [Slot.contents] at this
          rw [← this, ← List.filterMap_append, entered]
          simp [law.clear]
        · simp

end dispose

/-! ### Waiting for a pool and shutting it down -/

section shutdown

variable (dropping : Bool)

theorem endShutdown (failure : Option PoolError) :
    outline ((m.apply s).endShutdown i p (m.pool pool) failure dropping) =
      m.effect (s.endShutdown i p pool failure dropping) := by
  unfold System.endShutdown
  split
  · exact reply _ _
  · exact reply _ _
  · simp [System.emit, System.reply, Event.isCode]

theorem finishTeardown (total : Nat) :
    outline ((m.apply s).finishTeardown i p (m.pool pool) total dropping) =
      m.effect (s.finishTeardown i p pool total dropping) := by
  unfold System.finishTeardown
  rw [outline_emit rfl, effect_emit rfl, ← pool_dismiss, ← apply_setPool]
  exact endShutdown dropping none

theorem stopNext (next total : Nat) :
    outline ((m.apply s).stopNext i p (m.pool pool) next total dropping) =
      m.effect (s.stopNext i p pool next total dropping) := by
  unfold System.stopNext
  split
  · simp [frame]
  · exact finishTeardown dropping total

theorem decideShutdown :
    outline ((m.apply s).decideShutdown i p (m.pool pool) dropping) =
      m.effect (s.decideShutdown i p pool dropping) := by
  unfold System.decideShutdown
  rw [pool_isQuiescentFor, pool_rosterSize, ← pool_close]
  split
  · exact stopNext dropping 0 _
  · exact endShutdown dropping _

theorem resumeShutdown :
    outline ((m.apply s).resumeShutdown i p (m.pool pool) dropping) =
      m.effect (s.resumeShutdown i p pool dropping) := by
  unfold System.resumeShutdown
  rw [pool_isQuiescentFor, pool_isSettled]
  split
  · simp [frame]
  · exact decideShutdown dropping

theorem shutdown :
    outline ((m.apply s).shutdown i p (m.pool pool) dropping) =
      m.effect (s.shutdown i p pool dropping) := by
  unfold System.shutdown
  rw [pool_closed]
  split
  · exact endShutdown dropping none
  · exact resumeShutdown dropping

theorem waitIdle :
    outline ((m.apply s).waitIdle i p (m.pool pool) dropping) =
      m.effect (s.waitIdle i p pool dropping) := by
  unfold System.waitIdle
  rw [pool_isQuiescentFor]
  split
  · split
    · simp [frame]
    · exact reply _ _
  · simp [frame]

theorem dropPool :
    outline ((m.apply s).dropPool i p (m.pool pool)) = m.effect (s.dropPool i p pool) := by
  have replied (pool : Pool) : outline (((m.apply s).setPool p (m.pool pool)).reply i .done) =
      m.effect ((s.setPool p pool).reply i .done) := by
    rw [← apply_setPool]
    exact reply _ _
  have waited (pool : Pool) :
      outline (((m.apply s).setPool p (m.pool pool)).waitIdle i p (m.pool pool) true) =
        m.effect ((s.setPool p pool).waitIdle i p pool true) := by
    rw [← apply_setPool]
    exact waitIdle true
  cases hc : pool.closed with
  | true =>
    simp only [System.dropPool, pool_closed, hc, if_true]
    exact replied { pool with closed := true, handle := false }
  | false =>
    simp only [System.dropPool, pool_closed, hc, Bool.false_eq_true, if_false]
    exact waited { pool with closed := false, handle := false }

theorem joinCrew? (next total : Nat) :
    ((m.apply s).joinCrew? i p (m.pool pool) next total dropping).map outline =
      (s.joinCrew? i p pool next total dropping).map m.effect := by
  unfold System.joinCrew?
  cases h : pool.crew[next]? with
  | none => simp [h]
  | some worker =>
    have exited : (m.apply s).threads[worker.thread]?.any Thread.hasExited =
        s.threads[worker.thread]?.any Thread.hasExited := by
      cases hth : s.threads[worker.thread]? <;> simp [hth]
    simp only [pool_crew, List.getElem?_map, h, Option.map_some, member, exited]
    split
    · rw [Option.map_some, Option.map_some, outline_emit rfl, effect_emit rfl]
      exact congrArg some (stopNext dropping (next + 1) total)
    · split
      · exact congrArg some (stopNext dropping (next + 1) total)
      · rfl

end shutdown

/-! ### Workers -/

section worker

variable (k : Nat)

theorem proceed :
    outline ((m.apply s).proceed i p (m.pool pool) k) = m.effect (s.proceed i p pool k) := by
  unfold System.proceed
  rw [pool_exitRequested, pool_claim?]
  split
  · exact effect_eq
      (apply_leave .exited (fun th => th.spans.leave (some .worker)) fun _ => rfl).symm rfl
  · cases h : pool.claim? with
    | none => simp [Mask.phase]
    | some x => simp [Event.isCode, Mask.phase]

theorem apply_settled :
    m.apply (s.settled i p pool) = (m.apply s).settled i p (m.pool pool) := by
  unfold System.settled
  rw [pool_isQuiescentFor]
  split <;> simp [Mask.phase]

theorem settle :
    outline ((m.apply s).settle i p (m.pool pool) k) = m.effect (s.settle i p pool k) := by
  unfold System.settle
  rw [← apply_settled]
  exact proceed k

theorem register :
    outline ((m.apply s).register i p (m.pool pool) k) = m.effect (s.register i p pool k) := by
  have entered :
      m.apply (s.onThread i fun th => { th with spans := th.spans.enter (some .worker) }) =
        (m.apply s).onThread i fun th => { th with spans := th.spans.enter (some .worker) } :=
    apply_onThread fun _ => rfl
  unfold System.register
  rw [outline_emit rfl, effect_emit rfl, ← entered, ← apply_wakeAll, ← pool_register]
  exact settle k

/-- What the mask keeps of the task in the hands of a worker. -/
def Carries (m : Mask) (s : System) : Phase → Prop
  | .holding t => m.Plain t ∧ ∀ task, s.tasks[t]? = some task → task.slot.work = false →
      ∀ ending, m.outcome t ⟨task.runs, ending⟩ = ⟨task.runs, ending⟩
  | .running t => ∀ task, s.tasks[t]? = some task →
      ∀ ending, m.outcome t ⟨task.runs, ending⟩ = ⟨task.runs, ending⟩
  | .stashing t _ o => m.Plain t ∧ (m.outcome t o).returned = m.returned t o.returned
  | .stashed t returned => m.returned t returned = returned
  | .counted t => m.Plain t
  | .starting | .parked _ | .releasing | .exited => True

theorem begin (plain : m.Plain t) (empty : task.slot.work = false →
    ∀ ending, m.outcome t ⟨task.runs, ending⟩ = ⟨task.runs, ending⟩) :
    outline ((m.apply s).begin i t (m.task t task)) = m.effect (s.begin i t task) := by
  simp only [System.begin, Mask.task, plain.work_eq]
  cases hw : task.slot.work with
  | true =>
    simp only [if_true]
    refine effect_eq ?_ rfl
    rw [apply_onThread fun th => ?_, apply_setTask, Mask.task, plain.start]
    obtain ⟨role, calls, spans⟩ := th
    cases role <;> rfl
  | false =>
    simp only [Bool.false_eq_true, if_false]
    refine effect_eq ?_ rfl
    rw [apply_onThread fun th => ?_, apply_setTask, Mask.task, plain.start]
    obtain ⟨role, calls, spans⟩ := th
    cases role <;> simp [Thread.setPhase, Mask.thread, role, Mask.phase, empty hw]

theorem endWork (ending : Except Payload Value)
    (own : ∀ ending, m.outcome t ⟨task.runs, ending⟩ = ⟨task.runs, ending⟩) :
    outline ((m.apply s).endWork i t (m.task t task) ending) =
      m.effect (s.endWork i t task ending) := by
  refine effect_eq ?_ rfl
  have left := apply_leave (m := m) (s := s) (i := i) (.stashing t true ⟨task.runs, .of ending⟩)
    (fun th => th.spans.leave task.captured) fun _ => rfl
  rw [Mask.phase, own] at left
  exact left.symm

theorem stash (plain : m.Plain t) {work : Bool} {o : Outcome}
    (returned : (m.outcome t o).returned = m.returned t o.returned) :
    outline ((m.apply s).stash i t (m.task t task) work (m.outcome t o)) =
      m.effect (s.stash i t task work o) := by
  simp [System.stash, Mask.task, plain.stash, Mask.phase, returned]

theorem count (law : m.Lawful) (returned : Bool) :
    outline ((m.apply s).count i p (m.pool pool) k t returned) =
      m.effect (s.count i p pool k t returned) := by
  refine effect_eq ?_ rfl
  have left := apply_leave (m := m) (s := s.setPool p (pool.count k returned)) (i := i) (.counted t)
    (fun th => th.spans.leave (some .execution)) fun _ => rfl
  rw [apply_setPool, law.pool_count] at left
  exact left.symm

theorem apply_published (plain : m.Plain t) : m.apply (s.published i p pool t task) =
    (m.apply s).published i p (m.pool pool) t (m.task t task) := by
  have owned : (m.task t task).slot.ownership = task.slot.ownership := plain.ownership
  unfold System.published
  rw [owned]
  split <;> simp [plain.complete, Mask.task]

theorem apply_retired (law : m.Lawful) (plain : m.Plain t) :
    m.apply (s.retired i p pool t task) =
      (m.apply s).retired i p (m.pool pool) t (m.task t task) := by
  rw [System.retired_eq, System.retired_eq, apply_push, apply_setPhase, apply_published plain]
  simp [frame, law.reference, law.calm, plain.leftovers, Mask.task, Mask.phase]

theorem retire (law : m.Lawful) (plain : m.Plain t) :
    outline ((m.apply s).retire i p (m.pool pool) k t (m.task t task)) =
      m.effect (s.retire i p pool k t task) := by
  refine effect_eq (apply_retired law plain).symm ?_
  simp only [System.retire]
  split <;> split <;> simp [Event.isCode]

theorem work? (law : m.Lawful) {phase : Phase} (carries : m.Carries s phase) :
    ((m.apply s).work? i p k (m.phase phase)).map outline = (s.work? i p k phase).map m.effect := by
  unfold System.work?
  rw [apply_pool?]
  cases hp : s.pools[p]? with
  | none => rfl
  | some pool =>
    simp only [Option.map_some, Option.bind_eq_bind, Option.bind_some]
    cases phase with
    | starting => exact congrArg some (register k)
    | parked woken =>
      cases woken with
      | true => exact congrArg some (proceed k)
      | false => rfl
    | holding t =>
      obtain ⟨plain, empty⟩ := carries
      cases ht : s.tasks[t]? with
      | none => simp [Mask.phase, ht]
      | some task => simpa [Mask.phase, ht] using begin plain (empty task ht)
    | running t => rfl
    | stashing t work o =>
      obtain ⟨plain, returned⟩ := carries
      cases ht : s.tasks[t]? with
      | none => simp [Mask.phase, ht]
      | some task => simpa [Mask.phase, ht] using stash plain returned
    | stashed t returned =>
      have same : m.returned t returned = returned := carries
      simpa [Mask.phase, same] using count k law returned
    | counted t =>
      cases ht : s.tasks[t]? with
      | none => simp [Mask.phase, ht]
      | some task => simpa [Mask.phase, ht] using retire k law carries
    | releasing =>
      refine congrArg some ?_
      rw [← pool_released]
      exact settle k
    | exited => rfl

end worker

/-! ### Steps -/

/-- What the mask keeps of the call that a thread is in. -/
def Passes (m : Mask) : Frame → Prop
  | .awaitingWorker _ t _ | .awaitingOutcome t _ _ => m.Plain t
  | .disposing (d :: _) _ _ => m.Keeps d
  | _ => True

/-- The step of the thread works on nothing that the mask rewrites in a way of its own. -/
structure Fits (m : Mask) (s : System) (th : Thread) (a : Action) : Prop where
  new : m.Plain s.tasks.length
  hired : m.stats s.threads.length {} = {}
  shares : ∀ t task, s.tasks[t]? = some task → task.handle → m.Shares t
  passes : ∀ f rest, th.calls = f :: rest → m.Passes f
  carries : ∀ p k phase, th.calls = [] → th.role = .worker p k phase → m.Carries s phase
  panics : ∀ payload todo failure rest, a = .finish (.error payload) →
    th.calls = .destructor :: .disposing todo failure true :: rest →
    m.failure (failure.or (some payload)) = (m.failure failure).or (some payload)

/-- An operation on a task runs in the masked state as it does in the state. -/
theorem onTask {own own' : Bool} {g g' : Task → Effect} (same : own' = own)
    (hg : ∀ task, s.tasks[t]? = some task → own →
      outline (g' (m.task t task)) = m.effect (g task)) :
    ((do let task ← (m.apply s).tasks[t]?
         if own' then some (g' task) else none : Option Effect)).map outline =
      (do let task ← s.tasks[t]?
          if own then some (g task) else none : Option Effect).map m.effect := by
  subst same
  cases ht : s.tasks[t]? with
  | none => simp [ht]
  | some task => cases own' <;> simp_all

theorem onPool {may may' : Bool} {g g' : Pool → Effect} (same : may' = may)
    (hg : ∀ pool, outline (g' (m.pool pool)) = m.effect (g pool)) :
    ((do let pool ← (m.apply s).pools[p]?
         if may' then some (g' pool) else none : Option Effect)).map outline =
      (do let pool ← s.pools[p]?
          if may then some (g pool) else none : Option Effect).map m.effect := by
  subst same
  cases hp : s.pools[p]? with
  | none => simp [hp]
  | some pool => cases may' <;> simp_all

/-- The handle of a task in a call is there. -/
theorem handle_of_canShare (ht : s.tasks[t]? = some task) (h : s.canShare t) :
    task.handle := by
  simp only [System.canShare, ht, Option.any_some, Bool.and_eq_true] at h
  exact h.1

theorem call? {op : Operation} {pick : Pick} {a : Action} (fits : m.Fits s th a) :
    ((m.apply s).call? i op pick).map outline = (s.call? i op pick).map m.effect := by
  have begun : (m.apply s).onThread i (·.push (.disposing [] none false)) =
      m.apply (s.onThread i (·.push (.disposing [] none false))) := by simp [frame]
  have shares (t : TaskId) (task : Task) (ht : s.tasks[t]? = some task) (own : s.canOwn t) :
      m.Shares t :=
    fits.shares t task ht (handle_of_canShare ht (Bool.and_eq_true _ _ ▸ own).1)
  cases op with
  | createPool config =>
    simp only [System.call?]
    split
    · exact congrArg some (begun ▸ reply _ _)
    · next pool hp =>
      have new : m.pool pool = pool := by
        rw [(Pool.create_eq hp).2]
        rfl
      refine congrArg some ?_
      rw [outline_emit rfl, effect_emit rfl]
      refine effect_eq ?_ rfl
      simp [System.reply, new, frame]
  | createTask captured =>
    refine congrArg some (effect_eq ?_ rfl)
    have new : m.task s.tasks.length { captured } = { captured } := by
      simp [Mask.task, fits.new.slot]
    simp only [System.reply, apply_pop, apply_addTask, begun]
    exact congrArg (fun task => ((m.apply _).addTask task).onThread i Thread.pop) new.symm
  | submit p t =>
    simp only [System.call?, apply_pool?, apply_task?, apply_canUse, apply_canShare, begun]
    cases hp : s.pools[p]? with
    | none => rfl
    | some pool =>
      cases ht : s.tasks[t]? with
      | none => rfl
      | some task =>
        simp only [Option.map_some, Option.bind_eq_bind, Option.bind_some]
        split
        · next may =>
          have share : s.canShare t := (Bool.and_eq_true _ _ ▸ may).2
          refine congrArg some (submit ?_ ?_ pick)
          · exact (fits.shares t task ht (handle_of_canShare ht share)).toPlain
          · rw [System.onThread, List.length_modify]
            exact fits.hired
        · rfl
  | join t bound =>
    exact onTask apply_canOwn fun task ht own => begun ▸ join (shares t task ht own).toPlain bound
  | detach t =>
    exact onTask apply_canOwn fun task ht own => begun ▸ detach (shares t task ht own)
  | destroy t =>
    exact onTask apply_canOwn fun task ht own => begun ▸ destroy (shares t task ht own)
  | drop t =>
    exact onTask apply_canOwn fun task ht own =>
      begun ▸ letGo task (by simp [(shares t task ht own).handle])
  | waitIdle p => exact onPool apply_canUse fun pool => begun ▸ waitIdle false
  | shutdown p => exact onPool apply_canUse fun pool => begun ▸ shutdown false
  | dropPool p => exact onPool apply_canDrop fun pool => begun ▸ dropPool

/-- A lookup of a task, and what follows. -/
theorem withTask {g g' : Task → Effect}
    (hg : ∀ task, s.tasks[t]? = some task → outline (g' (m.task t task)) = m.effect (g task)) :
    ((do return g' (← (m.apply s).tasks[t]?) : Option Effect)).map outline =
      (do return g (← s.tasks[t]?) : Option Effect).map m.effect := by
  cases ht : s.tasks[t]? with
  | none => simp [ht]
  | some task => simp [ht, hg task ht]

theorem withPool {g g' : Pool → Effect}
    (hg : ∀ pool, outline (g' (m.pool pool)) = m.effect (g pool)) :
    ((do return g' (← (m.apply s).pools[p]?) : Option Effect)).map outline =
      (do return g (← s.pools[p]?) : Option Effect).map m.effect := by
  cases hp : s.pools[p]? with
  | none => simp [hp]
  | some pool => simp [hp, hg pool]

theorem finish? {ending : Except Payload Value} (fits : m.Fits s th (.finish ending)) :
    ((m.apply s).finish? i (m.thread th) ending).map outline =
      (s.finish? i th ending).map m.effect := by
  unfold System.finish?
  cases hc : th.calls with
  | nil =>
    cases hr : th.role with
    | caller => simp [hc, hr, role]
    | worker p k phase =>
      have carries := fits.carries p k phase hc hr
      cases phase with
      | running t =>
        simp only [thread_calls, hc, List.map_nil, thread_role, hr, role, Mask.phase]
        exact withTask fun task ht => endWork ending (carries task ht)
      | _ => simp [hc, hr, role, Mask.phase]
  | cons f rest =>
    cases f with
    | destructor =>
      cases rest with
      | nil => simp [hc, frame]
      | cons f rest =>
        cases f with
        | disposing todo failure releasing =>
          simp only [thread_calls, hc, List.map_cons, frame]
          refine congrArg some (effect_eq ?_ rfl)
          cases ending with
          | ok v => simp [frame]
          | error payload =>
            cases releasing with
            | true =>
              have met := fits.panics payload todo failure rest rfl hc
              simp only [apply_enter, apply_pop, frame, if_true, met]
            | false => simp [frame]
        | _ => simp [hc, frame]
    | _ => simp [hc, frame]

theorem advance? {pick : Pick} (law : m.Lawful) (fits : m.Fits s th (.advance pick)) :
    ((m.apply s).advance? i (m.thread th) pick).map outline =
      (s.advance? i th pick).map m.effect := by
  unfold System.advance?
  cases hc : th.calls with
  | nil =>
    cases hr : th.role with
    | caller => simp [hc, hr, role]
    | worker p k phase =>
      simp only [thread_calls, hc, List.map_nil, thread_role, hr, role]
      exact work? k law (fits.carries p k phase hc hr)
  | cons f rest =>
    have passes := fits.passes f rest hc
    simp only [thread_calls, hc, List.map_cons]
    cases f with
    | awaitingWorker p t woken =>
      cases woken with
      | true =>
        simp only [frame, apply_pool?, apply_task?]
        cases s.pools[p]? with
        | none => rfl
        | some pool =>
          cases s.tasks[t]? with
          | none => rfl
          | some task => exact congrArg some (resumeSubmit passes pick)
      | false => rfl
    | awaitingOutcome t bound woken =>
      cases woken with
      | true => exact withTask fun task _ => resumeJoin passes bound
      | false => rfl
    | awaitingIdle p dropping woken =>
      cases woken with
      | true => exact withPool fun pool => waitIdle dropping
      | false => rfl
    | closing p dropping => exact withPool fun pool => shutdown dropping
    | awaitingReleases p dropping woken =>
      cases woken with
      | true => exact withPool fun pool => resumeShutdown dropping
      | false => rfl
    | joiningCrew p next total dropping =>
      simp only [frame, apply_pool?]
      cases s.pools[p]? with
      | none => rfl
      | some pool => exact joinCrew? dropping next total
    | disposing todo failure releasing =>
      refine congrArg some (dispose law fun d rest' h => ?_)
      subst h
      exact passes
    | destructor => rfl

theorem expire? {a : Action} (fits : m.Fits s th a) :
    ((m.apply s).expire? i (m.thread th)).map outline = (s.expire? i th).map m.effect := by
  unfold System.expire?
  cases hc : th.calls with
  | nil => simp [hc]
  | cons f rest =>
    have passes := fits.passes f rest hc
    simp only [thread_calls, hc, List.map_cons]
    cases f with
    | awaitingOutcome t bound woken =>
      cases woken <;> cases bound <;> try rfl
      exact withTask fun task _ => expireJoin passes _
    | _ => rfl

/-- A step of the masked state is the masked step. -/
theorem step {a : Action} (law : m.Lawful)
    (fits : ∀ th, s.threads[i]? = some th → m.Fits s th a) :
    ((m.apply s).step i a).map outline = (s.step i a).map m.effect := by
  unfold System.step
  rw [apply_thread?]
  cases hth : s.threads[i]? with
  | none => rfl
  | some th =>
    have fits := fits th hth
    simp only [Option.map_some, Option.bind_eq_bind, Option.bind_some]
    cases a with
    | call op pick =>
      simp only [thread_inUserCode]
      split
      · exact call? fits
      · rfl
    | finish ending => exact finish? fits
    | advance pick => exact advance? law fits
    | expire => exact expire? fits

section lockstep

variable {a : Action} {s' w : System} {es : List Event}

/-- What the state can do, the masked state can do. -/
theorem step_some (law : m.Lawful) (fits : ∀ th, s.threads[i]? = some th → m.Fits s th a)
    (hs : s.step i a = some (s', es)) : ∃ es', (m.apply s).step i a = some (m.apply s', es') ∧
      es'.filter Event.isCode = es.filter Event.isCode := by
  have same := step law fits
  rw [hs] at same
  obtain ⟨⟨w, es'⟩, hw, he⟩ := Option.map_eq_some_iff.mp same
  obtain ⟨rfl, hes⟩ := Prod.mk.inj he
  exact ⟨es', hw, hes⟩

/-- Whether a step is possible shows in the masked state. -/
theorem isSome_step (law : m.Lawful) (fits : ∀ th, s.threads[i]? = some th → m.Fits s th a) :
    ((m.apply s).step i a).isSome = (s.step i a).isSome := by
  simpa using congrArg Option.isSome (step law fits)

/-- What the masked state can do, the state can do. -/
theorem of_step (law : m.Lawful) (fits : ∀ th, s.threads[i]? = some th → m.Fits s th a)
    (hs : (m.apply s).step i a = some (w, es)) : ∃ s' es', s.step i a = some (s', es') ∧
      m.apply s' = w ∧ es'.filter Event.isCode = es.filter Event.isCode := by
  have same := step law fits
  rw [hs] at same
  obtain ⟨⟨s', es'⟩, hs', he⟩ := Option.map_eq_some_iff.mp same.symm
  obtain ⟨hw, hes⟩ := Prod.mk.inj he
  exact ⟨s', es', hs', hw, hes⟩

end lockstep

end Mask

end WorkerPool
