import WorkerPool.Proofs.Partings
import WorkerPool.Proofs.QuietRelease

/-!
Handles of tasks that a pool owns.

Whether such a handle is detached or dropped makes no difference as long as there is no value: the
same invocations, counts and destructors follow, and the work is destroyed last. A value that is
there already is destroyed at once by a detachment. The drop of the handle leaves it in the slot,
and whoever lets go of the last reference destroys the work before it.
-/
namespace WorkerPool

/-- The task has finished with a value, and no join has taken it. -/
def Slot.hasValue (slot : Slot) : Bool := slot.state = .finished ∧ slot.outcome.any (·.returned)

namespace Mask

variable {s : System} {i : ThreadId} {t : TaskId} {given taken : Bool} {todo : List Disposal}

theorem parting_role (role : Role) : (parting t given taken).role role = role := by
  cases role with
  | caller => rfl
  | worker p k phase => cases phase <;> rfl

theorem parting_pool (pool : Pool) : (parting t given taken).pool pool = pool := by
  have member (x : Member) : (parting t given taken).member x = x := rfl
  simp [Mask.pool, funext member]

/-- References are not rewritten. -/
theorem parting_frame {f : Frame} (refs : System.References t i f.todo) :
    (parting t given taken).frame f = f := by
  cases f with
  | disposing todo failure releasing =>
    have items : todo.filterMap (parting t given taken).item = todo := by
      rw [List.filterMap_congr (g := some) fun d hd => ?_, List.filterMap_some]
      by_cases about : d.about t
      · rw [refs d hd about]
        rfl
      · refine parting_item (fun _ => ?_) fun _ => ?_
        · cases d with
          | record r => cases r <;> simp_all [Disposal.gives, Disposal.about]
          | _ => simp_all [Disposal.gives, Disposal.about]
        · cases d <;> simp_all [Disposal.comesOut, Disposal.about]
    simp only [frame, items]
    split <;> rfl
  | _ => rfl

/-- As long as only references to the task are let go of, the mask rewrites its slot at most. -/
theorem parting_setTask (refs : s.Todos (System.References t)) (new : Task) :
    (parting t given taken).apply (s.setTask t new) =
      s.setTask t ((parting t given taken).task t new) := by
  have threads : s.threads.map (parting t given taken).thread = s.threads := by
    refine (List.map_congr_left fun th hth => ?_).trans (List.map_id _)
    obtain ⟨j, hj⟩ := List.getElem?_of_mem hth
    have calls : th.calls.map (parting t given taken).frame = th.calls :=
      (List.map_congr_left fun f hf => parting_frame (refs j th hj f hf)).trans (List.map_id _)
    simp [thread, parting_role, calls]
  have pools : s.pools.map (parting t given taken).pool = s.pools :=
    (List.map_congr_left fun pool _ => parting_pool pool).trans (List.map_id _)
  have tasks : (s.tasks.set t new).mapIdx (parting t given taken).task =
      s.tasks.set t ((parting t given taken).task t new) := by
    apply List.ext_getElem?
    intro u
    rw [List.getElem?_mapIdx, List.getElem?_set, List.getElem?_set]
    by_cases hu : t = u
    · subst hu
      by_cases ht : t < s.tasks.length <;> simp [ht]
    · cases s.tasks[u]? <;> simp [hu, Mask.task, parting, Ne.symm hu]
  simp only [apply, System.setTask, threads, pools, tasks]

end Mask

namespace System

variable {callers : Nat} {h h' g : Trace} {s s' u v : System} {i j : ThreadId} {t : TaskId}
  {task : Task} {slot : Slot} {todo : List Disposal} {given given' taken taken' values : Bool}
  {th : Thread} {σ : List (ThreadId × Action)} {o : Outcome} {a : Action} {es : List Event}

/-! ### Giving up a handle -/

/-- The thread has given up the handle of the task, and is to let go of these things. -/
def givenUp (s : System) (i : ThreadId) (t : TaskId) (slot : Slot) (todo : List Disposal) :
    System :=
  (s.setTask t { s.task t with slot, handle := false }).onThread i
    (·.push (.disposing todo none false))

theorem letGo_inCall (ht : s.tasks[t]? = some task) (slot : Slot) (todo : List Disposal) :
    (s.inCall i).letGo i t { task with slot } todo = (s.givenUp i t slot todo, []) := by
  have entered : ((s.setTask t { task with slot, handle := false }).onThread i
      (·.push (.disposing [] none false))).enter i (.disposing todo none false) =
      (s.setTask t { task with slot, handle := false }).onThread i
        (·.push (.disposing todo none false)) := by
    rw [enter, onThread_onThread]
    rfl
  rw [givenUp, task_eq ht]
  exact congrArg (·, []) entered

theorem givenUp_inside (hth : s.threads[i]? = some th) :
    (s.givenUp i t slot todo).Inside i (.disposing todo none false :: th.calls) :=
  ⟨th.push (.disposing todo none false), by simp [givenUp, onThread, setTask, hth], rfl⟩

theorem givenUp_enter (todo' : List Disposal) :
    (s.givenUp i t slot todo).enter i (.disposing todo' none false) =
      s.givenUp i t slot todo' := by
  rw [givenUp, enter, onThread_onThread]
  rfl

theorem givenUp_task (ht : s.tasks[t]? = some task) :
    (s.givenUp i t slot todo).tasks[t]? = some { task with slot, handle := false } := by
  have hlt : t < s.tasks.length := (List.getElem?_eq_some_iff.mp ht).1
  simp [givenUp, onThread, setTask, hlt, task_eq ht]

theorem givenUp_setSlot (ht : s.tasks[t]? = some task) (slot' : Slot) :
    (s.givenUp i t slot todo).setSlot t slot' = s.givenUp i t slot' todo := by
  rw [setSlot_eq (givenUp_task ht)]
  simp [givenUp, onThread, setTask, task_eq ht]

theorem givenUp_record (ht : s.tasks[t]? = some task) :
    (s.givenUp i t slot todo).record t = { s.record t with slot, handle := false } := by
  rw [givenUp, record_push, record_setTask ht]
  rfl

section calls

variable (pick : Pick) (hth : s.threads[i]? = some th) (code : th.inUserCode)
  (ht : s.tasks[t]? = some task) (own : s.canOwn t)

include hth code ht own

theorem step_detach (ho : task.slot.ownership = .pool) (hs : task.slot.state ≠ .finished) :
    s.step i (.call (.detach t) pick) =
      some (s.givenUp i t task.slot.detach [.record (.detached t), .handle t], []) := by
  have called : s.step i (.call (.detach t) pick) = some ((s.inCall i).detach i t task) := by
    simp [System.step, hth, code, call?, ht, own, inCall]
  rw [called, detach, ho]
  simp only [hs, if_false]
  exact congrArg some (letGo_inCall ht _ _)

theorem step_detachFinished (ho : task.slot.ownership = .pool)
    (hs : task.slot.state = .finished) : s.step i (.call (.detach t) pick) =
      some (s.givenUp i t task.slot.release
        (task.slot.outcome.toList.map (.outcome t) ++ [.record (.detached t), .handle t]), []) := by
  have called : s.step i (.call (.detach t) pick) = some ((s.inCall i).detach i t task) := by
    simp [System.step, hth, code, call?, ht, own, inCall]
  rw [called, detach, ho]
  simp only [hs, if_true]
  exact congrArg some (letGo_inCall ht _ _)

theorem step_drop : s.step i (.call (.drop t) pick) =
    some (s.givenUp i t task.slot [.handle t], []) := by
  have called : s.step i (.call (.drop t) pick) =
      some ((s.inCall i).letGo i t { task with slot := task.slot } [.handle t]) := by
    simp [System.step, hth, code, call?, ht, own, inCall]
  rw [called, letGo_inCall ht]

/-- The drop of a handle detaches a task that is outstanding. -/
theorem replay_drop : ∃ d, Trace.code d = [] ∧ Trace.yielded d t (·.returned) = 0 ∧
    s.replay [(i, .call (.drop t) pick), (i, .advance 0)] = some (d, s.givenUp i t
      (if task.slot.isOutstanding then task.slot.detach else task.slot) [.reference t]) := by
  have dropped := replay_one (step_drop pick hth code ht own)
  have inside : (s.givenUp i t task.slot [.handle t]).Inside i
      (.disposing [.handle t] none false :: th.calls) := givenUp_inside hth
  obtain ⟨th', he⟩ := inside.advance 0
  simp only [dispose, givenUp_task ht] at he
  split at he
  · next out =>
    rw [givenUp_enter, givenUp_setSlot ht] at he
    refine ⟨_, ?_, ?_, by rw [if_pos out]; exact replay_append dropped (replay_one he)⟩ <;> rfl
  · next out =>
    rw [givenUp_enter] at he
    refine ⟨_, ?_, ?_, by rw [if_neg out]; exact replay_append dropped (replay_one he)⟩ <;> rfl

end calls

/-- A masked handle that has been given up. -/
theorem apply_givenUp (refs : s.Todos (References t)) :
    (Mask.parting t given taken).apply (s.givenUp i t slot todo) =
      s.givenUp i t (if taken then slot.release else slot)
        (todo.filterMap (Mask.parting t given taken).item) := by
  rw [givenUp, Mask.apply_push, Mask.parting_setTask refs]
  simp only [Mask.frame, Mask.task, Bool.false_eq_true, if_false]
  congr 2
  simp [Mask.parting]

theorem givenUp_parted (refs : s.Todos (References t)) (ht : s.tasks[t]? = some task)
    (isOver : slot.ownership ≠ .pool ∨ slot.state = .finished)
    (free : taken → (s.record t).bearing = (fun _ => none) ∧ (s.record t).queued = fun _ => 0)
    (gives : ∀ d ∈ todo, d.gives t → given) : (s.givenUp i t slot todo).Parted t given taken where
  isOver := by
    rw [givenUp_record ht]
    exact ⟨rfl, isOver⟩
  loose tk := by
    rw [givenUp_record ht]
    exact ⟨rfl, (free tk).1, (free tk).2⟩
  todos := by
    have each : s.Todos (Parting t given) := fun j th hth f hf d hd hg => by
      have about : d.about t := by
        cases d with
        | record r => cases r <;> simp_all [Disposal.gives, Disposal.about]
        | _ => simp_all [Disposal.gives, Disposal.about]
      rw [refs j th hth f hf d hd about] at hg
      cases hg
    exact Frames.push (s := s.setTask t _) each gives

/-! ### The same continuations -/

/-- Whatever comes after the first state comes after the second one, under the same schedule up to
what the threads silently let go of, with the same pools and the same user code. -/
def Follows (t : TaskId) (values : Bool) (u v : System) : Prop :=
  ∀ σ h u', u.replay σ = some (h, u') → ∃ σ' common h' v',
    Trims t false u σ common ∧ Trims t values v σ' common ∧ v.replay σ' = some (h', v') ∧
    v'.pools = u'.pools ∧
    h'.codeBut (Event.destroysValue t values) = h.codeBut (Event.destroysValue t values)

theorem pools_parting : ((Mask.parting t given taken).apply s).pools = s.pools := by
  rw [Mask.apply_pools]
  exact (List.map_congr_left fun pool _ => Mask.parting_pool pool).trans (List.map_id _)

/-- States that look the same with masks are followed by the same. -/
theorem Parted.follows (runs : Run callers h u) (parted : u.Parted t given taken)
    (valueless : taken → u.holdings t (·.returned) = 0) (runs' : Run callers h' v)
    (parted' : v.Parted t given' taken')
    (valueless' : values = false → taken' → v.holdings t (·.returned) = 0)
    (same : (Mask.parting t given taken).apply u = (Mask.parting t given' taken').apply v) :
    Follows t values u v := by
  intro σ g u' hr
  obtain ⟨common, g', trims, code, hr'⟩ := parted.projects runs valueless hr
  obtain ⟨σ', g'', v', trims', hr'', hv, code'⟩ := parted'.lifts runs' valueless' (same ▸ hr')
  refine ⟨σ', common, g'', v', trims, trims', hr'', ?_, code'.trans (Trace.codeBut_of_code code)⟩
  rw [← pools_parting (s := v'), hv, pools_parting]

/-! ### The order of destructors -/

/-- When the destructor of the work begins, every value has been let go of. -/
def WorkLast (s : System) (t : TaskId) : Prop :=
  ∀ σ h s', s.replay σ = some (h, s') → h.discarded t = 0 ∨ s'.holdings t (·.returned) = 0

/-- No destructor of a value begins before that of the work. -/
def WorkFirst (s : System) (t : TaskId) : Prop :=
  ∀ σ h s', s.replay σ = some (h, s') → h.destroyed t = [] ∨ h.discarded t = 1

/-- An empty slot holds no outcome either. -/
theorem Run.outcome_of_work (run : Run callers h s) (hw : (s.task t).slot.work = false) :
    (s.task t).slot.outcome = none := by
  rcases run.filled t with filled | gone
  · generalize (s.task t).slot = slot at filled hw
    cases filled <;> first | rfl | cases hw
  · exact (run.emptied gone).2

/-- A worker that has yet to stash an outcome has the work as well. -/
theorem Run.stashes_workless (run : Run callers h s) {q : Outcome → Bool}
    (hands : s.tally (Thread.works t) = 0) : s.tally (Thread.stashes t q) = 0 :=
  tally_eq_zero.mpr fun th hth => by
    have none := tally_eq_zero.mp hands th hth
    obtain ⟨j, hj⟩ := List.getElem?_of_mem hth
    unfold Thread.stashes
    cases hr : th.role with
    | caller => rfl
    | worker p k phase =>
      cases phase with
      | stashing x work o =>
        by_cases hx : x = t
        · subst hx
          have bears : (Phase.stashing x work o).bears x p = some (p, .stashing x work o) :=
            Phase.bears_self rfl
          have hb : (s.record x).bearing j = some (p, .stashing x work o) := by
            simp [record, System.bearing, hj, Thread.bears, hr, bears]
          simp [Thread.works, hr, Phase.works, ((run.kept x).stashable hb).2] at none
        · simp [Phase.stashes, hx]
      | _ => rfl

/-- Who lets go of an outcome of a task that no pool owns has its work to let go of later, or keeps
it in the slot. -/
theorem Run.works_of_outcome {todo : List Disposal} {failure : Option Payload}
    {releasing : Bool} (run : Run callers h s) (owned : (s.task t).slot.ownership ≠ .pool)
    (hth : th ∈ s.threads) (hf : .disposing todo failure releasing ∈ th.calls)
    (hmem : .outcome t o ∈ todo) : .work t ∈ todo ∨ (s.task t).slot.work := by
  obtain ⟨front, rest, rfl⟩ := List.append_of_mem hmem
  obtain ⟨-, fate⟩ := run.fates th hth _ hf t o rest (List.suffix_append _ _)
  have own : (s.record t).slot.ownership = (s.task t).slot.ownership := rfl
  rw [own] at fate
  cases ho : (s.task t).slot.ownership with
  | pool => exact absurd ho owned
  | detached =>
    rw [ho] at fate
    exact .inl (List.mem_append_right _ (.tail _ fate.2))
  | caller =>
    rw [ho] at fate
    right
    rcases run.filled t with filled | gone
    · obtain ⟨state, -, hslot⟩ := filled.of_caller ho
      rw [hslot]
    · have handle : Disposal.handle t ∈ front ++ .outcome t o :: rest :=
        List.mem_append_right _ (.tail _ fate.2)
      simpa using List.countP_eq_zero.mp (gone.unheld th hth _ hf) _ handle

/-- Once the work of a task that no pool owns is destroyed, nobody holds an outcome of it. -/
theorem Run.valueless_of_discarded (run : Run callers h s) {q : Outcome → Bool}
    (owned : (s.task t).slot.ownership ≠ .pool) (gone : h.discarded t ≠ 0) :
    s.holdings t q = 0 := by
  have works : s.works t = 0 := by
    have := run.works t
    omega
  obtain ⟨⟨hands, stored⟩, frames⟩ : (s.tally (Thread.works t) = 0 ∧
      (s.task t).slot.works t t = 0) ∧ s.weight (Frame.works t) = 0 := by
    simpa [System.works] using works
  have empty : (s.task t).slot.work = false := by simpa [Slot.works] using stored
  have carries : s.weight (Frame.carries t q) = 0 := weight_eq_zero.mpr fun th hth f hf => by
    cases f with
    | disposing todo failure releasing =>
      refine List.countP_eq_zero.mpr fun d hd hc => ?_
      obtain ⟨o, rfl⟩ : ∃ o, d = .outcome t o := by
        cases d <;> simp_all [Disposal.carries]
      rcases run.works_of_outcome owned hth hf hd with hmem | hwork
      · simpa [Disposal.isWork] using
          List.countP_eq_zero.mp (weight_eq_zero.mp frames th hth _ hf) _ hmem
      · simp [empty] at hwork
    | _ => rfl
  simp [holdings, run.stashes_workless hands, carries, System.stored, run.outcome_of_work empty]

theorem Moves.over_kept (ms : Moves i s es s') (kept : (s.record t).Kept t h)
    (isOver : (s.record t).Over) : (s'.record t).Over ∧
      (s'.record t).slot.ownership = (s.record t).slot.ownership := by
  induction ms generalizing h with
  | nil => exact ⟨isOver, rfl⟩
  | cons m _ ih =>
    have change := m.change t
    obtain ⟨isOver', same⟩ := change.over_kept kept isOver
    obtain ⟨isOver'', same'⟩ := ih (kept.change change) isOver'
    exact ⟨isOver'', same'.trans same⟩

/-- The work of a task that has been given up goes last, if no pool owns the task. -/
theorem Run.workLast (run : Run callers h s) (isOver : (s.record t).Over)
    (owned : (s.record t).slot.ownership ≠ .pool) : s.WorkLast t := by
  intro σ g s' hr
  have owned' : (s'.record t).slot.ownership ≠ .pool := by
    have kept := run.along (P := fun _ s' => (s'.record t).Over ∧
      (s'.record t).slot.ownership = (s.record t).slot.ownership) hr ⟨isOver, rfl⟩
        fun {h s j a es s'} run ⟨isOver, same⟩ hs => by
          obtain ⟨isOver', same'⟩ := (moves_of_step run.calls hs).over_kept (run.kept t) isOver
          exact ⟨isOver', same'.trans same⟩
    exact kept.2 ▸ owned
  by_cases gone : g.discarded t = 0
  · exact .inl gone
  · refine .inr ((run.replay hr).valueless_of_discarded owned' ?_)
    rw [Trace.discarded_append]
    omega

/-- The work is to be destroyed right before the outcome: both are in the slot, or come out of it
next. -/
def WorkNext (s : System) (t : TaskId) (o : Outcome) : Prop :=
  (¬ s.Gone t ∧ (s.task t).slot.work ∧ (s.task t).slot.outcome = some o) ∨
  ∃ j todo failure releasing rest,
    s.Inside j (.disposing (.work t :: .outcome t o :: todo) failure releasing :: rest)

theorem WorkNext.holds (next : s.WorkNext t o) : s.Holds t o := by
  rcases next with ⟨-, -, stored⟩ | ⟨j, todo, failure, releasing, rest, th, hth, hc⟩
  · exact .stored stored
  · have hf : .disposing (.work t :: .outcome t o :: todo) failure releasing ∈ th.calls := by
      simp [hc]
    exact .disposing (List.mem_of_getElem? hth) hf (by simp)

theorem Moves.slot_of_loose (ms : Moves i s es s') (kept : (s.record t).Kept t h)
    (loose : (s.record t).Loose) (left : ¬ s'.Gone t) :
    (s'.task t).slot = (s.task t).slot := by
  induction ms generalizing h with
  | nil => rfl
  | cons m ms ih =>
    have kept' := kept.change (m.change t)
    have same := ih kept' ((m.change t).loose loose) left
    rcases m.of_loose kept loose with ⟨slot, -⟩ | gone
    · exact same.trans slot
    · exact absurd (gone.moves kept' ms) left

/-- A step leaves the work before the outcome, or its destructor begins. -/
theorem WorkNext.step (next : s.WorkNext t o) (run : Run callers h s)
    (loose : (s.record t).Loose) (hs : s.step i a = some (s', es)) :
    s'.WorkNext t o ∨ Trace.discarded (es.map (i, ·)) t ≠ 0 := by
  have ms := moves_of_step run.calls hs
  rcases next with ⟨left, work, stored⟩ | ⟨j, todo, failure, releasing, rest, hi⟩
  · left
    by_cases gone : s'.Gone t
    · obtain ⟨-, todo, failure, releasing, rest, hi⟩ :=
        (gone_step run.calls hs gone).resolve_left left
      rw [Slot.contents, if_pos work, stored] at hi
      exact .inr ⟨i, todo, failure, releasing, rest, hi⟩
    · have slot := ms.slot_of_loose (run.kept t) loose gone
      exact .inl ⟨gone, slot ▸ work, slot ▸ stored⟩
  · by_cases hj : j = i
    · subst hj
      obtain ⟨th, he⟩ := hi.disposes hs
      simp only [dispose, runDestructor] at he
      cases he
      right
      simp [Trace.discarded]
    · left
      obtain ⟨f, rest', hi', hf⟩ := ms.spares.inside hj hi
      obtain rfl : f = .disposing (.work t :: .outcome t o :: todo) failure releasing := by
        cases f <;> simp_all [Frame.asleep]
      exact .inr ⟨j, todo, failure, releasing, rest', hi'⟩

/-- A value that is alone, and to be destroyed right after the work, is not destroyed before. -/
theorem WorkNext.workFirst (next : s.WorkNext t o) (run : Run callers h s)
    (loose : (s.record t).Loose) (returned : o.returned)
    (alone : s.holdings t (·.returned) = 1) : s.WorkFirst t := by
  intro σ g s' hr
  have kept := run.along (P := fun g s' => (s'.record t).Loose ∧ h.discarded t ≤ g.discarded t ∧
    (s'.WorkNext t o ∨ h.discarded t < g.discarded t)) hr ⟨loose, le_rfl, .inl next⟩
      fun {g s j a es s'} run ⟨loose, le, kept⟩ hs => by
        have loose' := ((moves_of_step run.calls hs).loose loose (q := (·.returned))).1
        rw [Trace.discarded_append]
        refine ⟨loose', by omega, ?_⟩
        rcases kept with next | begun
        · exact (next.step run loose hs).imp_right fun begins => by omega
        · exact .inr (by omega)
  have works := (run.replay hr).works t
  rw [Trace.discarded_append] at kept works
  rcases kept.2.2 with next | begun
  · left
    have held := next.holds.holdings_pos (q := (·.returned)) returned
    have spent := run.spent loose hr
    exact List.length_eq_zero_iff.mp (by omega)
  · exact .inr (by omega)

/-! ### Detached or dropped -/

theorem Run.free_of_finished (run : Run callers h s) (ho : (s.task t).slot.ownership = .pool)
    (hs : (s.task t).slot.state = .finished) :
    (s.record t).bearing = (fun _ => none) ∧ (s.record t).queued = fun _ => 0 := by
  obtain ⟨life, st, hat, -⟩ := run.kept t
  obtain ⟨o, rfl⟩ := Record.Kept.life_finished hat ho hs
  exact ⟨hat.bearing, hat.queued⟩

/-- The outcome of a finished task that has its handle is in the slot. -/
theorem holdings_finished (refs : s.Todos (References t))
    (hb : (s.record t).bearing = fun _ => none) {q : Outcome → Bool} :
    s.holdings t q = (s.task t).slot.outcome.toList.countP q := by
  have carries : s.weight (Frame.carries t q) = 0 := weight_eq_zero.mpr fun th hth f hf => by
    obtain ⟨j, hj⟩ := List.getElem?_of_mem hth
    have only := refs j th hj f hf
    cases f with
    | disposing todo failure releasing =>
      refine List.countP_eq_zero.mpr fun d hd hc => ?_
      cases d with
      | outcome u o =>
        obtain ⟨rfl, -⟩ : u = t ∧ q o := by simpa [Disposal.carries] using hc
        cases only _ hd (by simp [Disposal.about])
      | _ => simp [Disposal.carries] at hc
    | _ => rfl
  simp [holdings, stashes_unborne hb, carries, System.stored]

/-- What follows when a thread detaches a task, which leads to `u`, or drops its handle, which leads
to `v`; the slot of the task is the one before. -/
structure Parts (i : ThreadId) (t : TaskId) (slot : Slot) (u v : System) : Prop where
  /-- If there is no value, the same follows. -/
  alike : slot.hasValue = false → u.Follows t false v ∧ v.Follows t false u
  /-- Outcomes are let go of before the work, but for a value that the drop leaves in the slot. -/
  ordered : u.WorkLast t
  reversed : if slot.hasValue then v.WorkFirst t else v.WorkLast t
  /-- Once the destructor of that value has run, the same follows but for the destructor. -/
  late : ∀ o, slot.hasValue → slot.outcome = some o → ∃ w,
    u.replay [(i, .advance 0), (i, .finish (.ok .null))] =
      some ([(i, .destroying (.value t o.run))], w) ∧ w.Follows t true v

/-- Before the task has finished, a detachment and the drop of the handle do the same. -/
theorem Run.parts_unfinished (run : Run callers h s) (hth : s.threads[i]? = some th)
    (code : th.inUserCode) (own : s.canOwn t) (ht : s.tasks[t]? = some task)
    (ho : task.slot.ownership = .pool) (hs : task.slot.state ≠ .finished) :
    ∃ u v d, s.step i (.call (.detach t) 0) = some (u, []) ∧ d.code = [] ∧
      s.replay [(i, .call (.drop t) 0), (i, .advance 0)] = some (d, v) ∧
      Parts i t task.slot u v := by
  have out : task.slot.isOutstanding := by simp [Slot.isOutstanding, ho, hs]
  have none : task.slot.hasValue = false := by simp [Slot.hasValue, hs]
  have refs : s.Todos (References t) := run.references (task_eq ht ▸ handle_of_canOwn own ht)
  have detached := step_detach 0 hth code ht own ho hs
  obtain ⟨d, hd, -, dropped⟩ := replay_drop 0 hth code ht own
  rw [if_pos out] at dropped
  have runs := run.step detached
  have runs' := run.replay dropped
  have parted : (s.givenUp i t task.slot.detach [.record (.detached t), .handle t]).Parted t
      true false :=
    givenUp_parted refs ht (.inl (by simp [Slot.detach])) (by simp) fun _ _ _ => rfl
  have parted' : (s.givenUp i t task.slot.detach [.reference t]).Parted t false false :=
    givenUp_parted refs ht (.inl (by simp [Slot.detach])) (by simp) (by simp [Disposal.gives])
  have same : (Mask.parting t true false).apply
        (s.givenUp i t task.slot.detach [.record (.detached t), .handle t]) =
      (Mask.parting t false false).apply (s.givenUp i t task.slot.detach [.reference t]) := by
    rw [apply_givenUp refs, apply_givenUp refs]
    simp [Mask.parting]
  refine ⟨_, _, d, detached, hd, dropped, ⟨fun _ => ⟨?_, ?_⟩, ?_, ?_, by simp [none]⟩⟩
  · exact parted.follows runs (by simp) runs' parted' (by simp) same
  · exact parted'.follows runs' (by simp) runs parted (by simp) same.symm
  · exact runs.workLast parted.isOver (by simp [givenUp_record ht, Slot.detach])
  · rw [none]
    exact runs'.workLast parted'.isOver (by simp [givenUp_record ht, Slot.detach])

/-- The work of a finished task that has its handle is in the slot. -/
theorem Run.work_of_finished (run : Run callers h s) (ht : s.tasks[t]? = some task)
    (hh : task.handle) (ho : task.slot.ownership = .pool) (hs : task.slot.state = .finished) :
    task.slot.work := by
  rcases run.filled t with filled | gone
  · rw [task_eq ht] at filled
    obtain hslot | ⟨x, hslot⟩ | hslot := filled.of_finished hs
    · rw [hslot]
    · rw [hslot]
    · simp [hslot] at ho
  · simp [gone.not_handle ht] at hh

section finished

variable (run : Run callers h s) (hth : s.threads[i]? = some th) (code : th.inUserCode)
  (own : s.canOwn t) (ht : s.tasks[t]? = some task) (ho : task.slot.ownership = .pool)
  (hs : task.slot.state = .finished) (hout : task.slot.outcome = some o)

include run own ht ho hs

theorem Run.detached_parted (todo : List Disposal) :
    (s.givenUp i t task.slot.release todo).Parted t true true :=
  givenUp_parted (run.references (task_eq ht ▸ handle_of_canOwn own ht)) ht (.inl nofun)
    (fun _ => run.free_of_finished (task_eq ht ▸ ho) (task_eq ht ▸ hs)) fun _ _ _ => rfl

theorem Run.dropped_parted : (s.givenUp i t task.slot [.reference t]).Parted t false true :=
  givenUp_parted (run.references (task_eq ht ▸ handle_of_canOwn own ht)) ht (.inr hs)
    (fun _ => run.free_of_finished (task_eq ht ▸ ho) (task_eq ht ▸ hs)) (by simp [Disposal.gives])

include hout

theorem Run.holdings_finished : s.holdings t (·.returned) = if o.returned then 1 else 0 := by
  have refs : s.Todos (References t) := run.references (task_eq ht ▸ handle_of_canOwn own ht)
  have free := run.free_of_finished (task_eq ht ▸ ho) (task_eq ht ▸ hs)
  rw [System.holdings_finished refs free.1, task_eq ht, hout]
  simp

omit ho hs hout in
/-- With the outcome taken out, the slots are the same. -/
theorem Run.same_masked (todo : List Disposal)
    (rest : todo.filterMap (Mask.parting t true true).item = [.reference t]) :
    (Mask.parting t true true).apply (s.givenUp i t task.slot.release todo) =
      (Mask.parting t false true).apply (s.givenUp i t task.slot [.reference t]) := by
  have refs : s.Todos (References t) := run.references (task_eq ht ▸ handle_of_canOwn own ht)
  rw [apply_givenUp refs, apply_givenUp refs, rest]
  simp [Mask.parting, Slot.release]

/-- A task that has finished with a panic. -/
theorem Run.parts_panicked (panicked : o.returned = false)
    (runs : Run callers h' (s.givenUp i t task.slot.release
      [.outcome t o, .record (.detached t), .handle t]))
    (none : (s.givenUp i t task.slot.release
      [.outcome t o, .record (.detached t), .handle t]).holdings t (·.returned) = 0)
    (runs' : Run callers g (s.givenUp i t task.slot [.reference t]))
    (none' : (s.givenUp i t task.slot [.reference t]).holdings t (·.returned) = 0) :
    Parts i t task.slot (s.givenUp i t task.slot.release
      [.outcome t o, .record (.detached t), .handle t])
      (s.givenUp i t task.slot [.reference t]) := by
  have parted := run.detached_parted (i := i) own ht ho hs
    [.outcome t o, .record (.detached t), .handle t]
  have parted' := run.dropped_parted (i := i) own ht ho hs
  have same := run.same_masked (i := i) own ht
    [.outcome t o, .record (.detached t), .handle t] (by simp [Mask.parting])
  have value : task.slot.hasValue = false := by simp [Slot.hasValue, hs, hout, panicked]
  refine ⟨fun _ => ⟨?_, ?_⟩, ?_, ?_, by simp [value]⟩
  · exact parted.follows runs (fun _ => none) runs' parted' (fun _ _ => none') same
  · exact parted'.follows runs' (fun _ => none') runs parted (fun _ _ => none) same.symm
  · exact runs.workLast parted.isOver (by simp [givenUp_record ht, Slot.release])
  · rw [value]
    exact fun σ g v' hr => .inr (runs'.valueless (parted'.loose rfl) none' hr)

/-- A task that has finished with a value. -/
theorem Run.parts_value (hth : s.threads[i]? = some th) (returned : o.returned)
    (runs : Run callers h' (s.givenUp i t task.slot.release
      [.outcome t o, .record (.detached t), .handle t]))
    (one : (s.givenUp i t task.slot.release
      [.outcome t o, .record (.detached t), .handle t]).holdings t (·.returned) ≤ 1)
    (runs' : Run callers g (s.givenUp i t task.slot [.reference t]))
    (one' : (s.givenUp i t task.slot [.reference t]).holdings t (·.returned) ≤ 1) :
    Parts i t task.slot (s.givenUp i t task.slot.release
      [.outcome t o, .record (.detached t), .handle t])
      (s.givenUp i t task.slot [.reference t]) := by
  have parted := run.detached_parted (i := i) own ht ho hs
    [.outcome t o, .record (.detached t), .handle t]
  have parted' := run.dropped_parted (i := i) own ht ho hs
  have same := run.same_masked (i := i) own ht [.record (.detached t), .handle t]
    (by simp [Mask.parting])
  have value : task.slot.hasValue := by simp [Slot.hasValue, hs, hout, returned]
  have work := run.work_of_finished ht (handle_of_canOwn own ht) ho hs
  -- After the drop the value is still behind the work, in the slot.
  have next : (s.givenUp i t task.slot [.reference t]).WorkNext t o := by
    refine .inl ⟨fun gone => ?_, ?_, ?_⟩
    · obtain ⟨th', hth', hc⟩ : (s.givenUp i t task.slot [.reference t]).Inside i
        (.disposing [.reference t] none false :: th.calls) := givenUp_inside hth
      have held : (Frame.disposing [.reference t] none false).holds t = 0 :=
        gone.unheld th' (List.mem_of_getElem? hth') _ (by simp [hc])
      simp [Frame.holds] at held
    · rw [task_eq (givenUp_task ht)]
      exact work
    · rw [task_eq (givenUp_task ht)]
      exact hout
  have alone := next.holds.holdings_pos (q := (·.returned)) returned
  refine ⟨by simp [value], ?_, ?_, fun o' _ ho' => ?_⟩
  · exact runs.workLast parted.isOver (by simp [givenUp_record ht, Slot.release])
  · rw [if_pos value]
    exact next.workFirst runs' (parted'.loose rfl) returned (by omega)
  · -- After the detachment it goes at once.
    obtain rfl : o = o' := Option.some.inj (hout.symm.trans ho')
    have inside : (s.givenUp i t task.slot.release
        [.outcome t o, .record (.detached t), .handle t]).Inside i
        (.disposing [.outcome t o, .record (.detached t), .handle t] none false :: th.calls) :=
      givenUp_inside hth
    have hr := replay_value 0 .null returned inside
    rw [givenUp_enter] at hr
    have spent := runs.spent (parted.loose rfl) hr
    have destroyed : (Trace.destroyed [(i, .destroying (.value t o.run))] t).length = 1 := by
      simp [Trace.destroyed, Event.destroyed?]
    exact ⟨_, hr, (parted.replay runs hr).follows (runs.replay hr) (fun _ => by omega) runs'
      parted' (by simp) same⟩

end finished

/-- A detachment of a finished task lets go of the outcome; the drop of the handle leaves it in the
slot. -/
theorem Run.parts_finished (run : Run callers h s) (hth : s.threads[i]? = some th)
    (code : th.inUserCode) (own : s.canOwn t) (ht : s.tasks[t]? = some task)
    (ho : task.slot.ownership = .pool) (hs : task.slot.state = .finished) :
    ∃ u v d, s.step i (.call (.detach t) 0) = some (u, []) ∧ d.code = [] ∧
      s.replay [(i, .call (.drop t) 0), (i, .advance 0)] = some (d, v) ∧
      Parts i t task.slot u v := by
  obtain ⟨o, hout⟩ := run.outcome ht (handle_of_canOwn own ht) ho hs
  have detached : s.step i (.call (.detach t) 0) = some (s.givenUp i t task.slot.release
      [.outcome t o, .record (.detached t), .handle t], []) := by
    rw [step_detachFinished 0 hth code ht own ho hs, hout]
    rfl
  have out : ¬ task.slot.isOutstanding := by simp [Slot.isOutstanding, hs]
  obtain ⟨d, hd, quiet, dropped⟩ := replay_drop 0 hth code ht own
  rw [if_neg out] at dropped
  have runs := run.step detached
  have runs' := run.replay dropped
  have held := run.holdings_finished own ht ho hs hout
  have balance := run.balance runs (t := t)
  have balance' := run.balance runs' (t := t)
  have quiet₀ : Trace.yielded (([] : List Event).map (i, ·)) t (·.returned) = 0 := rfl
  refine ⟨_, _, d, detached, hd, dropped, ?_⟩
  cases returned : o.returned with
  | false =>
    simp only [returned, Bool.false_eq_true, if_false] at held
    exact run.parts_panicked own ht ho hs hout returned runs (by omega) runs' (by omega)
  | true =>
    simp only [returned, if_true] at held
    exact run.parts_value own ht ho hs hout hth returned runs (by omega) runs' (by omega)

/-- Whenever nothing refers to the task any more, and nobody lets go of what was in it, a destructor
has begun once for the work and for each value that no join has taken. -/
def EndsOnce (h : Trace) (s : System) (t : TaskId) : Prop :=
  ∀ σ g s', s.replay σ = some (g, s') → s'.Gone t → s'.EachFrame (fun f => f.concerns t = false) →
    Released (h ++ g) s' t

theorem Run.endsOnce (run : Run callers h s) (t : TaskId) : EndsOnce h s t :=
  fun _ _ _ hr gone clear => (run.replay hr).released gone clear

/-- In whatever state a thread detaches a task that its pool owns, or drops the handle: the same
follows unless the task has finished with a value. That value goes before the work if the task is
detached, and after it if the handle is dropped. Each destructor begins once. -/
theorem Run.parts (run : Run callers h s) (hth : s.threads[i]? = some th) (code : th.inUserCode)
    (own : s.canOwn t) (ho : (s.task t).slot.ownership = .pool) :
    ∃ u v d, s.step i (.call (.detach t) 0) = some (u, []) ∧ d.code = [] ∧
      s.replay [(i, .call (.drop t) 0), (i, .advance 0)] = some (d, v) ∧
      Parts i t (s.task t).slot u v ∧ EndsOnce h u t ∧ EndsOnce (h ++ d) v t := by
  obtain ⟨task, ht⟩ : ∃ task, s.tasks[t]? = some task := by
    have shared := (canOwn_iff.mp own).1
    obtain ⟨⟨o, ho⟩, -⟩ := canShare_iff.mp shared
    obtain ⟨task, ht, -⟩ := Option.map_eq_some_iff.mp ho
    exact ⟨task, ht⟩
  rw [task_eq ht] at ho ⊢
  obtain ⟨u, v, d, detached, hd, dropped, parts⟩ : ∃ u v d,
      s.step i (.call (.detach t) 0) = some (u, []) ∧ Trace.code d = [] ∧
      s.replay [(i, .call (.drop t) 0), (i, .advance 0)] = some (d, v) ∧
      Parts i t task.slot u v := by
    by_cases hs : task.slot.state = .finished
    · exact run.parts_finished hth code own ht ho hs
    · exact run.parts_unfinished hth code own ht ho hs
  refine ⟨u, v, d, detached, hd, dropped, parts, ?_, (run.replay dropped).endsOnce t⟩
  simpa using (run.step detached).endsOnce t

/-- A task that runs is detached, or its handle dropped. -/
theorem parts_running : ∃ h s th, Run 1 h s ∧ s.threads[0]? = some th ∧ th.inUserCode ∧
    s.canOwn 0 ∧ (s.task 0).slot.ownership = .pool ∧ (s.task 0).slot.state = .running ∧
    ∃ u v d, s.step 0 (.call (.detach 0) 0) = some (u, []) ∧ d.code = [] ∧
      s.replay [(0, .call (.drop 0) 0), (0, .advance 0)] = some (d, v) ∧
      Parts 0 0 (s.task 0).slot u v ∧ EndsOnce h u 0 ∧ EndsOnce (h ++ d) v 0 := by
  have run : Run 1 _ _ := run_of_replay [(0, .call (.createPool (.new 1)) 0),
    (0, .call (.createTask none) 0), (0, .call (.submit 0 0) 0), (1, .advance 0), (0, .advance 0),
    (1, .advance 0), (1, .advance 0)] rfl
  exact ⟨_, _, _, run, rfl, rfl, rfl, rfl, rfl, run.parts (i := 0) (t := 0) rfl rfl rfl rfl⟩

/-- A task has finished with a value, and its worker has let go of it. A detachment destroys the
value before the work; the drop of the handle destroys the work before the value. -/
theorem reversed_value : ∃ h s σ hu u σ' hv v, Run 1 h s ∧ s.canOwn 0 ∧
    (s.task 0).slot.ownership = .pool ∧
    s.replay ((0, .call (.detach 0) 0) :: σ) = some (hu, u) ∧
    s.replay ((0, .call (.drop 0) 0) :: σ') = some (hv, v) ∧
    Trace.code hu = [(0, .destroying (.value 0 1)), (0, .destroying (.work 0))] ∧
    Trace.code hv = [(0, .destroying (.work 0)), (0, .destroying (.value 0 1))] := by
  have run : Run 1 _ _ := run_of_replay [(0, .call (.createPool (.new 1)) 0),
    (0, .call (.createTask none) 0), (0, .call (.submit 0 0) 0), (1, .advance 0), (0, .advance 0),
    (1, .advance 0), (1, .advance 0), (1, .finish (.ok .null)), (1, .advance 0), (1, .advance 0),
    (1, .advance 0), (1, .advance 0), (1, .advance 0), (1, .advance 0)] rfl
  exact ⟨_, _, [(0, .advance 0), (0, .finish (.ok .null)), (0, .advance 0), (0, .advance 0),
    (0, .advance 0), (0, .advance 0), (0, .finish (.ok .null)), (0, .advance 0)], _, _,
    [(0, .advance 0), (0, .advance 0), (0, .advance 0), (0, .finish (.ok .null)),
    (0, .advance 0), (0, .finish (.ok .null)), (0, .advance 0)], _, _, run, rfl, rfl, rfl, rfl,
    rfl, rfl⟩

end System

end WorkerPool
