import WorkerPool.Proofs.SlotStates

/-!
Who holds the work of a task.

The work is in the slot of its task, with the worker that executes it, or among the things that a
thread lets go of. `System.works` counts over all these places: every move keeps the work in one of
them until a destructor begins for it, so there is no second work and none is lost.
-/
namespace WorkerPool

variable {t u : TaskId} {slot slot' : Slot} {todo : List Disposal}

/-- Whether a worker in this phase has taken the work out of its slot. -/
def Phase.works (t : TaskId) : Phase → Nat
  | running u => if u = t then 1 else 0
  | stashing u work _ => if u = t ∧ work then 1 else 0
  | _ => 0

def Thread.works (t : TaskId) (th : Thread) : Nat :=
  match th.role with
  | .caller => 0
  | .worker _ _ phase => phase.works t

/-- Whether the slot of the task `u` has the work of the task `t`. -/
def Slot.works (u t : TaskId) (slot : Slot) : Nat := if u = t ∧ slot.work then 1 else 0

def Disposal.isWork (t : TaskId) : Disposal → Bool
  | work u => u = t
  | _ => false

/-- How often the frame has yet to let go of the work of the task. -/
def Frame.works (t : TaskId) : Frame → Nat
  | disposing todo _ _ => todo.countP (Disposal.isWork t)
  | _ => 0

/-! ### Slots and what they give up -/

namespace Slot

@[simp] theorem works_claim : slot.claim.works u t = slot.works u t := rfl

@[simp] theorem works_release : slot.release.works u t = slot.works u t := rfl

@[simp] theorem works_detach : slot.detach.works u t = slot.works u t := rfl

@[simp] theorem works_start : slot.start.works u t = 0 := by simp [works, start]

@[simp] theorem works_clear : slot.clear.works u t = 0 := by simp [works, clear]

theorem works_of_empty (h : slot.work = false) : slot.works u t = 0 := by simp [works, h]

theorem works_full (h : slot.work) : slot.works u t = (Phase.running u).works t := by
  simp [works, Phase.works, h]

theorem works_stash (work : Bool) (o : Outcome) :
    (slot.stash work o).works u t = (Phase.stashing u work o).works t := rfl

theorem countP_outcome_isWork (slot : Slot) :
    (slot.outcome.toList.map (.outcome u)).countP (Disposal.isWork t) = 0 := by
  simp [Disposal.isWork]

theorem countP_isWork (slot : Slot) :
    (if slot.work then [Disposal.work u] else []).countP (Disposal.isWork t) =
      slot.works u t := by
  cases hw : slot.work <;> simp [works, Disposal.isWork, List.countP_singleton, hw]

theorem countP_contents_isWork :
    (slot.contents u).countP (Disposal.isWork t) = slot.works u t := by
  rw [contents, List.countP_append, countP_outcome_isWork, countP_isWork, Nat.add_zero]

/-- A task that completes keeps its work or leaves it over. -/
theorem countP_leftovers_isWork (slot : Slot) :
    (slot.leftovers u).countP (Disposal.isWork t) + slot.complete.works u t =
      slot.works u t := by
  unfold leftovers complete
  split
  · rw [List.countP_append, countP_outcome_isWork, countP_isWork]
    simp [works]
  · simp [works]

/-- A task that is given away keeps its work. -/
theorem Surrender.works (h : slot.Surrender u slot' todo) :
    todo.countP (Disposal.isWork t) + slot'.works u t = slot.works u t := by
  cases h with
  | finished _ _ =>
    rw [List.countP_append, countP_outcome_isWork]
    simp [Disposal.isWork]
  | outstanding _ _ => simp [Disposal.isWork]
  | plain => simp [Disposal.isWork]

end Slot

namespace Frame

variable {f : Frame}

theorem works_wake (c : Condition) (f : Frame) : (f.wake c).works t = f.works t := by
  cases f <;> rfl

theorem works_of_isBare (h : f.isBare) : f.works t = 0 := by
  cases f with
  | disposing todo failure releasing =>
    cases todo with
    | nil => rfl
    | cons d todo => simp [isBare] at h
  | _ => rfl

end Frame

theorem Thread.wakeFree_works : WakeFree (Thread.works t) := by
  intro c th
  simp only [Thread.works, role_wake]
  cases th.role with
  | caller => rfl
  | worker p k phase => cases phase <;> rfl

namespace Trace

variable {h h' : Trace}

/-- How often a destructor has begun for the work of the task. -/
def discarded (h : Trace) (t : TaskId) : Nat :=
  h.countP fun e => match e.2 with
    | .destroying (.work u) => u = t
    | _ => false

theorem discarded_append : discarded (h ++ h') t = h.discarded t + h'.discarded t :=
  List.countP_append

end Trace

namespace Disposal

/-- A destructor begins for the work that is let go of. -/
theorem discarded_remains {d : Disposal} {r : Remains} {i : ThreadId} (hr : d.remains? = some r) :
    Trace.discarded ([Event.destroying r].map (i, ·)) t = if d.isWork t then 1 else 0 := by
  cases d with
  | outcome u o =>
    simp only [remains?] at hr
    split at hr <;> cases hr
    rfl
  | work u =>
    cases hr
    by_cases hu : u = t <;> simp [Trace.discarded, isWork, hu]
  | _ => cases hr

end Disposal

namespace System

variable {s s' : System} {i : ThreadId} {p : PoolId} {k : Nat} {pool : Pool} {task new : Task}
  {f : Frame} {rest : List Frame} {phase phase' : Phase} {g : Thread → Thread} {h : Trace}
  {es : List Event}

/-- How often somebody holds the work of the task. The work of a task that is yet to be created is
in its slot. -/
def works (s : System) (t : TaskId) : Nat :=
  s.tally (Thread.works t) + (s.task t).slot.works t t + s.weight (Frame.works t)

/-! ### Works in other states -/

@[simp] theorem works_setPool : (s.setPool p pool).works t = s.works t := rfl

theorem works_addTask (captured : Option Span) :
    (s.addTask { captured }).works t = s.works t := by
  have h : ((s.addTask { captured }).task t).slot = (s.task t).slot :=
    congrArg Record.slot (record_addTask captured)
  unfold works
  rw [h]
  rfl

@[simp] theorem works_wakeAll (c : Condition) : (s.wakeAll c).works t = s.works t := by
  have h : (s.wakeAll c).task t = s.task t := rfl
  unfold works
  rw [tally_wakeAll Thread.wakeFree_works, weight_wakeAll Frame.works_wake, h]

@[simp] theorem works_wakeOne (pick : Pick) : (s.wakeOne p pick).works t = s.works t := by
  have h : (s.wakeOne p pick).task t = s.task t := by simp [System.task]
  unfold works
  rw [tally_wakeOne Thread.wakeFree_works, weight_wakeOne Frame.works_wake, h]

theorem works_hired : (s.hired p pool).works t = s.works t := by
  have h : (s.hired p pool).task t = s.task t := rfl
  have hwork : (s.hired p pool).tally (Thread.works t) = s.tally (Thread.works t) := by
    simp [hired, Thread.works, Phase.works]
  have hweight : (s.hired p pool).weight (Frame.works t) = s.weight (Frame.works t) := by
    simp [weight, hired, Thread.weigh]
  unfold works
  rw [h, hwork, hweight]

theorem works_setTask (ht : s.tasks[u]? = some task) (new : Task) :
    (s.setTask u new).works t + task.slot.works u t = s.works t + new.slot.works u t := by
  have h : ((s.setTask u new).task t).slot.works t t + task.slot.works u t =
      (s.task t).slot.works t t + new.slot.works u t := by
    by_cases hu : u = t
    · subst hu
      rw [task_setTask ht, task_eq ht]
      omega
    · simp [System.task, setTask, Slot.works, hu]
  unfold works
  simp only [weight, tally_setTask]
  omega

theorem works_setSlot (ht : s.tasks[u]? = some task) (slot : Slot) :
    (s.setSlot u slot).works t + task.slot.works u t = s.works t + slot.works u t := by
  rw [setSlot_eq ht]
  exact works_setTask ht _

theorem tally_works (g : Thread → Thread) (hg : ∀ th, (g th).role = th.role) :
    (s.onThread i g).tally (Thread.works t) = s.tally (Thread.works t) :=
  tally_onThread_of_eq fun th => by simp [Thread.works, hg]

theorem works_push {th : Thread} (hth : s.threads[i]? = some th) (f : Frame) :
    (s.onThread i (·.push f)).works t = s.works t + f.works t := by
  have h : (s.onThread i (·.push f)).task t = s.task t := rfl
  unfold works
  rw [h, tally_works (·.push f) fun _ => rfl, weight_push hth]
  omega

theorem works_pop (hi : s.Inside i (f :: rest)) :
    (s.onThread i Thread.pop).works t + f.works t = s.works t := by
  have h : (s.onThread i Thread.pop).task t = s.task t := rfl
  have hw := weight_pop (g := Frame.works t) hi
  unfold works
  rw [h, tally_works Thread.pop fun _ => rfl]
  omega

theorem works_enter (hi : s.Inside i (f :: rest)) (f' : Frame) :
    (s.enter i f').works t + f.works t = s.works t + f'.works t := by
  have h : (s.enter i f').task t = s.task t := rfl
  have hs : (s.enter i f').tally (Thread.works t) = s.tally (Thread.works t) :=
    tally_works (·.replace f') fun _ => rfl
  have hw := weight_enter (g := Frame.works t) f' hi
  unfold works
  rw [h, hs]
  omega

/-- A frame gives way to another one that lets go of the same works. -/
theorem works_replace {f' : Frame} (hi : s.Inside i (f :: rest)) (hf : f'.works t = f.works t) :
    (s.enter i f').works t = s.works t := by
  have hold := works_enter (t := t) hi f'
  omega

theorem works_leave (hi : s.Inside i (f :: rest)) (hf : f.isBare) :
    (s.onThread i Thread.pop).works t = s.works t := by
  have hpop := works_pop (t := t) hi
  rwa [Frame.works_of_isBare hf] at hpop

theorem works_onThread (hg : ∀ th, (g th).role = th.role ∧ (g th).calls = th.calls) :
    (s.onThread i g).works t = s.works t := by
  have h : (s.onThread i g).task t = s.task t := rfl
  unfold works
  rw [h, tally_works g fun th => (hg th).1, weight_onThread fun th => (hg th).2]

/-- A worker goes on to another phase. -/
theorem Working.works (phase' : Phase) (hw : s.Working i p k phase)
    (hg : Thread.Rephases phase' g) :
    (s.onThread i g).works t + phase.works t = s.works t + phase'.works t := by
  obtain ⟨th, hth, hr, -⟩ := hw
  have h : (s.onThread i g).task t = s.task t := rfl
  have hs := tally_onThread (w := Thread.works t) g hth
  have hbefore : th.works t = phase.works t := by simp [Thread.works, hr]
  have hafter : (g th).works t = phase'.works t := by
    simp [Thread.works, (hg th).1, Thread.role_setPhase hr]
  unfold System.works
  rw [h, weight_onThread fun th => (hg th).2]
  omega

/-- A worker goes on to another phase and still has the work, or still has not. -/
theorem Working.works_same (hw : s.Working i p k phase) (hg : Thread.Rephases phase' g)
    (hp : phase'.works t = phase.works t) : (s.onThread i g).works t = s.works t := by
  have := hw.works (t := t) phase' hg
  omega

theorem Working.works_settled (hw : s.Working i p k phase) (h : phase.works t = 0) :
    (s.settled i p pool).works t = s.works t := by
  have hw' : (s.setPool p pool).Working i p k phase := hw
  have hsame : ((s.setPool p pool).onThread i (·.setPhase (.parked true))).works t = s.works t :=
    hw'.works_same Thread.rephases_setPhase h.symm
  unfold System.settled
  split
  · rw [works_wakeAll]
    exact hsame
  · exact hsame

theorem works_published (pool : Pool) (ht : s.tasks[u]? = some task) :
    (s.published i p pool u task).works t + task.slot.works u t =
      s.works t + task.slot.complete.works u t := by
  have h : ((s.setPool p (pool.retire i)).setSlot u task.slot.complete).works t +
      task.slot.works u t = s.works t + task.slot.complete.works u t :=
    works_setSlot (s := s.setPool p (pool.retire i)) ht _
  unfold published
  split
  · exact h
  · rw [works_wakeAll]
    exact h

theorem Working.works_retired (hw : s.Working i p k (.counted u)) (ht : s.tasks[u]? = some task) :
    (s.retired i p pool u task).works t = s.works t := by
  have hw' : (s.published i p pool u task).Working i p k (.counted u) := hw.published rfl
  have hslot := works_published pool (i := i) (p := p) (t := t) ht
  have hphase : ((s.published i p pool u task).onThread i (·.setPhase .releasing)).works t =
      (s.published i p pool u task).works t := hw'.works_same Thread.rephases_setPhase rfl
  obtain ⟨th, hth, -⟩ : ((s.published i p pool u task).onThread i
      (·.setPhase .releasing)).Working i p k .releasing := hw'.onThread Thread.rephases_setPhase
  rw [retired_eq, works_push hth, hphase]
  have hleft := task.slot.countP_leftovers_isWork (u := u) (t := t)
  simp only [Frame.works, List.countP_cons, Disposal.isWork, Bool.false_eq_true, if_false]
  omega

/-! ### The balance -/

/-- The work of the task is in one place, or a destructor has begun for it. -/
def WorkKept (h : Trace) (s : System) (t : TaskId) : Prop := s.works t + h.discarded t = 1

/-- The step tells of no destructor of a work. -/
theorem WorkKept.quiet (kept : WorkKept h s t)
    (he : ∀ e ∈ es, ∀ u, e ≠ .destroying (.work u)) (hs : s'.works t = s.works t) :
    WorkKept (h ++ es.map (i, ·)) s' t := by
  have hz : Trace.discarded (es.map (i, ·)) t = 0 := by
    rw [Trace.discarded, List.countP_eq_zero]
    intro e hmem
    obtain ⟨ev, hev, rfl⟩ := List.mem_map.mp hmem
    have := he ev hev
    split <;> simp_all
  unfold WorkKept at kept ⊢
  rw [Trace.discarded_append, hz, hs]
  exact kept

/-- The work that a worker brings back is the only one. -/
theorem WorkKept.empty_stashing {o : Outcome} (kept : WorkKept h s t)
    (hw : s.Working i p k (.stashing t true o)) : (s.task t).slot.work = false := by
  obtain ⟨th, hth, hr, -⟩ := hw
  have hle : th.works t ≤ s.tally (Thread.works t) := le_tally hth
  have hmine : th.works t = 1 := by simp [Thread.works, hr, Phase.works]
  unfold WorkKept System.works at kept
  cases hwork : (s.task t).slot.work with
  | false => rfl
  | true =>
    have hslot : (s.task t).slot.works t t = 1 := by simp [Slot.works, hwork]
    omega

theorem WorkKept.move (kept : WorkKept h s t) (tasks : ∀ u, (s.record u).Kept u h)
    (m : Move i s es s') : WorkKept (h ++ es.map (i, ·)) s' t := by
  cases m with
  | call hth _ => exact kept.quiet (by simp) (works_push hth _)
  | leave hi hf he =>
    refine kept.quiet ?_ (works_leave hi hf)
    rcases he with rfl | ⟨r, rfl⟩ <;> simp
  | @wait f f' rest hi hf due =>
    refine kept.quiet (by simp) (works_replace hi ?_)
    rw [Frame.works_of_isBare hf]
    cases f' with
    | disposing todo failure releasing => exact due.elim
    | _ => rfl
  | note _ => exact kept.quiet (by simp) rfl
  | addPool _ => exact kept.quiet (by simp) rfl
  | addTask captured => exact kept.quiet (by simp) (works_addTask captured)
  | hire _ _ _ => exact kept.quiet (by simp) works_hired
  | @accept p pool u task pick _ ht _ _ _ _ =>
    have hslot := works_setSlot (t := t) ht task.slot.claim
    have hpool : ((s.setSlot u task.slot.claim).setPool p (pool.accept u)).works t =
        (s.setSlot u task.slot.claim).works t := rfl
    rw [Slot.works_claim] at hslot
    refine kept.quiet (by simp) ?_
    rw [works_wakeOne, hpool]
    omega
  | @take f rest u task hi hf ht _ _ _ =>
    have hslot := works_setSlot (t := t) ht task.slot.release
    have hi' : (s.setSlot u task.slot.release).Inside i (f :: rest) := hi
    rw [Slot.works_release] at hslot
    refine kept.quiet (by simp) ?_
    rw [works_leave hi' hf]
    omega
  | @letGo f rest u task slot todo hi hf ht _ surrender =>
    have hslot := works_setTask (t := t) ht { task with slot, handle := false }
    have hi' : (s.setTask u { task with slot, handle := false }).Inside i (f :: rest) := hi
    have hold := works_enter (t := t) hi' (.disposing todo none false)
    have hsum := surrender.works (t := t)
    rw [Frame.works_of_isBare hf] at hold
    simp only [Frame.works] at hold hslot
    exact kept.quiet (by simp) (by omega)
  | @discard d todo failure releasing rest hi hd =>
    refine kept.quiet (by simp) (works_replace hi ?_)
    cases d with
    | work u => exact hd.elim
    | _ => simp [Frame.works, Disposal.isWork]
  | @destroy d r todo failure releasing rest hi hr =>
    obtain ⟨th, hth, -⟩ : (s.enter i (.disposing todo failure releasing)).Inside i _ := hi.enter
    have hold := works_enter (t := t) hi (.disposing todo failure releasing)
    have hpush := works_push (t := t) hth .destructor
    have hnew := Disposal.discarded_remains (i := i) (t := t) hr
    have hbare : Frame.destructor.works t = 0 := rfl
    simp only [Frame.works, List.countP_cons] at hold
    unfold WorkKept at kept ⊢
    rw [Trace.discarded_append]
    omega
  | release hi _ _ =>
    exact kept.quiet (by simp) (works_replace hi (by simp [Frame.works, Disposal.isWork]))
  | @abandon u task todo failure releasing rest hi ht _ _ =>
    have hold : (s.enter i (.disposing (.reference u :: todo) failure releasing)).works t =
        s.works t := works_replace hi (by simp [Frame.works, Disposal.isWork])
    have hslot := works_setSlot (t := t)
      (s := s.enter i (.disposing (.reference u :: todo) failure releasing)) ht task.slot.detach
    rw [Slot.works_detach] at hslot
    exact kept.quiet (by simp) (by omega)
  | unref hi _ =>
    exact kept.quiet (by simp) (works_replace hi (by simp [Frame.works, Disposal.isWork]))
  | @clear u task todo failure releasing rest hi ht _ =>
    have hold := works_enter (t := t) hi
      (.disposing (task.slot.contents u ++ todo) failure releasing)
    have hslot := works_setSlot (t := t)
      (s := s.enter i (.disposing (task.slot.contents u ++ todo) failure releasing)) ht
      task.slot.clear
    simp only [Frame.works, List.countP_cons, List.countP_append, Slot.countP_contents_isWork,
      Disposal.isWork, Bool.false_eq_true, if_false, Slot.works_clear] at hold hslot
    exact kept.quiet (by simp) (by omega)
  | @resume todo failure failure' releasing rest hi =>
    have hold : ((s.onThread i Thread.pop).enter i (.disposing todo failure' releasing)).works t =
        (s.onThread i Thread.pop).works t := works_replace hi.pop rfl
    exact kept.quiet (by simp) (hold.trans (works_pop hi))
  | close _ _ => exact kept.quiet (by simp) rfl
  | stop _ _ _ => exact kept.quiet (by simp) (works_wakeAll _)
  | dismiss _ _ _ => exact kept.quiet (by simp) rfl
  | dropPool _ _ => exact kept.quiet (by simp) rfl
  | @register p pool k g hw _ hg =>
    have hw' := (hw.stay hg).wakeAll (.workerRegistered p)
    refine kept.quiet (by simp) ?_
    rw [hw'.works_settled rfl, works_wakeAll, works_onThread hg]
  | released hw _ => exact kept.quiet (by simp) (hw.works_settled rfl)
  | exit hw _ _ hg => exact kept.quiet (by simp) (hw.works_same hg rfl)
  | @claim p pool pool' k u hw _ _ _ =>
    have hw' : (s.setPool p pool').Working i p k (.parked true) := hw
    exact kept.quiet (by simp) (hw'.works_same Thread.rephases_setPhase rfl)
  | park hw _ _ _ => exact kept.quiet (by simp) (hw.works_same Thread.rephases_setPhase rfl)
  | @begin p k u task g hw ht hwork hg =>
    have hslot := works_setTask (t := t) ht
      { task with slot := task.slot.start, runs := task.runs + 1 }
    have hw' : (s.setTask u { task with slot := task.slot.start, runs := task.runs + 1 }).Working
      i p k (.holding u) := hw
    have hphase := hw'.works (t := t) (.running u) hg
    have hbefore : (Phase.holding u).works t = 0 := rfl
    simp only [Slot.works_start, Slot.works_full hwork] at hslot
    exact kept.quiet (by simp) (by omega)
  | @beginEmpty p k u task o g hw ht hwork _ =>
    have := (tasks u).equipped (hw.bearing_self rfl)
    simp [record_slot ht, hwork] at this
  | endWork hw _ _ hg =>
    exact kept.quiet (by simp) (hw.works_same hg (by simp [Phase.works]))
  | @stash p k u task work o hw ht =>
    have hslot := works_setSlot (t := t) ht (task.slot.stash work o)
    have hw' : (s.setSlot u (task.slot.stash work o)).Working i p k (.stashing u work o) := hw
    have hphase := hw'.works (t := t) (.stashed u o.returned) Thread.rephases_setPhase
    have hafter : (Phase.stashed u o.returned).works t = 0 := rfl
    rw [Slot.works_stash] at hslot
    have hzero : task.slot.works u t = 0 := by
      by_cases hu : u = t
      · subst hu
        obtain ⟨-, rfl⟩ := (tasks u).stashable (hw.bearing_self rfl)
        exact Slot.works_of_empty (task_eq ht ▸ kept.empty_stashing hw)
      · simp [Slot.works, hu]
    exact kept.quiet (by simp) (by omega)
  | @count p pool k u returned g hw _ hg =>
    have hw' : (s.setPool p (pool.count k returned)).Working i p k (.stashed u returned) := hw
    refine kept.quiet ?_ (hw'.works_same hg rfl)
    split <;> simp
  | retire hw _ ht =>
    refine kept.quiet ?_ (hw.works_retired ht)
    split <;> simp

theorem workKept_start (callers : Nat) (t : TaskId) : WorkKept [] (start callers) t := by
  have hs : (start callers).tally (Thread.works t) = 0 :=
    tally_eq_zero.mpr fun th hth => by rw [List.eq_of_mem_replicate hth]; rfl
  have hf : (start callers).weight (Frame.works t) = 0 :=
    weight_eq_zero.mpr fun th hth f hf => by
      rw [List.eq_of_mem_replicate hth] at hf
      cases hf
  have ht : ((start callers).task t).slot.works t t = 1 := by simp [Slot.works, System.task, start]
  simp [WorkKept, works, hs, hf, ht, Trace.discarded]

/-- In every run, the work of a task is in one place until a destructor begins for it. -/
theorem Run.works {callers : Nat} (run : Run callers h s) (t : TaskId) :
    s.works t + h.discarded t = 1 := by
  have both : (∀ u, (s.record u).Kept u h) ∧ WorkKept h s t :=
    run.keeps (P := fun h s => (∀ u, (s.record u).Kept u h) ∧ WorkKept h s t)
      ⟨kept_start callers, workKept_start callers t⟩
      fun _ ⟨kept, works⟩ m => ⟨fun u => (kept u).change (m.change u), works.move kept m⟩
  exact both.2

end System

end WorkerPool
