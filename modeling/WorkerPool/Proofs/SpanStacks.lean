import WorkerPool.Proofs.ClosedPool
import WorkerPool.Proofs.Wrapping

/-!
The span stacks of the threads of a run.

At every point of a run the role of a thread says which spans it has entered, so a worker that takes
its next task starts from the same stack whatever came before, and a task runs inside the span it
captured and those of its worker only. No library call touches a stack. All this holds for every
lawful tracing library.
-/
namespace WorkerPool

/-! ### What a role says about a stack -/

namespace Phase

/-- Forgets whether a wake-up has been delivered. -/
def unwoken : Phase → Phase
  | parked _ => parked false
  | phase => phase

/-- The spans a worker in this phase has entered, where the list has the spans the tasks captured.
-/
def attire (captures : List (Option Span)) : Phase → Option SpanStack
  | starting | exited => some []
  | parked _ | holding _ | counted _ | releasing => some [.worker]
  | running t => captures[t]?.map (·.toList ++ [.execution, .worker])
  | stashing _ _ _ | stashed _ _ => some [.execution, .worker]

variable {phase : Phase} {captures : List (Option Span)}

@[simp] theorem unwoken_wake (c : Condition) (p : PoolId) :
    (phase.wake c p).unwoken = phase.unwoken := by
  cases phase <;> rfl

@[simp] theorem attire_unwoken : phase.unwoken.attire captures = phase.attire captures := by
  cases phase <;> rfl

/-- More tasks change nothing. -/
theorem attire_append {stack : SpanStack} (h : phase.attire captures = some stack)
    (more : List (Option Span)) : phase.attire (captures ++ more) = some stack := by
  cases phase with
  | running t =>
    obtain ⟨c, hc, rfl⟩ := Option.map_eq_some_iff.mp h
    have hlt : t < captures.length := (List.getElem?_eq_some_iff.mp hc).1
    simp [attire, List.getElem?_append_left hlt, hc]
  | _ => exact h

end Phase

namespace Role

def unwoken : Role → Role
  | caller => caller
  | worker p k phase => worker p k phase.unwoken

def attire (captures : List (Option Span)) : Role → Option SpanStack
  | caller => some []
  | worker _ _ phase => phase.attire captures

/-- A worker goes to another phase. -/
def rephase (phase : Phase) : Role → Role
  | caller => caller
  | worker p k _ => worker p k phase

variable {role : Role} {captures : List (Option Span)}

@[simp] theorem unwoken_wake (c : Condition) : (role.wake c).unwoken = role.unwoken := by
  cases role <;> simp [wake, unwoken]

@[simp] theorem attire_unwoken : role.unwoken.attire captures = role.attire captures := by
  cases role <;> simp [attire, unwoken]

theorem attire_append {stack : SpanStack} (h : role.attire captures = some stack)
    (more : List (Option Span)) : role.attire (captures ++ more) = some stack := by
  cases role with
  | caller => exact h
  | worker p k phase => exact Phase.attire_append h more

end Role

/-- The role of a thread, and what it has done with spans. -/
structure Outfit where
  role : Role
  spans : SpanHistory

namespace Outfit

/-- The stack is the one that the role says. -/
def Fits (tr : Tracing) (captures : List (Option Span)) (o : Outfit) : Prop :=
  o.role.attire captures = some (tr.stack o.spans)

/-- A worker goes to another phase and enters or leaves spans. -/
def rephase (phase : Phase) (f : SpanHistory → SpanHistory) (o : Outfit) : Outfit :=
  ⟨o.role.rephase phase.unwoken, f o.spans⟩

/-- A worker with this stack. -/
def Wears (tr : Tracing) (stack : SpanStack) (o : Outfit) : Prop :=
  (∃ p k phase, o.role = .worker p k phase) ∧ tr.stack o.spans = stack

variable {o : Outfit} {tr : Tracing} {stack : SpanStack} {phase : Phase}
  {f : SpanHistory → SpanHistory} {captures : List (Option Span)}

theorem Wears.rephase (h : o.Wears tr stack) : (o.rephase phase id).Wears tr stack := by
  obtain ⟨⟨p, k, old, ho⟩, rfl⟩ := h
  exact ⟨⟨p, k, phase.unwoken, by simp [Outfit.rephase, Role.rephase, ho]⟩, rfl⟩

theorem Wears.fits (h : o.Wears tr stack)
    (hp : phase.attire captures = some (tr.stack (f o.spans))) :
    (o.rephase phase f).Fits tr captures := by
  obtain ⟨⟨p, k, old, ho⟩, rfl⟩ := h
  simpa [Fits, Outfit.rephase, Role.rephase, Role.attire, ho] using hp

/-- The worker stays in the spans it is in. -/
theorem Wears.fits_id (h : o.Wears tr stack) (hp : phase.attire captures = some stack) :
    (o.rephase phase id).Fits tr captures :=
  h.fits (hp.trans (congrArg some h.2.symm))

end Outfit

namespace Thread

variable {th : Thread}

def outfit (th : Thread) : Outfit := ⟨th.role.unwoken, th.spans⟩

@[simp] theorem outfit_wake (c : Condition) : (th.wake c).outfit = th.outfit := by
  simp [outfit, wake]

@[simp] theorem spans_setPhase (phase : Phase) : (th.setPhase phase).spans = th.spans := by
  unfold setPhase
  cases th.role <;> rfl

theorem outfit_rephase {g : Thread → Thread} {phase : Phase} {f : SpanHistory → SpanHistory}
    (hr : Rephases phase g) (hs : ∀ th, (g th).spans = f th.spans) :
    (g th).outfit = th.outfit.rephase phase f := by
  simp only [outfit, (hr th).1, hs, Outfit.rephase, Outfit.mk.injEq, and_true]
  cases h : th.role <;> simp [setPhase, Role.rephase, Role.unwoken, h]

end Thread

/-- What can be seen of a state when it comes to spans. -/
structure Dress where
  outfits : List Outfit
  captures : List (Option Span)

namespace Dress

/-- All stacks are those that the roles say. -/
def Fits (tr : Tracing) (d : Dress) : Prop := ∀ o ∈ d.outfits, o.Fits tr d.captures

/-- What a step of the thread `i` does. -/
inductive Next (tr : Tracing) (i : ThreadId) (d : Dress) : Dress → Prop
  | same : Next tr i d d
  | task (captured : Option Span) :
      Next tr i d { d with captures := d.captures ++ [captured] }
  | hire (p : PoolId) (k : Nat) :
      Next tr i d { d with outfits := d.outfits ++ [⟨.worker p k .starting, []⟩] }
  | work {g : Outfit → Outfit} :
      (∀ o, d.outfits[i]? = some o → o.Fits tr d.captures → (g o).Fits tr d.captures) →
      Next tr i d { d with outfits := d.outfits.modify i g }

variable {tr : Tracing} {i : ThreadId} {d d' : Dress}

theorem Fits.next (fits : d.Fits tr) (next : Next tr i d d') : d'.Fits tr := by
  cases next with
  | same => exact fits
  | task captured => exact fun o ho => Role.attire_append (fits o ho) _
  | hire p k =>
    intro o ho
    rcases List.mem_append.mp ho with ho | ho
    · exact fits o ho
    · rw [List.mem_singleton.mp ho]
      rfl
  | work hg =>
    intro o ho
    obtain ⟨j, hj⟩ := List.mem_iff_getElem?.mp ho
    rw [List.getElem?_modify] at hj
    obtain ⟨o', ho', rfl⟩ := Option.map_eq_some_iff.mp hj
    have fits' := fits o' (List.mem_of_getElem? ho')
    split
    · next hij => exact hg o' (hij ▸ ho') fits'
    · exact fits'

theorem Next.captures (next : Next tr i d d') : d.captures <+: d'.captures := by
  cases next with
  | task captured => exact List.prefix_append _ _
  | _ => exact List.prefix_rfl

end Dress

namespace System

variable {tr : Tracing} {callers : Nat} {h h' : Trace} {s s' : System} {i j : ThreadId}
  {p : PoolId} {t : TaskId}
  {pool : Pool} {task : Task} {th : Thread} {e : Effect} {es : List Event} {k : Nat} {pick : Pick}
  {g : Thread → Thread} {phase : Phase} {a : Action}

def dress (s : System) : Dress := ⟨s.threads.map Thread.outfit, s.tasks.map Task.captured⟩

@[simp] theorem emit_fst : (emit es e).1 = e.1 := rfl

/-! ### Library calls -/

section calls

@[simp] theorem dress_setPool : (s.setPool p pool).dress = s.dress := rfl

@[simp] theorem dress_addPool : (s.addPool pool).dress = s.dress := rfl

@[simp] theorem dress_addTask :
    (s.addTask task).dress = { s.dress with captures := s.dress.captures ++ [task.captured] } := by
  simp [dress, addTask]

@[simp] theorem dress_spawn :
    (s.spawn th).dress = { s.dress with outfits := s.dress.outfits ++ [th.outfit] } := by
  simp [dress, spawn]

@[simp] theorem dress_setSlot (slot : Slot) : (s.setSlot t slot).dress = s.dress := by
  simp [dress, setSlot, map_modify_of_eq]

theorem dress_setTask (new : Task) (ht : s.tasks[t]? = some task)
    (hc : new.captured = task.captured) : (s.setTask t new).dress = s.dress := by
  obtain ⟨hlt, rfl⟩ := List.getElem?_eq_some_iff.mp ht
  simp only [dress, setTask, List.map_set, hc, Dress.mk.injEq, true_and]
  rw [← List.map_set, List.set_getElem_self]

theorem dress_onThread (hg : ∀ th, (g th).outfit = th.outfit) :
    (s.onThread i g).dress = s.dress := by
  simp [dress, onThread, map_modify_of_eq hg]

@[simp] theorem dress_push (f : Frame) : (s.onThread i (·.push f)).dress = s.dress :=
  dress_onThread fun _ => rfl

@[simp] theorem dress_pop : (s.onThread i Thread.pop).dress = s.dress :=
  dress_onThread fun _ => rfl

@[simp] theorem dress_enter (f : Frame) : (s.enter i f).dress = s.dress :=
  dress_onThread fun _ => rfl

@[simp] theorem dress_wakeAll (c : Condition) : (s.wakeAll c).dress = s.dress := by
  simp [dress, wakeAll]

@[simp] theorem dress_wakeOne : (s.wakeOne p pick).dress = s.dress := by
  obtain ⟨j, hj⟩ := wakeOne_eq s p pick
  rw [hj]
  exact dress_onThread fun _ => Thread.outfit_wake _

@[simp] theorem dress_reply (r : Reply) : (s.reply i r).1.dress = s.dress := by
  simp [reply]

@[simp] theorem dress_runDestructor (r : Remains) : (s.runDestructor i r).1.dress = s.dress := by
  simp [runDestructor]

@[simp] theorem dress_accept : (s.accept i p pool t task pick).1.dress = s.dress := by
  unfold accept
  split <;> simp

theorem dress_submit : Dress.Next tr i s.dress (s.submit i p pool t task pick).1.dress := by
  unfold submit
  split
  · simpa using .same
  · split
    · simpa using .same
    · split
      · split
        · simpa [Thread.outfit, Role.unwoken, Phase.unwoken] using .hire p pool.rosterSize
        · simpa using .same
      · split <;> simpa using .same

@[simp] theorem dress_resumeSubmit : (s.resumeSubmit i p pool t task pick).1.dress = s.dress := by
  unfold resumeSubmit
  split
  · simp
  · split <;> simp

@[simp] theorem dress_takeOutcome : (s.takeOutcome i t task).1.dress = s.dress := by
  simp [takeOutcome]

@[simp] theorem dress_join {bound : Bound} : (s.join i t task bound).1.dress = s.dress := by
  unfold join
  split
  · simp
  · split
    · simp
    · split <;> simp

@[simp] theorem dress_resumeJoin {bound : Bound} :
    (s.resumeJoin i t task bound).1.dress = s.dress := by
  unfold resumeJoin
  split <;> simp

@[simp] theorem dress_expireJoin {nanos : Nat} :
    (s.expireJoin i t task nanos).1.dress = s.dress := by
  unfold expireJoin
  split <;> simp

theorem dress_letGo {new : Task} {todo : List Disposal} (ht : s.tasks[t]? = some task)
    (hc : new.captured = task.captured) : (s.letGo i t new todo).1.dress = s.dress := by
  simp [letGo, dress_setTask { new with handle := false } ht hc]

theorem dress_detach (ht : s.tasks[t]? = some task) :
    (s.detach i t task).1.dress = s.dress := by
  unfold detach
  split
  · split <;> exact dress_letGo ht rfl
  · simp
  · simp

theorem dress_destroy (ht : s.tasks[t]? = some task) :
    (s.destroy i t task).1.dress = s.dress := by
  unfold destroy
  split
  · simp
  · exact dress_letGo ht rfl

@[simp] theorem dress_dispose {todo : List Disposal} {failure : Option Payload} {releasing : Bool} :
    (s.dispose i th todo failure releasing).1.dress = s.dress := by
  cases todo with
  | nil =>
    simp only [dispose]
    split <;> split <;> simp
  | cons d todo =>
    cases d with
    | outcome t o =>
      simp only [dispose]
      split <;> simp
    | work t => simp [dispose]
    | record r => simp [dispose]
    | handle t =>
      simp only [dispose]
      split
      · simp
      · split <;> simp
    | reference t =>
      simp only [dispose]
      split
      · simp
      · split <;> simp

@[simp] theorem dress_endShutdown {failure : Option PoolError} {dropping : Bool} :
    (s.endShutdown i p pool failure dropping).1.dress = s.dress := by
  unfold endShutdown
  split <;> simp

@[simp] theorem dress_stopNext {next total : Nat} {dropping : Bool} :
    (s.stopNext i p pool next total dropping).1.dress = s.dress := by
  unfold stopNext finishTeardown
  split <;> simp

@[simp] theorem dress_resumeShutdown {dropping : Bool} :
    (s.resumeShutdown i p pool dropping).1.dress = s.dress := by
  unfold resumeShutdown decideShutdown
  split
  · simp
  · split <;> simp

@[simp] theorem dress_shutdown {dropping : Bool} :
    (s.shutdown i p pool dropping).1.dress = s.dress := by
  unfold shutdown
  split <;> simp

@[simp] theorem dress_waitIdle {dropping : Bool} :
    (s.waitIdle i p pool dropping).1.dress = s.dress := by
  unfold waitIdle
  split
  · split <;> simp
  · simp

@[simp] theorem dress_dropPool : (s.dropPool i p pool).1.dress = s.dress := by
  simp only [dropPool]
  split <;> simp

theorem dress_joinCrew {next total : Nat} {dropping : Bool}
    (h : s.joinCrew? i p pool next total dropping = some e) : e.1.dress = s.dress := by
  unfold joinCrew? at h
  split at h
  · cases h
  · split at h
    · cases h
      simp
    · split at h
      · cases h
        simp
      · cases h

end calls

/-! ### Workers -/

section workers

/-- The second state differs from the first one in what the thread wears. -/
def Alters (s : System) (i : ThreadId) (change : Outfit → Outfit) (s' : System) : Prop :=
  s'.dress = { s.dress with outfits := s.dress.outfits.modify i change }

variable {change change' : Outfit → Outfit} {f : SpanHistory → SpanHistory} {s'' : System}

theorem Alters.trans (h : s.Alters i change s') (h' : s'.Alters i change' s'') :
    s.Alters i (change' ∘ change) s'' := by
  unfold Alters at h h' ⊢
  simp [h', h, List.modify_modify_eq]

theorem Alters.of_dress (h : s.Alters i change s') (hd : s''.dress = s'.dress) :
    s.Alters i change s'' := hd.trans h

theorem Alters.after (h : s'.Alters i change s'') (hd : s'.dress = s.dress) :
    s.Alters i change s'' := by
  unfold Alters at h ⊢
  rw [h, hd]

theorem alters_onThread (hg : ∀ th, (g th).outfit = change th.outfit) :
    s.Alters i change (s.onThread i g) := by
  simp only [Alters, dress, onThread, Dress.mk.injEq, and_true]
  apply List.ext_getElem?
  intro j
  simp only [List.getElem?_map, List.getElem?_modify]
  split <;> simp [Function.comp_def, hg]

theorem alters_rephase (phase : Phase) (hr : Thread.Rephases phase g)
    (hs : ∀ th, (g th).spans = f th.spans) :
    s.Alters i (Outfit.rephase phase f) (s.onThread i g) :=
  alters_onThread fun _ => Thread.outfit_rephase hr hs

theorem alters_setPhase (phase : Phase) :
    s.Alters i (Outfit.rephase phase id) (s.onThread i (·.setPhase phase)) :=
  alters_rephase phase Thread.rephases_setPhase fun _ => Thread.spans_setPhase phase

theorem alters_settled :
    s.Alters i (Outfit.rephase (.parked true) id) (s.settled i p pool) := by
  have parks : s.Alters i (Outfit.rephase (.parked true) id)
      ((s.setPool p pool).onThread i (·.setPhase (.parked true))) :=
    (alters_setPhase _).after dress_setPool
  simp only [settled]
  split
  · exact parks.of_dress (dress_wakeAll _)
  · exact parks

/-- A worker without a task goes to a phase whose stack it has. -/
theorem alters_proceed (lawful : tr.Lawful) (s : System) (i : ThreadId) (p : PoolId) (pool : Pool)
    (k : Nat) : ∃ change, s.Alters i change (s.proceed i p pool k).1 ∧
      ∀ o captures, o.Wears tr [.worker] → (change o).Fits tr captures := by
  unfold proceed
  split
  · refine ⟨_, alters_rephase .exited (f := (·.leave (some .worker)))
      (Thread.rephases_leave _) fun _ => rfl, fun o captures worn => worn.fits ?_⟩
    rw [Tracing.stack_leave, worn.2, lawful.leave_some]
    rfl
  · split
    · exact ⟨_, alters_setPhase _, fun _ _ worn => worn.fits_id rfl⟩
    · exact ⟨_, (alters_setPhase _).after dress_setPool, fun _ _ worn => worn.fits_id rfl⟩

theorem alters_settle (lawful : tr.Lawful) (s : System) (i : ThreadId) (p : PoolId) (pool : Pool)
    (k : Nat) : ∃ change, s.Alters i change (s.settle i p pool k).1 ∧
      ∀ o captures, o.Wears tr [.worker] → (change o).Fits tr captures := by
  obtain ⟨change, h, hc⟩ := alters_proceed lawful (s.settled i p pool) i p pool k
  exact ⟨_, alters_settled.trans h, fun o captures worn => hc _ captures worn.rephase⟩

/-- A worker that goes to another phase changes its stack along. -/
theorem Alters.next (h : s.Alters i change s') (hth : s.threads[i]? = some th)
    (hr : th.role = .worker p k phase)
    (hc : ∀ o stack, phase.attire s.dress.captures = some stack → o.Wears tr stack →
      (change o).Fits tr s.dress.captures) : Dress.Next tr i s.dress s'.dress := by
  rw [h]
  refine .work fun o ho fits => ?_
  have ho : th.outfit = o := by simpa [dress, hth] using ho
  subst ho
  refine hc _ (tr.stack th.spans) ?_
    ⟨⟨p, k, phase.unwoken, by simp [Thread.outfit, Role.unwoken, hr]⟩, rfl⟩
  simpa [Outfit.Fits, Thread.outfit, hr, Role.attire, Role.unwoken] using fits

/-- A worker that invokes a work is in the spans of the execution and of the task. -/
theorem next_begin (lawful : tr.Lawful) (hth : s.threads[i]? = some th)
    (hr : th.role = .worker p k (.holding t)) (ht : s.tasks[t]? = some task) :
    Dress.Next tr i s.dress (s.begin i t task).1.dress := by
  have captured : s.dress.captures[t]? = some task.captured := by simp [dress, ht]
  have starts (runs : Nat) : (s.setTask t { task with slot := task.slot.start, runs }).dress =
      s.dress := dress_setTask _ ht rfl
  unfold begin
  split
  · have rephases : Thread.Rephases (.running t) fun th =>
        { ({ th with spans := th.spans.enter (some .execution) } : Thread).setPhase
            (.running t) with
          spans := (th.spans.enter (some .execution)).enter task.captured } :=
      fun th => Thread.rephases_enter (fun th => th.spans.enter (some .execution)) th
    refine ((alters_rephase (.running t)
      (f := fun spans => (spans.enter (some .execution)).enter task.captured) rephases
      fun _ => rfl).after (starts (task.runs + 1))).next hth hr fun o stack hs worn => ?_
    cases hs
    refine worn.fits ?_
    simp [worn.2, lawful.enter_eq, Phase.attire, captured]
  · refine ((alters_rephase
      (.stashing t false ⟨task.runs, .panicked "task has no work to run"⟩)
      (f := (·.enter (some .execution)))
      (Thread.rephases_enter fun th => th.spans.enter (some .execution))
      fun _ => Thread.spans_setPhase _).after (starts task.runs)).next hth hr
        fun o stack hs worn => ?_
    cases hs
    refine worn.fits ?_
    rw [Tracing.stack_enter, worn.2, lawful.enter_some]
    rfl

theorem dress_published : (s.published i p pool t task).dress = s.dress := by
  simp only [published]
  split <;> simp

theorem next_work (lawful : tr.Lawful) (hth : s.threads[i]? = some th)
    (hr : th.role = .worker p k phase)
    (h : s.work? i p k phase = some e) : Dress.Next tr i s.dress e.1.dress := by
  obtain ⟨pool, hp, h⟩ := Option.bind_eq_some_iff.mp h
  cases phase with
  | starting =>
    cases h
    have enters : s.Alters i (fun o => ⟨o.role, o.spans.enter (some .worker)⟩)
        (s.onThread i fun th => { th with spans := th.spans.enter (some .worker) }) :=
      alters_onThread fun _ => rfl
    obtain ⟨change, settles, fits⟩ := alters_settle lawful
      ((s.onThread i fun th => { th with spans := th.spans.enter (some .worker) }).wakeAll
        (.workerRegistered p)) i p pool.register k
    refine ((enters.of_dress (dress_wakeAll _)).trans settles).next hth hr fun o stack hs worn => ?_
    cases hs
    refine fits _ _ ⟨worn.1, ?_⟩
    rw [Tracing.stack_enter, worn.2, lawful.enter_some]
  | parked woken =>
    cases woken with
    | false => cases h
    | true =>
      cases h
      obtain ⟨change, proceeds, fits⟩ := alters_proceed lawful s i p pool k
      refine proceeds.next hth hr fun o stack hs worn => ?_
      cases hs
      exact fits _ _ worn
  | holding t =>
    obtain ⟨task, ht, h⟩ := Option.bind_eq_some_iff.mp h
    cases h
    exact next_begin lawful hth hr ht
  | running t => cases h
  | stashing t work o =>
    obtain ⟨task, ht, h⟩ := Option.bind_eq_some_iff.mp h
    cases h
    refine ((alters_setPhase _).after (dress_setSlot _)).next hth hr fun o stack hs worn => ?_
    cases hs
    exact worn.fits_id rfl
  | stashed t returned =>
    cases h
    refine ((alters_rephase _ (f := (·.leave (some .execution)))
      (Thread.rephases_leave _) fun _ => rfl).after dress_setPool).next hth hr
        fun o stack hs worn => ?_
    cases hs
    refine worn.fits ?_
    rw [Tracing.stack_leave, worn.2, lawful.leave_some]
    rfl
  | counted t =>
    obtain ⟨task, ht, h⟩ := Option.bind_eq_some_iff.mp h
    cases h
    have alters : s.Alters i (Outfit.rephase .releasing id) (s.retired i p pool t task) := by
      rw [retired_eq]
      exact ((alters_setPhase _).after dress_published).of_dress (dress_push _)
    refine Alters.next alters hth hr fun o stack hs worn => ?_
    cases hs
    exact worn.fits_id rfl
  | releasing =>
    cases h
    obtain ⟨change, settles, fits⟩ := alters_settle lawful s i p (pool.released i) k
    refine settles.next hth hr fun o stack hs worn => ?_
    cases hs
    exact fits _ _ worn
  | exited => cases h

end workers

/-! ### Steps -/

theorem next_call {op : Operation} (h : s.call? i op pick = some e) :
    Dress.Next tr i s.dress e.1.dress := by
  have inCall : (s.inCall i).dress = s.dress := dress_push _
  have owned {f : Task → Effect} {t : TaskId}
      (h : (s.tasks[t]?.bind fun task => if s.canOwn t then some (f task) else none) = some e)
      (hf : ∀ task, s.tasks[t]? = some task → (f task).1.dress = (s.inCall i).dress) :
      Dress.Next tr i s.dress e.1.dress := by
    obtain ⟨task, ht, h⟩ := Option.bind_eq_some_iff.mp h
    obtain ⟨-, h⟩ := Option.ite_none_right_eq_some.mp h
    cases h
    rw [hf task ht, inCall]
    exact .same
  have used {f : Pool → Effect} {p : PoolId} {c : Bool}
      (h : (s.pools[p]?.bind fun pool => if c then some (f pool) else none) = some e)
      (hf : ∀ pool, (f pool).1.dress = (s.inCall i).dress) :
      Dress.Next tr i s.dress e.1.dress := by
    obtain ⟨pool, -, h⟩ := Option.bind_eq_some_iff.mp h
    obtain ⟨-, h⟩ := Option.ite_none_right_eq_some.mp h
    cases h
    rw [hf pool, inCall]
    exact .same
  cases op with
  | createPool c =>
    simp only [call?] at h
    split at h <;> cases h <;> simpa using .same
  | createTask captured =>
    cases h
    simpa using .task captured
  | submit p t =>
    obtain ⟨pool, -, h⟩ := Option.bind_eq_some_iff.mp h
    obtain ⟨task, -, h⟩ := Option.bind_eq_some_iff.mp h
    obtain ⟨-, h⟩ := Option.ite_none_right_eq_some.mp h
    cases h
    exact inCall ▸ dress_submit (s := s.inCall i)
  | join t bound => exact owned h fun _ _ => dress_join
  | detach t => exact owned h fun _ ht => dress_detach (s := s.inCall i) ht
  | destroy t => exact owned h fun _ ht => dress_destroy (s := s.inCall i) ht
  | drop t => exact owned h fun _ ht => dress_letGo (s := s.inCall i) ht rfl
  | waitIdle p => exact used h fun _ => dress_waitIdle
  | shutdown p => exact used h fun _ => dress_shutdown
  | dropPool p => exact used h fun _ => dress_dropPool

theorem next_finish {ending : Except Payload Value} (lawful : tr.Lawful)
    (hth : s.threads[i]? = some th) (h : s.finish? i th ending = some e) :
    Dress.Next tr i s.dress e.1.dress := by
  unfold finish? at h
  split at h
  · cases h
    simpa using .same
  · next hr =>
    obtain ⟨task, ht, h⟩ := Option.bind_eq_some_iff.mp h
    cases h
    refine (alters_rephase _ (f := (·.leave task.captured))
      (Thread.rephases_leave _) fun _ => rfl).next hth hr fun o stack hs worn => ?_
    obtain rfl : task.captured.toList ++ [.execution, .worker] = stack := by
      simpa [Phase.attire, dress, ht] using hs
    refine worn.fits ?_
    rw [Tracing.stack_leave, worn.2, ← lawful.enter_eq, lawful.leave_enter]
    rfl
  · cases h

theorem next_advance (lawful : tr.Lawful) (hth : s.threads[i]? = some th)
    (h : s.advance? i th pick = some e) :
    Dress.Next tr i s.dress e.1.dress := by
  unfold advance? at h
  split at h
  · split at h
    · cases h
    · next hr => exact next_work lawful hth hr h
  · obtain ⟨pool, -, h⟩ := Option.bind_eq_some_iff.mp h
    obtain ⟨task, -, h⟩ := Option.bind_eq_some_iff.mp h
    cases h
    simpa using .same
  · obtain ⟨task, -, h⟩ := Option.bind_eq_some_iff.mp h
    cases h
    simpa using .same
  · obtain ⟨pool, -, h⟩ := Option.bind_eq_some_iff.mp h
    cases h
    simpa using .same
  · obtain ⟨pool, -, h⟩ := Option.bind_eq_some_iff.mp h
    cases h
    simpa using .same
  · obtain ⟨pool, -, h⟩ := Option.bind_eq_some_iff.mp h
    cases h
    simpa using .same
  · obtain ⟨pool, -, h⟩ := Option.bind_eq_some_iff.mp h
    exact dress_joinCrew h ▸ .same
  · cases h
    simpa using .same
  all_goals cases h

theorem next_expire (h : s.expire? i th = some e) : Dress.Next tr i s.dress e.1.dress := by
  unfold expire? at h
  split at h
  · obtain ⟨task, -, h⟩ := Option.bind_eq_some_iff.mp h
    cases h
    simpa using .same
  · cases h

theorem next_step (lawful : tr.Lawful) (hs : s.step i a = some e) :
    Dress.Next tr i s.dress e.1.dress := by
  obtain ⟨th, hth, h⟩ := Option.bind_eq_some_iff.mp hs
  cases a with
  | call op pick =>
    obtain ⟨-, h⟩ := Option.ite_none_right_eq_some.mp h
    exact next_call h
  | finish ending => exact next_finish lawful hth h
  | advance pick => exact next_advance lawful hth h
  | expire => exact next_expire h

/-! ### Runs -/

theorem Run.fits (lawful : tr.Lawful) (run : Run callers h s) : s.dress.Fits tr := by
  induction run with
  | start =>
    intro o ho
    obtain ⟨th, hth, rfl⟩ := List.mem_map.mp ho
    cases List.eq_of_mem_replicate hth
    rfl
  | step _ hs ih => exact ih.next (next_step lawful hs)

theorem Run.attire (lawful : tr.Lawful) (run : Run callers h s) (hth : s.threads[i]? = some th) :
    th.role.attire (s.tasks.map Task.captured) = some (tr.stack th.spans) := by
  have fits : th.outfit.Fits tr s.dress.captures :=
    run.fits lawful _ (List.mem_map_of_mem (List.mem_of_getElem? hth))
  simpa [Outfit.Fits, Thread.outfit, dress] using fits

/-- Tasks keep the spans they captured. -/
theorem captures_replay {schedule : List (ThreadId × Action)}
    (hr : s.replay schedule = some (h, s')) : s.dress.captures <+: s'.dress.captures := by
  induction schedule generalizing h s with
  | nil =>
    cases hr
    exact List.prefix_rfl
  | cons move rest ih =>
    obtain ⟨s₁, es, h₁, hs, hr₁, rfl⟩ := replay_cons hr
    exact (next_step Tracing.lists_lawful hs).captures.trans (ih hr₁)

/-- A worker that runs a task sees the span that was captured when the task was created. -/
theorem Run.attire_created {captured : Option Span} {s₁ : System}
    {schedule : List (ThreadId × Action)} (lawful : tr.Lawful) (run : Run callers h s)
    (hs : s.step i (.call (.createTask captured) pick) = some (s₁, es))
    (hr : s₁.replay schedule = some (h', s')) (hth : s'.threads[j]? = some th)
    (hrole : th.role = .worker p k (.running s.tasks.length)) :
    tr.stack th.spans = captured.toList ++ [.execution, .worker] := by
  have attire := ((run.step hs).replay hr).attire lawful hth
  cases step_createTask hs
  have created : (s.addTask { captured }).dress.captures[s.tasks.length]? = some captured := by
    simp [dress, addTask]
  obtain ⟨more, hmore⟩ := captures_replay hr
  have later : (s'.tasks.map Task.captured)[s.tasks.length]? = some captured := by
    have hlt : s.tasks.length < (s.addTask { captured }).dress.captures.length :=
      (List.getElem?_eq_some_iff.mp created).1
    rw [show s'.tasks.map Task.captured = s'.dress.captures from rfl, ← hmore,
      List.getElem?_append_left hlt, created]
  rw [hrole, Role.attire, Phase.attire, later] at attire
  exact (Option.some.inj attire).symm

/-- A work that has been invoked runs until its end on the worker that has invoked it. -/
theorem Run.runs_until {h₁ h₂ : Trace} {n : Nat} (run : Run callers h s)
    (hsplit : h = h₁ ++ (i, .started t n) :: h₂) :
    (∃ o, o.run = n ∧ (i, .ended t o) ∈ h₂) ∨ ∃ p, s.Has i p (.running t) := by
  obtain ⟨life, st, hat, story⟩ := run.kept t
  subst hsplit
  obtain ⟨p, rfl⟩ | ended := story.started_until
  · obtain ⟨u, rfl⟩ := hat.of_started
    have bearing : s.bearing t i = some (p, .running u) :=
      (congrFun hat.bearing i).trans (if_pos rfl)
    have has := has_of_bearing bearing
    obtain rfl : u = t := by
      obtain ⟨th, k, hth, hr⟩ := id has
      simpa [System.bearing, hth, Thread.bears, hr, Phase.bears, Phase.task?] using bearing
    exact .inr ⟨p, has⟩
  · exact .inl ended

/-- Spans are captured where a work is wrapped, entered around its calls, and left again. Stacks are
listed from the innermost span. -/
structure RestoresSpans (tr : Tracing) (h : Trace) (s : System) : Prop where
  /-- A call of the work sees the span that was innermost when it was wrapped on top of the stack of
  its thread, and leaves that stack as it was. -/
  call : ∀ {α : Type} (stack : SpanStack) (body : SpanStack → α) (now : SpanStack),
    (Wrapped.capture tr stack body).call tr now = (body (stack.head?.toList ++ now), now)
  /-- So does each of a sequence of calls on any threads, which change their stacks in between: it
  sees the stack its thread would have without the calls before. -/
  calls : ∀ {α : Type} (stack : SpanStack) (body : SpanStack → α) (before after : Deeds)
    (given : Nat → SpanStack) (i : Nat),
    ((Wrapped.capture tr stack body).run tr (before ++ (i, .call) :: after) given).1[
        before.countP (·.2.isCall)]? =
      some (body (stack.head?.toList ++ before.result given i))
  restores : ∀ {α : Type} (stack : SpanStack) (body : SpanStack → α) (deeds : Deeds)
    (given : Nat → SpanStack),
    ((Wrapped.capture tr stack body).run tr deeds given).2 = deeds.result given
  /-- From the invocation of a work to its end, its worker is the one that runs it. -/
  runs : ∀ {h₁ h₂ i t n}, h = h₁ ++ (i, .started t n) :: h₂ →
    (∃ o, o.run = n ∧ (i, .ended t o) ∈ h₂) ∨ ∃ p, s.Has i p (.running t)
  /-- Whoever runs a task sees the span that was innermost when the task was wrapped, that of the
  execution and that of the worker, whatever has happened since the task was created. -/
  traced : ∀ {stack : SpanStack} {i j : ThreadId} {pick s₁ es schedule h' s' p k} {th : Thread},
    s.step i (.call (.createTask (tr.current stack)) pick) = some (s₁, es) →
    s₁.replay schedule = some (h', s') → s'.threads[j]? = some th →
    th.role = .worker p k (.running s.tasks.length) →
    tr.stack th.spans = stack.head?.toList ++ [.execution, .worker]
  untraced : ∀ {i j : ThreadId} {pick s₁ es schedule h' s' p k} {th : Thread},
    s.step i (.call (.createTask none) pick) = some (s₁, es) →
    s₁.replay schedule = some (h', s') → s'.threads[j]? = some th →
    th.role = .worker p k (.running s.tasks.length) →
    tr.stack th.spans = [.execution, .worker]
  /-- A worker that has ended a work is back in the span of the execution, and then in its own. -/
  rests : ∀ {i : ThreadId} {th : Thread}, s.threads[i]? = some th →
    th.role.attire (s.tasks.map Task.captured) = some (tr.stack th.spans)

theorem Run.restores_spans (run : Run callers h s) (lawful : tr.Lawful) :
    RestoresSpans tr h s where
  call stack body now := by
    rw [Wrapped.capture_eq lawful, Wrapped.call_eq lawful]
  calls stack body before after given i := by
    rw [Wrapped.capture_eq lawful, Wrapped.run_call lawful]
  restores _ _ _ _ := Wrapped.run_result lawful
  runs := run.runs_until
  traced hs hr hth hrole := by
    rw [run.attire_created lawful hs hr hth hrole, lawful.current]
  untraced := run.attire_created lawful
  rests := run.attire lawful

/-- A worker runs a task again whose work has panicked, inside the span of a request. -/
theorem restores_spans_again : ∃ h s th, Run 1 h s ∧ (s.task 0).runs = 2 ∧
    s.threads[1]? = some th ∧
    Tracing.lists.stack th.spans = [.request "7", .execution, .worker] ∧
    RestoresSpans .lists h s := by
  have run : Run 1 _ _ := run_of_replay [(0, .call (.createPool (.new 1)) 0),
    (0, .call (.createTask (some (.request "7"))) 0), (0, .call (.submit 0 0) 0), (1, .advance 0),
    (0, .advance 0), (1, .advance 0), (1, .advance 0), (1, .finish (.error (.text "no"))),
    (1, .advance 0), (1, .advance 0), (1, .advance 0), (0, .call (.join 0 none) 0),
    (1, .advance 0), (1, .advance 0), (1, .advance 0), (0, .call (.submit 0 0) 0),
    (1, .advance 0), (1, .advance 0)] rfl
  exact ⟨_, _, _, run, rfl, rfl, rfl, run.restores_spans Tracing.lists_lawful⟩

end System

end WorkerPool
