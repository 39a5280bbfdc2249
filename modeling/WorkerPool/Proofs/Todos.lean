import WorkerPool.Proofs.References
import WorkerPool.Proofs.Sections

/-!
What threads have yet to let go of.

As long as a task has its handle, nothing of it is let go of but references. Once the handle is
given up, what there is of it among the things to let go of only comes from there, from the last
reference, and from the worker that completes the task.
-/
namespace WorkerPool

/-- Whether the thing is the task, comes out of its slot, or tells that the task was detached. -/
def Disposal.about (t : TaskId) : Disposal → Bool
  | outcome u _ | work u | handle u | reference u | record (.detached u) => u == t
  | record _ => false

/-- What the frame has yet to let go of. -/
def Frame.todo : Frame → List Disposal
  | disposing todo _ _ => todo
  | _ => []

/-- A property of what a thread has yet to let go of that depends on what is about the task only,
and stays when things are let go of. -/
structure Disposal.Ebbing (t : TaskId) (P : ThreadId → List Disposal → Prop) : Prop where
  nil : ∀ j, P j []
  tail : ∀ j d l, P j (d :: l) → P j l
  cons : ∀ j d l, d.about t = false → P j l → P j (d :: l)
  refer : ∀ j u l, P j (.handle u :: l) → P j (.reference u :: l)

variable {t u : TaskId}

namespace Slot

variable {slot slot' : Slot} {todo : List Disposal}

theorem about_outcomes (hu : u ≠ t) :
    ∀ d ∈ slot.outcome.toList.map (Disposal.outcome u), d.about t = false := by
  intro d hd
  obtain ⟨o, -, rfl⟩ := List.mem_map.mp hd
  simpa [Disposal.about] using hu

theorem about_contents (hu : u ≠ t) : ∀ d ∈ slot.contents u, d.about t = false := by
  intro d hd
  rcases List.mem_append.mp hd with hd | hd
  · cases hw : slot.work <;> simp_all [Disposal.about]
  · exact about_outcomes hu d hd

theorem about_leftovers (hu : u ≠ t) : ∀ d ∈ slot.leftovers u, d.about t = false := by
  intro d hd
  unfold leftovers at hd
  split at hd
  · rcases List.mem_append.mp hd with hd | hd
    · exact about_outcomes hu d hd
    · cases hw : slot.work <;> simp_all [Disposal.about]
  · cases hd

theorem Surrender.about (h : slot.Surrender u slot' todo) (hu : u ≠ t) :
    ∀ d ∈ todo, d.about t = false := by
  intro d hd
  cases h with
  | finished _ _ =>
    rcases List.mem_append.mp hd with hd | hd
    · exact about_outcomes hu d hd
    · rcases List.mem_pair.mp hd with rfl | rfl <;> simpa [Disposal.about] using hu
  | outstanding _ _ => rcases List.mem_pair.mp hd with rfl | rfl <;> simpa [Disposal.about] using hu
  | plain => simp_all [Disposal.about]

end Slot

namespace Disposal.Ebbing

variable {P : ThreadId → List Disposal → Prop} {j : ThreadId} {l l' : List Disposal}

theorem append (ebbing : Ebbing t P) (hl : ∀ d ∈ l, d.about t = false) (h : P j l') :
    P j (l ++ l') := by
  induction l with
  | nil => exact h
  | cons d l ih =>
    have hd := List.forall_mem_cons.mp hl
    exact ebbing.cons j d _ hd.1 (ih hd.2)

theorem others (ebbing : Ebbing t P) (hl : ∀ d ∈ l, d.about t = false) : P j l := by
  simpa using ebbing.append hl (ebbing.nil j)

end Disposal.Ebbing

/-- No task that has been given away gets a handle again. -/
theorem Record.Change.handle {i : ThreadId} {es : List Event} {r r' : Record}
    (c : r.Change i t es r') (hh : r'.handle) : r.handle := by
  cases c <;> first | exact hh | cases hh

namespace System

variable {callers : Nat} {h : Trace} {s s' : System} {i : ThreadId} {es : List Event}
  {P : ThreadId → List Disposal → Prop}

/-- What every thread has yet to let go of has the property. -/
def Todos (s : System) (P : ThreadId → List Disposal → Prop) : Prop :=
  s.Frames fun j f => P j f.todo

section move

variable {task : Task} {pool : Pool} {p : PoolId}

theorem todo_wake (P : ThreadId → List Disposal → Prop) (j : ThreadId) (c : Condition) (f : Frame)
    (h : P j f.todo) : P j (f.wake c).todo := by
  cases f <;> exact h

theorem Todos.onThread {g : Thread → Thread} (each : s.Todos P)
    (hg : ∀ th, (g th).calls = th.calls) : (s.onThread i g).Todos P :=
  Frames.onThread each fun th _ hth => hg th ▸ hth

theorem Todos.settled (each : s.Todos P) : (s.settled i p pool).Todos P := by
  have parked : ((s.setPool p pool).onThread i (·.setPhase (.parked true))).Todos P :=
    Todos.onThread (s := s.setPool p pool) each fun _ => Thread.calls_setPhase
  unfold System.settled
  split
  · exact Frames.wakeAll parked (todo_wake P) _
  · exact parked

theorem Todos.published (each : s.Todos P) : (s.published i p pool u task).Todos P := by
  unfold System.published
  split
  · exact each
  · exact Frames.wakeAll (s := (s.setPool p (pool.retire i)).setSlot u task.slot.complete) each
      (todo_wake P) _

/-- What a move adds of the task to what its thread has yet to let go of. -/
structure Adds (i : ThreadId) (P : List Disposal → Prop) (s s' : System) (t : TaskId) : Prop where
  surrender : (s'.record t).handle = false → (s.record t).handle → ∀ slot todo,
    (s.record t).slot.Surrender t slot todo → P todo
  contents : (s.record t).Loose → ∀ l, P l → P ((s.record t).slot.contents t ++ l)
  leftovers : ∀ p, (s.record t).bearing i = some (p, .counted t) →
    P (.reference t :: (s.record t).slot.leftovers t)

theorem Todos.move (each : s.Todos P) (ebbing : Disposal.Ebbing t P) (m : Move i s es s')
    (adds : Adds i (P i) s s' t) : s'.Todos P := by
  cases m with
  | call _ _ => exact Frames.push each (ebbing.nil i)
  | leave _ _ _ => exact Frames.pop each
  | @wait f f' rest _ _ due =>
    refine Frames.enter each ?_
    cases f' with
    | disposing todo failure releasing => exact due.elim
    | _ => exact ebbing.nil i
  | note _ | addPool _ | addTask _ => exact each
  | hire _ _ _ => exact Frames.spawn each rfl
  | @accept p pool u task pick _ _ _ _ _ _ =>
    exact Frames.wakeOne (s := (s.setSlot u task.slot.claim).setPool p (pool.accept u)) each
      (todo_wake P) pick
  | @take f rest u task _ _ _ _ _ _ =>
    exact Frames.pop (s := s.setSlot u task.slot.release) each
  | @letGo f rest u task slot todo hi _ ht own surrender =>
    refine Frames.enter (s := s.setTask u { task with slot, handle := false }) each ?_
    by_cases hu : u = t
    · subst hu
      have handle : (s.record u).handle := handle_of_canShare (canOwn_iff.mp own).1
      refine adds.surrender ?_ handle slot todo (record_slot ht ▸ surrender)
      exact congrArg Task.handle (task_setTask (s := s) ht _)
    · exact ebbing.others (surrender.about hu)
  | discard hi _ => exact Frames.enter each (ebbing.tail i _ _ (Frames.inside each hi))
  | @destroy d r todo failure releasing rest hi _ =>
    have entered := Frames.enter each (f := .disposing todo failure releasing)
      (ebbing.tail i d todo (Frames.inside each hi))
    exact Frames.push entered (ebbing.nil i)
  | release hi _ _ => exact Frames.enter each (ebbing.refer i _ _ (Frames.inside each hi))
  | abandon hi _ _ _ => exact Frames.enter each (ebbing.refer i _ _ (Frames.inside each hi))
  | unref hi _ => exact Frames.enter each (ebbing.tail i _ _ (Frames.inside each hi))
  | @clear u task todo failure releasing rest hi ht href =>
    have left : P i todo := ebbing.tail i _ _ (Frames.inside each hi)
    refine Frames.enter each ?_
    by_cases hu : u = t
    · subst hu
      have gone := (gone_iff (s := s.enter i (.disposing todo failure releasing)) ht).mpr href
      exact record_slot ht ▸ adds.contents (record_enter (s := s) (t := u) _ ▸ gone.loose) todo left
    · exact ebbing.append (Slot.about_contents hu) left
  | @resume todo failure failure' releasing rest hi =>
    have popped := Frames.pop (i := i) each
    have left : P i todo := Frames.inside popped hi.pop
    exact Frames.enter popped left
  | close _ _ => exact each
  | @stop p pool k _ _ =>
    exact Frames.wakeAll (s := s.setPool p (pool.requestExit k)) each (todo_wake P) _
  | dismiss total _ _ => exact each
  | dropPool _ _ => exact each
  | @register p pool k g hw hp hg =>
    have entered : (s.onThread i g).Todos P := each.onThread fun th => (hg th).2
    exact Todos.settled (Frames.wakeAll entered (todo_wake P) _)
  | released _ _ => exact each.settled
  | exit _ _ _ hg => exact each.onThread fun th => (hg th).2
  | @claim p pool pool' k u _ _ _ _ =>
    exact Todos.onThread (s := s.setPool p pool') each fun _ => Thread.calls_setPhase
  | park _ _ _ _ => exact each.onThread fun _ => Thread.calls_setPhase
  | @begin p k u task g _ _ _ hg =>
    exact Todos.onThread (s := s.setTask u _) each fun th => (hg th).2
  | @beginEmpty p k u task o g _ _ _ hg =>
    exact Todos.onThread (s := s.setTask u _) each fun th => (hg th).2
  | endWork _ _ _ hg => exact each.onThread fun th => (hg th).2
  | @stash p k u task work o _ _ =>
    exact Todos.onThread (s := s.setSlot u _) each fun _ => Thread.calls_setPhase
  | @count p pool k u returned g _ _ hg =>
    exact Todos.onThread (s := s.setPool p _) each fun th => (hg th).2
  | @retire p pool k u task hw hp ht =>
    have phased : ((s.published i p pool u task).onThread i (·.setPhase .releasing)).Todos P :=
      each.published.onThread fun _ => Thread.calls_setPhase
    rw [retired_eq]
    refine Frames.push phased ?_
    by_cases hu : u = t
    · subst hu
      exact record_slot ht ▸ adds.leftovers p (hw.bearing_self rfl)
    · refine ebbing.others (List.forall_mem_cons.mpr ⟨?_, Slot.about_leftovers hu⟩)
      simpa [Disposal.about] using hu

end move

/-! ### Runs -/

/-- While the task has its handle, nothing of it is let go of but references. -/
def References (t : TaskId) (_ : ThreadId) (todo : List Disposal) : Prop :=
  ∀ d ∈ todo, d.about t → d = .reference t

theorem ebbing_references : Disposal.Ebbing t (References t) where
  nil _ := nofun
  tail _ _ _ hl := (List.forall_mem_cons.mp hl).2
  cons _ d _ hd hl := List.forall_mem_cons.mpr ⟨fun h => by simp [hd] at h, hl⟩
  refer _ u _ hl := by
    refine List.forall_mem_cons.mpr ⟨fun h => ?_, (List.forall_mem_cons.mp hl).2⟩
    simpa [Disposal.about] using h

theorem Run.references (run : Run callers h s) (hh : (s.task t).handle) :
    s.Todos (References t) := by
  have kept : (s.record t).Kept t h ∧ ((s.record t).handle → s.Todos (References t)) := by
    refine run.keeps (P := fun h s => (s.record t).Kept t h ∧
      ((s.record t).handle → s.Todos (References t))) ⟨kept_start callers t, fun _ => ?_⟩ ?_
    · intro j th hth f hf
      rw [List.eq_of_mem_replicate (List.mem_of_getElem? hth)] at hf
      cases hf
    · intro i h s es s' _ ⟨kept, each⟩ m
      have change := m.change t
      refine ⟨kept.change change, fun hh' => ?_⟩
      have hh := change.handle hh'
      have owned : (s.record t).slot.ownership ≠ .detached := by
        obtain ⟨life, st, hat, -⟩ := kept
        intro ho
        simp [hat.detached ho] at hh
      refine (each hh).move ebbing_references m ⟨fun h' => ?_, fun loose => ?_, fun _ _ => ?_⟩
      · simp [hh'] at h'
      · simp [loose.handle] at hh
      · simp [References, Slot.leftovers, owned]
  exact kept.2 hh

end System

end WorkerPool
