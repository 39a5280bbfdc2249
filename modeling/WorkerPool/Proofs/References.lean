import WorkerPool.Proofs.Rounds

/-!
Tasks that nothing refers to.

A task exists as long as its handle, a queue, a worker or something to let go of refers to it. Its
slot is cleared when the last of these goes, and from then on nothing ever refers to it again.
-/
namespace WorkerPool

variable {t u : TaskId}

/-- The task has no handle, is in no queue and in the hands of no worker. -/
structure Record.Loose (r : Record) : Prop where
  handle : r.handle = false
  bearing : r.bearing = fun _ => none
  queued : r.queued = fun _ => 0

/-- A loose task is not taken up again. -/
theorem Record.Change.loose {i : ThreadId} {es : List Event} {r r' : Record}
    (c : r.Change i t es r') (loose : r.Loose) : r'.Loose := by
  obtain ⟨hh, hb, hq⟩ := loose
  cases c with
  | same | hire | abandon | clear => exact ⟨hh, hb, hq⟩
  | accept handle | take handle | surrender handle => simp [hh] at handle
  | claim queued => simp [hq] at queued
  | begin bearing | beginEmpty bearing | endWork bearing | stash bearing | count bearing
  | retire bearing => simp [hb] at bearing

/-- No pool owes a loose task. -/
theorem Record.Kept.not_outstanding {r : Record} {h : Trace} (kept : r.Kept t h)
    (loose : r.Loose) : r.slot.isOutstanding = false := by
  obtain ⟨life, st, hat, -⟩ := kept
  have agrees := hat.agrees
  cases life with
  | idle => simp [Slot.isOutstanding, agrees.2.1]
  | queued p =>
    have := congrFun (loose.queued.symm.trans hat.queued) p
    simp [Life.queue] at this
  | carried p i phase =>
    have := congrFun (loose.bearing.symm.trans hat.bearing) i
    simp [Life.bearing] at this
  | done o => simp [Slot.isOutstanding, agrees.2.1]

namespace Frame

theorem holds_wake (c : Condition) (f : Frame) : (f.wake c).holds t = f.holds t := by
  cases f <;> rfl

variable {d : Disposal} {todo : List Disposal} {failure : Option Payload} {releasing : Bool}

theorem holds_tail (h : (disposing (d :: todo) failure releasing).holds t = 0) :
    (disposing todo failure releasing).holds t = 0 := by
  simp only [holds, List.countP_cons] at h ⊢
  omega

/-- The contents of a slot are no references. -/
theorem holds_contents (slot : Slot) (h : (disposing todo failure releasing).holds t = 0) :
    (disposing (slot.contents u ++ todo) failure releasing).holds t = 0 := by
  cases hw : slot.work <;> simpa [holds, Slot.contents, List.countP_append, hw] using h

/-- Who lets go of a handle lets go of a reference next. -/
theorem holds_handle (h : (disposing (.handle u :: todo) failure releasing).holds t = 0) :
    (disposing (.reference u :: todo) failure releasing).holds t = 0 := h

theorem holds_surrender {slot slot' : Slot} (h : slot.Surrender u slot' todo) (hu : u ≠ t) :
    (disposing todo none false).holds t = 0 := by
  cases h <;> simp [holds, hu]

theorem holds_leftovers (slot : Slot) (hu : u ≠ t) :
    (disposing (.reference u :: slot.leftovers u) none true).holds t = 0 := by
  simp only [holds, Slot.leftovers, List.countP_cons]
  split
  · split <;> simp [hu]
  · simp [hu]

end Frame

namespace System

variable {s s' : System} {i : ThreadId} {f : Frame} {rest : List Frame} {es : List Event}
  {task : Task}

/-- No thread has a reference to the task among the things to let go of. -/
def Unheld (s : System) (t : TaskId) : Prop := s.EachFrame fun f => f.holds t = 0

/-- There was a task, and nothing refers to it any more. -/
structure Gone (s : System) (t : TaskId) : Prop where
  loose : (s.record t).Loose
  unheld : s.Unheld t

theorem holds_calls {th : Thread} :
    th.calls.foldr (fun f n => f.holds t + n) 0 = 0 ↔ ∀ f ∈ th.calls, f.holds t = 0 := by
  rw [foldr_weigh, List.sum_eq_zero_iff]
  simp

/-- A task is gone if and only if there is no reference to it. -/
theorem gone_iff (ht : s.tasks[t]? = some task) : s.Gone t ↔ s.references t = 0 := by
  constructor
  · rintro ⟨⟨hh, hb, hq⟩, unheld⟩
    have handle : task.handle = false := record_handle ht ▸ hh
    have queues : ∀ pool ∈ s.pools, pool.queue.entries.count t = 0 := by
      intro pool hpool
      obtain ⟨p, hp⟩ := List.getElem?_of_mem hpool
      rw [← queued_eq hp, hq]
    have threads : ∀ th ∈ s.threads, th.holds t = 0 := by
      intro th hth
      obtain ⟨i, hi⟩ := List.getElem?_of_mem hth
      have role : th.role.task? ≠ some t := by
        intro hr
        have hb : (s.record t).bearing i = none := congrFun hb i
        cases hrole : th.role with
        | caller => simp [hrole, Role.task?] at hr
        | worker p k phase =>
          have hphase : phase.task? = some t := by simpa [hrole, Role.task?] using hr
          simp [record, System.bearing, hi, Thread.bears, hrole, Phase.bears_self hphase] at hb
      simp [Thread.holds, role, holds_calls.mpr (unheld th hth)]
    simp only [references, ht, Option.any_some, handle, foldr_weigh, Nat.add_eq_zero_iff,
      List.sum_eq_zero_iff, List.mem_map]
    refine ⟨⟨rfl, ?_⟩, ?_⟩
    · rintro n ⟨pool, hpool, rfl⟩
      exact queues pool hpool
    · rintro n ⟨th, hth, rfl⟩
      exact threads th hth
  · intro h
    obtain ⟨hh, hb, hq⟩ := record_of_references h ht
    refine ⟨⟨hh, hb, hq⟩, fun th hth => holds_calls.mp ?_⟩
    simp only [references, foldr_weigh, Nat.add_eq_zero_iff, List.sum_eq_zero_iff] at h
    have hz := h.2 _ (List.mem_map_of_mem hth)
    simp only [Thread.holds, Nat.add_eq_zero_iff] at hz
    exact hz.2

/-! ### Moves -/

variable {h : Trace}

theorem enter_enter (f f' : Frame) : (s.enter i f).enter i f' = s.enter i f' := by
  rw [enter, enter, onThread_onThread]
  rfl

theorem task_settled {p : PoolId} (pool : Pool) : (s.settled i p pool).task t = s.task t := by
  unfold System.settled
  split <;> rfl

theorem loose_canShare (loose : (s.record t).Loose) (share : s.canShare u) : u ≠ t := by
  rintro rfl
  have hh := handle_of_canShare share
  simp [loose.handle] at hh

theorem Working.ne_of_loose {p : PoolId} {k : Nat} {phase : Phase} (hw : s.Working i p k phase)
    (hu : phase.task? = some u) (loose : (s.record t).Loose) : u ≠ t := by
  rintro rfl
  have hb := hw.bearing_self hu
  simp [loose.bearing] at hb

theorem Unheld.same (unheld : s.Unheld t) (frames : SameFrames s s') : s'.Unheld t :=
  frames.each _ (fun c f h => (Frame.holds_wake c f).trans h) unheld

/-- A move leaves the slot of a loose task alone and takes no reference to it, unless it lets go of
the last one. -/
theorem Move.of_loose (m : Move i s es s') (kept : (s.record t).Kept t h)
    (loose : (s.record t).Loose) :
    ((s'.task t).slot = (s.task t).slot ∧ (s.Unheld t → s'.Unheld t)) ∨ s'.Gone t := by
  have slot_ne {u : TaskId} {slot : Slot} (hu : u ≠ t) :
      ((s.setSlot u slot).task t).slot = (s.task t).slot :=
    congrArg Record.slot (record_setSlot_ne slot hu)
  have task_ne {u : TaskId} (new : Task) (hu : u ≠ t) :
      ((s.setTask u new).task t).slot = (s.task t).slot :=
    congrArg Record.slot (record_setTask_ne new hu)
  have same (hslot : (s'.task t).slot = (s.task t).slot) (frames : SameFrames s s') :
      ((s'.task t).slot = (s.task t).slot ∧ (s.Unheld t → s'.Unheld t)) ∨ s'.Gone t :=
    .inl ⟨hslot, fun unheld => unheld.same frames⟩
  cases m with
  | call _ _ => exact .inl ⟨rfl, fun unheld => unheld.push rfl⟩
  | leave _ _ _ => exact .inl ⟨rfl, fun unheld => unheld.pop⟩
  | @wait f f' rest _ _ due =>
    refine .inl ⟨rfl, fun unheld => unheld.enter ?_⟩
    cases f' with
    | disposing todo failure releasing => exact due.elim
    | _ => rfl
  | note _ => exact same rfl (.refl s)
  | addPool _ => exact same rfl (.of_threads rfl)
  | addTask captured =>
    exact same (congrArg Record.slot (record_addTask captured)) (.of_threads rfl)
  | hire _ _ _ => exact same rfl ((SameFrames.spawn rfl).trans (.of_threads rfl))
  | @accept p pool u task pick _ _ _ _ share _ =>
    have hu := loose_canShare loose share
    have told : SameFrames s ((s.setSlot u task.slot.claim).setPool p (pool.accept u)) :=
      .of_threads rfl
    refine same ?_ (told.trans (.wakeOne pick))
    rw [System.task, tasks_wakeOne]
    exact slot_ne hu
  | take _ _ _ own _ _ =>
    have hu := loose_canShare (s := s.onThread i Thread.pop) (by rwa [record_pop])
      (canOwn_iff.mp own).1
    have popped (unheld : s.Unheld t) : (s.onThread i Thread.pop).Unheld t := unheld.pop
    exact .inl ⟨slot_ne hu, popped⟩
  | letGo _ _ _ own surrender =>
    have hu := loose_canShare loose (canOwn_iff.mp own).1
    have entered (unheld : s.Unheld t) : (s.enter i (.disposing _ none false)).Unheld t :=
      unheld.enter (Frame.holds_surrender surrender hu)
    exact .inl ⟨task_ne _ hu, entered⟩
  | discard hi _ =>
    exact .inl ⟨rfl, fun unheld => unheld.enter (Frame.holds_tail (unheld.inside hi))⟩
  | destroy hi _ =>
    exact .inl ⟨rfl, fun unheld =>
      (EachFrame.enter unheld (Frame.holds_tail (unheld.inside hi))).push rfl⟩
  | release hi _ _ =>
    exact .inl ⟨rfl, fun unheld => unheld.enter (Frame.holds_handle (unheld.inside hi))⟩
  | @abandon u task todo failure releasing rest hi ht ho hh =>
    have hu : u ≠ t := by
      rintro rfl
      have := kept.not_outstanding loose
      simp [record_slot ht, ho] at this
    have entered (unheld : s.Unheld t) :
        (s.enter i (.disposing (.reference u :: todo) failure releasing)).Unheld t :=
      unheld.enter (Frame.holds_handle (unheld.inside hi))
    exact .inl ⟨slot_ne hu, entered⟩
  | unref hi _ =>
    exact .inl ⟨rfl, fun unheld => unheld.enter (Frame.holds_tail (unheld.inside hi))⟩
  | @clear u task todo failure releasing rest hi ht href =>
    have entered (unheld : (s.enter i (.disposing todo failure releasing)).Unheld t) :
        (s.enter i (.disposing (task.slot.contents u ++ todo) failure releasing)).Unheld t := by
      rw [← enter_enter (.disposing todo failure releasing)]
      exact unheld.enter (Frame.holds_contents task.slot (unheld.inside hi.enter))
    by_cases hu : u = t
    · subst hu
      have gone := (gone_iff (s := s.enter i (.disposing todo failure releasing)) ht).mpr href
      exact .inr ⟨(Move.change (.clear hi ht href) u).loose loose, entered gone.unheld⟩
    · refine .inl ⟨slot_ne hu, fun unheld => entered ?_⟩
      exact unheld.enter (Frame.holds_tail (unheld.inside hi))
  | resume hi =>
    refine .inl ⟨rfl, fun unheld => ?_⟩
    have popped : (s.onThread i Thread.pop).Unheld t := unheld.pop
    have held := popped.inside hi.pop
    exact popped.enter held
  | close _ _ => exact same rfl (.of_threads rfl)
  | @stop p pool k _ _ =>
    have told : SameFrames s (s.setPool p (pool.requestExit k)) := .of_threads rfl
    exact same rfl (told.trans (.wakeAll _))
  | dismiss total _ _ => exact same rfl (.of_threads rfl)
  | dropPool _ _ => exact same rfl (.of_threads rfl)
  | register hw hp hg =>
    exact same (congrArg Task.slot (task_settled _))
      (((SameFrames.onThread fun th => (hg th).2).trans (.wakeAll _)).trans (.settled _))
  | released _ _ => exact same (congrArg Task.slot (task_settled _)) (.settled _)
  | exit _ _ _ hg => exact same rfl (.onThread fun th => (hg th).2)
  | claim _ _ _ _ => exact same rfl (.after rfl fun _ => Thread.calls_setPhase)
  | park _ _ _ _ => exact same rfl (.onThread fun _ => Thread.calls_setPhase)
  | begin hw _ _ hg =>
    exact same (task_ne _ (hw.ne_of_loose rfl loose)) (.after rfl fun th => (hg th).2)
  | beginEmpty hw _ _ hg =>
    exact same (task_ne _ (hw.ne_of_loose rfl loose)) (.after rfl fun th => (hg th).2)
  | endWork _ _ _ hg => exact same rfl (.onThread fun th => (hg th).2)
  | stash hw _ =>
    exact same (slot_ne (hw.ne_of_loose rfl loose)) (.after rfl fun _ => Thread.calls_setPhase)
  | count _ _ hg => exact same rfl (.after rfl fun th => (hg th).2)
  | @retire p pool k u task hw hp ht =>
    have hu := hw.ne_of_loose rfl loose
    have frames : SameFrames s ((s.published i p pool u task).onThread i (·.setPhase .releasing)) :=
      (SameFrames.published pool).trans (.onThread fun _ => Thread.calls_setPhase)
    refine .inl ⟨?_, fun unheld => ?_⟩
    · exact (congrArg Record.slot (record_published (u := t) hp)).trans (slot_ne hu)
    · rw [retired_eq]
      exact (unheld.same frames).push (Frame.holds_leftovers task.slot hu)

/-! ### Runs -/

theorem Gone.move (gone : s.Gone t) (kept : (s.record t).Kept t h) (m : Move i s es s') :
    s'.Gone t := by
  rcases m.of_loose kept gone.loose with ⟨-, unheld⟩ | gone
  · exact ⟨(m.change t).loose gone.loose, unheld gone.unheld⟩
  · exact gone

theorem Gone.moves (gone : s.Gone t) (kept : (s.record t).Kept t h) (ms : Moves i s es s') :
    s'.Gone t := by
  induction ms generalizing h with
  | nil => exact gone
  | cons m _ ih => exact ih (gone.move kept m) (kept.change (m.change t))

/-- Nothing refers to a task again that nothing refers to. -/
theorem Gone.later {callers : Nat} (gone : s.Gone t) (run : Run callers h s)
    (later : Later s s') : s'.Gone t := by
  induction later with
  | refl => exact gone
  | step later hs ih =>
    obtain ⟨h', run'⟩ := run.later later
    exact ih.moves (run'.kept t) (moves_of_step run'.calls hs)

end System

end WorkerPool
