import WorkerPool.Proofs.Rounds

/-!
How outcomes get into the hands of those who let go of them.

A task that nobody can submit any more stays with its last owner, and that owner tells the way its
outcome went: the worker of a detached task has the leftovers, the call that detached a finished
task has the outcome it found, and otherwise the slot went down with its last reference.
-/
namespace WorkerPool

variable {t : TaskId} {i : ThreadId} {h : Trace} {es : List Event} {r r' : Record}

/-- Nobody has the handle, and no pool is going to run the task. -/
def Record.Over (r : Record) : Prop :=
  r.handle = false ∧ (r.slot.ownership ≠ .pool ∨ r.slot.state = .finished)

theorem Record.Kept.pending {p : PoolId} (kept : r.Kept t h)
    (hb : r.bearing i = some (p, .holding t)) : r.slot.state = .pending := by
  obtain ⟨life, st, hat, story⟩ := kept
  obtain rfl := hat.of_bearing hb
  exact hat.agrees.2.2.1

/-- A worker that is about to complete a task has put the work back. -/
theorem Record.Kept.put_back {p : PoolId} (kept : r.Kept t h)
    (hb : r.bearing i = some (p, .counted t)) : r.slot.work := by
  obtain ⟨life, st, hat, story⟩ := kept
  obtain rfl := hat.of_bearing hb
  obtain ⟨o, -, -, -, -, hwork⟩ := hat.agrees
  exact hwork

/-- A task that is over stays so, with the same owner. -/
theorem Record.Change.over_kept (c : r.Change i t es r') (kept : r.Kept t h) (gone : r.Over) :
    r'.Over ∧ r'.slot.ownership = r.slot.ownership := by
  obtain ⟨hh, ho⟩ := gone
  cases c with
  | same | hire | claim | endWork | count => exact ⟨⟨hh, ho⟩, rfl⟩
  | accept handle | take handle | surrender handle => simp [hh] at handle
  | abandon _ out _ =>
    simp only [Slot.isOutstanding, decide_eq_true_eq] at out
    rcases ho with ho | ho
    · exact absurd out.1 ho
    · exact absurd ho out.2
  | clear => exact ⟨⟨hh, ho⟩, rfl⟩
  | begin hb | beginEmpty hb =>
    have hs := kept.pending hb
    refine ⟨⟨hh, .inl ?_⟩, rfl⟩
    rcases ho with ho | ho
    · exact ho
    · simp [hs] at ho
  | stash => exact ⟨⟨hh, ho⟩, rfl⟩
  | retire =>
    have hown : r.slot.complete.ownership = r.slot.ownership := by
      unfold Slot.complete
      split <;> rfl
    refine ⟨⟨hh, .inr ?_⟩, hown⟩
    simp only [Slot.complete]
    split <;> rfl

/-- Where an outcome of the task that is to be let go of before the rest comes from. Its worker has
the work to let go of later, and a call that detaches it the handle. -/
def Ownership.Fate (t : TaskId) (releasing : Bool) (rest : List Disposal) : Ownership → Prop
  | detached => releasing = true ∧ .work t ∈ rest
  | caller => releasing = false ∧ .handle t ∈ rest
  | pool => True

namespace System

variable {s s' : System} {f : Frame} {todo : List Disposal} {d : Disposal} {task : Task}
  {failure : Option Payload} {releasing : Bool} {slot : Slot} {u : TaskId}

/-- Outcomes that the frame lets go of are of tasks that are over, and come from their owners. -/
def Fates (s : System) : Frame → Prop
  | .disposing todo _ releasing => ∀ t o rest, .outcome t o :: rest <:+ todo →
      (s.record t).Over ∧ (s.record t).slot.ownership.Fate t releasing rest
  | _ => True

theorem fates_wake (c : Condition) (h : s.Fates f) : s.Fates (f.wake c) := by
  cases f <;> exact h

theorem Fates.of_isBare (h : f.isBare) : s.Fates f := by
  cases f with
  | disposing todo failure releasing =>
    cases todo with
    | nil => exact fun t o rest hsub => by simp at hsub
    | cons d todo => simp [Frame.isBare] at h
  | _ => trivial

theorem Fates.tail (h : s.Fates (.disposing (d :: todo) failure releasing)) :
    s.Fates (.disposing todo failure releasing) :=
  fun t o rest hsub => h t o rest (hsub.trans (List.suffix_cons d todo))

/-- What is let go of first is no outcome. -/
theorem Fates.cons (h : s.Fates (.disposing todo failure releasing))
    (hd : ∀ t o, d ≠ .outcome t o) : s.Fates (.disposing (d :: todo) failure releasing) := by
  intro t o rest hsub
  rcases List.suffix_cons_iff.mp hsub with heq | hsub
  · cases heq
    exact absurd rfl (hd t o)
  · exact h t o rest hsub

/-- Contents of a slot whose owner is the pool come first. -/
theorem Fates.contents (h : s.Fates (.disposing todo failure releasing)) (gone : (s.record u).Over)
    (ho : slot.outcome.isSome → (s.record u).slot.ownership = .pool) :
    s.Fates (.disposing (slot.contents u ++ todo) failure releasing) := by
  have first : s.Fates (.disposing (slot.outcome.toList.map (.outcome u) ++ todo) failure
      releasing) := by
    cases hout : slot.outcome with
    | none => exact h
    | some x =>
      intro t o rest hsub
      rcases List.suffix_cons_iff.mp hsub with heq | hsub
      · cases heq
        rw [ho (by simp [hout])]
        exact ⟨gone, trivial⟩
      · exact h t o rest hsub
  rw [Slot.contents, List.append_assoc]
  split
  · exact first.cons (d := .work u) (by simp)
  · exact first

theorem fates_leftovers (hwork : slot.work) (gone : slot.ownership = .detached →
      (s.record u).Over ∧ (s.record u).slot.ownership = .detached) :
    s.Fates (.disposing (.reference u :: slot.leftovers u) none true) := by
  have bare : s.Fates (.disposing [] none true) := .of_isBare rfl
  have last : s.Fates (.disposing [.work u] none true) := bare.cons (by simp)
  refine Fates.cons ?_ (by simp)
  rw [Slot.leftovers, if_pos hwork]
  split
  · next hd =>
    cases slot.outcome with
    | none => exact last
    | some x =>
      intro t o rest hsub
      rcases List.suffix_cons_iff.mp hsub with heq | hsub
      · cases heq
        obtain ⟨hover, hdetached⟩ := gone hd
        rw [hdetached]
        exact ⟨hover, rfl, by simp⟩
      · exact last t o rest hsub
  · exact bare

theorem fates_surrender (h : task.slot.Surrender u slot todo) (gone : slot.ownership = .caller →
      (s.record u).Over ∧ (s.record u).slot.ownership = .caller) :
    s.Fates (.disposing todo none false) := by
  have bare : s.Fates (.disposing [] none false) := .of_isBare rfl
  have handle : s.Fates (.disposing [.handle u] none false) := bare.cons (by simp)
  have note : s.Fates (.disposing [.record (.detached u), .handle u] none false) :=
    handle.cons (by simp)
  cases h with
  | finished _ _ =>
    cases task.slot.outcome with
    | none => exact note
    | some x =>
      intro t o rest hsub
      rcases List.suffix_cons_iff.mp hsub with heq | hsub
      · cases heq
        obtain ⟨hover, hcaller⟩ := gone rfl
        rw [hcaller]
        exact ⟨hover, rfl, by simp⟩
      · exact note t o rest hsub
  | outstanding _ _ => exact note
  | plain => exact handle

/-! ### Runs -/

/-- What is over stays over, with the same owner. -/
def Steady (s s' : System) : Prop := ∀ t, (s.record t).Over →
  (s'.record t).Over ∧ (s'.record t).slot.ownership = (s.record t).slot.ownership

theorem Move.steady (m : Move i s es s') (kept : ∀ t, (s.record t).Kept t h) : Steady s s' :=
  fun t gone => (m.change t).over_kept (kept t) gone

theorem Fates.steady (h : s.Fates f) (hs : Steady s s') : s'.Fates f := by
  cases f with
  | disposing todo failure releasing =>
    intro t o rest hsub
    obtain ⟨gone, fate⟩ := h t o rest hsub
    obtain ⟨gone', ho⟩ := hs t gone
    exact ⟨gone', ho ▸ fate⟩
  | _ => trivial

/-- A worker of a detached task lets go of what is over. -/
theorem over_retired {p : PoolId} {pool : Pool} {k : Nat} (kept : (s.record u).Kept u h)
    (hw : s.Working i p k (.counted u)) (hp : s.pools[p]? = some pool)
    (ht : s.tasks[u]? = some task) (hd : task.slot.ownership = .detached) :
    ((s.retired i p pool u task).record u).Over ∧
      ((s.retired i p pool u task).record u).slot.ownership = .detached := by
  obtain ⟨life, st, hat, -⟩ := kept
  have hh := hat.detached (by rw [record_slot ht, hd])
  have hw' : (s.published i p pool u task).Working i p k (.counted u) := hw.published rfl
  have hslot : ((s.retired i p pool u task).record u).slot = task.slot.complete := by
    rw [retired_eq, record_push, hw'.record .releasing fun _ => rfl, record_published hp,
      record_setSlot ht]
  have hhandle : ((s.retired i p pool u task).record u).handle = false := by
    rw [retired_eq, record_push, hw'.record .releasing fun _ => rfl, record_published hp,
      record_setSlot ht]
    exact hh
  have hown : task.slot.complete.ownership = .detached := by
    unfold Slot.complete
    split <;> exact hd
  exact ⟨⟨hhandle, .inl (by simp [hslot, hown])⟩, by rw [hslot, hown]⟩

/-- Who has the last reference finds an outcome only if the pool is the owner. -/
theorem over_cleared (kept : (s.record u).Kept u h) (ht : s.tasks[u]? = some task)
    (href : (s.enter i f).references u = 0) :
    (s.record u).Over ∧ (task.slot.outcome.isSome → (s.record u).slot.ownership = .pool) := by
  have ht' : (s.enter i f).tasks[u]? = some task := ht
  have hr := record_of_references href ht'
  rw [record_enter] at hr
  obtain ⟨hh, hb, hq⟩ := hr
  obtain ⟨life, st, hat, -⟩ := kept
  have agrees := hat.agrees
  rw [← record_slot ht]
  cases life with
  | idle => exact ⟨⟨hh, .inl (by simp [agrees.2.1])⟩, by simp [agrees.2.2.1]⟩
  | queued p =>
    have := congrFun (hq.symm.trans hat.queued) p
    simp [Life.queue] at this
  | carried p j phase =>
    have := congrFun (hb.symm.trans hat.bearing) j
    simp [Life.bearing] at this
  | done o =>
    refine ⟨⟨hh, .inr agrees.2.1⟩, fun hout => ?_⟩
    by_contra ho
    simp [agrees.2.2.1 ho] at hout

/-- The call that detaches a finished task lets go of what is over. -/
theorem over_surrendered {slot : Slot} {todo' : List Disposal} (ht : s.tasks[u]? = some task)
    (ho : slot.ownership = .caller) :
    (((s.setTask u { task with slot, handle := false }).enter i
        (.disposing todo' failure releasing)).record u).Over ∧
      (((s.setTask u { task with slot, handle := false }).enter i
        (.disposing todo' failure releasing)).record u).slot.ownership = .caller := by
  rw [record_enter, record_setTask ht]
  exact ⟨⟨rfl, .inl (by simp [ho])⟩, ho⟩

theorem fates_move (each : s.EachFrame s.Fates) (kept : ∀ t, (s.record t).Kept t h)
    (m : Move i s es s') : s'.EachFrame s'.Fates := by
  have steady := m.steady kept
  have each : s.EachFrame s'.Fates := each.mono fun f hf => hf.steady steady
  have same (frames : SameFrames s s') : s'.EachFrame s'.Fates :=
    frames.each _ (fun c _ => fates_wake c) each
  cases m with
  | call _ _ => exact each.push (.of_isBare rfl)
  | leave _ _ _ => exact each.pop
  | @wait f f' rest _ _ due =>
    refine each.enter ?_
    cases f' with
    | disposing todo failure releasing => exact due.elim
    | _ => trivial
  | note _ => exact same (.refl s)
  | addPool _ => exact same (.of_threads rfl)
  | addTask captured => exact same (.of_threads rfl)
  | hire _ _ _ => exact same ((SameFrames.spawn rfl).trans (.of_threads rfl))
  | @accept p pool u task pick _ _ _ _ _ _ =>
    have slot : SameFrames s ((s.setSlot u task.slot.claim).setPool p (pool.accept u)) :=
      .of_threads rfl
    exact same (slot.trans (.wakeOne pick))
  | take _ _ _ _ _ _ =>
    have popped : (s.onThread i Thread.pop).EachFrame _ := each.pop
    exact popped
  | letGo _ _ ht _ surrender =>
    refine EachFrame.enter (s := s) each ?_
    exact fates_surrender surrender fun ho => over_surrendered ht ho
  | discard hi _ => exact each.enter (each.inside hi).tail
  | destroy hi _ =>
    have tail := each.enter (i := i) (Fates.tail (each.inside hi))
    exact tail.push trivial
  | release hi _ _ => exact each.enter ((each.inside hi).tail.cons (by simp))
  | @abandon u task todo failure releasing rest hi _ _ _ =>
    have fates := each.inside hi
    have entered := each.enter (i := i)
      (fates.tail.cons (d := .reference u) (by simp))
    exact entered
  | unref hi _ => exact each.enter (each.inside hi).tail
  | clear hi ht href =>
    have gone := over_cleared (kept _) ht href
    obtain ⟨gone', ho⟩ := steady _ gone.1
    have entered := each.enter (i := i) ((each.inside hi).tail.contents gone' (ho ▸ gone.2))
    exact entered
  | resume hi =>
    have popped : (s.onThread i Thread.pop).EachFrame _ := each.pop
    have fates := popped.inside hi.pop
    exact popped.enter fates
  | close _ _ => exact same (.of_threads rfl)
  | @stop p pool k _ _ =>
    have told : SameFrames s (s.setPool p (pool.requestExit k)) := .of_threads rfl
    exact same (told.trans (.wakeAll _))
  | dismiss total _ _ => exact same (.of_threads rfl)
  | dropPool _ _ => exact same (.of_threads rfl)
  | register _ _ hg =>
    exact same (((SameFrames.onThread fun th => (hg th).2).trans (.wakeAll _)).trans (.settled _))
  | released _ _ => exact same (.settled _)
  | exit _ _ _ hg => exact same (.onThread fun th => (hg th).2)
  | claim _ _ _ _ => exact same (.after rfl fun _ => Thread.calls_setPhase)
  | park _ _ _ _ => exact same (.onThread fun _ => Thread.calls_setPhase)
  | begin _ _ _ hg => exact same (.after rfl fun th => (hg th).2)
  | beginEmpty _ _ _ hg => exact same (.after rfl fun th => (hg th).2)
  | endWork _ _ _ hg => exact same (.onThread fun th => (hg th).2)
  | stash _ _ => exact same (.after rfl fun _ => Thread.calls_setPhase)
  | count _ _ hg => exact same (.after rfl fun th => (hg th).2)
  | @retire p pool k u task hw hp ht =>
    have frames : SameFrames s ((s.published i p pool u task).onThread i (·.setPhase .releasing)) :=
      (SameFrames.published pool).trans (.onThread fun _ => Thread.calls_setPhase)
    have hwork : task.slot.work := record_slot ht ▸ (kept u).put_back (hw.bearing_self rfl)
    have pushed := (frames.each _ (fun c _ => fates_wake c) each).push (i := i)
      (fates_leftovers hwork fun hd => over_retired (kept u) hw hp ht hd)
    rwa [← retired_eq] at pushed

/-- In every run, who lets go of an outcome has it from the owner of the task. -/
theorem Run.fates {callers : Nat} (run : Run callers h s) : s.EachFrame s.Fates := by
  have both : (∀ t, (s.record t).Kept t h) ∧ s.EachFrame s.Fates :=
    run.keeps (P := fun h s => (∀ t, (s.record t).Kept t h) ∧ s.EachFrame s.Fates)
      ⟨kept_start callers, fun th hth f hf => by
        rw [List.eq_of_mem_replicate hth] at hf
        cases hf⟩
      fun _ ⟨kept, each⟩ m => ⟨fun u => (kept u).change (m.change u), fates_move each kept m⟩
  exact both.2

end System

end WorkerPool
