import WorkerPool.Proofs.Move

/-!
Calls in progress, and what they rely on.

A submission shares the handle of its task with other submissions; a join has it alone and waits for
a task that a pool owns; a shutdown that waits for workers has closed the pool. `System.Calls` says
so of every frame, and every move keeps it.
-/
namespace WorkerPool.System

variable {s s' s'' : System} {i : ThreadId} {p : PoolId} {t u : TaskId} {f : Frame}
  {task : Task} {slot : Slot} {rest : List Frame} {th : Thread}
  {es : List Event}

/-- Whether the handle of a task is there, and who owns the task. -/
def standing (s : System) (t : TaskId) : Option (Bool × Ownership) :=
  s.tasks[t]?.map fun task => (task.handle, task.slot.ownership)

def isClosed (s : System) (p : PoolId) : Bool := s.pools[p]?.any (·.closed)

/-- What is to be let go of is the caller's no more, and only detachments are logged on the way. -/
def Given (s : System) : Disposal → Prop
  | .handle t => ∃ o, s.standing t = some (false, o)
  | .record r => ∃ t, r = .detached t
  | _ => True

/-- What a frame relies on. -/
def Relies (s : System) : Frame → Prop
  | .awaitingWorker _ t _ => ∃ o, s.standing t = some (true, o)
  | .awaitingOutcome t _ _ => s.standing t = some (true, .pool)
  | .joiningCrew p _ _ _ => s.isClosed p
  | .disposing todo _ _ => ∀ d ∈ todo, s.Given d
  | _ => True

def joining (t : TaskId) (f : Frame) : Nat := if f.joins t then 1 else 0

def submitting (t : TaskId) (f : Frame) : Nat := if f.submits t then 1 else 0

def EachFrame (s : System) (P : Frame → Prop) : Prop := ∀ th ∈ s.threads, ∀ f ∈ th.calls, P f

structure Calls (s : System) : Prop where
  relies : s.EachFrame s.Relies
  one_join : ∀ t, s.weight (joining t) ≤ 1
  join_alone : ∀ t, 0 < s.weight (joining t) → s.weight (submitting t) = 0

/-! ### Frames -/

@[simp] theorem joining_wake (c : Condition) : joining t (f.wake c) = joining t f := by
  simp [joining]

@[simp] theorem submitting_wake (c : Condition) : submitting t (f.wake c) = submitting t f := by
  simp [submitting]

@[simp] theorem relies_wake (c : Condition) : s.Relies (f.wake c) = s.Relies f := by
  cases f <;> rfl

theorem EachFrame.mono {P Q : Frame → Prop} (h : s.EachFrame P) (hpq : ∀ f, P f → Q f) :
    s.EachFrame Q :=
  fun th hth f hf => hpq f (h th hth f hf)

theorem EachFrame.onThread {P : Frame → Prop} {g : Thread → Thread} (h : s.EachFrame P)
    (hg : ∀ th, s.threads[i]? = some th → (∀ f ∈ th.calls, P f) → ∀ f ∈ (g th).calls, P f) :
    (s.onThread i g).EachFrame P := by
  intro th hth
  obtain ⟨j, hj⟩ := List.getElem?_of_mem hth
  rw [getElem?_onThread] at hj
  split at hj
  · next hij =>
    subst hij
    obtain ⟨old, hold, rfl⟩ := Option.map_eq_some_iff.mp hj
    exact hg old hold (h old (List.mem_of_getElem? hold))
  · exact h th (List.mem_of_getElem? hj)

theorem EachFrame.push {P : Frame → Prop} (h : s.EachFrame P) (hf : P f) :
    (s.onThread i (·.push f)).EachFrame P :=
  h.onThread fun _ _ hth => by simpa using ⟨hf, hth⟩

theorem EachFrame.pop {P : Frame → Prop} (h : s.EachFrame P) :
    (s.onThread i Thread.pop).EachFrame P :=
  h.onThread fun _ _ hth f hf => hth f (List.mem_of_mem_tail hf)

theorem EachFrame.enter {P : Frame → Prop} (h : s.EachFrame P) (hf : P f) :
    (s.enter i f).EachFrame P :=
  h.onThread fun th _ hth f' hf' => by
    rcases List.mem_cons.mp hf' with rfl | hf'
    · exact hf
    · exact hth f' (List.mem_of_mem_tail hf')

theorem EachFrame.inside {P : Frame → Prop} (h : s.EachFrame P) (hi : s.Inside i (f :: rest)) :
    P f := by
  obtain ⟨th, hth, hc⟩ := hi
  exact h th (List.mem_of_getElem? hth) f (by simp [hc])

/-- The second state has the frames of the first one, up to wake-ups. -/
structure SameFrames (s s' : System) : Prop where
  each : ∀ P : Frame → Prop, (∀ c f, P f → P (f.wake c)) → s.EachFrame P → s'.EachFrame P
  weight : ∀ g : Frame → Nat, (∀ c f, g (f.wake c) = g f) → s'.weight g = s.weight g

namespace SameFrames

theorem refl (s : System) : SameFrames s s := ⟨fun _ _ h => h, fun _ _ => rfl⟩

theorem trans (h : SameFrames s s') (h' : SameFrames s' s'') : SameFrames s s'' :=
  ⟨fun P hP hs => h'.each P hP (h.each P hP hs),
    fun g hg => (h'.weight g hg).trans (h.weight g hg)⟩

theorem of_threads (h : s'.threads = s.threads) : SameFrames s s' := by
  constructor
  · intro P _ hs th hth
    exact hs th (h ▸ hth)
  · intro g _
    simp [System.weight, tally, h]

theorem onThread {g : Thread → Thread} (hg : ∀ th, (g th).calls = th.calls) :
    SameFrames s (s.onThread i g) :=
  ⟨fun _ _ hs => hs.onThread fun th _ hth => by simpa [hg] using hth,
    fun _ _ => weight_onThread hg⟩

/-- What changes besides the thread is no thread. -/
theorem after {g : Thread → Thread} (h : s'.threads = s.threads)
    (hg : ∀ th, (g th).calls = th.calls) : SameFrames s (s'.onThread i g) :=
  (of_threads h).trans (onThread hg)

theorem wakeAll (c : Condition) : SameFrames s (s.wakeAll c) := by
  refine ⟨fun P hP hs th hth f hf => ?_, fun g hg => weight_wakeAll hg c⟩
  simp only [System.wakeAll, List.mem_map] at hth
  obtain ⟨old, hold, rfl⟩ := hth
  obtain ⟨f', hf', rfl⟩ := List.mem_map.mp hf
  exact hP c f' (hs old hold f' hf')

theorem wakeOne (pick : Pick) : SameFrames s (s.wakeOne p pick) := by
  refine ⟨fun P hP hs => ?_, fun g hg => weight_wakeOne hg pick⟩
  obtain ⟨j, hj⟩ := wakeOne_eq s p pick
  rw [hj]
  apply hs.onThread
  intro th _ hth f hf
  obtain ⟨f', hf', rfl⟩ := List.mem_map.mp hf
  exact hP _ f' (hth f' hf')

theorem spawn {th : Thread} (hth : th.calls = []) : SameFrames s (s.spawn th) := by
  constructor
  · intro P _ hs new hnew
    rcases List.mem_append.mp hnew with h | h
    · exact hs new h
    · rw [List.mem_singleton.mp h, hth]
      simp
  · intro g _
    simp [System.weight, Thread.weigh, hth]

theorem settled (pool : Pool) : SameFrames s (s.settled i p pool) := by
  have hp : SameFrames s (s.setPool p pool) := of_threads rfl
  have h : SameFrames s ((s.setPool p pool).onThread i (·.setPhase (.parked true))) :=
    hp.trans (SameFrames.onThread fun th => Thread.calls_setPhase)
  unfold System.settled
  split
  · exact h.trans (wakeAll _)
  · exact h

theorem published (pool : Pool) : SameFrames s (s.published i p pool t task) := by
  have told : SameFrames s ((s.setPool p (pool.retire i)).setSlot t task.slot.complete) :=
    of_threads rfl
  unfold System.published
  split
  · exact told
  · exact told.trans (wakeAll _)

end SameFrames

/-! ### Standings -/

/-- Nothing that a frame relies on is lost. -/
structure Extends (s s' : System) : Prop where
  handle : ∀ t b o, s.standing t = some (b, o) → ∃ o', s'.standing t = some (b, o')
  owned : ∀ t, s.standing t = some (true, .pool) → s'.standing t = some (true, .pool)
  closed : ∀ p, s.isClosed p → s'.isClosed p

theorem standing_eq (ht : s.tasks[t]? = some task) :
    s.standing t = some (task.handle, task.slot.ownership) := by
  simp [standing, ht]

theorem standing_setTask {new : Task} (ht : s.tasks[t]? = some task) :
    (s.setTask t new).standing u =
      if u = t then some (new.handle, new.slot.ownership) else s.standing u := by
  by_cases h : t = u
  · subst h
    have hlt : t < s.tasks.length := (List.getElem?_eq_some_iff.mp ht).1
    simp [standing, setTask, hlt]
  · simp [standing, setTask, h, Ne.symm h]

theorem isClosed_setPool {pool new : Pool} (hp : s.pools[p]? = some pool)
    (hc : pool.closed → new.closed) (q : PoolId) (h : s.isClosed q) :
    (s.setPool p new).isClosed q := by
  by_cases hq : p = q
  · subst hq
    have hlt : p < s.pools.length := (List.getElem?_eq_some_iff.mp hp).1
    have hclosed : pool.closed := by simpa [isClosed, hp] using h
    simp [isClosed, setPool, hlt, hc hclosed]
  · simpa [isClosed, setPool, List.getElem?_set, hq] using h

namespace Extends

theorem of_standing (hs : ∀ t x, s.standing t = some x → s'.standing t = some x)
    (hc : ∀ p, s.isClosed p → s'.isClosed p) : Extends s s' :=
  ⟨fun t b o h => ⟨o, hs t (b, o) h⟩, fun t h => hs t _ h, hc⟩

theorem of_eq (ht : s'.tasks = s.tasks) (hp : s'.pools = s.pools) : Extends s s' :=
  of_standing (fun t x h => by simpa [standing, ht] using h)
    fun p h => by simpa [isClosed, hp] using h

theorem trans (h : Extends s s') (h' : Extends s' s'') : Extends s s'' := by
  refine ⟨fun t b o ho => ?_, fun t ht => h'.owned t (h.owned t ht),
    fun p hp => h'.closed p (h.closed p hp)⟩
  obtain ⟨o', ho'⟩ := h.handle t b o ho
  exact h'.handle t b o' ho'

theorem setPool {pool new : Pool} (hp : s.pools[p]? = some pool)
    (hc : pool.closed → new.closed) : Extends s (s.setPool p new) :=
  of_standing (fun _ _ h => h) (isClosed_setPool hp hc)

theorem addPool (pool : Pool) : Extends s (s.addPool pool) := by
  refine of_standing (fun _ _ h => h) fun q h => ?_
  obtain ⟨old, hold, hc⟩ := (Option.any_eq_true ..).mp h
  have hlt : q < s.pools.length := (List.getElem?_eq_some_iff.mp hold).1
  simp [isClosed, System.addPool, List.getElem?_append_left hlt, hold, hc]

theorem addTask (task : Task) : Extends s (s.addTask task) := by
  refine of_standing (fun t x h => ?_) fun _ h => h
  obtain ⟨old, hold, -⟩ := Option.map_eq_some_iff.mp h
  have hlt : t < s.tasks.length := (List.getElem?_eq_some_iff.mp hold).1
  simpa [standing, System.addTask, List.getElem?_append_left hlt] using h

/-- A task changes hands only if no join waits for it. -/
theorem setTask {new : Task} (ht : s.tasks[t]? = some task) (hh : new.handle = task.handle)
    (ho : new.slot.ownership = task.slot.ownership ∨ task.handle = false ∨
      task.slot.ownership ≠ .pool) : Extends s (s.setTask t new) := by
  refine ⟨fun u b o h => ?_, fun u h => ?_, fun _ h => h⟩
  all_goals
    rw [standing_setTask ht]
    split
  · next hu =>
    rw [hu, standing_eq ht] at h
    simp_all
  · exact ⟨o, h⟩
  · next hu =>
    rw [hu, standing_eq ht] at h
    simp_all
  · exact h

theorem settled {pool new : Pool} (hp : s.pools[p]? = some pool)
    (hc : pool.closed → new.closed) : Extends s (s.settled i p new) := by
  refine (setPool hp hc).trans (of_eq ?_ ?_)
  all_goals
    unfold System.settled
    split <;> rfl

theorem setSlot (ht : s.tasks[t]? = some task)
    (ho : slot.ownership = task.slot.ownership ∨ task.handle = false ∨
      task.slot.ownership ≠ .pool) : Extends s (s.setSlot t slot) := by
  rw [setSlot_eq ht]
  exact setTask ht rfl ho

end Extends

theorem Relies.extend (h : s.Relies f) (hs : Extends s s') : s'.Relies f := by
  cases f with
  | awaitingWorker p t woken =>
    obtain ⟨o, ho⟩ := h
    exact hs.handle t true o ho
  | awaitingOutcome t bound woken => exact hs.owned t h
  | joiningCrew p next total dropping => exact hs.closed p h
  | disposing todo failure releasing =>
    intro d hd
    have := h d hd
    cases d with
    | handle t =>
      obtain ⟨o, ho⟩ := this
      exact hs.handle t false o ho
    | _ => exact this
  | _ => trivial

theorem Calls.keep (calls : s.Calls) (frames : SameFrames s s') (hs : Extends s s') :
    s'.Calls := by
  have hj := fun t => frames.weight (joining t) fun c f => joining_wake c
  have hb := fun t => frames.weight (submitting t) fun c f => submitting_wake c
  refine ⟨?_, fun t => hj t ▸ calls.one_join t, fun t => hj t ▸ hb t ▸ calls.join_alone t⟩
  exact (frames.each s.Relies (fun c f h => by simpa using h) calls.relies).mono
    fun f h => h.extend hs

namespace Calls

theorem setPool {pool new : Pool} (calls : s.Calls) (hp : s.pools[p]? = some pool)
    (hc : pool.closed → new.closed) : (s.setPool p new).Calls :=
  calls.keep (.of_threads rfl) (.setPool hp hc)

theorem setTask {new : Task} (calls : s.Calls) (ht : s.tasks[t]? = some task)
    (hh : new.handle = task.handle) (ho : new.slot.ownership = task.slot.ownership ∨
      task.handle = false ∨ task.slot.ownership ≠ .pool) : (s.setTask t new).Calls :=
  calls.keep (.of_threads rfl) (.setTask ht hh ho)

theorem setSlot (calls : s.Calls) (ht : s.tasks[t]? = some task)
    (ho : slot.ownership = task.slot.ownership ∨ task.handle = false ∨
      task.slot.ownership ≠ .pool) : (s.setSlot t slot).Calls :=
  calls.keep (.of_threads rfl) (.setSlot ht ho)

theorem onThread {g : Thread → Thread} (calls : s.Calls) (hg : ∀ th, (g th).calls = th.calls) :
    (s.onThread i g).Calls :=
  calls.keep (.onThread hg) (.of_eq rfl rfl)

theorem spawn (calls : s.Calls) (hth : th.calls = []) : (s.spawn th).Calls :=
  calls.keep (.spawn hth) (.of_eq rfl rfl)

theorem wakeAll {c : Condition} (calls : s.Calls) : (s.wakeAll c).Calls :=
  calls.keep (.wakeAll c) (.of_eq rfl rfl)

theorem wakeOne {pick : Pick} (calls : s.Calls) : (s.wakeOne p pick).Calls :=
  calls.keep (.wakeOne pick) (.of_eq (tasks_wakeOne pick) (pools_wakeOne pick))

theorem settled {pool new : Pool} (calls : s.Calls) (hp : s.pools[p]? = some pool)
    (hc : pool.closed → new.closed) : (s.settled i p new).Calls :=
  calls.keep (.settled new) (.settled hp hc)

end Calls

/-- Joins and submissions may come to their end. -/
theorem Calls.change (calls : s.Calls) (relies : s'.EachFrame s'.Relies)
    (hj : ∀ t, s'.weight (joining t) ≤ s.weight (joining t))
    (hb : ∀ t, s'.weight (submitting t) ≤ s.weight (submitting t)) : s'.Calls := by
  refine ⟨relies, fun t => (hj t).trans (calls.one_join t), fun t ht => ?_⟩
  have := calls.join_alone t (ht.trans_le (hj t))
  exact Nat.le_zero.mp (this ▸ hb t)

/-! ### Access to tasks -/

theorem canShare_iff : s.canShare t ↔
    (∃ o, s.standing t = some (true, o)) ∧ s.weight (joining t) = 0 := by
  simp only [canShare, Bool.and_eq_true, List.all_eq_true, weight_eq_zero]
  refine and_congr ?_ ?_
  · cases h : s.tasks[t]? <;> simp [standing, h]
  · simp [joining]

theorem canOwn_iff : s.canOwn t ↔ s.canShare t ∧ s.weight (submitting t) = 0 := by
  simp [canOwn, weight_eq_zero, submitting]

/-! ### Moves -/

theorem calls_start (callers : Nat) : (start callers).Calls := by
  have hw : ∀ g : Frame → Nat, (start callers).weight g = 0 := fun g => by
    rw [weight_eq_zero]
    intro th hth
    simp [List.eq_of_mem_replicate hth]
  refine ⟨fun th hth => ?_, fun t => by simp [hw], fun t => by simp [hw]⟩
  simp [List.eq_of_mem_replicate hth]

/-- The thread enters a frame. -/
theorem Calls.push (calls : s.Calls) (hi : s.threads[i]? = some th) (hf : s.Relies f)
    (hj : ∀ t, f.joins t → s.weight (joining t) = 0 ∧ s.weight (submitting t) = 0)
    (hb : ∀ t, f.submits t → s.weight (joining t) = 0) : (s.onThread i (·.push f)).Calls := by
  refine ⟨calls.relies.push hf, fun t => ?_, fun t ht => ?_⟩
  · rw [weight_push hi]
    have := calls.one_join t
    by_cases h : f.joins t
    · simp [joining, h, (hj t h).1]
    · simpa [joining, h] using this
  · rw [weight_push hi] at ht ⊢
    have := calls.join_alone t
    by_cases h : f.joins t
    · have : f.submits t = false := by cases f <;> simp_all [Frame.joins, Frame.submits]
      simp [submitting, this, (hj t h).2]
    · by_cases h' : f.submits t
      · simp [joining, h, hb t h'] at ht
      · simp_all [joining, submitting]

/-- A task that no call is about changes hands. -/
theorem Relies.pass (h : s.Relies f) (hj : f.joins t = false) (hb : f.submits t = false)
    (ht : ∃ o, s.standing t = some (true, o)) (hs : ∀ u, u ≠ t → s'.standing u = s.standing u)
    (hc : ∀ p, s.isClosed p → s'.isClosed p) : s'.Relies f := by
  obtain ⟨o, ho⟩ := ht
  cases f with
  | awaitingWorker p u woken =>
    have hu : u ≠ t := by simpa [Frame.submits] using hb
    simpa [Relies, hs u hu] using h
  | awaitingOutcome u bound woken =>
    have hu : u ≠ t := by simpa [Frame.joins] using hj
    simpa [Relies, hs u hu] using h
  | joiningCrew p next total dropping => exact hc p h
  | disposing todo failure releasing =>
    intro d hd
    have := h d hd
    cases d with
    | handle u =>
      have hu : u ≠ t := by
        rintro rfl
        obtain ⟨o', ho'⟩ := this
        simp [ho] at ho'
      simpa [Given, hs u hu] using this
    | _ => exact this
  | _ => trivial

/-- A thread leaves its innermost frame. -/
theorem Calls.pop (calls : s.Calls) (hi : s.Inside i (f :: rest)) :
    (s.onThread i Thread.pop).Calls := by
  refine calls.change calls.relies.pop (fun t => ?_) fun t => ?_
  · have := weight_pop (g := joining t) hi
    omega
  · have := weight_pop (g := submitting t) hi
    omega

/-- A thread goes on letting go of things. -/
theorem Calls.dispose {todo : List Disposal} {failure : Option Payload} {releasing : Bool}
    (calls : s.Calls) (hi : s.Inside i (f :: rest)) (htodo : ∀ d ∈ todo, s.Given d) :
    (s.enter i (.disposing todo failure releasing)).Calls := by
  have hf : s.Relies (.disposing todo failure releasing) := htodo
  refine calls.change (calls.relies.enter hf) (fun t => ?_) fun t => ?_
  · have := weight_enter (g := joining t) (.disposing todo failure releasing) hi
    have hd : joining t (.disposing todo failure releasing) = 0 := rfl
    omega
  · have := weight_enter (g := submitting t) (.disposing todo failure releasing) hi
    have hd : submitting t (.disposing todo failure releasing) = 0 := rfl
    omega

theorem given_surrender {todo : List Disposal} (h : task.slot.Surrender t slot todo) {o : Ownership}
    (hs : s.standing t = some (false, o)) : ∀ d ∈ todo, s.Given d := by
  have handle : s.Given (.handle t) := ⟨o, hs⟩
  have note : s.Given (.record (.detached t)) := ⟨t, rfl⟩
  intro d hd
  cases h with
  | finished _ _ =>
    simp only [List.mem_append, List.mem_map, List.mem_cons, List.not_mem_nil, or_false] at hd
    rcases hd with ⟨o, -, rfl⟩ | rfl | rfl
    · trivial
    · exact note
    · exact handle
  | outstanding _ _ =>
    rcases List.mem_cons.mp hd with rfl | hd
    · exact note
    · exact List.mem_singleton.mp hd ▸ handle
  | plain => exact List.mem_singleton.mp hd ▸ handle

/-- A caller gives its handle away, or takes its task back. -/
theorem Calls.pass (calls : s.Calls) (ht : s.tasks[t]? = some task) (own : s.canOwn t)
    (new : Task) : (s.setTask t new).Calls := by
  obtain ⟨share, hb⟩ := canOwn_iff.mp own
  obtain ⟨hs, hj⟩ := canShare_iff.mp share
  refine calls.change (fun th hth f hf => ?_) (fun _ => le_rfl) fun _ => le_rfl
  have hfj := weight_eq_zero.mp hj th hth f hf
  have hfb := weight_eq_zero.mp hb th hth f hf
  refine (calls.relies th hth f hf).pass (t := t) (by simpa [joining] using hfj)
    (by simpa [submitting] using hfb) hs (fun u hu => ?_) fun _ h => h
  rw [standing_setTask ht, if_neg hu]

theorem Calls.call (calls : s.Calls) (hi : s.threads[i]? = some th) :
    (s.onThread i (·.push (.disposing [] none false))).Calls :=
  calls.push hi (by simp [Relies]) (by simp [Frame.joins]) (by simp [Frame.submits])

theorem Calls.wait (calls : s.Calls) (hi : s.threads[i]? = some th) (due : s.Due i f) :
    (s.onThread i (·.push f)).Calls := by
  refine calls.push hi ?_ (fun t ht => ?_) fun t ht => ?_
  · cases f with
    | awaitingWorker p t woken => exact (canShare_iff.mp due.2.1).1
    | awaitingOutcome t bound woken =>
      obtain ⟨-, own, ho, -⟩ := due
      obtain ⟨o, hs⟩ := (canShare_iff.mp (canOwn_iff.mp own).1).1
      obtain ⟨task, ht, h⟩ := Option.map_eq_some_iff.mp hs
      simp_all [System.Relies, standing, System.task]
    | joiningCrew p next total dropping =>
      obtain ⟨pool, hp, hc⟩ := due
      simpa [System.Relies, isClosed, hp] using hc
    | disposing _ _ _ => exact due.elim
    | _ => trivial
  · cases f with
    | awaitingOutcome u bound woken =>
      obtain rfl : u = t := by simpa [Frame.joins] using ht
      have own := canOwn_iff.mp due.2.1
      exact ⟨(canShare_iff.mp own.1).2, own.2⟩
    | _ => simp [Frame.joins] at ht
  · cases f with
    | awaitingWorker p u woken =>
      obtain rfl : u = t := by simpa [Frame.submits] using ht
      exact (canShare_iff.mp due.2.1).2
    | _ => simp [Frame.submits] at ht

theorem Calls.given {d : Disposal} {todo : List Disposal} {failure : Option Payload}
    {releasing : Bool} (calls : s.Calls)
    (hi : s.Inside i (.disposing (d :: todo) failure releasing :: rest)) :
    s.Given d ∧ ∀ d ∈ todo, s.Given d :=
  List.forall_mem_cons.mp (calls.relies.inside hi)

theorem given_contents : ∀ d ∈ slot.contents t, s.Given d := by
  intro d hd
  simp only [Slot.contents, List.mem_append, List.mem_map] at hd
  rcases hd with hd | ⟨o, -, rfl⟩
  · split at hd <;> simp_all [Given]
  · trivial

theorem given_leftovers : ∀ d ∈ slot.leftovers t, s.Given d := by
  intro d hd
  unfold Slot.leftovers at hd
  split at hd
  · rcases List.mem_append.mp hd with hd | hd
    · obtain ⟨o, -, rfl⟩ := List.mem_map.mp hd
      trivial
    · split at hd <;> simp_all [Given]
  · simp at hd

theorem Calls.retire {pool : Pool} (calls : s.Calls) (hi : s.threads[i]? = some th)
    (hp : s.pools[p]? = some pool) (ht : s.tasks[t]? = some task) :
    (s.retired i p pool t task).Calls := by
  have ho : task.slot.complete.ownership = task.slot.ownership := by
    unfold Slot.complete
    split <;> rfl
  have h : (s.published i p pool t task).Calls := by
    have h : ((s.setPool p (pool.retire i)).setSlot t task.slot.complete).Calls :=
      .setSlot (.setPool calls hp id) ht (.inl ho)
    unfold published
    split
    · exact h
    · exact h.wakeAll
  obtain ⟨th', hth'⟩ : ∃ th', (s.published i p pool t task).threads[i]? = some th' := by
    unfold published
    split
    · exact ⟨th, hi⟩
    · exact ⟨th.wake (.finished t), (getElem?_wakeAll _).trans (congrArg (Option.map _) hi)⟩
  have hc : ∀ th : Thread, (th.setPhase .releasing).calls = th.calls := fun _ =>
    Thread.calls_setPhase
  have hth := getElem?_onThread (s := s.published i p pool t task) (i := i) (j := i)
    (·.setPhase .releasing)
  rw [if_pos rfl, hth', Option.map_some] at hth
  have hf : ∀ s : System, s.Relies (.disposing (.reference t :: task.slot.leftovers t) none
      true) := fun s => List.forall_mem_cons.mpr ⟨trivial, given_leftovers⟩
  have := (h.onThread hc).push hth (hf _) (by simp [Frame.joins]) (by simp [Frame.submits])
  rwa [onThread_onThread] at this

theorem Calls.move (calls : s.Calls) (m : Move i s es s') : s'.Calls := by
  cases m with
  | call hi _ => exact calls.call hi
  | leave hi _ _ => exact calls.pop hi
  | wait hi _ due =>
    obtain ⟨th, hth, -⟩ := hi.pop
    have := (calls.pop hi).wait hth due
    rwa [onThread_onThread] at this
  | note _ => exact calls
  | addPool _ => exact calls.keep (.of_threads rfl) (.addPool _)
  | addTask captured => exact calls.keep (.of_threads rfl) (.addTask _)
  | hire hp _ _ => exact .setPool (.spawn calls rfl) hp id
  | accept hp ht _ _ _ ho =>
    exact .wakeOne (.setPool (.setSlot calls ht (by simp [ho])) hp id)
  | take hi _ ht own _ _ =>
    have h := (calls.pop hi).pass ht own
    rw [setSlot_eq ht]
    exact h _
  | @letGo _ _ _ _ slot _ hi _ ht own surrender =>
    refine (calls.pass ht own _).dispose hi (given_surrender surrender (o := slot.ownership) ?_)
    rw [standing_setTask ht, if_pos rfl]
  | discard hi _ => exact calls.dispose hi (calls.given hi).2
  | destroy hi _ =>
    obtain ⟨th, hth, -⟩ := hi.enter
    exact (calls.dispose hi (calls.given hi).2).push hth trivial (by simp [Frame.joins])
      (by simp [Frame.submits])
  | release hi _ _ => exact calls.dispose hi (by simpa [Given] using (calls.given hi).2)
  | abandon hi ht _ hh =>
    exact .setSlot (.dispose calls hi (by simpa [Given] using (calls.given hi).2)) ht
      (by simp [hh])
  | unref hi _ => exact calls.dispose hi (calls.given hi).2
  | clear hi ht _ =>
    exact .setSlot (.dispose calls hi (List.forall_mem_append.mpr
      ⟨given_contents, (calls.given hi).2⟩)) ht (.inl rfl)
  | resume hi => exact (calls.pop hi).dispose hi.pop ((calls.pop hi).relies.inside hi.pop)
  | close hp _ => exact calls.setPool hp fun _ => rfl
  | stop k hp _ => exact .wakeAll (.setPool calls hp id)
  | dismiss total hp _ => exact calls.setPool hp id
  | dropPool hp _ => exact calls.setPool hp id
  | register _ hp hg => exact ((calls.onThread fun th => (hg th).2).wakeAll).settled hp id
  | released _ hp => exact calls.settled hp id
  | exit _ _ _ hg => exact calls.onThread fun th => (hg th).2
  | claim _ hp _ hc =>
    exact (calls.setPool hp (Pool.claim?_closed hc)).onThread fun _ => Thread.calls_setPhase
  | park _ _ _ _ => exact calls.onThread fun _ => Thread.calls_setPhase
  | begin _ ht _ hg => exact .onThread (.setTask calls ht rfl (.inl rfl)) fun th => (hg th).2
  | beginEmpty _ ht _ hg => exact .onThread (.setTask calls ht rfl (.inl rfl)) fun th => (hg th).2
  | endWork _ _ _ hg => exact calls.onThread fun th => (hg th).2
  | stash _ ht => exact .onThread (.setSlot calls ht (.inl rfl)) fun _ => Thread.calls_setPhase
  | count _ hp hg => exact .onThread (.setPool calls hp id) fun th => (hg th).2
  | retire hw hp ht =>
    obtain ⟨th, hth, -⟩ := hw
    exact calls.retire hth hp ht

end WorkerPool.System
