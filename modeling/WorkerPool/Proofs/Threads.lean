import Mathlib.Algebra.Order.BigOperators.Group.List
import Mathlib.Algebra.Order.Group.Nat
import Mathlib.Algebra.GroupWithZero.Nat
import WorkerPool.System.Step

/-!
What the threads of a state show.

`System.tally` adds a weight up over all threads and `System.weight` over all of their frames. Each
elementary change of a state comes with its effect on these. Weights that no wake-up changes are
`WakeFree`.
-/
namespace WorkerPool

/-- A wake-up does not change the weight. -/
def WakeFree (w : Thread → Nat) : Prop := ∀ c th, w (th.wake c) = w th

/-- Nothing is left to let go of in the frame, and it is not user code. -/
def Frame.isBare : Frame → Bool
  | .destructor | .disposing (_ :: _) _ _ => false
  | _ => true

namespace Frame

variable {c : Condition} {f : Frame}

@[simp] theorem wake_joins (t : TaskId) : (f.wake c).joins t = f.joins t := by cases f <;> rfl

@[simp] theorem wake_submits (t : TaskId) : (f.wake c).submits t = f.submits t := by
  cases f <;> rfl

@[simp] theorem wake_isBare : (f.wake c).isBare = f.isBare := by cases f <;> rfl

end Frame

namespace Thread

variable {th : Thread} {f : Frame} {rest : List Frame} {phase : Phase}

/-- The frames of the thread, weighed. -/
def weigh (g : Frame → Nat) (th : Thread) : Nat := (th.calls.map g).sum

@[simp] theorem weigh_push (g : Frame → Nat) : (th.push f).weigh g = g f + th.weigh g := by
  simp [weigh, push]

theorem weigh_pop (g : Frame → Nat) (h : th.calls = f :: rest) :
    g f + th.pop.weigh g = th.weigh g := by
  simp [weigh, pop, h]

theorem wakeFree_weigh {g : Frame → Nat} (hg : ∀ c f, g (f.wake c) = g f) :
    WakeFree (weigh g) := by
  intro c th
  simp [weigh, wake, Function.comp_def, hg]

@[simp] theorem calls_setPhase : (th.setPhase phase).calls = th.calls := by
  unfold setPhase
  cases th.role <;> rfl

@[simp] theorem calls_push : (th.push f).calls = f :: th.calls := rfl

@[simp] theorem calls_pop : th.pop.calls = th.calls.tail := rfl

@[simp] theorem calls_replace : (th.replace f).calls = f :: th.calls.tail := rfl

@[simp] theorem calls_wake (c : Condition) : (th.wake c).calls = th.calls.map (Frame.wake c) := rfl

@[simp] theorem role_push : (th.push f).role = th.role := rfl

@[simp] theorem role_pop : th.pop.role = th.role := rfl

@[simp] theorem role_replace : (th.replace f).role = th.role := rfl

@[simp] theorem role_wake (c : Condition) : (th.wake c).role = th.role.wake c := rfl

theorem role_setPhase {p : PoolId} {k : Nat} {old : Phase} (h : th.role = .worker p k old) :
    (th.setPhase phase).role = .worker p k phase := by
  simp [setPhase, h]

end Thread

theorem getElem?_snoc {α : Type} (l : List α) (a : α) (j : Nat) :
    (l ++ [a])[j]? = if j = l.length then some a else l[j]? := by
  rcases Nat.lt_trichotomy j l.length with hj | hj | hj
  · rw [List.getElem?_append_left hj, if_neg hj.ne]
  · simp [hj]
  · have h : (l ++ [a]).length ≤ j := by
      simp only [List.length_append, List.length_singleton]
      omega
    rw [List.getElem?_eq_none h, if_neg hj.ne', List.getElem?_eq_none hj.le]

theorem foldr_weigh {α : Type} (w : α → Nat) (l : List α) :
    l.foldr (fun a n => w a + n) 0 = (l.map w).sum := by
  rw [List.sum_eq_foldr, List.foldr_map]

/-- Changing an element does not change a view that the change is not seen in. -/
theorem map_modify_of_eq {α β : Type} {l : List α} {k : Nat} {f : α → β} {g : α → α}
    (hg : ∀ a, f (g a) = f a) : (l.modify k g).map f = l.map f := by
  apply List.ext_getElem?
  intro j
  rw [List.getElem?_map, List.getElem?_map, List.getElem?_modify]
  split
  · cases l[j]? <;> simp [hg]
  · simp

namespace System

variable {s : System} {i j : ThreadId} {th new : Thread} {p : PoolId} {t : TaskId} {f : Frame}

theorem getElem?_onThread (g : Thread → Thread) :
    (s.onThread i g).threads[j]? = if i = j then s.threads[j]?.map g else s.threads[j]? := by
  simp only [onThread, List.getElem?_modify]
  split <;> simp

theorem onThread_onThread (g g' : Thread → Thread) :
    (s.onThread i g).onThread i g' = s.onThread i (g' ∘ g) := by
  simp [onThread, List.modify_modify_eq]

theorem getElem?_wakeAll (c : Condition) :
    (s.wakeAll c).threads[j]? = s.threads[j]?.map (Thread.wake c) := by
  simp [wakeAll]

theorem setSlot_eq {task : Task} {slot : Slot} (h : s.tasks[t]? = some task) :
    s.setSlot t slot = s.setTask t { task with slot } := by
  simp [setSlot, setTask, List.modify_eq_set_getElem?, h]

/-- Waking one worker changes one thread at most. -/
theorem wakeOne_eq (s : System) (p : PoolId) (pick : Pick) :
    ∃ j, s.wakeOne p pick = s.onThread j (Thread.wake (.workAvailable p)) := by
  simp only [wakeOne]
  split
  · refine ⟨s.threads.length, ?_⟩
    simp [onThread, List.modify_eq_self]
  · exact ⟨_, rfl⟩

@[simp] theorem tasks_wakeOne (pick : Pick) : (s.wakeOne p pick).tasks = s.tasks := by
  obtain ⟨j, hj⟩ := wakeOne_eq s p pick
  rw [hj]
  rfl

@[simp] theorem pools_wakeOne (pick : Pick) : (s.wakeOne p pick).pools = s.pools := by
  obtain ⟨j, hj⟩ := wakeOne_eq s p pick
  rw [hj]
  rfl

/-! ### Sums over threads -/

section tally

variable {w : Thread → Nat}

/-- The sum of a weight over all threads. -/
def tally (s : System) (w : Thread → Nat) : Nat := (s.threads.map w).sum

theorem sum_map_modify {α : Type} {l : List α} {k : Nat} {a : α} (w : α → Nat) (g : α → α)
    (h : l[k]? = some a) : ((l.modify k g).map w).sum + w a = (l.map w).sum + w (g a) := by
  induction l generalizing k with
  | nil => simp at h
  | cons b l ih =>
    cases k with
    | zero =>
      have hb : b = a := by simpa using h
      simp only [List.modify_zero_cons, List.map_cons, List.sum_cons, hb]
      omega
    | succ k =>
      have := ih (by simpa using h)
      simp only [List.modify_succ_cons, List.map_cons, List.sum_cons]
      omega

theorem tally_onThread (g : Thread → Thread) (h : s.threads[i]? = some th) :
    (s.onThread i g).tally w + w th = s.tally w + w (g th) :=
  sum_map_modify w g h

theorem tally_onThread_of_eq {g : Thread → Thread} (hg : ∀ th, w (g th) = w th) :
    (s.onThread i g).tally w = s.tally w := by
  cases h : s.threads[i]? with
  | none =>
    have hi : s.threads.length ≤ i := List.getElem?_eq_none_iff.mp h
    simp [tally, onThread, List.modify_eq_self hi]
  | some th =>
    have := tally_onThread (w := w) g h
    rw [hg] at this
    omega

theorem le_tally (h : s.threads[i]? = some th) : w th ≤ s.tally w :=
  List.le_sum_of_mem (List.mem_map_of_mem (List.mem_of_getElem? h))

theorem tally_eq_zero : s.tally w = 0 ↔ ∀ th ∈ s.threads, w th = 0 := by
  simp [tally, List.sum_eq_zero_iff]

@[simp] theorem tally_wakeAll (hw : WakeFree w) (c : Condition) :
    (s.wakeAll c).tally w = s.tally w := by
  have h : w ∘ Thread.wake c = w := funext fun th => hw c th
  simp [tally, wakeAll, h]

@[simp] theorem tally_wakeOne (hw : WakeFree w) (pick : Pick) :
    (s.wakeOne p pick).tally w = s.tally w := by
  obtain ⟨k, hk⟩ := wakeOne_eq s p pick
  rw [hk, tally_onThread_of_eq (hw _)]

@[simp] theorem tally_spawn : (s.spawn new).tally w = s.tally w + w new := by
  simp [tally, spawn]

@[simp] theorem tally_setPool (pool : Pool) : (s.setPool p pool).tally w = s.tally w := rfl

@[simp] theorem tally_setTask (task : Task) : (s.setTask t task).tally w = s.tally w := rfl

end tally

/-! ### Frames -/

section frames

variable {g : Frame → Nat} {rest : List Frame} {change : Thread → Thread}

/-- The frames of all threads, weighed. -/
def weight (s : System) (g : Frame → Nat) : Nat := s.tally (Thread.weigh g)

/-- The frames of the thread. -/
def Inside (s : System) (i : ThreadId) (calls : List Frame) : Prop :=
  ∃ th, s.threads[i]? = some th ∧ th.calls = calls

theorem Inside.unique {calls calls' : List Frame} (hi : s.Inside i calls)
    (hi' : s.Inside i calls') : calls = calls' := by
  obtain ⟨th, hth, rfl⟩ := hi
  obtain ⟨th', hth', rfl⟩ := hi'
  rw [Option.some.inj (hth.symm.trans hth')]

theorem Inside.onThread {calls calls' : List Frame} (h : s.Inside i calls)
    (hc : ∀ th, th.calls = calls → (change th).calls = calls') :
    (s.onThread i change).Inside i calls' := by
  obtain ⟨th, hth, hcalls⟩ := h
  exact ⟨change th, by simp [getElem?_onThread, hth], hc th hcalls⟩

theorem Inside.push {calls : List Frame} (h : s.Inside i calls) :
    (s.onThread i (·.push f)).Inside i (f :: calls) :=
  h.onThread fun _ hc => by simp [hc]

theorem Inside.pop (h : s.Inside i (f :: rest)) : (s.onThread i Thread.pop).Inside i rest :=
  h.onThread fun _ hc => by simp [hc]

theorem Inside.enter {f' : Frame} (h : s.Inside i (f :: rest)) :
    (s.enter i f').Inside i (f' :: rest) :=
  h.onThread fun _ hc => by simp [hc]

theorem weight_push (h : s.threads[i]? = some th) :
    (s.onThread i (·.push f)).weight g = s.weight g + g f := by
  have := tally_onThread (w := Thread.weigh g) (·.push f) h
  simp only [Thread.weigh_push] at this
  unfold weight
  omega

theorem weight_pop (h : s.Inside i (f :: rest)) :
    (s.onThread i Thread.pop).weight g + g f = s.weight g := by
  obtain ⟨th, hth, hc⟩ := h
  have := tally_onThread (w := Thread.weigh g) Thread.pop hth
  have := Thread.weigh_pop g hc
  unfold weight
  omega

theorem weight_enter (f' : Frame) (h : s.Inside i (f :: rest)) :
    (s.enter i f').weight g + g f = s.weight g + g f' := by
  obtain ⟨th, hth, hc⟩ := h
  have hw : (th.replace f').weigh g = g f' + th.pop.weigh g := by simp [Thread.replace]
  have := tally_onThread (w := Thread.weigh g) (·.replace f') hth
  have := Thread.weigh_pop g hc
  unfold weight enter
  omega

theorem weight_onThread (hc : ∀ th, (change th).calls = th.calls) :
    (s.onThread i change).weight g = s.weight g :=
  tally_onThread_of_eq fun th => by simp [Thread.weigh, hc]

theorem le_weight (h : s.Inside i (f :: rest)) : g f ≤ s.weight g := by
  obtain ⟨th, hth, hc⟩ := h
  have h₁ : g f ≤ th.weigh g := by simp [Thread.weigh, hc]
  exact h₁.trans (le_tally hth)

theorem weight_eq_zero :
    s.weight g = 0 ↔ ∀ th ∈ s.threads, ∀ f ∈ th.calls, g f = 0 := by
  simp [weight, tally_eq_zero, Thread.weigh, List.sum_eq_zero_iff]

theorem weight_wakeAll (hg : ∀ c f, g (f.wake c) = g f) (c : Condition) :
    (s.wakeAll c).weight g = s.weight g :=
  tally_wakeAll (Thread.wakeFree_weigh hg) c

theorem weight_wakeOne (hg : ∀ c f, g (f.wake c) = g f) (pick : Pick) :
    (s.wakeOne p pick).weight g = s.weight g :=
  tally_wakeOne (Thread.wakeFree_weigh hg) pick

end frames

end System

end WorkerPool
