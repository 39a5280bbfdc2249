import WorkerPool.Proofs.Rounds

/-!
Who holds outcomes.

Between the end of an invocation and a join or a destructor, the outcome is with the worker that is
about to stash it, in the slot of the task, or among the things that a thread lets go of.
`System.holdings` counts the outcomes of a task that have some property over all these places, and
`System.Accounts` balances them against what a trace tells.
-/
namespace WorkerPool

variable {t u : TaskId} {q : Outcome → Bool} {slot slot' : Slot} {todo : List Disposal}

/-- Outcomes of the task with the property that a worker in this phase has yet to stash. -/
def Phase.stashes (t : TaskId) (q : Outcome → Bool) : Phase → Nat
  | stashing u _ o => if u = t ∧ q o then 1 else 0
  | _ => 0

def Thread.stashes (t : TaskId) (q : Outcome → Bool) (th : Thread) : Nat :=
  match th.role with
  | .caller => 0
  | .worker _ _ phase => phase.stashes t q

/-- Outcomes of the task `t` with the property in the slot of the task `u`. -/
def Slot.keeps (u t : TaskId) (q : Outcome → Bool) (slot : Slot) : Nat :=
  slot.outcome.toList.countP fun o => u = t ∧ q o

def Disposal.carries (t : TaskId) (q : Outcome → Bool) : Disposal → Bool
  | outcome u o => u = t ∧ q o
  | _ => false

/-- Outcomes of the task with the property that the frame has yet to let go of. -/
def Frame.carries (t : TaskId) (q : Outcome → Bool) : Frame → Nat
  | disposing todo _ _ => todo.countP (Disposal.carries t q)
  | _ => 0

/-! ### Slots and what they give up -/

namespace Slot

@[simp] theorem keeps_claim : slot.claim.keeps u t q = 0 := rfl

@[simp] theorem keeps_release : slot.release.keeps u t q = 0 := rfl

@[simp] theorem keeps_clear : slot.clear.keeps u t q = 0 := rfl

@[simp] theorem keeps_start : slot.start.keeps u t q = slot.keeps u t q := rfl

@[simp] theorem keeps_detach : slot.detach.keeps u t q = slot.keeps u t q := rfl

theorem keeps_self : slot.keeps t t q = slot.outcome.toList.countP q := by
  simp [keeps]

theorem keeps_of_none (h : slot.outcome = none) : slot.keeps u t q = 0 := by
  simp [keeps, h]

theorem keeps_stash (work : Bool) (o : Outcome) :
    (slot.stash work o).keeps u t q = (Phase.stashing u work o).stashes t q := by
  simp [keeps, stash, Phase.stashes, List.countP_singleton]

theorem countP_outcome (slot : Slot) :
    (slot.outcome.toList.map (.outcome u)).countP (Disposal.carries t q) = slot.keeps u t q := by
  rw [List.countP_map]
  rfl

theorem countP_contents :
    (slot.contents u).countP (Disposal.carries t q) = slot.keeps u t q := by
  rw [contents, List.countP_append, countP_outcome]
  split <;> simp [Disposal.carries]

/-- A task that completes keeps its outcome or leaves it over. -/
theorem countP_leftovers (slot : Slot) :
    (slot.leftovers u).countP (Disposal.carries t q) + slot.complete.keeps u t q =
      slot.keeps u t q := by
  unfold leftovers complete
  split
  · rw [List.countP_append, countP_outcome]
    split <;> simp [Disposal.carries, keeps]
  · simp [keeps]

/-- A task that is given away keeps its outcome or gives it up. -/
theorem Surrender.countP (h : slot.Surrender u slot' todo) :
    todo.countP (Disposal.carries t q) + slot'.keeps u t q = slot.keeps u t q := by
  cases h with
  | finished _ _ =>
    rw [List.countP_append, countP_outcome]
    simp [Disposal.carries]
  | outstanding _ _ => simp [Disposal.carries]
  | plain => simp [Disposal.carries]

end Slot

namespace Frame

variable {f : Frame}

theorem carries_wake (c : Condition) (f : Frame) : (f.wake c).carries t q = f.carries t q := by
  cases f <;> rfl

theorem carries_of_isBare (h : f.isBare) : f.carries t q = 0 := by
  cases f with
  | disposing todo failure releasing =>
    cases todo with
    | nil => rfl
    | cons d todo => simp [isBare] at h
  | _ => rfl

end Frame

theorem Thread.wakeFree_stashes : WakeFree (Thread.stashes t q) := by
  intro c th
  simp only [Thread.stashes, role_wake]
  cases th.role with
  | caller => rfl
  | worker p k phase => cases phase <;> rfl

namespace System

variable {s : System} {i : ThreadId} {p : PoolId} {k : Nat} {pool : Pool} {task new : Task}
  {f : Frame} {rest : List Frame} {phase phase' : Phase} {g : Thread → Thread}

/-- Outcomes of the task with the property in its slot. -/
def stored (s : System) (t : TaskId) (q : Outcome → Bool) : Nat :=
  (s.task t).slot.outcome.toList.countP q

/-- Outcomes of the task with the property that somebody holds. -/
def holdings (s : System) (t : TaskId) (q : Outcome → Bool) : Nat :=
  s.tally (Thread.stashes t q) + s.stored t q + s.weight (Frame.carries t q)

/-! ### Holdings in other states -/

@[simp] theorem holdings_setPool : (s.setPool p pool).holdings t q = s.holdings t q := rfl

theorem holdings_addTask (captured : Option Span) :
    (s.addTask { captured }).holdings t q = s.holdings t q := by
  have h : (s.addTask { captured }).stored t q = s.stored t q := by
    unfold stored System.task addTask
    rw [getElem?_snoc]
    split
    · next ht => simp [ht]
    · rfl
  unfold holdings
  rw [h]
  rfl

@[simp] theorem holdings_wakeAll (c : Condition) :
    (s.wakeAll c).holdings t q = s.holdings t q := by
  have h : (s.wakeAll c).stored t q = s.stored t q := rfl
  unfold holdings
  rw [tally_wakeAll Thread.wakeFree_stashes, weight_wakeAll Frame.carries_wake, h]

@[simp] theorem holdings_wakeOne (pick : Pick) :
    (s.wakeOne p pick).holdings t q = s.holdings t q := by
  have h : (s.wakeOne p pick).stored t q = s.stored t q := by simp [stored, System.task]
  unfold holdings
  rw [tally_wakeOne Thread.wakeFree_stashes, weight_wakeOne Frame.carries_wake, h]

theorem holdings_hired : (s.hired p pool).holdings t q = s.holdings t q := by
  have h : (s.hired p pool).stored t q = s.stored t q := rfl
  have hstash : (s.hired p pool).tally (Thread.stashes t q) = s.tally (Thread.stashes t q) := by
    simp [hired, Thread.stashes, Phase.stashes]
  have hweight : (s.hired p pool).weight (Frame.carries t q) = s.weight (Frame.carries t q) := by
    simp [weight, hired, Thread.weigh]
  unfold holdings
  rw [h, hstash, hweight]

theorem holdings_setTask (ht : s.tasks[u]? = some task) (new : Task) :
    (s.setTask u new).holdings t q + task.slot.keeps u t q =
      s.holdings t q + new.slot.keeps u t q := by
  have h : (s.setTask u new).stored t q + task.slot.keeps u t q =
      s.stored t q + new.slot.keeps u t q := by
    by_cases hu : u = t
    · subst hu
      rw [stored, stored, task_setTask ht, task_eq ht, Slot.keeps_self, Slot.keeps_self]
      omega
    · simp [stored, System.task, setTask, Slot.keeps, hu]
  unfold holdings
  simp only [weight, tally_setTask]
  omega

theorem holdings_setSlot (ht : s.tasks[u]? = some task) (slot : Slot) :
    (s.setSlot u slot).holdings t q + task.slot.keeps u t q =
      s.holdings t q + slot.keeps u t q := by
  rw [setSlot_eq ht]
  exact holdings_setTask ht _

theorem tally_stashes (g : Thread → Thread) (hg : ∀ th, (g th).role = th.role) :
    (s.onThread i g).tally (Thread.stashes t q) = s.tally (Thread.stashes t q) :=
  tally_onThread_of_eq fun th => by simp [Thread.stashes, hg]

theorem holdings_push {th : Thread} (hth : s.threads[i]? = some th) (f : Frame) :
    (s.onThread i (·.push f)).holdings t q = s.holdings t q + f.carries t q := by
  have h : (s.onThread i (·.push f)).stored t q = s.stored t q := rfl
  unfold holdings
  rw [h, tally_stashes (·.push f) fun _ => rfl, weight_push hth]
  omega

theorem holdings_pop (hi : s.Inside i (f :: rest)) :
    (s.onThread i Thread.pop).holdings t q + f.carries t q = s.holdings t q := by
  have h : (s.onThread i Thread.pop).stored t q = s.stored t q := rfl
  have hw := weight_pop (g := Frame.carries t q) hi
  unfold holdings
  rw [h, tally_stashes Thread.pop fun _ => rfl]
  omega

theorem holdings_enter (hi : s.Inside i (f :: rest)) (f' : Frame) :
    (s.enter i f').holdings t q + f.carries t q = s.holdings t q + f'.carries t q := by
  have h : (s.enter i f').stored t q = s.stored t q := rfl
  have hs : (s.enter i f').tally (Thread.stashes t q) = s.tally (Thread.stashes t q) :=
    tally_stashes (·.replace f') fun _ => rfl
  have hw := weight_enter (g := Frame.carries t q) f' hi
  unfold holdings
  rw [h, hs]
  omega

theorem holdings_onThread (hg : ∀ th, (g th).role = th.role ∧ (g th).calls = th.calls) :
    (s.onThread i g).holdings t q = s.holdings t q := by
  have h : (s.onThread i g).stored t q = s.stored t q := rfl
  unfold holdings
  rw [h, tally_stashes g fun th => (hg th).1, weight_onThread fun th => (hg th).2]

/-- A worker goes on to another phase. -/
theorem Working.holdings (phase' : Phase) (hw : s.Working i p k phase)
    (hg : Thread.Rephases phase' g) :
    (s.onThread i g).holdings t q + phase.stashes t q =
      s.holdings t q + phase'.stashes t q := by
  obtain ⟨th, hth, hr, -⟩ := hw
  have h : (s.onThread i g).stored t q = s.stored t q := rfl
  have hs := tally_onThread (w := Thread.stashes t q) g hth
  have hbefore : th.stashes t q = phase.stashes t q := by simp [Thread.stashes, hr]
  have hafter : (g th).stashes t q = phase'.stashes t q := by
    simp [Thread.stashes, (hg th).1, Thread.role_setPhase hr]
  unfold System.holdings
  rw [h, weight_onThread fun th => (hg th).2]
  omega

theorem Working.holdings_settled (hw : s.Working i p k phase) (h : phase.stashes t q = 0) :
    (s.settled i p pool).holdings t q = s.holdings t q := by
  have hw' : (s.setPool p pool).Working i p k phase := hw
  have hsame := hw'.holdings (t := t) (q := q) (.parked true) Thread.rephases_setPhase
  have hafter : (Phase.parked true).stashes t q = 0 := rfl
  rw [h, hafter, holdings_setPool] at hsame
  unfold System.settled
  split
  · rw [holdings_wakeAll]
    exact hsame
  · exact hsame

/-! ### Holdings after moves -/

theorem holdings_leave (hi : s.Inside i (f :: rest)) (hf : f.isBare) :
    (s.onThread i Thread.pop).holdings t q = s.holdings t q := by
  have hpop := holdings_pop (t := t) (q := q) hi
  rwa [Frame.carries_of_isBare hf] at hpop

/-- A frame gives way to another one that lets go of the same outcomes. -/
theorem holdings_replace {f' : Frame} (hi : s.Inside i (f :: rest))
    (hf : f'.carries t q = f.carries t q) : (s.enter i f').holdings t q = s.holdings t q := by
  have hold := holdings_enter (t := t) (q := q) hi f'
  omega

theorem holdings_accept (new : Pool) (pick : Pick) (ht : s.tasks[u]? = some task)
    (hempty : task.slot.outcome = none) :
    (((s.setSlot u task.slot.claim).setPool p new).wakeOne p pick).holdings t q =
      s.holdings t q := by
  have hslot := holdings_setSlot (t := t) (q := q) ht task.slot.claim
  rw [Slot.keeps_of_none hempty, Slot.keeps_claim] at hslot
  rw [holdings_wakeOne]
  exact hslot

/-- What a join takes is held no more. -/
theorem holdings_take (hi : s.Inside i (f :: rest)) (hf : f.isBare)
    (ht : s.tasks[u]? = some task) :
    ((s.setSlot u task.slot.release).onThread i Thread.pop).holdings t q +
      task.slot.keeps u t q = s.holdings t q := by
  have hslot := holdings_setSlot (t := t) (q := q) ht task.slot.release
  have hi' : (s.setSlot u task.slot.release).Inside i (f :: rest) := hi
  rw [Slot.keeps_release] at hslot
  rw [holdings_leave hi' hf]
  exact hslot

theorem holdings_letGo {slot : Slot} {todo : List Disposal} (hi : s.Inside i (f :: rest))
    (hf : f.isBare) (ht : s.tasks[u]? = some task) (surrender : task.slot.Surrender u slot todo) :
    ((s.setTask u { task with slot, handle := false }).enter i
      (.disposing todo none false)).holdings t q = s.holdings t q := by
  have hslot := holdings_setTask (t := t) (q := q) ht { task with slot, handle := false }
  have hi' : (s.setTask u { task with slot, handle := false }).Inside i (f :: rest) := hi
  have hold := holdings_enter (t := t) (q := q) hi' (.disposing todo none false)
  have hsum := surrender.countP (t := t) (q := q)
  rw [Frame.carries_of_isBare hf] at hold
  simp only [Frame.carries] at hold hslot
  omega

section disposing

variable {todo : List Disposal} {failure failure' : Option Payload} {releasing : Bool}

theorem holdings_abandon
    (hi : s.Inside i (.disposing (.handle u :: todo) failure releasing :: rest))
    (ht : s.tasks[u]? = some task) :
    ((s.enter i (.disposing (.reference u :: todo) failure releasing)).setSlot u
      task.slot.detach).holdings t q = s.holdings t q := by
  have hold : (s.enter i (.disposing (.reference u :: todo) failure releasing)).holdings t q =
      s.holdings t q := holdings_replace hi rfl
  have hslot := holdings_setSlot (t := t) (q := q)
    (s := s.enter i (.disposing (.reference u :: todo) failure releasing)) ht task.slot.detach
  rw [Slot.keeps_detach] at hslot
  omega

/-- The contents of a slot go to whoever lets go of the last reference. -/
theorem holdings_clear
    (hi : s.Inside i (.disposing (.reference u :: todo) failure releasing :: rest))
    (ht : s.tasks[u]? = some task) :
    ((s.enter i (.disposing (task.slot.contents u ++ todo) failure releasing)).setSlot u
      task.slot.clear).holdings t q = s.holdings t q := by
  have hold := holdings_enter (t := t) (q := q) hi
    (.disposing (task.slot.contents u ++ todo) failure releasing)
  have hslot := holdings_setSlot (t := t) (q := q)
    (s := s.enter i (.disposing (task.slot.contents u ++ todo) failure releasing)) ht
    task.slot.clear
  simp only [Frame.carries, List.countP_cons, List.countP_append, Slot.countP_contents,
    Disposal.carries, Bool.false_eq_true, if_false, Slot.keeps_clear] at hold hslot
  omega

theorem holdings_resume
    (hi : s.Inside i (.destructor :: .disposing todo failure releasing :: rest)) :
    ((s.onThread i Thread.pop).enter i (.disposing todo failure' releasing)).holdings t q =
      s.holdings t q := by
  have hold : ((s.onThread i Thread.pop).enter i (.disposing todo failure' releasing)).holdings
      t q = (s.onThread i Thread.pop).holdings t q := holdings_replace hi.pop rfl
  exact hold.trans (holdings_pop hi)

end disposing

theorem Working.holdings_begin (runs : Nat) (hw : s.Working i p k (.holding u))
    (ht : s.tasks[u]? = some task) (hg : Thread.Rephases (.running u) g) :
    ((s.setTask u { task with slot := task.slot.start, runs }).onThread i g).holdings t q =
      s.holdings t q := by
  have hslot := holdings_setTask (t := t) (q := q) ht { task with slot := task.slot.start, runs }
  have hw' : (s.setTask u { task with slot := task.slot.start, runs }).Working i p k
    (.holding u) := hw
  have hphase := hw'.holdings (t := t) (q := q) _ hg
  simp only [Phase.stashes, Slot.keeps_start] at hphase hslot
  omega

/-- The outcome of an invocation goes from its worker to the empty slot. -/
theorem Working.holdings_stash {work : Bool} {o : Outcome}
    (hw : s.Working i p k (.stashing u work o)) (ht : s.tasks[u]? = some task)
    (hempty : task.slot.outcome = none) :
    ((s.setSlot u (task.slot.stash work o)).onThread i
      (·.setPhase (.stashed u o.returned))).holdings t q = s.holdings t q := by
  have hslot := holdings_setSlot (t := t) (q := q) ht (task.slot.stash work o)
  have hw' : (s.setSlot u (task.slot.stash work o)).Working i p k (.stashing u work o) := hw
  have hphase := hw'.holdings (t := t) (q := q) (.stashed u o.returned) Thread.rephases_setPhase
  have hafter : (Phase.stashed u o.returned).stashes t q = 0 := rfl
  rw [Slot.keeps_of_none hempty, Slot.keeps_stash] at hslot
  have hsame : (Phase.stashing u true o).stashes t q = (Phase.stashing u work o).stashes t q := rfl
  omega

theorem holdings_published (pool : Pool) (ht : s.tasks[u]? = some task) :
    (s.published i p pool u task).holdings t q + task.slot.keeps u t q =
      s.holdings t q + task.slot.complete.keeps u t q := by
  have h : ((s.setPool p (pool.retire i)).setSlot u task.slot.complete).holdings t q +
      task.slot.keeps u t q = s.holdings t q + task.slot.complete.keeps u t q :=
    holdings_setSlot (s := s.setPool p (pool.retire i)) ht _
  unfold published
  split
  · exact h
  · rw [holdings_wakeAll]
    exact h

theorem Working.holdings_retired (hw : s.Working i p k (.counted u))
    (ht : s.tasks[u]? = some task) : (s.retired i p pool u task).holdings t q = s.holdings t q := by
  have hw' : (s.published i p pool u task).Working i p k (.counted u) := hw.published rfl
  have hslot := holdings_published pool (i := i) (p := p) (t := t) (q := q) ht
  have hphase := hw'.holdings (t := t) (q := q) .releasing Thread.rephases_setPhase
  have hbefore : (Phase.counted u).stashes t q = 0 := rfl
  have hafter : Phase.releasing.stashes t q = 0 := rfl
  obtain ⟨th, hth, -⟩ : ((s.published i p pool u task).onThread i
      (·.setPhase .releasing)).Working i p k .releasing := hw'.onThread Thread.rephases_setPhase
  rw [retired_eq, holdings_push hth]
  have hleft := task.slot.countP_leftovers (u := u) (t := t) (q := q)
  simp only [Frame.carries, List.countP_cons, Disposal.carries, Bool.false_eq_true, if_false]
  omega

end System

end WorkerPool
