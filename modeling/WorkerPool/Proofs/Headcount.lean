import WorkerPool.Proofs.PoolChanges

/-!
Workers of a pool, counted by what they are doing.

`System.headcount` counts the workers of a pool whose phase has a property. Each elementary change
of a state comes with its effect on the count.
-/
namespace WorkerPool

theorem countP_eq_sum {α : Type} (q : α → Bool) (l : List α) :
    l.countP q = (l.map fun a => (q a).toNat).sum := by
  induction l with
  | nil => rfl
  | cons a l ih => cases hq : q a <;> simp [hq, ih, Nat.add_comm]

/-- Whether the thread is a worker of the pool in such a phase. -/
def Thread.worksAt (p : PoolId) (r : Phase → Bool) (th : Thread) : Bool :=
  match th.role with
  | .caller => false
  | .worker q _ phase => q == p && r phase

/-- A wake-up does not change the property of a phase. -/
def WakeStable (r : Phase → Bool) : Prop := ∀ b, r (.parked b) = r (.parked true)

theorem Phase.wake_ne {c : Condition} {p : PoolId} (hc : c ≠ .workAvailable p) (phase : Phase) :
    phase.wake c p = phase := by
  cases phase with
  | parked w => simp [wake, hc]
  | _ => rfl

namespace Thread

variable {th th' : Thread} {p : PoolId} {r : Phase → Bool} {c : Condition}

theorem worksAt_of_role (h : th'.role = th.role) : th'.worksAt p r = th.worksAt p r := by
  simp [worksAt, h]

theorem worksAt_wake_ne (hc : c ≠ .workAvailable p) :
    (th.wake c).worksAt p r = th.worksAt p r := by
  simp only [worksAt, role_wake]
  cases th.role with
  | caller => rfl
  | worker q k phase =>
    by_cases hq : q = p
    · subst hq
      simp [Role.wake, Phase.wake_ne hc]
    · simp [Role.wake, beq_eq_false_iff_ne.mpr hq]

theorem worksAt_wake (hr : WakeStable r) : (th.wake c).worksAt p r = th.worksAt p r := by
  simp only [worksAt, role_wake]
  cases th.role with
  | caller => rfl
  | worker q k phase =>
    cases phase with
    | parked w => simp [Role.wake, Phase.wake, hr (w || _), hr w]
    | _ => rfl

end Thread

namespace System

variable {s s' : System} {i : ThreadId} {p q : PoolId} {k : Nat} {pick : Pick} {new : Pool}
  {th : Thread}
  {phase phase' : Phase} {g : Thread → Thread} {t : TaskId} {task : Task} {r r' : Phase → Bool}
  {c : Condition}

/-- The number of workers of the pool in such a phase. -/
def headcount (s : System) (p : PoolId) (r : Phase → Bool) : Nat :=
  s.threads.countP (Thread.worksAt p r)

theorem headcount_congr (ht : s'.threads = s.threads) : s'.headcount p r = s.headcount p r := by
  simp [headcount, ht]

theorem headcount_onThread (p : PoolId) (r : Phase → Bool) (g : Thread → Thread)
    (h : s.threads[i]? = some th) : (s.onThread i g).headcount p r + (th.worksAt p r).toNat =
      s.headcount p r + ((g th).worksAt p r).toNat := by
  unfold headcount
  rw [countP_eq_sum, countP_eq_sum]
  exact tally_onThread (w := fun th => (th.worksAt p r).toNat) g h

theorem headcount_same (hg : ∀ th, (g th).worksAt p r = th.worksAt p r) :
    (s.onThread i g).headcount p r = s.headcount p r := by
  unfold headcount
  rw [countP_eq_sum, countP_eq_sum]
  exact tally_onThread_of_eq (w := fun th => (th.worksAt p r).toNat) fun th => by rw [hg]

theorem headcount_of_role (hg : ∀ th, (g th).role = th.role) :
    (s.onThread i g).headcount p r = s.headcount p r :=
  headcount_same fun th => Thread.worksAt_of_role (hg th)

theorem headcount_spawn (hr : r .starting = false) :
    (s.spawn { role := .worker q k .starting }).headcount p r = s.headcount p r := by
  simp [headcount, System.spawn, Thread.worksAt, hr]

theorem headcount_wakeAll_of (hg : ∀ th, (Thread.wake c th).worksAt p r = th.worksAt p r) :
    (s.wakeAll c).headcount p r = s.headcount p r := by
  have same : Thread.worksAt p r ∘ Thread.wake c = Thread.worksAt p r := funext hg
  simp [headcount, System.wakeAll, List.countP_map, same]

theorem headcount_wakeAll_ne (hc : c ≠ .workAvailable p) :
    (s.wakeAll c).headcount p r = s.headcount p r :=
  headcount_wakeAll_of fun _ => Thread.worksAt_wake_ne hc

theorem headcount_wakeAll (hr : WakeStable r) : (s.wakeAll c).headcount p r = s.headcount p r :=
  headcount_wakeAll_of fun _ => Thread.worksAt_wake hr

theorem headcount_wakeOne_ne (hq : q ≠ p) :
    (s.wakeOne q pick).headcount p r = s.headcount p r := by
  obtain ⟨j, hj⟩ := wakeOne_eq s q pick
  rw [hj]
  exact headcount_same fun _ => Thread.worksAt_wake_ne (by simp [hq])

theorem headcount_wakeOne (hr : WakeStable r) :
    (s.wakeOne q pick).headcount p r = s.headcount p r := by
  obtain ⟨j, hj⟩ := wakeOne_eq s q pick
  rw [hj]
  exact headcount_same fun _ => Thread.worksAt_wake hr

/-- A worker changes its phase. -/
theorem Working.headcount (p : PoolId) (r : Phase → Bool) (hw : s.Working i q k phase)
    (hg : ∀ th, (g th).role = (th.setPhase phase').role) :
    (s.onThread i g).headcount p r + (q == p && r phase).toNat =
      s.headcount p r + (q == p && r phase').toNat := by
  obtain ⟨th, hth, hr, -⟩ := hw
  have := headcount_onThread p r g hth
  simpa [Thread.worksAt, hg, Thread.role_setPhase hr, hr] using this

theorem Working.headcount_same (hw : s.Working i q k phase)
    (hg : ∀ th, (g th).role = (th.setPhase phase').role) (h : r phase = r phase') :
    (s.onThread i g).headcount p r = s.headcount p r := by
  have := hw.headcount p r hg
  rw [h] at this
  exact Nat.add_right_cancel this

theorem Working.headcount_ne (hw : s.Working i q k phase)
    (hg : ∀ th, (g th).role = (th.setPhase phase').role) (hq : q ≠ p) :
    (s.onThread i g).headcount p r = s.headcount p r := by
  simpa [beq_eq_false_iff_ne.mpr hq] using hw.headcount p r hg

theorem Working.headcount_settled (p : PoolId) (r : Phase → Bool) (new : Pool)
    (hw : s.Working i q k phase) : (s.settled i q new).headcount p r + (q == p && r phase).toNat =
      s.headcount p r + (q == p && r (.parked true)).toNat := by
  have hw' : (s.setPool q new).Working i q k phase := hw
  have hset := hw'.headcount p r (g := (·.setPhase (.parked true))) fun _ => rfl
  unfold System.settled
  split
  · rwa [headcount_wakeAll_ne (by simp)]
  · exact hset

theorem headcount_published : (s.published i q new t task).headcount p r = s.headcount p r := by
  unfold published
  split
  · rfl
  · exact headcount_wakeAll_ne (by simp)

/-- A worker completes its task. -/
theorem Working.headcount_retired (p : PoolId) (r : Phase → Bool)
    (hw : s.Working i q k (.counted t)) :
    (s.retired i q new t task).headcount p r + (q == p && r (.counted t)).toNat =
      s.headcount p r + (q == p && r .releasing).toNat := by
  have hw' : (s.published i q new t task).Working i q k (.counted t) := hw.published rfl
  have hg (th : Thread) : ((th.setPhase .releasing).push
      (.disposing (.reference t :: task.slot.leftovers t) none true)).role =
        (th.setPhase .releasing).role := rfl
  have := hw'.headcount p r hg
  rwa [headcount_published] at this

theorem Working.headcount_retired_same (hw : s.Working i q k (.counted t))
    (hr : r (.counted t) = r .releasing) :
    (s.retired i q new t task).headcount p r = s.headcount p r := by
  have : (s.retired i q new t task).headcount p r + _ = _ := hw.headcount_retired p r
  rw [hr] at this
  exact Nat.add_right_cancel this

/-- Phases of which no worker can be in both. -/
theorem headcount_or (h : ∀ phase, ¬ (r phase ∧ r' phase)) :
    s.headcount p (fun phase => r phase || r' phase) = s.headcount p r + s.headcount p r' := by
  unfold headcount
  induction s.threads with
  | nil => rfl
  | cons th ths ih =>
    have one : (th.worksAt p fun phase => r phase || r' phase).toNat =
        (th.worksAt p r).toNat + (th.worksAt p r').toNat := by
      unfold Thread.worksAt
      cases th.role with
      | caller => rfl
      | worker q k phase =>
        have := h phase
        cases hq : q == p <;> cases hr : r phase <;> cases hr' : r' phase <;> simp_all
    simp only [countP_eq_sum, List.map_cons, List.sum_cons] at ih ⊢
    omega

end System

end WorkerPool
