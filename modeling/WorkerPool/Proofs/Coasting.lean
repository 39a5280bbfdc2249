import WorkerPool.Proofs.CriticalSections
import WorkerPool.Proofs.DroppedPool
import WorkerPool.Proofs.Layers
import WorkerPool.Proofs.Teardown

/-!
Programs that coast.

A program coasts if only workers take steps and nobody calls the library any more: what works and
destructors have called goes on, and they return. No handle is given away in that time, and a task
changes hands only at the end of a join or a submission that has been in progress. So whatever user
code may call before, it may call afterwards.
-/
namespace WorkerPool

def Action.isCall : Action → Bool
  | call .. => true
  | _ => false

/-- The step is no call, and a work or a destructor that ends with it returns. -/
def Action.returns : Action → Bool
  | call .. | finish (.error _) => false
  | _ => true

theorem Action.isCall_of_returns {a : Action} (ha : a.returns) : a.isCall = false := by
  cases a <;> first | rfl | cases ha

/-- A call of the library that may have to wait. -/
def Frame.isWait : Frame → Bool
  | disposing .. | destructor => false
  | _ => true

theorem Thread.Woken.inUserCode {th th' : Thread} (w : th.Woken th') :
    th'.inUserCode = th.inUserCode := by
  induction w with
  | refl => rfl
  | @wake th₁ c _ ih =>
    rw [← ih]
    cases hc : th₁.calls with
    | nil =>
      cases hr : th₁.role with
      | caller => simp [Thread.inUserCode, hc, hr, Role.wake]
      | worker p k phase =>
        cases phase <;> simp [Thread.inUserCode, hc, hr, Role.wake, Phase.wake]
    | cons f rest => cases f <;> simp [Thread.inUserCode, hc, Frame.wake]

namespace Frame.Alike

variable {f f' : Frame}

theorem joins (same : f.Alike f') (t : TaskId) : f'.joins t = f.joins t := by
  cases same with
  | submission _ _ | join _ _ => rfl
  | wait hf hf' => cases f <;> cases f' <;> first | rfl | cases hf | cases hf'

theorem submits (same : f.Alike f') (t : TaskId) : f'.submits t = f.submits t := by
  cases same with
  | submission _ _ | join _ _ => rfl
  | wait hf hf' => cases f <;> cases f' <;> first | rfl | cases hf | cases hf'

theorem uses (same : f.Alike f') (p : PoolId) : f'.uses p = f.uses p := by
  cases same with
  | submission _ _ | join _ _ => rfl
  | wait hf hf' => rw [uses_eq hf, uses_eq hf']

theorem isWait (same : f.Alike f') : f'.isWait = f.isWait := by
  cases same with
  | submission _ _ | join _ _ => rfl
  | wait hf hf' => cases f <;> cases f' <;> first | rfl | cases hf | cases hf'

end Frame.Alike

namespace System

variable {s s' s'' : System} {i j : ThreadId} {p q : PoolId} {k : Nat} {t : TaskId}
  {pool new : Pool} {task : Task} {slot : Slot} {f : Frame} {rest : List Frame} {th : Thread}
  {es : List Event} {a : Action} {e : Effect} {h g : Trace} {callers : Nat} {pick : Pick}
  {phase : Phase}

/-! ### What stays -/

theorem standing_iff {b : Bool} {o : Ownership} (ht : s.tasks[t]? = some task) :
    s.standing t = some (b, o) ↔ task.handle = b ∧ task.slot.ownership = o := by
  simp [standing_eq ht]

theorem canUse_set (hq : s.pools[q]? = some pool) (hpools : s'.pools = s.pools.set q new)
    (hn : q = p → new.handle = pool.handle) : s'.canUse p = s.canUse p := by
  have hlt := (List.getElem?_eq_some_iff.mp hq).1
  by_cases hqp : q = p
  · subst hqp
    have hget : s'.pools[q]? = some new := by rw [hpools, List.getElem?_set_self hlt]
    simp [canUse, hget, hq, hn rfl]
  · simp [canUse, hpools, hqp]

/-- The handles that are there stay, the tasks that they belong to stay with whom they are, and
threads work for the same pools. -/
structure Keeps (s s' : System) : Prop where
  standing : ∀ {t o}, s.standing t = some (true, o) → s'.standing t = some (true, o)
  uses : ∀ {p}, s.canUse p → s'.canUse p
  staff : ∀ j, s'.employer j = s.employer j

namespace Keeps

theorem trans (keeps : Keeps s s') (keeps' : Keeps s' s'') : Keeps s s'' where
  standing h := keeps'.standing (keeps.standing h)
  uses h := keeps'.uses (keeps.uses h)
  staff j := (keeps'.staff j).trans (keeps.staff j)

theorem onThread {g : Thread → Thread} (hg : ∀ th, (g th).employer = th.employer) :
    Keeps s (s.onThread i g) :=
  ⟨id, id, employer_onThread hg⟩

theorem pop : Keeps s (s.onThread i Thread.pop) := onThread fun _ => rfl

theorem enter : Keeps s (s.enter i f) := onThread fun _ => rfl

theorem rephase : Keeps s (s.onThread i (·.setPhase phase)) := onThread employer_setPhase

theorem wakeAll (c : Condition) : Keeps s (s.wakeAll c) where
  standing := id
  uses := id
  staff j := by
    unfold employer
    rw [getElem?_wakeAll]
    cases s.threads[j]? <;> simp [employer_wake]

theorem wakeOne (pick : Pick) : Keeps s (s.wakeOne p pick) := by
  obtain ⟨j, hj⟩ := wakeOne_eq s p pick
  rw [hj]
  exact onThread (employer_wake _)

theorem setPool (hp : s.pools[p]? = some pool) (hn : new.handle = pool.handle) :
    Keeps s (s.setPool p new) where
  standing := id
  uses use := (canUse_set hp rfl fun _ => hn).trans use
  staff _ := rfl

/-- A task whose handle is there stays with whom it is. -/
theorem setTask {new : Task} (ht : s.tasks[t]? = some task)
    (hn : task.handle → new.handle ∧ new.slot.ownership = task.slot.ownership) :
    Keeps s (s.setTask t new) where
  standing {u o} h := by
    rw [standing_setTask ht]
    split
    · next hu =>
      subst hu
      obtain ⟨hh, rfl⟩ := (standing_iff ht).mp h
      rw [(hn hh).1, (hn hh).2]
    · exact h
  uses := id
  staff _ := rfl

theorem setSlot (ht : s.tasks[t]? = some task)
    (ho : task.handle → slot.ownership = task.slot.ownership) : Keeps s (s.setSlot t slot) := by
  rw [setSlot_eq ht]
  exact setTask ht fun hh => ⟨hh, ho hh⟩

/-! ### Shutdowns -/

section shutdown

variable (dropping : Bool)

theorem endShutdown (failure : Option PoolError) :
    Keeps s (s.endShutdown i p pool failure dropping).1 := by
  unfold System.endShutdown
  split <;> exact pop

theorem stopNext (new : Pool) (next total : Nat) (hp : s.pools[p]? = some pool)
    (hn : new.handle = pool.handle) : Keeps s (s.stopNext i p new next total dropping).1 := by
  unfold System.stopNext
  split
  · exact trans (trans (setPool hp (by exact hn)) (wakeAll _)) enter
  · have dismissed : Keeps s (s.setPool p new.dismiss) := setPool hp hn
    have ended : Keeps (s.setPool p new.dismiss)
        ((s.setPool p new.dismiss).endShutdown i p new none dropping).1 := endShutdown dropping none
    exact dismissed.trans ended

theorem resumeShutdown (hp : s.pools[p]? = some pool) :
    Keeps s (s.resumeShutdown i p pool dropping).1 := by
  unfold System.resumeShutdown decideShutdown
  split
  · exact enter
  · split
    · exact stopNext dropping pool.close 0 pool.rosterSize hp rfl
    · exact endShutdown dropping _

theorem shutdown (hp : s.pools[p]? = some pool) :
    Keeps s (s.shutdown i p pool dropping).1 := by
  unfold System.shutdown
  split
  · exact endShutdown dropping none
  · exact resumeShutdown dropping hp

theorem waitIdle : Keeps s (s.waitIdle i p pool dropping).1 := by
  unfold System.waitIdle
  split
  · split
    · exact enter
    · exact pop
  · exact enter

theorem joinCrew {next total : Nat} (hp : s.pools[p]? = some pool)
    (h : s.joinCrew? i p pool next total dropping = some e) : Keeps s e.1 := by
  unfold joinCrew? at h
  split at h
  · cases h
  · split at h
    · cases h
      exact stopNext dropping _ _ _ hp rfl
    · split at h
      · cases h
        exact stopNext dropping _ _ _ hp rfl
      · cases h

end shutdown

/-! ### Letting go -/

theorem dispose {todo : List Disposal} {failure : Option Payload} {releasing : Bool}
    (calls : s.Calls) (hi : s.Inside i (.disposing todo failure releasing :: rest)) :
    Keeps s (s.dispose i th todo failure releasing).1 := by
  cases todo with
  | nil =>
    simp only [System.dispose]
    split <;> split <;> exact pop
  | cons d todo =>
    have given := (calls.given hi).1
    cases d with
    | outcome t o =>
      simp only [System.dispose]
      split
      · exact enter.trans (onThread fun _ => rfl)
      · exact enter
    | work t => exact enter.trans (onThread fun _ => rfl)
    | record r => exact enter
    | handle t =>
      simp only [System.dispose]
      split
      · exact enter
      · next task ht =>
        split
        · refine enter.trans (setSlot ht fun hh => ?_)
          obtain ⟨o, ho⟩ : ∃ o, s.standing t = some (false, o) := given
          rw [((standing_iff ht).mp ho).1] at hh
          cases hh
        · exact enter
    | reference t =>
      simp only [System.dispose]
      split
      · exact enter
      · next task ht =>
        split
        · exact enter.trans (setSlot ht fun _ => rfl)
        · exact enter

/-! ### Workers -/

theorem proceed (hp : s.pools[p]? = some pool) : Keeps s (s.proceed i p pool k).1 := by
  unfold System.proceed
  split
  · exact onThread fun th => employer_setPhase th
  · split
    · exact rephase
    · next hc =>
      obtain ⟨queue, -, rfl⟩ := Pool.claim?_eq hc
      exact trans (setPool hp (by rfl)) rephase

theorem settle (hp : s.pools[p]? = some pool) (hn : new.handle = pool.handle) :
    Keeps s (s.settle i p new k).1 := by
  have settled : Keeps s (s.settled i p new) := by
    unfold System.settled
    split
    · exact ((setPool hp hn).trans rephase).trans (wakeAll _)
    · exact (setPool hp hn).trans rephase
  have hlt := (List.getElem?_eq_some_iff.mp hp).1
  have hp' : (s.settled i p new).pools[p]? = some new := by
    rw [pools_settled]
    exact List.getElem?_set_self hlt
  exact settled.trans (proceed hp')

theorem register (hp : s.pools[p]? = some pool) : Keeps s (s.register i p pool k).1 := by
  have entered : Keeps s ((s.onThread i fun th =>
      { th with spans := th.spans.enter (some .worker) }).wakeAll (.workerRegistered p)) :=
    trans (onThread (by intro th; rfl)) (wakeAll _)
  exact entered.trans (settle hp rfl)

theorem begin (ht : s.tasks[t]? = some task) : Keeps s (s.begin i t task).1 := by
  unfold System.begin
  split
  · exact trans (setTask ht (by exact fun hh => ⟨hh, rfl⟩)) (onThread fun _ => employer_setPhase _)
  · exact trans (setTask ht (by exact fun hh => ⟨hh, rfl⟩)) (onThread fun _ => employer_setPhase _)

theorem retire (hp : s.pools[p]? = some pool) (ht : s.tasks[t]? = some task) :
    Keeps s (s.retire i p pool k t task).1 := by
  have owned : task.slot.complete.ownership = task.slot.ownership := by
    unfold Slot.complete
    split <;> rfl
  have published : Keeps s (s.published i p pool t task) := by
    have completed : Keeps s ((s.setPool p (pool.retire i)).setSlot t task.slot.complete) :=
      trans (setPool hp (by rfl)) (setSlot ht fun _ => owned)
    unfold System.published
    split
    · exact completed
    · exact completed.trans (wakeAll _)
  exact published.trans (onThread fun th => employer_setPhase th)

theorem work (h : s.work? i p k phase = some e) : Keeps s e.1 := by
  obtain ⟨pool, hp, h⟩ := Option.bind_eq_some_iff.mp h
  cases phase with
  | starting =>
    cases h
    exact register hp
  | parked woken =>
    cases woken with
    | false => cases h
    | true =>
      cases h
      exact proceed hp
  | holding t =>
    obtain ⟨task, ht, h⟩ := Option.bind_eq_some_iff.mp h
    cases h
    exact begin ht
  | stashing t work o =>
    obtain ⟨task, ht, h⟩ := Option.bind_eq_some_iff.mp h
    cases h
    exact trans (setSlot ht fun _ => by rfl) rephase
  | stashed t returned =>
    cases h
    have counted : Keeps s (s.setPool p (pool.count k returned)) := setPool hp rfl
    exact counted.trans (onThread fun th => employer_setPhase th)
  | counted t =>
    obtain ⟨task, ht, h⟩ := Option.bind_eq_some_iff.mp h
    cases h
    exact retire hp ht
  | releasing =>
    cases h
    exact settle hp rfl
  | running _ => cases h
  | exited => cases h

end Keeps

/-! ### Steps -/

/-- What a step that is no call leaves as it is. No handle goes away, and a task changes hands only
at the end of a join or a submission. -/
structure Ebbs (s s' : System) : Prop where
  handle : ∀ {t o}, s.standing t = some (true, o) → ∃ o', s'.standing t = some (true, o')
  owned : ∀ {t}, s.standing t = some (true, .pool) → s.weight (joining t) = 0 →
    s'.standing t = some (true, .pool)
  rests : ∀ {t}, s.standing t = some (true, .caller) → s.weight (submitting t) = 0 →
    s'.standing t = some (true, .caller)
  uses : ∀ {p}, s.canUse p → s'.canUse p
  staff : ∀ j, s'.employer j = s.employer j

theorem Keeps.ebbs (keeps : Keeps s s') : Ebbs s s' where
  handle h := ⟨_, keeps.standing h⟩
  owned h _ := keeps.standing h
  rests h _ := keeps.standing h
  uses := keeps.uses
  staff := keeps.staff

namespace Ebbs

theorem trans (ebbs : Ebbs s s') (keeps : Keeps s' s'') : Ebbs s s'' where
  handle h :=
    have ⟨_, h'⟩ := ebbs.handle h
    ⟨_, keeps.standing h'⟩
  owned h none := keeps.standing (ebbs.owned h none)
  rests h none := keeps.standing (ebbs.rests h none)
  uses use := keeps.uses (ebbs.uses use)
  staff j := (keeps.staff j).trans (ebbs.staff j)

/-- One task changes hands. -/
theorem setSlot (ht : s.tasks[t]? = some task)
    (owned : task.slot.ownership = .pool → s.weight (joining t) = 0 → slot.ownership = .pool)
    (rests : task.slot.ownership = .caller → s.weight (submitting t) = 0 →
      slot.ownership = .caller) : Ebbs s (s.setSlot t slot) := by
  have standing (u : TaskId) : (s.setSlot t slot).standing u =
      if u = t then some (task.handle, slot.ownership) else s.standing u := by
    rw [setSlot_eq ht]
    exact standing_setTask ht
  have here {b : Bool} {o : Ownership} := (standing_iff (b := b) (o := o) ht).mp
  refine ⟨fun {u o} h => ?_, fun {u} h none => ?_, fun {u} h none => ?_, id, fun _ => rfl⟩
  · rw [standing]
    split
    · next hu => exact ⟨_, by rw [(here (hu ▸ h)).1]⟩
    · exact ⟨o, h⟩
  · rw [standing]
    split
    · next hu =>
      subst hu
      rw [(here h).1, owned (here h).2 none]
    · exact h
  · rw [standing]
    split
    · next hu =>
      subst hu
      rw [(here h).1, rests (here h).2 none]
    · exact h

theorem accept {woken : Bool} (pick : Pick) (hi : s.Inside i (.awaitingWorker p t woken :: rest))
    (hp : s.pools[p]? = some pool) (ht : s.tasks[t]? = some task) :
    Ebbs s (s.accept i p pool t task pick).1 := by
  unfold System.accept
  split
  · exact Keeps.pop.ebbs
  · next ho =>
    have some_submits := le_weight (g := submitting t) hi
    have claimed : Ebbs s (s.setSlot t task.slot.claim) := by
      refine setSlot ht (fun _ _ => rfl) fun _ none => ?_
      simp [none, submitting, Frame.submits] at some_submits
    exact ((claimed.trans (.setPool hp (by rfl))).trans (.wakeOne pick)).trans .pop

theorem resumeSubmit {woken : Bool} (pick : Pick)
    (hi : s.Inside i (.awaitingWorker p t woken :: rest)) (hp : s.pools[p]? = some pool)
    (ht : s.tasks[t]? = some task) : Ebbs s (s.resumeSubmit i p pool t task pick).1 := by
  unfold System.resumeSubmit
  split
  · exact Keeps.enter.ebbs
  · split
    · exact Keeps.pop.ebbs
    · exact accept pick hi hp ht

section joins

variable {bound : Bound} {woken : Bool} (hi : s.Inside i (.awaitingOutcome t bound woken :: rest))
  (ht : s.tasks[t]? = some task)
include hi ht

theorem takeOutcome : Ebbs s (s.takeOutcome i t task).1 := by
  have some_joins := le_weight (g := joining t) hi
  have released : Ebbs s (s.setSlot t task.slot.release) := by
    refine setSlot ht (fun _ none => ?_) fun _ _ => rfl
    simp [none, joining, Frame.joins] at some_joins
  exact released.trans .pop

theorem resumeJoin : Ebbs s (s.resumeJoin i t task bound).1 := by
  unfold System.resumeJoin
  split
  · exact takeOutcome hi ht
  · exact Keeps.enter.ebbs

theorem expireJoin (nanos : Nat) : Ebbs s (s.expireJoin i t task nanos).1 := by
  unfold System.expireJoin
  split
  · exact takeOutcome hi ht
  · exact Keeps.pop.ebbs

end joins

theorem finish {ending : Except Payload Value} (h : s.finish? i th ending = some e) :
    Ebbs s e.1 := by
  unfold finish? at h
  split at h
  · cases h
    exact (Keeps.pop.trans .enter).ebbs
  · obtain ⟨task, -, h⟩ := Option.bind_eq_some_iff.mp h
    cases h
    exact Keeps.ebbs (.onThread fun th => employer_setPhase th)
  · cases h

theorem advance (calls : s.Calls) (hth : s.threads[i]? = some th)
    (h : s.advance? i th pick = some e) : Ebbs s e.1 := by
  unfold advance? at h
  split at h
  · split at h
    · cases h
    · exact (Keeps.work h).ebbs
  · next hc =>
    obtain ⟨pool, hp, h⟩ := Option.bind_eq_some_iff.mp h
    obtain ⟨task, ht, h⟩ := Option.bind_eq_some_iff.mp h
    cases h
    exact resumeSubmit pick ⟨th, hth, hc⟩ hp ht
  · next hc =>
    obtain ⟨task, ht, h⟩ := Option.bind_eq_some_iff.mp h
    cases h
    exact resumeJoin ⟨th, hth, hc⟩ ht
  · next dropping _ _ =>
    obtain ⟨pool, -, h⟩ := Option.bind_eq_some_iff.mp h
    cases h
    exact (Keeps.waitIdle dropping).ebbs
  · next dropping _ _ =>
    obtain ⟨pool, hp, h⟩ := Option.bind_eq_some_iff.mp h
    cases h
    exact (Keeps.shutdown dropping hp).ebbs
  · next dropping _ _ =>
    obtain ⟨pool, hp, h⟩ := Option.bind_eq_some_iff.mp h
    cases h
    exact (Keeps.resumeShutdown dropping hp).ebbs
  · next dropping _ _ =>
    obtain ⟨pool, hp, h⟩ := Option.bind_eq_some_iff.mp h
    exact (Keeps.joinCrew dropping hp h).ebbs
  · next hc =>
    cases h
    exact (Keeps.dispose calls ⟨th, hth, hc⟩).ebbs
  all_goals cases h

theorem expire (hth : s.threads[i]? = some th) (h : s.expire? i th = some e) : Ebbs s e.1 := by
  unfold expire? at h
  split at h
  · next hc =>
    obtain ⟨task, ht, h⟩ := Option.bind_eq_some_iff.mp h
    cases h
    exact expireJoin ⟨th, hth, hc⟩ ht _
  · cases h

end Ebbs

theorem ebbs_of_step (calls : s.Calls) (hs : s.step i a = some e) (ha : a.isCall = false) :
    Ebbs s e.1 := by
  obtain ⟨th, hth, hs⟩ := Option.bind_eq_some_iff.mp hs
  cases a with
  | call op pick => cases ha
  | finish ending => exact .finish hs
  | advance pick => exact .advance calls hth hs
  | expire => exact .expire hth hs

/-- No step but a call opens a frame of a call that there was not before. -/
theorem frames_of_step {P : ThreadId → Frame → Prop} (lasting : Frame.Lasting P)
    (destructor : ∀ j, P j .destructor) (alike : ∀ {j f f'}, f.Alike f' → P j f → P j f')
    (hs : s.step i a = some e) (ha : a.isCall = false) (each : s.Frames P) : e.1.Frames P := by
  refine step_frames lasting (destructor i) (fun f opens => ?_) hs each
  cases opens with
  | goOn hi hf _ => exact alike hf (each.inside hi)
  | _ => cases ha

/-! ### Coasting -/

/-- The second state follows the first one in steps of workers that call nothing; the trace tells of
these steps. -/
inductive Coasts (s : System) : Trace → System → Prop
  | refl : Coasts s [] s
  | step {h : Trace} {s' s'' : System} {j : ThreadId} {a : Action} {es : List Event} :
      Coasts s h s' → (s'.employer j).isSome → a.isCall = false → s'.step j a = some (s'', es) →
      Coasts s (h ++ es.map (j, ·)) s''

namespace Coasts

theorem trans (coasts : s.Coasts g s') (coasts' : s'.Coasts h s'') : s.Coasts (g ++ h) s'' := by
  induction coasts' with
  | refl => simpa using coasts
  | step _ worker ha hs ih => simpa using ih.step worker ha hs

theorem run (coasts : s.Coasts h s') (run : Run callers g s) : Run callers (g ++ h) s' := by
  induction coasts with
  | refl => simpa using run
  | step _ _ _ hs ih => simpa using ih.step hs

/-- What every step that is no call keeps is kept while a program coasts. -/
theorem keeps {P : System → Prop} (coasts : s.Coasts h s') (run : Run callers g s) (base : P s)
    (keep : ∀ {g s j a s' es}, Run callers g s → P s → (s.employer j).isSome → a.isCall = false →
      s.step j a = some (s', es) → P s') : P s' := by
  induction coasts with
  | refl => exact base
  | step before worker ha hs ih => exact keep (before.run run) ih worker ha hs

/-- No frame of a call appears that was not there before. -/
theorem frames {P : ThreadId → Frame → Prop} (lasting : Frame.Lasting P)
    (destructor : ∀ j, P j .destructor) (alike : ∀ {j f f'}, f.Alike f' → P j f → P j f')
    (coasts : s.Coasts h s') (each : s.Frames P) : s'.Frames P := by
  induction coasts with
  | refl => exact each
  | step _ _ ha hs ih => exact frames_of_step lasting destructor alike hs ha ih

theorem staff (coasts : s.Coasts h s') (run : Run callers g s) (j : ThreadId) :
    s'.employer j = s.employer j :=
  coasts.keeps (P := fun s' => s'.employer j = s.employer j) run rfl
    fun run same _ ha hs => ((ebbs_of_step run.calls hs ha).staff j).trans same

/-- Calls that nobody is inside of are not begun. -/
theorem without {q : Frame → Bool} (wake : ∀ c f, q (f.wake c) = q f)
    (code : ∀ f, f.isWait = false → q f = false) (alike : ∀ {f f'}, f.Alike f' → q f' = q f)
    (coasts : s.Coasts h s') (free : s.weight (fun f => if q f then 1 else 0) = 0) :
    s'.weight (fun f => if q f then 1 else 0) = 0 := by
  have each : s'.Frames fun _ f => q f = false := by
    refine coasts.frames ⟨fun _ c f hf => (wake c f).trans hf, fun _ _ _ _ => code _ rfl⟩
      (fun _ => code _ rfl) (fun same hf => (alike same).trans hf) fun j th hth f hf => ?_
    simpa using weight_eq_zero.mp free th (List.mem_of_getElem? hth) f hf
  refine weight_eq_zero.mpr fun th hth f hf => ?_
  obtain ⟨j, hj⟩ := List.getElem?_of_mem hth
  simp [each j th hj f hf]

theorem unjoined (coasts : s.Coasts h s') (free : s.weight (joining t) = 0) :
    s'.weight (joining t) = 0 :=
  coasts.without (fun _ _ => by simp) (fun f hf => by cases f <;> first | rfl | cases hf)
    (fun same => same.joins t) free

theorem unsubmitted (coasts : s.Coasts h s') (free : s.weight (submitting t) = 0) :
    s'.weight (submitting t) = 0 :=
  coasts.without (fun _ _ => by simp) (fun f hf => by cases f <;> first | rfl | cases hf)
    (fun same => same.submits t) free

/-- A task that a pool owns, and that nobody joins, stays with the pool. -/
theorem owned (coasts : s.Coasts h s') (run : Run callers g s)
    (owned : s.standing t = some (true, .pool)) (free : s.weight (joining t) = 0) :
    s'.standing t = some (true, .pool) := by
  induction coasts with
  | refl => exact owned
  | step before _ ha hs ih =>
    exact (ebbs_of_step (before.run run).calls hs ha).owned ih (before.unjoined free)

/-- A task that its caller owns, and that nobody submits, stays with its caller. -/
theorem rests (coasts : s.Coasts h s') (run : Run callers g s)
    (rests : s.standing t = some (true, .caller)) (free : s.weight (submitting t) = 0) :
    s'.standing t = some (true, .caller) := by
  induction coasts with
  | refl => exact rests
  | step before _ ha hs ih =>
    exact (ebbs_of_step (before.run run).calls hs ha).rests ih (before.unsubmitted free)

theorem closed (coasts : s.Coasts h s') (run : Run callers g s) (hc : s.isClosed p) :
    s'.isClosed p :=
  coasts.keeps (P := fun s => s.isClosed p) run hc fun run hc _ _ hs => by
    obtain ⟨pool, hp, hclosed⟩ := (Option.any_eq_true _ _).mp hc
    obtain ⟨pool', hp', hc', -⟩ := (moves_of_step run.calls hs).closed hp hclosed
    exact (Option.any_eq_true _ _).mpr ⟨pool', hp', hc'⟩

/-- What user code may call stays so. -/
theorem admits {op : Operation} (coasts : s.Coasts h s') (run : Run callers g s)
    (admits : s.Admits op) : s'.Admits op := by
  have use {p : PoolId} (use : s.canUse p) : s'.canUse p :=
    coasts.keeps (P := fun s => s.canUse p) run use fun run use _ ha hs =>
      (ebbs_of_step run.calls hs ha).uses use
  have share {t : TaskId} (share : s.canShare t) : s'.canShare t := by
    obtain ⟨⟨o, ho⟩, free⟩ := canShare_iff.mp share
    obtain ⟨o', ho'⟩ := coasts.keeps (P := fun s => ∃ o, s.standing t = some (true, o)) run ⟨o, ho⟩
      fun run there _ ha hs => (ebbs_of_step run.calls hs ha).handle there.choose_spec
    exact canShare_iff.mpr ⟨⟨o', ho'⟩, coasts.unjoined free⟩
  have own {t : TaskId} (own : s.canOwn t) : s'.canOwn t :=
    have ⟨shared, free⟩ := canOwn_iff.mp own
    canOwn_iff.mpr ⟨share shared, coasts.unsubmitted free⟩
  cases op with
  | createPool _ | createTask _ => trivial
  | submit p t => exact ⟨use admits.1, share admits.2⟩
  | join t _ | detach t | destroy t | drop t => exact own admits
  | waitIdle p | shutdown p => exact use admits
  | dropPool p =>
    have drop : s.canDrop p := admits
    have unused : s'.Frames fun _ f => f.uses p = false :=
      coasts.frames ⟨fun _ c f hf => (Frame.wake_uses c).trans hf, fun _ _ _ _ => rfl⟩
        (fun _ => rfl) (fun same hf => (same.uses p).trans hf) (frames_of_canDrop drop)
    have used : s'.canUse p := use (Bool.and_eq_true _ _ ▸ drop).1
    simp only [Admits, canDrop, Bool.and_eq_true, List.all_eq_true]
    refine ⟨used, fun th hth f hf => ?_⟩
    obtain ⟨j, hj⟩ := List.getElem?_of_mem hth
    simp [unused j th hj f hf]

/-- Who is no worker stays in user code. -/
theorem code (coasts : s.Coasts h s') (run : Run callers g s) (outside : s.employer i = none)
    (hth : s.threads[i]? = some th) (user : th.inUserCode) :
    ∃ th', s'.threads[i]? = some th' ∧ th'.inUserCode := by
  induction coasts with
  | refl => exact ⟨th, hth, user⟩
  | @step h s₁ s₂ j a es before worker ha hs ih =>
    obtain ⟨th₁, hth₁, user₁⟩ := ih
    have other : i ≠ j := by
      rintro rfl
      rw [before.staff run, outside] at worker
      cases worker
    obtain ⟨th₂, hth₂, woken⟩ :=
      (moves_of_step (before.run run).calls hs).spares i th₁ other hth₁
    exact ⟨th₂, hth₂, woken.inUserCode.trans user₁⟩

end Coasts

end System

end WorkerPool
