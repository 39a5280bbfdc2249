import WorkerPool.Proofs.Changes

/-!
What a worker is inside of.

A worker is inside calls only while it executes a task or lets go of one. What it lets go of in its
loop is there from the completion of its task on until it looks for the next one.
-/
namespace WorkerPool

/-- The work of a task runs in this phase, or destructors may. -/
def Phase.hosts : Phase → Bool
  | running _ | releasing => true
  | _ => false

/-- The frame is what a worker lets go of in its loop. -/
def Frame.isRetired : Frame → Bool
  | disposing _ _ releasing => releasing
  | _ => false

/-- The calls of the thread fit its role. -/
structure Thread.Seated (th : Thread) : Prop where
  free : ∀ p k phase, th.role = .worker p k phase → phase.hosts = false → th.calls = []
  retired : ∀ f ∈ th.calls, f.isRetired → ∃ p k, th.role = .worker p k .releasing

namespace Thread

variable {th : Thread} {f : Frame} {phase : Phase} {g : Thread → Thread}

theorem seated_empty (h : th.calls = []) : th.Seated :=
  ⟨fun _ _ _ _ _ => h, fun f hf => by simp [h] at hf⟩

theorem Seated.pop (seated : th.Seated) : th.pop.Seated :=
  ⟨fun p k phase hr hh => by simp [seated.free p k phase hr hh],
    fun f hf => seated.retired f (List.mem_of_mem_tail hf)⟩

/-- A thread inside a call goes on inside another one. -/
theorem Seated.replace {rest : List Frame} (seated : th.Seated) (hc : th.calls = f :: rest)
    {f' : Frame} (hf : f'.isRetired → f.isRetired) : (th.replace f').Seated := by
  refine ⟨fun p k phase hr hh => ?_, fun f'' hf'' hret => ?_⟩
  · have := seated.free p k phase hr hh
    simp [hc] at this
  · rcases List.mem_cons.mp hf'' with rfl | hf''
    · exact seated.retired f (by simp [hc]) (hf hret)
    · exact seated.retired f'' (List.mem_of_mem_tail hf'') hret

theorem Seated.push (seated : th.Seated) (hf : f.isRetired = false)
    (hh : ∀ p k phase, th.role = .worker p k phase → phase.hosts) : (th.push f).Seated := by
  refine ⟨fun p k phase hr hidle => ?_, fun f' hf' hret => ?_⟩
  · simp [hh p k phase hr] at hidle
  · rcases List.mem_cons.mp hf' with rfl | hf'
    · simp [hf] at hret
    · exact seated.retired f' hf' hret

theorem Seated.wake (seated : th.Seated) (c : Condition) : (th.wake c).Seated := by
  obtain ⟨free, retired⟩ := seated
  refine ⟨fun p k phase hr hh => ?_, fun f hf hret => ?_⟩
  · rw [role_wake] at hr
    cases hrole : th.role with
    | caller => simp [hrole, Role.wake] at hr
    | worker q k' old =>
      have hold : old.hosts = false := by
        simp only [hrole, Role.wake, Role.worker.injEq] at hr
        obtain ⟨-, -, rfl⟩ := hr
        cases old <;> simp_all [Phase.wake, Phase.hosts]
      simp [free q k' old hrole hold]
  · obtain ⟨f', hf', rfl⟩ := List.mem_map.mp hf
    obtain ⟨p, k, hr⟩ := retired f' hf' (by cases f' <;> exact hret)
    exact ⟨p, k, by rw [role_wake, hr]; rfl⟩

/-- User code runs where it may. -/
theorem hosts_of_inUserCode (seated : th.Seated) (hu : th.inUserCode) :
    ∀ p k phase, th.role = .worker p k phase → phase.hosts := by
  intro p k phase hr
  by_contra hh
  have hc := seated.free p k phase hr (by simpa using hh)
  cases phase <;> simp_all [inUserCode, Phase.hosts]

end Thread

namespace System

variable {s s' : System} {i : ThreadId} {p : PoolId} {f : Frame} {rest : List Frame} {pool : Pool}
  {t : TaskId} {task : Task} {es : List Event} {g : Thread → Thread} {k : Nat} {phase : Phase}

/-- The calls of all threads fit their roles. -/
def Seated (s : System) : Prop := ∀ th ∈ s.threads, th.Seated

namespace Seated

theorem onThread (seated : s.Seated)
    (hg : ∀ th, s.threads[i]? = some th → th.Seated → (g th).Seated) :
    (s.onThread i g).Seated := by
  intro th hth
  obtain ⟨j, hj⟩ := List.getElem?_of_mem hth
  rw [getElem?_onThread] at hj
  split at hj
  · next hij =>
    subst hij
    obtain ⟨old, hold, rfl⟩ := Option.map_eq_some_iff.mp hj
    exact hg old hold (seated old (List.mem_of_getElem? hold))
  · exact seated th (List.mem_of_getElem? hj)

theorem pop (seated : s.Seated) : (s.onThread i Thread.pop).Seated :=
  seated.onThread fun _ _ h => h.pop

theorem enter {f' : Frame} (seated : s.Seated) (hi : s.Inside i (f :: rest))
    (hf : f'.isRetired → f.isRetired) : (s.enter i f').Seated := by
  obtain ⟨th, hth, hc⟩ := hi
  refine seated.onThread fun th' hth' h => ?_
  obtain rfl : th = th' := Option.some.inj (hth.symm.trans hth')
  exact h.replace hc hf

/-- A worker that is inside no call may be in any phase. -/
theorem work (seated : s.Seated) (hw : s.Working i p k phase)
    (hg : ∀ th, (g th).calls = th.calls) : (s.onThread i g).Seated := by
  obtain ⟨th, hth, -, hc⟩ := hw
  refine seated.onThread fun th' hth' _ => ?_
  obtain rfl : th = th' := Option.some.inj (hth.symm.trans hth')
  exact Thread.seated_empty ((hg th).trans hc)

theorem wakeAll (seated : s.Seated) (c : Condition) : (s.wakeAll c).Seated := by
  intro th hth
  obtain ⟨old, hold, rfl⟩ := List.mem_map.mp hth
  exact (seated old hold).wake c

theorem wakeOne (seated : s.Seated) (pick : Pick) : (s.wakeOne p pick).Seated := by
  obtain ⟨j, hj⟩ := wakeOne_eq s p pick
  rw [hj]
  exact seated.onThread fun _ _ h => h.wake _

theorem settled (seated : s.Seated) (hw : s.Working i p k phase) :
    (s.settled i p pool).Seated := by
  have hw' : (s.setPool p pool).Working i p k phase := hw
  have parked : ((s.setPool p pool).onThread i (·.setPhase (.parked true))).Seated :=
    work (s := s.setPool p pool) seated hw' fun _ => Thread.calls_setPhase
  unfold System.settled
  split
  · exact parked.wakeAll _
  · exact parked

theorem published (seated : s.Seated) : (s.published i p pool t task).Seated := by
  unfold System.published
  split
  · exact seated
  · exact wakeAll (s := (s.setPool p (pool.retire i)).setSlot t task.slot.complete) seated _

theorem move (seated : s.Seated) (m : Move i s es s') : s'.Seated := by
  cases m with
  | @call th hth hu =>
    refine seated.onThread fun th' hth' h => ?_
    obtain rfl : th = th' := Option.some.inj (hth.symm.trans hth')
    exact h.push rfl (Thread.hosts_of_inUserCode h hu)
  | leave _ _ _ => exact seated.pop
  | @wait f f' rest hi _ due =>
    refine seated.enter hi fun hret => ?_
    cases f' with
    | disposing todo failure releasing => exact due.elim
    | _ => cases hret
  | note _ => exact seated
  | addPool _ => exact seated
  | addTask _ => exact seated
  | hire _ _ _ =>
    intro th hth
    rcases List.mem_append.mp hth with hth | hth
    · exact seated th hth
    · rw [List.mem_singleton.mp hth]
      exact Thread.seated_empty rfl
  | @accept p pool t task pick _ _ _ _ _ _ =>
    exact wakeOne (s := (s.setSlot t task.slot.claim).setPool p (pool.accept t)) seated pick
  | @take _ _ t task _ _ _ _ _ _ => exact pop (s := s.setSlot t task.slot.release) seated
  | letGo hi _ _ _ _ => exact enter (s := s) seated hi nofun
  | discard hi _ => exact seated.enter hi id
  | @destroy d r todo failure releasing rest hi _ =>
    have entered : (s.enter i (.disposing todo failure releasing)).Seated := seated.enter hi id
    obtain ⟨th, hth, hc⟩ : (s.enter i (.disposing todo failure releasing)).Inside i _ := hi.enter
    refine entered.onThread fun th' hth' h => ?_
    obtain rfl : th = th' := Option.some.inj (hth.symm.trans hth')
    refine h.push rfl fun p k phase hr => ?_
    by_contra hh
    have := h.free p k phase hr (by simpa using hh)
    simp [hc] at this
  | release hi _ _ => exact seated.enter hi id
  | abandon hi _ _ _ => exact enter (s := s) seated hi id
  | unref hi _ => exact seated.enter hi id
  | clear hi _ _ => exact enter (s := s) seated hi id
  | resume hi => exact seated.pop.enter hi.pop id
  | close _ _ => exact seated
  | @stop p pool k _ _ => exact wakeAll (s := s.setPool p (pool.requestExit k)) seated _
  | dismiss _ _ _ => exact seated
  | dropPool _ _ => exact seated
  | @register p pool k g hw _ hg =>
    exact ((seated.work hw fun th => (hg th).2).wakeAll _).settled
      ((hw.stay hg).wakeAll (.workerRegistered p))
  | released hw _ => exact seated.settled hw
  | exit hw _ _ hg => exact seated.work hw fun th => (hg th).2
  | @claim p pool pool' k t hw _ _ _ =>
    have hw' : (s.setPool p pool').Working i p k (.parked true) := hw
    exact work (s := s.setPool p pool') seated hw' fun _ => Thread.calls_setPhase
  | park hw _ _ _ => exact seated.work hw fun _ => Thread.calls_setPhase
  | begin hw _ _ hg => exact work (s := s) seated hw fun th => (hg th).2
  | beginEmpty hw _ _ hg => exact work (s := s) seated hw fun th => (hg th).2
  | endWork hw _ _ hg => exact seated.work hw fun th => (hg th).2
  | stash hw _ => exact work (s := s) seated hw fun _ => Thread.calls_setPhase
  | count hw _ hg => exact work (s := s) seated hw fun th => (hg th).2
  | @retire p pool k t task hw _ _ =>
    have hw' : (s.published i p pool t task).Working i p k (.counted t) := hw.published rfl
    obtain ⟨th, hth, hr, hc⟩ := hw'
    refine seated.published.onThread fun th' hth' _ => ?_
    obtain rfl : th = th' := Option.some.inj (hth.symm.trans hth')
    have hrole : (th.setPhase .releasing).role = .worker p k .releasing := Thread.role_setPhase hr
    refine ⟨fun q k' phase hq hh => ?_, fun f _ _ => ⟨p, k, hrole⟩⟩
    rw [Thread.role_push, hrole] at hq
    cases hq
    cases hh

end Seated

theorem Run.seated {callers : Nat} {h : Trace} (run : Run callers h s) : s.Seated :=
  run.keeps (P := fun _ s => s.Seated)
    (fun th hth => Thread.seated_empty (by rw [List.eq_of_mem_replicate hth]))
    fun _ seated m => seated.move m

end System

end WorkerPool
