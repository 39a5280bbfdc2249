import WorkerPool.Proofs.Others
import WorkerPool.Proofs.PoolChanges

/-!
Workers that have not registered.

Such a worker is inside no call. Since workers are the only threads that appear in a run, a thread
inside a call was there before the steps of the others, and they have at most woken it.
-/
namespace WorkerPool

/-- Whether the thread is a worker that has not registered. -/
def Thread.isNew (th : Thread) : Bool :=
  match th.role with
  | .worker _ _ .starting => true
  | _ => false

namespace Thread

variable {th : Thread} {phase : Phase} {g : Thread → Thread}

theorem isNew_congr {th' : Thread} (h : th'.role = th.role) : th'.isNew = th.isNew := by
  simp [isNew, h]

theorem isNew_wake (c : Condition) : (th.wake c).isNew = th.isNew := by
  simp only [isNew, role_wake]
  cases th.role with
  | caller => rfl
  | worker p k phase => cases phase <;> rfl

theorem isNew_setPhase (h : phase ≠ .starting) : (th.setPhase phase).isNew = false := by
  cases hr : th.role with
  | caller => simp [isNew, setPhase, hr]
  | worker p k old => cases phase <;> simp_all [isNew, setPhase]

theorem Rephases.isNew (hg : Rephases phase g) (h : phase ≠ .starting) : (g th).isNew = false :=
  (isNew_congr (hg th).1).trans (isNew_setPhase h)

theorem isNew_of_post {p : PoolId} {k : Nat} (h : th.post = some ⟨p, k, .starting⟩) :
    th.isNew := by
  unfold Thread.post at h
  cases hr : th.role with
  | caller => simp [hr] at h
  | worker q k' phase => cases phase <;> simp_all [Phase.station, isNew]

end Thread

namespace System

variable {s s' : System} {i j : ThreadId} {p : PoolId} {es : List Event} {th th' : Thread}
  {f : Frame} {rest : List Frame} {pool : Pool} {t : TaskId} {task : Task} {g : Thread → Thread}
  {h : Trace} {callers : Nat}

/-- Workers that have not registered are inside no call. -/
def Unentered (s : System) : Prop := ∀ th ∈ s.threads, th.isNew → th.calls = []

namespace Unentered

theorem onThread (un : s.Unentered) (hg : ∀ th, s.threads[i]? = some th →
      (th.isNew → th.calls = []) → (g th).isNew → (g th).calls = []) :
    (s.onThread i g).Unentered := by
  intro th hth
  obtain ⟨j, hj⟩ := List.getElem?_of_mem hth
  rw [getElem?_onThread] at hj
  split at hj
  · next hij =>
    subst hij
    obtain ⟨old, hold, rfl⟩ := Option.map_eq_some_iff.mp hj
    exact hg old hold (un old (List.mem_of_getElem? hold))
  · exact un th (List.mem_of_getElem? hj)

/-- A thread inside a call is no new worker, whatever it enters. -/
theorem inside (un : s.Unentered) (hi : s.Inside i (f :: rest))
    (hg : ∀ th, (g th).role = th.role) : (s.onThread i g).Unentered := by
  obtain ⟨old, hold, hc⟩ := hi
  refine un.onThread fun th hth h hnew => ?_
  obtain rfl : old = th := Option.some.inj (hold.symm.trans hth)
  simp [h (Thread.isNew_congr (hg old) ▸ hnew)] at hc

theorem pop (un : s.Unentered) : (s.onThread i Thread.pop).Unentered :=
  un.onThread fun _ _ h hnew => by simp [h hnew]

theorem rephase {phase : Phase} (un : s.Unentered) (hg : Thread.Rephases phase g)
    (h : phase ≠ .starting) : (s.onThread i g).Unentered :=
  un.onThread fun th _ _ hnew => by simp [hg.isNew h] at hnew

theorem wakeAll (un : s.Unentered) (c : Condition) : (s.wakeAll c).Unentered := by
  intro th hth hnew
  obtain ⟨old, hold, rfl⟩ := List.mem_map.mp hth
  simp [un old hold (Thread.isNew_wake c ▸ hnew)]

theorem wakeOne (un : s.Unentered) (pick : Pick) : (s.wakeOne p pick).Unentered := by
  obtain ⟨k, hk⟩ := wakeOne_eq s p pick
  rw [hk]
  exact un.onThread fun th _ h hnew => by simp [h (Thread.isNew_wake _ ▸ hnew)]

theorem spawn (un : s.Unentered) (hc : th.calls = []) : (s.spawn th).Unentered := by
  intro new hnew _
  rcases List.mem_append.mp hnew with hnew' | hnew'
  · exact un new hnew' ‹_›
  · rw [List.mem_singleton.mp hnew', hc]

theorem settled (un : s.Unentered) : (s.settled i p pool).Unentered := by
  have h : ((s.setPool p pool).onThread i (·.setPhase (.parked true))).Unentered :=
    rephase (s := s.setPool p pool) un Thread.rephases_setPhase (by simp)
  unfold System.settled
  split
  · exact h.wakeAll _
  · exact h

theorem published (un : s.Unentered) : (s.published i p pool t task).Unentered := by
  unfold System.published
  split
  · exact un
  · exact wakeAll (s := (s.setPool p (pool.retire i)).setSlot t task.slot.complete) un _

theorem move (un : s.Unentered) (m : Move i s es s') : s'.Unentered := by
  cases m with
  | @call th hth hu =>
    refine un.onThread fun th' hth' h hnew => ?_
    obtain rfl : th = th' := Option.some.inj (hth.symm.trans hth')
    have hr : th.isNew := hnew
    cases hrole : th.role with
    | caller => simp [Thread.isNew, hrole] at hr
    | worker p k phase => cases phase <;> simp_all [Thread.isNew, Thread.inUserCode]
  | leave _ _ _ => exact un.pop
  | wait hi _ _ => exact un.inside hi fun _ => rfl
  | note _ => exact un
  | addPool _ => exact un
  | addTask _ => exact un
  | hire _ _ _ => exact un.spawn rfl
  | @accept p pool t task pick _ _ _ _ _ _ =>
    exact wakeOne (s := (s.setSlot t task.slot.claim).setPool p (pool.accept t)) un pick
  | @take _ _ t task _ _ _ _ _ _ => exact pop (s := s.setSlot t task.slot.release) un
  | letGo hi _ _ _ _ => exact inside (s := s) un hi fun _ => rfl
  | discard hi _ => exact un.inside hi fun _ => rfl
  | @destroy d r todo failure releasing rest hi _ =>
    have entered : (s.enter i (.disposing todo failure releasing)).Unentered :=
      un.inside hi fun _ => rfl
    exact entered.inside hi.enter fun _ => rfl
  | release hi _ _ => exact un.inside hi fun _ => rfl
  | abandon hi _ _ _ => exact inside (s := s) un hi fun _ => rfl
  | unref hi _ => exact un.inside hi fun _ => rfl
  | clear hi _ _ => exact inside (s := s) un hi fun _ => rfl
  | resume hi => exact un.pop.inside hi.pop fun _ => rfl
  | close _ _ => exact un
  | @stop p pool k _ _ => exact wakeAll (s := s.setPool p (pool.requestExit k)) un _
  | dismiss _ _ _ => exact un
  | dropPool _ _ => exact un
  | register hw _ hg =>
    have same : (s.onThread i _).Unentered :=
      un.onThread fun th _ h hnew => by
        rw [(hg th).2, h (Thread.isNew_congr (hg th).1 ▸ hnew)]
    exact (same.wakeAll _).settled
  | released _ _ => exact un.settled
  | exit _ _ _ hg => exact un.rephase hg (by simp)
  | @claim p pool pool' k t _ _ _ _ =>
    exact rephase (s := s.setPool p pool') un Thread.rephases_setPhase (by simp)
  | park _ _ _ _ => exact un.rephase Thread.rephases_setPhase (by simp)
  | begin _ _ _ hg => exact rephase (s := s) un hg (by simp)
  | beginEmpty _ _ _ hg => exact rephase (s := s) un hg (by simp)
  | endWork _ _ _ hg => exact un.rephase hg (by simp)
  | stash _ _ => exact rephase (s := s) un Thread.rephases_setPhase (by simp)
  | count _ _ hg => exact rephase (s := s) un hg (by simp)
  | @retire p pool k t task _ _ _ =>
    have told : (s.published i p pool t task).Unentered := un.published
    refine told.onThread fun th _ _ hnew => ?_
    have hnew : (th.setPhase .releasing).isNew := hnew
    simp [Thread.isNew_setPhase] at hnew

end Unentered

theorem Run.unentered (run : Run callers h s) : s.Unentered :=
  run.keeps (P := fun _ s => s.Unentered)
    (fun th hth _ => by rw [List.eq_of_mem_replicate hth])
    fun _ un m => un.move m

/-! ### Threads that were there before -/

/-- A thread that is new after a move is inside no call. -/
theorem Move.fresh (m : Move i s es s') (un : s'.Unentered) (hj : s.threads[j]? = none)
    (hth : s'.threads[j]? = some th') : th'.calls = [] := by
  have hlen (h : s'.posts.length = s.posts.length) : False := by
    have hlt := (List.getElem?_eq_some_iff.mp hth).1
    have hle := List.getElem?_eq_none_iff.mp hj
    simp only [posts, List.length_map] at h
    omega
  have hpost : s'.posts[j]? = some th'.post := by simp [posts, hth]
  have change := m.post_change
  generalize s'.posts = posts' at change hpost hlen
  cases change with
  | same => exact (hlen rfl).elim
  | hire _ _ =>
    rcases getElem?_concat.mp hpost with hpost | ⟨-, hpost⟩
    · simp [posts, hj] at hpost
    · exact un th' (List.mem_of_getElem? hth) (Thread.isNew_of_post hpost)
  | work _ _ _ _ _ => exact (hlen (by simp)).elim

/-- A thread inside a call has at most been woken by the steps of another one. -/
theorem Moves.before (ms : Moves i s es s') (un : s.Unentered) (hj : j ≠ i)
    (hth : s'.threads[j]? = some th') (hc : th'.calls ≠ []) :
    ∃ th, s.threads[j]? = some th ∧ th.Woken th' := by
  induction ms with
  | nil => exact ⟨th', hth, .refl⟩
  | @cons s s₁ _ _ _ m _ ih =>
    obtain ⟨th₁, hth₁, w⟩ := ih (un.move m) hth
    have hc₁ : th₁.calls ≠ [] := fun h => hc (by simpa [h] using w.asleep)
    cases hold : s.threads[j]? with
    | none => exact absurd (m.fresh (un.move m) hold hth₁) hc₁
    | some th =>
      obtain ⟨th₂, hth₂, w'⟩ := m.spares j th hj hold
      obtain rfl : th₁ = th₂ := Option.some.inj (hth₁.symm.trans hth₂)
      exact ⟨th, rfl, w'.trans w⟩

/-- A call that has got no wake-up goes on through the steps of others. -/
theorem Moves.inside_before (ms : Moves i s es s') (un : s.Unentered) (hj : j ≠ i)
    (hi : s'.Inside j (f :: rest)) (hf : f.asleep = f) : ∃ rest', s.Inside j (f :: rest') := by
  obtain ⟨th', hth', hc⟩ := hi
  obtain ⟨th, hth, w⟩ := ms.before un hj hth' (by simp [hc])
  obtain ⟨rest', hc'⟩ := w.of_asleep hc hf
  exact ⟨rest', th, hth, hc'⟩

end System

end WorkerPool
