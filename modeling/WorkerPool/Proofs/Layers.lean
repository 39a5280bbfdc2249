import WorkerPool.Proofs.Changes

/-!
Calls and user code by turns.

Letting go of things runs destructors, and a destructor may call the library again. So the frames of
a thread alternate: a destructor stands on what is being let go of, and every call on code of the
user.
-/
namespace WorkerPool

/-- Every destructor belongs to things that are let go of, and user code makes every call. -/
def Layered : List Frame → Prop
  | [] => True
  | .destructor :: calls =>
      (∃ todo failure releasing rest, calls = .disposing todo failure releasing :: rest) ∧
        Layered calls
  | _ :: calls => (∀ f ∈ calls.head?, f = .destructor) ∧ Layered calls

namespace Layered

variable {f f' : Frame} {rest : List Frame} {th : Thread} {todo : List Disposal}
  {failure : Option Payload} {releasing : Bool}

theorem tail (h : Layered (f :: rest)) : Layered rest := by
  cases f <;> exact h.2

theorem cons (hf : f ≠ .destructor) :
    Layered (f :: rest) ↔ (∀ g ∈ rest.head?, g = .destructor) ∧ Layered rest := by
  cases f <;> first | exact absurd rfl hf | exact Iff.rfl

theorem replace (h : Layered (f :: rest)) (hf : f ≠ .destructor) (hf' : f' ≠ .destructor) :
    Layered (f' :: rest) :=
  (cons hf').mpr ((cons hf).mp h)

theorem destroy (h : Layered (.disposing todo failure releasing :: rest)) :
    Layered (.destructor :: .disposing todo failure releasing :: rest) :=
  ⟨⟨todo, failure, releasing, rest, rfl⟩, h⟩

/-- User code may make a call. -/
theorem call (h : Layered th.calls) (hu : th.inUserCode) (hf : f ≠ .destructor) :
    Layered (f :: th.calls) := by
  refine (cons hf).mpr ⟨fun g hg => ?_, h⟩
  cases hc : th.calls with
  | nil => simp [hc] at hg
  | cons g' rest =>
    obtain rfl : g' = g := by simpa [hc] using hg
    cases g' <;> simp_all [Thread.inUserCode]

theorem wake (c : Condition) {calls : List Frame} (h : Layered calls) :
    Layered (calls.map (Frame.wake c)) := by
  induction calls with
  | nil => trivial
  | cons f rest ih =>
    by_cases hf : f = .destructor
    · subst hf
      obtain ⟨⟨todo, failure, releasing, outer, rfl⟩, hrest⟩ := h
      exact destroy (ih hrest)
    · have hw : f.wake c ≠ .destructor := by cases f <;> simp_all [Frame.wake]
      refine (cons hw).mpr ⟨fun g hg => ?_, ih (tail h)⟩
      obtain ⟨g', hg', rfl⟩ : ∃ g' ∈ rest.head?, g'.wake c = g := by
        simpa [List.head?_map] using hg
      rw [((cons hf).mp h).1 g' hg']
      rfl

end Layered

namespace System

variable {s s' : System} {i : ThreadId} {p : PoolId} {f f' : Frame} {rest : List Frame}
  {pool : Pool} {t : TaskId} {task : Task} {es : List Event} {g : Thread → Thread}
  {callers : Nat} {h : Trace}

/-- The frames of all threads alternate. -/
def AllLayered (s : System) : Prop := ∀ th ∈ s.threads, Layered th.calls

namespace AllLayered

theorem inside (layered : s.AllLayered) {calls : List Frame} (hi : s.Inside i calls) :
    Layered calls := by
  obtain ⟨th, hth, rfl⟩ := hi
  exact layered th (List.mem_of_getElem? hth)

theorem onThread (layered : s.AllLayered)
    (hg : ∀ th, s.threads[i]? = some th → Layered th.calls → Layered (g th).calls) :
    (s.onThread i g).AllLayered := by
  intro th hth
  obtain ⟨j, hj⟩ := List.getElem?_of_mem hth
  rw [getElem?_onThread] at hj
  split at hj
  · next hij =>
    subst hij
    obtain ⟨old, hold, rfl⟩ := Option.map_eq_some_iff.mp hj
    exact hg old hold (layered old (List.mem_of_getElem? hold))
  · exact layered th (List.mem_of_getElem? hj)

/-- Whatever becomes of the thread but for its calls. -/
theorem same (layered : s.AllLayered) (hg : ∀ th, (g th).calls = th.calls) :
    (s.onThread i g).AllLayered :=
  layered.onThread fun th _ h => by rwa [hg]

theorem push (layered : s.AllLayered) {calls : List Frame} (hi : s.Inside i calls)
    (hf : Layered (f :: calls)) : (s.onThread i (·.push f)).AllLayered := by
  obtain ⟨th, hth, rfl⟩ := hi
  refine layered.onThread fun th' hth' _ => ?_
  obtain rfl : th = th' := Option.some.inj (hth.symm.trans hth')
  exact hf

theorem pop (layered : s.AllLayered) (hi : s.Inside i (f :: rest)) :
    (s.onThread i Thread.pop).AllLayered := by
  obtain ⟨th, hth, hc⟩ := hi
  refine layered.onThread fun th' hth' h => ?_
  obtain rfl : th = th' := Option.some.inj (hth.symm.trans hth')
  rw [hc] at h
  rw [Thread.calls_pop, hc]
  exact h.tail

theorem enter (layered : s.AllLayered) (hi : s.Inside i (f :: rest)) (hf : f ≠ .destructor)
    (hf' : f' ≠ .destructor) : (s.enter i f').AllLayered := by
  obtain ⟨th, hth, hc⟩ := hi
  refine layered.onThread fun th' hth' h => ?_
  obtain rfl : th = th' := Option.some.inj (hth.symm.trans hth')
  rw [hc] at h
  rw [Thread.calls_replace, hc]
  exact h.replace hf hf'

theorem wakeAll (layered : s.AllLayered) (c : Condition) : (s.wakeAll c).AllLayered := by
  intro th hth
  obtain ⟨old, hold, rfl⟩ := List.mem_map.mp hth
  exact (layered old hold).wake c

theorem wakeOne (layered : s.AllLayered) (pick : Pick) : (s.wakeOne p pick).AllLayered := by
  obtain ⟨j, hj⟩ := wakeOne_eq s p pick
  rw [hj]
  exact layered.onThread fun _ _ h => h.wake _

theorem settled (layered : s.AllLayered) : (s.settled i p pool).AllLayered := by
  have parked : ((s.setPool p pool).onThread i (·.setPhase (.parked true))).AllLayered :=
    same (s := s.setPool p pool) layered fun _ => Thread.calls_setPhase
  unfold System.settled
  split
  · exact parked.wakeAll _
  · exact parked

theorem published (layered : s.AllLayered) : (s.published i p pool t task).AllLayered := by
  unfold System.published
  split
  · exact layered
  · exact wakeAll (s := (s.setPool p (pool.retire i)).setSlot t task.slot.complete) layered _

theorem move (layered : s.AllLayered) (m : Move i s es s') : s'.AllLayered := by
  cases m with
  | @call th hth hu =>
    have before := layered th (List.mem_of_getElem? hth)
    exact layered.push ⟨th, hth, rfl⟩ (Layered.call before hu (by simp))
  | leave hi _ _ => exact layered.pop hi
  | @wait f f' rest hi hf due =>
    exact layered.enter hi (fun h => by simp [h, Frame.isBare] at hf)
      (fun h => by simp [h, Due] at due)
  | note _ => exact layered
  | addPool _ => exact layered
  | addTask _ => exact layered
  | hire _ _ _ =>
    intro th hth
    rcases List.mem_append.mp hth with hth | hth
    · exact layered th hth
    · rw [List.mem_singleton.mp hth]
      trivial
  | @accept p pool t task pick _ _ _ _ _ _ =>
    exact wakeOne (s := (s.setSlot t task.slot.claim).setPool p (pool.accept t)) layered pick
  | @take _ _ t task hi _ _ _ _ _ => exact pop (s := s.setSlot t task.slot.release) layered hi
  | letGo hi hf _ _ _ =>
    exact enter (s := s) layered hi (fun h => by simp [h, Frame.isBare] at hf) (by simp)
  | discard hi _ => exact layered.enter hi (by simp) (by simp)
  | @destroy d r todo failure releasing rest hi _ =>
    have entered : (s.enter i (.disposing todo failure releasing)).AllLayered :=
      layered.enter hi (by simp) (by simp)
    exact entered.push hi.enter (Layered.destroy (entered.inside hi.enter))
  | release hi _ _ => exact layered.enter hi (by simp) (by simp)
  | abandon hi _ _ _ => exact enter (s := s) layered hi (by simp) (by simp)
  | unref hi _ => exact layered.enter hi (by simp) (by simp)
  | clear hi _ _ => exact enter (s := s) layered hi (by simp) (by simp)
  | resume hi => exact (layered.pop hi).enter hi.pop (by simp) (by simp)
  | close _ _ => exact layered
  | @stop p pool k _ _ => exact wakeAll (s := s.setPool p (pool.requestExit k)) layered _
  | dismiss _ _ _ => exact layered
  | dropPool _ _ => exact layered
  | register _ _ hg => exact ((layered.same fun th => (hg th).2).wakeAll _).settled
  | released _ _ => exact layered.settled
  | exit _ _ _ hg => exact layered.same fun th => (hg th).2
  | claim _ _ _ _ => exact same (s := s) layered fun _ => Thread.calls_setPhase
  | park _ _ _ _ => exact layered.same fun _ => Thread.calls_setPhase
  | begin _ _ _ hg => exact same (s := s) layered fun th => (hg th).2
  | beginEmpty _ _ _ hg => exact same (s := s) layered fun th => (hg th).2
  | endWork _ _ _ hg => exact layered.same fun th => (hg th).2
  | stash _ _ => exact same (s := s) layered fun _ => Thread.calls_setPhase
  | count _ _ hg => exact same (s := s) layered fun th => (hg th).2
  | @retire p pool k t task hw _ _ =>
    have hw' : (s.published i p pool t task).Working i p k (.counted t) := hw.published rfl
    obtain ⟨th, hth, -, hc⟩ := hw'
    refine layered.published.onThread fun th' hth' _ => ?_
    obtain rfl : th = th' := Option.some.inj (hth.symm.trans hth')
    have free : (th.setPhase .releasing).calls = [] := Thread.calls_setPhase.trans hc
    rw [Thread.calls_push, free]
    exact (Layered.cons (by simp)).mpr ⟨by simp, trivial⟩

end AllLayered

theorem Run.layered (run : Run callers h s) : s.AllLayered :=
  run.keeps (P := fun _ s => s.AllLayered)
    (fun th hth => by rw [List.eq_of_mem_replicate hth]; trivial) fun _ layered m => layered.move m

/-- A call that a caller has made goes back to user code. -/
theorem AllLayered.code_below {th : Thread} (layered : s.AllLayered) (hth : s.threads[i]? = some th)
    (hr : th.role = .caller) (hc : th.calls = f :: rest) (hf : f ≠ .destructor) :
    th.pop.inUserCode := by
  have below := ((Layered.cons hf).mp (hc ▸ layered th (List.mem_of_getElem? hth))).1
  cases rest with
  | nil => simp [Thread.inUserCode, hc, hr]
  | cons g outer =>
    obtain rfl := below g rfl
    simp [Thread.inUserCode, hc]

/-- A destructor can always come to its end. -/
theorem AllLayered.finishes (layered : s.AllLayered) (hi : s.Inside i (.destructor :: rest))
    (ending : Except Payload Value) : (s.step i (.finish ending)).isSome := by
  obtain ⟨⟨todo, failure, releasing, outer, rfl⟩, -⟩ := layered.inside hi
  obtain ⟨th, hth, hc⟩ := hi
  simp [step, hth, finish?, hc]

end System

end WorkerPool
