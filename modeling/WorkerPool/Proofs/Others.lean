import WorkerPool.Proofs.Steps

/-!
What a move leaves of the other threads.

A move changes its own thread, may add one, and delivers wake-ups. Everybody else stays where they
are, in the same calls, and at most gets a wake-up.
-/
namespace WorkerPool

/-- The second state of a thread is the first one with some wake-ups delivered. -/
inductive Thread.Woken (th : Thread) : Thread → Prop
  | refl : Woken th th
  | wake {th' : Thread} (c : Condition) : Woken th th' → Woken th (th'.wake c)

/-- The frame before any wake-up was delivered. -/
def Frame.asleep : Frame → Frame
  | awaitingWorker p t _ => awaitingWorker p t false
  | awaitingOutcome t bound _ => awaitingOutcome t bound false
  | awaitingIdle p dropping _ => awaitingIdle p dropping false
  | awaitingReleases p dropping _ => awaitingReleases p dropping false
  | frame => frame

theorem Frame.asleep_wake (c : Condition) (f : Frame) : (f.wake c).asleep = f.asleep := by
  cases f <;> rfl

theorem Frame.wake_of_asleep {c : Condition} {f : Frame} (h : (f.wake c).asleep = f.wake c) :
    f.wake c = f := by
  cases f <;> simp_all [Frame.wake, Frame.asleep]

namespace Thread.Woken

variable {th th' th'' : Thread} {f : Frame} {rest : List Frame} {p : PoolId}

theorem trans (w : th.Woken th') (w' : th'.Woken th'') : th.Woken th'' := by
  induction w' with
  | refl => exact w
  | wake c _ ih => exact ih.wake c

theorem asleep (w : th.Woken th') : th'.calls.map Frame.asleep = th.calls.map Frame.asleep := by
  induction w with
  | refl => rfl
  | wake c _ ih => simpa [Function.comp_def, Frame.asleep_wake] using ih

/-- The innermost call is the same, up to wake-ups. -/
theorem head (w : th.Woken th') (hc : th.calls = f :: rest) :
    ∃ f' rest', th'.calls = f' :: rest' ∧ f'.asleep = f.asleep := by
  have h := w.asleep
  rw [hc] at h
  obtain ⟨f', rest', hc', hf, -⟩ := List.map_eq_cons_iff.mp h
  exact ⟨f', rest', hc', hf⟩

/-- A call that has got no wake-up was there before. -/
theorem of_asleep (w : th.Woken th') (hc : th'.calls = f :: rest) (hf : f.asleep = f) :
    ∃ rest', th.calls = f :: rest' := by
  induction w generalizing rest with
  | refl => exact ⟨rest, hc⟩
  | wake c _ ih =>
    rw [Thread.calls_wake] at hc
    obtain ⟨f', rest', hc', rfl, -⟩ := List.map_eq_cons_iff.mp hc
    rw [Frame.wake_of_asleep hf] at ih ⊢
    exact ih hc'

end Thread.Woken

namespace System

variable {s s' : System} {i j : ThreadId} {p : PoolId} {es : List Event} {th : Thread}
  {f : Frame} {rest : List Frame} {pool : Pool} {t : TaskId} {task : Task} {g : Thread → Thread}

/-- The threads of the first state are in the second one, with wake-ups delivered, but for one. -/
def Spares (s s' : System) (i : ThreadId) : Prop :=
  ∀ j th, j ≠ i → s.threads[j]? = some th → ∃ th', s'.threads[j]? = some th' ∧ th.Woken th'

namespace Spares

variable {s'' : System}

theorem of_threads (h : s'.threads = s.threads) : Spares s s' i :=
  fun _ th _ hth => ⟨th, by rw [h, hth], .refl⟩

theorem onThread (h : Spares s s' i) : Spares s (s'.onThread i g) i := by
  intro j th hj hth
  obtain ⟨th', hth', w⟩ := h j th hj hth
  exact ⟨th', by rw [getElem?_onThread, if_neg hj.symm, hth'], w⟩

theorem wakeAll (h : Spares s s' i) (c : Condition) : Spares s (s'.wakeAll c) i := by
  intro j th hj hth
  obtain ⟨th', hth', w⟩ := h j th hj hth
  exact ⟨th'.wake c, by rw [getElem?_wakeAll, hth', Option.map_some], w.wake c⟩

theorem wakeOne (h : Spares s s' i) (pick : Pick) : Spares s (s'.wakeOne p pick) i := by
  intro j th hj hth
  obtain ⟨th', hth', w⟩ := h j th hj hth
  obtain ⟨k, hk⟩ := wakeOne_eq s' p pick
  rw [hk, getElem?_onThread, hth']
  split
  · exact ⟨_, rfl, w.wake _⟩
  · exact ⟨th', rfl, w⟩

theorem spawn (h : Spares s s' i) (new : Thread) : Spares s (s'.spawn new) i := by
  intro j th hj hth
  obtain ⟨th', hth', w⟩ := h j th hj hth
  have hlt := (List.getElem?_eq_some_iff.mp hth').1
  exact ⟨th', (List.getElem?_append_left hlt).trans hth', w⟩

/-- Pools and tasks are not threads. -/
theorem congr (h : Spares s s' i) (hs : s''.threads = s'.threads) : Spares s s'' i := by
  intro j th hj hth
  obtain ⟨th', hth', w⟩ := h j th hj hth
  exact ⟨th', by rw [hs, hth'], w⟩

theorem settled (h : Spares s s' i) (pool : Pool) : Spares s (s'.settled i p pool) i := by
  have h' : Spares s ((s'.setPool p pool).onThread i (·.setPhase (.parked true))) i :=
    (h.congr rfl).onThread
  unfold System.settled
  split
  · exact h'.wakeAll _
  · exact h'

theorem published (pool : Pool) : Spares s (s.published i p pool t task) i := by
  have told : Spares s ((s.setPool p (pool.retire i)).setSlot t task.slot.complete) i :=
    of_threads rfl
  unfold System.published
  split
  · exact told
  · exact told.wakeAll _

end Spares

theorem Move.spares (m : Move i s es s') : Spares s s' i := by
  have self : Spares s s i := .of_threads rfl
  cases m with
  | call _ _ => exact self.onThread
  | leave _ _ _ => exact self.onThread
  | wait _ _ _ => exact self.onThread
  | note _ => exact self
  | addPool _ => exact .of_threads rfl
  | addTask captured => exact .of_threads rfl
  | hire _ _ _ => exact (self.spawn _).congr rfl
  | @accept p pool t task pick _ _ _ _ _ _ =>
    have told : Spares s ((s.setSlot t task.slot.claim).setPool p (pool.accept t)) i :=
      .of_threads rfl
    exact told.wakeOne pick
  | take _ _ _ _ _ _ => exact (self.congr rfl).onThread
  | letGo _ _ _ _ _ => exact (self.congr rfl).onThread
  | discard _ _ => exact self.onThread
  | destroy _ _ => exact self.onThread.onThread
  | release _ _ _ => exact self.onThread
  | abandon _ _ _ _ => exact self.onThread.congr rfl
  | unref _ _ => exact self.onThread
  | clear _ _ _ => exact self.onThread.congr rfl
  | resume _ => exact self.onThread.onThread
  | close _ _ => exact .of_threads rfl
  | @stop p pool k _ _ =>
    have told : Spares s (s.setPool p (pool.requestExit k)) i := .of_threads rfl
    exact told.wakeAll _
  | dismiss _ _ _ => exact .of_threads rfl
  | dropPool _ _ => exact .of_threads rfl
  | register _ _ _ => exact (self.onThread.wakeAll _).settled _
  | released _ _ => exact self.settled _
  | exit _ _ _ _ => exact self.onThread
  | claim _ _ _ _ => exact (self.congr rfl).onThread
  | park _ _ _ _ => exact self.onThread
  | begin _ _ _ _ => exact (self.congr rfl).onThread
  | beginEmpty _ _ _ _ => exact (self.congr rfl).onThread
  | endWork _ _ _ _ => exact self.onThread
  | stash _ _ => exact (self.congr rfl).onThread
  | count _ _ _ => exact (self.congr rfl).onThread
  | retire _ _ _ => exact (Spares.published _).onThread

theorem Spares.trans {s'' : System} (h : Spares s s' i) (h' : Spares s' s'' i) :
    Spares s s'' i := by
  intro j th hj hth
  obtain ⟨th', hth', w⟩ := h j th hj hth
  obtain ⟨th'', hth'', w'⟩ := h' j th' hj hth'
  exact ⟨th'', hth'', w.trans w'⟩

theorem Moves.spares (ms : Moves i s es s') : Spares s s' i := by
  induction ms with
  | nil => exact .of_threads rfl
  | cons m _ ih => exact m.spares.trans ih

/-- Another thread stays in its innermost call. -/
theorem Spares.inside (h : Spares s s' i) (hj : j ≠ i) (hi : s.Inside j (f :: rest)) :
    ∃ f' rest', s'.Inside j (f' :: rest') ∧ f'.asleep = f.asleep := by
  obtain ⟨th, hth, hc⟩ := hi
  obtain ⟨th', hth', w⟩ := h j th hj hth
  obtain ⟨f', rest', hc', hf⟩ := w.head hc
  exact ⟨f', rest', ⟨th', hth', hc'⟩, hf⟩

/-- A submission that waits still does after the steps of another thread. -/
theorem Spares.awaitingWorker {woken : Bool} (h : Spares s s' i) (hj : j ≠ i)
    (hi : s.Inside j (.awaitingWorker p t woken :: rest)) :
    ∃ woken rest, s'.Inside j (.awaitingWorker p t woken :: rest) := by
  obtain ⟨f, rest', hi', hf⟩ := h.inside hj hi
  obtain ⟨woken', rfl⟩ : ∃ woken, f = .awaitingWorker p t woken := by
    cases f <;> simp_all [Frame.asleep]
  exact ⟨woken', rest', hi'⟩

end System

end WorkerPool
