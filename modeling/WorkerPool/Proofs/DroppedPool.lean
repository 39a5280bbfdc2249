import WorkerPool.Proofs.ShutdownWait
import WorkerPool.Proofs.Submissions
import WorkerPool.Proofs.Sections

/-!
Pools that are dropped.

Who drops a pool has its handle alone: there is no other call on the pool, and none begins any more.
From the moment on when the pool is quiescent for a thread that drops it and is none of its workers,
nothing is queued in it, nothing runs, and nothing is let go of.
-/
namespace WorkerPool

namespace Frame

variable {f : Frame} {p : PoolId} {dropping : Bool}

/-- A frame waits for one pool, in one way. -/
theorem waitsFor_eq (h : f.waitsFor p dropping) (q : PoolId) (d : Bool) :
    f.waitsFor q d = (p == q && dropping == d) := by
  cases f <;> simp_all [waitsFor]

theorem uses_eq (h : f.waitsFor p dropping) (q : PoolId) : f.uses q = (p == q) := by
  cases f <;> simp_all [waitsFor, uses]

theorem waitsFor_of_closes (h : f.closes p) : f.waitsFor p true := by
  cases f <;> simp_all [closes, waitsFor]

@[simp] theorem wake_waitsFor (c : Condition) : (f.wake c).waitsFor p dropping =
    f.waitsFor p dropping := by
  cases f <;> rfl

@[simp] theorem wake_uses (c : Condition) : (f.wake c).uses p = f.uses p := by
  cases f <;> rfl

@[simp] theorem wake_closes (c : Condition) : (f.wake c).closes p = f.closes p := by
  cases f <;> rfl

end Frame

/-! ### Quiet pools -/

namespace Pool.Change

variable {s : System} {i : ThreadId} {p : PoolId} {es : List Event} {pool pool' : Pool}

/-- Only a worker that has a task lets go of it afterwards. -/
theorem releasing (change : Pool.Change s i p es pool pool') (books : s.Books)
    (hp : s.pools[p]? = some pool) (hrun : pool.runningCount = 0) (h : pool.releasing = []) :
    pool'.releasing = [] := by
  cases change with
  | released _ => simp [Pool.released, h]
  | claim hc =>
    obtain ⟨queue, -, rfl⟩ := Pool.claim?_eq hc
    exact h
  | retire hw =>
    have := (books.pools p pool hp).running_pos hw.post
    omega
  | _ => exact h

/-- A pool that is quiescent stays so until it takes a task. -/
theorem calm (change : Pool.Change s i p es pool pool') (books : s.Books)
    (hp : s.pools[p]? = some pool) (quiet : es.filterMap (·.push? p) = []) (h : pool.isCalm) :
    pool'.isCalm := by
  simp only [Pool.isCalm, Bool.and_eq_true, List.isEmpty_iff] at h ⊢
  exact ⟨change.settled books hp quiet h.1,
    change.releasing books hp ((books.isSettled hp).mp h.1).2 h.2⟩

/-- The handle of a pool does not come back. -/
theorem handle (change : Pool.Change s i p es pool pool') (h : pool.handle = false) :
    pool'.handle = false := by
  cases change with
  | claim hc =>
    obtain ⟨queue, -, rfl⟩ := Pool.claim?_eq hc
    exact h
  | dropHandle => rfl
  | _ => exact h

end Pool.Change

theorem Record.Change.employer {i j : ThreadId} {p : PoolId} {t : TaskId} {es : List Event}
    {r r' : Record} (c : Record.Change i t r es r') (hj : r.employer j = some p) :
    r'.employer j = some p := by
  cases c with
  | hire mono _ => exact mono j p hj
  | _ => exact hj

namespace System

variable {callers : Nat} {h : Trace} {s s' : System} {i j : ThreadId} {p : PoolId} {a : Action}
  {es : List Event} {e : Effect} {f : Frame} {pool : Pool} {pick : Pick}

/-- Nothing is queued in the pool, nothing runs, and nothing is let go of. -/
def Calm (s : System) (p : PoolId) : Prop := ∃ pool, s.pools[p]? = some pool ∧ pool.isCalm

theorem Moves.calm (ms : Moves i s es s') (books : s.Books) (calm : s.Calm p)
    (quiet : es.filterMap (·.push? p) = []) : s'.Calm p := by
  induction ms with
  | nil => exact calm
  | cons m _ ih =>
    rw [List.filterMap_append, List.append_eq_nil_iff] at quiet
    obtain ⟨pool, hp, hcalm⟩ := calm
    obtain ⟨pool', hp', change⟩ := m.pool_change hp
    exact ih (books.move m) ⟨pool', hp', change.calm books hp quiet.1 hcalm⟩ quiet.2

/-- A pool that is quiescent for a thread that is none of its workers is so for everybody. -/
theorem Books.calm (books : s.Books) (outside : s.employer i ≠ some p) (quiet : s.QuietFor i p) :
    s.Calm p := by
  obtain ⟨pool, hp, hquiet⟩ := quiet
  refine ⟨pool, hp, Pool.isCalm_of_isQuiescentFor hquiet fun hmem => ?_⟩
  obtain ⟨th, k, hth, hr⟩ := (books.mem_releasing hp).mp hmem
  exact outside (by simp [employer, hth, Thread.employer, hr])

/-- The handle of the pool is gone. -/
def Forsaken (s : System) (p : PoolId) : Prop :=
  ∃ pool, s.pools[p]? = some pool ∧ pool.handle = false

theorem Forsaken.not_canUse (gone : s.Forsaken p) : ¬ s.canUse p := by
  obtain ⟨pool, hp, hh⟩ := gone
  simp [canUse, hp, hh]

theorem Moves.forsaken (ms : Moves i s es s') (gone : s.Forsaken p) : s'.Forsaken p := by
  induction ms with
  | nil => exact gone
  | cons m _ ih =>
    obtain ⟨pool, hp, hh⟩ := gone
    obtain ⟨pool', hp', change⟩ := m.pool_change hp
    exact ih ⟨pool', hp', change.handle hh⟩

/-! ### Calls on a pool that is dropped -/

/-- A call on the pool is the one that drops it. -/
def LeavesAlone (s : System) (p : PoolId) : Prop :=
  s.Frames fun _ f => f.uses p → f.waitsFor p true

/-- Nobody drops the pool. -/
def Undropped (s : System) (p : PoolId) : Prop := s.Frames fun _ f => f.waitsFor p true = false

theorem frames_of_canDrop (drop : s.canDrop p) : s.Frames fun _ f => f.uses p = false := by
  intro j th hth f hf
  simp only [canDrop, Bool.and_eq_true, List.all_eq_true, Bool.not_eq_true'] at drop
  exact drop.2 th (List.mem_of_getElem? hth) f hf

theorem step_dropPool (hs : s.step i (.call (.dropPool p) pick) = some e) : s.canDrop p ∧
    ∃ th pool, s.threads[i]? = some th ∧ th.inUserCode ∧ s.pools[p]? = some pool ∧
      (s.inCall i).dropPool i p pool = e := by
  obtain ⟨th, hth, hs⟩ := Option.bind_eq_some_iff.mp hs
  simp only [call?, Option.bind_eq_bind, Option.ite_none_right_eq_some, Option.bind_eq_some_iff,
    Option.some.injEq] at hs
  obtain ⟨hu, pool, hp, drop, he⟩ := hs
  exact ⟨drop, th, pool, hth, hu, hp, he⟩

theorem pools_dropPool :
    (s.dropPool i p pool).1.pools = s.pools.set p { pool with handle := false } := by
  simp only [dropPool, waitIdle]
  split
  · rfl
  · split
    · simp only [if_true]
      rfl
    · rfl

/-- Whoever drops a pool is alone with it. -/
theorem step_drops (hs : s.step i (.call (.dropPool p) pick) = some e) :
    e.1.Forsaken p ∧ e.1.LeavesAlone p := by
  obtain ⟨drop, th, pool, hth, -, hp, he⟩ := step_dropPool hs
  have unused := frames_of_canDrop drop
  have hlt := (List.getElem?_eq_some_iff.mp hp).1
  have hpools : e.1.pools = s.pools.set p { pool with handle := false } := by
    rw [← he]
    exact pools_dropPool
  refine ⟨⟨{ pool with handle := false }, by simp [hpools, hlt], rfl⟩, ?_⟩
  have lasting : Frame.Lasting fun _ f => f.uses p → f.waitsFor p true :=
    ⟨fun _ c f => by simp, fun _ _ _ _ => nofun⟩
  refine step_frames lasting nofun (fun f opens hf => ?_) hs fun j th hth f hf used => ?_
  · cases opens with
    | dropPool _ hw _ => exact hw
    | goOn hi alike _ =>
      have hno := unused.inside hi
      cases alike with
      | submission => simp_all [Frame.uses]
      | join => cases hf
      | wait hw hw' => simp [Frame.uses_eq hw, Frame.uses_eq hw'] at hno hf; exact absurd hf hno
  · simp [unused j th hth f hf] at used

/-- The calls on a pool without handle stay the ones that there are. -/
theorem LeavesAlone.step (alone : s.LeavesAlone p) (gone : ¬ s.canUse p)
    (hs : s.step i a = some e) : e.1.LeavesAlone p := by
  have lasting : Frame.Lasting fun _ f => f.uses p → f.waitsFor p true :=
    ⟨fun _ c f => by simp, fun _ _ _ _ => nofun⟩
  refine step_frames lasting nofun (fun f opens hf => ?_) hs alone
  have unusable {q : PoolId} (use : s.canUse q) : q ≠ p := fun hq => gone (hq ▸ use)
  cases opens with
  | submit _ use => exact absurd (by simpa [Frame.uses] using hf) (unusable use)
  | join => cases hf
  | waitIdle use hw | shutdown use hw =>
    exact absurd (by simpa [Frame.uses_eq hw] using hf) (unusable use)
  | @dropPool q _ _ drop hw _ =>
    obtain rfl : q = p := by simpa [Frame.uses_eq hw] using hf
    exact hw
  | goOn hi alike _ =>
    have halone := alone.inside hi
    cases alike with
    | submission => simpa [Frame.uses, Frame.waitsFor] using halone hf
    | join => cases hf
    | wait hw hw' =>
      obtain rfl := by simpa [Frame.uses_eq hw'] using hf
      simpa [Frame.waitsFor_eq hw, Frame.waitsFor_eq hw', Frame.uses_eq hw] using halone

/-- Only a call that drops the pool begins to do so. -/
theorem Undropped.step (undropped : s.Undropped p) (hs : s.step i a = some e)
    (other : ∀ pick, a ≠ .call (.dropPool p) pick) : e.1.Undropped p := by
  have lasting : Frame.Lasting fun _ f => f.waitsFor p true = false :=
    ⟨fun _ c f => by simp, fun _ _ _ _ => rfl⟩
  refine step_frames lasting rfl (fun f opens => ?_) hs undropped
  cases opens with
  | submit | join => rfl
  | waitIdle _ hw | shutdown _ hw => simp [Frame.waitsFor_eq hw]
  | @dropPool q pick _ _ hw _ =>
    have hq : q ≠ p := fun hq => other pick (hq ▸ rfl)
    simp [Frame.waitsFor_eq hw, hq]
  | goOn hi alike _ =>
    have hno := undropped.inside hi
    cases alike with
    | submission | join => rfl
    | wait hw hw' => rwa [Frame.waitsFor_eq hw', ← Frame.waitsFor_eq hw]

/-- Nobody drops the pool, or whoever does so is alone with it. -/
theorem Run.dropped (run : Run callers h s) (p : PoolId) :
    s.Undropped p ∨ (s.Forsaken p ∧ s.LeavesAlone p) := by
  induction run with
  | start =>
    refine .inl fun j th hth f hf => ?_
    rw [List.eq_of_mem_replicate (List.mem_of_getElem? hth)] at hf
    cases hf
  | @step h s s' i a es run hs ih =>
    obtain undropped | ⟨gone, alone⟩ := ih
    · by_cases other : ∀ pick, a ≠ .call (.dropPool p) pick
      · exact .inl (undropped.step hs other)
      · obtain ⟨pick, rfl⟩ : ∃ pick, a = .call (.dropPool p) pick := by simpa using other
        exact .inr (step_drops hs)
    · exact .inr ⟨(moves_of_step run.calls hs).forsaken gone, alone.step gone.not_canUse hs⟩

/-! ### Submissions to a pool that is dropped -/

theorem canUse_of_submit {t : TaskId} (hs : s.step i (.call (.submit p t) pick) = some e) :
    s.canUse p := by
  obtain ⟨th, hth, hs⟩ := Option.bind_eq_some_iff.mp hs
  simp only [call?, Option.bind_eq_bind, Option.ite_none_right_eq_some, Option.bind_eq_some_iff,
    Option.some.injEq, Bool.and_eq_true] at hs
  obtain ⟨-, pool, hp, task, ht, ⟨use, -⟩, he⟩ := hs
  exact use

/-- A pool that takes a task does so in a step of a submission. -/
theorem attempts_of_push (calls : s.Calls) (hs : s.step i a = some (s', es))
    (hpush : es.filterMap (·.push? p) ≠ []) : ∃ t, s.Attempts i p t a := by
  obtain ⟨n, hn⟩ := List.exists_mem_of_ne_nil _ hpush
  obtain ⟨ev, hev, hp⟩ := List.mem_filterMap.mp hn
  obtain ⟨q, t, m, rfl⟩ : ∃ q t m, ev = .log (.submitted q t m) := by
    unfold Event.push? at hp
    split at hp
    · exact ⟨_, _, _, rfl⟩
    · cases hp
  obtain rfl : q = p := by
    by_contra hq
    simp [Event.push?, hq] at hp
  obtain ⟨q', pool, tries, -, he⟩ := submitted_by calls hs hev (t := t) (by simp [Event.buys])
  have he : es = pool.receipt q' t := he
  obtain rfl : q = q' := by
    rw [he] at hev
    simp only [Pool.receipt, List.mem_cons, Event.log.injEq, LogRecord.submitted.injEq,
      reduceCtorEq, List.not_mem_nil, or_false] at hev
    exact hev.1
  exact ⟨t, tries⟩

/-- A pool without handle that is only in the call that drops it takes no task. -/
theorem LeavesAlone.takes_nothing (alone : s.LeavesAlone p) (gone : s.Forsaken p) (calls : s.Calls)
    (hs : s.step i a = some (s', es)) : es.filterMap (·.push? p) = [] := by
  by_contra hpush
  obtain ⟨t, tries⟩ := attempts_of_push calls hs hpush
  cases tries with
  | call pick => exact gone.not_canUse (canUse_of_submit hs)
  | goOn _ hi =>
    have := alone.inside hi
    simp [Frame.uses, Frame.waitsFor] at this

theorem takes_nothing_dropPool (calls : s.Calls)
    (hs : s.step i (.call (.dropPool p) pick) = some (s', es)) :
    es.filterMap (·.push? p) = [] := by
  by_contra hpush
  obtain ⟨t, tries⟩ := attempts_of_push calls hs hpush
  cases tries with
  | goOn _ hi =>
    obtain ⟨th, hth, hc⟩ := hi
    simp [step, hth, Thread.inUserCode, hc] at hs

/-! ### The end of a pool -/

/-- A worker stays with its pool. -/
theorem Moves.employer (ms : Moves i s es s') (hj : s.employer j = some p) :
    s'.employer j = some p := by
  induction ms with
  | nil => exact hj
  | cons m _ ih => exact ih ((m.change 0).employer hj)

/-- While a thread that is none of its workers shuts the pool down, to drop it, nothing is queued in
the pool, nothing runs, and nothing is let go of. -/
theorem Run.calm_closing (run : Run callers h s) (p : PoolId) :
    s.Frames fun j f => f.closes p → s.employer j ≠ some p → s.Calm p := by
  induction run with
  | start =>
    intro j th hth f hf
    rw [List.eq_of_mem_replicate (List.mem_of_getElem? hth)] at hf
    cases hf
  | @step h s s' i a es run hs ih =>
    have ms := moves_of_step run.calls hs
    have lasting : Frame.Lasting fun j f => f.closes p → s.employer j ≠ some p → s.Calm p :=
      ⟨fun _ c f => by simp, fun _ _ _ _ => nofun⟩
    have begun : s'.Frames fun j f => f.closes p → s.employer j ≠ some p → s.Calm p := by
      refine step_frames lasting nofun (fun f opens hf outside => ?_) hs ih
      cases opens with
      | submit | join => cases hf
      | waitIdle _ hw | shutdown _ hw => cases (Frame.of_closes hw hf).2
      | dropPool _ hw quiet =>
        obtain ⟨rfl, -⟩ := Frame.of_closes hw hf
        exact run.books.calm outside (quiet hf)
      | goOn hi _ closes =>
        rcases closes p hf with before | quiet
        · exact ih.inside hi before outside
        · exact run.books.calm outside quiet
    intro j th hth f hf hc outside
    have calm := begun j th hth f hf hc fun hj => outside (ms.employer hj)
    refine ms.calm run.books calm ?_
    obtain undropped | ⟨gone, alone⟩ := run.dropped p
    · by_cases other : ∀ pick, a ≠ .call (.dropPool p) pick
      · have := undropped.step hs other j th hth f hf
        simp [Frame.waitsFor_of_closes hc] at this
      · obtain ⟨pick, rfl⟩ : ∃ pick, a = .call (.dropPool p) pick := by simpa using other
        exact takes_nothing_dropPool run.calls hs
    · exact alone.takes_nothing gone run.calls hs

end System

end WorkerPool
