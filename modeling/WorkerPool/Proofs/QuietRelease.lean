import WorkerPool.Proofs.ClosedPool
import WorkerPool.Proofs.Conservation
import WorkerPool.Proofs.DroppedPool
import WorkerPool.Proofs.Seats
import WorkerPool.Proofs.Works

/-!
What quiescent pools have let go of.

Whoever lets go of the last reference to a task empties its slot, so a task that is gone has neither
work nor outcome. A task that a pool has accepted last is gone when the pool is quiescent, unless
its handle is there, or somebody outside the pool is still letting go of it: a thread that gives the
handle up, or a worker of a pool that executed the task earlier.
-/
namespace WorkerPool

/-- Whether the thing is the task, or comes out of its slot. -/
def Disposal.concerns (t : TaskId) : Disposal → Bool
  | outcome u _ | work u | handle u | reference u => u == t
  | record _ => false

/-- Whether the frame has yet to let go of something of the task. -/
def Frame.concerns (t : TaskId) : Frame → Bool
  | disposing todo _ _ => todo.any (Disposal.concerns t)
  | _ => false

/-- Neither work nor outcome is in the slot. -/
def Slot.IsEmpty (slot : Slot) : Prop := slot.work = false ∧ slot.outcome = none

theorem Slot.isEmpty_clear (slot : Slot) : slot.clear.IsEmpty := ⟨rfl, rfl⟩

namespace Frame

variable {f : Frame} {t : TaskId}

theorem holds_of_unconcerned (h : f.concerns t = false) : f.holds t = 0 := by
  cases f with
  | disposing todo failure releasing =>
    simp only [concerns, List.any_eq_false] at h
    refine List.countP_eq_zero.mpr fun d hd => ?_
    have := h d hd
    cases d <;> simp_all [Disposal.concerns]
  | _ => rfl

theorem works_of_unconcerned (h : f.concerns t = false) : f.works t = 0 := by
  cases f with
  | disposing todo failure releasing =>
    simp only [concerns, List.any_eq_false] at h
    refine List.countP_eq_zero.mpr fun d hd => ?_
    have := h d hd
    cases d <;> simp_all [Disposal.concerns, Disposal.isWork]
  | _ => rfl

theorem carries_of_unconcerned {q : Outcome → Bool} (h : f.concerns t = false) :
    f.carries t q = 0 := by
  cases f with
  | disposing todo failure releasing =>
    simp only [concerns, List.any_eq_false] at h
    refine List.countP_eq_zero.mpr fun d hd => ?_
    have := h d hd
    cases d <;> simp_all [Disposal.concerns, Disposal.carries]
  | _ => rfl

end Frame

/-- Nobody brings anything back to a loose task. -/
theorem Record.Change.isEmpty {i : ThreadId} {t : TaskId} {es : List Event} {r r' : Record}
    (c : r.Change i t es r') (loose : r.Loose) (empty : r.slot.IsEmpty) : r'.slot.IsEmpty := by
  obtain ⟨hh, hb, hq⟩ := loose
  cases c with
  | same | hire | abandon | claim | count | endWork => exact empty
  | clear => exact r.slot.isEmpty_clear
  | accept handle | take handle | surrender handle => simp [hh] at handle
  | begin bearing | beginEmpty bearing | stash bearing | retire bearing => simp [hb] at bearing

namespace System

variable {callers : Nat} {h : Trace} {s s' : System} {i : ThreadId} {p : PoolId} {t u : TaskId}
  {a : Action} {es : List Event} {e : Effect} {f : Frame} {rest : List Frame} {th : Thread}
  {P : ThreadId → Frame → Prop} {todo : List Disposal} {failure : Option Payload}
  {releasing : Bool} {task : Task}

/-! ### Tasks that are gone -/

/-- A task that has lost no reference was gone before. -/
theorem Gone.before (gone : s'.Gone t) (tasks : s'.tasks.length = s.tasks.length)
    (href : s.references t ≤ s'.references t) : s.Gone t := by
  have hlt : t < s'.tasks.length := by
    by_contra hge
    have hnone : s'.tasks[t]? = none := List.getElem?_eq_none_iff.mpr (Nat.le_of_not_lt hge)
    have hh := gone.loose.handle
    simp [record, System.task, hnone] at hh
  have hzero := (gone_iff (List.getElem?_eq_getElem hlt)).mp gone
  have hlt' : t < s.tasks.length := tasks ▸ hlt
  exact (gone_iff (List.getElem?_eq_getElem hlt')).mpr (by omega)

theorem Retains.gone (r : Retains P s s') (gone : s'.Gone t) : s.Gone t :=
  gone.before r.tasks (r.references t)

/-- What is no reference is let go of without a reference. -/
theorem retains_dispose {d : Disposal} (calls : s.Calls)
    (hi : s.Inside i (.disposing (d :: todo) failure releasing :: rest))
    (hd : ∀ t, d ≠ .reference t) :
    Retains (fun _ _ => True) s (s.dispose i th (d :: todo) failure releasing).1 := by
  have lasting : Frame.Lasting fun _ _ => True :=
    ⟨fun _ _ _ _ => trivial, fun _ _ _ _ => trivial⟩
  have entered (hz : ∀ t, (Frame.disposing (d :: todo) failure releasing).holds t =
      (Frame.disposing todo failure releasing).holds t) :
      Retains (fun _ _ => True) s (s.enter i (.disposing todo failure releasing)) :=
    retains_enter hi (fun t => (hz t).le) trivial
  cases d with
  | outcome t o =>
    have entered := entered fun t => by simp [Frame.holds]
    simp only [dispose]
    split
    · exact entered.trans (retains_push trivial)
    · exact entered
  | work t => exact (entered fun t => by simp [Frame.holds]).trans (retains_push trivial)
  | record r => exact entered fun t => by simp [Frame.holds]
  | handle t =>
    obtain ⟨o, ho⟩ := (calls.given hi).1
    obtain ⟨task, ht, -⟩ := Option.map_eq_some_iff.mp ho
    exact (mild_handle lasting hi ht).retains
  | reference t => exact absurd rfl (hd t)

theorem references_enter (hi : s.Inside i (f :: rest)) (f' : Frame) :
    (s.enter i f').references t + f.holds t = s.references t + f'.holds t := by
  obtain ⟨th, hth, hc⟩ := hi
  have hsum := tally_onThread (w := Thread.holds t) (·.replace f') hth
  have hpop := Thread.weigh_pop (Frame.holds t) hc
  have hnew : (th.replace f').holds t =
      th.role.holds t + (f'.holds t + th.pop.weigh (Frame.holds t)) := by
    rw [Thread.holds_eq, Thread.role_replace, Thread.replace, Thread.weigh_push]
  have hold := Thread.holds_eq t th
  have hhandle : (s.enter i f').handles t = s.handles t := rfl
  have hentries : (s.enter i f').entries t = s.entries t := rfl
  rw [references_eq, references_eq, hhandle, hentries]
  unfold enter
  omega

/-- The thread has emptied the slot of the task and lets go of the contents next. -/
def Empties (s s' : System) (i : ThreadId) (t : TaskId) : Prop :=
  (s'.task t).slot.IsEmpty ∧ ∃ todo failure releasing rest,
    s'.Inside i (.disposing ((s.task t).slot.contents t ++ todo) failure releasing :: rest)

/-- Whoever lets go of the last reference to a task empties its slot. -/
theorem gone_reference
    (hi : s.Inside i (.disposing (.reference u :: todo) failure releasing :: rest))
    (gone : (s.dispose i th (.reference u :: todo) failure releasing).1.Gone t) : s.Gone t ∨
      s.Empties (s.dispose i th (.reference u :: todo) failure releasing).1 i t := by
  have others (todo' : List Disposal) (hu : u ≠ t)
      (hz : (Frame.disposing todo' failure releasing).holds t =
        (Frame.disposing todo failure releasing).holds t) :
      s.references t ≤ (s.enter i (.disposing todo' failure releasing)).references t := by
    have := references_enter (t := t) hi (.disposing todo' failure releasing)
    have hold : (Frame.disposing (.reference u :: todo) failure releasing).holds t =
        (Frame.disposing todo failure releasing).holds t := by simp [Frame.holds, hu]
    omega
  by_cases hu : u = t
  · subst hu
    cases ht : s.tasks[u]? with
    | none =>
      have hh : (s.record u).handle = false := by simpa [dispose, ht] using gone.loose.handle
      simp [record, System.task, ht] at hh
    | some task =>
      by_cases href : (s.enter i (.disposing todo failure releasing)).references u = 0
      · have ht' (f : Frame) : (s.enter i f).tasks[u]? = some task := ht
        simp only [dispose, ht, href, if_true]
        refine .inr ⟨?_, todo, failure, releasing, rest, ?_⟩
        · rw [setSlot_eq (ht' _), task_setTask (ht' _)]
          exact task.slot.isEmpty_clear
        · rw [task_eq ht]
          exact hi.enter
      · simp only [dispose, ht, href, if_false] at gone
        exact absurd ((gone_iff (s := s.enter i _) ht).mp gone) href
  · left
    cases ht : s.tasks[u]? with
    | none =>
      simp only [dispose, ht] at gone
      exact gone.before rfl (others todo hu rfl)
    | some task =>
      simp only [dispose, ht] at gone
      split at gone
      · refine gone.before (by simp [setSlot, enter, onThread]) ?_
        have hz : (Frame.disposing (task.slot.contents u ++ todo) failure releasing).holds t =
            (Frame.disposing todo failure releasing).holds t := by
          cases hw : task.slot.work <;> simp [Frame.holds, Slot.contents, List.countP_append, hw]
        have cleared := Retains.setSlot (P := fun _ _ => True)
          (s := s.enter i (.disposing (task.slot.contents u ++ todo) failure releasing)) ht
          task.slot.clear
        exact (others _ hu hz).trans (cleared.references t)
      · exact gone.before rfl (others todo hu rfl)

/-- A step takes the last reference to a task away and empties its slot, or the task was gone. -/
theorem gone_step (calls : s.Calls) (hs : s.step i a = some (s', es)) (gone : s'.Gone t) :
    s.Gone t ∨ s.Empties s' i t := by
  have lasting : Frame.Lasting fun _ _ => True :=
    ⟨fun _ _ _ _ => trivial, fun _ _ _ _ => trivial⟩
  by_cases sheds : s.Sheds i
  · obtain ⟨d, todo, failure, releasing, rest, hi⟩ := sheds
    obtain ⟨th, he⟩ := hi.disposes hs
    obtain rfl : (s.dispose i th (d :: todo) failure releasing).1 = s' := congrArg Prod.fst he
    by_cases hd : ∀ t, d ≠ .reference t
    · exact .inl ((retains_dispose calls hi hd).gone gone)
    · obtain ⟨u, rfl⟩ : ∃ u, d = .reference u := by simpa using hd
      exact gone_reference hi gone
  · left
    by_cases code : ∃ ending, a = .finish ending
    · obtain ⟨ending, rfl⟩ := code
      obtain ⟨th, hth, hs⟩ := Option.bind_eq_some_iff.mp hs
      exact (retains_finish lasting hth hs).gone gone
    · by_cases new : ∃ captured pick, a = .call (.createTask captured) pick
      · obtain ⟨captured, pick, rfl⟩ := new
        cases step_createTask hs
        exact ⟨record_addTask (s := s) captured ▸ gone.loose, gone.unheld⟩
      · have mild := mild_step lasting (fun _ _ => trivial) hs (fun ending h => code ⟨ending, h⟩)
          (fun captured pick h => new ⟨captured, pick, h⟩) sheds
        exact mild.retains.gone gone

theorem Moves.isEmpty (ms : Moves i s es s') (gone : s.Gone t) (kept : (s.record t).Kept t h)
    (empty : (s.task t).slot.IsEmpty) : (s'.task t).slot.IsEmpty := by
  induction ms generalizing h with
  | nil => exact empty
  | cons m _ ih =>
    exact ih (gone.move kept m) (kept.change (m.change t)) ((m.change t).isEmpty gone.loose empty)

/-- A task that is gone has neither work nor outcome. -/
theorem Run.emptied (run : Run callers h s) (gone : s.Gone t) : (s.task t).slot.IsEmpty := by
  induction run with
  | start =>
    have hh : (System.start callers).task t = {} := rfl
    have := gone.loose.handle
    simp [record, hh] at this
  | @step h s s' i a es run hs ih =>
    by_cases before : s.Gone t
    · exact (moves_of_step run.calls hs).isEmpty before (run.kept t) (ih before)
    · exact ((gone_step run.calls hs gone).resolve_left before).1

/-! ### Tasks of a quiescent pool -/

/-- Everything that came out of the task is gone, but for what joins have taken. -/
structure Released (h : Trace) (s : System) (t : TaskId) : Prop where
  /-- Nobody holds the work, nor a value that it has returned. -/
  works : s.works t = 0
  values : ∀ n, s.holdings t (·.isValueOf n) = 0
  /-- One destructor has begun for the work, and one for each value that no join has taken. -/
  discarded : h.discarded t = 1
  destroyed : ∀ j n v, (j, .ended t ⟨n, .value v⟩) ∈ h →
    h.handed t (·.isValueOf n) + (h.destroyed t).count n = 1

/-- A value that an invocation has returned has been returned once. -/
theorem Run.yielded_value (run : Run callers h s) {j : ThreadId} {n : Nat} {v : Value}
    (hmem : (j, .ended t ⟨n, .value v⟩) ∈ h) : h.yielded t (·.isValueOf n) = 1 := by
  obtain ⟨life, st, -, story⟩ := run.kept t
  have hpos : 0 < h.yielded t (·.isValueOf n) :=
    List.countP_pos_iff.mpr ⟨_, hmem, by simp [Event.yields, Outcome.isValueOf, Outcome.returned]⟩
  have hle : h.yielded t (·.isValueOf n) ≤ h.endings t n := by
    rw [Trace.endings_eq_yielded]
    exact Trace.yielded_le fun o ho => by simp_all [Outcome.isValueOf]
  have hone : h.endings t n ≤ 1 := by
    rw [story.endings_eq]
    split <;> omega
  omega

/-- A worker that has taken something out of the slot would have the task in hands. -/
theorem task?_ne_of_bearing (hb : (s.record t).bearing i = none) (hth : s.threads[i]? = some th) :
    th.role.task? ≠ some t := by
  intro hr
  cases hrole : th.role with
  | caller => simp [hrole, Role.task?] at hr
  | worker q k phase =>
    have hphase : phase.task? = some t := by simpa [hrole, Role.task?] using hr
    simp [record, System.bearing, hth, Thread.bears, hrole, Phase.bears_self hphase] at hb

theorem works_unborne (hb : (s.record t).bearing = fun _ => none) :
    s.tally (Thread.works t) = 0 := tally_eq_zero.mpr fun th hth => by
  obtain ⟨i, hi⟩ := List.getElem?_of_mem hth
  have := task?_ne_of_bearing (congrFun hb i) hi
  unfold Thread.works
  cases hrole : th.role with
  | caller => rfl
  | worker q k phase => cases phase <;> simp_all [Role.task?, Phase.task?, Phase.works]

theorem stashes_unborne {q : Outcome → Bool} (hb : (s.record t).bearing = fun _ => none) :
    s.tally (Thread.stashes t q) = 0 := tally_eq_zero.mpr fun th hth => by
  obtain ⟨i, hi⟩ := List.getElem?_of_mem hth
  have := task?_ne_of_bearing (congrFun hb i) hi
  unfold Thread.stashes
  cases hrole : th.role with
  | caller => rfl
  | worker q k phase => cases phase <;> simp_all [Role.task?, Phase.task?, Phase.stashes]

/-- A task that is gone is released, if nobody is still letting go of it. -/
theorem Run.released (run : Run callers h s) (gone : s.Gone t)
    (clear : s.EachFrame fun f => f.concerns t = false) : Released h s t := by
  obtain ⟨hwork, hout⟩ := run.emptied gone
  have works : s.works t = 0 := by
    have hframes : s.weight (Frame.works t) = 0 :=
      weight_eq_zero.mpr fun th hth f hf => Frame.works_of_unconcerned (clear th hth f hf)
    simp [System.works, works_unborne gone.loose.bearing, hframes, Slot.works_of_empty hwork]
  have values (n : Nat) : s.holdings t (·.isValueOf n) = 0 := by
    have hframes : s.weight (Frame.carries t (·.isValueOf n)) = 0 :=
      weight_eq_zero.mpr fun th hth f hf => Frame.carries_of_unconcerned (clear th hth f hf)
    simp [holdings, stashes_unborne gone.loose.bearing, hframes, stored, hout]
  refine ⟨works, values, ?_, fun j n v hmem => ?_⟩
  · have := run.works t
    omega
  · obtain ⟨lost, acc⟩ := run.accounts t
    have hbalance := acc.balance (·.isValueOf n)
    rw [← acc.count_destroyed, values n] at hbalance
    have := run.yielded_value hmem
    omega

/-- The step may be one in which a wait for the pool returns, or the drop of a pool that was not
shut down. -/
inductive MayReturn (s : System) (i : ThreadId) (p : PoolId) : Action → Prop
  | waitIdle (pick : Pick) : MayReturn s i p (.call (.waitIdle p) pick)
  | waited {woken : Bool} {rest : List Frame} (a : Action) :
      s.Inside i (.awaitingIdle p false woken :: rest) → MayReturn s i p a
  | dropPool (pick : Pick) : s.isClosed p = false → MayReturn s i p (.call (.dropPool p) pick)
  | dropped {f : Frame} {rest : List Frame} (a : Action) : s.Inside i (f :: rest) →
      f.waitsFor p true → MayReturn s i p a

/-- A wait that returns has found the pool quiescent. -/
theorem quiet_of_waitIdle {pool : Pool} {dropping : Bool}
    (done : .replied .done ∈ (s.waitIdle i p pool dropping).2) :
    pool.isQuiescentFor i ∧ dropping = false ∧
      (s.waitIdle i p pool dropping).2 = [.replied .done] := by
  unfold waitIdle at done ⊢
  split at done
  · next quiet =>
    cases dropping with
    | true => simp at done
    | false => exact ⟨quiet, rfl, by simp [quiet, reply]⟩
  · simp at done

theorem step_waitIdle {pick : Pick} (hs : s.step i (.call (.waitIdle p) pick) = some e) :
    ∃ pool, s.pools[p]? = some pool ∧ (s.inCall i).waitIdle i p pool false = e := by
  obtain ⟨th, hth, hs⟩ := Option.bind_eq_some_iff.mp hs
  simp only [call?, Option.bind_eq_bind, Option.ite_none_right_eq_some, Option.bind_eq_some_iff,
    Option.some.injEq] at hs
  obtain ⟨-, pool, hp, -, he⟩ := hs
  exact ⟨pool, hp, he⟩

/-- When a wait for the pool returns, or its drop, on a thread that is none of its workers, nothing
is queued in the pool, nothing runs, and nothing is let go of. -/
theorem Run.calm_returned (run : Run callers h s) (hs : s.step i a = some (s', es))
    (outside : s.employer i ≠ some p) (returns : s.MayReturn i p a) (done : .replied .done ∈ es) :
    s'.Calm p := by
  have ms := moves_of_step run.calls hs
  have waited {pool : Pool} {s₀ : System} {dropping : Bool} (hp : s.pools[p]? = some pool)
      (he : s₀.waitIdle i p pool dropping = (s', es)) : s'.Calm p := by
    have hes : (s₀.waitIdle i p pool dropping).2 = es := congrArg Prod.snd he
    obtain ⟨quiet, -, htold⟩ := quiet_of_waitIdle (hes ▸ done)
    refine ms.calm run.books (run.books.calm outside ⟨pool, hp, quiet⟩) ?_
    rw [← hes, htold]
    rfl
  cases returns with
  | waitIdle pick =>
    obtain ⟨pool, hp, he⟩ := step_waitIdle hs
    exact waited hp he
  | waited _ hi =>
    obtain ⟨pool, hp, he⟩ := hi.resumesWait hs
    exact waited hp he
  | dropPool pick ho =>
    obtain ⟨-, th, pool, -, -, hp, he⟩ := step_dropPool hs
    have hc : pool.closed = false := by simpa [isClosed, hp] using ho
    simp only [dropPool, hc, Bool.false_eq_true, if_false] at he
    have hes : _ = es := congrArg Prod.snd he
    rw [← hes] at done
    cases (quiet_of_waitIdle done).2.1
  | @dropped f rest _ hi hf =>
    by_cases hc : f.closes p
    · have calm := (run.calm_closing p).inside hi hc outside
      obtain undropped | ⟨gone, alone⟩ := run.dropped p
      · have := undropped.inside hi
        simp [hf] at this
      · exact ms.calm run.books calm (alone.takes_nothing gone run.calls hs)
    · obtain ⟨woken, rfl⟩ : ∃ woken, f = .awaitingIdle p true woken := by
        cases f <;> simp_all [Frame.waitsFor, Frame.closes]
      obtain ⟨pool, hp, he⟩ := hi.resumesWait hs
      exact waited hp he

/-- A worker of a pool in which nothing runs and nothing is let go of is inside no call. -/
theorem Run.idle_calm (run : Run callers h s) (calm : s.Calm p) (hth : th ∈ s.threads)
    (hp : th.employer = some p) : th.calls = [] := by
  obtain ⟨pool, hpool, hcalm⟩ := calm
  simp only [Pool.isCalm, Bool.and_eq_true, List.isEmpty_iff] at hcalm
  obtain ⟨i, hi⟩ := List.getElem?_of_mem hth
  cases hr : th.role with
  | caller => simp [Thread.employer, hr] at hp
  | worker q k phase =>
    obtain rfl : q = p := by simpa [Thread.employer, hr] using hp
    have has : s.Has i q phase := ⟨th, k, hi, hr⟩
    refine (run.seated th hth).free q k phase hr ?_
    have hrun := ((run.books.isSettled hpool).mp hcalm.1).2
    have htask := run.books.free hpool hrun has
    have hrel : phase ≠ .releasing := by
      rintro rfl
      have := (run.books.mem_releasing hpool).mpr has
      simp [hcalm.2] at this
    cases phase <;> simp_all [Phase.hosts, Phase.task?]

/-- A quiescent pool has neither queued nor in hands what it has accepted. -/
theorem Run.gone_calm (run : Run callers h s) (calm : s.Calm p) (taken : h.taker t = some p)
    (hh : (s.task t).handle = false)
    (clear : s.EachFrame fun f => f.concerns t = false) : s.Gone t := by
  obtain ⟨pool, hpool, hcalm⟩ := calm
  simp only [Pool.isCalm, Bool.and_eq_true, List.isEmpty_iff] at hcalm
  obtain ⟨hqueue, hrun⟩ := (run.books.isSettled hpool).mp hcalm.1
  refine ⟨⟨hh, funext fun i => ?_, funext fun q => ?_⟩,
    clear.mono fun f hf => Frame.holds_of_unconcerned hf⟩
  · cases hb : (s.record t).bearing i with
    | none => rfl
    | some x =>
      obtain ⟨q, phase⟩ := x
      obtain rfl : q = p := Option.some.inj (((run.taken t).bearing i q phase hb).symm.trans taken)
      have htask := run.books.free hpool hrun (has_of_bearing hb)
      obtain ⟨th, hth, hbears⟩ := Option.bind_eq_some_iff.mp hb
      cases hr : th.role with
      | caller => simp [Thread.bears, hr] at hbears
      | worker q' k phase' =>
        simp only [Thread.bears, hr, Phase.bears] at hbears
        split at hbears
        · cases hbears
          simp_all
        · cases hbears
  · by_contra hq
    obtain rfl : q = p := Option.some.inj (((run.taken t).queued q hq).symm.trans taken)
    rw [queued_eq hpool] at hq
    simp_all [PendingQueue.isEmpty]

/-- When a wait for the pool returns, or the drop of a pool that was not shut down, on a thread that
is none of its workers: whatever the pool has accepted last, and has no handle any more, is
released, if nobody outside the pool is still letting go of it. -/
theorem Run.releases_all (run : Run callers h s) (hs : s.step i a = some (s', es))
    (outside : s.employer i ≠ some p) (returns : s.MayReturn i p a) (done : .replied .done ∈ es)
    (taken : Trace.taker (h ++ es.map (i, ·)) t = some p) (hh : (s'.task t).handle = false)
    (clear : ∀ th ∈ s'.threads, th.employer ≠ some p → ∀ f ∈ th.calls, f.concerns t = false) :
    Released (h ++ es.map (i, ·)) s' t := by
  have run' := run.step hs
  have calm := run.calm_returned hs outside returns done
  have clear' : s'.EachFrame fun f => f.concerns t = false := by
    intro th hth f hf
    by_cases hp : th.employer = some p
    · rw [run'.idle_calm calm hth hp] at hf
      cases hf
    · exact clear th hth hp f hf
  exact run'.released (run'.gone_calm calm taken hh clear') clear'

/-- A task that was detached while it ran has left neither its work nor its value behind when a wait
for its pool returns. -/
theorem releases_all_detached : ∃ h s s' es, Run 1 h s ∧
    s.step 0 (.call (.waitIdle 0) 0) = some (s', es) ∧ s.employer 0 ≠ some 0 ∧
    .replied .done ∈ es ∧ Trace.taker (h ++ es.map (0, ·)) 0 = some 0 ∧
    (s'.task 0).handle = false ∧
    (∀ th ∈ s'.threads, th.employer ≠ some 0 → ∀ f ∈ th.calls, f.concerns 0 = false) ∧
    Released (h ++ es.map (0, ·)) s' 0 := by
  have run : Run 1 _ _ := run_of_replay [(0, .call (.createPool (.new 1)) 0),
    (0, .call (.createTask none) 0), (0, .call (.submit 0 0) 0), (1, .advance 0), (0, .advance 0),
    (1, .advance 0), (1, .advance 0), (0, .call (.detach 0) 0), (0, .advance 0), (0, .advance 0),
    (0, .advance 0), (0, .advance 0), (1, .finish (.ok .null)), (1, .advance 0), (1, .advance 0),
    (1, .advance 0), (1, .advance 0), (1, .advance 0), (1, .finish (.ok .null)), (1, .advance 0),
    (1, .finish (.ok .null)), (1, .advance 0), (1, .advance 0)] rfl
  refine ⟨_, _, _, _, run, rfl, nofun, .head _, rfl, rfl, ?_, run.releases_all rfl nofun
    (.waitIdle 0) (.head _) rfl rfl ?_⟩ <;> decide

/-- Two runs in which a wait for a pool returns while the work of a task is alive that the pool has
accepted last and that has no handle any more. In the first one the worker of another pool, which
executed the task before, has yet to let go of it. In the second one the caller is still inside
the detach, in the destructor of the value, and it is this destructor that waits. -/
theorem leaks_outsideHolders :
    (∃ h s s' es, Run 1 h s ∧ s.step 0 (.call (.waitIdle 1) 0) = some (s', es) ∧
      s.employer 0 ≠ some 1 ∧ .replied .done ∈ es ∧ Trace.taker (h ++ es.map (0, ·)) 0 = some 1 ∧
      (s'.task 0).handle = false ∧ s'.works 0 = 1 ∧ s'.holdings 0 (·.isValueOf 2) = 1 ∧
      s'.employer 1 = some 0 ∧ s'.Inside 1 [.disposing [.reference 0] none true]) ∧
    ∃ h s s' es, Run 1 h s ∧ s.step 0 (.call (.waitIdle 0) 0) = some (s', es) ∧
      s.employer 0 ≠ some 0 ∧ .replied .done ∈ es ∧ Trace.taker (h ++ es.map (0, ·)) 0 = some 0 ∧
      (s'.task 0).handle = false ∧ s'.works 0 = 1 := by
  have two : Run 1 _ _ := run_of_replay [(0, .call (.createPool (.new 1)) 0),
    (0, .call (.createPool (.new 1)) 0), (0, .call (.createTask none) 0),
    -- The worker of the first pool completes the task and lets go of nothing yet.
    (0, .call (.submit 0 0) 0), (1, .advance 0), (0, .advance 0), (1, .advance 0), (1, .advance 0),
    (1, .finish (.ok .null)), (1, .advance 0), (1, .advance 0), (1, .advance 0),
    -- The second pool executes the task, and the caller drops its handle.
    (0, .call (.join 0 none) 0), (0, .call (.submit 1 0) 0), (2, .advance 0), (0, .advance 0),
    (2, .advance 0), (2, .advance 0), (2, .finish (.ok .null)), (2, .advance 0), (2, .advance 0),
    (2, .advance 0), (0, .call (.drop 0) 0), (0, .advance 0), (0, .advance 0), (0, .advance 0),
    (2, .advance 0), (2, .advance 0), (2, .advance 0)] rfl
  have nested : Run 1 _ _ := run_of_replay [(0, .call (.createPool (.new 1)) 0),
    (0, .call (.createTask none) 0), (0, .call (.submit 0 0) 0), (1, .advance 0), (0, .advance 0),
    (1, .advance 0), (1, .advance 0), (1, .finish (.ok .null)), (1, .advance 0), (1, .advance 0),
    (1, .advance 0), (1, .advance 0), (1, .advance 0), (1, .advance 0), (0, .call (.detach 0) 0),
    (0, .advance 0)] rfl
  exact ⟨⟨_, _, _, _, two, rfl, nofun, .head _, rfl, rfl, rfl, rfl, rfl, ⟨_, rfl, rfl⟩⟩,
    _, _, _, _, nested, rfl, nofun, .head _, rfl, rfl, rfl⟩

end System

end WorkerPool
