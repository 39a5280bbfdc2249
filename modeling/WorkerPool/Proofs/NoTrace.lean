import Mathlib.Data.Finset.Basic
import WorkerPool.Proofs.Omission
import WorkerPool.Proofs.SlotStates
import WorkerPool.System.Rejection

/-!
Calls on a task that fail.

A join fails if no pool owns the task or its bound passes, a detachment if no pool owns the task, a
destruction if one does. Nothing of that leaves a trace: the state after the call is the one before
it, and a join that has waited has kept nobody but its own thread busy. `Omits` leaves calls that
fail out of a schedule; what remains takes the same steps through the same pools and tasks. The
rejection of a task hands the task back, or drops it for the error.
-/
namespace WorkerPool

/-- How a call on a task fails, and leaves its caller with the task. -/
inductive Failure : Operation → Reply → Prop
  | unowned (t : TaskId) (bound : Bound) : Failure (.join t bound) (.failed .notSubmitted)
  | expired (t : TaskId) (bound : Bound) (ms : Nat) :
      Failure (.join t bound) (.failed (.timeout ms))
  | undetached (t : TaskId) : Failure (.detach t) (.rejected .notSubmitted)
  | undestroyed (t : TaskId) (n : Nat) : Failure (.destroy t) (.rejected (.stillOwnedByPool n))

/-- Whether the event is the reply of a call that fails in one of these ways. -/
def Event.isFailure : Event → Bool
  | .replied (.failed .notSubmitted) | .replied (.failed (.timeout _)) => true
  | .replied (.rejected _) => true
  | _ => false

theorem Failure.isFailure {op : Operation} {r : Reply} (failure : Failure op r) :
    (Event.replied r).isFailure := by
  cases failure <;> rfl

namespace System

variable {s s' s₀ w : System} {D : Finset ThreadId} {i j : ThreadId} {t : TaskId} {bound : Bound}
  {task : Task} {f : Frame} {rest : List Frame} {es : List Event} {h h' h₀ : Trace}
  {callers : Nat} {pick : Pick} {op : Operation} {r : Reply} {a : Action} {woken : Bool}
  {th : Thread}

/-! ### Sections of calls -/

/-- A critical section of a join, whose thread would be in the state `w` if it were not joining. -/
inductive JoinSection (i : ThreadId) (t : TaskId) (bound : Bound) (w : System) :
    System → List Event → Prop
  | takes {s' : System} (o : Outcome) :
      JoinSection i t bound w s' [.joined t (some o), .replied (joinReply t (some o))]
  | waits : JoinSection i t bound w
      (w.onThread i (·.push (.awaitingOutcome t bound false))) []
  | fails {r : Reply} : Failure (.join t bound) r → JoinSection i t bound w w [.replied r]

theorem enter_eq : s.enter i f = (s.onThread i Thread.pop).onThread i (·.push f) := by
  rw [onThread_onThread]
  rfl

theorem joinSection_takeOutcome {x : Outcome} (hx : task.slot.outcome = some x) :
    JoinSection i t bound w (s.takeOutcome i t task).1 (s.takeOutcome i t task).2 := by
  rw [takeOutcome, hx]
  exact .takes x

theorem Run.join_section (run : Run callers h s)
    (hs : s.step i (.call (.join t bound) pick) = some (s', es)) :
    JoinSection i t bound s s' es := by
  obtain ⟨th, hth, hs⟩ := Option.bind_eq_some_iff.mp hs
  obtain ⟨-, task, ht, own, hjoin⟩ : th.inUserCode ∧ ∃ task, s.tasks[t]? = some task ∧
      s.canOwn t ∧ (s.inCall i).join i t task bound = (s', es) := by
    simpa [call?, inCall, Option.bind_eq_some_iff] using hs
  unfold join at hjoin
  split at hjoin
  · cases hjoin
    rw [pop_inCall]
    exact .fails (.unowned t bound)
  · next ho =>
    split at hjoin
    · next hfin =>
      obtain ⟨x, hx⟩ := run.outcome ht (handle_of_canOwn own ht) (not_not.mp ho) hfin
      have takes : JoinSection i t bound s _ _ :=
        joinSection_takeOutcome (s := s.inCall i) (i := i) (t := t) hx
      rwa [hjoin] at takes
    · split at hjoin
      · cases hjoin
        rw [pop_inCall]
        exact .fails (.expired t bound 0)
      · cases hjoin
        rw [enter_eq, pop_inCall]
        exact .waits

theorem Run.rejoin_section (run : Run callers h s)
    (hi : s.Inside i (.awaitingOutcome t bound woken :: rest)) (hs : s.step i a = some (s', es)) :
    JoinSection i t bound (s.onThread i Thread.pop) s' es := by
  have take {task : Task} (ht : s.tasks[t]? = some task) (hfin : task.slot.state = .finished) :
      JoinSection i t bound (s.onThread i Thread.pop) (s.takeOutcome i t task).1
        (s.takeOutcome i t task).2 := by
    have hh : s.standing t = some (true, .pool) := run.calls.relies.inside hi
    rw [standing_eq ht, Option.some.injEq, Prod.mk.injEq] at hh
    obtain ⟨x, hx⟩ := run.outcome ht hh.1 hh.2 hfin
    exact joinSection_takeOutcome hx
  obtain ⟨task, ht, hjoin | ⟨nanos, -, hjoin⟩⟩ := hi.resumesJoin hs
  · unfold resumeJoin at hjoin
    split at hjoin
    · next hfin =>
      have takes := take ht hfin
      rwa [hjoin] at takes
    · cases hjoin
      rw [enter_eq]
      exact .waits
  · unfold expireJoin at hjoin
    split at hjoin
    · next hfin =>
      have takes := take ht hfin
      rwa [hjoin] at takes
    · cases hjoin
      exact .fails (.expired t bound _)

/-- A detachment is refused at once or not at all, and so is a destruction. -/
theorem refused_section (hop : op = .detach t ∨ op = .destroy t)
    (hs : s.step i (.call op pick) = some (s', es)) :
    es = [] ∨ ∃ r, Failure op r ∧ es = [.replied r] ∧ s' = s := by
  obtain ⟨th, hth, hs⟩ := Option.bind_eq_some_iff.mp hs
  rcases hop with rfl | rfl
  · obtain ⟨-, task, ht, own, hdetach⟩ : th.inUserCode ∧ ∃ task, s.tasks[t]? = some task ∧
        s.canOwn t ∧ (s.inCall i).detach i t task = (s', es) := by
      simpa [call?, inCall, Option.bind_eq_some_iff] using hs
    unfold detach at hdetach
    split at hdetach
    · split at hdetach
      · cases hdetach
        exact .inl rfl
      · cases hdetach
        exact .inl rfl
    · cases hdetach
      exact .inr ⟨_, .undetached t, rfl, pop_inCall⟩
    · cases hdetach
      exact .inr ⟨_, .undetached t, rfl, pop_inCall⟩
  · obtain ⟨-, task, ht, own, hdestroy⟩ : th.inUserCode ∧ ∃ task, s.tasks[t]? = some task ∧
        s.canOwn t ∧ (s.inCall i).destroy i t task = (s', es) := by
      simpa [call?, inCall, Option.bind_eq_some_iff] using hs
    unfold destroy at hdestroy
    split at hdestroy
    · cases hdestroy
      exact .inr ⟨_, .undestroyed t _, rfl, pop_inCall⟩
    · cases hdestroy
      exact .inl rfl

/-! ### Runs without the calls that fail -/

/-- A schedule from `s₀` with its trace, and what is left of both when calls that fail are left out.
The threads of `D` are inside joins that are being left out. -/
inductive Omits (s₀ : System) : Finset ThreadId → List (ThreadId × Action) → Trace →
    List (ThreadId × Action) → Trace → System → Prop
  | start : Omits s₀ ∅ [] [] [] [] s₀
  | keep {D σ h σ' h' s i a es s'} : Omits s₀ D σ h σ' h' s → i ∉ D →
      s.step i a = some (s', es) →
      Omits s₀ D (σ ++ [(i, a)]) (h ++ es.map (i, ·)) (σ' ++ [(i, a)]) (h' ++ es.map (i, ·)) s'
  /-- A call fails at once. -/
  | fail {D σ h σ' h' s i op pick es s' r} : Omits s₀ D σ h σ' h' s → i ∉ D →
      s.step i (.call op pick) = some (s', es) → .replied r ∈ es → Failure op r →
      Omits s₀ D (σ ++ [(i, .call op pick)]) (h ++ es.map (i, ·)) σ' h' s'
  /-- A join has to wait. -/
  | wait {D σ h σ' h' s i t bound pick s'} : Omits s₀ D σ h σ' h' s → i ∉ D →
      s.step i (.call (.join t bound) pick) = some (s', []) →
      Omits s₀ (insert i D) (σ ++ [(i, .call (.join t bound) pick)]) h σ' h' s'
  | stay {D σ h σ' h' s i a s'} : Omits s₀ D σ h σ' h' s → i ∈ D → s.step i a = some (s', []) →
      Omits s₀ D (σ ++ [(i, a)]) h σ' h' s'
  /-- A join that has waited fails. -/
  | give {D σ h σ' h' s i a es s' t bound r} : Omits s₀ D σ h σ' h' s → i ∈ D →
      s.step i a = some (s', es) → .replied r ∈ es → Failure (.join t bound) r →
      Omits s₀ (D.erase i) (σ ++ [(i, a)]) (h ++ es.map (i, ·)) σ' h' s'

theorem without_insert (hi : i ∉ D) :
    (s.onThread i (·.push f)).without (insert i D) = s.without D := by
  refine ext_threads rfl rfl fun j => ?_
  rw [getElem?_without, getElem?_without, getElem?_onThread]
  by_cases hij : i = j
  · subst hij
    simp [hi, Function.comp_def, Thread.pop, Thread.push]
  · simp [hij, Ne.symm hij]

theorem without_erase (hi : i ∈ D) :
    (s.onThread i Thread.pop).without (D.erase i) = s.without D := by
  refine ext_threads rfl rfl fun j => ?_
  rw [getElem?_without, getElem?_without, getElem?_onThread]
  by_cases hij : i = j
  · subst hij
    simp [hi]
  · simp [hij, Ne.symm hij]

theorem AllJoin.erase (joins : s.AllJoin D) (i : ThreadId) : s.AllJoin (D.erase i) :=
  fun j hj => joins j (Finset.mem_of_mem_erase hj)

theorem AllJoin.insert (joins : s.AllJoin D) (hth : s.threads[i]? = some th) (hi : i ∉ D) :
    (s.onThread i (·.push (.awaitingOutcome t bound woken))).AllJoin (insert i D) := by
  intro j hj
  rcases Finset.mem_insert.mp hj with rfl | hj
  · exact ⟨t, bound, woken, th.calls, Inside.push ⟨th, hth, rfl⟩⟩
  · exact joins.onThread hi j hj

/-- A reply of a join that fails belongs to no other section of it. -/
theorem JoinSection.failed (joining : JoinSection i t bound w s' es) (hr : .replied r ∈ es)
    (failure : Failure op r) : s' = w ∧ es = [.replied r] := by
  cases joining with
  | takes o =>
    obtain rfl : r = joinReply t (some o) := by simpa using hr
    obtain ⟨run, ending⟩ := o
    cases ending <;> cases failure
  | waits => simp at hr
  | @fails r' _ =>
    obtain rfl : r = r' := by simpa using hr
    exact ⟨rfl, rfl⟩

theorem JoinSection.waiting (joining : JoinSection i t bound w s' []) :
    s' = w.onThread i (·.push (.awaitingOutcome t bound false)) := by
  cases joining
  rfl

/-- A call that fails at once changes nothing. -/
theorem Run.failed (run : Run callers h s) (hs : s.step i (.call op pick) = some (s', es))
    (hr : .replied r ∈ es) (failure : Failure op r) : s' = s ∧ es = [.replied r] := by
  have refused {t : TaskId} (hop : op = .detach t ∨ op = .destroy t) :
      s' = s ∧ es = [.replied r] := by
    rcases refused_section hop hs with rfl | ⟨r', -, rfl, rfl⟩
    · simp at hr
    · obtain rfl : r = r' := by simpa using hr
      exact ⟨rfl, rfl⟩
  cases id failure with
  | unowned t bound => exact (run.join_section hs).failed hr failure
  | expired t bound ms => exact (run.join_section hs).failed hr failure
  | undetached t => exact refused (.inl rfl)
  | undestroyed t n => exact refused (.inr rfl)

/-- What other threads do stays. -/
theorem Omits.along {σ σ' τ : List (ThreadId × Action)} {h₁ : Trace}
    (omits : Omits s₀ D σ h σ' h' s) (hD : ∀ m ∈ τ, m.1 ∉ D) (hr : s.replay τ = some (h₁, s')) :
    Omits s₀ D (σ ++ τ) (h ++ h₁) (σ' ++ τ) (h' ++ h₁) s' := by
  induction τ generalizing σ σ' h h' h₁ s with
  | nil =>
    cases hr
    simpa using omits
  | cons m τ ih =>
    obtain ⟨i, a⟩ := m
    obtain ⟨s₁, es, h₂, hs, hr₂, rfl⟩ := replay_cons hr
    have rest := ih (omits.keep (hD (i, a) (.head _)) hs) (fun m hm => hD m (.tail _ hm)) hr₂
    simpa using rest

/-- The second schedule takes the same steps through the same pools and tasks. -/
theorem Omits.replays {σ σ' : List (ThreadId × Action)} (run : Run callers h₀ s₀)
    (omits : Omits s₀ D σ h σ' h' s) : s₀.replay σ = some (h, s) ∧ s.AllJoin D ∧
      s₀.replay σ' = some (h', s.without D) := by
  induction omits with
  | start => exact ⟨rfl, by simp [AllJoin], by rw [without_empty]; rfl⟩
  | @keep D σ h σ' h' s i a es s' _ hi hs ih =>
    obtain ⟨hr, joins, hr'⟩ := ih
    refine ⟨replay_snoc hr hs, fun j hj => ?_, replay_snoc hr' (step_without joins hi hs)⟩
    obtain ⟨t, bound, woken, rest, hin⟩ := joins j hj
    have hij : j ≠ i := fun h => hi (h ▸ hj)
    obtain ⟨f, rest', hin', hf⟩ :=
      (moves_of_step (run.replay hr).calls hs).spares.inside hij hin
    obtain ⟨woken', rfl⟩ : ∃ woken, f = .awaitingOutcome t bound woken := by
      cases f <;> simp_all [Frame.asleep]
    exact ⟨t, bound, woken', rest', hin'⟩
  | fail _ _ hs hmem failure ih =>
    obtain ⟨hr, joins, hr'⟩ := ih
    obtain ⟨rfl, rfl⟩ := (run.replay hr).failed hs hmem failure
    exact ⟨replay_snoc hr hs, joins, hr'⟩
  | @wait D σ h σ' h' s i t bound pick s' _ hi hs ih =>
    obtain ⟨hr, joins, hr'⟩ := ih
    obtain ⟨th, hth, -⟩ := Option.bind_eq_some_iff.mp hs
    obtain rfl := ((run.replay hr).join_section hs).waiting
    refine ⟨by simpa using replay_snoc hr hs, joins.insert hth hi, ?_⟩
    rw [without_insert hi]
    exact hr'
  | @stay D σ h σ' h' s i a s' _ hi hs ih =>
    obtain ⟨hr, joins, hr'⟩ := ih
    obtain ⟨t, bound, woken, rest, hin⟩ := joins i hi
    obtain ⟨th, hth, -⟩ := hin.pop
    obtain rfl := ((run.replay hr).rejoin_section hin hs).waiting
    have hi' : i ∉ D.erase i := Finset.notMem_erase i D
    let waiting := (s.onThread i Thread.pop).onThread i (·.push (.awaitingOutcome t bound false))
    have joins' : waiting.AllJoin (insert i (D.erase i)) :=
      ((joins.erase i).onThread hi').insert hth hi'
    have same : waiting.without (insert i (D.erase i)) = s.without D :=
      (without_insert hi').trans (without_erase hi)
    rw [Finset.insert_erase hi] at joins' same
    exact ⟨by simpa using replay_snoc hr hs, joins', same ▸ hr'⟩
  | @give D σ h σ' h' s i a es s' _ _ _ _ hi hs hmem failure ih =>
    obtain ⟨hr, joins, hr'⟩ := ih
    obtain ⟨t, bound, woken, rest, hin⟩ := joins i hi
    obtain ⟨rfl, rfl⟩ := ((run.replay hr).rejoin_section hin hs).failed hmem failure
    refine ⟨replay_snoc hr hs, (joins.erase i).onThread (Finset.notMem_erase i D), ?_⟩
    rw [without_erase hi]
    exact hr'

/-- Whatever else the first schedule lets known, the second one does too. -/
theorem Omits.others {σ σ' : List (ThreadId × Action)} (run : Run callers h₀ s₀)
    (omits : Omits s₀ D σ h σ' h' s) : h'.Sublist h ∧
      h'.filter (!·.2.isFailure) = h.filter (!·.2.isFailure) := by
  induction omits with
  | start => exact ⟨.refl _, rfl⟩
  | keep _ _ _ ih =>
    refine ⟨ih.1.append_right _, ?_⟩
    rw [List.filter_append, List.filter_append, ih.2]
  | fail before _ hs hmem failure ih =>
    obtain ⟨hr, -⟩ := before.replays run
    obtain ⟨-, rfl⟩ := (run.replay hr).failed hs hmem failure
    refine ⟨ih.1.trans (List.sublist_append_left _ _), ?_⟩
    simp [ih.2, failure.isFailure]
  | wait _ _ _ ih => exact ih
  | stay _ _ _ ih => exact ih
  | give before hi hs hmem failure ih =>
    obtain ⟨hr, joins, -⟩ := before.replays run
    obtain ⟨t, bound, woken, rest, hin⟩ := joins _ hi
    obtain ⟨-, rfl⟩ := ((run.replay hr).rejoin_section hin hs).failed hmem failure
    refine ⟨ih.1.trans (List.sublist_append_left _ _), ?_⟩
    simp [ih.2, failure.isFailure]

/-! ### Rejections -/

/-- Whoever is refused gets a rejection and still has the task, and has the error if it drops the
handle. -/
theorem rejected_step (hop : op = .detach t ∨ op = .destroy t)
    (hs : s.step i (.call op pick) = some (s', es)) (hr : .replied r ∈ es) :
    Failure op r ∧ s' = s ∧ s.canOwn t ∧ ∃ rejection, Rejection.of? op r = some rejection ∧
      r = .rejected rejection.error ∧ rejection.intoTask = t ∧
      rejection.intoParts = (t, rejection.error) ∧
      ∀ pick, ∃ e, s.step i (.call (.drop t) pick) = some e ∧
        rejection.intoError? s i = some (rejection.error, e) := by
  obtain ⟨failure, rfl⟩ : Failure op r ∧ s' = s := by
    rcases refused_section hop hs with rfl | ⟨r', failure, rfl, rfl⟩
    · cases hr
    · obtain rfl : r = r' := by simpa using hr
      exact ⟨failure, rfl⟩
  obtain ⟨e, rejection, rfl, rfl, rejected⟩ : ∃ e rejection, r = .rejected e ∧
      rejection = ⟨t, e⟩ ∧ Rejection.of? op r = some rejection := by
    rcases hop with rfl | rfl <;> cases failure <;> exact ⟨_, _, rfl, rfl, rfl⟩
  obtain ⟨th, hth, hs⟩ := Option.bind_eq_some_iff.mp hs
  obtain ⟨code, task, ht, own⟩ : th.inUserCode ∧ ∃ task, s'.tasks[t]? = some task ∧
      s'.canOwn t := by
    rcases hop with rfl | rfl
    · simp only [call?, Option.bind_eq_bind, Option.ite_none_right_eq_some,
        Option.bind_eq_some_iff] at hs
      obtain ⟨code, task, ht, own, -⟩ := hs
      exact ⟨code, task, ht, own⟩
    · simp only [call?, Option.bind_eq_bind, Option.ite_none_right_eq_some,
        Option.bind_eq_some_iff] at hs
      obtain ⟨code, task, ht, own, -⟩ := hs
      exact ⟨code, task, ht, own⟩
  refine ⟨failure, rfl, own, ⟨t, e⟩, rejected, rfl, rfl, rfl, fun pick => ?_⟩
  simp [step, hth, code, call?, ht, own, Rejection.intoError?]

theorem Run.last_moment (run : Run callers h s)
    (hi : s.Inside i (.awaitingOutcome t bound woken :: rest)) (hs : s.step i a = some (s', es))
    (hfin : (s.task t).slot.state = .finished) : ∃ o, (s.task t).slot.outcome = some o ∧
      es = [.joined t (some o), .replied (joinReply t (some o))] := by
  obtain ⟨task, ht, hjoin⟩ := hi.resumesJoin hs
  rw [task_eq ht] at hfin ⊢
  have takes : s.takeOutcome i t task = (s', es) := by
    obtain hjoin | ⟨nanos, -, hjoin⟩ := hjoin
    · rwa [resumeJoin, if_pos hfin] at hjoin
    · rwa [expireJoin, if_pos hfin] at hjoin
  have hh : s.standing t = some (true, .pool) := run.calls.relies.inside hi
  rw [standing_eq ht, Option.some.injEq, Prod.mk.injEq] at hh
  obtain ⟨o, ho⟩ := run.outcome ht hh.1 hh.2 hfin
  rw [takeOutcome, ho] at takes
  cases takes
  exact ⟨o, ho, rfl⟩

/-! ### Calls that fail -/

/-- Calls on tasks that fail leave no trace. -/
structure NoTrace (s : System) : Prop where
  atOnce : ∀ {i op pick es s' r}, s.step i (.call op pick) = some (s', es) → .replied r ∈ es →
    Failure op r → s' = s ∧ es = [.replied r]
  /-- A join that waits is nothing but a frame of its thread. -/
  waits : ∀ {i t bound pick s'}, s.step i (.call (.join t bound) pick) = some (s', []) →
    s' = s.onThread i (·.push (.awaitingOutcome t bound false))
  waitsOn : ∀ {i t bound woken rest a s'}, s.Inside i (.awaitingOutcome t bound woken :: rest) →
    s.step i a = some (s', []) → s' = s.enter i (.awaitingOutcome t bound false)
  givesUp : ∀ {i t bound woken rest a es s' r},
    s.Inside i (.awaitingOutcome t bound woken :: rest) → s.step i a = some (s', es) →
    .replied r ∈ es → Failure (.join t bound) r →
    s' = s.onThread i Thread.pop ∧ es = [.replied r]
  /-- An outcome that is there at the last moment is taken. -/
  lastMoment : ∀ {i t bound woken rest a es s'},
    s.Inside i (.awaitingOutcome t bound woken :: rest) → s.step i a = some (s', es) →
    (s.task t).slot.state = .finished → ∃ o, (s.task t).slot.outcome = some o ∧
      es = [.joined t (some o), .replied (joinReply t (some o))]
  /-- A run that is rid of calls that fail goes through the same tasks and pools and lets everything
  else known, whether or not some of the calls still wait. -/
  omitted : ∀ {D σ h σ' h' s'}, Omits s D σ h σ' h' s' → s.replay σ = some (h, s') ∧
    (∃ w, s.replay σ' = some (h', w) ∧ w.tasks = s'.tasks ∧ w.pools = s'.pools ∧
      (D = ∅ → w = s')) ∧
    h'.Sublist h ∧ h'.filter (!·.2.isFailure) = h.filter (!·.2.isFailure)
  /-- A detachment or a destruction that replies at the call is refused, and its caller gets a
  rejection that gives the task back. Turning it into its error drops the task instead. -/
  rejected : ∀ {i op pick es s' r t}, op = .detach t ∨ op = .destroy t →
    s.step i (.call op pick) = some (s', es) → .replied r ∈ es →
    Failure op r ∧ s' = s ∧ s.canOwn t ∧ ∃ rejection, Rejection.of? op r = some rejection ∧
      r = .rejected rejection.error ∧ rejection.intoTask = t ∧
      rejection.intoParts = (t, rejection.error) ∧
      ∀ pick, ∃ e, s.step i (.call (.drop t) pick) = some e ∧
        rejection.intoError? s i = some (rejection.error, e)

theorem Run.no_trace (run : Run callers h s) : s.NoTrace where
  atOnce := run.failed
  waits hs := (run.join_section hs).waiting
  waitsOn hi hs := (run.rejoin_section hi hs).waiting.trans enter_eq.symm
  givesUp hi hs hr failure := (run.rejoin_section hi hs).failed hr failure
  lastMoment := run.last_moment
  omitted {D σ h σ' h' s'} omits := by
    obtain ⟨hr, -, hr'⟩ := omits.replays run
    refine ⟨hr, ⟨_, hr', rfl, rfl, ?_⟩, omits.others run⟩
    rintro rfl
    exact without_empty s'
  rejected := rejected_step

/-- A caller tries to destroy a task that runs, looks for an outcome that is not there, then waits
for it in vain while the work ends, and takes it in a third join. The third join alone takes it as
well. Both kinds of refusals hand the task back. -/
theorem no_trace_twoTimeouts :
    (∃ h s σ h₁ σ' h₂ s', Run 1 h s ∧ s.NoTrace ∧ Omits s ∅ σ h₁ σ' h₂ s' ∧
      σ.length = σ'.length + 4 ∧ h₁.countP (·.2.isFailure) = 3 ∧
      h₂.countP (·.2.isFailure) = 0 ∧ h₂.getLast? = some (0, .replied (.value 1 .null)) ∧
      Rejection.of? (.destroy 0) (.rejected (.stillOwnedByPool 1)) =
        some ⟨0, .stillOwnedByPool 1⟩) ∧
    ∃ h s e rejection, Run 1 h s ∧ s.NoTrace ∧
      s.step 0 (.call (.detach 0) 0) = some (s, [.replied (.rejected .notSubmitted)]) ∧
      Rejection.of? (.detach 0) (.rejected .notSubmitted) = some rejection ∧
      rejection.intoTask = 0 ∧ s.step 0 (.call (.drop 0) 0) = some e ∧
      rejection.intoError? s 0 = some (.notSubmitted, e) := by
  have created : Run 1 _ _ := run_of_replay [(0, .call (.createPool (.new 1)) 0),
    (0, .call (.createTask none) 0)] rfl
  have run : Run 1 _ _ := run_of_replay [(0, .call (.createPool (.new 1)) 0),
    (0, .call (.createTask none) 0), (0, .call (.submit 0 0) 0), (1, .advance 0), (0, .advance 0),
    (1, .advance 0), (1, .advance 0)] rfl
  have start {s : System} (_ : ∃ h, Run 1 h s) : Omits s ∅ [] [] [] [] s := .start
  have refused := (start ⟨_, run⟩).fail (by simp)
    (show step _ 0 (.call (.destroy 0) 0) = some _ from rfl) (.head _) (.undestroyed 0 1)
  have polled := refused.fail (by simp)
    (show step _ 0 (.call (.join 0 (some 0)) 0) = some _ from rfl) (.head _)
    (.expired 0 (some 0) 0)
  have waiting := polled.wait (by simp)
    (show step _ 0 (.call (.join 0 (some 5)) 0) = some _ from rfl)
  have worked := waiting.along (τ := [(1, .finish (.ok .null)), (1, .advance 0)]) (by simp) rfl
  have gone := worked.give (by simp) (show step _ 0 .expire = some _ from rfl) (.head _)
    (.expired 0 (some 5) 0)
  have joined := gone.along
    (τ := [(1, .advance 0), (1, .advance 0), (0, .call (.join 0 none) 0)]) (by simp) rfl
  refine ⟨⟨_, _, _, _, _, _, _, run, run.no_trace, joined, rfl, rfl, rfl, rfl, rfl⟩, ?_⟩
  have handed {h : Trace} {s : System} (run : Run 1 h s)
      (hs : s.step 0 (.call (.detach 0) 0) = some (s, [.replied (.rejected .notSubmitted)])) :
      ∃ h s e rejection, Run 1 h s ∧ s.NoTrace ∧
        s.step 0 (.call (.detach 0) 0) = some (s, [.replied (.rejected .notSubmitted)]) ∧
        Rejection.of? (.detach 0) (.rejected .notSubmitted) = some rejection ∧
        rejection.intoTask = 0 ∧ s.step 0 (.call (.drop 0) 0) = some e ∧
        rejection.intoError? s 0 = some (.notSubmitted, e) := by
    obtain ⟨-, -, -, rejection, rejected, error, back, -, drops⟩ :=
      run.no_trace.rejected (.inl rfl) hs (List.mem_singleton_self _)
    obtain ⟨e, hdrop, herror⟩ := drops 0
    rw [← Reply.rejected.inj error] at herror
    exact ⟨h, s, e, rejection, run, run.no_trace, hs, rejected, back, hdrop, herror⟩
  exact handed created rfl

end System

end WorkerPool
