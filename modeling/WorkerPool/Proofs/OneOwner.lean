import WorkerPool.Proofs.SlotStates
import WorkerPool.Proofs.Submissions
import WorkerPool.Proofs.Takers

/-!
One owner at a time.

Any number of threads may submit one task to any number of pools. The pools take it as often as
joins give it back, and once more as long as it is out of its caller's hands. So of submissions that
race for a task one succeeds, and the others find it taken.
-/
namespace WorkerPool

namespace Event

/-- Whether a join gives the task back to its caller. -/
def givesBack (t : TaskId) : Event → Bool
  | joined u (some _) => u == t
  | _ => false

def reply? : Event → Option Reply
  | replied r => some r
  | _ => none

end Event

namespace Reply

def isDone : Reply → Bool
  | done => true
  | _ => false

/-- A submission fails for a reason that lies with the pool, and not with the task. -/
def blamesPool : Reply → Bool
  | failed (.tooManyTasks ..) | failed .shutDown | failed (.spawnFailed ..) => true
  | _ => false

end Reply

/-- A submission of a task that its caller owns fails because of the pool. -/
theorem Declines.blamesPool {pool : Pool} {t : TaskId} {task : Task} {err : PoolError}
    (declines : Declines pool t task err) (ho : task.slot.ownership = .caller) :
    (Reply.failed err).blamesPool := by
  cases declines with
  | refusal hr =>
    unfold Pool.refusal at hr
    split at hr
    · cases hr
      rfl
    · split at hr
      · cases hr
        rfl
      · cases hr
  | owned _ hne => exact absurd ho hne
  | unstaffed _ _ _ _ => rfl

theorem Pool.replies_receipt (p : PoolId) (pool : Pool) (t : TaskId) :
    (pool.receipt p t).filterMap Event.reply? = [.done] := rfl

theorem Pool.buys_receipt (p : PoolId) (pool : Pool) (t : TaskId) :
    (pool.receipt p t).countP (·.buys t) = 1 := by
  simp [receipt, Event.buys]

/-- Whether a pool has accepted the task and no join has given it back. -/
def Stage.taken : Stage → Nat
  | resting _ => 0
  | accepted .. | started .. | ended .. => 1

/-- Joins that have given the task back. -/
def Trace.joinings (h : Trace) (t : TaskId) : Nat := h.countP fun e => e.2.givesBack t

section traces

variable {h h₁ h₂ : Trace} {i : ThreadId} {e : Event} {t : TaskId} {st : Stage}
  {employer : ThreadId → Option PoolId}

theorem Event.givesBack_of_other (h : e.concerns t = false) : e.givesBack t = false := by
  cases e with
  | joined u r => cases r <;> simp_all [concerns, givesBack]
  | _ => rfl

theorem Trace.joinings_concat : Trace.joinings (h ++ [(i, e)]) t =
    h.joinings t + if e.givesBack t then 1 else 0 := by
  simp [joinings, List.countP_append, List.countP_singleton]

theorem Trace.joinings_append : Trace.joinings (h₁ ++ h₂) t = h₁.joinings t + h₂.joinings t :=
  List.countP_append

theorem Trace.submissions_append :
    Trace.submissions (h₁ ++ h₂) t = h₁.submissions t + h₂.submissions t :=
  List.countP_append

theorem Trace.joinings_eq_zero (hno : ∀ k o, (k, .joined t (some o)) ∉ h) : h.joinings t = 0 := by
  refine List.countP_eq_zero.mpr fun ⟨k, e⟩ hmem hback => ?_
  cases e with
  | joined u r =>
    cases r with
    | none => cases hback
    | some o =>
      obtain rfl : u = t := beq_iff_eq.mp hback
      exact hno k o hmem
  | _ => cases hback

/-- The task is given back as often as it is taken, or once less. -/
theorem Story.balance (story : Story employer t h st) :
    h.submissions t = h.joinings t + st.taken := by
  induction story with
  | nil => rfl
  | other i _ hc ih =>
    rw [Trace.submissions_concat, Trace.joinings_concat, ih, Event.buys_of_other hc,
      Event.givesBack_of_other hc]
    rfl
  | accepted i p n _ ih | started _ _ ih | ended _ _ ih | joined i _ ih =>
    rw [Trace.submissions_concat, Trace.joinings_concat, ih]
    simp [Event.buys, Event.givesBack, Stage.taken]

theorem Stage.taken_le (st : Stage) : st.taken ≤ 1 := by
  cases st <;> simp [taken]

theorem Story.taken_submitted {p : PoolId} {n : Nat}
    (story : Story employer t (h ++ [(i, .log (.submitted p t n))]) st) : st.taken = 1 := by
  obtain ⟨-, hc⟩ | ⟨m, q, k, -, he, rfl⟩ | ⟨m, q, -, -, he, -⟩ | ⟨m, q, o, -, -, he, -⟩ |
    ⟨m, o, -, he, -⟩ := story.last
  · simp [Event.concerns] at hc
  · rfl
  · cases he
  · cases he
  · cases he

theorem Story.taken_ended {o : Outcome} (story : Story employer t (h ++ [(i, .ended t o)]) st) :
    st.taken = 1 := by
  obtain ⟨-, hc⟩ | ⟨m, q, k, -, he, -⟩ | ⟨m, q, -, -, he, -⟩ | ⟨m, q, o, -, -, he, rfl⟩ |
    ⟨m, o, -, he, -⟩ := story.last
  · simp [Event.concerns] at hc
  · cases he
  · cases he
  · rfl
  · cases he

/-- A task that has been taken after some events, and not been given back since, is still taken. -/
theorem Story.still_taken (story : Story employer t (h₁ ++ (i, e) :: h₂) st)
    (told : ∀ {st₁}, Story employer t (h₁ ++ [(i, e)]) st₁ → st₁.taken = 1)
    (hno : ∀ k o, (k, .joined t (some o)) ∉ h₂) : st.taken = 1 := by
  rw [List.append_cons] at story
  obtain ⟨st₁, story₁⟩ := story.before
  have before := story₁.balance
  have after := story.balance
  have := told story₁
  have := Trace.joinings_eq_zero hno
  have := st.taken_le
  have hsub : Trace.submissions (h₁ ++ [(i, e)] ++ h₂) t =
      Trace.submissions (h₁ ++ [(i, e)]) t + h₂.submissions t := Trace.submissions_append
  have hjoin : Trace.joinings (h₁ ++ [(i, e)] ++ h₂) t =
      Trace.joinings (h₁ ++ [(i, e)]) t + h₂.joinings t := Trace.joinings_append
  omega

/-- Between two acceptances the task is given back. -/
theorem Story.given_back {h₃ : Trace} {j : ThreadId} {p q : PoolId} {m n : Nat}
    (story : Story employer t
      (h₁ ++ (i, .log (.submitted p t m)) :: h₂ ++ (j, .log (.submitted q t n)) :: h₃) st) :
    ∃ k o, (k, .joined t (some o)) ∈ h₂ := by
  rw [List.append_cons _ (j, _)] at story
  obtain ⟨st₂, last⟩ := story.before
  by_contra hno
  -- The second acceptance has to find the task at rest.
  obtain ⟨k, rests⟩ : ∃ k, Story employer t (h₁ ++ (i, .log (.submitted p t m)) :: h₂)
      (.resting k) := by
    obtain ⟨-, hc⟩ | ⟨k, r, x, rests, -, -⟩ | ⟨k, r, -, -, he, -⟩ | ⟨k, r, o, -, -, he, -⟩ |
      ⟨k, o, -, he, -⟩ := last.last
    · simp [Event.concerns] at hc
    · exact ⟨k, rests⟩
    · cases he
    · cases he
    · cases he
  have := rests.still_taken Story.taken_submitted fun k o hmem => hno ⟨k, o, hmem⟩
  cases this

end traces

namespace Record.At

variable {r : Record} {st : Stage} {life : Life} {p : PoolId} {i : ThreadId} {phase : Phase}

/-- A task that its caller owns rests. -/
theorem taken_caller (hat : r.At st life) (hh : r.handle) (ho : r.slot.ownership = .caller) :
    st.taken = 0 := by
  obtain rfl := Record.Kept.life_caller hat hh ho
  rw [hat.agrees.1]
  rfl

theorem taken_owned (hat : r.At st life) (ho : r.slot.ownership ≠ .caller) : st.taken = 1 := by
  cases st with
  | resting n =>
    obtain rfl := hat.idle
    exact absurd hat.agrees.2.1 ho
  | _ => rfl

/-- A task that its caller owns is in no queue and in nobody's hands. -/
theorem free_caller (hat : r.At st life) (hh : r.handle) (ho : r.slot.ownership = .caller) :
    (∀ p, r.queued p = 0) ∧ ∀ i, r.bearing i = none := by
  obtain rfl := Record.Kept.life_caller hat hh ho
  exact ⟨fun p => congrFun hat.queued p, fun i => congrFun hat.bearing i⟩

end Record.At

namespace System

variable {s s' s'' : System} {i : ThreadId} {p q : PoolId} {t : TaskId} {task : Task} {pool : Pool}
  {a : Action} {es : List Event} {h h' h₁ h₂ : Trace} {rs : List Reply}
  {callers n : Nat} {o : Outcome}

/-! ### Custody -/

/-- The task is in the queue of the pool, or a worker of the pool has it in hands. -/
def InCustody (s : System) (p : PoolId) (t : TaskId) : Prop :=
  (∃ pool, s.pools[p]? = some pool ∧ t ∈ pool.queue.entries) ∨
    ∃ i phase, s.Has i p phase ∧ phase.task? = some t

theorem InCustody.record (custody : s.InCustody p t) :
    (s.record t).queued p ≠ 0 ∨ ∃ i phase, (s.record t).bearing i = some (p, phase) := by
  obtain ⟨pool, hp, hmem⟩ | ⟨i, phase, has, ht⟩ := custody
  · left
    rw [queued_eq hp]
    exact (List.count_pos_iff.mpr hmem).ne'
  · exact .inr ⟨i, phase, has.bearing ht⟩

theorem InCustody.unique (run : Run callers h s) (hp : s.InCustody p t) (hq : s.InCustody q t) :
    p = q := by
  obtain ⟨life, st, hat, -⟩ := run.kept t
  have pool_of {p : PoolId} (custody : s.InCustody p t) :
      life = .queued p ∨ ∃ i phase, life = .carried p i phase := by
    rcases custody.record with hqueue | ⟨i, phase, hb⟩
    · exact .inl (hat.of_queued hqueue)
    · exact .inr ⟨i, phase, hat.of_bearing hb⟩
  rcases pool_of hp with rfl | ⟨i, phase, rfl⟩
  · rcases pool_of hq with h | ⟨j, phase', h⟩
    · cases h
      rfl
    · cases h
  · rcases pool_of hq with h | ⟨j, phase', h⟩
    · cases h
    · cases h
      rfl

theorem InCustody.owned (run : Run callers h s) (custody : s.InCustody p t)
    (ht : s.tasks[t]? = some task) (hh : task.handle) : task.slot.ownership ≠ .caller := by
  intro ho
  obtain ⟨life, st, hat, -⟩ := run.kept t
  obtain ⟨hqueue, hb⟩ := hat.free_caller ((record_handle ht).trans hh)
    ((congrArg Slot.ownership (record_slot ht)).trans ho)
  rcases custody.record with hne | ⟨i, phase, hb'⟩
  · exact hne (hqueue p)
  · rw [hb i] at hb'
    cases hb'

/-! ### Ownership -/

theorem Run.pool_of_owned (run : Run callers h s) (ht : s.tasks[t]? = some task)
    (hh : task.handle) (hne : task.slot.ownership ≠ .caller) : task.slot.ownership = .pool := by
  have hnd := run.not_detached ht hh
  cases ho : task.slot.ownership with
  | caller => exact absurd ho hne
  | pool => rfl
  | detached => exact absurd ho hnd

/-- A task that has been taken and not given back is owned by a pool. -/
theorem Run.owned_of_taken (run : Run callers h s) (ht : s.tasks[t]? = some task)
    (hh : task.handle)
    (taken : ∀ {st}, Story s.employer t h st → st.taken = 1) : task.slot.ownership = .pool := by
  obtain ⟨life, st, hat, story⟩ := run.kept t
  refine run.pool_of_owned ht hh fun ho => ?_
  have := hat.taken_caller ((record_handle ht).trans hh)
    ((congrArg Slot.ownership (record_slot ht)).trans ho)
  have := taken story
  omega

theorem Run.owned_since (run : Run callers h s) (ht : s.tasks[t]? = some task) (hh : task.handle)
    (hsplit : h = h₁ ++ (i, .log (.submitted p t n)) :: h₂)
    (hno : ∀ k o, (k, .joined t (some o)) ∉ h₂) : task.slot.ownership = .pool :=
  run.owned_of_taken ht hh fun story => (hsplit ▸ story).still_taken Story.taken_submitted hno

theorem Run.owned_ended (run : Run callers h s) (ht : s.tasks[t]? = some task) (hh : task.handle)
    (hsplit : h = h₁ ++ (i, .ended t o) :: h₂) (hno : ∀ k o, (k, .joined t (some o)) ∉ h₂) :
    task.slot.ownership = .pool :=
  run.owned_of_taken ht hh fun story => (hsplit ▸ story).still_taken Story.taken_ended hno

/-- The step is one of a join of the task. -/
inductive Collects (s : System) (i : ThreadId) (t : TaskId) : Action → Prop
  | call (bound : Bound) (pick : Pick) : Collects s i t (.call (.join t bound) pick)
  | goOn {bound : Bound} {woken : Bool} {rest : List Frame} (a : Action) :
      s.Inside i (.awaitingOutcome t bound woken :: rest) → Collects s i t a

/-- A join that times out leaves the task to its pool. -/
theorem Run.owned_timeout (run : Run callers h s) (collects : s.Collects i t a)
    (hs : s.step i a = some (s', es)) (out : .replied (.failed (.timeout n)) ∈ es) :
    (s'.task t).slot.ownership = .pool := by
  have taken {s₁ : System} {task : Task} (he : s₁.takeOutcome i t task = (s', es)) : False := by
    cases he
    rcases ho : task.slot.outcome with _ | ⟨run, v | m⟩ <;> simp [reply, joinReply, ho] at out
  cases collects with
  | call bound pick =>
    obtain ⟨th, hth, hs⟩ := Option.bind_eq_some_iff.mp hs
    simp only [call?, Option.bind_eq_bind, Option.ite_none_right_eq_some,
      Option.bind_eq_some_iff, Option.some.injEq] at hs
    obtain ⟨-, task, ht, -, he⟩ := hs
    unfold join at he
    split at he
    · cases he
      simp at out
    · next ho =>
      split at he
      · exact (taken he).elim
      · split at he
        · cases he
          exact (congrArg (fun task => task.slot.ownership) (task_eq ht)).trans (not_not.mp ho)
        · cases he
          cases out
  | @goOn bound woken rest a hi =>
    obtain ⟨task, ht, he | ⟨nanos, -, he⟩⟩ := hi.resumesJoin hs
    · unfold resumeJoin at he
      split at he
      · exact (taken he).elim
      · cases he
        cases out
    · unfold expireJoin at he
      split at he
      · exact (taken he).elim
      · cases he
        exact (congrArg (fun task => task.slot.ownership) (task_eq ht)).trans
          (run.calls.owned hi ht)

/-! ### Races -/

/-- Whether the step is one of a submission of the task. -/
def submits (s : System) (i : ThreadId) (t : TaskId) (a : Action) : Bool :=
  (match a with
    | .call (.submit _ u) _ => u == t
    | _ => false) ||
  s.threads[i]?.any fun th => th.calls.head?.any (Frame.submits t)

/-- What the step answers to a submission of the task. -/
def results (s : System) (i : ThreadId) (t : TaskId) (a : Action) (es : List Event) : List Reply :=
  if s.submits i t a then es.filterMap Event.reply? else []

theorem submits_iff : s.submits i t a ↔ ∃ p, s.Attempts i p t a := by
  have inside : (s.threads[i]?.any fun th => th.calls.head?.any (Frame.submits t)) ↔
      ∃ p woken rest, s.Inside i (.awaitingWorker p t woken :: rest) := by
    simp only [Option.any_eq_true]
    constructor
    · rintro ⟨th, hth, f, hf, hsub⟩
      obtain ⟨rest, hc⟩ := List.head?_eq_some_iff.mp hf
      cases f with
      | awaitingWorker p u woken =>
        obtain rfl : u = t := beq_iff_eq.mp hsub
        exact ⟨p, woken, rest, th, hth, hc⟩
      | _ => cases hsub
    · rintro ⟨p, woken, rest, th, hth, hc⟩
      exact ⟨th, hth, .awaitingWorker p t woken, by simp [hc], by simp [Frame.submits]⟩
  unfold submits
  rw [Bool.or_eq_true, inside]
  constructor
  · rintro (hcall | ⟨p, woken, rest, hi⟩)
    · split at hcall
      · next p u pick =>
        obtain rfl : u = t := beq_iff_eq.mp hcall
        exact ⟨p, .call pick⟩
      · cases hcall
    · exact ⟨p, .goOn a hi⟩
  · rintro ⟨p, tries⟩
    cases tries with
    | call pick => exact .inl (beq_self_eq_true t)
    | goOn a hi => exact .inr ⟨p, _, _, hi⟩

theorem countP_results (calls : s.Calls) (hs : s.step i a = some (s', es)) :
    (s.results i t a es).countP Reply.isDone = es.countP (·.buys t) := by
  by_cases hsub : s.submits i t a
  · obtain ⟨p, tries⟩ := submits_iff.mp hsub
    obtain ⟨pool, task, -, -, -, attempt⟩ := tries.attempt calls hs
    rw [results, if_pos hsub]
    cases attempt with
    | declined _ _ _ => rfl
    | hires _ _ _ _ => rfl
    | waits _ _ _ _ _ => rfl
    | accepted _ _ _ _ _ =>
      rw [Pool.replies_receipt, Pool.buys_receipt]
      rfl
  · have none : es.countP (·.buys t) = 0 := by
      refine List.countP_eq_zero.mpr fun ev hev hb => hsub ?_
      obtain ⟨p, -, tries, -⟩ := submitted_by calls hs hev hb
      exact submits_iff.mpr ⟨p, tries⟩
    rw [results, if_neg hsub, none]
    rfl

/-- From the first state threads have come to another one, and no join of the task has succeeded;
what they have told, and how submissions of the task have ended. -/
inductive Race (t : TaskId) (s : System) : Trace → List Reply → System → Prop
  | start : Race t s [] [] s
  | step {h : Trace} {rs : List Reply} {s' s'' : System} {i : ThreadId} {a : Action}
      {es : List Event} : Race t s h rs s' → s'.step i a = some (s'', es) →
      es.all (!·.givesBack t) → Race t s (h ++ es.map (i, ·))
        (rs ++ s'.results i t a es) s''

theorem Race.run (race : Race t s h' rs s') (run : Run callers h s) : Run callers (h ++ h') s' := by
  induction race with
  | start => simpa using run
  | step _ hs _ ih => simpa using ih.step hs

theorem Race.joinings (race : Race t s h' rs s') : h'.joinings t = 0 := by
  induction race with
  | start => rfl
  | @step h' rs s' s'' i a es _ _ hno ih =>
    have hmap : Trace.joinings (es.map (i, ·)) t = 0 := by
      simp only [Trace.joinings, List.countP_map, List.countP_eq_zero]
      intro ev hev
      simpa using List.all_eq_true.mp hno ev hev
    rw [Trace.joinings_append, ih, hmap]

/-- How the submissions of the task end that a schedule brings to an end. -/
def answers (t : TaskId) : List (ThreadId × Action) → System → List Reply
  | [], _ => []
  | (i, a) :: rest, s =>
    match s.step i a with
    | none => []
    | some (s', es) => s.results i t a es ++ answers t rest s'

/-- A schedule without a join of the task that succeeds gives a race. -/
theorem Race.replay (schedule : List (ThreadId × Action)) (race : Race t s h rs s')
    (hr : s'.replay schedule = some (h', s'')) (hno : h'.joinings t = 0) :
    Race t s (h ++ h') (rs ++ answers t schedule s') s'' := by
  induction schedule generalizing h h' rs s' with
  | nil =>
    cases hr
    simpa [answers] using race
  | cons move rest ih =>
    obtain ⟨i, a⟩ := move
    obtain ⟨s₁, es, h₂, hs, hr₂, rfl⟩ := replay_cons hr
    rw [Trace.joinings_append, Nat.add_eq_zero_iff] at hno
    have quiet : es.all (!·.givesBack t) := by
      have := List.countP_eq_zero.mp hno.1
      simpa using this
    have := ih (race.step hs quiet) hr₂ hno.2
    simpa [answers, hs] using this

/-- As many submissions have succeeded as the pools have accepted. -/
theorem Race.countP_done (race : Race t s h' rs s') (run : Run callers h s) :
    rs.countP Reply.isDone = h'.submissions t := by
  induction race with
  | start => rfl
  | @step h' rs s' s'' i a es race hs _ ih =>
    have hmap : Trace.submissions (es.map (i, ·)) t = es.countP (·.buys t) := by
      simp [Trace.submissions, List.countP_map, Function.comp_def]
    rw [List.countP_append, Trace.submissions_append, ih, hmap,
      countP_results (race.run run).calls hs]

theorem Race.le_one (race : Race t s h' rs s') (run : Run callers h s) :
    rs.countP Reply.isDone ≤ 1 := by
  obtain ⟨-, st, -, story⟩ := run.kept t
  obtain ⟨-, st', -, story'⟩ := (race.run run).kept t
  have before := story.balance
  have after := story'.balance
  have := race.joinings
  have := st'.taken_le
  rw [Trace.submissions_append, Trace.joinings_append] at after
  rw [race.countP_done run]
  omega

/-- Nobody succeeds with a task that is out of its caller's hands. -/
theorem Race.eq_zero (race : Race t s h' rs s') (run : Run callers h s)
    (ho : (s.task t).slot.ownership ≠ .caller) : rs.countP Reply.isDone = 0 := by
  obtain ⟨life, st, hat, story⟩ := run.kept t
  obtain ⟨-, st', -, story'⟩ := (race.run run).kept t
  have before := story.balance
  have after := story'.balance
  have := hat.taken_owned ho
  have := race.joinings
  have := st'.taken_le
  rw [Trace.submissions_append, Trace.joinings_append] at after
  rw [race.countP_done run]
  omega

/-- The task stays with its caller until a submission succeeds. -/
theorem Race.owned_caller (race : Race t s h' rs s') (run : Run callers h s)
    (ht : s.tasks[t]? = some task) (hh : task.handle) (ho : task.slot.ownership = .caller)
    (hrs : rs.countP Reply.isDone = 0) : (s'.task t).slot.ownership = .caller := by
  obtain ⟨life, st, hat, story⟩ := run.kept t
  obtain ⟨life', st', hat', story'⟩ := (race.run run).kept t
  by_contra hne
  have before := story.balance
  have after := story'.balance
  have := hat.taken_caller ((record_handle ht).trans hh)
    ((congrArg Slot.ownership (record_slot ht)).trans ho)
  have := hat'.taken_owned hne
  have := race.joinings
  rw [race.countP_done run] at hrs
  rw [Trace.submissions_append, Trace.joinings_append] at after
  omega

/-- A task of its caller goes to a pool unless pools are to blame. -/
theorem Race.eq_one (race : Race t s h' rs s') (run : Run callers h s)
    (ht : s.tasks[t]? = some task) (hh : task.handle) (ho : task.slot.ownership = .caller)
    (hne : rs ≠ []) (fair : ∀ r ∈ rs, r.blamesPool = false) : rs.countP Reply.isDone = 1 := by
  suffices rs.countP Reply.isDone ≠ 0 by
    have := race.le_one run
    omega
  intro hrs
  induction race with
  | start => exact hne rfl
  | @step h' rs s' s'' i a es race hs _ ih =>
    rw [List.countP_append, Nat.add_eq_zero_iff] at hrs
    obtain ⟨hrs, hres⟩ := hrs
    by_cases hnil : s'.results i t a es = []
    · rw [hnil, List.append_nil] at hne fair
      exact ih hne fair hrs
    · -- The submission that is answered finds the task in its caller's hands.
      have caller := race.owned_caller run ht hh ho hrs
      have hsub : s'.submits i t a := by
        by_contra hno
        exact hnil (if_neg hno)
      obtain ⟨p, tries⟩ := submits_iff.mp hsub
      obtain ⟨pool, task', -, ht', -, attempt⟩ := tries.attempt (race.run run).calls hs
      rw [task_eq ht'] at caller
      rw [results, if_pos hsub] at hres hnil fair
      cases attempt with
      | @declined _ err declines _ _ =>
        have := fair (.failed err) (by simp [Event.reply?])
        rw [declines.blamesPool caller] at this
        cases this
      | hires _ _ _ _ => exact hnil rfl
      | waits _ _ _ _ _ => exact hnil rfl
      | accepted _ _ _ _ _ => simp [Pool.replies_receipt, Reply.isDone] at hres

/-! ### One owner -/

/-- The step of the submission comes to the question who owns the task: the pool takes submissions,
and if the submission has waited for workers, all have registered. -/
def AsksOwner (s : System) (i : ThreadId) (p : PoolId) (t : TaskId) (pool : Pool) : Prop :=
  pool.refusal = none ∧
    (pool.unregistered = 0 ∨ ¬ ∃ woken rest, s.Inside i (.awaitingWorker p t woken :: rest))

/-- Who can have the task, and when. -/
structure OneOwner (h : Trace) (s : System) (t : TaskId) : Prop where
  /-- Between two submissions that succeed, a join gives the task back to its caller. -/
  between : ∀ {h₁ h₂ h₃ i j p q m n},
    h = h₁ ++ (i, .log (.submitted p t m)) :: h₂ ++ (j, .log (.submitted q t n)) :: h₃ →
    ∃ k o, (k, .joined t (some o)) ∈ h₂
  /-- A submission succeeds exactly if its pool takes the task. -/
  succeeds : ∀ {i p a s' es}, s.Attempts i p t a → s.step i a = some (s', es) →
    (.replied .done ∈ es ↔ ∃ n, .log (.submitted p t n) ∈ es)
  /-- Of submissions that race for a task one succeeds at most, -/
  at_most : ∀ {h' rs s'}, Race t s h' rs s' → rs.countP Reply.isDone ≤ 1
  /-- none if the task is out of its caller's hands, -/
  none : ∀ {h' rs s'}, Race t s h' rs s' → (s.task t).slot.ownership ≠ .caller →
    rs.countP Reply.isDone = 0
  /-- and exactly one if its caller has it and no submission meets a full or a closed pool, or one
  that cannot start a worker. -/
  exactly : ∀ {task h' rs s'}, Race t s h' rs s' → s.tasks[t]? = some task → task.handle →
    task.slot.ownership = .caller → rs ≠ [] → (∀ r ∈ rs, r.blamesPool = false) →
    rs.countP Reply.isDone = 1
  custody : ∀ {p q}, s.InCustody p t → s.InCustody q t → p = q
  /-- As long as the task is out of its caller's hands, submissions of it are refused as soon as
  they ask who owns it, -/
  refuses : ∀ {i p a s' es task pool}, s.Attempts i p t a → s.step i a = some (s', es) →
    s.tasks[t]? = some task → s.pools[p]? = some pool → task.slot.ownership ≠ .caller →
    s.AsksOwner i p t pool →
    es = [.replied (.failed (.alreadySubmitted (LogRecord.number t)))]
  /-- and whether they come to that or not, they change no task and no pool. -/
  untouched : ∀ {i p a s' es task}, s.Attempts i p t a → s.step i a = some (s', es) →
    s.tasks[t]? = some task → task.slot.ownership ≠ .caller →
    s'.tasks = s.tasks ∧ s'.pools = s.pools ∧ .replied .done ∉ es
  /-- The task is out of its caller's hands from a submission that succeeds to a join, -/
  owned : ∀ {h₁ h₂ i p n task}, s.tasks[t]? = some task → task.handle →
    h = h₁ ++ (i, .log (.submitted p t n)) :: h₂ → (∀ k o, (k, .joined t (some o)) ∉ h₂) →
    task.slot.ownership = .pool
  /-- be it queued or in the hands of a worker, -/
  claimed : ∀ {p task}, s.tasks[t]? = some task → task.handle → s.InCustody p t →
    task.slot.ownership = .pool
  /-- finished and not joined, -/
  finished : ∀ {h₁ h₂ i o task}, s.tasks[t]? = some task → task.handle →
    h = h₁ ++ (i, .ended t o) :: h₂ → (∀ k o, (k, .joined t (some o)) ∉ h₂) →
    task.slot.ownership = .pool
  /-- or be it that a join of it has timed out. -/
  timed_out : ∀ {i a s' es n}, s.Collects i t a → s.step i a = some (s', es) →
    .replied (.failed (.timeout n)) ∈ es → (s'.task t).slot.ownership = .pool

theorem Attempts.done_iff (tries : s.Attempts i p t a) (calls : s.Calls)
    (hs : s.step i a = some (s', es)) :
    .replied .done ∈ es ↔ ∃ n, .log (.submitted p t n) ∈ es := by
  obtain ⟨pool, task, -, -, -, attempt⟩ := tries.attempt calls hs
  cases attempt with
  | declined _ _ _ => simp
  | hires _ _ _ _ => simp
  | waits _ _ _ _ _ => simp
  | accepted _ _ _ _ _ => simp [Pool.receipt]

theorem Attempts.untouched (tries : s.Attempts i p t a) (calls : s.Calls)
    (hs : s.step i a = some (s', es)) (ht : s.tasks[t]? = some task)
    (ho : task.slot.ownership ≠ .caller) :
    s'.tasks = s.tasks ∧ s'.pools = s.pools ∧ .replied .done ∉ es := by
  obtain ⟨pool, task', -, ht', -, attempt⟩ := tries.attempt calls hs
  obtain rfl : task = task' := Option.some.inj (ht.symm.trans ht')
  cases attempt with
  | declined _ hpools htasks => exact ⟨htasks, hpools, by simp⟩
  | hires hc _ _ _ => exact absurd hc ho
  | waits _ _ hpools htasks _ => exact ⟨htasks, hpools, by simp⟩
  | accepted _ _ _ hc _ => exact absurd hc ho

theorem Attempts.refused (tries : s.Attempts i p t a) (calls : s.Calls)
    (hs : s.step i a = some (s', es)) (ht : s.tasks[t]? = some task)
    (hp : s.pools[p]? = some pool) (ho : task.slot.ownership ≠ .caller)
    (asks : s.AsksOwner i p t pool) :
    es = [.replied (.failed (.alreadySubmitted (LogRecord.number t)))] := by
  obtain ⟨pool', task', hp', ht', -, attempt⟩ := tries.attempt calls hs
  obtain rfl : task = task' := Option.some.inj (ht.symm.trans ht')
  obtain rfl : pool = pool' := Option.some.inj (hp.symm.trans hp')
  cases attempt with
  | declined declines _ _ =>
    cases declines with
    | refusal hr => simp [asks.1] at hr
    | owned _ _ => rfl
    | unstaffed _ _ hc _ => exact absurd hc ho
  | hires hc _ _ _ => exact absurd hc ho
  | waits hu inside _ _ _ =>
    rcases asks.2 with hzero | outside
    · omega
    · exact absurd (inside ho) outside
  | accepted _ _ _ hc _ => exact absurd hc ho

theorem Run.one_owner (run : Run callers h s) (t : TaskId) : OneOwner h s t where
  between hsplit := by
    obtain ⟨-, st, -, story⟩ := run.kept t
    exact (hsplit ▸ story).given_back
  succeeds tries hs := tries.done_iff run.calls hs
  at_most race := race.le_one run
  none race ho := race.eq_zero run ho
  exactly race ht hh ho hne fair := race.eq_one run ht hh ho hne fair
  custody hp hq := hp.unique run hq
  refuses tries hs ht hp ho asks := tries.refused run.calls hs ht hp ho asks
  untouched tries hs ht ho := tries.untouched run.calls hs ht ho
  owned ht hh hsplit hno := run.owned_since ht hh hsplit hno
  claimed ht hh custody := run.pool_of_owned ht hh (custody.owned run ht hh)
  finished ht hh hsplit hno := run.owned_ended ht hh hsplit hno
  timed_out collects hs out := run.owned_timeout collects hs out

/-- Two callers submit a task to a pool each. Both submissions wait for a worker with the task still
in its callers' hands; the first one to go on succeeds. -/
theorem one_owner_raced : ∃ h s h' s', Run 2 h s ∧
    Race 0 s h' [.done, .failed (.alreadySubmitted 1)] s' ∧ OneOwner h s 0 := by
  have run : Run 2 _ _ := run_of_replay [(0, .call (.createPool (.new 1)) 0),
    (0, .call (.createPool (.new 1)) 0), (0, .call (.createTask none) 0)] rfl
  let schedule : List (ThreadId × Action) := [(0, .call (.submit 0 0) 0),
    (1, .call (.submit 1 0) 0), (2, .advance 0), (3, .advance 0), (0, .advance 0), (1, .advance 0)]
  exact ⟨_, _, _, _, run, Race.start.replay schedule rfl (by rfl), run.one_owner 0⟩

end System

end WorkerPool
