import Mathlib.Data.List.Induction
import WorkerPool.Proofs.Run

/-!
The story of a task, as a trace tells it.

A task goes round by round: a pool accepts it, a worker of that pool invokes its work, the
invocation ends, and a join takes the outcome. Only then can the next round begin. `Story` accepts
exactly the traces that respect this, and says how far the last round has come.
-/
namespace WorkerPool

/-- How far a task has come after some rounds; `n` invocations have begun. -/
inductive Stage
  /-- Every outcome so far has been joined. -/
  | resting (n : Nat)
  /-- A pool has accepted the task for one more invocation. -/
  | accepted (n : Nat) (p : PoolId)
  /-- The invocation runs on the thread `i`. -/
  | started (n : Nat) (p : PoolId) (i : ThreadId)
  /-- The invocation has ended. -/
  | ended (n : Nat) (o : Outcome)
  deriving Repr

namespace Stage

/-- The number of invocations that have ended. -/
def finished : Stage → Nat
  | resting n | accepted n _ | ended n _ => n
  | started n _ _ => n - 1

/-- Whether the pool owes an invocation. -/
def owedBy (p : PoolId) : Stage → Nat
  | accepted _ q => if q = p then 1 else 0
  | _ => 0

/-- The number of submissions that have been accepted. -/
def bought : Stage → Nat
  | accepted n _ => n + 1
  | resting n | started n _ _ | ended n _ => n

end Stage

namespace Event

/-- Whether the event is part of the story of the task. -/
def concerns (t : TaskId) : Event → Bool
  | log (.submitted _ u _) | started u _ | ended u _ | joined u _ => u == t
  | _ => false

/-- Whether a submission of the task to the pool is accepted. -/
def accepts (p : PoolId) (t : TaskId) : Event → Bool
  | log (.submitted q u _) => q == p && u == t
  | _ => false

/-- Whether a submission of the task to any pool is accepted. -/
def buys (t : TaskId) : Event → Bool
  | log (.submitted _ u _) => u == t
  | _ => false

/-- Whether the work of the task is invoked. -/
def starts (t : TaskId) : Event → Bool
  | started u _ => u == t
  | _ => false

/-- Whether the invocation of the given number ends. -/
def ends (t : TaskId) (run : Nat) : Event → Bool
  | ended u o => u == t && o.run == run
  | _ => false

end Event

/-- The trace keeps to the rounds of the task and has come to a stage. Workers are known by the pool
that employs them. -/
inductive Story (employer : ThreadId → Option PoolId) (t : TaskId) : Trace → Stage → Prop
  | nil : Story employer t [] (.resting 0)
  | other {h : Trace} {st : Stage} {e : Event} (i : ThreadId) : Story employer t h st →
      e.concerns t = false → Story employer t (h ++ [(i, e)]) st
  | accepted {h : Trace} {n : Nat} (i : ThreadId) (p : PoolId) (pending : Nat) :
      Story employer t h (.resting n) →
      Story employer t (h ++ [(i, .log (.submitted p t pending))]) (.accepted n p)
  | started {h : Trace} {n : Nat} {p : PoolId} {i : ThreadId} :
      Story employer t h (.accepted n p) → employer i = some p →
      Story employer t (h ++ [(i, .started t (n + 1))]) (.started (n + 1) p i)
  | ended {h : Trace} {n : Nat} {p : PoolId} {i : ThreadId} {o : Outcome} :
      Story employer t h (.started n p i) → o.run = n →
      Story employer t (h ++ [(i, .ended t o)]) (.ended n o)
  | joined {h : Trace} {n : Nat} {o : Outcome} (i : ThreadId) : Story employer t h (.ended n o) →
      Story employer t (h ++ [(i, .joined t (some o))]) (.resting n)

namespace Trace

/-- Submissions of the task that the pool has accepted. -/
def acceptances (h : Trace) (p : PoolId) (t : TaskId) : Nat := h.countP fun e => e.2.accepts p t

/-- Submissions of the task that any pool has accepted. -/
def submissions (h : Trace) (t : TaskId) : Nat := h.countP fun e => e.2.buys t

/-- Invocations of the work of the task by workers of the pool. -/
def invocations (h : Trace) (employer : ThreadId → Option PoolId) (p : PoolId) (t : TaskId) : Nat :=
  h.countP fun e => e.2.starts t && employer e.1 == some p

/-- Ends of the invocation of the task with the given number. -/
def endings (h : Trace) (t : TaskId) (run : Nat) : Nat := h.countP fun e => e.2.ends t run

section concat

variable {h : Trace} {i : ThreadId} {e : Event} {p : PoolId} {t : TaskId} {run : Nat}
  {employer : ThreadId → Option PoolId}

theorem acceptances_concat : Trace.acceptances (h ++ [(i, e)]) p t =
    h.acceptances p t + if e.accepts p t then 1 else 0 := by
  simp [acceptances, List.countP_append, List.countP_singleton]

theorem submissions_concat : Trace.submissions (h ++ [(i, e)]) t =
    h.submissions t + if e.buys t then 1 else 0 := by
  simp [submissions, List.countP_append, List.countP_singleton]

theorem invocations_concat : Trace.invocations (h ++ [(i, e)]) employer p t =
    h.invocations employer p t + if e.starts t ∧ employer i = some p then 1 else 0 := by
  simp [invocations, List.countP_append, List.countP_singleton]

theorem endings_concat : Trace.endings (h ++ [(i, e)]) t run =
    h.endings t run + if e.ends t run then 1 else 0 := by
  simp [endings, List.countP_append, List.countP_singleton]

end concat

end Trace

namespace Event

variable {e : Event} {p : PoolId} {t : TaskId} {run : Nat}

theorem accepts_of_other (h : e.concerns t = false) : e.accepts p t = false := by
  cases e with
  | log r => cases r <;> simp_all [concerns, accepts]
  | _ => rfl

theorem buys_of_other (h : e.concerns t = false) : e.buys t = false := by
  cases e with
  | log r => cases r <;> simp_all [concerns, buys]
  | _ => rfl

theorem starts_of_other (h : e.concerns t = false) : e.starts t = false := by
  cases e <;> simp_all [concerns, starts]

theorem ends_of_other (h : e.concerns t = false) : e.ends t run = false := by
  cases e <;> simp_all [concerns, ends]

end Event

namespace Story

variable {employer employer' : ThreadId → Option PoolId} {t : TaskId} {h h₁ h₂ : Trace}
  {st : Stage} {es : List Event} {i : ThreadId} {e : Event}

theorem mono (story : Story employer t h st)
    (he : ∀ i p, employer i = some p → employer' i = some p) : Story employer' t h st := by
  induction story with
  | nil => exact .nil
  | other i _ hc ih => exact .other i ih hc
  | accepted i p n _ ih => exact .accepted i p n ih
  | started _ hi ih => exact .started ih (he _ _ hi)
  | ended _ ho ih => exact .ended ih ho
  | joined i _ ih => exact .joined i ih

theorem others (story : Story employer t h st) (hes : ∀ e ∈ es, e.concerns t = false) :
    Story employer t (h ++ es.map (i, ·)) st := by
  induction es generalizing h with
  | nil => simpa using story
  | cons e es ih =>
    have := ih (story.other i (hes e (by simp))) fun e' he' => hes e' (by simp [he'])
    simpa using this

/-- Whatever a trace tells, its beginnings tell too. -/
theorem before (story : Story employer t (h₁ ++ h₂) st) : ∃ st₁, Story employer t h₁ st₁ := by
  induction h₂ using List.reverseRecOn generalizing st with
  | nil => exact ⟨st, by simpa using story⟩
  | append_singleton h₂ x ih =>
    rw [← List.append_assoc] at story
    generalize hg : h₁ ++ h₂ ++ [x] = g at story
    cases story with
    | nil => simp at hg
    | other i story _ | accepted i p n story | started story _ | ended story _
    | joined i story =>
      obtain ⟨rfl, -⟩ := List.append_inj' hg rfl
      exact ih story

/-- Every acceptance pays for one invocation by a worker of that pool. -/
theorem acceptances_eq (story : Story employer t h st) (p : PoolId) :
    h.acceptances p t = h.invocations employer p t + st.owedBy p := by
  induction story with
  | nil => rfl
  | other i _ hc ih =>
    rw [Trace.acceptances_concat, Trace.invocations_concat, ih]
    simp [Event.accepts_of_other hc, Event.starts_of_other hc]
  | accepted i q n _ ih =>
    rw [Trace.acceptances_concat, Trace.invocations_concat, ih]
    simp [Event.accepts, Event.starts, Stage.owedBy]
  | started _ hi ih =>
    rw [Trace.acceptances_concat, Trace.invocations_concat, ih]
    simp [Event.accepts, Event.starts, Stage.owedBy, hi]
  | ended _ _ ih =>
    rw [Trace.acceptances_concat, Trace.invocations_concat, ih]
    simp [Event.accepts, Event.starts, Stage.owedBy]
  | joined i _ ih =>
    rw [Trace.acceptances_concat, Trace.invocations_concat, ih]
    simp [Event.accepts, Event.starts, Stage.owedBy]

/-- The rounds are numbered by the submissions. -/
theorem submissions_eq (story : Story employer t h st) : h.submissions t = st.bought := by
  induction story with
  | nil => rfl
  | other i _ hc ih =>
    rw [Trace.submissions_concat, ih, Event.buys_of_other hc]
    rfl
  | accepted i q n _ ih =>
    rw [Trace.submissions_concat, ih]
    simp [Event.buys, Stage.bought]
  | started _ _ ih | ended _ _ ih | joined i _ ih =>
    rw [Trace.submissions_concat, ih]
    rfl

theorem begun_pos (story : Story employer t h st) {n : Nat} {p : PoolId} {i : ThreadId}
    (hst : st = .started n p i) : 1 ≤ n := by
  induction story with
  | other i _ _ ih => exact ih hst
  | started _ _ => cases hst; omega
  | _ => cases hst

/-- Invocations that have ended have done so once, and no other has. -/
theorem endings_eq (story : Story employer t h st) (run : Nat) :
    h.endings t run = if 1 ≤ run ∧ run ≤ st.finished then 1 else 0 := by
  induction story with
  | nil =>
    have hrun : ¬ (1 ≤ run ∧ run ≤ 0) := by omega
    simp only [Stage.finished, hrun, if_false]
    rfl
  | other i _ hc ih =>
    rw [Trace.endings_concat, ih, Event.ends_of_other hc]
    rfl
  | accepted i q n _ ih | started _ _ ih | joined i _ ih =>
    rw [Trace.endings_concat, ih]
    rfl
  | @ended h n p i o story ho ih =>
    have hn := story.begun_pos rfl
    have hbefore : (Stage.started n p i).finished = n - 1 := rfl
    have hafter : (Stage.ended n o).finished = n := rfl
    rw [Trace.endings_concat, ih, hbefore, hafter]
    by_cases hr : n = run
    · have hlt : ¬ (1 ≤ run ∧ run ≤ n - 1) := by omega
      have hle : 1 ≤ run ∧ run ≤ n := by omega
      have hend : Event.ends t run (.ended t o) := by simp [Event.ends, ho, hr]
      rw [if_neg hlt, if_pos hend, if_pos hle]
    · have hiff : (1 ≤ run ∧ run ≤ n - 1) ↔ (1 ≤ run ∧ run ≤ n) := by omega
      have hend : ¬ Event.ends t run (.ended t o) := by simp [Event.ends, ho, hr]
      rw [if_neg hend]
      simp only [hiff, Nat.add_zero]

/-- Whoever invokes the work is employed by a pool. -/
theorem started_employed (story : Story employer t h st) {run : Nat}
    (hmem : (i, .started t run) ∈ h) : ∃ p, employer i = some p := by
  induction story with
  | nil => cases hmem
  | other j _ hc ih =>
    rcases List.mem_append.mp hmem with hmem | hmem
    · exact ih hmem
    · cases List.mem_singleton.mp hmem
      simp [Event.concerns] at hc
  | started _ hi ih =>
    rcases List.mem_append.mp hmem with hmem | hmem
    · exact ih hmem
    · cases List.mem_singleton.mp hmem
      exact ⟨_, hi⟩
  | accepted j p n _ ih | ended _ _ ih | joined j _ ih =>
    rcases List.mem_append.mp hmem with hmem | hmem
    · exact ih hmem
    · cases List.mem_singleton.mp hmem

/-- The last event of a story. -/
theorem last (story : Story employer t (h ++ [(i, e)]) st) :
    (Story employer t h st ∧ e.concerns t = false) ∨
    (∃ n p pending, Story employer t h (.resting n) ∧ e = .log (.submitted p t pending) ∧
      st = .accepted n p) ∨
    (∃ n p, Story employer t h (.accepted n p) ∧ employer i = some p ∧ e = .started t (n + 1) ∧
      st = .started (n + 1) p i) ∨
    (∃ n p o, Story employer t h (.started n p i) ∧ o.run = n ∧ e = .ended t o ∧
      st = .ended n o) ∨
    (∃ n o, Story employer t h (.ended n o) ∧ e = .joined t (some o) ∧ st = .resting n) := by
  generalize hg : h ++ [(i, e)] = g at story
  cases story with
  | nil => simp at hg
  | other j story hc =>
    obtain ⟨rfl, hx⟩ := List.append_inj' hg rfl
    cases hx
    exact .inl ⟨story, hc⟩
  | accepted j p pending story =>
    obtain ⟨rfl, hx⟩ := List.append_inj' hg rfl
    cases hx
    exact .inr (.inl ⟨_, p, pending, story, rfl, rfl⟩)
  | started story hi =>
    obtain ⟨rfl, hx⟩ := List.append_inj' hg rfl
    cases hx
    exact .inr (.inr (.inl ⟨_, _, story, hi, rfl, rfl⟩))
  | ended story ho =>
    obtain ⟨rfl, hx⟩ := List.append_inj' hg rfl
    cases hx
    exact .inr (.inr (.inr (.inl ⟨_, _, _, story, ho, rfl, rfl⟩)))
  | joined j story =>
    obtain ⟨rfl, hx⟩ := List.append_inj' hg rfl
    cases hx
    exact .inr (.inr (.inr (.inr ⟨_, _, story, rfl, rfl⟩)))

/-- An invocation goes on until its end is told. -/
theorem started_until {n : Nat} (story : Story employer t (h₁ ++ (i, .started t n) :: h₂) st) :
    (∃ p, st = .started n p i) ∨ ∃ o, o.run = n ∧ (i, .ended t o) ∈ h₂ := by
  induction h₂ using List.reverseRecOn generalizing st with
  | nil =>
    obtain ⟨-, hc⟩ | ⟨n', p, m, -, he, -⟩ | ⟨n', p, -, -, he, hst⟩ | ⟨n', p, o, -, -, he, -⟩ |
      ⟨n', o, -, he, -⟩ := story.last
    · simp [Event.concerns] at hc
    · cases he
    · cases he
      exact .inl ⟨p, hst⟩
    · cases he
    · cases he
  | append_singleton h₂ x ih =>
    obtain ⟨j, e⟩ := x
    rw [← List.cons_append, ← List.append_assoc] at story
    have later : (∃ o, o.run = n ∧ (i, .ended t o) ∈ h₂) →
        ∃ o, o.run = n ∧ (i, .ended t o) ∈ h₂ ++ [(j, e)] := fun ⟨o, ho, hmem⟩ =>
      ⟨o, ho, List.mem_append_left _ hmem⟩
    obtain ⟨story, -⟩ | ⟨n', p, m, story, -, -⟩ | ⟨n', p, story, -, -, -⟩ |
      ⟨n', p, o, story, ho, he, -⟩ | ⟨n', o, story, -, -⟩ := story.last
    · exact (ih story).imp_right later
    · exact .inr (later ((ih story).resolve_left fun ⟨q, hq⟩ => by cases hq))
    · exact .inr (later ((ih story).resolve_left fun ⟨q, hq⟩ => by cases hq))
    · rcases ih story with ⟨q, hst⟩ | hend
      · cases hst
        exact .inr ⟨o, ho, by simp [he]⟩
      · exact .inr (later hend)
    · exact .inr (later ((ih story).resolve_left fun ⟨q, hq⟩ => by cases hq))

/-- Between two invocations the first one ends. -/
theorem no_overlap {m n : Nat} {j : ThreadId} {h₃ : Trace}
    (story : Story employer t (h₁ ++ (i, .started t m) :: h₂ ++ (j, .started t n) :: h₃) st) :
    ∃ o, o.run = m ∧ (i, .ended t o) ∈ h₂ := by
  rw [List.append_cons _ (j, _)] at story
  obtain ⟨st', story⟩ := story.before
  obtain ⟨-, hc⟩ | ⟨n', p, k, -, he, -⟩ | ⟨n', p, story, -, -, -⟩ | ⟨n', p, o, -, -, he, -⟩ |
    ⟨n', o, -, he, -⟩ := story.last
  · simp [Event.concerns] at hc
  · cases he
  · exact story.started_until.resolve_left fun ⟨q, hq⟩ => by cases hq
  · cases he
  · cases he

end Story

end WorkerPool
