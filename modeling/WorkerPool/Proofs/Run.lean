import WorkerPool.System.Step

/-!
Runs of a program that uses pools.

A run starts with some caller threads and nothing created; whichever thread can take a step may take
the next one. Its trace lists what the steps let known, each event with the thread it happened on.
-/
namespace WorkerPool

/-- What a run has let known, oldest first. -/
abbrev Trace := List (ThreadId × Event)

namespace System

/-- A run with this many caller threads that has come to the given state. -/
inductive Run (callers : Nat) : Trace → System → Prop
  | start : Run callers [] (start callers)
  | step {h : Trace} {s s' : System} {i : ThreadId} {a : Action} {es : List Event} :
      Run callers h s → s.step i a = some (s', es) → Run callers (h ++ es.map (i, ·)) s'

/-- The second state can follow the first one. -/
inductive Later : System → System → Prop
  | refl (s : System) : Later s s
  | step {s s' s'' : System} {i : ThreadId} {a : Action} {es : List Event} :
      Later s s' → s'.step i a = some (s'', es) → Later s s''

/-- Takes the steps of a schedule, each of which has to be possible. -/
def replay : List (ThreadId × Action) → System → Option (Trace × System)
  | [], s => some ([], s)
  | (i, a) :: rest, s =>
    match s.step i a with
    | none => none
    | some (s', es) => (replay rest s').map fun (h, s'') => (es.map (i, ·) ++ h, s'')

variable {callers : Nat} {h h' : Trace} {s s' s'' : System}

theorem replay_cons {schedule : List (ThreadId × Action)} {i : ThreadId} {a : Action}
    (hr : s.replay ((i, a) :: schedule) = some (h, s')) : ∃ s₁ es h₁,
      s.step i a = some (s₁, es) ∧ s₁.replay schedule = some (h₁, s') ∧
        h = es.map (i, ·) ++ h₁ := by
  cases hs : s.step i a with
  | none => simp [System.replay, hs] at hr
  | some e =>
    obtain ⟨s₁, es⟩ := e
    simp only [System.replay, hs, Option.map_eq_some_iff, Prod.exists, Prod.mk.injEq] at hr
    obtain ⟨h₁, s₂, hr, rfl, rfl⟩ := hr
    exact ⟨s₁, es, h₁, rfl, hr, rfl⟩

theorem Run.replay {schedule : List (ThreadId × Action)} (run : Run callers h s)
    (hr : s.replay schedule = some (h', s')) : Run callers (h ++ h') s' := by
  induction schedule generalizing h h' s with
  | nil =>
    simp only [System.replay, Option.some.injEq, Prod.mk.injEq] at hr
    obtain ⟨rfl, rfl⟩ := hr
    simpa using run
  | cons move rest ih =>
    obtain ⟨s₁, es, h₁, hs, hr₁, rfl⟩ := replay_cons hr
    simpa using ih (run.step hs) hr₁

/-- A schedule from the start gives a run. -/
theorem run_of_replay (schedule : List (ThreadId × Action))
    (hr : (start callers).replay schedule = some (h, s)) : Run callers h s := by
  simpa using Run.start.replay hr

theorem replay_append {schedule schedule' : List (ThreadId × Action)}
    (hr : s.replay schedule = some (h, s')) (hr' : s'.replay schedule' = some (h', s'')) :
    s.replay (schedule ++ schedule') = some (h ++ h', s'') := by
  induction schedule generalizing h s with
  | nil =>
    cases hr
    exact hr'
  | cons move rest ih =>
    obtain ⟨s₁, es₁, h₁, hs₁, hr₁, rfl⟩ := replay_cons hr
    simp [System.replay, hs₁, ih hr₁]

theorem replay_one {a : Action} {es : List Event} {i : ThreadId}
    (hs : s.step i a = some (s', es)) : s.replay [(i, a)] = some (es.map (i, ·), s') := by
  simp [System.replay, hs]

theorem replay_snoc {schedule : List (ThreadId × Action)} {i : ThreadId} {a : Action}
    {es : List Event} (hr : s.replay schedule = some (h, s')) (hs : s'.step i a = some (s'', es)) :
    s.replay (schedule ++ [(i, a)]) = some (h ++ es.map (i, ·), s'') :=
  replay_append hr (replay_one hs)

/-- What each step of a run keeps is kept by the steps of a schedule. -/
theorem Run.along {P : Trace → System → Prop} {schedule : List (ThreadId × Action)}
    (run : Run callers h s) (hr : s.replay schedule = some (h', s')) (base : P h s)
    (keep : ∀ {h s i a es s'}, Run callers h s → P h s → s.step i a = some (s', es) →
      P (h ++ es.map (i, ·)) s') : P (h ++ h') s' := by
  induction schedule generalizing h h' s with
  | nil =>
    cases hr
    simpa using base
  | cons move rest ih =>
    obtain ⟨s₁, es, h₁, hs, hr₁, rfl⟩ := replay_cons hr
    simpa using ih (run.step hs) hr₁ (keep run base hs)

theorem Run.later (run : Run callers h s) (later : Later s s') : ∃ h', Run callers h' s' := by
  induction later with
  | refl => exact ⟨h, run⟩
  | step _ hs ih =>
    obtain ⟨h', run'⟩ := ih
    exact ⟨_, run'.step hs⟩

end System

end WorkerPool
