import WorkerPool.Proofs.Bookkeeping
import WorkerPool.Proofs.Rounds

/-!
Exactly-once execution.

Every accepted submission of a task pays for one invocation of its work, by a worker of the pool
that accepted it. The invocation happens at most once, and it has happened once that pool has
nothing queued and nothing running. Invocations of one task do not overlap, and a worker that is
about to begin always finds the work in place.
-/
namespace WorkerPool.System

variable {s : System} {i j : ThreadId} {p : PoolId} {k : Nat} {t : TaskId} {pool : Pool}
  {h : Trace} {callers : Nat}

/-- What a run shows about the executions of one task. -/
structure ExactlyOnce (h : Trace) (s : System) (t : TaskId) : Prop where
  /-- Rounds of acceptance, invocation by a worker of that pool, end and join. -/
  rounds : ∃ st, Story s.employer t h st
  at_most_once : ∀ p, h.invocations s.employer p t ≤ h.acceptances p t
  once : ∀ (p : PoolId) (pool : Pool), s.pools[p]? = some pool → pool.queue.isEmpty →
    pool.runningCount = 0 → h.invocations s.employer p t = h.acceptances p t
  by_workers : ∀ (i : ThreadId) (run : Nat), (i, .started t run) ∈ h → ∃ p, s.employer i = some p
  no_overlap : ∀ (h₁ h₂ h₃ : Trace) (i j : ThreadId) (m n : Nat),
    h = h₁ ++ (i, .started t m) :: h₂ ++ (j, .started t n) :: h₃ →
    ∃ o, o.run = m ∧ (i, .ended t o) ∈ h₂
  alone : ∀ i j p q, s.Has i p (.running t) → s.Has j q (.running t) → i = j
  /-- Who is about to begin finds the work. -/
  equipped : ∀ i p, s.Has i p (.holding t) → (s.task t).slot.work
  /-- No execution goes without its work. -/
  never_empty : ∀ i p work o, s.Has i p (.stashing t work o) → work = true

theorem has_of_bearing {phase : Phase} (hb : s.bearing t i = some (p, phase)) :
    s.Has i p phase := by
  obtain ⟨th, hth, hb⟩ := Option.bind_eq_some_iff.mp hb
  cases hr : th.role with
  | caller => simp [Thread.bears, hr] at hb
  | worker q k x =>
    simp only [Thread.bears, hr, Phase.bears] at hb
    split at hb
    · cases hb
      exact ⟨th, k, hth, hr⟩
    · cases hb

theorem Has.bearing {phase : Phase} (has : s.Has i p phase) (ht : phase.task? = some t) :
    (s.record t).bearing i = some (p, phase) := by
  obtain ⟨th, k, hth, hr⟩ := has
  simp [record, System.bearing, hth, Thread.bears, hr, Phase.bears_self ht]

/-- A task that the pool owes is in its queue or in the hands of one of its workers. -/
theorem not_owed (books : s.Books) (hp : s.pools[p]? = some pool)
    (hq : pool.queue.isEmpty) (hr : pool.runningCount = 0) {life : Life} {st : Stage}
    (hat : (s.record t).At st life) : st.owedBy p = 0 := by
  have agrees := hat.agrees
  have hqueue : (s.record t).queued p = 0 := by
    have : pool.queue.entries = [] := List.isEmpty_iff.mp hq
    simp [queued_eq hp, this]
  have holding : ∀ i q u, s.bearing t i = some (q, .holding u) → q ≠ p := by
    rintro i q u hb rfl
    obtain ⟨th, k, hth, hrole⟩ := has_of_bearing hb
    have hpos : 0 < s.threads.countP (Thread.isBusyIn q) :=
      List.countP_pos_iff.mpr ⟨th, List.mem_of_getElem? hth, by
        simp [Thread.isBusyIn, hrole, Phase.task?]⟩
    have := books.busy hp
    omega
  cases life with
  | idle => rw [agrees.1]; rfl
  | queued q =>
    rw [agrees.1]
    have hne : q ≠ p := by
      rintro rfl
      simp [hat.queued, Life.queue] at hqueue
    simp [Stage.owedBy, hne]
  | carried q i phase =>
    cases phase with
    | holding u =>
      have hb : s.bearing t i = some (q, .holding u) :=
        (congrFun hat.bearing i).trans (if_pos rfl)
      rw [agrees.1]
      simp [Stage.owedBy, holding i q u hb]
    | running u => rw [agrees.1]; rfl
    | stashing u work o => rw [agrees.1]; rfl
    | stashed u returned =>
      obtain ⟨o, rfl, -⟩ := agrees
      rfl
    | counted u =>
      obtain ⟨o, rfl, -⟩ := agrees
      rfl
    | _ => exact agrees.elim
  | done o => rw [agrees.1]; rfl

theorem Run.exactly_once (run : Run callers h s) (t : TaskId) : ExactlyOnce h s t := by
  obtain ⟨life, st, hat, story⟩ := run.kept t
  have one {i j : ThreadId} {p q : PoolId} {x y : Phase}
      (hi : (s.record t).bearing i = some (p, x)) (hj : (s.record t).bearing j = some (q, y)) :
      i = j := by
    have := (hat.of_bearing hi).symm.trans (hat.of_bearing hj)
    cases this
    rfl
  refine ⟨⟨st, story⟩, fun p => ?_, fun p pool hp hq hr => ?_, fun i run => story.started_employed,
    fun h₁ h₂ h₃ i j m n hsplit => ?_, fun i j p q hi hj => one (hi.bearing rfl) (hj.bearing rfl),
    fun i p has => (run.kept t).equipped (has.bearing rfl), fun i p work o has => ?_⟩
  · have := story.acceptances_eq p
    exact Nat.le.intro this.symm
  · have := story.acceptances_eq p
    rw [not_owed run.books hp hq hr hat] at this
    exact this.symm
  · subst hsplit
    exact story.no_overlap
  · obtain rfl := hat.of_bearing (has.bearing rfl)
    exact hat.agrees.2.2.2.2

/-- The work of a task has run twice, for two pools. -/
theorem exactly_once_resubmitted : ∃ h s, Run 1 h s ∧ h.acceptances 0 0 = 1 ∧
    h.acceptances 1 0 = 1 ∧ ExactlyOnce h s 0 := by
  have run : Run 1 _ _ := run_of_replay [(0, .call (.createPool (.new 1)) 0),
    (0, .call (.createPool (.new 1)) 0), (0, .call (.createTask none) 0),
    (0, .call (.submit 0 0) 0), (1, .advance 0), (0, .advance 0), (1, .advance 0), (1, .advance 0),
    (1, .finish (.ok .null)), (1, .advance 0), (1, .advance 0), (1, .advance 0),
    (0, .call (.join 0 none) 0), (0, .call (.submit 1 0) 0), (2, .advance 0), (0, .advance 0),
    (2, .advance 0), (2, .advance 0)] rfl
  exact ⟨_, _, run, rfl, rfl, run.exactly_once 0⟩

end WorkerPool.System
