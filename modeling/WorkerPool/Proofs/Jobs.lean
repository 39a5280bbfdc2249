import WorkerPool.Proofs.Story

/-!
Submissions and what has become of them.

`Trace.jobs` lists the submissions that a pool has accepted, each with the outcome of the work once
that has ended. A job is open until then, and by the story of its task no task has two open jobs.
-/
namespace WorkerPool

namespace Event

/-- The task of which the pool accepts a submission. -/
def sold? (p : PoolId) : Event → Option TaskId
  | log (.submitted q t _) => if q = p then some t else none
  | _ => none

/-- How an invocation of the task ends. -/
def end? (t : TaskId) : Event → Option Outcome
  | ended u o => if u = t then some o else none
  | _ => none

/-- Whether the event is about jobs. -/
def staffs : Event → Bool
  | log (.submitted ..) | ended _ _ => true
  | _ => false

end Event

/-- A submission that a pool has accepted, and how the work has ended for it. -/
structure Job where
  task : TaskId
  outcome : Option Outcome
  deriving Repr

namespace Job

def isOpen (j : Job) : Bool := j.outcome.isNone

/-- Whether the work has returned, or whether it has panicked. -/
def hasEnded (returned : Bool) (j : Job) : Bool := j.outcome.any (·.returned == returned)

/-- An open job of the task. -/
def isOpenFor (t : TaskId) (j : Job) : Bool := j.task == t && j.isOpen

/-- The job after one more event; its first outcome stays. -/
def hear (e : Event) (j : Job) : Job := { j with outcome := j.outcome.or (e.end? j.task) }

end Job

/-- How far a pool is with a task that it has accepted: whether the invocation is to come or
running. -/
def Stage.openFor (p : PoolId) : Stage → Nat
  | accepted _ q | started _ q _ => if q = p then 1 else 0
  | resting _ | ended _ _ => 0

namespace Trace

/-- The submissions that the pool has accepted, oldest first, each with the outcome of the next
invocation of its task. -/
def jobs (p : PoolId) : Trace → List Job
  | [] => []
  | (_, e) :: h =>
    ((e.sold? p).map fun t => ⟨t, h.findSome? (·.2.end? t)⟩).toList ++ jobs p h

variable {h : Trace} {i : ThreadId} {e : Event} {es : List Event} {p : PoolId} {t : TaskId}
  {o : Outcome}

theorem jobs_concat : Trace.jobs p (h ++ [(i, e)]) =
    (h.jobs p).map (Job.hear e) ++ ((e.sold? p).map (⟨·, none⟩)).toList := by
  induction h with
  | nil => simp [jobs]
  | cons x h ih =>
    obtain ⟨j, e'⟩ := x
    have hear : ∀ t, (h ++ [(i, e)]).findSome? (·.2.end? t) =
        (h.findSome? (·.2.end? t)).or (e.end? t) := fun t => by
      rw [List.findSome?_append]
      simp
    simp only [List.cons_append, jobs, ih, hear, List.map_append, List.append_assoc]
    cases e'.sold? p <;> rfl

theorem hear_of_quiet (he : e.staffs = false) : Job.hear e = id := by
  funext j
  cases e with
  | ended _ _ => simp [Event.staffs] at he
  | _ => simp [Job.hear, Event.end?]

theorem jobs_quiet (he : ∀ e ∈ es, e.staffs = false) :
    Trace.jobs p (h ++ es.map (i, ·)) = h.jobs p := by
  induction es generalizing h with
  | nil => simp
  | cons e es ih =>
    have hq := he e (by simp)
    have hsold : e.sold? p = none := by
      cases e with
      | log r => cases r <;> simp_all [Event.staffs, Event.sold?]
      | _ => rfl
    have hrest := ih (h := h ++ [(i, e)]) fun e' he' => he e' (by simp [he'])
    simpa [jobs_concat, hear_of_quiet hq, hsold] using hrest

theorem jobs_submitted (q : PoolId) (n : Nat) (m : Metric) :
    Trace.jobs p (h ++ [Event.log (.submitted q t n), .metric q m].map (i, ·)) =
      h.jobs p ++ if q = p then [⟨t, none⟩] else [] := by
  have hlog : Trace.jobs p (h ++ [(i, .log (.submitted q t n))]) =
      h.jobs p ++ if q = p then [⟨t, none⟩] else [] := by
    have hear : Job.hear (.log (.submitted q t n)) = id := by
      funext j
      simp [Job.hear, Event.end?]
    rw [jobs_concat, hear]
    by_cases hq : q = p <;> simp [Event.sold?, hq]
  have hmetric : Trace.jobs p (h ++ [(i, .log (.submitted q t n))] ++
      [Event.metric q m].map (i, ·)) = Trace.jobs p (h ++ [(i, .log (.submitted q t n))]) :=
    jobs_quiet (by simp [Event.staffs])
  simpa [hlog] using hmetric

theorem jobs_ended : Trace.jobs p (h ++ [Event.ended t o].map (i, ·)) =
    (h.jobs p).map (Job.hear (.ended t o)) := by
  simp [jobs_concat, Event.sold?]

theorem tasks_jobs : (h.jobs p).map Job.task = h.filterMap fun x => x.2.sold? p := by
  induction h with
  | nil => rfl
  | cons x h ih =>
    rw [jobs, List.map_append, ih, List.filterMap_cons]
    cases x.2.sold? p <;> rfl

/-- The outcomes of jobs are told. -/
theorem ended_of_job {j : Job} (hj : j ∈ h.jobs p) (ho : j.outcome = some o) :
    ∃ i, (i, .ended j.task o) ∈ h := by
  induction h with
  | nil => cases hj
  | cons x h ih =>
    rcases List.mem_append.mp hj with hj | hj
    · obtain ⟨t, -, rfl⟩ : ∃ t, x.2.sold? p = some t ∧ _ = j := by simpa using hj
      obtain ⟨⟨i, e⟩, hmem, hend⟩ := List.exists_of_findSome?_eq_some ho
      obtain rfl : e = .ended t o := by
        cases e with
        | ended u o' =>
          obtain ⟨rfl, rfl⟩ : u = t ∧ o' = o := by simpa [Event.end?] using hend
          rfl
        | _ => cases hend
      exact ⟨i, List.mem_cons_of_mem _ hmem⟩
    · obtain ⟨i, hmem⟩ := ih hj
      exact ⟨i, List.mem_cons_of_mem _ hmem⟩

end Trace

/-! ### Open jobs -/

namespace Job

variable {l : List Job} {t : TaskId} {o : Outcome} {returned : Bool}

theorem hear_ended (j : Job) : hear (.ended t o) j =
    if j.isOpenFor t then { j with outcome := some o } else j := by
  obtain ⟨u, x⟩ := j
  by_cases hu : u = t
  · subst hu
    cases x <;> simp [hear, isOpenFor, isOpen, Event.end?]
  · simp [hear, isOpenFor, Event.end?, hu, Ne.symm hu]

/-- The end of an invocation is nothing to the jobs of other tasks. -/
theorem map_hear_ended (h : l.countP (isOpenFor t) = 0) : l.map (hear (.ended t o)) = l := by
  have hnone := List.countP_eq_zero.mp h
  have same : ∀ j ∈ l, hear (.ended t o) j = id j := fun j hj => by simp [hear_ended, hnone j hj]
  rw [List.map_congr_left same, List.map_id]

/-- The end of an invocation closes the open jobs of the task. -/
theorem open_ended : (l.map (hear (.ended t o))).countP isOpen + l.countP (isOpenFor t) =
    l.countP isOpen := by
  induction l with
  | nil => rfl
  | cons j l ih =>
    simp only [List.map_cons, List.countP_cons, hear_ended]
    cases hj : j.isOpenFor t with
    | true =>
      have hopen : j.isOpen := (Bool.and_eq_true_iff.mp hj).2
      have hclosed : isOpen ⟨j.task, some o⟩ = false := rfl
      simp only [hopen, hclosed, if_true, Bool.false_eq_true, if_false]
      omega
    | false =>
      simp only [Bool.false_eq_true, if_false]
      omega

theorem hasEnded_ended : (l.map (hear (.ended t o))).countP (hasEnded returned) =
    l.countP (hasEnded returned) +
      if o.returned = returned then l.countP (isOpenFor t) else 0 := by
  induction l with
  | nil => simp
  | cons j l ih =>
    simp only [List.map_cons, List.countP_cons, hear_ended, ih]
    cases hj : j.isOpenFor t with
    | true =>
      have hopen : j.outcome = none := by simpa [isOpen] using (Bool.and_eq_true_iff.mp hj).2
      have hbefore : j.hasEnded returned = false := by simp [hasEnded, hopen]
      have hafter : hasEnded returned ⟨j.task, some o⟩ = (o.returned == returned) := rfl
      simp only [hbefore, hafter, beq_iff_eq, if_true, Bool.false_eq_true, if_false]
      split <;> omega
    | false =>
      simp only [Bool.false_eq_true, if_false, Nat.add_zero]
      omega

/-- Every job is open, or its work has returned, or it has panicked. -/
theorem length_eq : l.length =
    l.countP isOpen + l.countP (hasEnded true) + l.countP (hasEnded false) := by
  induction l with
  | nil => rfl
  | cons j l ih =>
    obtain ⟨t, x⟩ := j
    simp only [List.length_cons, List.countP_cons, ih]
    cases x with
    | none => simp [isOpen, hasEnded]; omega
    | some o => cases ho : o.returned <;> simp [isOpen, hasEnded, ho] <;> omega

end Job

/-- A task has an open job if a pool has accepted it and the invocation has not ended, and only
one. -/
theorem Story.openFor_eq {employer : ThreadId → Option PoolId} {t : TaskId} {h : Trace}
    {st : Stage} (story : Story employer t h st) (p : PoolId) :
    (h.jobs p).countP (Job.isOpenFor t) = st.openFor p := by
  -- Events that are no end of the task leave its open jobs open.
  have unheard {e : Event} {l : List Job} (he : e.end? t = none) :
      (l.map (Job.hear e)).countP (Job.isOpenFor t) = l.countP (Job.isOpenFor t) := by
    rw [List.countP_map]
    refine List.countP_congr fun j _ => ?_
    by_cases hj : j.task = t
    · simp [Job.hear, Job.isOpenFor, Job.isOpen, hj, he]
    · simp [Job.hear, Job.isOpenFor, hj]
  induction story with
  | nil => rfl
  | @other h st e i _ hc ih =>
    have hend : e.end? t = none := by
      cases e <;> simp_all [Event.concerns, Event.end?]
    have hsold : ∀ u, e.sold? p = some u → u ≠ t := by
      cases e with
      | log r => cases r <;> simp_all [Event.concerns, Event.sold?]
      | _ => simp [Event.sold?]
    rw [Trace.jobs_concat, List.countP_append, unheard hend, ih]
    cases hs : e.sold? p with
    | none => simp
    | some u => simp [Job.isOpenFor, hsold u hs]
  | accepted i q n _ ih =>
    rw [Trace.jobs_concat, List.countP_append, unheard rfl, ih]
    by_cases hq : q = p <;> simp [Event.sold?, Stage.openFor, Job.isOpenFor, Job.isOpen, hq]
  | started _ _ ih =>
    rw [Trace.jobs_concat, List.countP_append, unheard rfl, ih]
    simp [Event.sold?, Stage.openFor]
  | @ended h n q i o _ _ ih =>
    have closed : ((h.jobs p).map (Job.hear (.ended t o))).countP (Job.isOpenFor t) = 0 := by
      rw [List.countP_map, List.countP_eq_zero]
      intro j _
      simp only [Function.comp, Job.hear_ended]
      split
      · simp [Job.isOpenFor, Job.isOpen]
      · assumption
    rw [Trace.jobs_concat, List.countP_append, closed]
    simp [Event.sold?, Stage.openFor]
  | joined i _ ih =>
    rw [Trace.jobs_concat, List.countP_append, unheard rfl, ih]
    simp [Event.sold?, Stage.openFor]

end WorkerPool
