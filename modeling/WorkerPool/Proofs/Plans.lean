import WorkerPool.Proofs.Chores
import WorkerPool.Proofs.OneOwner
import WorkerPool.Proofs.Teardown

/-!
Programs of many threads that share a pool.

A plan says what each thread does and how the works of its tasks end. A course of the plan is one of
its schedules: whichever thread can go on takes the next step, threads can be started, and nothing
but the order of the steps, the worker that a submission wakes and the ends of destructors is left
to chance. On every
course a thread is where its program says, or a worker is at work (`OnCourse.placed`).
-/
namespace WorkerPool

namespace Event

/-- The task of which a submission is accepted. -/
def sale? : Event → Option TaskId
  | log (.submitted _ t _) => some t
  | _ => none

/-- The task of which a join takes the outcome. -/
def collect? : Event → Option TaskId
  | joined t (some _) => some t
  | _ => none

/-- The task whose work is invoked. -/
def begin? : Event → Option TaskId
  | started t _ => some t
  | _ => none

end Event

/-- The tasks that the trace tells something of, oldest first. -/
def Trace.named (h : Trace) (key : Event → Option TaskId) : List TaskId :=
  h.filterMap fun e => key e.2

namespace Workload

open WorkerPool.System

namespace Chore

def submits? : Chore → Option TaskId
  | submit t => some t
  | _ => none

def joins? : Chore → Option TaskId
  | join t => some t
  | _ => none

end Chore

/-- Threads with programs for one pool, which submit each task once and join, detach or drop it as
they like. -/
structure Plan where
  config : Config
  /-- The tasks, each with the span that its work captures. -/
  tasks : List (Option Span)
  programs : List (List Chore)
  /-- How the work of a task ends. -/
  ending : TaskId → Except Payload Value
  valid : config.validate = .ok ()
  plain : ∀ cs ∈ programs, ∀ c ∈ cs, c.isPlain
  submitted : (programs.flatten.filterMap Chore.submits?).Perm (List.range tasks.length)
  joined : (programs.flatten.filterMap Chore.joins?).Nodup
  /-- Who joins a task has submitted it before. -/
  order : ∀ cs ∈ programs, ∀ n, (hn : n < cs.length) → ∀ t ∈ cs[n].joins?, .submit t ∈ cs.take n

namespace Plan

/-- The pool and the tasks are created. -/
def setup (plan : Plan) : List (ThreadId × Action) :=
  (0, .call (.createPool plan.config) 0) ::
    plan.tasks.map fun captured => (0, .call (.createTask captured) 0)

/-- What the thread does next, if it is up to it: a caller goes on with its program, and works end
as planned. -/
def action? (plan : Plan) (s : Progress) (i : ThreadId) (pick : Pick)
    (fate : Except Payload Value) : Option Action :=
  s.system.threads[i]?.bind fun th =>
    if th.inUserCode then
      match th.calls, th.role with
      | .destructor :: _, _ => some (.finish fate)
      | _, .worker _ _ (.running t) => some (.finish (plan.ending t))
      | _, _ =>
        match s.chores[i]? with
        | some (c :: _) => some (.call c.operation pick)
        | _ => none
    else some (.advance pick)

/-- The plan lets the thread do this, and the platform starts the threads that it needs. -/
def Allows (plan : Plan) (s : Progress) (i : ThreadId) (a : Action) : Prop :=
  ∃ pick fate, pick.refusal = none ∧ plan.action? s i pick fate = some a

end Plan

/-- The threads have followed their programs this far. -/
inductive Course (plan : Plan) : Trace → Progress → Prop
  | start {h : Trace} {s : System} :
      (System.start plan.programs.length).replay plan.setup = some (h, s) →
      Course plan h { system := s, chores := plan.programs }
  | step {h : Trace} {s : Progress} {i : ThreadId} {a : Action} {e : Effect} : Course plan h s →
      plan.Allows s i a → s.system.step i a = some e →
      Course plan (h ++ e.2.map (i, ·)) (s.apply i e)

variable {plan : Plan} {s s' : Progress} {i : ThreadId} {a : Action} {e : Effect} {h : Trace}
  {c : Chore} {rest : List Chore} {es : List Event} {calls : List Frame} {t : TaskId}

/-! ### Setting up -/

section setup

variable {n : Nat} {u u' : System} {pick : Pick} {captured : Option Span}

theorem replay_createTasks {tasks : List (Option Span)}
    (hr : u.replay (tasks.map fun captured => (0, .call (.createTask captured) 0)) = some (h, u')) :
    u'.pools = u.pools ∧ u'.threads = u.threads ∧ ∀ x ∈ h, ∀ t, x.2.concerns t = false := by
  induction tasks generalizing u h with
  | nil =>
    cases hr
    exact ⟨rfl, rfl, List.forall_mem_nil _⟩
  | cons captured tasks ih =>
    obtain ⟨u₁, es, h₁, hs, hr₁, rfl⟩ := replay_cons hr
    cases step_createTask hs
    obtain ⟨hpools, hthreads, quiet⟩ := ih hr₁
    refine ⟨hpools, hthreads, List.forall_mem_append.mpr ⟨?_, quiet⟩⟩
    simp [Event.concerns]

theorem Plan.replay_setup (hr : (System.start n).replay plan.setup = some (h, u)) :
    u.pools = [Pool.new plan.config] ∧ u.threads = List.replicate n {} ∧
      ∀ x ∈ h, ∀ t, x.2.concerns t = false := by
  obtain ⟨u₁, es, h₁, hs, hr₁, rfl⟩ := replay_cons hr
  cases step_createPool plan.valid hs
  obtain ⟨hpools, hthreads, quiet⟩ := replay_createTasks hr₁
  refine ⟨hpools, hthreads, List.forall_mem_append.mpr ⟨?_, quiet⟩⟩
  simp [Event.concerns]

end setup

/-! ### Progress -/

namespace Progress

/-- Answers are nothing to the system, and open no gates. -/
theorem receive_fixed (r : Reply) :
    (s.receive i r).system = s.system ∧ (s.receive i r).gated = s.gated := by
  unfold Progress.receive
  split
  · simp only
    split
    · split <;> exact ⟨rfl, rfl⟩
    all_goals exact ⟨rfl, rfl⟩
  · exact ⟨rfl, rfl⟩

theorem absorb_fixed (ev : Event) :
    (s.absorb i ev).system = s.system ∧ (s.absorb i ev).gated = s.gated := by
  cases ev with
  | replied r => exact receive_fixed r
  | _ => exact ⟨rfl, rfl⟩

theorem foldl_fixed (es : List Event) (s : Progress) :
    (es.foldl (fun s ev => s.absorb i ev) s).system = s.system ∧
      (es.foldl (fun s ev => s.absorb i ev) s).gated = s.gated := by
  induction es generalizing s with
  | nil => exact ⟨rfl, rfl⟩
  | cons ev es ih => exact ⟨(ih _).1.trans (absorb_fixed ev).1, (ih _).2.trans (absorb_fixed ev).2⟩

@[simp] theorem system_apply : (s.apply i e).system = e.1 := (foldl_fixed e.2 _).1

@[simp] theorem gated_apply : (s.apply i e).gated = s.gated := (foldl_fixed e.2 _).2

/-- Without news nothing is noted. -/
theorem apply_quiet {u : System} (quiet : ∀ ev ∈ es, ev.isNews = false) :
    s.apply i (u, es) = { s with system := u } := by
  have told (es : List Event) (s : Progress) (quiet : ∀ ev ∈ es, ev.isNews = false) :
      es.foldl (fun s ev => s.absorb i ev) s = s := by
    induction es generalizing s with
    | nil => rfl
    | cons ev es ih =>
      have same : s.absorb i ev = s := by
        have := quiet ev (by simp)
        cases ev <;> simp_all [Event.isNews, absorb]
      rw [List.foldl_cons, same, ih s fun ev' hev => quiet ev' (by simp [hev])]
  exact told es _ quiet

end Progress

theorem Course.run (course : Course plan h s) : s.system.Run plan.programs.length h := by
  induction course with
  | start hr => exact run_of_replay _ hr
  | step _ _ hs ih =>
    rw [Progress.system_apply]
    exact ih.step hs

/-! ### Where the threads are -/

/-- What a thread can be inside of whose program goes on in this way, or that has no program. -/
inductive Stands : Option (List Chore) → List Frame → Prop
  | free (cs : List Chore) : Stands (some cs) []
  | engaged {c : Chore} {calls : List Frame} (rest : List Chore) : c.Engaged calls →
      Stands (some (c :: rest)) calls
  | working {calls : List Frame} : AtWork calls → Stands none calls

theorem Chore.Engaged.wake {cond : Condition} (engaged : c.Engaged calls) :
    c.Engaged (calls.map (Frame.wake cond)) := by
  cases engaged with
  | submit t woken => exact .submit t _
  | join t woken => exact .join t _
  | letGo todo failure hc => exact .letGo todo failure hc
  | destroy todo failure hc => exact .destroy todo failure hc
  | waitIdle woken => exact .waitIdle _

namespace Stands

variable {o : Option (List Chore)} {f : Frame} {frames : List Frame}

theorem nil (o : Option (List Chore)) : Stands o [] := by
  cases o with
  | none => exact .working .loop
  | some cs => exact .free cs

theorem wake {cond : Condition} (stands : Stands o calls) :
    Stands o (calls.map (Frame.wake cond)) := by
  cases stands with
  | free cs => exact .free cs
  | engaged rest engaged => exact .engaged rest engaged.wake
  | working busy =>
    refine .working ?_
    cases busy with
    | loop => exact .loop
    | letGo todo failure => exact .letGo todo failure
    | destroy todo failure => exact .destroy todo failure

theorem woken {th th' : Thread} (stands : Stands o th.calls) (w : th.Woken th') :
    Stands o th'.calls := by
  induction w with
  | refl => exact stands
  | wake cond _ ih => exact ih.wake

theorem not_teardown (stands : Stands o (f :: frames)) : f.isTeardown = false := by
  cases stands with
  | engaged rest engaged => cases engaged <;> rfl
  | working busy => cases busy <;> rfl

end Stands

/-- Callers go by their programs, and all other threads are workers. -/
structure Placed (s : Progress) : Prop where
  callers : ∀ i < s.chores.length, s.system.posts[i]? = some none
  stands : ∀ i calls, s.system.Inside i calls → Stands s.chores[i]? calls

/-- The steps of a thread leave the others where they are. -/
theorem Placed.keep (placed : Placed s) (un : s.system.Unentered)
    (ms : Moves i s.system es s'.system) (hlen : s'.chores.length = s.chores.length)
    (others : ∀ j, j ≠ i → s'.chores[j]? = s.chores[j]?) (hi : s'.system.Inside i calls)
    (own : Stands s'.chores[i]? calls) : Placed s' where
  callers j hj := ms.caller (placed.callers j (hlen ▸ hj))
  stands j frames hin := by
    by_cases hj : j = i
    · subst hj
      rwa [hin.unique hi]
    · obtain ⟨th', hth', rfl⟩ := hin
      rw [others j hj]
      by_cases hc : th'.calls = []
      · exact hc ▸ .nil _
      · obtain ⟨th, hth, w⟩ := ms.before un hj hth' hc
        exact (placed.stands j _ ⟨th, hth, rfl⟩).woken w

/-! ### Turns -/

/-- Whose turn it is: a caller goes on with its first chore, or a worker with its work. -/
inductive Turn (s : Progress) (i : ThreadId) (a : Action) (e : Effect) : Prop
  | chore {c : Chore} {rest : List Chore} : s.chores[i]? = some (c :: rest) →
      s.system.ChoreStep i c e → Turn s i a e
  | work : s.chores[i]? = none → s.system.WorkStep i a e → Turn s i a e

theorem Plan.Allows.turn (allowed : plan.Allows s i a) (placed : Placed s)
    (valid : s.system.Calls) (plain : ∀ c rest, s.chores[i]? = some (c :: rest) → c.isPlain)
    (hs : s.system.step i a = some e) : Turn s i a e := by
  obtain ⟨pick, fate, started, ha⟩ := allowed
  obtain ⟨th, hth, ha⟩ := Option.bind_eq_some_iff.mp ha
  have hi : s.system.Inside i th.calls := ⟨th, hth, rfl⟩
  have stands := placed.stands i _ hi
  generalize hcs : s.chores[i]? = o at stands
  generalize hc : th.calls = frames at stands
  cases stands with
  | free cs =>
    have hr : th.role = .caller := by
      have hpost := placed.callers i (List.getElem?_eq_some_iff.mp hcs).1
      have hpost : th.post = none := by simpa [posts, hth] using hpost
      cases hr : th.role with
      | caller => rfl
      | worker p k phase => simp [Thread.post, hr] at hpost
    cases cs with
    | nil => simp [Thread.inUserCode, hc, hr, hcs] at ha
    | cons c rest =>
      obtain rfl : .call c.operation pick = a := by
        simpa [Thread.inUserCode, hc, hr, hcs] using ha
      exact .chore hcs (.of_free (hc ▸ hi) (plain c rest hcs) started hs)
  | engaged rest engaged =>
    -- Inside a call the plan lets nobody begin another one, not even in a destructor.
    refine .chore hcs (.of_engaged engaged (hc ▸ hi) valid (fun op pick' he => ?_) hs)
    cases engaged <;> simp [Thread.inUserCode, hc, he] at ha
  | working busy =>
    refine .work hcs (.of_atWork busy (hc ▸ hi) valid (fun op pick' he => ?_) hs)
    cases busy with
    | loop =>
      cases hr : th.role with
      | caller => simp [Thread.inUserCode, hc, hr, hcs] at ha
      | worker p k phase => cases phase <;> simp [Thread.inUserCode, hc, hr, he] at ha
    | letGo _ _ => simp [Thread.inUserCode, hc, he] at ha
    | destroy _ _ => simp [Thread.inUserCode, hc, he] at ha

/-- Works end as planned. -/
theorem Plan.Allows.ending {p : PoolId} {k : Nat} {ending : Except Payload Value}
    (allowed : plan.Allows s i (.finish ending)) (hw : s.system.Working i p k (.running t)) :
    ending = plan.ending t := by
  obtain ⟨th, hth, hr, hc⟩ := hw
  obtain ⟨pick, fate, started, ha⟩ := allowed
  have planned : plan.ending t = ending := by
    simpa [Plan.action?, hth, Thread.inUserCode, hc, hr] using ha
  exact planned.symm

end Workload

end WorkerPool
