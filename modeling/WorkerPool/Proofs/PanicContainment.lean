import WorkerPool.Proofs.CriticalSections
import WorkerPool.Proofs.Excuses
import WorkerPool.Proofs.OneOwner

/-!
Panics of user code stay contained.

If the work of a task panics, the program goes on as if it had returned: at every point the same
steps are possible, the workers are at the same stations and the pools are the same, but that the
execution counts as panicked. Whoever joins the task is told of the panic, and the task can be
submitted again. If a destructor panics while a worker lets go of a task, no pool shows it at all.
-/
namespace WorkerPool

/-- Forgets the panics of destructors that workers have met. -/
def Mask.calm : Mask where
  failure _ := none

/-- What is said of a panic: the text that the payload carries, or that it is unknown. -/
inductive Payload.Says : Payload → String → Prop
  | text (message : String) : Says (.text message) message
  | unreadable : Says .unreadable "Unknown panic"

theorem Payload.says_message (payload : Payload) : payload.Says payload.message := by
  cases payload with
  | text message => exact .text message
  | unreadable => exact .unreadable

/-- Whether a call reports, or a drop logs, that a worker thread has panicked. -/
def Event.failsJoin : Event → Bool
  | replied (.failed e) | replied (.rejected e) | log (.closeFailed _ _ e) => e.isJoinFailure
  | _ => false

/-- The pool takes a task at once: it is open, its queue has room, and it needs no more workers. -/
structure Pool.Takes (pool : Pool) : Prop where
  isOpen : pool.refusal = none
  staffed : pool.needsWorker = false
  registered : pool.unregistered = 0

/-! ### Stories -/

section stories

variable {employer : ThreadId → Option PoolId} {t : TaskId} {h h₁ h₂ : Trace} {st : Stage}
  {i j : ThreadId} {o o' : Outcome}

/-- An invocation ends once. -/
theorem Story.ended_unique (story : Story employer t h st) (hi : (i, .ended t o) ∈ h)
    (hj : (j, .ended t o') ∈ h) (hr : o'.run = o.run) : o' = o := by
  have once : h.endings t o.run ≤ 1 := by
    rw [story.endings_eq]
    split <;> omega
  obtain ⟨h₁, h₂, rfl⟩ := List.append_of_mem hi
  have other (g : Trace) (hg : (j, .ended t o') ∈ g) : 0 < g.endings t o.run :=
    List.countP_pos_iff.mpr ⟨_, hg, by simp [Event.ends, hr]⟩
  have split : Trace.endings (h₁ ++ (i, .ended t o) :: h₂) t o.run =
      Trace.endings h₁ t o.run + (Trace.endings h₂ t o.run + 1) := by
    simp [Trace.endings, Event.ends]
  rcases List.mem_append.mp hj with hj | hj
  · have := other h₁ hj
    omega
  · rcases List.mem_cons.mp hj with hj | hj
    · cases hj
      rfl
    · have := other h₂ hj
      omega

/-- A task that has been joined rests until it is submitted again. -/
theorem Story.rests {x : Option Outcome}
    (story : Story employer t (h₁ ++ (i, .joined t x) :: h₂) st) (none : h₂.submissions t = 0) :
    ∃ n, st = .resting n := by
  rw [List.append_cons] at story
  obtain ⟨st₁, story₁⟩ := story.before
  have resting : st₁.taken = 0 := by
    obtain ⟨-, hc⟩ | ⟨n, p, k, -, he, -⟩ | ⟨n, p, -, -, he, -⟩ | ⟨n, p, o, -, -, he, -⟩ |
      ⟨n, o, -, -, rfl⟩ := story₁.last
    · simp [Event.concerns] at hc
    · cases he
    · cases he
    · cases he
    · rfl
  have before := story₁.balance
  have after := story.balance
  rw [Trace.submissions_append, Trace.joinings_append] at after
  cases st with
  | resting n => exact ⟨n, rfl⟩
  | _ =>
    simp only [Stage.taken] at after
    omega

end stories

namespace Mask

variable {u : TaskId}

theorem filterMap_calm (todo : List Disposal) : todo.filterMap calm.item = todo :=
  List.filterMap_some

theorem calm_lawful : calm.Lawful where
  holds t todo failure releasing := by rw [filterMap_calm]
  reference _ := rfl
  contents t slot := filterMap_calm _
  clear _ _ := rfl
  calm := rfl
  completed _ _ := rfl
  panicked _ _ := rfl

theorem calm_shares : calm.Shares u where
  slot slot := by simp [calm]
  outcome o := by simp [calm]
  work := rfl
  handle := rfl
  record := rfl

theorem calm_keeps (d : Disposal) : calm.Keeps d := by
  cases d with
  | outcome t o => exact ⟨o, rfl, rfl, rfl⟩
  | work t => rfl
  | handle t => exact calm_shares
  | reference t => trivial
  | record r => exact ⟨r, rfl⟩

theorem pools_calm {s : System} : (calm.apply s).pools = s.pools := by
  have member : calm.member = id := funext fun _ => rfl
  have pool : calm.pool = id := funext fun pool => by simp [Mask.pool, member]
  simp [apply_pools, pool]

end Mask

namespace System

variable {callers : Nat} {h g g₁ g₂ : Trace} {s s' u w : System} {i j : ThreadId} {a : Action}
  {es : List Event} {p : PoolId} {pool : Pool} {k n : Nat} {t : TaskId} {task : Task}
  {todo : List Disposal} {failure : Option Payload} {rest : List Frame}
  {σ : List (ThreadId × Action)}

/-! ### Destructors that panic in the loop of a worker -/

/-- A step other than the panic of such a destructor fits the mask. -/
theorem calm_fits (other : ∀ payload todo failure rest, a = .finish (.error payload) →
      ¬ s.Inside j (.destructor :: .disposing todo failure true :: rest)) :
    ∀ th, s.threads[j]? = some th → Mask.calm.Fits s th a := by
  intro th hth
  refine ⟨Mask.calm_shares.toPlain, rfl, fun _ _ _ _ => Mask.calm_shares, fun f rest hc => ?_,
    fun p k phase hc hr => ?_, fun payload todo failure rest ha hc =>
      absurd ⟨th, hth, hc⟩ (other payload todo failure rest ha)⟩
  · cases f with
    | awaitingWorker | awaitingOutcome => exact Mask.calm_shares.toPlain
    | disposing todo failure releasing =>
      cases todo with
      | nil => trivial
      | cons d todo => exact Mask.calm_keeps d
    | _ => trivial
  · cases phase with
    | holding u => exact ⟨Mask.calm_shares.toPlain, fun _ _ _ _ => rfl⟩
    | running u => exact fun _ _ _ => rfl
    | stashing u work o => exact ⟨Mask.calm_shares.toPlain, rfl⟩
    | stashed u returned => rfl
    | counted u => exact Mask.calm_shares.toPlain
    | _ => trivial

/-- However such a destructor ends, the worker goes on with the rest. -/
theorem calm_finish (ending : Except Payload Value)
    (hi : s.Inside j (.destructor :: .disposing todo failure true :: rest)) : ∃ s',
      s.step j (.finish ending) = some (s', []) ∧
      Mask.calm.apply s' =
        ((Mask.calm.apply s).onThread j Thread.pop).enter j (.disposing todo none true) := by
  obtain ⟨th, hth, hc⟩ := hi
  obtain ⟨failure', hs⟩ : ∃ failure', s.step j (.finish ending) =
      some ((s.onThread j Thread.pop).enter j (.disposing todo failure' true), []) := by
    cases ending with
    | ok _ => exact ⟨failure, by simp [step, hth, finish?, hc]⟩
    | error payload => exact ⟨failure.or (some payload), by simp [step, hth, finish?, hc]⟩
  refine ⟨_, hs, ?_⟩
  rw [Mask.apply_enter, Mask.apply_pop, Mask.frame, Mask.filterMap_calm]
  rfl

/-- Who is in such a destructor shows in the mask. -/
theorem calm_inside (same : Mask.calm.apply u = Mask.calm.apply w)
    (hi : u.Inside j (.destructor :: .disposing todo failure true :: rest)) : ∃ failure rest,
      w.Inside j (.destructor :: .disposing todo failure true :: rest) := by
  have hi' := hi.apply .calm
  rw [same] at hi'
  obtain ⟨th, hth, hc⟩ := hi'
  obtain ⟨th', hth', rfl⟩ : ∃ th', w.threads[j]? = some th' ∧ Mask.calm.thread th' = th := by
    simpa using hth
  obtain ⟨f, calls, hc', hf, hcalls⟩ := List.map_eq_cons_iff.mp hc
  obtain ⟨f', rest', rfl, hf', -⟩ := List.map_eq_cons_iff.mp hcalls
  cases f <;> cases hf
  cases f' with
  | disposing todo' failure' releasing' =>
    simp only [Mask.frame, Mask.filterMap_calm, Frame.disposing.injEq] at hf'
    obtain ⟨rfl, -, rfl⟩ := hf'
    exact ⟨failure', rest', th', hth', hc'⟩
  | _ => cases hf'

/-- What the mask takes for the same goes on in step. -/
theorem calm_step (same : Mask.calm.apply u = Mask.calm.apply w) :
    (u.step j a).map Mask.calm.effect = (w.step j a).map Mask.calm.effect := by
  by_cases panics : ∃ payload todo failure rest, a = .finish (.error payload) ∧
      u.Inside j (.destructor :: .disposing todo failure true :: rest)
  · obtain ⟨payload, todo, failure, rest, rfl, hi⟩ := panics
    obtain ⟨failure', rest', hi'⟩ := calm_inside same hi
    obtain ⟨u', hu, calm⟩ := calm_finish (.error payload) hi
    obtain ⟨w', hw, calm'⟩ := calm_finish (.error payload) hi'
    simp [hu, hw, Mask.effect, calm, calm', same]
  · have fits := calm_fits (s := u) (j := j) (a := a) fun payload todo failure rest ha hi =>
      panics ⟨payload, todo, failure, rest, ha, hi⟩
    have fits' := calm_fits (s := w) (j := j) (a := a) fun payload todo failure rest ha hi => by
      obtain ⟨failure', rest', hi'⟩ := calm_inside same.symm hi
      exact panics ⟨payload, todo, failure', rest', ha, hi'⟩
    rw [← Mask.step Mask.calm_lawful fits, ← Mask.step Mask.calm_lawful fits', same]

/-- What happens in a state happens in every state that the mask takes for the same. -/
theorem calm_replay {u' : System} (same : Mask.calm.apply u = Mask.calm.apply w)
    (hr : u.replay σ = some (g, u')) : ∃ g' w', w.replay σ = some (g', w') ∧ g'.code = g.code ∧
      Mask.calm.apply u' = Mask.calm.apply w' := by
  induction σ generalizing g u w with
  | nil =>
    cases hr
    exact ⟨[], w, rfl, rfl, same⟩
  | cons move σ ih =>
    obtain ⟨j, a⟩ := move
    obtain ⟨u₁, es, g₁, hs, hr₁, rfl⟩ := replay_cons hr
    have step := calm_step (j := j) (a := a) same
    rw [hs] at step
    obtain ⟨⟨w₁, es'⟩, hw, he⟩ := Option.map_eq_some_iff.mp step.symm
    obtain ⟨same₁, code⟩ := Prod.mk.inj he
    obtain ⟨g', w', hr', codes, same'⟩ := ih same₁.symm hr₁
    refine ⟨es'.map (j, ·) ++ g', w', by simp [System.replay, hw, hr'], ?_, same'⟩
    have code : es'.filter Event.isCode = es.filter Event.isCode := code
    rw [Trace.code_append, Trace.code_append, codes, Trace.code_map, Trace.code_map, code]

/-! ### What follows -/

/-- The same steps are possible, and the workers are at the same stations. -/
structure Alike (u w : System) : Prop where
  able : ∀ j a, (w.step j a).isSome = (u.step j a).isSome
  posts : w.posts = u.posts

/-- Whatever happens after a destructor has panicked in the loop of a worker happens in the other
state as well, with the same pools. -/
def Forgets (u w : System) : Prop :=
  ∀ σ g u', u.replay σ = some (g, u') → ∃ g' w', w.replay σ = some (g', w') ∧ g'.code = g.code ∧
    w'.pools = u'.pools ∧ u'.Alike w'

/-- Whatever happens after the work has panicked happens in the other state as well, but for the
destructor of the value. The pools are the same, except that the execution counts as completed. -/
def Excuses (t : TaskId) (n : Nat) (i : ThreadId) (u w : System) : Prop :=
  ∀ σ g u', u.replay σ = some (g, u') → ∃ σ' g' w', Pays t n u σ σ' ∧
    w.replay σ' = some (g', w') ∧ g'.codeBut (discards t n) = g.codeBut (discards t n) ∧
    w'.pools = (if g.blames i t then u'.pools.map (Pool.excused i) else u'.pools) ∧ u'.Alike w'

/-- The task is with its caller again, has its work, and every pool takes it. -/
structure Reusable (s : System) (t : TaskId) (task : Task) : Prop where
  work : task.slot.work
  ownership : task.slot.ownership = .caller
  outcome : task.slot.outcome = none
  accepted : ∀ k th p pool pick, s.threads[k]? = some th → th.inUserCode → s.canUse p →
    s.canShare t → s.pools[p]? = some pool → pool.Takes →
    ∃ s', s.step k (.call (.submit p t) pick) = some (s', pool.receipt p t)
  owned : ∀ k p a s' es, s.Attempts k p t a → s.step k a = some (s', es) →
    .replied (.failed (.alreadySubmitted (LogRecord.number t))) ∉ es

/-- Whoever joins the task before it is submitted again is told of the panic. From then on it can be
submitted. -/
structure Tells (u : System) (t : TaskId) (n : Nat) (message : String) : Prop where
  join : ∀ (σ : List (ThreadId × Action)) (g₁ g₂ : Trace) j x u',
    u.replay σ = some (g₁ ++ (j, .joined t x) :: g₂, u') → g₁.submissions t = 0 →
    x = some ⟨n, .panicked message⟩ ∧
      ∃ g₃, g₂ = (j, .replied (.failed (.taskPanicked (LogRecord.number t) message))) :: g₃
  again : ∀ (σ : List (ThreadId × Action)) (g₁ g₂ : Trace) j x u' task,
    u.replay σ = some (g₁ ++ (j, .joined t x) :: g₂, u') → g₂.submissions t = 0 →
    u'.tasks[t]? = some task → task.handle → u'.Reusable t task

/-- What a panic of user code leads to, in a state that a run has come to. -/
structure Contains (h : Trace) (s : System) : Prop where
  /-- If a work panics, it all goes on as if it had returned a value, and the text of the payload is
  told, if it has one. -/
  work : ∀ i p k t task payload v, s.Working i p k (.running t) → s.tasks[t]? = some task →
    ∃ u w message, payload.Says message ∧
      s.step i (.finish (.error payload)) =
        some (u, [.ended t ⟨task.runs, .panicked message⟩]) ∧
      s.step i (.finish (.ok v)) = some (w, [.ended t ⟨task.runs, .value v⟩]) ∧
      Excuses t task.runs i u w ∧ u.Tells t task.runs message
  /-- If a destructor panics while a worker lets go of a task, it all goes on as if it had
  returned. -/
  destructor : ∀ i todo failure rest payload v,
    s.Inside i (.destructor :: .disposing todo failure true :: rest) →
    ∃ u w, s.step i (.finish (.error payload)) = some (u, []) ∧
      s.step i (.finish (.ok v)) = some (w, []) ∧ u.Forgets w
  /-- A worker leaves its loop only if its pool has been shut down. -/
  loop : ∀ (i : ThreadId) p k, s.posts[i]? = some (some ⟨p, k, .exited⟩) → s.isClosed p
  /-- No call and no drop finds that a worker thread has panicked. -/
  joins : ∀ e ∈ h, e.2.failsJoin = false

/-! ### Workers and shutdowns -/

/-- Only a closed pool tells its workers to exit. -/
theorem Run.exited_closed (run : Run callers h s)
    (hpost : s.posts[i]? = some (some ⟨p, k, .exited⟩)) : s.isClosed p := by
  have all : s.Books ∧ ∀ (j : ThreadId) q l, s.posts[j]? = some (some ⟨q, l, .exited⟩) →
      s.isClosed q := by
    refine run.keeps (P := fun _ s => s.Books ∧ ∀ (j : ThreadId) q l,
      s.posts[j]? = some (some ⟨q, l, .exited⟩) → s.isClosed q) ⟨.start callers, ?_⟩ ?_
    · intro j q l hj
      simp [posts, System.start, Thread.post, List.getElem?_replicate] at hj
    · intro i h s es s' _ both m
      obtain ⟨books, closed⟩ := both
      refine ⟨books.move m, fun j q l hj => ?_⟩
      obtain ⟨pool, hp, hc⟩ : ∃ pool, s.pools[q]? = some pool ∧ pool.closed := by
        obtain hj | ⟨-, pool, hp, told⟩ := m.post_change.exits hj
        · simpa [isClosed, Option.any_eq_true] using closed j q l hj
        · refine ⟨pool, hp, ?_⟩
          by_contra ho
          simp [(books.pools q pool hp).stays (by simpa using ho) l] at told
      obtain ⟨pool', hp', change⟩ := m.pool_change hp
      exact isClosed_of_pool hp' (change.closed hc).1
  exact all.2 i p k hpost

theorem failsJoin_of_isMild {e : Event} (mild : e.isMild) : e.failsJoin = false := by
  cases e with
  | replied r => cases r <;> simp_all [Event.isMild, Reply.isMild, Event.failsJoin]
  | log r => cases r <;> simp_all [Event.isMild, Event.failsJoin]
  | _ => rfl

/-- Letting go of things joins no thread. -/
theorem failsJoin_dispose {d : Disposal} {releasing : Bool} (th : Thread) (calls : s.Calls)
    (hi : s.Inside i (.disposing (d :: todo) failure releasing :: rest)) :
    ∀ e ∈ (s.dispose i th (d :: todo) failure releasing).2, e.failsJoin = false := by
  cases d with
  | outcome u o =>
    simp only [System.dispose]
    split <;> simp [runDestructor, Event.failsJoin]
  | work u => simp [System.dispose, runDestructor, Event.failsJoin]
  | record r =>
    obtain ⟨u, rfl⟩ := (calls.given hi).1
    simp only [System.dispose]
    split <;> simp [Event.failsJoin]
  | handle u =>
    simp only [System.dispose]
    split
    · simp
    · split <;> simp [Event.failsJoin]
  | reference u =>
    simp only [System.dispose]
    split
    · simp
    · split <;> simp

theorem step_failsJoin (calls : s.Calls) (hs : s.step i a = some (s', es)) :
    ∀ e ∈ es, e.failsJoin = false := by
  by_cases sheds : s.Sheds i
  · obtain ⟨d, todo, failure, releasing, rest, hi⟩ := sheds
    obtain ⟨th, he⟩ := hi.disposes hs
    have told := failsJoin_dispose th calls hi
    rwa [he] at told
  · by_cases code : ∃ ending, a = .finish ending
    · obtain ⟨ending, rfl⟩ := code
      obtain ⟨th, hth, hs⟩ := Option.bind_eq_some_iff.mp hs
      have hs : s.finish? i th ending = some (s', es) := hs
      unfold finish? at hs
      split at hs
      · cases hs
        simp
      · obtain ⟨task, ht, hs⟩ := Option.bind_eq_some_iff.mp hs
        cases hs
        simp [Event.failsJoin]
      · cases hs
    · by_cases new : ∃ captured pick, a = .call (.createTask captured) pick
      · obtain ⟨captured, pick, rfl⟩ := new
        cases step_createTask hs
        simp [Event.failsJoin]
      · have lasting : Frame.Lasting fun _ _ => True :=
          ⟨fun _ _ _ _ => trivial, fun _ _ _ _ => trivial⟩
        have mild := mild_step lasting (fun _ _ => trivial) hs (fun ending h => code ⟨ending, h⟩)
          (fun captured pick h => new ⟨captured, pick, h⟩) sheds
        exact fun e he => failsJoin_of_isMild (mild.events e he)

theorem Run.failsJoin (run : Run callers h s) : ∀ e ∈ h, e.2.failsJoin = false := by
  induction run with
  | start => nofun
  | step run hs ih =>
    intro e he
    rcases List.mem_append.mp he with he | he
    · exact ih e he
    · obtain ⟨ev, hev, rfl⟩ := List.mem_map.mp he
      exact step_failsJoin run.calls hs ev hev

/-! ### Joins -/

/-- A submission of a task that is with its caller is not refused on account of the task. -/
theorem Attempts.not_owned (tries : s.Attempts k p t a) (calls : s.Calls)
    (ht : s.tasks[t]? = some task) (ho : task.slot.ownership = .caller)
    (hs : s.step k a = some (s', es)) :
    .replied (.failed (.alreadySubmitted (LogRecord.number t))) ∉ es := by
  obtain ⟨pool, task', -, ht', -, attempt⟩ := tries.attempt calls hs
  obtain rfl : task' = task := Option.some.inj (ht'.symm.trans ht)
  cases attempt with
  | declined declines =>
    cases declines with
    | refusal hr =>
      unfold Pool.refusal at hr
      split at hr
      · cases hr
        simp
      · split at hr
        · cases hr
          simp
        · cases hr
    | owned _ hne => exact absurd ho hne
    | unstaffed => simp
  | hires | waits => simp
  | accepted => simp [Pool.receipt]

/-- A pool that takes tasks at once takes one that is with its caller. -/
theorem submit_takes {th : Thread} (pick : Pick) (hth : s.threads[k]? = some th)
    (code : th.inUserCode) (use : s.canUse p) (share : s.canShare t)
    (hp : s.pools[p]? = some pool) (takes : pool.Takes) (ht : s.tasks[t]? = some task)
    (ho : task.slot.ownership = .caller) :
    ∃ s', s.step k (.call (.submit p t) pick) = some (s', pool.receipt p t) := by
  have taken : s.step k (.call (.submit p t) pick) =
      some ((s.inCall k).accept k p pool t task pick) := by
    simp [step, hth, code, call?, hp, ht, use, share, System.submit, takes.isOpen, takes.staffed,
      takes.registered, ho, inCall]
  have told : ((s.inCall k).accept k p pool t task pick).2 = pool.receipt p t := by
    simp [System.accept, ho, emit, reply, Pool.receipt]
  exact ⟨_, taken.trans (congrArg some (Prod.ext rfl told))⟩

/-- A task that has been joined, and not submitted since, is at rest. -/
theorem Run.reusable {x : Option Outcome} (run : Run callers (g₁ ++ (j, .joined t x) :: g₂) s)
    (none : Trace.submissions g₂ t = 0) (ht : s.tasks[t]? = some task) (hh : task.handle) :
    s.Reusable t task := by
  obtain ⟨life, st, hat, story⟩ := run.kept t
  obtain ⟨n, rfl⟩ : ∃ n, st = .resting n := story.rests none
  have agrees := hat.agrees
  have idle : life = .idle := by
    cases life with
    | idle => rfl
    | carried p i phase => cases phase <;> simp [Life.Agrees] at agrees
    | _ => simp [Life.Agrees] at agrees
  subst idle
  obtain ⟨-, ho, hout, hwork⟩ := agrees
  rw [record_slot ht] at ho hout hwork
  rw [record_handle ht] at hwork
  exact ⟨hwork hh, ho, hout,
    fun k th p pool pick hth code use share hp takes =>
      submit_takes pick hth code use share hp takes ht ho,
    fun k p a s' es tries hs => tries.not_owned run.calls ht ho hs⟩

/-- The invocation that runs is the one that the last submission has paid for. -/
theorem Run.paid (run : Run callers h s) (hw : s.Working i p k (.running t))
    (ht : s.tasks[t]? = some task) : h.submissions t = task.runs := by
  obtain ⟨life, st, hat, story⟩ := run.kept t
  obtain rfl := hat.of_bearing (hw.bearing_self rfl)
  obtain ⟨rfl, -⟩ := hat.agrees
  rw [story.submissions_eq, Stage.bought, record_runs ht]

/-- Whoever joins the task after an invocation has panicked is told so. -/
theorem Run.tells {message : String} (run : Run callers h s)
    (hw : s.Working i p k (.running t)) (ht : s.tasks[t]? = some task)
    (hs : s.step i a = some (u, [.ended t ⟨task.runs, .panicked message⟩])) :
    u.Tells t task.runs message := by
  refine ⟨fun σ g₁ g₂ j x u' hr none => ?_, fun σ g₁ g₂ j x u' task' hr none ht' hh => ?_⟩
  · have after := (run.step hs).replay hr
    rw [← List.append_assoc] at after
    obtain ⟨life, st, -, story⟩ := after.kept t
    obtain ⟨o, rfl, ho, j', hmem⟩ := story.joined_mem
    have paid : o.run = task.runs := by
      rw [ho, Trace.submissions_append, Trace.submissions_append, run.paid hw ht, none]
      simp [Trace.submissions, Event.buys]
    obtain rfl : o = ⟨task.runs, .panicked message⟩ :=
      story.ended_unique (i := i) (by simp) (List.mem_append_left _ hmem) paid
    exact ⟨rfl, after.answered.joined⟩
  · have after := (run.step hs).replay hr
    rw [← List.append_assoc] at after
    exact after.reusable none ht' hh

/-! ### Panics -/

/-- The end of a work. -/
theorem Working.step_running (ending : Except Payload Value) (hw : s.Working i p k (.running t))
    (ht : s.tasks[t]? = some task) :
    s.step i (.finish ending) = some (s.endWork i t task ending) := by
  obtain ⟨th, hth, hr, hc⟩ := hw
  simp [step, hth, finish?, hc, hr, ht]

/-- A panic of a work is excused ever after. -/
theorem Run.excuses {payload : Payload} {v : Value} (run : Run callers h s)
    (hw : s.Working i p k (.running t)) (ht : s.tasks[t]? = some task)
    (hu : s.endWork i t task (.error payload) =
      (u, [.ended t ⟨task.runs, .panicked payload.message⟩]))
    (hv : s.endWork i t task (.ok v) = (w, [.ended t ⟨task.runs, .value v⟩])) :
    Excuses t task.runs i u w := by
  have same := run.excuse_ended (v := v) payload hw ht
  rw [hu, hv] at same
  have run' := run.step ((hw.step_running (.error payload) ht).trans (congrArg some hu))
  have ended (g : Trace) : Trace.endings
      (h ++ [(i, .ended t ⟨task.runs, .panicked payload.message⟩)] ++ g) t task.runs ≠ 0 := by
    rw [Trace.endings_append, Trace.endings_append]
    simp [Trace.endings, Event.ends]
  have hw' : u.Working i p k (.stashing t true ⟨task.runs, .panicked payload.message⟩) := by
    have working : (s.endWork i t task (.error payload)).1.Working i p k _ :=
      hw.onThread (Thread.rephases_leave _)
    rwa [hu] at working
  have x : u.Excusable i t task.runs false := .stashing rfl rfl hw'
  intro σ g u' hr
  obtain ⟨x', σ', g', pays, code, hr'⟩ := x.follows run' (by simpa using ended []) hr
  rw [same] at hr'
  exact ⟨σ', g', _, pays, hr', code, pools_excuse,
    fun j a => x'.isSome_step (run'.replay hr) (ended g), posts_apply _⟩

/-- The panic of a destructor that a worker runs is forgotten ever after. -/
theorem forgets (same : Mask.calm.apply u = Mask.calm.apply w) : u.Forgets w := by
  intro σ g u' hr
  obtain ⟨g', w', hr', code, same'⟩ := calm_replay same hr
  refine ⟨g', w', hr', code, ?_, fun j a => ?_, ?_⟩
  · rw [← Mask.pools_calm, ← same', Mask.pools_calm]
  · simpa using congrArg Option.isSome (calm_step (j := j) (a := a) same'.symm)
  · rw [← posts_apply .calm, ← same', posts_apply]

/-- In every run, panics of user code stay contained. -/
theorem Run.contains_panics (run : Run callers h s) : Contains h s := by
  refine ⟨fun i p k t task payload v hw ht => ?_, fun i todo failure rest payload v hi => ?_,
    fun i p k => run.exited_closed, run.failsJoin⟩
  · have hs := hw.step_running (.error payload) ht
    exact ⟨_, _, _, payload.says_message, hs, hw.step_running (.ok v) ht,
      run.excuses hw ht rfl rfl, run.tells hw ht hs⟩
  · obtain ⟨u, hu, calm⟩ := calm_finish (.error payload) hi
    obtain ⟨w, hw, calm'⟩ := calm_finish (.ok v) hi
    exact ⟨u, w, hu, hw, forgets (calm.trans calm'.symm)⟩

/-- The work of a task is running on a worker; and a worker runs the destructor of the value that a
detached task has returned. -/
theorem contains_panics_running :
    (∃ h s, Run 1 h s ∧ s.Working 1 0 0 (.running 0) ∧ Contains h s) ∧
      ∃ h s, Run 1 h s ∧ s.Inside 1 [.destructor, .disposing [.work 0] none true] ∧
        Contains h s := by
  have running : Run 1 _ _ := run_of_replay [(0, .call (.createPool (.new 1)) 0),
    (0, .call (.createTask none) 0), (0, .call (.submit 0 0) 0), (1, .advance 0), (0, .advance 0),
    (1, .advance 0), (1, .advance 0)] rfl
  have releasing : Run 1 _ _ := run_of_replay [(0, .call (.createPool (.new 1)) 0),
    (0, .call (.createTask none) 0), (0, .call (.submit 0 0) 0), (1, .advance 0), (0, .advance 0),
    (1, .advance 0), (1, .advance 0), (0, .call (.detach 0) 0), (0, .advance 0), (0, .advance 0),
    (0, .advance 0), (0, .advance 0), (1, .finish (.ok .null)), (1, .advance 0), (1, .advance 0),
    (1, .advance 0), (1, .advance 0), (1, .advance 0)] rfl
  exact ⟨⟨_, _, running, ⟨_, rfl, rfl, rfl⟩, running.contains_panics⟩,
    _, _, releasing, ⟨_, rfl, rfl⟩, releasing.contains_panics⟩

end System

end WorkerPool
