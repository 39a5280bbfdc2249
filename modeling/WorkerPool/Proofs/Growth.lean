import WorkerPool.Proofs.ShutdownWait

/-!
The numbers by which a pool grows.

A worker counts as being without a task also if a task in the queue waits for it already, or if it
still lets go of its last task. So an open pool has as many workers as wait for work, let go of a
task, run one or have yet to register; and what it has on its hands, be it queued, running or being
let go of, grows with submissions only.
-/
namespace WorkerPool

/-- Places without repetition at which a property holds, if they are all such places, are as many as
the elements that have it. -/
theorem length_eq_countP {α : Type} {places : List Nat} {l : List α} {q : α → Bool}
    (distinct : places.Nodup) (h : ∀ j, j ∈ places ↔ ∃ a, l[j]? = some a ∧ q a) :
    places.length = l.countP q := by
  have perm : places.Perm ((List.range l.length).filter fun j => l[j]?.any q) := by
    refine (List.perm_ext_iff_of_nodup distinct (List.nodup_range.filter _)).mpr fun j => ?_
    rw [h, List.mem_filter, List.mem_range, Option.any_eq_true]
    refine ⟨fun ⟨a, ha, hq⟩ => ⟨(List.getElem?_eq_some_iff.mp ha).1, a, ha, hq⟩, And.right⟩
  rw [perm.length_eq, ← List.countP_eq_length_filter]
  clear perm h distinct places
  induction l with
  | nil => rfl
  | cons a l ih =>
    rw [List.length_cons, List.range_succ_eq_map, List.countP_cons, List.countP_map,
      List.countP_cons, ← ih]
    simp [Function.comp_def]

/-- Whether the thread is a worker of the pool that waits for work, woken or not. -/
def Thread.waitsIn (p : PoolId) (th : Thread) : Bool :=
  match th.role with
  | .worker q _ (.parked _) => q == p
  | _ => false

namespace Pool

/-- What a pool has on its hands: tasks that are queued, run or are let go of. -/
def workload (pool : Pool) : Nat :=
  pool.queue.length + pool.runningCount + pool.releasing.length

theorem workload_accept {pool : Pool} {t : TaskId} :
    (pool.accept t).workload = pool.workload + 1 := by
  have hlen := length_accept pool t
  have hrun : (pool.accept t).runningCount = pool.runningCount := rfl
  have hrel : (pool.accept t).releasing = pool.releasing := rfl
  simp only [workload, hlen, hrun, hrel]
  omega

theorem Balanced.length_releasing {posts : List (Option Post)} {p : PoolId} {pool : Pool}
    (h : pool.Balanced posts p) : pool.releasing.length = staff posts p .releasing := by
  refine length_eq_countP h.distinct fun j => (h.releasing j).trans ⟨?_, ?_⟩
  · rintro ⟨k, hk⟩
    exact ⟨_, hk, by simp⟩
  · rintro ⟨post, hpost, hq⟩
    obtain ⟨⟨q, k, st⟩, rfl, hx⟩ := (Option.any_eq_true _ _).mp hq
    obtain ⟨rfl, rfl⟩ : q = p ∧ st = .releasing := by simpa using hx
    exact ⟨k, hpost⟩

/-- Only a submission adds to what a pool has on its hands, and no worker is lost. -/
theorem Change.workload {s : System} {i : ThreadId} {p : PoolId} {es : List Event}
    {pool pool' : Pool} (change : Pool.Change s i p es pool pool') (books : s.Books)
    (hp : s.pools[p]? = some pool) :
    pool'.workload ≤ pool.workload + (es.filterMap (·.push? p)).length ∧
      pool.crew.length ≤ pool'.crew.length := by
  have same {new : Pool} (hw : new.workload ≤ pool.workload)
      (hc : pool.crew.length ≤ new.crew.length) :
      new.workload ≤ pool.workload + (es.filterMap (·.push? p)).length ∧
        pool.crew.length ≤ new.crew.length :=
    ⟨hw.trans (Nat.le_add_right _ _), hc⟩
  cases change with
  | same => exact same le_rfl le_rfl
  | hire j _ => exact same le_rfl (by simp [Pool.hire])
  | accept t _ hpush =>
    have := List.length_pos_iff.mpr hpush
    refine ⟨?_, le_rfl⟩
    rw [workload_accept]
    omega
  | close _ => exact same le_rfl le_rfl
  | stop k _ => exact same le_rfl (by simp [requestExit])
  | dismiss _ => exact same le_rfl le_rfl
  | dropHandle => exact same le_rfl le_rfl
  | register _ => exact same le_rfl le_rfl
  | released _ => exact same (Nat.add_le_add_left (List.length_filter_le _ _) _) le_rfl
  | claim hc =>
    obtain ⟨queue, hpop, rfl⟩ := claim?_eq hc
    obtain ⟨rest, hentries, rfl⟩ := PendingQueue.pop?_eq hpop
    refine same ?_ le_rfl
    simp only [Pool.workload, PendingQueue.length, hentries, List.length_cons]
    omega
  | count k returned => exact same le_rfl (by simp [Pool.count])
  | retire hw =>
    have := (books.pools p pool hp).running_pos hw.post
    refine same ?_ le_rfl
    simp only [Pool.workload, Pool.retire, List.length_append, List.length_singleton]
    omega

end Pool

namespace System

variable {s s' : System} {i : ThreadId} {p : PoolId} {pool : Pool} {t : TaskId} {task : Task}
  {f : Frame} {rest : List Frame} {es : List Event} {e : Effect} {pick : Pick} {a : Action}
  {woken : Bool}

/-- The workers of the pool that wait for work. -/
def waiting (s : System) (p : PoolId) : Nat := s.threads.countP (Thread.waitsIn p)

theorem waiting_eq : s.waiting p = staff s.posts p .idle := by
  unfold waiting staff posts
  rw [List.countP_map]
  apply List.countP_congr
  intro th _
  unfold Thread.waitsIn
  cases hr : th.role with
  | caller => simp [Thread.post, hr]
  | worker q k phase => cases phase <;> simp [Thread.post, hr, Phase.station]

/-- A worker without a task waits for work or lets go of its last task. -/
theorem Books.idleCount (books : s.Books) (hp : s.pools[p]? = some pool)
    (ho : pool.closed = false) : pool.idleCount = s.waiting p + pool.releasing.length := by
  have balanced := books.pools p pool hp
  rw [balanced.idle ho, balanced.length_releasing, waiting_eq]

/-- What becomes of the workers of an open pool. -/
theorem Books.crew_eq (books : s.Books) (hp : s.pools[p]? = some pool) (ho : pool.closed = false) :
    pool.crew.length =
      s.waiting p + pool.releasing.length + pool.runningCount + pool.unregistered := by
  have balanced := books.pools p pool hp
  have hidle := books.idleCount hp ho
  have htotal := balanced.total
  have hroster := balanced.roster
  have hsize : pool.rosterSize = pool.crew.length := by simp [Pool.rosterSize, ho]
  simp only [Pool.unregistered, hsize]
  omega

theorem Books.needsWorker_iff (books : s.Books) (hp : s.pools[p]? = some pool)
    (ho : pool.closed = false) : pool.needsWorker ↔ pool.crew = [] ∨ s.waiting p = 0 ∧
      pool.releasing = [] ∧ pool.unregistered = 0 ∧ pool.crew.length < pool.config.maxThreads := by
  simp [Pool.needsWorker, Pool.rosterSize, ho, books.idleCount hp ho, and_assoc]

/-! ### What happens in the meantime -/

theorem Moves.workload (ms : Moves i s es s') (books : s.Books) (hp : s.pools[p]? = some pool) :
    ∃ pool', s'.pools[p]? = some pool' ∧
      pool'.workload ≤ pool.workload + (es.filterMap (·.push? p)).length ∧
      pool.crew.length ≤ pool'.crew.length := by
  induction ms generalizing pool with
  | nil => exact ⟨pool, hp, Nat.le_add_right _ _, le_rfl⟩
  | cons m _ ih =>
    obtain ⟨pool₁, hp₁, change⟩ := m.pool_change hp
    obtain ⟨hload₁, hcrew₁⟩ := change.workload books hp
    obtain ⟨pool₂, hp₂, hload₂, hcrew₂⟩ := ih (books.move m) hp₁
    refine ⟨pool₂, hp₂, ?_, hcrew₁.trans hcrew₂⟩
    rw [List.filterMap_append, List.length_append]
    omega

/-! ### Steps of a submission -/

/-- The step is the last one of a submission, and the pool takes the task. -/
structure Accepts (s : System) (p : PoolId) (pool : Pool) (e : Effect) : Prop where
  refusal : pool.refusal = none
  registered : pool.unregistered = 0
  pools : ∃ t, e.1.pools = s.pools.set p (pool.accept t)
  posts : e.1.posts = s.posts
  done : .replied .done ∈ e.2

theorem accepts_accept (hr : pool.refusal = none) (hu : pool.unregistered = 0)
    (done : .replied .done ∈ (s.accept i p pool t task pick).2) :
    s.Accepts p pool (s.accept i p pool t task pick) := by
  unfold System.accept at done ⊢
  split at done
  · simp [reply] at done
  · next hown =>
    rw [if_neg hown]
    let told := (s.setSlot t task.slot.claim).setPool p (pool.accept t)
    have hpop : ((told.wakeOne p pick).onThread i Thread.pop).posts = (told.wakeOne p pick).posts :=
      posts_onThread fun _ => rfl
    exact ⟨hr, hu, ⟨t, pools_wakeOne (s := told) pick⟩, hpop.trans (posts_wakeOne pick),
      by simp [emit, reply]⟩

/-- What the first step of a submission does about workers, unless it fails. -/
inductive SubmitStep (s : System) (i : ThreadId) (p : PoolId) (t : TaskId) (pool : Pool) :
    Effect → Prop
  | fails {s₁ : System} (e : PoolError) : SubmitStep s i p t pool (s₁, [.replied (.failed e)])
  /-- The pool gets a worker, and the submission waits for it. -/
  | hires {s₁ : System} {k j : Nat} {name : String} {rest : List Frame} : pool.refusal = none →
      pool.needsWorker → s₁.pools = s.pools.set p (pool.hire j) →
      s₁.Inside i (.awaitingWorker p t false :: rest) →
      SubmitStep s i p t pool (s₁, [.log (.spawned p k name)])
  | waits {s₁ : System} {rest : List Frame} : pool.refusal = none → pool.needsWorker = false →
      0 < pool.unregistered → s₁.pools = s.pools →
      s₁.Inside i (.awaitingWorker p t false :: rest) → SubmitStep s i p t pool (s₁, [])
  | accepts {e : Effect} : pool.needsWorker = false → s.Accepts p pool e →
      (∀ ev ∈ e.2, ev.spawn? p = none) → SubmitStep s i p t pool e

theorem spawn?_accept {ev : Event} (hev : ev ∈ (s.accept i p pool t task pick).2) :
    ev.spawn? p = none := by
  unfold System.accept at hev
  split at hev
  · simp_all [reply, Event.spawn?]
  · simp only [emit, reply, List.cons_append, List.nil_append, List.mem_cons, List.not_mem_nil,
      or_false] at hev
    rcases hev with rfl | rfl | rfl <;> rfl

theorem submitStep_accept (hn : pool.needsWorker = false) (hr : pool.refusal = none)
    (hu : pool.unregistered = 0) : SubmitStep s i p t pool (s.accept i p pool t task pick) := by
  by_cases hown : task.slot.ownership = .caller
  · have done : .replied .done ∈ (s.accept i p pool t task pick).2 := by
      simp [System.accept, hown, emit, reply]
    exact .accepts hn (accepts_accept hr hu done) fun _ => spawn?_accept
  · unfold System.accept
    rw [if_pos hown]
    exact .fails _

theorem submitStep_submit (hi : s.Inside i (f :: rest)) :
    SubmitStep s i p t pool (s.submit i p pool t task pick) := by
  unfold System.submit
  split
  · exact .fails _
  · next hr =>
    split
    · exact .fails _
    · split
      · next hn =>
        split
        · exact .hires hr hn rfl hi.hired.enter
        · exact .fails _
      · next hn =>
        have hn : pool.needsWorker = false := by simpa using hn
        split
        · next hu => exact .waits hr hn hu rfl hi.enter
        · next hu => exact submitStep_accept hn hr (by omega)

/-- The call of a submission. -/
theorem submitStep_of_step (hs : s.step i (.call (.submit p t) pick) = some e) :
    ∃ pool, s.pools[p]? = some pool ∧ SubmitStep s i p t pool e := by
  obtain ⟨th, pool, task, hth, hp, -, -, rfl⟩ := step_submit hs
  refine ⟨pool, hp, ?_⟩
  have hposts : (s.inCall i).posts = s.posts := posts_onThread fun _ => rfl
  have step : SubmitStep (s.inCall i) i p t pool ((s.inCall i).submit i p pool t task pick) :=
    submitStep_submit (.inCall hth)
  generalize (s.inCall i).submit i p pool t task pick = e at step ⊢
  cases step with
  | fails e => exact .fails e
  | hires hr hn hpools hi => exact .hires hr hn hpools hi
  | waits hr hn hu hpools hi => exact .waits hr hn hu hpools hi
  | accepts hn acc quiet =>
    exact .accepts hn { acc with posts := acc.posts.trans hposts } quiet

theorem resumeSubmit_step : s.resumeSubmit i p pool t task pick =
      (s.enter i (.awaitingWorker p t false), []) ∨
    ∃ r, .replied r ∈ (s.resumeSubmit i p pool t task pick).2 := by
  unfold System.resumeSubmit
  split
  · exact .inl rfl
  · split
    · exact .inr ⟨_, List.mem_singleton_self _⟩
    · unfold System.accept
      split
      · exact .inr ⟨_, List.mem_singleton_self _⟩
      · exact .inr ⟨.done, by simp [emit, reply]⟩

theorem accepts_resumeSubmit (done : .replied .done ∈ (s.resumeSubmit i p pool t task pick).2) :
    s.Accepts p pool (s.resumeSubmit i p pool t task pick) := by
  unfold System.resumeSubmit at done ⊢
  split at done
  · simp at done
  · next hu =>
    rw [if_neg hu]
    cases hr : pool.refusal with
    | some err => simp [hr, reply] at done
    | none =>
      simp only [hr] at done
      exact accepts_accept hr (by omega) done

/-- A submission that goes on waits again or replies, and if it succeeds the pool takes the task. -/
theorem resumeStep_of_step (hi : s.Inside i (.awaitingWorker p t woken :: rest))
    (hs : s.step i a = some e) : ∃ pool, s.pools[p]? = some pool ∧
      (e = (s.enter i (.awaitingWorker p t false), []) ∨ ∃ r, .replied r ∈ e.2) ∧
      (.replied .done ∈ e.2 → s.Accepts p pool e) := by
  obtain ⟨pool, task, pick, hp, -, rfl⟩ := hi.resumesSubmit hs
  exact ⟨pool, hp, resumeSubmit_step, accepts_resumeSubmit⟩

end System

end WorkerPool
