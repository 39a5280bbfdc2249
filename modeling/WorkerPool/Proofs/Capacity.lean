import WorkerPool.Proofs.Recruits
import WorkerPool.Proofs.Rejections

/-!
The capacity of a pool whose workers are all busy.

A pool declines a submission for want of room only while its queue is full. As long as all workers
that it may have execute works, nothing leaves the queue and no worker is started: the pool takes
submissions until the queue is full, whichever come first, and each is answered at once.
-/
namespace WorkerPool

open Function (update)

/-- No work has ended, and no other pool has taken a task. -/
def Event.isLocal (p : PoolId) : Event → Bool
  | ended .. => false
  | log (.submitted q ..) => q == p
  | _ => true

def Event.isDone : Event → Bool
  | .replied .done => true
  | _ => false

/-- The task of a submission to the pool, if the frame is one. -/
def Frame.submission? (p : PoolId) : Frame → Option TaskId
  | awaitingWorker q t _ => if q = p then some t else none
  | _ => none

/-- What the queue of the pool has room for. -/
def Pool.room (pool : Pool) : Nat := pool.config.maxPending - pool.queue.length

theorem Pool.room_accept {pool : Pool} (t : TaskId)
    (h : pool.queue.length < pool.config.maxPending) : pool.room = (pool.accept t).room + 1 := by
  have hconfig : (pool.accept t).config.maxPending = pool.config.maxPending := rfl
  simp only [room, length_accept, hconfig]
  omega

/-- What stays of a pool while its workers are busy: its workers, and its queue unless the events
tell of a task that it takes. -/
structure Pool.Stays (p : PoolId) (es : List Event) (pool pool' : Pool) : Prop where
  hands : pool'.hands = pool.hands
  config : pool'.config = pool.config
  queue : es.filterMap (·.push? p) = [] → pool'.queue = pool.queue

namespace Pool.Stays

variable {p : PoolId} {es es' : List Event} {pool pool' pool'' : Pool}

theorem refl (pool : Pool) : Stays p es pool pool := ⟨rfl, rfl, fun _ => rfl⟩

theorem trans (stays : Stays p es pool pool') (stays' : Stays p es' pool' pool'') :
    Stays p (es ++ es') pool pool'' := by
  refine ⟨stays'.hands.trans stays.hands, stays'.config.trans stays.config, fun quiet => ?_⟩
  rw [List.filterMap_append, List.append_eq_nil_iff] at quiet
  exact (stays'.queue quiet.2).trans (stays.queue quiet.1)

end Pool.Stays

/-- A worker that executes the work of a task does so until the work has ended. -/
theorem Record.Change.running {r r' : Record} {i j : ThreadId} {t : TaskId} {es : List Event}
    {h : Trace} {p : PoolId} (change : r.Change i t es r') (kept : r.Kept t h)
    (hb : r.bearing j = some (p, .running t)) (lasts : j = i → ∀ o, .ended t o ∉ es) :
    r'.bearing j = some (p, .running t) := by
  obtain ⟨life, st, hat, -⟩ := kept
  have at_work := hat.of_bearing hb
  have other {q : PoolId} {phase : Phase} (hi : r.bearing i = some (q, phase))
      (hne : phase ≠ .running t) (x : Option (PoolId × Phase)) :
      update r.bearing i x j = some (p, .running t) := by
    have hij : j ≠ i := by
      rintro rfl
      rw [hi] at hb
      cases hb
      exact hne rfl
    rw [Function.update_of_ne hij, hb]
  cases change with
  | same _ => exact hb
  | hire _ _ => exact hb
  | accept _ _ => exact hb
  | take _ _ _ => exact hb
  | surrender _ _ => exact hb
  | abandon _ _ _ => exact hb
  | clear _ none _ => simp [none] at hb
  | claim queued _ => cases at_work.symm.trans (hat.of_queued queued)
  | begin hi _ => exact other hi nofun _
  | beginEmpty hi _ => exact other hi nofun _
  | @endWork _ o hi _ =>
    have hij : j ≠ i := fun hij => lasts hij o (List.mem_singleton_self _)
    exact (Function.update_of_ne hij _ _).trans hb
  | stash hi => exact other hi nofun _
  | count hi _ => exact other hi nofun _
  | retire hi _ => exact other hi nofun _

namespace System

variable {s s' s₁ : System} {i j : ThreadId} {own : List Passage} {last : Passage} {g h : Trace}
  {es : List Event} {a : Action} {callers k n m : Nat} {pick : Pick} {p q : PoolId} {t u : TaskId}
  {pool pool' : Pool} {task : Task} {st : Station} {σ : List (ThreadId × Action)}

/-- All workers that the pool may have are there, and each executes a work. -/
structure Saturated (s : System) (p : PoolId) (pool : Pool) : Prop where
  at_pool : s.pools[p]? = some pool
  full : pool.crew.length = pool.config.maxThreads
  executing : ∀ j ∈ pool.hands, ∃ t, s.Has j p (.running t)

namespace Saturated

theorem busy (sat : s.Saturated p pool) (books : s.Books)
    (hi : s.posts[i]? = some (some ⟨p, k, st⟩)) : i ∈ pool.hands ∧ st = .busy := by
  have hmem : i ∈ pool.hands :=
    List.mem_of_getElem? (((books.pools p pool sat.at_pool).crew k i).mpr ⟨st, hi⟩)
  obtain ⟨t, th, k', hth, hr⟩ := sat.executing i hmem
  have hpost : s.posts[i]? = some (some ⟨p, k', .busy⟩) := by
    simp [posts, hth, Thread.post, hr, Phase.station]
  rw [hi] at hpost
  cases hpost
  exact ⟨hmem, rfl⟩

theorem staff_eq (sat : s.Saturated p pool) (books : s.Books) (hst : st ≠ .busy) :
    staff s.posts p st = 0 := by
  by_contra hne
  obtain ⟨post, hmem, hpost⟩ := List.countP_pos_iff.mp (Nat.pos_of_ne_zero hne)
  obtain ⟨i, hi⟩ := List.getElem?_of_mem hmem
  cases post with
  | none => simp at hpost
  | some post =>
    obtain ⟨q, k, st'⟩ := post
    obtain ⟨rfl, rfl⟩ : q = p ∧ st' = st := by simpa using hpost
    exact hst (sat.busy books hi).2

theorem isOpen (sat : s.Saturated p pool) (books : s.Books) : pool.closed = false := by
  have balanced := books.pools p pool sat.at_pool
  by_contra hc
  have hpos : 0 < pool.hands.length := by
    have := (Config.valid_bounds balanced.valid).1.1
    simp only [Pool.hands, List.length_map, sat.full]
    omega
  have hk := List.getElem?_eq_getElem hpos
  obtain ⟨st, hst⟩ := (balanced.crew _ _).mp hk
  obtain ⟨-, rfl⟩ := sat.busy books hst
  have := staff_pos hst
  rw [← balanced.running, (balanced.calm (by simpa using hc)).1] at this
  exact absurd this (Nat.lt_irrefl 0)

theorem idleCount (sat : s.Saturated p pool) (books : s.Books) : pool.idleCount = 0 := by
  rw [(books.pools p pool sat.at_pool).idle (sat.isOpen books), sat.staff_eq books (by simp),
    sat.staff_eq books (by simp)]

theorem unregistered (sat : s.Saturated p pool) (books : s.Books) : pool.unregistered = 0 := by
  have := (books.pools p pool sat.at_pool).enlisted (sat.isOpen books)
  rw [sat.staff_eq books (by simp)] at this
  simp [Pool.unregistered, Pool.rosterSize, sat.isOpen books, this]

/-- At the ceiling, a pool without an idle worker gets no other. -/
theorem needsWorker (sat : s.Saturated p pool) (books : s.Books) : pool.needsWorker = false := by
  have := (Config.valid_bounds (books.pools p pool sat.at_pool).valid).1.1
  have hsize : pool.rosterSize = pool.config.maxThreads := by
    simp [Pool.rosterSize, sat.isOpen books, sat.full]
  simp only [Pool.needsWorker, hsize, lt_irrefl, decide_false, Bool.and_false, Bool.or_false,
    beq_eq_false_iff_ne]
  omega

/-! ### What a step leaves -/

theorem stays (sat : s.Saturated p pool) (books : s.Books) (m : Move i s es s') :
    ∃ pool', s'.pools[p]? = some pool' ∧ pool.Stays p es pool' := by
  have balanced := books.pools p pool sat.at_pool
  obtain ⟨pool', hp', change⟩ := m.pool_change sat.at_pool
  have balanced' := (books.move m).pools p pool' hp'
  refine ⟨pool', hp', ?_⟩
  cases change with
  | hire j _ =>
    -- There is no room for another worker.
    have := balanced'.ceiling
    simp [Pool.hire, sat.full] at this
  | accept t _ hpush => exact ⟨rfl, rfl, fun quiet => absurd quiet hpush⟩
  | claim hc =>
    -- Nobody is there to claim a task.
    obtain ⟨queue, -, rfl⟩ := Pool.claim?_eq hc
    have htotal := balanced.total
    have htotal' := balanced'.total
    have hidle := sat.idleCount books
    simp only at htotal'
    omega
  | stop k _ => exact ⟨map_modify_of_eq fun _ => rfl, rfl, fun _ => rfl⟩
  | count k returned => exact ⟨map_modify_of_eq fun _ => rfl, rfl, fun _ => rfl⟩
  | _ => exact ⟨rfl, rfl, fun _ => rfl⟩

theorem move (sat : s.Saturated p pool) (books : s.Books) (kept : ∀ t, (s.record t).Kept t h)
    (m : Move i s es s') (lasts : i ∈ pool.hands → ∀ t o, .ended t o ∉ es) :
    ∃ pool', s'.Saturated p pool' ∧ pool.Stays p es pool' := by
  obtain ⟨pool', hp', stays⟩ := sat.stays books m
  have length (pool : Pool) : pool.hands.length = pool.crew.length := by simp [Pool.hands]
  refine ⟨pool', ⟨hp', ?_, fun j hj => ?_⟩, stays⟩
  · rw [← length, stays.hands, length, sat.full, stays.config]
  · rw [stays.hands] at hj
    obtain ⟨t, has⟩ := sat.executing j hj
    exact ⟨t, has_of_bearing ((m.change t).running (kept t) (has.bearing rfl)
      fun hji o => lasts (hji ▸ hj) t o)⟩

theorem step (sat : s.Saturated p pool) (run : Run callers h s) (hs : s.step i a = some (s', es))
    (lasts : i ∈ pool.hands → ∀ t o, .ended t o ∉ es) :
    ∃ pool', s'.Saturated p pool' ∧ pool.Stays p es pool' := by
  have ms := moves_of_step run.calls hs
  have books := run.books
  have kept := run.kept
  clear run hs
  induction ms generalizing h pool with
  | nil => exact ⟨pool, sat, .refl pool⟩
  | cons m _ ih =>
    obtain ⟨pool₁, sat₁, stays₁⟩ := sat.move books kept m fun hi t o hmem =>
      lasts hi t o (List.mem_append_left _ hmem)
    obtain ⟨pool₂, sat₂, stays₂⟩ := ih sat₁
      (fun hi t o hmem => lasts (stays₁.hands ▸ hi) t o (List.mem_append_right _ hmem))
      (books.move m) fun t => (kept t).change (m.change t)
    exact ⟨pool₂, sat₂, stays₁.trans stays₂⟩

end Saturated

/-! ### Submissions in a schedule -/

/-- The task of the submission to the pool that the step belongs to, if it belongs to one. -/
def submission? (s : System) (p : PoolId) (i : ThreadId) : Action → Option TaskId
  | .call (.submit q t) _ => if q = p then some t else none
  | .call _ _ => none
  | _ => s.threads[i]?.bind fun th => th.calls.head?.bind (Frame.submission? p)

/-- The steps of submissions to the pool in a schedule, each with its task and what it tells. -/
def attempts (p : PoolId) : List (ThreadId × Action) → System → List (TaskId × List Event)
  | [], _ => []
  | (i, a) :: rest, s =>
    match s.step i a with
    | none => []
    | some (s', es) => ((s.submission? p i a).map (·, es)).toList ++ attempts p rest s'

theorem attempts_of_submission (hsub : s.submission? p i a = some t) : s.Attempts i p t a := by
  have inside (hb : (s.threads[i]?.bind fun th => th.calls.head?.bind (Frame.submission? p)) =
      some t) : s.Attempts i p t a := by
    obtain ⟨th, hth, hb⟩ := Option.bind_eq_some_iff.mp hb
    obtain ⟨f, hf, hb⟩ := Option.bind_eq_some_iff.mp hb
    obtain ⟨rest, hc⟩ := List.head?_eq_some_iff.mp hf
    cases f with
    | awaitingWorker q u woken =>
      obtain ⟨rfl, rfl⟩ : q = p ∧ u = t := by simpa [Frame.submission?] using hb
      exact .goOn a ⟨th, hth, hc⟩
    | _ => cases hb
  cases a with
  | call op pick =>
    cases op with
    | submit q u =>
      obtain ⟨rfl, rfl⟩ : q = p ∧ u = t := by simpa [submission?] using hsub
      exact .call pick
    | _ => cases hsub
  | finish ending => exact inside hsub
  | advance pick => exact inside hsub
  | expire => exact inside hsub

theorem Attempts.submission (tries : s.Attempts i p t a) {e : Effect} (hs : s.step i a = some e) :
    s.submission? p i a = some t := by
  cases tries with
  | call pick => simp [submission?]
  | goOn a hi =>
    obtain ⟨th, hth, hc⟩ := hi
    cases a with
    | call op pick => simp [step, hth, Thread.inUserCode, hc] at hs
    | _ => simp [submission?, hth, hc, Frame.submission?]

theorem attempts_cons (rest : List (ThreadId × Action)) (hs : s.step i a = some (s₁, es)) :
    attempts p ((i, a) :: rest) s =
      ((s.submission? p i a).map (·, es)).toList ++ attempts p rest s₁ := by
  simp [attempts, hs]

/-- Without a need for workers, a submission is decided in its first critical section. -/
theorem submit_eq_resumeSubmit (hn : pool.needsWorker = false) (hu : pool.unregistered = 0)
    (ho : task.slot.ownership = .caller) :
    s.submit i p pool t task pick = s.resumeSubmit i p pool t task pick := by
  unfold submit resumeSubmit
  cases pool.refusal <;> simp [hn, hu, ho]

/-- The answer to a submission in a state in which all workers are busy. -/
inductive Answer (s : System) (p : PoolId) (t : TaskId) (pool : Pool) : List Event → System → Prop
  | refused {s' : System} : pool.queue.length = pool.config.maxPending → s'.pools = s.pools →
      Answer s p t pool
        [.replied (.failed (.tooManyTasks pool.config.maxPending pool.config.maxPending))] s'
  | accepted {s' : System} : pool.queue.length < pool.config.maxPending →
      s'.pools = s.pools.set p (pool.accept t) → Answer s p t pool (pool.receipt p t) s'

theorem answer_resumeSubmit (pick : Pick) (balanced : pool.Balanced s.posts p)
    (hopen : pool.closed = false) (hu : pool.unregistered = 0)
    (ho : task.slot.ownership = .caller) :
    Answer s p t pool (s.resumeSubmit i p pool t task pick).2
      (s.resumeSubmit i p pool t task pick).1 := by
  have hcap := balanced.capacity
  have hroom := balanced.room
  unfold System.resumeSubmit
  rw [if_neg (by omega)]
  cases hr : pool.refusal with
  | some e =>
    rcases Pool.refusal_eq_some hr with ⟨-, hc⟩ | ⟨rfl, hfull⟩
    · simp [hopen] at hc
    · have hle : pool.queue.capacity ≤ pool.queue.length := by
        simpa [PendingQueue.isFull] using hfull
      have hlen : pool.queue.length = pool.config.maxPending := by omega
      rw [hlen, hcap]
      exact .refused hlen rfl
  | none =>
    have hlt : ¬ pool.queue.capacity ≤ pool.queue.length := by
      simpa [PendingQueue.isFull] using (Pool.Balanced.isOpen hr).2
    simp only [System.accept, ho, ne_eq, not_true_eq_false, if_false]
    exact .accepted (by omega) (pools_wakeOne pick)

theorem Saturated.answer (sat : s.Saturated p pool) (run : Run callers h s)
    (tries : s.Attempts i p t a) (hs : s.step i a = some (s', es))
    (ho : (s.task t).slot.ownership = .caller) : Answer s p t pool es s' := by
  have books := run.books
  have balanced := books.pools p pool sat.at_pool
  have hopen := sat.isOpen books
  have hu := sat.unregistered books
  cases tries with
  | call pick =>
    obtain ⟨th, pool', task, hth, hp, ht, -, he⟩ := step_submit hs
    obtain rfl : pool = pool' := Option.some.inj (sat.at_pool.symm.trans hp)
    rw [task_eq ht] at ho
    rw [submit_eq_resumeSubmit (sat.needsWorker books) hu ho] at he
    have balanced' : pool.Balanced (s.inCall i).posts p := by
      rwa [show (s.inCall i).posts = s.posts from posts_onThread fun _ => rfl]
    have answer := answer_resumeSubmit (i := i) (t := t) pick balanced' hopen hu ho
    rw [he] at answer
    cases answer with
    | refused hlen hpools => exact .refused hlen hpools
    | accepted hlt hpools => exact .accepted hlt hpools
  | goOn a hi =>
    obtain ⟨pool', task, pick, hp, ht, he⟩ := hi.resumesSubmit hs
    obtain rfl : pool = pool' := Option.some.inj (sat.at_pool.symm.trans hp)
    rw [task_eq ht] at ho
    have answer := answer_resumeSubmit (i := i) (t := t) pick balanced hopen hu ho
    rwa [he] at answer

/-- What is told of a pool that takes a task is told in a submission to it. -/
theorem submission_of_submitted (calls : s.Calls) (hs : s.step i a = some (s', es))
    (hev : .log (.submitted p t n) ∈ es) : s.submission? p i a = some t := by
  obtain ⟨q, pool, tries, -, he⟩ := submitted_by (t := t) calls hs hev (by simp [Event.buys])
  obtain rfl : es = pool.receipt q t := he
  obtain ⟨rfl, -⟩ : p = q ∧ n = (pool.accept t).queue.length := by simpa [Pool.receipt] using hev
  exact tries.submission hs

theorem pushes_of_no_submission (calls : s.Calls) (hs : s.step i a = some (s', es))
    (hsub : s.submission? p i a = none) : es.filterMap (·.push? p) = [] := by
  by_contra hne
  obtain ⟨n, hn⟩ := List.exists_mem_of_ne_nil _ hne
  obtain ⟨ev, hev, hpush⟩ := List.mem_filterMap.mp hn
  obtain ⟨t, rfl⟩ := Event.push?_eq_some hpush
  simp [submission_of_submitted calls hs hev] at hsub

/-- Who submits a task has its handle, and has had it all the time. -/
theorem Run.handle_of_attempts (run : Run callers g s) (hr : s.replay σ = some (h, s'))
    (ht : t ∈ (attempts p σ s).map (·.1)) : (s.record t).handle := by
  induction σ generalizing g h s with
  | nil => cases ht
  | cons move rest ih =>
    obtain ⟨i, a⟩ := move
    obtain ⟨s₁, es, h₁, hs, hr₁, rfl⟩ := replay_cons hr
    rw [attempts_cons _ hs, List.map_append, List.mem_append] at ht
    rcases ht with ht | ht
    · obtain ⟨x, hx, rfl⟩ := List.mem_map.mp ht
      obtain ⟨u, hu, rfl⟩ := Option.map_eq_some_iff.mp (Option.mem_toList.mp hx)
      obtain ⟨-, -, -, -, share, -⟩ := (attempts_of_submission hu).attempt run.calls hs
      exact handle_of_canShare share
    · exact (moves_of_step run.calls hs).handle_before (ih (run.step hs) hr₁ ht)

/-- Some tasks are submitted to the pool while its workers execute their works, and their callers
submit them nowhere else. -/
structure Rivals (s : System) (p : PoolId) (pool : Pool) (σ : List (ThreadId × Action))
    (h : Trace) : Prop where
  /-- No work returns. -/
  lasting : ∀ j ∈ pool.hands, ∀ t o, (j, .ended t o) ∉ h
  distinct : ((attempts p σ s).map (·.1)).Nodup
  owned : ∀ t ∈ (attempts p σ s).map (·.1), (s.task t).slot.ownership = .caller
  apart : ∀ t ∈ (attempts p σ s).map (·.1), ∀ j q n, q ≠ p → (j, .log (.submitted q t n)) ∉ h

theorem Rivals.tail {rest : List (ThreadId × Action)} {h₁ : Trace} (run : Run callers g s)
    (rivals : s.Rivals p pool ((i, a) :: rest) (es.map (i, ·) ++ h₁))
    (hs : s.step i a = some (s₁, es)) (hr : s₁.replay rest = some (h₁, s'))
    (hhands : pool'.hands = pool.hands) : s₁.Rivals p pool' rest h₁ := by
  obtain ⟨lasting, distinct, owned, apart⟩ := rivals
  rw [attempts_cons _ hs, List.map_append] at distinct owned apart
  refine ⟨fun j hj t o hmem => lasting j (hhands ▸ hj) t o (List.mem_append_right _ hmem),
    (List.nodup_append.mp distinct).2.1, fun t ht => ?_, fun t ht j q n hq hmem =>
      apart t (List.mem_append_right _ ht) j q n hq (List.mem_append_right _ hmem)⟩
  have mine : (s.record t).slot.ownership = .caller := owned t (List.mem_append_right _ ht)
  have untold : ∀ ev ∈ es, ev.buys t = false := by
    intro ev hev
    by_contra hb
    obtain ⟨q, n, rfl⟩ := Event.eq_of_buys (by simpa using hb)
    by_cases hq : q = p
    · -- The task is not submitted twice.
      subst hq
      rw [submission_of_submitted run.calls hs hev] at distinct
      exact (List.nodup_append.mp distinct).2.2 t (by simp) t ht rfl
    · exact apart t (List.mem_append_right _ ht) i q n hq
        (List.mem_append_left _ (List.mem_map_of_mem hev))
  have rests := (moves_of_step run.calls hs).rests (run.kept t)
    ((run.step hs).handle_of_attempts hr ht) mine untold
  exact (congrArg Slot.ownership rests.1).trans mine

/-- The pool takes as many submissions of the schedule as it has room for, and is full for the
others. -/
structure Fills (s : System) (p : PoolId) (pool : Pool) (σ : List (ThreadId × Action))
    (s' : System) : Prop where
  first : ∀ x ∈ (attempts p σ s).take pool.room, .replied .done ∈ x.2
  others : ∀ x ∈ (attempts p σ s).drop pool.room,
    x.2 = [.replied (.failed (.tooManyTasks pool.config.maxPending pool.config.maxPending))]
  after : ∃ pool', s'.Saturated p pool' ∧ pool'.hands = pool.hands ∧ pool'.config = pool.config ∧
    pool'.queue.length = pool.queue.length + min (attempts p σ s).length pool.room

theorem Saturated.fills (sat : s.Saturated p pool) (run : Run callers g s)
    (hr : s.replay σ = some (h, s')) (rivals : s.Rivals p pool σ h) : s.Fills p pool σ s' := by
  induction σ generalizing g h s pool with
  | nil =>
    cases hr
    exact ⟨by simp [attempts], by simp [attempts], pool, sat, rfl, rfl, by simp [attempts]⟩
  | cons move rest ih =>
    obtain ⟨i, a⟩ := move
    obtain ⟨s₁, es, h₁, hs, hr₁, rfl⟩ := replay_cons hr
    obtain ⟨pool₁, sat₁, stays⟩ := sat.step run hs fun hi t o hmem =>
      rivals.lasting i hi t o (List.mem_append_left _ (List.mem_map_of_mem hmem))
    obtain ⟨first, others, pool', sat', hhands, hconfig, hlen⟩ :=
      ih sat₁ (run.step hs) hr₁ (rivals.tail run hs hr₁ stays.hands)
    have hconfig' := hconfig.trans stays.config
    have hhands' := hhands.trans stays.hands
    rw [stays.config] at others
    have hcons := attempts_cons (p := p) rest hs
    cases hsub : s.submission? p i a with
    | none =>
      have hqueue := stays.queue (pushes_of_no_submission run.calls hs hsub)
      have hroom : pool₁.room = pool.room := by simp [Pool.room, hqueue, stays.config]
      have hsame : attempts p ((i, a) :: rest) s = attempts p rest s₁ := by simp [hcons, hsub]
      rw [hroom] at first others hlen
      rw [hqueue] at hlen
      exact ⟨hsame ▸ first, hsame ▸ others, pool', sat', hhands', hconfig', hsame ▸ hlen⟩
    | some t =>
      have hmore : attempts p ((i, a) :: rest) s = (t, es) :: attempts p rest s₁ := by
        simp [hcons, hsub]
      have mine : (s.task t).slot.ownership = .caller := rivals.owned t (by simp [hmore])
      have hlt := (List.getElem?_eq_some_iff.mp sat.at_pool).1
      have at_pool₁ := sat₁.at_pool
      cases sat.answer run (attempts_of_submission hsub) hs mine with
      | refused hfull hpools =>
        obtain rfl : pool₁ = pool := Option.some.inj (at_pool₁.symm.trans (hpools ▸ sat.at_pool))
        have hroom : pool₁.room = 0 := by simp [Pool.room, hfull]
        rw [hroom] at others hlen
        refine ⟨by simp [hroom], ?_, pool', sat', hhands', hconfig', by simpa [hroom] using hlen⟩
        rw [hroom, hmore, List.drop_zero]
        exact List.forall_mem_cons.mpr ⟨rfl, others⟩
      | accepted hroom hpools =>
        obtain rfl : pool₁ = pool.accept t := by
          simpa [hpools, hlt] using at_pool₁.symm
        have hless := Pool.room_accept t hroom
        rw [Pool.length_accept] at hlen
        refine ⟨?_, ?_, pool', sat', hhands', hconfig', ?_⟩
        · rw [hless, hmore, List.take_succ_cons]
          exact List.forall_mem_cons.mpr ⟨by simp [Pool.receipt], first⟩
        · rw [hless, hmore, List.drop_succ_cons]
          exact others
        · rw [hless, hmore, List.length_cons]
          omega

/-- How a pool whose workers are all busy deals with the submissions of a schedule. -/
structure Rationed (s : System) (p : PoolId) (pool : Pool) (σ : List (ThreadId × Action))
    (h : Trace) (s' : System) : Prop where
  /-- As many succeed as there is room for, -/
  taken : (attempts p σ s).countP (·.2.any Event.isDone) = min (attempts p σ s).length pool.room
  /-- and each of the others is told that the pool is full. -/
  refused : ∀ x ∈ attempts p σ s, .replied .done ∉ x.2 →
    x.2 = [.replied (.failed (.tooManyTasks pool.config.maxPending pool.config.maxPending))]
  spawns : h.spawns p = []
  /-- The workers stay busy, and what has succeeded is in the queue. -/
  after : ∃ pool', s'.Saturated p pool' ∧ pool'.config = pool.config ∧
    pool'.queue.length = pool.queue.length + min (attempts p σ s).length pool.room
  /-- Nobody is held up in a submission. -/
  prompt : ∀ {i t woken rest}, s'.Inside i (.awaitingWorker p t woken :: rest) →
    ∀ pick, (s'.step i (.advance pick)).isSome

theorem Fills.taken (fills : s.Fills p pool σ s') :
    (attempts p σ s).countP (·.2.any Event.isDone) = min (attempts p σ s).length pool.room := by
  have all : ((attempts p σ s).take pool.room).countP (·.2.any Event.isDone) =
      ((attempts p σ s).take pool.room).length :=
    List.countP_eq_length.mpr fun x hx => List.any_eq_true.mpr ⟨_, fills.first x hx, rfl⟩
  have none : ((attempts p σ s).drop pool.room).countP (·.2.any Event.isDone) = 0 :=
    List.countP_eq_zero.mpr fun x hx => by simp [fills.others x hx, Event.isDone]
  rw [← List.take_append_drop pool.room (attempts p σ s), List.countP_append, all, none,
    List.take_append_drop, List.length_take, Nat.add_zero, Nat.min_comm]

theorem Fills.refused (fills : s.Fills p pool σ s') {x : TaskId × List Event}
    (hx : x ∈ attempts p σ s) (hd : .replied .done ∉ x.2) :
    x.2 = [.replied (.failed (.tooManyTasks pool.config.maxPending pool.config.maxPending))] := by
  rw [← List.take_append_drop pool.room (attempts p σ s)] at hx
  rcases List.mem_append.mp hx with hx | hx
  · exact absurd (fills.first x hx) hd
  · exact fills.others x hx

/-- As long as a pool has as many workers, none has been spawned. -/
theorem Run.no_spawns (run : Run callers g s) (run' : Run callers (g ++ h) s')
    (hsize : s'.size p = s.size p) : h.spawns p = [] := by
  have before := run.logged.spawns p
  have after := run'.logged.spawns p
  have happend : Trace.spawns (g ++ h) p = g.spawns p ++ h.spawns p := by
    simp [Trace.spawns]
  rw [happend, before, hsize] at after
  exact List.append_right_eq_self.mp after

/-- While all workers are busy, nobody waits for one to register. -/
theorem Saturated.prompt (sat : s.Saturated p pool) (run : Run callers h s)
    {woken : Bool} {rest : List Frame} (hi : s.Inside i (.awaitingWorker p t woken :: rest)) :
    (s.step i (.advance pick)).isSome := by
  have idle : ¬ s.Recruits p := by
    rw [recruits_iff, sat.staff_eq run.books (by simp)]
    exact Nat.lt_irrefl 0
  have unexpected := (run.promised p).resolve_right idle
  have expected := unexpected.inside hi
  cases woken with
  | false => simp [Frame.expects] at expected
  | true =>
    obtain ⟨o, ho⟩ := (canShare_iff.mp (run.calls.share hi)).1
    obtain ⟨task, ht, -⟩ := Option.map_eq_some_iff.mp ho
    obtain ⟨th, hth, hc⟩ := hi
    simp [System.step, hth, advance?, hc, sat.at_pool, ht]

theorem Saturated.rationed (sat : s.Saturated p pool) (run : Run callers g s)
    (hr : s.replay σ = some (h, s')) (rivals : s.Rivals p pool σ h) :
    Rationed s p pool σ h s' where
  taken := (sat.fills run hr rivals).taken
  refused x hx := (sat.fills run hr rivals).refused hx
  spawns := by
    obtain ⟨pool', sat', hhands, -, -⟩ := (sat.fills run hr rivals).after
    have hcrew : pool'.crew.length = pool.crew.length := by
      simpa [Pool.hands] using congrArg List.length hhands
    exact run.no_spawns (run.replay hr) (by simp [size, sat.at_pool, sat'.at_pool, hcrew])
  after := by
    obtain ⟨pool', sat', -, hconfig, hlen⟩ := (sat.fills run hr rivals).after
    exact ⟨pool', sat', hconfig, hlen⟩
  prompt hi pick := by
    obtain ⟨pool', sat', -⟩ := (sat.fills run hr rivals).after
    exact sat'.prompt (run.replay hr) hi

/-- A submission that is declined for want of room finds the queue full. -/
theorem Returns.full (returns : Returns s i (.submit p t) own h last (.failed (.tooManyTasks n m)))
    (run : Run callers g s) : ∃ pool, last.before.pools[p]? = some pool ∧
      last.after.pools = last.before.pools ∧ pool.queue.length = pool.config.maxPending ∧
      n = pool.config.maxPending ∧ m = pool.config.maxPending := by
  obtain ⟨pool, task, hp, -, -, decides⟩ := returns.decides run
  have balanced := (returns.before run).books.pools p pool hp
  cases decides with
  | declined declines idles _ =>
    cases declines with
    | refusal hr =>
      rcases Pool.refusal_eq_some hr with ⟨he, -⟩ | ⟨he, hfull⟩
      · cases he
      · cases he
        have hle : pool.queue.capacity ≤ pool.queue.length := by
          simpa [PendingQueue.isFull] using hfull
        have hlen : pool.queue.length = pool.config.maxPending :=
          (le_antisymm balanced.room hle).trans balanced.capacity
        exact ⟨pool, hp, idles.pools, hlen, hlen, balanced.capacity⟩

/-- The pool uses all of its capacity and no more. -/
structure Capacity (s : System) (p : PoolId) : Prop where
  /-- A submission is told that the queue holds `n` of at most `m` tasks only at a moment when it is
  full, and holds these. -/
  full : ∀ {i t own h last n m},
    Returns s i (.submit p t) own h last (.failed (.tooManyTasks n m)) →
    ∃ pool, last.before.pools[p]? = some pool ∧ last.after.pools = last.before.pools ∧
      pool.queue.length = pool.config.maxPending ∧ n = pool.config.maxPending ∧
      m = pool.config.maxPending
  /-- While all workers are busy, submissions get the room that is left. -/
  rationed : ∀ {pool σ h s'}, s.Saturated p pool → s.replay σ = some (h, s') →
    s.Rivals p pool σ h → Rationed s p pool σ h s'

theorem Run.uses_capacity (run : Run callers g s) (p : PoolId) : s.Capacity p :=
  ⟨fun returns => returns.full run, fun sat hr rivals => sat.rationed run hr rivals⟩

/-- The only worker of a pool with room for one more task executes a work. Two other callers submit
a task each, and one of them gets the room. -/
theorem uses_capacity_twoCallers : ∃ g s pool σ h s', Run 3 g s ∧ s.Saturated 0 pool ∧
    pool.room = 1 ∧ s.replay σ = some (h, s') ∧ s.Rivals 0 pool σ h ∧
    (attempts 0 σ s).length = 2 ∧ Rationed s 0 pool σ h s' ∧
    ∃ g₁ s₁ own h₁ last pool₁, Run 3 g₁ s₁ ∧
      Returns s₁ 2 (.submit 0 2) own h₁ last (.failed (.tooManyTasks 1 1)) ∧
      last.before.pools[0]? = some pool₁ ∧ pool₁.queue.length = pool₁.config.maxPending := by
  have told {g₁ : Trace} {s₁ s₂ : System} (run : Run 3 g₁ s₁)
      (hs : s₁.step 2 (.call (.submit 0 2) 0) =
        some (s₂, [.replied (.failed (.tooManyTasks 1 1))])) :
      ∃ g₁ s₁ own h₁ last pool₁, Run 3 g₁ s₁ ∧
        Returns s₁ 2 (.submit 0 2) own h₁ last (.failed (.tooManyTasks 1 1)) ∧
        last.before.pools[0]? = some pool₁ ∧ pool₁.queue.length = pool₁.config.maxPending := by
    have returns : Returns s₁ 2 (.submit 0 2) _ _ _ (.failed (.tooManyTasks 1 1)) :=
      .atOnce hs (List.mem_singleton_self _)
    obtain ⟨pool₁, hp₁, -, hfull, -⟩ := (run.uses_capacity 0).full returns
    exact ⟨g₁, s₁, _, _, _, pool₁, run, returns, hp₁, hfull⟩
  have shared {g h : Trace} {s s' : System} {pool : Pool} (σ : List (ThreadId × Action))
      (run : Run 3 g s) (sat : s.Saturated 0 pool) (room : pool.room = 1)
      (hr : s.replay σ = some (h, s'))
      (quiet : h.all (·.2.isLocal 0))
      (distinct : ((attempts 0 σ s).map (·.1)).Nodup)
      (owned : ∀ t ∈ (attempts 0 σ s).map (·.1), (s.task t).slot.ownership = .caller)
      (two : (attempts 0 σ s).length = 2) :
      ∃ g s pool σ h s', Run 3 g s ∧ s.Saturated 0 pool ∧ pool.room = 1 ∧
        s.replay σ = some (h, s') ∧ s.Rivals 0 pool σ h ∧ (attempts 0 σ s).length = 2 ∧
        Rationed s 0 pool σ h s' := by
    have rivals : s.Rivals 0 pool σ h := by
      refine ⟨fun j _ t o hmem => ?_, distinct, owned, fun t _ j q n hq hmem => ?_⟩
      · simpa [Event.isLocal] using List.all_eq_true.mp quiet _ hmem
      · exact hq (beq_iff_eq.mp (List.all_eq_true.mp quiet _ hmem))
    exact ⟨g, s, pool, σ, h, s', run, sat, room, hr, rivals, two,
      (run.uses_capacity 0).rationed sat hr rivals⟩
  have run : Run 3 _ _ := run_of_replay
    [(0, .call (.createPool { Config.new 1 with maxPending := 1 }) 0),
      (0, .call (.createTask none) 0), (1, .call (.createTask none) 0),
      (2, .call (.createTask none) 0), (0, .call (.submit 0 0) 0), (3, .advance 0),
      (0, .advance 0), (3, .advance 0), (3, .advance 0)] rfl
  obtain ⟨g, s, pool, σ, h, s', run', sat, room, hr, rivals, two, rationed⟩ := shared
    [(1, .call (.submit 0 1) 0), (2, .call (.submit 0 2) 0)] run
    ⟨rfl, rfl, List.forall_mem_singleton.mpr ⟨0, _, 0, rfl, rfl⟩⟩ rfl rfl rfl
    (by decide) (by decide) rfl
  exact ⟨g, s, pool, σ, h, s', run', sat, room, hr, rivals, two, rationed,
    told (run.step (i := 1) (a := .call (.submit 0 1) 0) rfl) rfl⟩

end System

end WorkerPool
