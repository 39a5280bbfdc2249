import WorkerPool.Proofs.Steps

/-!
The books of a pool.

`Pool.Balanced` ties the counters, the queue and the list of workers of a pool to the stations of
its worker threads. `System.Books` says so of every pool, and every move keeps it.
-/
namespace WorkerPool

/-- Where a worker is, as far as the books of its pool go. -/
inductive Station
  | starting
  | idle
  | busy
  | releasing
  | exited
  deriving DecidableEq, Repr

def Phase.station : Phase → Station
  | starting => .starting
  | parked _ => .idle
  | holding _ | running _ | stashing _ _ _ | stashed _ _ | counted _ => .busy
  | releasing => .releasing
  | exited => .exited

/-- The place of a worker thread: its pool, its number there and its station. -/
structure Post where
  pool : PoolId
  index : Nat
  station : Station
  deriving DecidableEq, Repr

def Thread.post (th : Thread) : Option Post :=
  match th.role with
  | .caller => none
  | .worker p k phase => some ⟨p, k, phase.station⟩

/-- The number of workers of the pool at a station. -/
def staff (posts : List (Option Post)) (p : PoolId) (st : Station) : Nat :=
  posts.countP fun post => post.any fun x => x.pool == p && x.station == st

section posts

variable {posts : List (Option Post)} {i : ThreadId} {p q : PoolId} {k : Nat} {st x : Station}

theorem staff_set (st' : Station) (h : posts[i]? = some (some ⟨q, k, st⟩)) :
    staff (posts.set i (some ⟨q, k, st'⟩)) p x + (if q = p ∧ st = x then 1 else 0) =
      staff posts p x + (if q = p ∧ st' = x then 1 else 0) := by
  obtain ⟨hi, hpost⟩ := List.getElem?_eq_some_iff.mp h
  have hpos : q = p ∧ st = x → 0 < staff posts p x := by
    rintro ⟨rfl, rfl⟩
    exact List.countP_pos_iff.mpr ⟨_, List.mem_of_getElem? h, by simp⟩
  unfold staff at *
  rw [List.countP_set hi, hpost]
  simp only [Option.any_some, Bool.and_eq_true, beq_iff_eq]
  split <;> split <;> simp_all

theorem staff_set_from (h : posts[i]? = some (some ⟨p, k, st⟩)) (hx : st ≠ x) :
    staff (posts.set i (some ⟨p, k, x⟩)) p st + 1 = staff posts p st := by
  simpa [hx, hx.symm] using staff_set (p := p) (x := st) x h

theorem staff_set_to (h : posts[i]? = some (some ⟨p, k, st⟩)) (hx : st ≠ x) :
    staff (posts.set i (some ⟨p, k, x⟩)) p x = staff posts p x + 1 := by
  simpa [hx, hx.symm] using staff_set (p := p) (x := x) x h

theorem staff_set_ne {y : Station} (h : posts[i]? = some (some ⟨p, k, st⟩)) (hx : st ≠ x)
    (hy : y ≠ x) : staff (posts.set i (some ⟨p, k, y⟩)) p x = staff posts p x := by
  simpa [hx, hy] using staff_set (p := p) (x := x) y h

theorem staff_pos (h : posts[i]? = some (some ⟨p, k, st⟩)) : 0 < staff posts p st :=
  List.countP_pos_iff.mpr ⟨_, List.mem_of_getElem? h, by simp⟩

theorem getElem?_concat {α : Type} {l : List α} {a x : α} {j : Nat} :
    (l ++ [a])[j]? = some x ↔ l[j]? = some x ∨ (j = l.length ∧ x = a) := by
  rw [getElem?_snoc]
  split
  · next hj => simp [hj, eq_comm]
  · next hj => simp [hj]

theorem getElem?_post_set (h : posts[i]? = some (some ⟨q, k, st⟩)) {post post' : Post}
    {j : ThreadId} : (posts.set i (some post))[j]? = some (some post') ↔
      (j = i ∧ post' = post) ∨ (j ≠ i ∧ posts[j]? = some (some post')) := by
  obtain ⟨hlt, -⟩ := List.getElem?_eq_some_iff.mp h
  by_cases hj : i = j
  · subst hj
    simp [hlt, eq_comm]
  · simp [hj, Ne.symm hj]

theorem staff_append (post : Post) :
    staff (posts ++ [some post]) p x =
      staff posts p x + (if post.pool = p ∧ post.station = x then 1 else 0) := by
  simp [staff, List.countP_append, List.countP_cons]

end posts

theorem Config.valid_bounds {c : Config} (h : c.validate = .ok ()) :
    (1 ≤ c.maxThreads ∧ c.maxThreads ≤ maxThreadsLimit) ∧
      1 ≤ c.maxPending ∧ c.maxPending ≤ maxPendingLimit := by
  unfold validate at h
  split at h
  · cases h
  · next ht =>
    split at h
    · cases h
    · next hp => exact ⟨not_not.mp ht, not_not.mp hp⟩

/-- The threads of all workers ever spawned, in the order of spawning. -/
def Pool.hands (pool : Pool) : List ThreadId := pool.crew.map Member.thread

/-- The books of the pool `p` agree with what the threads do. -/
structure Pool.Balanced (posts : List (Option Post)) (p : PoolId) (pool : Pool) : Prop where
  valid : pool.config.validate = .ok ()
  capacity : pool.queue.capacity = pool.config.maxPending
  room : pool.queue.length ≤ pool.queue.capacity
  ceiling : pool.crew.length ≤ pool.config.maxThreads
  roster : pool.threadCount + staff posts p .starting ≤ pool.crew.length
  crew : ∀ (k : Nat) (j : ThreadId), pool.hands[k]? = some j ↔
    ∃ st, posts[j]? = some (some ⟨p, k, st⟩)
  order : pool.hands.Pairwise (· < ·)
  total : pool.idleCount + pool.runningCount = pool.threadCount
  running : pool.runningCount = staff posts p .busy
  idle : pool.closed = false → pool.idleCount = staff posts p .idle + staff posts p .releasing
  stays : pool.closed = false → ∀ k, pool.exitRequested k = false
  calm : pool.closed → pool.runningCount = 0 ∧ pool.queue.entries = []
  releasing : ∀ j : ThreadId, j ∈ pool.releasing ↔ ∃ k, posts[j]? = some (some ⟨p, k, .releasing⟩)
  distinct : pool.releasing.Nodup
  /-- Nobody leaves an open pool. -/
  enlisted : pool.closed = false → pool.crew.length = pool.threadCount + staff posts p .starting

namespace Pool.Balanced

variable {posts posts' : List (Option Post)} {i : ThreadId} {p q : PoolId} {k : Nat}
  {st st' : Station} {pool pool' : Pool} {t : TaskId}

/-- The books of a pool do not depend on the workers of other pools. -/
theorem congr (h : Balanced posts p pool) (hs : ∀ st, staff posts' p st = staff posts p st)
    (hp : ∀ (j : ThreadId) (k : Nat) (st : Station), posts'[j]? = some (some ⟨p, k, st⟩) ↔
      posts[j]? = some (some ⟨p, k, st⟩)) :
    Balanced posts' p pool := by
  obtain ⟨valid, capacity, room, ceiling, roster, crew, order, total, running, idle, stays, calm,
    releasing, distinct, enlisted⟩ := h
  refine ⟨valid, capacity, room, ceiling, ?_, ?_, order, total, ?_, ?_, stays, calm, ?_, distinct,
    ?_⟩
  · rwa [hs]
  · simpa only [hp] using crew
  · rwa [hs]
  · simpa only [hs] using idle
  · simpa only [hp] using releasing
  · simpa only [hs] using enlisted

theorem set_other (h : Balanced posts q pool) (hi : posts[i]? = some (some ⟨p, k, st⟩))
    (hq : p ≠ q) : Balanced (posts.set i (some ⟨p, k, st'⟩)) q pool := by
  refine h.congr (fun x => ?_) fun j k' x => ?_
  · have := staff_set (p := q) (x := x) st' hi
    simpa [hq] using this
  · rw [getElem?_post_set hi]
    by_cases hj : j = i
    · simp [hj, hi, hq, hq.symm]
    · simp [hj]

theorem append_other (h : Balanced posts q pool) (post : Post) (hq : post.pool ≠ q) :
    Balanced (posts ++ [some post]) q pool := by
  apply h.congr (fun x => by simp [staff_append, hq])
  intro j k x
  have hne : (⟨q, k, x⟩ : Post) ≠ post := fun h => hq (h ▸ rfl)
  simp [getElem?_concat, hne]

/-- The index of a worker does not change. -/
theorem crew_set (h : Balanced posts p pool) (hi : posts[i]? = some (some ⟨p, k, st⟩)) (k' : Nat)
    (j : ThreadId) : pool.hands[k']? = some j ↔
      ∃ x, (posts.set i (some ⟨p, k, st'⟩))[j]? = some (some ⟨p, k', x⟩) := by
  rw [h.crew]
  by_cases hj : j = i
  · subst hj
    simp [getElem?_post_set hi, hi, eq_comm]
  · simp [getElem?_post_set hi, hj]

theorem releasing_set (h : Balanced posts p pool) (hi : posts[i]? = some (some ⟨p, k, st⟩))
    (hst : st ≠ .releasing) (hst' : st' ≠ .releasing) (j : ThreadId) :
    j ∈ pool.releasing ↔
      ∃ k', (posts.set i (some ⟨p, k, st'⟩))[j]? = some (some ⟨p, k', .releasing⟩) := by
  rw [h.releasing]
  by_cases hj : j = i
  · subst hj
    simp [getElem?_post_set hi, hi, hst, hst'.symm]
  · simp [getElem?_post_set hi, hj]

theorem isOpen (h : pool.refusal = none) : pool.closed = false ∧ pool.queue.isFull = false := by
  unfold refusal at h
  split at h
  · cases h
  · split at h
    · cases h
    · simp_all

theorem new {c : Config} (hc : Pool.create c = .ok pool)
    (hp : ∀ post, some post ∈ posts → post.pool ≠ p) : Balanced posts p pool := by
  have hs : ∀ st, staff posts p st = 0 := fun st => by
    apply List.countP_eq_zero.mpr
    intro post hpost
    cases post with
    | none => simp
    | some post => simp [hp post hpost]
  have hn : ∀ (j : ThreadId) k st, posts[j]? ≠ some (some ⟨p, k, st⟩) :=
    fun j k st h => hp _ (List.mem_of_getElem? h) rfl
  unfold Pool.create at hc
  split at hc
  · cases hc
  · next hv =>
    cases hc
    refine ⟨hv, rfl, by simp [Pool.new, PendingQueue.empty, PendingQueue.length],
      by simp [Pool.new], by simp [hs, Pool.new], by simp [hn, Pool.hands, Pool.new],
      by simp [Pool.hands, Pool.new], rfl, by simp [hs, Pool.new], by simp [hs, Pool.new],
      by simp [Pool.exitRequested, Pool.new], by simp [Pool.new], by simp [hn, Pool.new],
      by simp [Pool.new], by simp [hs, Pool.new]⟩

theorem hire (h : Balanced posts p pool) (hr : pool.refusal = none) (hn : pool.needsWorker) :
    Balanced (posts ++ [some ⟨p, pool.rosterSize, .starting⟩]) p (pool.hire posts.length) := by
  have hopen := (isOpen hr).1
  have hsize : pool.rosterSize = pool.crew.length := by simp [rosterSize, hopen]
  have hmax := (Config.valid_bounds h.valid).1.1
  have hroom : pool.crew.length + 1 ≤ pool.config.maxThreads := by
    simp only [needsWorker, hsize, Bool.or_eq_true, Bool.and_eq_true, beq_iff_eq,
      decide_eq_true_eq] at hn
    omega
  have hlt : ∀ j ∈ pool.hands, j < posts.length := fun j hj => by
    obtain ⟨k, hk⟩ := List.getElem?_of_mem hj
    obtain ⟨st, hst⟩ := (h.crew k j).mp hk
    exact (List.getElem?_eq_some_iff.mp hst).1
  have hhands : (pool.hire posts.length).hands = pool.hands ++ [posts.length] := by
    simp [hands, Pool.hire]
  have hlen : pool.hands.length = pool.crew.length := by simp [hands]
  refine ⟨h.valid, h.capacity, h.room, by simpa [Pool.hire] using hroom, ?_, ?_, ?_, h.total, ?_,
    ?_, ?_, h.calm, ?_, h.distinct, ?_⟩
  · have := h.roster
    simp only [staff_append, Pool.hire, List.length_append, List.length_singleton, and_self,
      if_true]
    omega
  · intro k j
    rw [hhands, hsize, ← hlen, getElem?_concat, h.crew]
    simp [getElem?_concat, exists_or, and_comm]
  · rw [hhands, List.pairwise_append]
    refine ⟨h.order, List.pairwise_singleton .., fun a ha b hb => ?_⟩
    rw [List.mem_singleton.mp hb]
    exact hlt a ha
  · simpa [staff_append, Pool.hire] using h.running
  · simpa [staff_append, Pool.hire] using h.idle
  · intro _ k
    have := h.stays hopen k
    simp only [Pool.exitRequested, Option.any_eq_false] at this ⊢
    intro m hm
    rcases getElem?_concat.mp hm with hm | ⟨-, rfl⟩
    · exact this m hm
    · simp
  · intro j
    simpa [getElem?_concat, Pool.hire] using h.releasing j
  · have := h.enlisted hopen
    simp only [staff_append, Pool.hire, List.length_append, List.length_singleton, and_self,
      if_true]
    omega

theorem accept (h : Balanced posts p pool) (hr : pool.refusal = none) :
    Balanced posts p (pool.accept t) := by
  obtain ⟨hopen, hfull⟩ := isOpen hr
  have hlen := length_accept pool t
  refine ⟨h.valid, h.capacity, ?_, h.ceiling, h.roster, h.crew, h.order, h.total, h.running,
    h.idle, h.stays, fun hc => ?_, h.releasing, h.distinct, h.enlisted⟩
  · have hcap : (pool.accept t).queue.capacity = pool.queue.capacity := rfl
    have : ¬ pool.queue.capacity ≤ pool.queue.length := by
      simpa [PendingQueue.isFull] using hfull
    omega
  · have hc : pool.closed := hc
    simp [hopen] at hc

theorem close (h : Balanced posts p pool) (hq : pool.isQuiescentFor i) :
    Balanced posts p pool.close := by
  have hcalm : pool.runningCount = 0 ∧ pool.queue.entries = [] := by
    simp only [isQuiescentFor, isSettled, PendingQueue.isEmpty, Bool.and_eq_true,
      List.isEmpty_iff, beq_iff_eq] at hq
    exact ⟨hq.1.1.2, hq.1.1.1⟩
  exact ⟨h.valid, h.capacity, h.room, h.ceiling, h.roster, h.crew, h.order, h.total, h.running,
    nofun, nofun, fun _ => hcalm, h.releasing, h.distinct, nofun⟩

theorem stop (h : Balanced posts p pool) (hc : pool.closed) :
    Balanced posts p (pool.requestExit k) := by
  have hhands : (pool.requestExit k).hands = pool.hands :=
    map_modify_of_eq fun _ => rfl
  refine ⟨h.valid, h.capacity, h.room, by simpa [requestExit] using h.ceiling,
    by simpa [requestExit] using h.roster, by simpa only [hhands] using h.crew,
    by simpa only [hhands] using h.order, h.total, h.running, h.idle, ?_, h.calm, h.releasing,
    h.distinct, ?_⟩
  all_goals
    intro ho
    have ho : pool.closed = false := ho
    simp [hc] at ho

theorem dismiss (h : Balanced posts p pool) (hc : pool.closed) :
    Balanced posts p pool.dismiss := by
  obtain ⟨hrun, hq⟩ := h.calm hc
  refine ⟨h.valid, h.capacity, h.room, h.ceiling, ?_, h.crew, h.order, ?_, h.running, ?_,
    h.stays, h.calm, h.releasing, h.distinct, ?_⟩
  · have := h.roster
    simp only [Pool.dismiss]
    omega
  · simpa [Pool.dismiss] using hrun
  all_goals
    intro ho
    have ho : pool.closed = false := ho
    simp [hc] at ho

theorem dropHandle (h : Balanced posts p pool) :
    Balanced posts p { pool with handle := false } :=
  ⟨h.valid, h.capacity, h.room, h.ceiling, h.roster, h.crew, h.order, h.total, h.running, h.idle,
    h.stays, h.calm, h.releasing, h.distinct, h.enlisted⟩

/-! ### Workers -/

theorem register (h : Balanced posts p pool) (hi : posts[i]? = some (some ⟨p, k, .starting⟩)) :
    Balanced (posts.set i (some ⟨p, k, .idle⟩)) p pool.register := by
  have hfrom := staff_set_from (x := .idle) hi (by simp)
  have hto := staff_set_to (x := .idle) hi (by simp)
  have hbusy := staff_set_ne (x := .busy) (y := .idle) hi (by simp) (by simp)
  have hrel := staff_set_ne (x := .releasing) (y := .idle) hi (by simp) (by simp)
  refine ⟨h.valid, h.capacity, h.room, h.ceiling, ?_, h.crew_set hi, h.order, ?_, ?_, fun ho => ?_,
    h.stays, h.calm, h.releasing_set hi (by simp) (by simp), h.distinct, fun ho => ?_⟩
  · have := h.roster
    simp only [Pool.register]
    omega
  · have := h.total
    simp only [Pool.register]
    omega
  · rw [hbusy]
    exact h.running
  · have := h.idle ho
    simp only [Pool.register]
    omega
  · have := h.enlisted ho
    simp only [Pool.register]
    omega

theorem released (h : Balanced posts p pool) (hi : posts[i]? = some (some ⟨p, k, .releasing⟩)) :
    Balanced (posts.set i (some ⟨p, k, .idle⟩)) p (pool.released i) := by
  have hfrom := staff_set_from (x := .idle) hi (by simp)
  have hto := staff_set_to (x := .idle) hi (by simp)
  have hbusy := staff_set_ne (x := .busy) (y := .idle) hi (by simp) (by simp)
  have hnew := staff_set_ne (x := .starting) (y := .idle) hi (by simp) (by simp)
  refine ⟨h.valid, h.capacity, h.room, h.ceiling, ?_, h.crew_set hi, h.order, h.total, ?_,
    fun ho => ?_, h.stays, h.calm, fun j => ?_, h.distinct.filter _, ?_⟩
  · rw [hnew]
    exact h.roster
  · rw [hbusy]
    exact h.running
  · have := h.idle ho
    simp only [Pool.released]
    omega
  · by_cases hj : j = i
    · simp [Pool.released, getElem?_post_set hi, hj]
    · simp [Pool.released, getElem?_post_set hi, hj, h.releasing]
  · rw [hnew]
    exact h.enlisted

theorem exit (h : Balanced posts p pool) (hi : posts[i]? = some (some ⟨p, k, .idle⟩))
    (hx : pool.exitRequested k) : Balanced (posts.set i (some ⟨p, k, .exited⟩)) p pool := by
  have hc : pool.closed = true := by
    by_contra ho
    have := h.stays (by simpa using ho) k
    simp [hx] at this
  have hbusy := staff_set_ne (x := .busy) (y := .exited) hi (by simp) (by simp)
  have hnew := staff_set_ne (x := .starting) (y := .exited) hi (by simp) (by simp)
  refine ⟨h.valid, h.capacity, h.room, h.ceiling, ?_, h.crew_set hi, h.order, h.total, ?_,
    fun ho => ?_, h.stays, h.calm, h.releasing_set hi (by simp) (by simp), h.distinct,
    fun ho => ?_⟩
  · rw [hnew]
    exact h.roster
  · rw [hbusy]
    exact h.running
  all_goals simp [hc] at ho

/-- A worker that finds a task finds itself among the idle ones. -/
theorem idle_pos (h : Balanced posts p pool) (hi : posts[i]? = some (some ⟨p, k, .idle⟩))
    (hc : pool.claim?.isSome) : 0 < pool.idleCount := by
  obtain ⟨⟨t, pool'⟩, hc⟩ := Option.isSome_iff_exists.mp hc
  obtain ⟨queue, hq, -⟩ := claim?_eq hc
  have ho : pool.closed = false := by
    by_contra hclosed
    have hempty := (h.calm (by simpa using hclosed)).2
    simp [PendingQueue.pop?, hempty] at hq
  have := h.idle ho
  have := staff_pos hi
  omega

theorem claim (h : Balanced posts p pool) (hi : posts[i]? = some (some ⟨p, k, .idle⟩))
    (hc : pool.claim? = some (t, pool')) :
    Balanced (posts.set i (some ⟨p, k, .busy⟩)) p pool' := by
  have hpos := h.idle_pos hi (by simp [hc])
  obtain ⟨queue, hq, rfl⟩ := claim?_eq hc
  have hfrom := staff_set_from (x := .busy) hi (by simp)
  have hto := staff_set_to (x := .busy) hi (by simp)
  have hnew := staff_set_ne (x := .starting) (y := .busy) hi (by simp) (by simp)
  have hrel := staff_set_ne (x := .releasing) (y := .busy) hi (by simp) (by simp)
  obtain ⟨rest, hentries, rfl⟩ := PendingQueue.pop?_eq hq
  refine ⟨h.valid, h.capacity, ?_, h.ceiling, ?_, h.crew_set hi, h.order, ?_, ?_, fun ho => ?_,
    h.stays, fun hclosed => ?_, h.releasing_set hi (by simp) (by simp), h.distinct, ?_⟩
  · have := h.room
    simp only [PendingQueue.length, hentries, List.length_cons] at this ⊢
    omega
  · rw [hnew]
    exact h.roster
  · have := h.total
    simp only
    omega
  · have := h.running
    simp only
    omega
  · have := h.idle ho
    simp only
    omega
  · have := (h.calm hclosed).2
    simp [hentries] at this
  · rw [hnew]
    exact h.enlisted

theorem count (h : Balanced posts p pool) (returned : Bool) :
    Balanced posts p (pool.count k returned) := by
  have hhands : (pool.count k returned).hands = pool.hands := map_modify_of_eq fun _ => rfl
  have hlen : (pool.count k returned).crew.length = pool.crew.length := by simp [Pool.count]
  refine ⟨h.valid, h.capacity, h.room, hlen ▸ h.ceiling, hlen ▸ h.roster, hhands ▸ h.crew,
    hhands ▸ h.order, h.total, h.running, h.idle, fun ho k' => ?_, h.calm, h.releasing, h.distinct,
    hlen ▸ h.enlisted⟩
  have := h.stays ho k'
  simp only [Pool.exitRequested, Option.any_eq_false, Pool.count, List.getElem?_modify] at this ⊢
  intro m hm
  split at hm
  · obtain ⟨m', hm', rfl⟩ := Option.map_eq_some_iff.mp hm
    exact this m' hm'
  · exact this m (by simpa using hm)

/-- A worker that completes a task is among the running ones. -/
theorem running_pos (h : Balanced posts p pool) (hi : posts[i]? = some (some ⟨p, k, .busy⟩)) :
    0 < pool.runningCount :=
  h.running ▸ staff_pos hi

theorem retire (h : Balanced posts p pool) (hi : posts[i]? = some (some ⟨p, k, .busy⟩)) :
    Balanced (posts.set i (some ⟨p, k, .releasing⟩)) p (pool.retire i) := by
  have hpos := h.running_pos hi
  have hfrom := staff_set_from (x := .releasing) hi (by simp)
  have hto := staff_set_to (x := .releasing) hi (by simp)
  have hnew := staff_set_ne (x := .starting) (y := .releasing) hi (by simp) (by simp)
  have hidle := staff_set_ne (x := .idle) (y := .releasing) hi (by simp) (by simp)
  refine ⟨h.valid, h.capacity, h.room, h.ceiling, ?_, h.crew_set hi, h.order, ?_, ?_, fun ho => ?_,
    h.stays, fun hc => ?_, fun j => ?_, ?_, ?_⟩
  · rw [hnew]
    exact h.roster
  · have := h.total
    simp only [Pool.retire]
    omega
  · have := h.running
    simp only [Pool.retire]
    omega
  · have := h.idle ho
    simp only [Pool.retire]
    omega
  · have := (h.calm hc).1
    omega
  · by_cases hj : j = i
    · simp [Pool.retire, getElem?_post_set hi, hj]
    · simp [Pool.retire, getElem?_post_set hi, hj, h.releasing]
  · have hnot : ∀ j ∈ pool.releasing, j ≠ i := fun j hj hji => by
      simp [h.releasing, hji, hi] at hj
    simpa [Pool.retire, List.nodup_append] using ⟨h.distinct, hnot⟩
  · rw [hnew]
    exact h.enlisted

end Pool.Balanced

namespace System

variable {s s' : System} {i : ThreadId} {p q : PoolId} {k : Nat} {t : TaskId} {pool new : Pool}
  {es : List Event} {phase phase' : Phase} {st : Station} {g : Thread → Thread}

/-- Where every thread works. -/
def posts (s : System) : List (Option Post) := s.threads.map Thread.post

/-! ### Stations of threads -/

theorem post_of_role {th th' : Thread} (h : th'.role = th.role) : th'.post = th.post := by
  simp [Thread.post, h]

theorem posts_onThread (hg : ∀ th, (g th).role = th.role) : (s.onThread i g).posts = s.posts :=
  map_modify_of_eq fun th => post_of_role (hg th)

theorem post_wake (c : Condition) (th : Thread) : (th.wake c).post = th.post := by
  simp only [Thread.post, Thread.role_wake]
  cases th.role with
  | caller => rfl
  | worker p k phase => cases phase <;> rfl

@[simp] theorem posts_wakeAll (c : Condition) : (s.wakeAll c).posts = s.posts := by
  simp [posts, wakeAll, post_wake]

@[simp] theorem posts_wakeOne (pick : Pick) : (s.wakeOne p pick).posts = s.posts := by
  obtain ⟨j, hj⟩ := wakeOne_eq s p pick
  rw [hj]
  exact map_modify_of_eq fun th => post_wake _ th

theorem Working.post (h : s.Working i p k phase) :
    s.posts[i]? = some (some ⟨p, k, phase.station⟩) := by
  obtain ⟨th, hth, hr, -⟩ := h
  simp [posts, hth, Thread.post, hr]

/-- A worker that goes to another phase changes its own station only. -/
theorem Working.posts (phase' : Phase) (h : s.Working i p k phase)
    (hg : ∀ th, (g th).role = (th.setPhase phase').role) :
    (s.onThread i g).posts = s.posts.set i (some ⟨p, k, phase'.station⟩) := by
  obtain ⟨th, hth, hr, -⟩ := h
  have hpost : (g th).post = some ⟨p, k, phase'.station⟩ := by
    simp [Thread.post, hg th, Thread.role_setPhase hr]
  unfold System.posts System.onThread
  rw [List.modify_eq_set_getElem?, hth, Option.map_eq_map, Option.map_some, Option.getD_some,
    List.map_set, hpost]

theorem Working.posts_same (h : s.Working i p k phase) (hg : Thread.Rephases phase' g)
    (hs : phase'.station = phase.station) : (s.onThread i g).posts = s.posts := by
  rw [h.posts phase' fun th => (hg th).1, hs]
  obtain ⟨hlt, hpost⟩ := List.getElem?_eq_some_iff.mp h.post
  rw [← hpost, List.set_getElem_self]

theorem Working.posts_settled (h : s.Working i p k phase) (pool : Pool) :
    (s.settled i p pool).posts = s.posts.set i (some ⟨p, k, .idle⟩) := by
  have h' : (s.setPool p pool).Working i p k phase := h
  unfold System.settled
  split
  · rw [posts_wakeAll]
    exact h'.posts (.parked true) fun _ => rfl
  · exact h'.posts (.parked true) fun _ => rfl

theorem pools_settled (pool : Pool) : (s.settled i p pool).pools = s.pools.set p pool := by
  unfold System.settled
  split <;> rfl

/-! ### The books of all pools -/

structure Books (s : System) : Prop where
  pools : ∀ (p : PoolId) (pool : Pool), s.pools[p]? = some pool → pool.Balanced s.posts p
  known : ∀ post : Post, some post ∈ s.posts → post.pool < s.pools.length

namespace Books

theorem congr (books : s.Books) (hp : s'.pools = s.pools) (h : s'.posts = s.posts) : s'.Books :=
  ⟨fun p pool hpool => h ▸ books.pools p pool (hp ▸ hpool), h ▸ hp ▸ books.known⟩

theorem onThread (books : s.Books) (hg : ∀ th, (g th).role = th.role) : (s.onThread i g).Books :=
  books.congr rfl (posts_onThread hg)

/-- A worker goes on at its station. -/
theorem rephase (books : s.Books) (hw : s.Working i p k phase) (ht : s'.threads = s.threads)
    (hp : s'.pools = s.pools) (hg : Thread.Rephases phase' g)
    (hs : phase'.station = phase.station) : (s'.onThread i g).Books := by
  have hw' : s'.Working i p k phase := by simpa [Working, ht] using hw
  refine books.congr hp ((hw'.posts_same hg hs).trans ?_)
  simp [System.posts, ht]

/-- One pool changes its books; the workers of other pools stay where they are. -/
theorem update (books : s.Books) (hp : s.pools[p]? = some pool)
    (hpools : s'.pools = s.pools.set p new) (h : new.Balanced s'.posts p)
    (others : ∀ {q pool'}, p ≠ q → Pool.Balanced s.posts q pool' → Pool.Balanced s'.posts q pool')
    (known : ∀ post, some post ∈ s'.posts → some post ∈ s.posts ∨ post.pool = p) : s'.Books := by
  refine ⟨fun q pool' hq => ?_, fun post hpost => ?_⟩
  · rw [hpools, List.getElem?_set] at hq
    split at hq
    · next hpq =>
      subst hpq
      split at hq
      · exact Option.some.inj hq ▸ h
      · cases hq
    · next hpq => exact others hpq (books.pools q pool' hq)
  · rw [hpools, List.length_set]
    rcases known post hpost with hpost | rfl
    · exact books.known post hpost
    · exact (List.getElem?_eq_some_iff.mp hp).1

theorem setPool (books : s.Books) (hp : s.pools[p]? = some pool)
    (hpools : s'.pools = s.pools.set p new) (hposts : s'.posts = s.posts)
    (h : new.Balanced s.posts p) : s'.Books :=
  books.update hp hpools (hposts ▸ h) (fun _ h => hposts ▸ h) fun _ h => .inl (hposts ▸ h)

/-- One worker changes its station. -/
theorem work {st' : Station} (books : s.Books) (hp : s.pools[p]? = some pool)
    (hpools : s'.pools = s.pools.set p new) (hi : s.posts[i]? = some (some ⟨p, k, st⟩))
    (hposts : s'.posts = s.posts.set i (some ⟨p, k, st'⟩))
    (h : new.Balanced (s.posts.set i (some ⟨p, k, st'⟩)) p) : s'.Books := by
  refine books.update hp hpools (hposts ▸ h) (fun hq h => hposts ▸ h.set_other hi hq) ?_
  intro post hpost
  rw [hposts] at hpost
  apply (List.mem_or_eq_of_mem_set hpost).imp_right
  intro h
  rw [Option.some.inj h]

theorem start (callers : Nat) : (System.start callers).Books := by
  refine ⟨fun p pool hp => by simp [System.start] at hp, fun post hpost => ?_⟩
  simp only [posts, System.start, List.map_replicate] at hpost
  cases List.eq_of_mem_replicate hpost

theorem addPool {c : Config} (books : s.Books) (hc : Pool.create c = .ok pool) :
    (s.addPool pool).Books := by
  refine ⟨fun p pool' hp => ?_, fun post hpost => ?_⟩
  · rcases getElem?_concat.mp hp with hp | ⟨rfl, rfl⟩
    · exact books.pools p pool' hp
    · exact .new hc fun post hpost => (books.known post hpost).ne
  · have hlt : post.pool < s.pools.length := books.known post hpost
    exact hlt.trans (by simp [System.addPool])

theorem hire (books : s.Books) (hp : s.pools[p]? = some pool) (hr : pool.refusal = none)
    (hn : pool.needsWorker) : (s.hired p pool).Books := by
  have hlen : s.posts.length = s.threads.length := by simp [posts]
  have hposts : (s.hired p pool).posts = s.posts ++ [some ⟨p, pool.rosterSize, .starting⟩] := by
    simp [posts, hired, System.spawn, System.setPool, Thread.post, Phase.station]
  refine books.update hp rfl (hposts ▸ hlen ▸ (books.pools p pool hp).hire hr hn)
    (fun hq h => hposts ▸ h.append_other _ hq) fun post hpost => ?_
  rw [hposts] at hpost
  apply (List.mem_append.mp hpost).imp_right
  intro h
  rw [Option.some.inj (List.mem_singleton.mp h)]

theorem released (books : s.Books) (hw : s.Working i p k .releasing)
    (hp : s.pools[p]? = some pool) : (s.settled i p (pool.released i)).Books :=
  books.work hp (pools_settled _) hw.post (hw.posts_settled _)
    ((books.pools p pool hp).released hw.post)

theorem register (books : s.Books) (hw : s.Working i p k .starting)
    (hp : s.pools[p]? = some pool) : (s.settled i p pool.register).Books :=
  books.work hp (pools_settled _) hw.post (hw.posts_settled _)
    ((books.pools p pool hp).register hw.post)

theorem posts_published {task : Task} : (s.published i p pool t task).posts = s.posts := by
  unfold published
  split
  · rfl
  · exact posts_wakeAll _

theorem pools_retired {task : Task} :
    (s.retired i p pool t task).pools = s.pools.set p (pool.retire i) := by
  unfold retired published
  split <;> rfl

theorem retire {task : Task} (books : s.Books) (hw : s.Working i p k (.counted t))
    (hp : s.pools[p]? = some pool) : (s.retired i p pool t task).Books := by
  have hw' : (s.published i p pool t task).Working i p k (.counted t) := by
    have hw : ((s.setPool p (pool.retire i)).setSlot t task.slot.complete).Working i p k
      (.counted t) := hw
    unfold published
    split
    · exact hw
    · exact hw.wakeAll (.finished t)
  have hposts : (s.retired i p pool t task).posts =
      (s.published i p pool t task).posts.set i (some ⟨p, k, .releasing⟩) :=
    hw'.posts .releasing fun _ => rfl
  rw [posts_published] at hposts
  exact books.work hp pools_retired hw.post hposts ((books.pools p pool hp).retire hw.post)

theorem move (books : s.Books) (m : Move i s es s') : s'.Books := by
  cases m with
  | call _ _ => exact books.onThread fun _ => rfl
  | leave _ _ _ => exact books.onThread fun _ => rfl
  | wait _ _ _ => exact books.onThread fun _ => rfl
  | note _ => exact books
  | addPool hc => exact books.addPool hc
  | addTask captured => exact books.congr rfl rfl
  | hire hp hr hn => exact books.hire hp hr hn
  | accept hp _ hr _ _ _ =>
    exact books.setPool hp (pools_wakeOne _) (posts_wakeOne _) ((books.pools _ _ hp).accept hr)
  | take _ _ _ _ _ _ => exact books.congr rfl (posts_onThread fun _ => rfl)
  | letGo _ _ _ _ _ => exact books.congr rfl (posts_onThread fun _ => rfl)
  | discard _ _ => exact books.onThread fun _ => rfl
  | destroy _ _ => exact .onThread (.onThread books fun _ => rfl) fun _ => rfl
  | release _ _ _ => exact books.onThread fun _ => rfl
  | abandon _ _ _ _ => exact books.congr rfl (posts_onThread fun _ => rfl)
  | unref _ _ => exact books.onThread fun _ => rfl
  | clear _ _ _ => exact books.congr rfl (posts_onThread fun _ => rfl)
  | resume _ => exact .onThread (.onThread books fun _ => rfl) fun _ => rfl
  | close hp hq => exact books.setPool hp rfl rfl ((books.pools _ _ hp).close hq)
  | stop k hp hc =>
    exact books.setPool hp rfl (posts_wakeAll _) ((books.pools _ _ hp).stop hc)
  | dismiss total hp hc => exact books.setPool hp rfl rfl ((books.pools _ _ hp).dismiss hc)
  | dropPool hp _ => exact books.setPool hp rfl rfl (books.pools _ _ hp).dropHandle
  | @register p _ _ g hw hp hg =>
    have hb : ((s.onThread i g).wakeAll (.workerRegistered p)).Books :=
      (books.onThread fun th => (hg th).1).congr rfl (posts_wakeAll _)
    exact hb.register ((hw.stay hg).wakeAll _) hp
  | released hw hp => exact books.released hw hp
  | @exit p pool k g hw hp hx hg =>
    have hself : s.pools = s.pools.set p pool := by
      obtain ⟨hlt, rfl⟩ := List.getElem?_eq_some_iff.mp hp
      exact (List.set_getElem_self hlt).symm
    exact books.work hp hself hw.post (hw.posts .exited fun th => (hg th).1)
      ((books.pools _ _ hp).exit hw.post hx)
  | @claim p _ pool' _ _ hw hp _ hc =>
    have hw' : (s.setPool p pool').Working i p _ _ := hw
    exact books.work hp rfl hw.post (hw'.posts (.holding _) fun _ => rfl)
      ((books.pools _ _ hp).claim hw.post hc)
  | park hw _ _ _ => exact books.rephase hw rfl rfl Thread.rephases_setPhase rfl
  | begin hw _ _ hg => exact books.rephase hw rfl rfl hg rfl
  | beginEmpty hw _ _ hg => exact books.rephase hw rfl rfl hg rfl
  | endWork hw _ _ hg => exact books.rephase hw rfl rfl hg rfl
  | stash hw _ => exact books.rephase hw rfl rfl Thread.rephases_setPhase rfl
  | @count p pool k t returned g hw hp hg =>
    have h : (s.setPool p (pool.count k returned)).Working i p k (.stashed t returned) := hw
    exact books.setPool hp rfl (h.posts_same hg rfl) ((books.pools _ _ hp).count returned)
  | retire hw hp _ => exact books.retire hw hp

end Books

theorem Run.books {callers : Nat} {h : Trace} (run : Run callers h s) : s.Books :=
  run.keeps (P := fun _ s => s.Books) (.start callers) fun _ books m => books.move m

end System

end WorkerPool
