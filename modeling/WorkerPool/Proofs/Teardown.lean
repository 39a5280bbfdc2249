import WorkerPool.Proofs.Newcomers
import WorkerPool.Proofs.ShutdownSteps

/-!
How the workers of a pool are stopped.

The first shutdown that finds a pool quiescent closes it and joins the workers one after the other;
the lock is free during each join. `Stage` says how far this has come, and every step keeps it: one
thread joins, in order, and a closed pool whose workers nobody joins has no workers left. Others
that call the library in the meantime find the pool closed.
-/
namespace WorkerPool

theorem Thread.hasExited_iff {th : Thread} :
    th.hasExited ↔ ∃ p k, th.post = some ⟨p, k, .exited⟩ := by
  unfold Thread.hasExited Thread.post
  cases th.role with
  | caller => simp
  | worker p k phase => cases phase <;> simp [Phase.station]

namespace Pool.Change

variable {s : System} {i : ThreadId} {p : PoolId} {es : List Event} {pool pool' : Pool}

/-- A closed pool stays closed, with the same workers, and takes no task. -/
theorem closed (change : Pool.Change s i p es pool pool') (hc : pool.closed) :
    pool'.closed ∧ pool'.crew.length = pool.crew.length ∧ pool'.submitted = pool.submitted := by
  cases change with
  | same => exact ⟨hc, rfl, rfl⟩
  | hire _ hr => simp [(Balanced.isOpen hr).1] at hc
  | accept _ hr _ => simp [(Balanced.isOpen hr).1] at hc
  | close _ => exact ⟨rfl, rfl, rfl⟩
  | stop _ _ => exact ⟨hc, by simp [requestExit], rfl⟩
  | dismiss _ => exact ⟨hc, rfl, rfl⟩
  | dropHandle => exact ⟨hc, rfl, rfl⟩
  | register _ => exact ⟨hc, rfl, rfl⟩
  | released _ => exact ⟨hc, rfl, rfl⟩
  | claim hq =>
    obtain ⟨queue, -, rfl⟩ := claim?_eq hq
    exact ⟨hc, rfl, rfl⟩
  | count _ _ => exact ⟨hc, by simp [Pool.count], rfl⟩
  | retire _ => exact ⟨hc, rfl, rfl⟩

/-- An open pool has been open before, and keeps the workers that have registered. -/
theorem opened (change : Pool.Change s i p es pool pool') :
    pool'.config = pool.config ∧
      (pool'.closed = false → pool.closed = false ∧ pool.threadCount ≤ pool'.threadCount) := by
  cases change with
  | same => exact ⟨rfl, fun ho => ⟨ho, le_rfl⟩⟩
  | hire _ _ => exact ⟨rfl, fun ho => ⟨ho, le_rfl⟩⟩
  | accept _ _ _ => exact ⟨rfl, fun ho => ⟨ho, le_rfl⟩⟩
  | close _ => exact ⟨rfl, nofun⟩
  | stop _ _ => exact ⟨rfl, fun ho => ⟨ho, le_rfl⟩⟩
  | dismiss hc => exact ⟨rfl, fun ho => by cases hc.symm.trans ho⟩
  | dropHandle => exact ⟨rfl, fun ho => ⟨ho, le_rfl⟩⟩
  | register _ => exact ⟨rfl, fun ho => ⟨ho, Nat.le_succ _⟩⟩
  | released _ => exact ⟨rfl, fun ho => ⟨ho, le_rfl⟩⟩
  | claim hq =>
    obtain ⟨queue, -, rfl⟩ := claim?_eq hq
    exact ⟨rfl, fun ho => ⟨ho, le_rfl⟩⟩
  | count _ _ => exact ⟨rfl, fun ho => ⟨ho, le_rfl⟩⟩
  | retire _ => exact ⟨rfl, fun ho => ⟨ho, le_rfl⟩⟩

/-- The number of registered workers rises only by those that start. -/
theorem threadCount (change : Pool.Change s i p es pool pool')
    (started : ∀ (j : ThreadId) k, s.posts[j]? ≠ some (some ⟨p, k, .starting⟩))
    (h : pool.threadCount = 0) : pool'.threadCount = 0 := by
  cases change with
  | register hw => exact absurd hw.post (started _ _)
  | dismiss _ => rfl
  | claim hq =>
    obtain ⟨queue, -, rfl⟩ := claim?_eq hq
    exact h
  | _ => exact h

end Pool.Change

namespace System

variable {s s' : System} {i j : ThreadId} {p q : PoolId} {pool : Pool} {f : Frame}
  {rest : List Frame} {es es' : List Event} {e : Effect} {h h' : Trace} {callers : Nat}
  {dropping : Bool} {a : Action} {k next total : Nat} {st : Station}

/-! ### Posts -/

theorem exited_of_post (hpost : s.posts[j]? = some (some ⟨p, k, st⟩))
    (hexit : s.threads[j]?.any Thread.hasExited) : st = .exited := by
  obtain ⟨th, hth, hexit⟩ := (Option.any_eq_true _ _).mp hexit
  obtain ⟨q, k', hx⟩ := Thread.hasExited_iff.mp hexit
  have hpost' : th.post = some ⟨p, k, st⟩ := by simpa [posts, hth] using hpost
  obtain ⟨-, -, rfl⟩ : q = p ∧ k' = k ∧ .exited = st := by simpa [hx] using hpost'
  rfl

theorem hasExited_of_post (hpost : s.posts[j]? = some (some ⟨p, k, .exited⟩)) :
    s.threads[j]?.any Thread.hasExited := by
  obtain ⟨th, hth, hx⟩ : ∃ th, s.threads[j]? = some th ∧ th.post = some ⟨p, k, .exited⟩ := by
    simpa [posts] using hpost
  rw [hth]
  exact Thread.hasExited_iff.mpr ⟨p, k, hx⟩

/-- A worker stays a worker of its pool. It does not start again, nor does it come back. -/
theorem PostChange.station {posts posts' : List (Option Post)}
    (change : PostChange s i posts posts') (hj : posts[j]? = some (some ⟨p, k, st⟩)) :
    ∃ st', posts'[j]? = some (some ⟨p, k, st'⟩) ∧ (st = .exited → st' = .exited) ∧
      (st ≠ .starting → st' ≠ .starting) := by
  cases change with
  | same => exact ⟨st, hj, id, id⟩
  | hire _ _ => exact ⟨st, getElem?_concat.mpr (.inl hj), id, id⟩
  | work st' hi hexit hstart _ =>
    by_cases hij : j = i
    · subst hij
      obtain ⟨rfl, rfl, rfl⟩ := by simpa using hj.symm.trans hi
      exact ⟨st', (getElem?_post_set hi).mpr (.inl ⟨rfl, rfl⟩), fun h => absurd h hexit,
        fun _ => hstart⟩
    · exact ⟨st, (getElem?_post_set hi).mpr (.inr ⟨hij, hj⟩), id, id⟩

theorem Moves.station (ms : Moves i s es s') (hj : s.posts[j]? = some (some ⟨p, k, st⟩)) :
    ∃ st', s'.posts[j]? = some (some ⟨p, k, st'⟩) ∧ (st = .exited → st' = .exited) ∧
      (st ≠ .starting → st' ≠ .starting) := by
  induction ms generalizing st with
  | nil => exact ⟨st, hj, id, id⟩
  | cons m _ ih =>
    obtain ⟨st₁, hj₁, exited₁, started₁⟩ := m.post_change.station hj
    obtain ⟨st₂, hj₂, exited₂, started₂⟩ := ih hj₁
    exact ⟨st₂, hj₂, exited₂ ∘ exited₁, started₂ ∘ started₁⟩

/-- A caller does not become a worker. -/
theorem PostChange.caller {posts posts' : List (Option Post)}
    (change : PostChange s i posts posts') (hj : posts[j]? = some none) :
    posts'[j]? = some none := by
  cases change with
  | same => exact hj
  | hire _ _ => rw [List.getElem?_append_left (List.getElem?_eq_some_iff.mp hj).1, hj]
  | work st' hi _ _ _ =>
    have hij : i ≠ j := fun hij => by simp [hij, hj] at hi
    rw [List.getElem?_set_ne hij, hj]

theorem Moves.caller (ms : Moves i s es s') (hj : s.posts[j]? = some none) :
    s'.posts[j]? = some none := by
  induction ms with
  | nil => exact hj
  | cons m _ ih => exact ih (m.post_change.caller hj)

/-- Every worker of the pool has registered. -/
def AllStarted (s : System) (p : PoolId) : Prop :=
  ∀ (j : ThreadId) k, s.posts[j]? ≠ some (some ⟨p, k, .starting⟩)

/-- A closed pool gets no new workers. -/
theorem Move.allStarted (m : Move i s es s') (hp : s.pools[p]? = some pool) (hc : pool.closed)
    (started : s.AllStarted p) : s'.AllStarted p := by
  intro j k hj
  have change := m.post_change
  generalize s'.posts = posts' at change hj
  cases change with
  | same => exact started j k hj
  | @hire q old hq hr =>
    rcases getElem?_concat.mp hj with hj | ⟨-, hj⟩
    · exact started j k hj
    · obtain ⟨rfl, -⟩ : p = q ∧ k = old.rosterSize := by simpa using hj
      obtain rfl : old = pool := Option.some.inj (hq.symm.trans hp)
      simp [(Pool.Balanced.isOpen hr).1] at hc
  | work st' hi _ hstart _ =>
    rcases (getElem?_post_set hi).mp hj with ⟨-, hj⟩ | ⟨-, hj⟩
    · cases hj
      exact hstart rfl
    · exact started j k hj

/-- What a step leaves of a closed pool. -/
theorem Moves.closed (ms : Moves i s es s') (hp : s.pools[p]? = some pool) (hc : pool.closed) :
    ∃ pool', s'.pools[p]? = some pool' ∧ pool'.closed ∧ pool'.crew.length = pool.crew.length ∧
      pool'.submitted = pool.submitted ∧
      (s.AllStarted p → pool.threadCount = 0 → pool'.threadCount = 0) := by
  induction ms generalizing pool with
  | nil => exact ⟨pool, hp, hc, rfl, rfl, fun _ h => h⟩
  | cons m _ ih =>
    obtain ⟨pool₁, hp₁, change⟩ := m.pool_change hp
    obtain ⟨hc₁, hlen₁, hsub₁⟩ := change.closed hc
    obtain ⟨pool₂, hp₂, hc₂, hlen₂, hsub₂, hcount⟩ := ih hp₁ hc₁
    exact ⟨pool₂, hp₂, hc₂, hlen₂.trans hlen₁, hsub₂.trans hsub₁, fun started h =>
      hcount (m.allStarted hp hc started) (change.threadCount started h)⟩

theorem Moves.opened (ms : Moves i s es s') (hp : s.pools[p]? = some pool) :
    ∃ pool', s'.pools[p]? = some pool' ∧ pool'.config = pool.config ∧
      (pool'.closed = false → pool.closed = false ∧ pool.threadCount ≤ pool'.threadCount) := by
  induction ms generalizing pool with
  | nil => exact ⟨pool, hp, rfl, fun ho => ⟨ho, le_rfl⟩⟩
  | cons m _ ih =>
    obtain ⟨pool₁, hp₁, change⟩ := m.pool_change hp
    obtain ⟨hconfig₁, keep₁⟩ := change.opened
    obtain ⟨pool₂, hp₂, hconfig₂, keep₂⟩ := ih hp₁
    refine ⟨pool₂, hp₂, hconfig₂.trans hconfig₁, fun ho => ?_⟩
    obtain ⟨ho₁, hle₂⟩ := keep₂ ho
    obtain ⟨ho, hle₁⟩ := keep₁ ho₁
    exact ⟨ho, hle₁.trans hle₂⟩

/-- Steps outside of shutdowns open and close no pool. -/
theorem isClosed_of_step (calls : s.Calls) (nested : s.Nested) (hs : s.step i a = some e)
    (before : ∀ f rest, s.Inside i (f :: rest) → f.isTeardown = false)
    (after : ∀ f rest, e.1.Inside i (f :: rest) → f.isTeardown = false)
    (told : ∀ p pool total, e.2 ≠ Pool.farewell p pool total) (p : PoolId) :
    e.1.isClosed p = s.isClosed p := by
  have no_stop {pools : List Pool} {q : PoolId} {pool : Pool} {next total : Nat} :
      ¬ Stops pools i q pool next total e := fun stops => by
    cases stops with
    | waits _ _ hi => cases after _ _ hi
    | ends _ _ _ => exact told _ _ _ rfl
  cases teardownStep_of_step calls nested hs with
  | joins step =>
    cases step with
    | joined hi _ _ _ _ => cases before _ _ hi
  | calls _ step =>
    cases step with
    | aloof aloof => exact aloof.closed p
    | waits _ _ _ _ _ hi => cases after _ _ hi
    | begins _ _ _ stops => exact absurd stops no_stop
    | repeats _ _ _ stops => exact absurd stops no_stop

/-! ### Who joins the workers -/

namespace Stops

variable {pools : List Pool}

theorem joins (stops : Stops pools i q pool next total e) (hj : e.1.Joins i p) : p = q := by
  cases stops with
  | waits _ _ hi => exact hi.joins.mp hj
  | ends _ _ free => exact absurd hj free.not_joins

theorem not_self (stops : Stops pools i q pool next total e) : .log (.stopsItself p k) ∉ e.2 := by
  cases stops with
  | waits _ _ _ => simp
  | ends _ _ _ => simp [Pool.farewell]

/-- The pool that is stopped stays closed, with its workers. -/
theorem pool_eq (stops : Stops s.pools i p pool next total e) {old : Pool}
    (hp : s.pools[p]? = some old) (hc : pool.closed) : ∃ new, e.1.pools[p]? = some new ∧
      new.closed ∧ new.crew.length = pool.crew.length := by
  have hlt := (List.getElem?_eq_some_iff.mp hp).1
  cases stops with
  | waits _ hpools _ =>
    exact ⟨pool.requestExit next, by simp [hpools, hlt], hc, by simp [Pool.requestExit]⟩
  | ends _ hpools _ => exact ⟨pool.dismiss, by simp [hpools, hlt], hc, rfl⟩

theorem isClosed_ne (stops : Stops s.pools i q pool next total e) (hpq : p ≠ q) :
    e.1.isClosed p = s.isClosed p := by
  cases stops with
  | waits _ hpools _ => simp [isClosed, hpools, Ne.symm hpq]
  | ends _ hpools _ => simp [isClosed, hpools, Ne.symm hpq]

end Stops

theorem CrewJoin.joins (step : s.CrewJoin i p e) : s.Joins i p := by
  obtain ⟨hi, _, _, _, _⟩ := step
  exact hi.joins.mpr rfl

/-- What a step of the thread is for the workers of the pool. -/
inductive CrewStep (s : System) (i : ThreadId) (p : PoolId) : Effect → Prop
  | apart {e : Effect} : ¬ s.Joins i p → ¬ e.1.Joins i p → e.1.isClosed p = s.isClosed p →
      CrewStep s i p e
  | begins {pool : Pool} {e : Effect} : ¬ s.Joins i p → s.pools[p]? = some pool →
      pool.closed = false → Stops s.pools i p pool.close 0 pool.crew.length e → CrewStep s i p e
  | joined {e : Effect} : s.CrewJoin i p e → CrewStep s i p e

theorem crewStep_of_step (calls : s.Calls) (nested : s.Nested) (hs : s.step i a = some e)
    (p : PoolId) : s.CrewStep i p e := by
  cases teardownStep_of_step calls nested hs with
  | @joins q step =>
    by_cases hpq : p = q
    · exact .joined (hpq ▸ step)
    · obtain ⟨hi, hp, hj, left, stops⟩ := step
      exact .apart (fun h => hpq (hi.joins.mp h)) (fun h => hpq (stops.joins h))
        (stops.isClosed_ne hpq)
  | calls idle step =>
    cases step with
    | aloof h => exact .apart (idle p) h.free.not_joins (h.closed p)
    | waits _ _ _ _ hpools hi => exact .apart (idle p) hi.not_joins (by simp [isClosed, hpools])
    | @begins q pool _ hq ho _ stops =>
      by_cases hpq : p = q
      · subst hpq
        exact .begins (idle p) hq ho stops
      · exact .apart (idle p) (fun h => hpq (stops.joins h)) (stops.isClosed_ne hpq)
    | @repeats q pool _ _ hq hc stops =>
      cases stops with
      | waits hlt => exact absurd hlt (Nat.lt_irrefl 0)
      | ends _ hpools free =>
        exact .apart (idle p) free.not_joins (isClosed_set hq hpools (by simp [Pool.dismiss, hc]) p)

/-- A shutdown that joins goes on through the steps of other threads. -/
theorem Run.joining_other (run : Run callers h s) (hs : s.step j a = some (s', es)) (hij : i ≠ j)
    (hi : s.Inside i (.joiningCrew p next total dropping :: rest)) :
    ∃ rest', s'.Inside i (.joiningCrew p next total dropping :: rest') := by
  obtain ⟨f, rest', hi', hf⟩ := (moves_of_step run.calls hs).spares.inside hij hi
  obtain rfl : f = .joiningCrew p next total dropping := by
    cases f <;> simp_all [Frame.asleep]
  exact ⟨rest', hi'⟩

theorem Run.joins_other (run : Run callers h s) (hs : s.step j a = some (s', es)) (hij : i ≠ j)
    (hi : s'.Joins i p) : s.Joins i p := by
  obtain ⟨next, total, dropping, rest, hi⟩ := hi
  obtain ⟨rest', hi'⟩ :=
    (moves_of_step run.calls hs).inside_before run.unentered hij hi rfl
  exact ⟨next, total, dropping, rest', hi'⟩

/-! ### How far a shutdown has come -/

/-- The worker `k` of the pool has terminated, unless it stops the pool itself. -/
def Left (h : Trace) (s : System) (p : PoolId) (k : Nat) : Prop :=
  ∃ (j : ThreadId) (st : Station), s.posts[j]? = some (some ⟨p, k, st⟩) ∧
    (st = .exited ∨ st ≠ .starting ∧ (j, .log (.stopsItself p k)) ∈ h)

theorem Left.step (left : s.Left h p k) (ms : Moves i s es s') :
    s'.Left (h ++ es.map (i, ·)) p k := by
  obtain ⟨j, st, hj, how⟩ := left
  obtain ⟨st', hj', exited, started⟩ := ms.station hj
  refine ⟨j, st', hj', how.imp exited ?_⟩
  rintro ⟨hst, hlog⟩
  exact ⟨started hst, List.mem_append_left _ hlog⟩

/-- A pool all of whose workers have left has no worker that starts. -/
theorem allStarted_of_left (books : s.Books) (hp : s.pools[p]? = some pool)
    (left : ∀ k < pool.crew.length, s.Left h p k) : s.AllStarted p := by
  intro j k hj
  have crew := (books.pools p pool hp).crew
  have hhand : pool.hands[k]? = some j := (crew k j).mpr ⟨_, hj⟩
  have hlt : k < pool.crew.length := by
    simpa [Pool.hands] using (List.getElem?_eq_some_iff.mp hhand).1
  obtain ⟨j', st, hj', how⟩ := left k hlt
  have hhand' : pool.hands[k]? = some j' := (crew k j').mpr ⟨_, hj'⟩
  obtain rfl : j = j' := Option.some.inj (hhand.symm.trans hhand')
  obtain rfl : st = .starting := by simpa using hj'.symm.trans hj
  simp at how

/-- How far the workers of the pool have been stopped. -/
inductive Stage (h : Trace) (s : System) (p : PoolId) : Prop
  | running : s.isClosed p = false → (∀ i, ¬ s.Joins i p) → Stage h s p
  /-- One thread joins the worker `next`. -/
  | stopping {pool : Pool} {i : ThreadId} {next : Nat} {dropping : Bool} {rest : List Frame} :
      s.pools[p]? = some pool → pool.closed →
      s.Inside i (.joiningCrew p next pool.crew.length dropping :: rest) →
      (∀ j, s.Joins j p → j = i) → (∀ k < next, s.Left h p k) → Stage h s p
  | stopped {pool : Pool} : s.pools[p]? = some pool → pool.closed → (∀ i, ¬ s.Joins i p) →
      pool.threadCount = 0 → (∀ k < pool.crew.length, s.Left h p k) → Stage h s p

theorem Stops.stage {pools : List Pool} {old : Pool}
    (stops : Stops pools i p pool next pool.crew.length e) (hp : pools[p]? = some old)
    (hc : pool.closed) (only : ∀ j, e.1.Joins j p → j = i) (left : ∀ k < next, e.1.Left h p k) :
    Stage h e.1 p := by
  have hlt := (List.getElem?_eq_some_iff.mp hp).1
  cases stops with
  | @waits s dropping rest _ hpools hi =>
    have hp' : s.pools[p]? = some (pool.requestExit next) := by simp [hpools, hlt]
    have hcrew : (pool.requestExit next).crew.length = pool.crew.length := by
      simp [Pool.requestExit]
    exact .stopping hp' hc (hcrew.symm ▸ hi) only left
  | @ends s hle hpools free =>
    have hp' : s.pools[p]? = some pool.dismiss := by simp [hpools, hlt]
    refine .stopped hp' hc (fun j hj => ?_) rfl fun k hk => left k (hk.trans_le hle)
    obtain rfl := only j hj
    exact free.not_joins hj

/-- The worker that a shutdown has just joined has left. -/
theorem Run.left_joined (run : Run callers h s) (hs : s.step i a = some (s', es))
    (hi : s.Inside i (f :: rest)) (hp : s.pools[p]? = some pool) (hj : pool.hands[k]? = some j)
    (how : s.threads[j]?.any Thread.hasExited ∧ es = es' ∨
      j = i ∧ es = .log (.stopsItself p k) :: es') : s'.Left (h ++ es.map (i, ·)) p k := by
  obtain ⟨st, hpost⟩ := ((run.books.pools p pool hp).crew k j).mp hj
  obtain ⟨st', hpost', exited, started⟩ := (moves_of_step run.calls hs).station hpost
  refine ⟨j, st', hpost', ?_⟩
  rcases how with ⟨hexit, -⟩ | ⟨rfl, rfl⟩
  · left
    exact exited (exited_of_post hpost hexit)
  · right
    obtain ⟨th, hth, hc⟩ := hi
    have hnew : st ≠ .starting := by
      rintro rfl
      have hpost : th.post = some ⟨p, k, .starting⟩ := by simpa [posts, hth] using hpost
      have := run.unentered th (List.mem_of_getElem? hth) (Thread.isNew_of_post hpost)
      simp [hc] at this
    exact ⟨started hnew, by simp⟩

theorem Stage.step (stage : Stage h s p) (run : Run callers h s)
    (hs : s.step i a = some (s', es)) : Stage (h ++ es.map (i, ·)) s' p := by
  have ms := moves_of_step run.calls hs
  have crew := crewStep_of_step run.calls run.nested hs p
  have others {j : ThreadId} (hj : j ≠ i) (joins : s'.Joins j p) : s.Joins j p :=
    run.joins_other hs hj joins
  cases stage with
  | running hopen idle =>
    cases crew with
    | apart _ hno hc =>
      refine .running (hc.trans hopen) fun j hj => ?_
      by_cases hji : j = i
      · exact hno (hji ▸ hj)
      · exact idle j (others hji hj)
    | begins _ hp _ stops =>
      refine stops.stage hp rfl (fun j hj => ?_) fun k hk => absurd hk (Nat.not_lt_zero k)
      by_contra hji
      exact idle j (others hji hj)
    | joined step => exact absurd step.joins (idle i)
  | @stopping pool j next dropping rest hp hc hi only left =>
    have left' (k : Nat) (hk : k < next) : s'.Left (h ++ es.map (i, ·)) p k := (left k hk).step ms
    by_cases hji : j = i
    · subst hji
      cases crew with
      | apart hno _ _ => exact absurd (hi.joins.mpr rfl) hno
      | begins hno _ _ _ => exact absurd (hi.joins.mpr rfl) hno
      | joined step =>
        obtain ⟨hi', hp', hhand, how, stops⟩ := step
        cases hi'.unique hi
        obtain rfl := Option.some.inj (hp'.symm.trans hp)
        refine stops.stage hp hc (fun k hk => ?_) fun k hk => ?_
        · by_contra hkj
          exact hkj (only k (others hkj hk))
        · rcases Nat.lt_succ_iff_lt_or_eq.mp hk with hk | rfl
          · exact left' k hk
          · exact run.left_joined hs hi hp hhand how
    · have hno : ¬ s.Joins i p := fun h => hji (only i h).symm
      cases crew with
      | apart _ hno' _ =>
        obtain ⟨pool', hp', hc', hcrew, -⟩ := ms.closed hp hc
        obtain ⟨rest', hi'⟩ := run.joining_other hs hji hi
        refine .stopping hp' hc' (hcrew.symm ▸ hi') (fun k hk => ?_) left'
        by_cases hki : k = i
        · exact absurd (hki ▸ hk) hno'
        · exact only k (others hki hk)
      | begins _ hp' ho _ =>
        obtain rfl := Option.some.inj (hp'.symm.trans hp)
        simp [ho] at hc
      | joined step => exact absurd step.joins hno
  | @stopped pool hp hc idle hcount left =>
    cases crew with
    | apart _ hno _ =>
      obtain ⟨pool', hp', hc', hcrew, -, hzero⟩ := ms.closed hp hc
      have started := allStarted_of_left run.books hp left
      refine .stopped hp' hc' (fun j hj => ?_) (hzero started hcount) fun k hk =>
        (left k (hcrew ▸ hk)).step ms
      by_cases hji : j = i
      · exact hno (hji ▸ hj)
      · exact idle j (others hji hj)
    | begins _ hp' ho _ =>
      obtain rfl := Option.some.inj (hp'.symm.trans hp)
      simp [ho] at hc
    | joined step => exact absurd step.joins (idle i)

theorem Run.stage (run : Run callers h s) (p : PoolId) : Stage h s p := by
  induction run with
  | start =>
    refine .running rfl fun i joins => ?_
    obtain ⟨next, total, dropping, rest, th, hth, hc⟩ := joins
    rw [List.eq_of_mem_replicate (List.mem_of_getElem? hth)] at hc
    cases hc
  | step run hs ih => exact ih.step run hs

/-- Only a worker of the pool stops its own pool. -/
theorem Run.stopsItself (run : Run callers h s) (hlog : (j, .log (.stopsItself p k)) ∈ h) :
    ∃ st, s.posts[j]? = some (some ⟨p, k, st⟩) := by
  induction run with
  | start => cases hlog
  | @step h s s' i a es run hs ih =>
    have ms := moves_of_step run.calls hs
    rcases List.mem_append.mp hlog with hlog | hlog
    · obtain ⟨st, hj⟩ := ih hlog
      obtain ⟨st', hj', -⟩ := ms.station hj
      exact ⟨st', hj'⟩
    · obtain ⟨ev, hev, he⟩ := List.mem_map.mp hlog
      obtain ⟨rfl, rfl⟩ : i = j ∧ ev = .log (.stopsItself p k) := by simpa using he
      cases teardownStep_of_step run.calls run.nested hs with
      | joins step =>
        obtain ⟨_, hp, hj', left, stops⟩ := step
        rcases left with ⟨-, rfl⟩ | ⟨rfl, rfl⟩
        · exact absurd hev stops.not_self
        · rcases List.mem_cons.mp hev with he | hev
          · obtain ⟨rfl, rfl⟩ := by simpa using he
            obtain ⟨st, hpost⟩ := ((run.books.pools p _ hp).crew k _).mp hj'
            obtain ⟨st', hpost', -⟩ := ms.station hpost
            exact ⟨st', hpost'⟩
          · exact absurd hev stops.not_self
      | calls _ step =>
        cases step with
        | aloof h => simpa [Event.isTeardown] using List.all_eq_true.mp h.quiet _ hev
        | waits _ _ _ _ _ _ => cases hev
        | begins _ _ _ stops => exact absurd hev stops.not_self
        | repeats _ _ _ stops => exact absurd hev stops.not_self

/-! ### Calls that return -/

/-- The step, if it replies, is the last one of a shutdown that was called for. -/
inductive EndsShutdown (s : System) (i : ThreadId) (p : PoolId) : Action → Prop
  | call (pick : Pick) : EndsShutdown s i p (.call (.shutdown p) pick)
  | awaiting {rest : List Frame} (pick : Pick) :
      s.Inside i (.awaitingReleases p false true :: rest) → EndsShutdown s i p (.advance pick)
  | joining {next total : Nat} {rest : List Frame} (pick : Pick) :
      s.Inside i (.joiningCrew p next total false :: rest) → EndsShutdown s i p (.advance pick)

theorem isClosed_of_pool (hp : s.pools[p]? = some pool) (hc : pool.closed) : s.isClosed p := by
  simp [isClosed, hp, hc]

theorem resumeShutdown_done (nested : s.Nested) (hi : s.Inside i (f :: rest)) (hf : f.isBare)
    (hp : s.pools[p]? = some pool)
    (done : .replied .done ∈ (s.resumeShutdown i p pool false).2) :
    (s.resumeShutdown i p pool false).1.isClosed p := by
  unfold System.resumeShutdown at done ⊢
  split at done
  · simp at done
  · next hgo =>
    rw [if_neg hgo]
    unfold System.decideShutdown at done ⊢
    split at done
    · next hq =>
      rw [if_pos hq]
      have stops : Stops s.pools i p pool.close 0 pool.rosterSize
          (s.stopNext i p pool.close 0 pool.rosterSize false) :=
        stops_stopNext 0 pool.rosterSize nested hi hf
      obtain ⟨new, hnew, hc, -⟩ := stops.pool_eq hp rfl
      exact isClosed_of_pool hnew hc
    · simp [System.endShutdown, System.reply] at done

theorem shutdown_done (nested : s.Nested) (hi : s.Inside i (f :: rest)) (hf : f.isBare)
    (hp : s.pools[p]? = some pool) (done : .replied .done ∈ (s.shutdown i p pool false).2) :
    (s.shutdown i p pool false).1.isClosed p := by
  unfold System.shutdown at done ⊢
  split at done
  · next hc =>
    rw [if_pos hc]
    exact isClosed_of_pool hp hc
  · next hc =>
    rw [if_neg hc]
    exact resumeShutdown_done nested hi hf hp done

/-- A shutdown that returns without an error leaves the pool closed. -/
theorem Run.closed_of_done (run : Run callers h s) (ends : s.EndsShutdown i p a)
    (hs : s.step i a = some (s', es)) (done : .replied .done ∈ es) : s'.isClosed p := by
  cases ends with
  | call pick =>
    obtain ⟨th, pool, hth, hu, hp, he⟩ := step_shutdown hs
    have nested : (s.inCall i).Nested := run.nested.move (.call hth hu)
    have closed := shutdown_done nested (.inCall hth) rfl hp (by rwa [he])
    rwa [he] at closed
  | awaiting pick hi =>
    obtain ⟨pool, hp, he⟩ := hi.resumes hs
    have closed := resumeShutdown_done run.nested hi rfl hp (by rwa [he])
    rwa [he] at closed
  | joining pick hi =>
    have hclosed : s.isClosed p := run.calls.relies.inside hi
    obtain ⟨pool, hp, hc⟩ := (Option.any_eq_true _ _).mp hclosed
    obtain ⟨pool', hp', hc', -⟩ := (moves_of_step run.calls hs).closed hp hc
    exact isClosed_of_pool hp' hc'

/-! ### What a closed pool tells -/

/-- The thread of the worker `k` has terminated, unless the worker has stopped its own pool. -/
def Terminated (h : Trace) (s : System) (p : PoolId) (k : Nat) (j : ThreadId) : Prop :=
  s.threads[j]?.any Thread.hasExited ∨ (j, .log (.stopsItself p k)) ∈ h

/-- The pool is closed, counts no workers, and none of those that it ever had is left. -/
def Finished (h : Trace) (s : System) (p : PoolId) : Prop :=
  ∃ pool, s.pools[p]? = some pool ∧ pool.closed ∧ pool.threadCount = 0 ∧
    ∀ k j, pool.hands[k]? = some j → s.Terminated h p k j

theorem Left.terminated (left : s.Left h p k) (books : s.Books) (hp : s.pools[p]? = some pool)
    (hj : pool.hands[k]? = some j) : s.Terminated h p k j := by
  obtain ⟨j', st, hpost, how⟩ := left
  have hj' : pool.hands[k]? = some j' := ((books.pools p pool hp).crew k j').mpr ⟨st, hpost⟩
  obtain rfl : j = j' := Option.some.inj (hj.symm.trans hj')
  refine how.imp ?_ And.right
  rintro rfl
  exact hasExited_of_post hpost

theorem Run.finished (run : Run callers h s) (hc : s.isClosed p) (idle : ∀ i, ¬ s.Joins i p) :
    Finished h s p := by
  cases run.stage p with
  | running hopen _ => simp [hc] at hopen
  | stopping _ _ hi _ _ => exact absurd (hi.joins.mpr rfl) (idle _)
  | stopped hp hclosed _ hcount left =>
    refine ⟨_, hp, hclosed, hcount, fun k j hj => (left k ?_).terminated run.books hp hj⟩
    simpa [Pool.hands] using (List.getElem?_eq_some_iff.mp hj).1

/-- No shutdown takes the workers of a closed pool. -/
theorem Run.idle_replay (run : Run callers h s) {schedule : List (ThreadId × Action)}
    (hr : s.replay schedule = some (h', s')) (hc : s.isClosed p) (idle : ∀ i, ¬ s.Joins i p) :
    s'.isClosed p ∧ ∀ i, ¬ s'.Joins i p := by
  induction schedule generalizing h h' s with
  | nil =>
    cases hr
    exact ⟨hc, idle⟩
  | cons move rest ih =>
    obtain ⟨s₁, es, h₁, hs, hr₁, rfl⟩ := replay_cons hr
    cases crewStep_of_step run.calls run.nested hs p with
    | apart _ hno hsame =>
      refine ih (run.step hs) hr₁ (hsame.trans hc) fun j hj => ?_
      by_cases hji : j = move.1
      · exact hno (hji ▸ hj)
      · exact idle j (run.joins_other hs hji hj)
    | begins _ hp ho _ => simp [isClosed, hp, ho] at hc
    | joined step => exact absurd step.joins (idle move.1)

/-- What a pool that is closed, and a shutdown that has returned, tell. -/
structure Teardown (callers : Nat) (h : Trace) (s : System) (p : PoolId) : Prop where
  /-- One thread at most joins the workers. It has joined the first ones of them. -/
  single : ∀ {i j}, s.Joins i p → s.Joins j p → i = j
  joined : ∀ {i next total dropping rest},
    s.Inside i (.joiningCrew p next total dropping :: rest) → ∃ pool, s.pools[p]? = some pool ∧
      pool.closed ∧ total = pool.crew.length ∧
      ∀ k j, k < next → pool.hands[k]? = some j → s.Terminated h p k j
  /-- A pool is finished if it is closed and nobody joins its workers. -/
  finished : s.isClosed p → (∀ i, ¬ s.Joins i p) → Finished h s p
  /-- The pool is finished when the shutdown that joins comes to its end. -/
  ends : ∀ {i a es s'}, s.Joins i p → s.step i a = some (s', es) → ¬ s'.Joins i p →
    Finished (h ++ es.map (i, ·)) s' p
  /-- A shutdown that returns without an error leaves the pool closed, and finished unless another
  one still joins. -/
  returns : ∀ {i a es s'}, s.EndsShutdown i p a → s.step i a = some (s', es) →
    .replied .done ∈ es → s'.isClosed p ∧
      ((∀ j, ¬ s'.Joins j p) → Finished (h ++ es.map (i, ·)) s' p)
  /-- A finished pool stays finished. -/
  lasts : ∀ {schedule h' s'}, s.isClosed p → (∀ i, ¬ s.Joins i p) →
    s.replay schedule = some (h', s') → Finished (h ++ h') s' p
  /-- A worker that stops its own pool is one of this pool. -/
  own : ∀ {j k}, (j, .log (.stopsItself p k)) ∈ h →
    ∃ th phase, s.threads[j]? = some th ∧ th.role = .worker p k phase

theorem Run.single_joiner (run : Run callers h s) (hi : s.Joins i p) (hj : s.Joins j p) :
    i = j := by
  cases run.stage p with
  | running _ idle => exact absurd hi (idle i)
  | stopping _ _ _ only _ => exact (only i hi).trans (only j hj).symm
  | stopped _ _ idle _ _ => exact absurd hi (idle i)

theorem Run.teardown (run : Run callers h s) (p : PoolId) : Teardown callers h s p where
  single hi hj := run.single_joiner hi hj
  joined {i next total dropping rest} hi := by
    have joins : s.Joins i p := hi.joins.mpr rfl
    cases run.stage p with
    | running _ idle => exact absurd joins (idle i)
    | stopping hp hc hi' only left =>
      obtain rfl := only i joins
      cases hi.unique hi'
      exact ⟨_, hp, hc, rfl, fun k j hk hj => (left k hk).terminated run.books hp hj⟩
    | stopped _ _ idle _ _ => exact absurd joins (idle i)
  finished hc idle := run.finished hc idle
  ends {i a es s'} joins hs ended := by
    obtain ⟨next, total, dropping, rest, hi⟩ := joins
    have hclosed : s.isClosed p := run.calls.relies.inside hi
    obtain ⟨pool, hp, hc⟩ := (Option.any_eq_true _ _).mp hclosed
    obtain ⟨pool', hp', hc', -⟩ := (moves_of_step run.calls hs).closed hp hc
    refine (run.step hs).finished (isClosed_of_pool hp' hc') fun j hj => ?_
    by_cases hji : j = i
    · exact ended (hji ▸ hj)
    · exact hji (run.single_joiner (run.joins_other hs hji hj) (hi.joins.mpr rfl))
  returns ends hs done := by
    have closed := run.closed_of_done ends hs done
    exact ⟨closed, (run.step hs).finished closed⟩
  lasts hc idle hr := by
    obtain ⟨hc', idle'⟩ := run.idle_replay hr hc idle
    exact (run.replay hr).finished hc' idle'
  own {j k} hlog := by
    obtain ⟨st, hpost⟩ := run.stopsItself hlog
    obtain ⟨th, phase, hth, hr⟩ := mem_posts.mp ⟨st, hpost⟩
    exact ⟨th, phase, hth, hr⟩

/-- Two callers shut down a pool with one worker. -/
def twoShutdowns : List (ThreadId × Action) :=
  let call (i : ThreadId) (op : Operation) : ThreadId × Action := (i, .call op 0)
  let go (i : ThreadId) (n : Nat) := List.replicate n (i, Action.advance 0)
  [call 0 (.createPool (.new 1)), call 0 (.createTask none), call 0 (.submit 0 0)] ++ go 2 1 ++
  go 0 1 ++ go 2 2 ++ [(2, .finish (.ok .null))] ++ go 2 6 ++
  [call 0 (.shutdown 0), call 1 (.shutdown 0)]

/-- The second shutdown returns while the first one waits for the worker. -/
theorem unfinished_twoShutdowns : ∃ h s pool, Run 2 h s ∧ h.getLast? = some (1, .replied .done) ∧
    s.pools[0]? = some pool ∧ pool.closed ∧ pool.threadCount = 1 ∧ pool.hands = [2] ∧
    s.threads[2]?.any Thread.hasExited = false := by
  have run : Run 2 _ _ := run_of_replay twoShutdowns rfl
  exact ⟨_, _, _, run, rfl, rfl, rfl, rfl, rfl, rfl⟩

theorem teardown_twoShutdowns : ∃ h s, Run 2 h s ∧ s.isClosed 0 ∧ Teardown 2 h s 0 := by
  let go (i : ThreadId) := (i, Action.advance 0)
  have run : Run 2 _ _ := run_of_replay (twoShutdowns ++ [go 2, go 0]) rfl
  exact ⟨_, _, run, rfl, run.teardown 0⟩

end System

end WorkerPool
