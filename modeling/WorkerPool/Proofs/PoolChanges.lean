import WorkerPool.Proofs.Bookkeeping
import WorkerPool.Proofs.Changes

/-!
What a move does to one pool, and to the posts of threads.

`Pool.Change` lists the operations on a pool with their conditions, and `Move.pool_change` says that
there are no others. `Move.post_change` says the same of what the threads work at.
-/
namespace WorkerPool

/-- A pool before and after a move of the thread `i`, and what the move tells. -/
inductive Pool.Change (s : System) (i : ThreadId) (p : PoolId) (es : List Event) :
    Pool → Pool → Prop
  | same (pool : Pool) : Change s i p es pool pool
  | hire {pool : Pool} (j : ThreadId) : pool.refusal = none → Change s i p es pool (pool.hire j)
  | accept {pool : Pool} (t : TaskId) : pool.refusal = none → es.filterMap (·.push? p) ≠ [] →
      Change s i p es pool (pool.accept t)
  | close {pool : Pool} : pool.isQuiescentFor i → Change s i p es pool pool.close
  | stop {pool : Pool} (k : Nat) : pool.closed → Change s i p es pool (pool.requestExit k)
  | dismiss {pool : Pool} : pool.closed → Change s i p es pool pool.dismiss
  | dropHandle (pool : Pool) : Change s i p es pool { pool with handle := false }
  | register {pool : Pool} {k : Nat} : s.Working i p k .starting →
      Change s i p es pool pool.register
  | released {pool : Pool} {k : Nat} : s.Working i p k .releasing →
      Change s i p es pool (pool.released i)
  | claim {pool pool' : Pool} {t : TaskId} : pool.claim? = some (t, pool') →
      Change s i p es pool pool'
  | count {pool : Pool} (k : Nat) (returned : Bool) : Change s i p es pool (pool.count k returned)
  | retire {pool : Pool} {k : Nat} {t : TaskId} : s.Working i p k (.counted t) →
      Change s i p es pool (pool.retire i)

namespace System

variable {s s' : System} {i : ThreadId} {p q : PoolId} {pool new old : Pool} {es : List Event}
  {k : Nat}

theorem getElem?_pools_set (hq : s.pools[q]? = some old) (hp : s.pools[p]? = some pool)
    (hpools : s'.pools = s.pools.set q new) (hc : q = p → Pool.Change s i p es pool new) :
    ∃ pool', s'.pools[p]? = some pool' ∧ Pool.Change s i p es pool pool' := by
  have hlt := (List.getElem?_eq_some_iff.mp hq).1
  by_cases hqp : q = p
  · subst hqp
    exact ⟨new, by simp [hpools, hlt], hc rfl⟩
  · exact ⟨pool, by simp [hpools, hqp, hp], .same pool⟩

theorem Move.pool_change (m : Move i s es s') (hp : s.pools[p]? = some pool) :
    ∃ pool', s'.pools[p]? = some pool' ∧ Pool.Change s i p es pool pool' := by
  have same (hpools : s'.pools = s.pools) :
      ∃ pool', s'.pools[p]? = some pool' ∧ Pool.Change s i p es pool pool' :=
    ⟨pool, hpools ▸ hp, .same pool⟩
  -- The pool that the move is about may be another one.
  have set {q : PoolId} {old new : Pool} (hq : s.pools[q]? = some old)
      (hpools : s'.pools = s.pools.set q new) (hc : q = p → Pool.Change s i p es old new) :
      ∃ pool', s'.pools[p]? = some pool' ∧ Pool.Change s i p es pool pool' := by
    refine getElem?_pools_set hq hp hpools fun hqp => ?_
    obtain rfl : old = pool := Option.some.inj (hq.symm.trans (hqp ▸ hp))
    exact hc hqp
  cases m with
  | call _ _ => exact same rfl
  | leave _ _ _ => exact same rfl
  | wait _ _ _ => exact same rfl
  | note _ => exact same rfl
  | addPool _ =>
    have hlt := (List.getElem?_eq_some_iff.mp hp).1
    exact ⟨pool, (List.getElem?_append_left hlt).trans hp, .same pool⟩
  | addTask _ => exact same rfl
  | hire hq hr _ => exact set hq rfl fun _ => .hire _ hr
  | @accept q pool t task pick hq _ hr _ _ _ =>
    exact set hq (pools_wakeOne pick) fun hqp => .accept t hr (by simp [Event.push?, hqp])
  | take _ _ _ _ _ _ => exact same rfl
  | letGo _ _ _ _ _ => exact same rfl
  | discard _ _ => exact same rfl
  | destroy _ _ => exact same rfl
  | release _ _ _ => exact same rfl
  | abandon _ _ _ _ => exact same rfl
  | unref _ _ => exact same rfl
  | clear _ _ _ => exact same rfl
  | resume _ => exact same rfl
  | close hq hquiet => exact set hq rfl fun _ => .close hquiet
  | stop k hq hc => exact set hq rfl fun _ => .stop k hc
  | dismiss total hq hc => exact set hq rfl fun _ => .dismiss hc
  | dropPool hq _ => exact set hq rfl fun _ => .dropHandle _
  | register hw hq _ => exact set hq (pools_settled _) fun hqp => .register (hqp ▸ hw)
  | released hw hq => exact set hq (pools_settled _) fun hqp => .released (hqp ▸ hw)
  | exit _ _ _ _ => exact same rfl
  | claim _ hq _ hc => exact set hq rfl fun _ => .claim hc
  | park _ _ _ _ => exact same rfl
  | begin _ _ _ _ => exact same rfl
  | beginEmpty _ _ _ _ => exact same rfl
  | endWork _ _ _ _ => exact same rfl
  | stash _ _ => exact same rfl
  | count _ hq _ => exact set hq rfl fun _ => .count _ _
  | retire hw hq _ => exact set hq Books.pools_retired fun hqp => .retire (hqp ▸ hw)

/-! ### Posts -/

/-- What a move does to the posts: nothing, or a worker is new, or the thread changes its station.
It does not come back from its exit, nor to its start, and it exits only if told to. -/
inductive PostChange (s : System) (i : ThreadId) :
    List (Option Post) → List (Option Post) → Prop
  | same (posts : List (Option Post)) : PostChange s i posts posts
  | hire {posts : List (Option Post)} {p : PoolId} {pool : Pool} : s.pools[p]? = some pool →
      pool.refusal = none → PostChange s i posts (posts ++ [some ⟨p, pool.rosterSize, .starting⟩])
  | work {posts : List (Option Post)} {p : PoolId} {k : Nat} {st : Station} (st' : Station) :
      posts[i]? = some (some ⟨p, k, st⟩) → st ≠ .exited → st' ≠ .starting →
      (st' = .exited → ∃ pool, s.pools[p]? = some pool ∧ pool.exitRequested k) →
      PostChange s i posts (posts.set i (some ⟨p, k, st'⟩))

theorem Move.post_change (m : Move i s es s') : PostChange s i s.posts s'.posts := by
  have same (h : s'.posts = s.posts) : PostChange s i s.posts s'.posts := h ▸ .same _
  have roles {g : Thread → Thread} (hg : ∀ th, (g th).role = th.role) :
      (s.onThread i g).posts = s.posts := posts_onThread hg
  have twice {g g' : Thread → Thread} (hg : ∀ th, (g th).role = th.role)
      (hg' : ∀ th, (g' th).role = th.role) : ((s.onThread i g).onThread i g').posts = s.posts :=
    (posts_onThread hg').trans (roles hg)
  cases m with
  | call _ _ => exact same (roles fun _ => rfl)
  | leave _ _ _ => exact same (roles fun _ => rfl)
  | wait _ _ _ => exact same (roles fun _ => rfl)
  | note _ => exact .same _
  | addPool _ => exact .same _
  | addTask _ => exact .same _
  | hire hp hr _ =>
    have h : PostChange s i s.posts _ := .hire hp hr
    simpa [System.posts, hired, System.spawn, System.setPool, Thread.post, Phase.station] using h
  | accept _ _ _ _ _ _ => exact same (posts_wakeOne _)
  | take _ _ _ _ _ _ => exact same (roles fun _ => rfl)
  | letGo _ _ _ _ _ => exact same (roles fun _ => rfl)
  | discard _ _ => exact same (roles fun _ => rfl)
  | destroy _ _ => exact same (twice (fun _ => rfl) fun _ => rfl)
  | release _ _ _ => exact same (roles fun _ => rfl)
  | abandon _ _ _ _ => exact same (roles fun _ => rfl)
  | unref _ _ => exact same (roles fun _ => rfl)
  | clear _ _ _ => exact same (roles fun _ => rfl)
  | resume _ => exact same (twice (fun _ => rfl) fun _ => rfl)
  | close _ _ => exact .same _
  | stop _ _ _ => exact same (posts_wakeAll _)
  | dismiss _ _ _ => exact .same _
  | dropPool _ _ => exact .same _
  | @register q pool k g hw _ hg =>
    have hw' := (hw.stay hg).wakeAll (.workerRegistered q)
    have hsame : ((s.onThread i g).wakeAll (.workerRegistered q)).posts = s.posts :=
      (posts_wakeAll _).trans (roles fun th => (hg th).1)
    rw [hw'.posts_settled, hsame]
    exact .work .idle hw.post (by simp [Phase.station]) (by simp) (by simp)
  | released hw _ =>
    rw [hw.posts_settled]
    exact .work .idle hw.post (by simp [Phase.station]) (by simp) (by simp)
  | exit hw hp hx hg =>
    rw [hw.posts .exited fun th => (hg th).1]
    exact .work .exited hw.post (by simp [Phase.station]) (by simp) fun _ => ⟨_, hp, hx⟩
  | @claim q pool pool' k t hw _ _ _ =>
    have hw' : (s.setPool q pool').Working i q k (.parked true) := hw
    rw [hw'.posts (.holding t) fun _ => rfl]
    exact .work .busy hw.post (by simp [Phase.station]) (by simp) (by simp)
  | park hw _ _ _ => exact same (hw.posts_same Thread.rephases_setPhase rfl)
  | begin hw _ _ hg => exact same (Working.posts_same (s := s.setTask _ _) hw hg rfl)
  | beginEmpty hw _ _ hg => exact same (Working.posts_same (s := s.setTask _ _) hw hg rfl)
  | endWork hw _ _ hg => exact same (hw.posts_same hg rfl)
  | stash hw _ =>
    exact same (Working.posts_same (s := s.setSlot _ _) hw Thread.rephases_setPhase rfl)
  | count hw _ hg => exact same (Working.posts_same (s := s.setPool _ _) hw hg rfl)
  | @retire q pool k t task hw _ _ =>
    have hw' : (s.published i q pool t task).Working i q k (.counted t) := hw.published rfl
    have hposts : (s.retired i q pool t task).posts =
        (s.published i q pool t task).posts.set i (some ⟨q, k, .releasing⟩) :=
      hw'.posts .releasing fun _ => rfl
    rw [hposts, Books.posts_published]
    exact .work .releasing hw.post (by simp [Phase.station]) (by simp) (by simp)

/-- A worker that has exited after a move had exited before, or the move is its own and it was told
to. -/
theorem PostChange.exits {posts posts' : List (Option Post)} {j : ThreadId}
    (change : PostChange s i posts posts') (hj : posts'[j]? = some (some ⟨p, k, .exited⟩)) :
    posts[j]? = some (some ⟨p, k, .exited⟩) ∨
      j = i ∧ ∃ pool, s.pools[p]? = some pool ∧ pool.exitRequested k := by
  cases change with
  | same => exact .inl hj
  | hire _ _ =>
    rcases getElem?_concat.mp hj with hj | ⟨-, hj⟩
    · exact .inl hj
    · simp at hj
  | work st' hi _ _ told =>
    rcases (getElem?_post_set hi).mp hj with ⟨hji, hj⟩ | ⟨-, hj⟩
    · cases hj
      exact .inr ⟨hji, told rfl⟩
    · exact .inl hj

end System

end WorkerPool
