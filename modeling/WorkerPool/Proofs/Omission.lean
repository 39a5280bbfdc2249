import Mathlib.Data.Finset.Insert
import WorkerPool.Proofs.Others

/-!
States without some of the joins that wait.

A join that waits keeps its thread busy and changes nothing else. So the other threads take the same
steps in a state from which it is left out, and let the same known.
-/
namespace WorkerPool.System

variable {s s' : System} {D : Finset ThreadId} {i j : ThreadId} {p : PoolId} {t : TaskId}
  {pool : Pool} {task : Task} {th : Thread} {f : Frame} {g : Thread → Thread} {e : Effect}
  {k : Nat}

/-- The state in which the given threads are not inside their innermost call. -/
def without (s : System) (D : Finset ThreadId) : System :=
  { s with threads := s.threads.mapIdx fun i th => if i ∈ D then th.pop else th }

/-- The given threads are inside joins that wait. -/
def AllJoin (s : System) (D : Finset ThreadId) : Prop :=
  ∀ i ∈ D, ∃ t bound woken rest, s.Inside i (.awaitingOutcome t bound woken :: rest)

/-! ### The parts of a state -/

theorem without_empty (s : System) : s.without ∅ = s := by
  have h : s.threads.mapIdx (fun i th => if i ∈ (∅ : Finset ThreadId) then th.pop else th) =
      s.threads := List.ext_getElem? fun i => by simp
  rw [without, h]

theorem getElem?_without : (s.without D).threads[j]? =
    if j ∈ D then s.threads[j]?.map Thread.pop else s.threads[j]? := by
  by_cases hj : j ∈ D <;> simp [without, hj]

theorem thread_without (hj : j ∉ D) : (s.without D).threads[j]? = s.threads[j]? := by
  simp [getElem?_without, hj]

@[simp] theorem tasks_without : (s.without D).tasks = s.tasks := rfl

@[simp] theorem pools_without : (s.without D).pools = s.pools := rfl

@[simp] theorem length_without : (s.without D).threads.length = s.threads.length := by
  simp [without]

theorem ext_threads (ht : s.tasks = s'.tasks) (hp : s.pools = s'.pools)
    (hth : ∀ j : ThreadId, s.threads[j]? = s'.threads[j]?) : s = s' := by
  cases s
  cases s'
  simp_all [List.ext_getElem?_iff]

/-- A change of a thread that commutes with leaving its innermost call. -/
theorem without_change (hg : i ∈ D → ∀ th, (g th).pop = g th.pop) :
    (s.onThread i g).without D = (s.without D).onThread i g := by
  refine ext_threads rfl rfl fun j => ?_
  rw [getElem?_onThread, getElem?_without, getElem?_without, getElem?_onThread]
  by_cases hij : i = j
  · subst hij
    by_cases hi : i ∈ D
    · simp [hi, Function.comp_def, hg hi]
    · simp [hi]
  · simp [hij]

theorem without_onThread (hi : i ∉ D) :
    (s.onThread i g).without D = (s.without D).onThread i g :=
  without_change fun h => absurd h hi

theorem without_enter (hi : i ∉ D) : (s.enter i f).without D = (s.without D).enter i f :=
  without_onThread hi

theorem pop_wake (c : Condition) (th : Thread) : (th.wake c).pop = th.pop.wake c := by
  simp [Thread.wake, Thread.pop]

theorem without_wakeAll (c : Condition) :
    (s.wakeAll c).without D = (s.without D).wakeAll c := by
  refine ext_threads rfl rfl fun j => ?_
  rw [getElem?_wakeAll, getElem?_without, getElem?_without, getElem?_wakeAll]
  by_cases hj : j ∈ D
  · simp [hj, Function.comp_def, pop_wake]
  · simp [hj]

theorem sleepers_without : (s.without D).sleepers p = s.sleepers p := by
  unfold sleepers
  rw [length_without]
  refine List.filter_congr fun j _ => ?_
  rw [getElem?_without]
  by_cases hj : j ∈ D
  · cases s.threads[j]? <;> simp [hj, Thread.sleepsIn]
  · simp [hj]

theorem without_wakeOne (pick : Pick) :
    (s.wakeOne p pick).without D = (s.without D).wakeOne p pick := by
  unfold wakeOne
  rw [sleepers_without]
  dsimp only
  split
  · rfl
  · exact without_change fun _ th => pop_wake _ th

theorem without_spawn (hD : ∀ i ∈ D, i < s.threads.length) :
    (s.spawn th).without D = (s.without D).spawn th := by
  refine ext_threads rfl rfl fun j => ?_
  simp only [getElem?_without, System.spawn, getElem?_snoc, length_without]
  by_cases hj : j ∈ D
  · simp [hj, (hD j hj).ne]
  · simp [hj]

theorem AllJoin.lt (joins : s.AllJoin D) (hi : i ∈ D) : i < s.threads.length := by
  obtain ⟨_, _, _, _, th, hth, -⟩ := joins i hi
  exact (List.getElem?_eq_some_iff.mp hth).1

/-- A join that waits has no reference to let go of. -/
theorem AllJoin.references (joins : s.AllJoin D) :
    (s.without D).references t = s.references t := by
  have held : (s.without D).threads.map (Thread.holds t) = s.threads.map (Thread.holds t) := by
    refine List.ext_getElem? fun j => ?_
    rw [List.getElem?_map, List.getElem?_map, getElem?_without]
    by_cases hj : j ∈ D
    · obtain ⟨u, bound, woken, rest, th, hth, hc⟩ := joins j hj
      have hpop : th.pop.holds t = th.holds t := by
        have hnone : (Frame.awaitingOutcome u bound woken).holds t = 0 := rfl
        rw [Thread.holds, Thread.holds, Thread.calls_pop, hc, List.tail_cons, List.foldr_cons,
          hnone, Nat.zero_add]
        rfl
      simp [hj, hth, hpop]
    · simp [hj]
  unfold System.references
  rw [foldr_weigh (Thread.holds t), foldr_weigh (Thread.holds t), held]
  rfl

theorem all_without {P : Frame → Bool} (h : s.threads.all fun th => th.calls.all P) :
    (s.without D).threads.all fun th => th.calls.all P := by
  rw [List.all_eq_true] at h ⊢
  intro th hth
  obtain ⟨j, hj⟩ := List.getElem?_of_mem hth
  rw [getElem?_without] at hj
  split at hj
  · obtain ⟨old, hold, rfl⟩ := Option.map_eq_some_iff.mp hj
    have hP := h old (List.mem_of_getElem? hold)
    rw [List.all_eq_true] at hP ⊢
    exact fun f hf => hP f (List.mem_of_mem_tail hf)
  · exact h th (List.mem_of_getElem? hj)

theorem canShare_without (h : s.canShare t) : (s.without D).canShare t := by
  simp only [canShare, Bool.and_eq_true] at h ⊢
  exact ⟨h.1, all_without h.2⟩

theorem canOwn_without (h : s.canOwn t) : (s.without D).canOwn t := by
  simp only [canOwn, Bool.and_eq_true] at h ⊢
  exact ⟨canShare_without h.1, all_without h.2⟩

theorem canDrop_without (h : s.canDrop p) : (s.without D).canDrop p := by
  simp only [canDrop, Bool.and_eq_true] at h ⊢
  exact ⟨h.1, all_without h.2⟩

/-! ### Effects

Every function that a step is made of does without the joins what it does with them. -/

/-- The effect, with the given threads not inside their innermost call. -/
def hide (D : Finset ThreadId) (e : Effect) : Effect := (e.1.without D, e.2)

theorem hide_mk (es : List Event) : hide D (s, es) = (s.without D, es) := rfl

theorem hide_emit (es : List Event) : hide D (emit es e) = emit es (hide D e) := rfl

theorem reply_without (hi : i ∉ D) (r : Reply) :
    (s.without D).reply i r = hide D (s.reply i r) := by
  rw [reply, reply, hide_mk, without_onThread hi]

theorem accept_without (hi : i ∉ D) (pick : Pick) :
    (s.without D).accept i p pool t task pick = hide D (s.accept i p pool t task pick) := by
  unfold accept
  split
  · exact reply_without hi _
  · rw [hide_emit, ← reply_without hi, without_wakeOne]
    rfl

theorem submit_without (joins : s.AllJoin D) (hi : i ∉ D) (pick : Pick) :
    (s.without D).submit i p pool t task pick = hide D (s.submit i p pool t task pick) := by
  unfold submit
  split
  · exact reply_without hi _
  · split
    · exact reply_without hi _
    · split
      · dsimp only
        split
        · rw [hide_mk, without_enter hi, length_without]
          have spawned (new : Thread) : (s.spawn new).without D = (s.without D).spawn new :=
            without_spawn fun i hmem => joins.lt hmem
          simp only [System.setPool, ← spawned]
          rfl
        · exact reply_without hi _
      · split
        · rw [hide_mk, without_enter hi]
        · exact accept_without hi pick

theorem resumeSubmit_without (hi : i ∉ D) (pick : Pick) :
    (s.without D).resumeSubmit i p pool t task pick =
      hide D (s.resumeSubmit i p pool t task pick) := by
  unfold resumeSubmit
  split
  · rw [hide_mk, without_enter hi]
  · split
    · exact reply_without hi _
    · exact accept_without hi pick

theorem takeOutcome_without (hi : i ∉ D) :
    (s.without D).takeOutcome i t task = hide D (s.takeOutcome i t task) := by
  rw [takeOutcome, takeOutcome, hide_emit, ← reply_without hi]
  rfl

theorem join_without (hi : i ∉ D) (bound : Bound) :
    (s.without D).join i t task bound = hide D (s.join i t task bound) := by
  unfold join
  split
  · exact reply_without hi _
  · split
    · exact takeOutcome_without hi
    · split
      · exact reply_without hi _
      · rw [hide_mk, without_enter hi]

theorem resumeJoin_without (hi : i ∉ D) (bound : Bound) :
    (s.without D).resumeJoin i t task bound = hide D (s.resumeJoin i t task bound) := by
  unfold resumeJoin
  split
  · exact takeOutcome_without hi
  · rw [hide_mk, without_enter hi]

theorem expireJoin_without (hi : i ∉ D) (nanos : Nat) :
    (s.without D).expireJoin i t task nanos = hide D (s.expireJoin i t task nanos) := by
  unfold expireJoin
  split
  · exact takeOutcome_without hi
  · exact reply_without hi _

theorem letGo_without (hi : i ∉ D) (todo : List Disposal) :
    (s.without D).letGo i t task todo = hide D (s.letGo i t task todo) := by
  rw [letGo, letGo, hide_mk, without_enter hi]
  rfl

theorem detach_without (hi : i ∉ D) :
    (s.without D).detach i t task = hide D (s.detach i t task) := by
  unfold detach
  split
  · split <;> exact letGo_without hi _
  · exact reply_without hi _
  · exact reply_without hi _

theorem destroy_without (hi : i ∉ D) :
    (s.without D).destroy i t task = hide D (s.destroy i t task) := by
  unfold destroy
  split
  · exact reply_without hi _
  · exact letGo_without hi _

theorem runDestructor_without (hi : i ∉ D) (r : Remains) :
    (s.without D).runDestructor i r = hide D (s.runDestructor i r) := by
  rw [runDestructor, runDestructor, hide_mk, without_onThread hi]

theorem AllJoin.onThread (joins : s.AllJoin D) (hi : i ∉ D) : (s.onThread i g).AllJoin D := by
  intro j hj
  obtain ⟨t, bound, woken, rest, th, hth, hc⟩ := joins j hj
  have hij : i ≠ j := fun h => hi (h ▸ hj)
  exact ⟨t, bound, woken, rest, th, by rw [getElem?_onThread, if_neg hij, hth], hc⟩

theorem dispose_without (joins : s.AllJoin D) (hi : i ∉ D) (todo : List Disposal)
    (failure : Option Payload) (releasing : Bool) :
    (s.without D).dispose i th todo failure releasing =
      hide D (s.dispose i th todo failure releasing) := by
  have enter (f : Frame) : (s.without D).enter i f = (s.enter i f).without D :=
    (without_enter hi).symm
  cases todo with
  | nil =>
    simp only [dispose]
    split
    · split <;> rw [hide_mk, without_onThread hi]
    · split <;> exact reply_without hi _
  | cons d todo =>
    cases d with
    | outcome t o =>
      simp only [dispose, enter]
      split
      · exact runDestructor_without hi _
      · rfl
    | work t =>
      simp only [dispose, enter]
      exact runDestructor_without hi _
    | record r =>
      simp only [dispose, enter]
      rfl
    | handle t =>
      simp only [dispose, enter, tasks_without]
      split
      · rfl
      · split <;> rfl
    | reference t =>
      simp only [dispose, enter, tasks_without]
      split
      · rfl
      · have refs : ((s.enter i (.disposing todo failure releasing)).without D).references t =
            (s.enter i (.disposing todo failure releasing)).references t :=
          (joins.onThread hi).references
        rw [refs]
        split <;> rfl

section shutdown

variable (dropping : Bool)

theorem endShutdown_without (hi : i ∉ D) (failure : Option PoolError) :
    (s.without D).endShutdown i p pool failure dropping =
      hide D (s.endShutdown i p pool failure dropping) := by
  unfold endShutdown
  split
  · exact reply_without hi _
  · exact reply_without hi _
  · rw [hide_emit, ← reply_without hi]

theorem finishTeardown_without (hi : i ∉ D) (total : Nat) :
    (s.without D).finishTeardown i p pool total dropping =
      hide D (s.finishTeardown i p pool total dropping) := by
  unfold finishTeardown
  dsimp only
  rw [hide_emit, ← endShutdown_without dropping hi]
  rfl

theorem stopNext_without (hi : i ∉ D) (next total : Nat) :
    (s.without D).stopNext i p pool next total dropping =
      hide D (s.stopNext i p pool next total dropping) := by
  unfold stopNext
  split
  · rw [hide_mk, without_enter hi, without_wakeAll]
    rfl
  · exact finishTeardown_without dropping hi total

theorem decideShutdown_without (hi : i ∉ D) :
    (s.without D).decideShutdown i p pool dropping =
      hide D (s.decideShutdown i p pool dropping) := by
  unfold decideShutdown
  split
  · exact stopNext_without dropping hi _ _
  · exact endShutdown_without dropping hi _

theorem resumeShutdown_without (hi : i ∉ D) :
    (s.without D).resumeShutdown i p pool dropping =
      hide D (s.resumeShutdown i p pool dropping) := by
  unfold resumeShutdown
  split
  · rw [hide_mk, without_enter hi]
  · exact decideShutdown_without dropping hi

theorem shutdown_without (hi : i ∉ D) :
    (s.without D).shutdown i p pool dropping = hide D (s.shutdown i p pool dropping) := by
  unfold shutdown
  split
  · exact endShutdown_without dropping hi _
  · exact resumeShutdown_without dropping hi

theorem waitIdle_without (hi : i ∉ D) :
    (s.without D).waitIdle i p pool dropping = hide D (s.waitIdle i p pool dropping) := by
  unfold waitIdle
  split
  · split
    · rw [hide_mk, without_enter hi]
    · exact reply_without hi _
  · rw [hide_mk, without_enter hi]

theorem dropPool_without (hi : i ∉ D) :
    (s.without D).dropPool i p pool = hide D (s.dropPool i p pool) := by
  have set (new : Pool) : (s.without D).setPool p new = (s.setPool p new).without D := rfl
  unfold dropPool
  dsimp only
  rw [set]
  split
  · exact reply_without hi _
  · exact waitIdle_without true hi

theorem hasExited_without : (s.without D).threads[j]?.any Thread.hasExited =
    s.threads[j]?.any Thread.hasExited := by
  rw [getElem?_without]
  split
  · cases s.threads[j]? <;> rfl
  · rfl

theorem joinCrew?_without (hi : i ∉ D) (next total : Nat) :
    (s.without D).joinCrew? i p pool next total dropping =
      (s.joinCrew? i p pool next total dropping).map (hide D) := by
  unfold joinCrew?
  rw [stopNext_without dropping hi]
  split
  · rfl
  · rw [hasExited_without]
    split
    · rfl
    · split <;> rfl

end shutdown

section worker

theorem proceed_without (hi : i ∉ D) :
    (s.without D).proceed i p pool k = hide D (s.proceed i p pool k) := by
  unfold proceed
  split
  · rw [hide_mk, without_onThread hi]
  · split
    · rw [hide_mk, without_onThread hi]
    · rw [hide_mk, without_onThread hi]
      rfl

theorem settled_without (hi : i ∉ D) :
    (s.settled i p pool).without D = (s.without D).settled i p pool := by
  have parked : ((s.setPool p pool).onThread i (·.setPhase (.parked true))).without D =
      ((s.without D).setPool p pool).onThread i (·.setPhase (.parked true)) :=
    without_onThread hi
  unfold settled
  dsimp only
  rw [← parked]
  split
  · exact without_wakeAll _
  · rfl

theorem settle_without (hi : i ∉ D) :
    (s.without D).settle i p pool k = hide D (s.settle i p pool k) := by
  rw [settle, settle, ← settled_without hi, proceed_without hi]

theorem register_without (hi : i ∉ D) :
    (s.without D).register i p pool k = hide D (s.register i p pool k) := by
  unfold register
  dsimp only
  rw [hide_emit, ← settle_without hi, without_wakeAll, without_onThread hi]

theorem begin_without (hi : i ∉ D) :
    (s.without D).begin i t task = hide D (s.begin i t task) := by
  unfold begin
  dsimp only
  split <;> rw [hide_mk, without_onThread hi] <;> rfl

theorem endWork_without (hi : i ∉ D) (ending : Except Payload Value) :
    (s.without D).endWork i t task ending = hide D (s.endWork i t task ending) := by
  rw [endWork, endWork, hide_mk, without_onThread hi]

theorem stash_without (hi : i ∉ D) (work : Bool) (o : Outcome) :
    (s.without D).stash i t task work o = hide D (s.stash i t task work o) := by
  rw [stash, stash, hide_mk, without_onThread hi]
  rfl

theorem count_without (hi : i ∉ D) (returned : Bool) :
    (s.without D).count i p pool k t returned = hide D (s.count i p pool k t returned) := by
  rw [count, count, hide_mk, without_onThread hi]
  rfl

theorem retire_without (hi : i ∉ D) :
    (s.without D).retire i p pool k t task = hide D (s.retire i p pool k t task) := by
  unfold retire
  dsimp only
  rw [hide_mk, without_onThread hi]
  split
  · rfl
  · rw [without_wakeAll]
    rfl

theorem work?_without (hi : i ∉ D) (phase : Phase) :
    (s.without D).work? i p k phase = (s.work? i p k phase).map (hide D) := by
  unfold work?
  rw [pools_without, tasks_without]
  cases hp : s.pools[p]? with
  | none => rfl
  | some pool =>
    cases phase with
    | starting => simp [register_without hi]
    | parked woken => cases woken <;> simp [proceed_without hi]
    | holding t => cases s.tasks[t]? <;> simp [begin_without hi]
    | running t => rfl
    | stashing t work o => cases s.tasks[t]? <;> simp [stash_without hi]
    | stashed t returned => simp [count_without hi]
    | counted t => cases s.tasks[t]? <;> simp [retire_without hi]
    | releasing => simp [settle_without hi]
    | exited => rfl

end worker

/-! ### Steps -/

/-- An operation that may begin still may, and does the same. -/
theorem some_hide {α : Type} {x : Option α} {may may' : Bool} {F F' : α → Effect}
    (hmay : may → may') (hF : ∀ a, F' a = hide D (F a))
    (hs : (do let a ← x; if may then some (F a) else none : Option Effect) = some e) :
    (do let a ← x; if may' then some (F' a) else none : Option Effect) = some (hide D e) := by
  cases x with
  | none => simp at hs
  | some a =>
    cases may with
    | false => simp at hs
    | true =>
      obtain rfl : F a = e := by simpa using hs
      simp [hmay, hF]

theorem map_hide {α : Type} {x : Option α} {F F' : α → Effect} (hF : ∀ a, F' a = hide D (F a)) :
    (do return F' (← x) : Option Effect) = (do return F (← x) : Option Effect).map (hide D) := by
  cases x <;> simp [hF]

theorem canUse_without : (s.without D).canUse p = s.canUse p := rfl

theorem call?_without (joins : s.AllJoin D) (hi : i ∉ D) {op : Operation} {pick : Pick}
    (hs : s.call? i op pick = some e) : (s.without D).call? i op pick = some (hide D e) := by
  have inCall : (s.without D).onThread i (·.push (.disposing [] none false)) =
      (s.onThread i (·.push (.disposing [] none false))).without D := (without_onThread hi).symm
  have joins' : (s.onThread i (·.push (.disposing [] none false))).AllJoin D := joins.onThread hi
  unfold call? at hs ⊢
  rw [inCall]
  cases op with
  | createPool c =>
    dsimp only at hs ⊢
    cases hc : Pool.create c with
    | error err =>
      rw [hc] at hs
      cases hs
      exact congrArg some (reply_without hi _)
    | ok pool =>
      rw [hc] at hs
      cases hs
      rw [hide_emit, ← reply_without hi]
      rfl
  | createTask captured =>
    cases hs
    rw [← reply_without hi]
    rfl
  | submit p t =>
    dsimp only at hs ⊢
    rw [pools_without, tasks_without, canUse_without]
    cases hp : s.pools[p]? with
    | none => simp [hp] at hs
    | some pool =>
      simp only [hp, Option.bind_eq_bind, Option.bind_some] at hs ⊢
      refine some_hide (fun h => ?_) (fun task => submit_without joins' hi pick) hs
      rw [Bool.and_eq_true] at h ⊢
      exact ⟨h.1, canShare_without h.2⟩
  | join t bound => exact some_hide canOwn_without (fun task => join_without hi bound) hs
  | detach t => exact some_hide canOwn_without (fun task => detach_without hi) hs
  | destroy t => exact some_hide canOwn_without (fun task => destroy_without hi) hs
  | drop t => exact some_hide canOwn_without (fun task => letGo_without hi _) hs
  | waitIdle p => exact some_hide id (fun pool => waitIdle_without false hi) hs
  | shutdown p => exact some_hide id (fun pool => shutdown_without false hi) hs
  | dropPool p => exact some_hide canDrop_without (fun pool => dropPool_without hi) hs

theorem finish?_without (hi : i ∉ D) (ending : Except Payload Value) :
    (s.without D).finish? i th ending = (s.finish? i th ending).map (hide D) := by
  unfold finish?
  split
  · simp only [Option.map_some, hide_mk, without_enter hi, without_onThread hi]
  · exact map_hide fun task => endWork_without hi ending
  · rfl

theorem advance?_without (joins : s.AllJoin D) (hi : i ∉ D) (pick : Pick) :
    (s.without D).advance? i th pick = (s.advance? i th pick).map (hide D) := by
  unfold advance?
  cases th.calls with
  | nil =>
    cases th.role with
    | caller => rfl
    | worker p k phase => exact work?_without hi phase
  | cons f rest =>
    cases f with
    | awaitingWorker p t woken =>
      cases woken with
      | false => rfl
      | true =>
        dsimp only
        rw [pools_without, tasks_without]
        cases s.pools[p]? with
        | none => rfl
        | some pool => exact map_hide fun task => resumeSubmit_without hi pick
    | awaitingOutcome t bound woken =>
      cases woken with
      | false => rfl
      | true => exact map_hide fun task => resumeJoin_without hi bound
    | awaitingIdle p dropping woken =>
      cases woken with
      | false => rfl
      | true => exact map_hide fun pool => waitIdle_without dropping hi
    | closing p dropping => exact map_hide fun pool => shutdown_without dropping hi
    | awaitingReleases p dropping woken =>
      cases woken with
      | false => rfl
      | true => exact map_hide fun pool => resumeShutdown_without dropping hi
    | joiningCrew p next total dropping =>
      dsimp only
      rw [pools_without]
      cases s.pools[p]? with
      | none => rfl
      | some pool => exact joinCrew?_without dropping hi next total
    | disposing todo failure releasing =>
      exact congrArg some (dispose_without joins hi todo failure releasing)
    | destructor => rfl

theorem expire?_without (hi : i ∉ D) :
    (s.without D).expire? i th = (s.expire? i th).map (hide D) := by
  unfold expire?
  split
  · exact map_hide fun task => expireJoin_without hi _
  · rfl

/-- What a thread does while others join, it does without the joins as well. -/
theorem step_without {a : Action} {es : List Event} (joins : s.AllJoin D) (hi : i ∉ D)
    (hs : s.step i a = some (s', es)) :
    (s.without D).step i a = some (s'.without D, es) := by
  unfold step at hs ⊢
  rw [thread_without hi]
  cases hth : s.threads[i]? with
  | none => simp [hth] at hs
  | some th =>
    simp only [hth, Option.bind_eq_bind, Option.bind_some] at hs ⊢
    cases a with
    | call op pick =>
      simp only [Option.ite_none_right_eq_some] at hs ⊢
      exact ⟨hs.1, call?_without joins hi hs.2⟩
    | finish ending =>
      dsimp only at hs ⊢
      rw [finish?_without hi, hs]
      rfl
    | advance pick =>
      dsimp only at hs ⊢
      rw [advance?_without joins hi, hs]
      rfl
    | expire =>
      dsimp only at hs ⊢
      rw [expire?_without hi, hs]
      rfl

end WorkerPool.System
