import WorkerPool.Proofs.Rejections
import WorkerPool.Proofs.Rest

/-!
Calls that are repeated after an error.

An error is recoverable if the same call may be answered otherwise later, though nobody calls
anything else in the meantime. What a call comes back with shows in the state: a closed pool stays
closed, and a task stays with whom it is as long as nobody calls anything. A full queue and
outstanding work, in contrast, are gone once the workers are at rest, and so is every task that has
not finished. Workers come to rest if works and destructors return, those in progress included; a
work that joins what is queued behind it is one that never does.
-/
namespace WorkerPool

/-- Which errors are recoverable is a matter of their kinds. -/
theorem PoolError.isRecoverable_eq (e : PoolError) :
    e.isRecoverable = ["TooManyTasks", "HasOutstandingTasks", "Timeout"].contains e.kind := by
  cases e <;> simp [isRecoverable, kind]

theorem PoolError.kind_ne {e e' : PoolError} (he : e.isRecoverable)
    (he' : e'.isRecoverable = false) : e'.kind ≠ e.kind := by
  intro same
  rw [isRecoverable_eq, same, ← isRecoverable_eq, he] at he'
  cases he'

theorem Pool.final_create {c : Config} {e : PoolError} (h : Pool.create c = .error e) :
    e.isRecoverable = false := by
  unfold create at h
  split at h
  · next hv =>
    cases h
    unfold Config.validate at hv
    repeat' split at hv
    all_goals cases hv
    all_goals rfl
  · cases h

/-- A call of the operation waits in the frame. Any other call that comes back with an error does so
at once. -/
inductive Frame.Serves : Operation → Frame → Prop
  | submit {p : PoolId} {t : TaskId} (woken : Bool) :
      Serves (.submit p t) (.awaitingWorker p t woken)
  | join {t : TaskId} {bound : Bound} (woken : Bool) :
      Serves (.join t bound) (.awaitingOutcome t bound woken)
  | waitIdle {p : PoolId} (woken : Bool) : Serves (.waitIdle p) (.awaitingIdle p false woken)
  | releases {p : PoolId} (woken : Bool) : Serves (.shutdown p) (.awaitingReleases p false woken)
  | crew {p : PoolId} (next total : Nat) : Serves (.shutdown p) (.joiningCrew p next total false)

namespace System

variable {s s' s₀ : System} {i j : ThreadId} {p q : PoolId} {n : Nat} {pick : Pick} {t : TaskId}
  {pool new : Pool} {task : Task} {f : Frame} {rest : List Frame} {th : Thread} {es : List Event}
  {a : Action} {e : PoolError} {r : Reply} {g h : Trace} {callers : Nat} {op : Operation}
  {own : List Passage} {last : Passage} {bound : Bound}

/-! ### Handles of pools -/

theorem canUse_congr (hpools : s'.pools = s.pools) : s'.canUse p = s.canUse p := by
  rw [canUse, hpools]
  rfl

theorem pools_join : (s.join i t task bound).1.pools = s.pools := by
  unfold join
  split
  · rfl
  · split
    · rfl
    · split <;> rfl

theorem pools_detach : (s.detach i t task).1.pools = s.pools := by
  unfold detach
  split
  · split <;> rfl
  · rfl
  · rfl

theorem pools_destroy : (s.destroy i t task).1.pools = s.pools := by
  unfold destroy
  split <;> rfl

/-- A pool keeps its handle until somebody drops it. -/
theorem canUse_call {e : Effect} (calls : s.Calls) (hs : s.step i (.call op pick) = some e)
    (other : op ≠ .dropPool p) (use : s.canUse p) : e.1.canUse p := by
  cases (step_call hs).2 with
  | rejected _ | createTask | drop _ _ => exact use
  | createPool _ =>
    obtain ⟨pool, hp, hh⟩ := (Option.any_eq_true _ _).mp use
    have hlt := (List.getElem?_eq_some_iff.mp hp).1
    exact (Option.any_eq_true _ _).mpr ⟨pool, (List.getElem?_append_left hlt).trans hp, hh⟩
  | join _ _ => exact (canUse_congr pools_join).trans use
  | detach _ _ => exact (canUse_congr pools_detach).trans use
  | destroy _ _ => exact (canUse_congr pools_destroy).trans use
  | waitIdle _ _ => exact (Keeps.waitIdle (s := s.inCall i) false).uses use
  | shutdown hp _ => exact (Keeps.shutdown (s := s.inCall i) false hp).uses use
  | @dropPool q pool hp _ =>
    have hq : q ≠ p := fun hq => other (hq ▸ rfl)
    have hpools : ((s.inCall i).dropPool i q pool).1.pools =
        s.pools.set q { pool with handle := false } := pools_dropPool
    exact (canUse_set hp hpools fun h => absurd h hq).trans use
  | @submit q t _ _ _ _ _ _ =>
    obtain ⟨pool, task, hp, -, -, attempt⟩ := Attempts.attempt (.call pick) calls hs
    generalize (s.inCall i).submit i q _ t _ pick = e at attempt ⊢
    cases attempt with
    | declined _ hpools _ | waits _ _ hpools _ _ => exact (canUse_congr hpools).trans use
    | hires _ hpools _ _ => exact (canUse_set hp hpools fun _ => rfl).trans use
    | @accepted s₀ pick _ _ _ hs₀ =>
      let claimed := (s₀.setSlot t task.slot.claim).setPool q (pool.accept t)
      have hpools : ((claimed.wakeOne q pick).onThread i Thread.pop).pools =
          s.pools.set q (pool.accept t) := by
        have waken : (claimed.wakeOne q pick).pools = claimed.pools := pools_wakeOne pick
        rcases hs₀ with rfl | rfl <;> exact waken
      exact (canUse_set hp hpools fun _ => rfl).trans use

/-- Only the call that drops a pool uses it once its handle is gone. -/
theorem Run.usable (run : Run callers h s) (p : PoolId) : s.canUse p ∨ s.LeavesAlone p := by
  induction run with
  | start =>
    refine .inr fun j th hth f hf => ?_
    rw [List.eq_of_mem_replicate (List.mem_of_getElem? hth)] at hf
    cases hf
  | @step h s s' i a es run hs ih =>
    by_cases use : s.canUse p
    · by_cases drops : ∃ pick, a = .call (.dropPool p) pick
      · obtain ⟨pick, rfl⟩ := drops
        exact .inr (step_drops hs).2
      · left
        cases a with
        | call op pick =>
          exact canUse_call run.calls hs (fun hop => drops ⟨pick, hop ▸ rfl⟩) use
        | _ => exact (ebbs_of_step run.calls hs rfl).uses use
    · exact .inr ((ih.resolve_left use).step use hs)

/-! ### Calls -/

/-- The thread makes a call of the operation, or goes on with one. -/
inductive Performs (s : System) (i : ThreadId) (op : Operation) : Action → Prop
  | call (pick : Pick) : Performs s i op (.call op pick)
  | goOn {a : Action} {f : Frame} {rest : List Frame} : s.Inside i (f :: rest) →
      f.Serves op → a.isCall = false → Performs s i op a

/-- The state in which the call of the thread has a frame. -/
def within (s : System) (i : ThreadId) (a : Action) : System := if a.isCall then s.inCall i else s

@[simp] theorem within_call : s.within i (.call op pick) = s.inCall i := if_pos rfl

theorem within_of_goOn (ha : a.isCall = false) : s.within i a = s := by simp [within, ha]

theorem admits_of_call {e : Effect} (hs : s.step i (.call op pick) = some e) : s.Admits op := by
  cases (step_call hs).2 with
  | rejected _ | createPool _ | createTask => trivial
  | submit _ _ use share => exact ⟨use, share⟩
  | join _ admits | detach _ admits | destroy _ admits | drop _ admits | waitIdle _ admits
  | shutdown _ admits | dropPool _ admits => exact admits

section calls

variable (performs : s.Performs i op a) (run : Run callers h s) {x : Effect}
  (hs : s.step i a = some x)
include performs run hs

/-- When a call is over, its handles are there. -/
theorem Performs.admits : ((s.within i a).onThread i Thread.pop).Admits op := by
  cases performs with
  | call pick =>
    rw [within_call, pop_inCall]
    exact admits_of_call hs
  | @goOn _ f rest hi serves ha =>
    have usable {p : PoolId} (hf : f.uses p) (hw : f.waitsFor p true = false) : s.canUse p := by
      refine (run.usable p).resolve_right fun alone => ?_
      rw [alone.inside hi hf] at hw
      cases hw
    rw [within_of_goOn ha]
    cases serves with
    | submit woken =>
      exact ⟨usable (by simp [Frame.uses]) rfl,
        canShare_of (run.calls.share hi) rfl (weight_pop_le _ hi)⟩
    | join woken => exact run.calls.own hi
    | waitIdle _ | releases _ | crew _ _ =>
      exact usable (by simp [Frame.uses]) (by simp [Frame.waitsFor])

/-- When a call of a caller is over, user code goes on. -/
theorem Performs.code (outside : s.employer i = none) :
    ∃ th, ((s.within i a).onThread i Thread.pop).threads[i]? = some th ∧ th.inUserCode := by
  cases performs with
  | call pick =>
    rw [within_call, pop_inCall]
    exact (step_call hs).1
  | @goOn _ f rest hi serves ha =>
    rw [within_of_goOn ha]
    obtain ⟨th, hth, hc⟩ := hi
    have caller : th.role = .caller := by
      cases hr : th.role with
      | caller => rfl
      | worker p k phase => simp [employer, hth, Thread.employer, hr] at outside
    have below := run.layered.code_below hth caller hc (by rintro rfl; cases serves)
    exact ⟨th.pop, by simp [getElem?_onThread, hth], below⟩

end calls

/-! ### What errors show -/

/-- What the state shows after a call has come back with an error. -/
inductive Obstacle (s : System) : Operation → PoolError → Prop
  | invalid {c : Config} {e : PoolError} : Pool.create c = .error e →
      Obstacle s (.createPool c) e
  | closed {p : PoolId} {t : TaskId} : s.isClosed p → Obstacle s (.submit p t) .shutDown
  | full {p : PoolId} {t : TaskId} {n m : Nat} : s.Staffed p →
      Obstacle s (.submit p t) (.tooManyTasks n m)
  | taken {p : PoolId} {t : TaskId} {n : Nat} : s.standing t = some (true, .pool) →
      Obstacle s (.submit p t) (.alreadySubmitted n)
  | owned {t : TaskId} {n : Nat} : s.standing t = some (true, .pool) →
      Obstacle s (.destroy t) (.stillOwnedByPool n)
  | unfinished {t : TaskId} {bound : Bound} {n : Nat} : Obstacle s (.join t bound) (.timeout n)
  | returned {t : TaskId} {bound : Bound} {e : PoolError} : s.standing t = some (true, .caller) →
      e.isRecoverable = false → Obstacle s (.join t bound) e
  | idle {t : TaskId} : s.standing t = some (true, .caller) →
      Obstacle s (.detach t) .notSubmitted
  | outstanding {p : PoolId} {n m : Nat} : Obstacle s (.shutdown p) (.hasOutstandingTasks n m)

theorem resumeSubmit_failed (hr : .replied (.failed e) ∈ (s.resumeSubmit i p pool t task pick).2) :
    s.resumeSubmit i p pool t task pick = s.reply i (.failed e) := by
  unfold System.resumeSubmit at hr ⊢
  split at hr
  · cases hr
  · next hu =>
    rw [if_neg hu]
    split at hr
    · obtain rfl : e = _ := by simpa [reply] using hr
      rfl
    · exact (accept_failed hr).1

/-- A submission that fails only leaves its frame. -/
theorem submit_pops (performs : s.Performs i (.submit p t) a) (hs : s.step i a = some (s', es))
    (hr : .replied (.failed e) ∈ es) : s' = (s.within i a).onThread i Thread.pop := by
  cases performs with
  | call pick =>
    rw [within_call, pop_inCall]
    exact fails_at_once hs hr
  | goOn hi serves ha =>
    rw [within_of_goOn ha]
    cases serves with
    | submit woken =>
      obtain ⟨pool, task, pick, -, -, hsubmit⟩ := hi.resumesSubmit hs
      have told : .replied (.failed e) ∈ (s.resumeSubmit i p pool t task pick).2 := hsubmit ▸ hr
      exact congrArg Prod.fst (hsubmit.symm.trans (resumeSubmit_failed told))

theorem Performs.attempts (performs : s.Performs i (.submit p t) a) : s.Attempts i p t a := by
  cases performs with
  | call pick => exact .call pick
  | goOn hi serves _ =>
    cases serves with
    | submit woken => exact .goOn a hi

/-- The call has left its frame, and what it has come back with shows. A join may have taken an
outcome. -/
structure Ended (s : System) (i : ThreadId) (op : Operation) (a : Action) (e : PoolError)
    (s' : System) : Prop where
  state : s' = (s.within i a).onThread i Thread.pop ∨
    ∃ t slot, s' = ((s.within i a).setSlot t slot).onThread i Thread.pop
  obstacle : s'.Obstacle op e

theorem tasks_within : (s.within i a).tasks = s.tasks := by
  unfold within
  split <;> rfl

section errors

variable (run : Run callers h s) (hs : s.step i a = some (s', es)) (hr : .replied r ∈ es)
  (he : r.error? = some e)
include run hs hr he

theorem submit_ended (performs : s.Performs i (.submit p t) a)
    (staffed : ∀ k message cause, e ≠ .spawnFailed k message cause) :
    s.Ended i (.submit p t) a e s' := by
  obtain ⟨pool, task, hp, ht, share, attempt⟩ := performs.attempts.attempt run.calls hs
  cases attempt with
  | hires _ _ _ _ => simp at hr
  | waits _ _ _ _ _ => cases hr
  | accepted _ _ _ _ _ =>
    obtain rfl : r = .done := by simpa [Pool.receipt] using hr
    cases he
  | declined declines hpools htasks =>
    obtain rfl : r = .failed _ := by simpa using hr
    cases he
    refine ⟨.inl (submit_pops performs hs hr), ?_⟩
    have hp' : s'.pools[p]? = some pool := hpools ▸ hp
    have ht' : s'.tasks[t]? = some task := htasks ▸ ht
    cases declines with
    | refusal refused =>
      rcases Pool.refusal_eq_some refused with ⟨rfl, hc⟩ | ⟨rfl, full⟩
      · exact .closed (isClosed_of_pool hp' hc)
      · have balanced := run.books.pools p pool hp
        have capacity := (Config.valid_bounds balanced.valid).2.1
        have full : pool.queue.capacity ≤ pool.queue.length := by
          simpa [PendingQueue.isFull] using full
        rw [balanced.capacity] at full
        obtain ⟨pool', hpool', crew⟩ := run.staffed_of_queued hp (by omega)
        exact .full ⟨pool', hpools ▸ hpool', crew⟩
    | owned _ ho =>
      have hh := record_handle ht ▸ handle_of_canShare share
      exact .taken ((standing_iff ht').mpr ⟨hh, run.pool_of_owned ht hh ho⟩)
    | unstaffed _ _ _ _ => exact absurd rfl (staffed _ _ _)

omit run hs in
theorem takeOutcome_ended (ht : s.tasks[t]? = some task) (hh : task.handle)
    (hs : s₀.takeOutcome i t task = (s', es)) (hs₀ : s₀ = s.within i a) :
    s.Ended i (.join t bound) a e s' := by
  subst hs₀
  cases hs
  refine ⟨.inr ⟨t, task.slot.release, rfl⟩, .returned ?_ ?_⟩
  · have ht' : (s.within i a).tasks[t]? = some task := by rwa [tasks_within]
    show ((s.within i a).setSlot t task.slot.release).standing t = some (true, .caller)
    rw [setSlot_eq ht', standing_setTask ht', if_pos rfl, hh]
    rfl
  · have answered : r = joinReply t task.slot.outcome := by simpa [emit, reply] using hr
    exact recoverable_joinReply (answered ▸ he)

theorem join_ended (performs : s.Performs i (.join t bound) a) :
    s.Ended i (.join t bound) a e s' := by
  cases performs with
  | call pick =>
    obtain ⟨task, ht, own, hjoin⟩ := join_of_step hs
    have hh := handle_of_canOwn own ht
    unfold join at hjoin
    split at hjoin
    · next ho =>
      cases hjoin
      have caller : task.slot.ownership = .caller := by
        have attached := run.not_detached ht hh
        cases hown : task.slot.ownership <;> simp_all
      obtain rfl : r = .failed .notSubmitted := by simpa [reply] using hr
      cases he
      exact ⟨.inl (by rw [within_call]),
        .returned ((standing_iff (s := s) ht).mpr ⟨hh, caller⟩) rfl⟩
    · split at hjoin
      · exact takeOutcome_ended hr he ht hh hjoin within_call.symm
      · split at hjoin
        · cases hjoin
          obtain rfl : r = .failed (.timeout 0) := by simpa [reply] using hr
          cases he
          exact ⟨.inl (by rw [within_call]), .unfinished⟩
        · cases hjoin
          cases hr
  | goOn hi serves ha =>
    cases serves with
    | join woken =>
      have owned : s.standing t = some (true, .pool) := run.calls.relies.inside hi
      obtain ⟨task, ht, hjoin⟩ := hi.resumesJoin hs
      have hh := ((standing_iff ht).mp owned).1
      have waits := (within_of_goOn (s := s) (i := i) ha).symm
      rcases hjoin with hjoin | ⟨nanos, -, hjoin⟩
      · unfold resumeJoin at hjoin
        split at hjoin
        · exact takeOutcome_ended hr he ht hh hjoin waits
        · cases hjoin
          cases hr
      · unfold expireJoin at hjoin
        split at hjoin
        · exact takeOutcome_ended hr he ht hh hjoin waits
        · cases hjoin
          obtain rfl : r = .failed (.timeout (Bound.millis nanos)) := by simpa [reply] using hr
          cases he
          exact ⟨.inl (by rw [← waits]), .unfinished⟩

theorem detach_ended (performs : s.Performs i (.detach t) a) :
    s.Ended i (.detach t) a e s' := by
  cases performs with
  | goOn _ serves _ => cases serves
  | call pick =>
    obtain ⟨task, ht, own, hdetach⟩ := detach_of_step hs
    have hh := handle_of_canOwn own ht
    unfold detach at hdetach
    cases ho : task.slot.ownership with
    | pool =>
      simp only [ho] at hdetach
      split at hdetach <;> cases hdetach <;> cases hr
    | detached => exact absurd ho (run.not_detached ht hh)
    | caller =>
      rw [ho] at hdetach
      cases hdetach
      obtain rfl : r = .rejected .notSubmitted := by simpa [reply] using hr
      cases he
      exact ⟨.inl (by rw [within_call]), .idle ((standing_iff (s := s) ht).mpr ⟨hh, ho⟩)⟩

omit run in
theorem destroy_ended (performs : s.Performs i (.destroy t) a) :
    s.Ended i (.destroy t) a e s' := by
  cases performs with
  | goOn _ serves _ => cases serves
  | call pick =>
    obtain ⟨task, ht, own, hdestroy⟩ := destroy_of_step hs
    unfold destroy at hdestroy
    split at hdestroy
    · next ho =>
      cases hdestroy
      obtain rfl : r = .rejected (.stillOwnedByPool (LogRecord.number t)) := by
        simpa [reply] using hr
      cases he
      exact ⟨.inl (by rw [within_call]),
        .owned ((standing_iff (s := s) ht).mpr ⟨handle_of_canOwn own ht, ho⟩)⟩
    · cases hdestroy
      cases hr

omit run hs in
theorem resumeShutdown_ended (hs : s₀.resumeShutdown i p pool false = (s', es))
    (hs₀ : s₀ = s.within i a) : s.Ended i (.shutdown p) a e s' := by
  subst hs₀
  unfold resumeShutdown decideShutdown at hs
  split at hs
  · cases hs
    cases hr
  · split at hs
    · unfold stopNext at hs
      split at hs
      · cases hs
        cases hr
      · cases hs
        obtain rfl : r = .done := by simpa [finishTeardown, emit, endShutdown, reply] using hr
        cases he
    · cases hs
      obtain rfl : r = .failed (.hasOutstandingTasks pool.queue.length pool.runningCount) := by
        simpa [endShutdown, reply] using hr
      cases he
      exact ⟨.inl rfl, .outstanding⟩

theorem shutdown_ended (performs : s.Performs i (.shutdown p) a) :
    s.Ended i (.shutdown p) a e s' := by
  cases performs with
  | call pick =>
    obtain ⟨th, pool, -, -, -, hshut⟩ := step_shutdown hs
    unfold shutdown at hshut
    split at hshut
    · cases hshut
      obtain rfl : r = .done := by simpa [endShutdown, reply] using hr
      cases he
    · exact resumeShutdown_ended hr he hshut within_call.symm
  | goOn hi serves ha =>
    cases serves with
    | releases woken =>
      obtain ⟨pool, -, hshut⟩ := hi.resumes hs
      exact resumeShutdown_ended hr he hshut (within_of_goOn ha).symm
    | crew next total =>
      rcases (run.joined_step hs (hi.joins.mpr rfl)).ends with ⟨-, silent⟩ | ended
      · exact absurd hr (silent r)
      · obtain rfl := (ended r).mp hr
        cases he

omit run in
theorem createPool_ended {c : Config} (performs : s.Performs i (.createPool c) a) :
    s.Ended i (.createPool c) a e s' := by
  cases performs with
  | goOn _ serves _ => cases serves
  | call pick =>
    generalize hx : (s', es) = x at hs
    cases (step_call hs).2 with
    | @rejected _ err hc =>
      cases hx
      obtain rfl : r = .failed err := by simpa [reply] using hr
      cases he
      exact ⟨.inl (by rw [within_call]), .invalid hc⟩
    | createPool _ =>
      cases hx
      obtain rfl : r = .pool s.pools.length := by simpa [emit, reply] using hr
      cases he

omit run hs in
theorem waitIdle_error (hs : s₀.waitIdle i p pool false = (s', es)) : False := by
  unfold waitIdle at hs
  split at hs
  · cases hs
    obtain rfl : r = .done := by simpa [reply] using hr
    cases he
  · cases hs
    cases hr

/-- The other calls come back with no error. -/
theorem Run.ended (performs : s.Performs i op a)
    (staffed : ∀ k message cause, e ≠ .spawnFailed k message cause) : s.Ended i op a e s' := by
  cases op with
  | createPool c => exact createPool_ended hs hr he performs
  | submit p t => exact submit_ended run hs hr he performs staffed
  | join t bound => exact join_ended run hs hr he performs
  | detach t => exact detach_ended run hs hr he performs
  | destroy t => exact destroy_ended hs hr he performs
  | shutdown p => exact shutdown_ended run hs hr he performs
  | createTask captured =>
    cases performs with
    | goOn _ serves _ => cases serves
    | call pick =>
      cases step_createTask hs
      obtain rfl : r = .task s.tasks.length := by simpa using hr
      cases he
  | drop t =>
    cases performs with
    | goOn _ serves _ => cases serves
    | call pick =>
      generalize hx : (s', es) = x at hs
      cases (step_call hs).2 with
      | drop _ _ =>
        cases hx
        cases hr
  | waitIdle p =>
    cases performs with
    | call pick =>
      generalize hx : (s', es) = x at hs
      cases (step_call hs).2 with
      | waitIdle _ _ => exact (waitIdle_error hr he hx.symm).elim
    | goOn hi serves _ =>
      cases serves with
      | waitIdle woken =>
        obtain ⟨pool, -, hwait⟩ := hi.resumesWait hs
        exact (waitIdle_error hr he hwait).elim
  | dropPool p =>
    cases performs with
    | goOn _ serves _ => cases serves
    | call pick =>
      obtain ⟨-, th, pool, -, -, -, hdrop⟩ := step_dropPool hs
      simp only [dropPool, waitIdle, if_true] at hdrop
      split at hdrop
      · cases hdrop
        obtain rfl : r = .done := by simpa [reply] using hr
        cases he
      · split at hdrop <;> cases hdrop <;> cases hr

end errors

/-! ### Repeating the call -/

/-- A caller can make the call again, and what it has come back with still shows. -/
structure Repeatable (s : System) (i : ThreadId) (op : Operation) (e : PoolError) : Prop where
  outside : s.employer i = none
  code : ∃ th, s.threads[i]? = some th ∧ th.inUserCode
  admits : s.Admits op
  obstacle : s.Obstacle op e

theorem employer_within (j : ThreadId) : (s.within i a).employer j = s.employer j := by
  unfold within
  split
  · exact employer_onThread (g := (·.push _)) (fun _ => rfl) j
  · rfl

theorem admits_setSlot {slot : Slot} (admits : s.Admits op) : (s.setSlot t slot).Admits op := by
  have share (u : TaskId) : (s.setSlot t slot).canShare u = s.canShare u := by
    simp only [canShare, setSlot, List.getElem?_modify]
    congr 1
    split <;> simp [Option.any_map]
  have own (u : TaskId) : (s.setSlot t slot).canOwn u = s.canOwn u := by
    rw [canOwn, share]
    rfl
  cases op with
  | createPool _ | createTask _ => trivial
  | submit p u => exact ⟨admits.1, (share u).trans admits.2⟩
  | join u _ | detach u | destroy u | drop u => exact (own u).trans admits
  | waitIdle _ | shutdown _ | dropPool _ => exact admits

theorem Run.repeatable (run : Run callers h s) (outside : s.employer i = none)
    (performs : s.Performs i op a) (hs : s.step i a = some (s', es)) (hr : .replied r ∈ es)
    (he : r.error? = some e) (staffed : ∀ k message cause, e ≠ .spawnFailed k message cause) :
    s'.Repeatable i op e := by
  obtain ⟨state, obstacle⟩ := run.ended hs hr he performs staffed
  have outside' : ((s.within i a).onThread i Thread.pop).employer i = none :=
    (employer_onThread (g := Thread.pop) (fun _ => rfl) i).trans
      ((employer_within i).trans outside)
  have admits := performs.admits run hs
  have code := performs.code run hs outside
  rcases state with rfl | ⟨t, slot, rfl⟩
  · exact ⟨outside', code, admits, obstacle⟩
  · exact ⟨outside', code, admits_setSlot (s := (s.within i a).onThread i Thread.pop) admits,
      obstacle⟩

namespace Repeatable

theorem coasts (repeatable : s.Repeatable i op e) (coasts : s.Coasts h s')
    (run : Run callers g s) : s'.Repeatable i op e := by
  obtain ⟨outside, ⟨th, hth, user⟩, admits, obstacle⟩ := repeatable
  refine ⟨(coasts.staff run i).trans outside, coasts.code run outside hth user,
    coasts.admits run admits, ?_⟩
  have unjoined {t : TaskId} (share : s.canShare t) := (canShare_iff.mp share).2
  cases obstacle with
  | invalid hc => exact .invalid hc
  | closed hc => exact .closed (coasts.closed run hc)
  | full staffed =>
    exact .full (coasts.keeps (P := fun s => s.Staffed _) run staffed
      fun run staffed _ _ hs => (moves_of_step run.calls hs).staffed run.books staffed)
  | taken ho => exact .taken (coasts.owned run ho (unjoined admits.2))
  | owned ho => exact .owned (coasts.owned run ho (unjoined (canOwn_iff.mp admits).1))
  | unfinished => exact .unfinished
  | returned ho final => exact .returned (coasts.rests run ho (canOwn_iff.mp admits).2) final
  | idle ho => exact .idle (coasts.rests run ho (canOwn_iff.mp admits).2)
  | outstanding => exact .outstanding

/-- The call can be made again. -/
theorem again (repeatable : s.Repeatable i op e) (pick : Pick) :
    (s.step i (.call op pick)).isSome := by
  obtain ⟨-, ⟨th, hth, user⟩, admits, -⟩ := repeatable
  exact call_of_admits hth user admits

end Repeatable

/-- A submission fails on a pool that takes none, or for a task that a pool owns. -/
theorem submit_fails (hs : s.step i (.call (.submit p t) pick) = some (s', es))
    (declines : s.isClosed p ∨ s.standing t = some (true, .pool)) :
    ∃ e, es = [.replied (.failed e)] := by
  obtain ⟨th, pool, task, -, hp, ht, -, hsubmit⟩ := step_submit hs
  unfold submit at hsubmit
  split at hsubmit
  · cases hsubmit
    exact ⟨_, rfl⟩
  · next opened =>
    split at hsubmit
    · cases hsubmit
      exact ⟨_, rfl⟩
    · next free =>
      rcases declines with hc | standing
      · have hc : pool.closed := by simpa [isClosed, hp] using hc
        rw [refusal_closed hc] at opened
        cases opened
      · have owned := ((standing_iff ht).mp standing).2
        rw [not_not.mp free] at owned
        cases owned

/-- An error that does not pass by itself is followed by another one, and at once. -/
theorem Obstacle.fails (obstacle : s.Obstacle op e) (final : e.isRecoverable = false)
    (hs : s.step i (.call op pick) = some (s', es)) :
    ∃ r e', es = [.replied r] ∧ r.error? = some e' := by
  cases obstacle with
  | full _ | unfinished | outstanding => cases final
  | @invalid c _ hc =>
    generalize hx : (s', es) = x at hs
    cases (step_call hs).2 with
    | rejected hc' =>
      cases hx
      exact ⟨_, _, rfl, rfl⟩
    | createPool hc' => cases hc.symm.trans hc'
  | closed hc =>
    obtain ⟨e', rfl⟩ := submit_fails hs (.inl hc)
    exact ⟨_, e', rfl, rfl⟩
  | taken owned =>
    obtain ⟨e', rfl⟩ := submit_fails hs (.inr owned)
    exact ⟨_, e', rfl, rfl⟩
  | owned owned =>
    obtain ⟨task, ht, -, hdestroy⟩ := destroy_of_step hs
    rw [destroy, if_pos ((standing_iff ht).mp owned).2] at hdestroy
    cases hdestroy
    exact ⟨_, _, rfl, rfl⟩
  | returned rests _ =>
    obtain ⟨task, ht, -, hjoin⟩ := join_of_step hs
    rw [join, if_pos (by simp [((standing_iff ht).mp rests).2])] at hjoin
    cases hjoin
    exact ⟨_, _, rfl, rfl⟩
  | idle rests =>
    obtain ⟨task, ht, -, hdetach⟩ := detach_of_step hs
    simp only [detach, ((standing_iff ht).mp rests).2] at hdetach
    cases hdetach
    exact ⟨_, _, rfl, rfl⟩

/-- Once the workers are at rest, no error comes back that passes by itself. -/
theorem Rested.passes (rested : s.Rested) (run : Run callers g s) (obstacle : s.Obstacle op e)
    (passing : e.isRecoverable) {e' : PoolError} (returns : Returns s i op own h last r)
    (he : r.error? = some e') : e'.isRecoverable = false := by
  cases obstacle with
  | invalid hc =>
    rw [Pool.final_create hc] at passing
    cases passing
  | returned _ final =>
    rw [final] at passing
    cases passing
  | closed _ | taken _ | owned _ | idle _ => cases passing
  | full staffed =>
    obtain ⟨pick, s', es, hs, hr⟩ := returns.at_once fun hs => rested.submit_replies run staffed hs
    exact rested.submit_error run hs hr he
  | unfinished =>
    obtain ⟨pick, s', es, hs, hr⟩ := returns.at_once fun hs =>
      have ⟨r, answers, _⟩ := rested.join_replies run hs
      ⟨r, (answers r).mpr rfl⟩
    obtain ⟨r', answers, final⟩ := rested.join_replies run hs
    exact final e' ((answers r).mp hr ▸ he)
  | outstanding =>
    obtain rfl := rested.shutdown_done run returns
    cases he

/-- What the repetition of a call comes to after it has come back with an error. -/
structure Retried (s : System) (i : ThreadId) (op : Operation) (e : PoolError) : Prop where
  /-- However long the program coasts, the same call can be made again. -/
  again : ∀ {h s'}, s.Coasts h s' → ∀ pick, (s'.step i (.call op pick)).isSome
  /-- Unless the error is recoverable, the call then comes back with an error again, at once. -/
  persists : e.isRecoverable = false → ∀ {h s'}, s.Coasts h s' → ∀ {pick s'' es},
    s'.step i (.call op pick) = some (s'', es) → ∃ r e', es = [.replied r] ∧ r.error? = some e'
  /-- If the error is recoverable, then from wherever the calls that works and destructors were in
  the middle of have come back, these may go on and return so that the call comes back with no
  error of that kind. -/
  passes : e.isRecoverable → ∀ {h s'}, s.Coasts h s' → s'.Unhindered → ∃ h' s'',
    s'.Settles h' s'' ∧ ∀ {own g last r e'}, Returns s'' i op own g last r → r.error? = some e' →
      e'.kind ≠ e.kind

/-- An error is recoverable exactly if nobody has to call anything for it to pass. The call is one
of a thread that is no worker, and comes back with the error in the last step. -/
theorem Run.retries (run : Run callers g s) (outside : s.employer i = none)
    (performs : s.Performs i op a) (hs : s.step i a = some (s', es)) (hr : .replied r ∈ es)
    (he : r.error? = some e) (staffed : ∀ k message cause, e ≠ .spawnFailed k message cause) :
    s'.Retried i op e := by
  have repeatable := run.repeatable outside performs hs hr he staffed
  have run' := run.step hs
  refine ⟨fun coasts => (repeatable.coasts coasts run').again, ?_, ?_⟩
  · intro final h s₁ coasts pick s₂ es hs
    exact (repeatable.coasts coasts run').obstacle.fails final hs
  · intro passing h s₁ coasts unhindered
    have run₁ := coasts.run run'
    obtain ⟨h', s₂, settles, rested⟩ := run₁.comes_to_rest unhindered
    have later := repeatable.coasts (coasts.trans settles.coasts) run'
    exact ⟨h', s₂, settles, fun returns he => PoolError.kind_ne passing
      (rested.passes (settles.coasts.run run₁) later.obstacle passing returns he)⟩

theorem unhindered_of_idle (idle : s.threads.all (·.calls.isEmpty)) : s.Unhindered := by
  intro j th hth f hf _
  have none := List.all_eq_true.mp idle th (List.mem_of_getElem? hth)
  rw [List.isEmpty_iff.mp none] at hf
  cases hf

/-- A queue is full while a work runs. The work and the queued one may return, and the submission
that has been refused is taken then. -/
theorem retries_full : ∃ g s s' es, Run 1 g s ∧ s.employer 0 = none ∧
    s.step 0 (.call (.submit 0 2) 0) = some (s', es) ∧
    es = [.replied (.failed (.tooManyTasks 1 1))] ∧ s'.Unhindered ∧
    s'.Retried 0 (.submit 0 2) (.tooManyTasks 1 1) := by
  have run : Run 1 _ _ := run_of_replay
    [(0, .call (.createPool { Config.new 1 with maxPending := 1 }) 0),
      (0, .call (.createTask none) 0), (0, .call (.createTask none) 0),
      (0, .call (.createTask none) 0), (0, .call (.submit 0 0) 0), (1, .advance 0),
      (0, .advance 0), (1, .advance 0), (1, .advance 0), (0, .call (.submit 0 1) 0)] rfl
  exact ⟨_, _, _, _, run, rfl, rfl, rfl, unhindered_of_idle rfl,
    run.retries rfl (.call 0) rfl (.head _) rfl (by simp)⟩

end System

end WorkerPool
