import WorkerPool.Proofs.ShutdownSteps
import WorkerPool.Proofs.Submissions
import WorkerPool.Workload

/-!
What the calls of a workload do to their threads.

A thread of a workload does one chore after the other. The call for a chore is over in one step, or
its thread stays inside it, in a frame that shows which chore it is, until a later step ends it with
an answer. Workers let go of tasks and run them, and answer nothing.
-/
namespace WorkerPool

namespace Event

/-- Whether a caller is answered, a pool takes a task or a join its outcome, or an invocation begins
or ends. -/
def isNews : Event → Bool
  | replied _ | joined _ _ | started _ _ | ended _ _ | log (.submitted ..) => true
  | _ => false

end Event

namespace Workload

namespace Chore

/-- Chores of threads that use tasks of their own, and do not shut the pool down. -/
def isPlain : Chore → Bool
  | submit _ | join _ | detach _ | drop _ | waitIdle => true
  | trySubmit _ | shutdown => false

/-- The thread gives its handle of the task away. -/
def givesAway (t : TaskId) : Chore → Bool
  | detach u | drop u => u == t
  | _ => false

/-- What a thread is inside of while its call for the chore goes on. -/
inductive Engaged : Chore → List Frame → Prop
  | submit (t : TaskId) (woken : Bool) : Engaged (submit t) [.awaitingWorker thePool t woken]
  | join (t : TaskId) (woken : Bool) : Engaged (join t) [.awaitingOutcome t none woken]
  | letGo {c : Chore} {t : TaskId} (todo : List Disposal) (failure : Option Payload) :
      c.givesAway t → Engaged c [.disposing todo failure false]
  | destroy {c : Chore} {t : TaskId} (todo : List Disposal) (failure : Option Payload) :
      c.givesAway t → Engaged c [.destructor, .disposing todo failure false]
  | waitIdle (woken : Bool) : Engaged waitIdle [.awaitingIdle thePool false woken]

/-- What the call for the chore tells when it ends, unless it is a wait for the pool. -/
inductive Answer (s : System) : Chore → List Event → Prop
  | declined {t : TaskId} {pool : Pool} {task : Task} {err : PoolError} :
      s.pools[thePool]? = some pool → s.tasks[t]? = some task → s.canShare t →
      Declines pool t task err → (∀ k message cause, err ≠ .spawnFailed k message cause) →
      Answer s (submit t) [.replied (.failed err)]
  | accepted {t : TaskId} (pool : Pool) : Answer s (submit t) (pool.receipt thePool t)
  | joined {t : TaskId} {task : Task} : s.tasks[t]? = some task → task.handle →
      task.slot.ownership = .pool → task.slot.state = .finished →
      Answer s (join t)
        [.joined t task.slot.outcome, .replied (System.joinReply t task.slot.outcome)]
  | unowned {t : TaskId} {task : Task} : s.tasks[t]? = some task → task.handle →
      task.slot.ownership ≠ .pool → Answer s (join t) [.replied (.failed .notSubmitted)]
  | gaveAway {c : Chore} {t : TaskId} (r : Reply) : c.givesAway t → Answer s c [.replied r]

end Chore

end Workload

namespace System

open Workload

variable {s s' : System} {i : ThreadId} {p : PoolId} {t : TaskId} {pool : Pool} {task : Task}
  {f : Frame} {e : Effect} {es : List Event} {k : Nat} {pick : Pick} {th : Thread} {c : Chore}
  {calls : List Frame} {todo : List Disposal} {failure : Option Payload} {a : Action}

/-- A step of the call for a chore: the thread stays inside of it and there is no news, or the call
ends with its answer, or the wait for a quiescent pool is over. -/
inductive ChoreStep (s : System) (i : ThreadId) (c : Chore) : Effect → Prop
  | goesOn {s' : System} {calls : List Frame} {es : List Event} : s'.Inside i calls →
      c.Engaged calls → (∀ ev ∈ es, ev.isNews = false) → ChoreStep s i c (s', es)
  | ends {s' : System} {es : List Event} : s'.Inside i [] → c.Answer s es →
      ChoreStep s i c (s', es)
  | returns {s' : System} {pool : Pool} : c = .waitIdle → s'.Inside i [] →
      s.pools[thePool]? = some pool → pool.isQuiescentFor i → s'.pools = s.pools →
      ChoreStep s i c (s', [.replied .done])

theorem Inside.wakeOne_same (hi : s.Inside i calls) (pick : Pick) :
    (s.wakeOne p pick).Inside i calls := by
  have same : Frame.wake (.workAvailable p) = id := by
    funext f
    cases f <;> simp [Frame.wake]
  obtain ⟨j, hj⟩ := wakeOne_eq s p pick
  obtain ⟨th, hth, hc⟩ := hi
  rw [hj]
  by_cases h : j = i
  · exact ⟨th.wake (.workAvailable p), by simp [getElem?_onThread, h, hth], by simp [hc, same]⟩
  · exact ⟨th, by simp [getElem?_onThread, h, hth], hc⟩

/-- Whoever lets go of one more thing goes on with the rest, maybe after a destructor. -/
theorem dispose_cons {d : Disposal} {releasing : Bool} {rest : List Frame} (th : Thread)
    (valid : s.Calls) (hi : s.Inside i (.disposing (d :: todo) failure releasing :: rest)) :
    ∃ todo' s' es, s.dispose i th (d :: todo) failure releasing = (s', es) ∧
      (s'.Inside i (.disposing todo' failure releasing :: rest) ∨
        s'.Inside i (.destructor :: .disposing todo' failure releasing :: rest)) ∧
      ∀ ev ∈ es, ev.isNews = false := by
  have go (todo : List Disposal) : (s.enter i (.disposing todo failure releasing)).Inside i
      (.disposing todo failure releasing :: rest) := hi.enter
  cases d with
  | outcome u o =>
    simp only [System.dispose]
    split
    · exact ⟨todo, _, _, rfl, .inr (go todo).push, by simp [Event.isNews]⟩
    · exact ⟨todo, _, _, rfl, .inl (go todo), List.forall_mem_nil _⟩
  | work u => exact ⟨todo, _, _, rfl, .inr (go todo).push, by simp [Event.isNews]⟩
  | record r =>
    obtain ⟨u, rfl⟩ := (valid.given hi).1
    refine ⟨todo, _, _, rfl, .inl (go todo), ?_⟩
    split <;> simp [Event.isNews]
  | handle u =>
    simp only [System.dispose]
    split
    · exact ⟨todo, _, _, rfl, .inl (go todo), List.forall_mem_nil _⟩
    · split
      · exact ⟨.reference u :: todo, _, _, rfl, .inl (go _), by simp [Event.isNews]⟩
      · exact ⟨.reference u :: todo, _, _, rfl, .inl (go _), List.forall_mem_nil _⟩
  | reference u =>
    simp only [System.dispose]
    split
    · exact ⟨todo, _, _, rfl, .inl (go todo), List.forall_mem_nil _⟩
    · split
      · exact ⟨_, _, _, rfl, .inl (go _), List.forall_mem_nil _⟩
      · exact ⟨todo, _, _, rfl, .inl (go todo), List.forall_mem_nil _⟩

namespace ChoreStep

theorem enter {f' : Frame} (hi : s'.Inside i [f]) (engaged : c.Engaged [f']) :
    s.ChoreStep i c (s'.enter i f', []) :=
  .goesOn hi.enter engaged (List.forall_mem_nil _)

theorem reply {r : Reply} (hi : s'.Inside i [f]) (answer : c.Answer s [.replied r]) :
    s.ChoreStep i c (s'.reply i r) :=
  .ends hi.pop answer

/-! ### Submissions -/

section submissions

variable (hi : s'.Inside i [f]) (hp : s.pools[thePool]? = some pool)
  (ht : s.tasks[t]? = some task) (share : s.canShare t)

include hi hp ht share

theorem accept (hr : pool.refusal = none) :
    s.ChoreStep i (.submit t) (s'.accept i thePool pool t task pick) := by
  unfold System.accept
  split
  · next ho => exact .reply hi (.declined hp ht share (.owned hr ho) nofun)
  · have hi' : ((s'.setSlot t task.slot.claim).setPool thePool (pool.accept t)).Inside i [f] := hi
    exact .ends (hi'.wakeOne_same pick).pop (.accepted pool)

theorem refused {err : PoolError} (hr : pool.refusal = some err) :
    s.ChoreStep i (.submit t) (s'.reply i (.failed err)) := by
  refine .reply hi (.declined hp ht share (.refusal hr) fun k message cause he => ?_)
  rcases Pool.refusal_eq_some hr with ⟨rfl, -⟩ | ⟨rfl, -⟩ <;> cases he

theorem submit (started : pick.refusal = none) :
    s.ChoreStep i (.submit t) (s'.submit i thePool pool t task pick) := by
  unfold System.submit
  split
  · next err hr => exact .refused hi hp ht share hr
  · next hr =>
    split
    · next ho => exact .reply hi (.declined hp ht share (.owned hr ho) nofun)
    · split
      · split
        · have hi' : (s'.hired thePool pool).Inside i [f] := hi.hired
          exact .goesOn hi'.enter (.submit t false) (by simp [Event.isNews])
        · next cause hc => cases started.symm.trans hc
      · split
        · exact .enter hi (.submit t false)
        · exact .accept hi hp ht share hr

theorem resumeSubmit : s.ChoreStep i (.submit t) (s'.resumeSubmit i thePool pool t task pick) := by
  unfold System.resumeSubmit
  split
  · exact .enter hi (.submit t false)
  · split
    · next err hr => exact .refused hi hp ht share hr
    · next hr => exact .accept hi hp ht share hr

end submissions

/-! ### Joins -/

section joins

variable (hi : s'.Inside i [f]) (ht : s.tasks[t]? = some task) (hh : task.handle)

include hi ht hh

theorem takeOutcome (ho : task.slot.ownership = .pool) (hs : task.slot.state = .finished) :
    s.ChoreStep i (.join t) (s'.takeOutcome i t task) := by
  have hi' : (s'.setSlot t task.slot.release).Inside i [f] := hi
  exact .ends hi'.pop (.joined ht hh ho hs)

theorem join : s.ChoreStep i (.join t) (s'.join i t task none) := by
  unfold System.join
  split
  · next ho => exact .reply hi (.unowned ht hh ho)
  · next ho =>
    split
    · next hs => exact .takeOutcome hi ht hh (not_not.mp ho) hs
    · exact .enter hi (.join t false)

theorem resumeJoin (ho : task.slot.ownership = .pool) :
    s.ChoreStep i (.join t) (s'.resumeJoin i t task none) := by
  unfold System.resumeJoin
  split
  · next hs => exact .takeOutcome hi ht hh ho hs
  · exact .enter hi (.join t false)

end joins

/-! ### Giving tasks away -/

section surrenders

variable (hi : s'.Inside i [f]) (hc : c.givesAway t)

include hi hc

theorem letGo (task : Task) (todo : List Disposal) :
    s.ChoreStep i c (s'.letGo i t task todo) := by
  have hi' : (s'.setTask t { task with handle := false }).Inside i [f] := hi
  exact .enter hi' (.letGo todo none hc)

theorem detach (task : Task) : s.ChoreStep i c (s'.detach i t task) := by
  unfold System.detach
  split
  · split <;> exact .letGo hi hc _ _
  · exact .reply hi (.gaveAway _ hc)
  · exact .reply hi (.gaveAway _ hc)

end surrenders

theorem dispose (hi : s.Inside i [.disposing todo failure false]) (valid : s.Calls)
    (hc : c.givesAway t) : s.ChoreStep i c (s.dispose i th todo failure false) := by
  cases todo with
  | nil =>
    simp only [System.dispose, Bool.false_eq_true, if_false]
    split <;> exact .reply hi (.gaveAway _ hc)
  | cons d todo =>
    obtain ⟨todo', s', es, he, hi' | hi', quiet⟩ := dispose_cons th valid hi
    · exact he ▸ .goesOn hi' (.letGo todo' failure hc) quiet
    · exact he ▸ .goesOn hi' (.destroy todo' failure hc) quiet

/-! ### Waiting -/

theorem waitIdle (hi : s'.Inside i [f]) (hp : s.pools[thePool]? = some pool)
    (hpools : s'.pools = s.pools) : s.ChoreStep i .waitIdle (s'.waitIdle i thePool pool false) := by
  unfold System.waitIdle
  split
  · next hq => exact .returns rfl hi.pop hp hq hpools
  · exact .enter hi (.waitIdle false)

end ChoreStep

/-! ### Steps -/

theorem inside_inCall (hi : s.Inside i []) : (s.inCall i).Inside i [.disposing [] none false] :=
  hi.push

/-- A thread that is inside no call begins its chore. -/
theorem ChoreStep.of_free (hi : s.Inside i []) (plain : c.isPlain)
    (started : pick.refusal = none) (hs : s.step i (.call c.operation pick) = some e) :
    s.ChoreStep i c e := by
  have hi' := inside_inCall hi
  obtain ⟨th, hth, hs⟩ := Option.bind_eq_some_iff.mp hs
  simp only [Option.ite_none_right_eq_some] at hs
  obtain ⟨-, hs⟩ := hs
  have owned {f : Task → Effect} {t : TaskId}
      (h : (s.tasks[t]?.bind fun task => if s.canOwn t then some (f task) else none) = some e)
      (hf : ∀ task, s.tasks[t]? = some task → task.handle → s.ChoreStep i c (f task)) :
      s.ChoreStep i c e := by
    obtain ⟨task, ht, h⟩ := Option.bind_eq_some_iff.mp h
    obtain ⟨own, h⟩ := Option.ite_none_right_eq_some.mp h
    cases h
    exact hf task ht (record_handle ht ▸ handle_of_canShare (canOwn_iff.mp own).1)
  cases c with
  | submit t =>
    obtain ⟨pool, hp, hs⟩ := Option.bind_eq_some_iff.mp hs
    obtain ⟨task, ht, hs⟩ := Option.bind_eq_some_iff.mp hs
    obtain ⟨can, hs⟩ := Option.ite_none_right_eq_some.mp hs
    cases hs
    exact .submit hi' hp ht (Bool.and_eq_true_iff.mp can).2 started
  | trySubmit t => cases plain
  | join t => exact owned hs fun task ht hh => .join hi' ht hh
  | detach t => exact owned hs fun task _ _ => .detach hi' (by simp [Chore.givesAway]) task
  | drop t => exact owned hs fun task _ _ => .letGo hi' (by simp [Chore.givesAway]) task _
  | waitIdle =>
    obtain ⟨pool, hp, hs⟩ := Option.bind_eq_some_iff.mp hs
    obtain ⟨can, hs⟩ := Option.ite_none_right_eq_some.mp hs
    cases hs
    exact .waitIdle hi' hp rfl
  | shutdown => cases plain

/-- A thread inside the call for its chore goes on. -/
theorem ChoreStep.of_engaged (engaged : c.Engaged calls) (hi : s.Inside i calls) (valid : s.Calls)
    (hcall : ∀ op pick, a ≠ .call op pick) (hs : s.step i a = some e) : s.ChoreStep i c e := by
  cases engaged with
  | submit t woken =>
    obtain ⟨pool, task, pick, hp, ht, rfl⟩ := hi.resumesSubmit hs
    exact .resumeSubmit hi hp ht (valid.share hi)
  | join t woken =>
    obtain ⟨task, ht, rfl | ⟨nanos, unbounded, -⟩⟩ := hi.resumesJoin hs
    · have hh : s.standing t = some (true, .pool) := valid.relies.inside hi
      rw [standing_eq ht] at hh
      simp only [Option.some.injEq, Prod.mk.injEq] at hh
      exact .resumeJoin hi ht hh.1 hh.2
    · cases unbounded
  | letGo todo failure hgive =>
    obtain ⟨th, rfl⟩ := hi.disposes hs
    exact .dispose hi valid hgive
  | destroy todo failure hgive =>
    obtain ⟨failure', rfl⟩ := hi.destroys hcall hs
    exact .enter hi.pop (.letGo todo failure' hgive)
  | waitIdle woken =>
    obtain ⟨pool, hp, rfl⟩ := hi.resumesWait hs
    exact .waitIdle hi hp rfl

/-! ### Workers -/

/-- What a worker is inside of if destructors call nothing. -/
inductive AtWork : List Frame → Prop
  | loop : AtWork []
  | letGo (todo : List Disposal) (failure : Option Payload) :
      AtWork [.disposing todo failure true]
  | destroy (todo : List Disposal) (failure : Option Payload) :
      AtWork [.destructor, .disposing todo failure true]

/-- A step of a worker: there is no news, or the work of a task is invoked, or an invocation ends as
the step says. -/
inductive WorkStep (s : System) (i : ThreadId) (a : Action) : Effect → Prop
  | aside {s' : System} {calls : List Frame} {es : List Event} : s'.Inside i calls →
      AtWork calls → (∀ ev ∈ es, ev.isNews = false) → WorkStep s i a (s', es)
  | begins {s' : System} {p : PoolId} {k : Nat} {t : TaskId} (n : Nat) :
      s.Working i p k (.holding t) → s'.Inside i [] → WorkStep s i a (s', [.started t n])
  | ends {s' : System} {p : PoolId} {k : Nat} {t : TaskId} {o : Outcome}
      {ending : Except Payload Value} : s.Working i p k (.running t) → a = .finish ending →
      o.ending = .of ending → s'.Inside i [] → WorkStep s i a (s', [.ended t o])

namespace WorkStep

/-- The worker stays in its loop. -/
theorem loop {phase : Phase} (hw : s'.Working i p k phase) (hes : ∀ ev ∈ es, ev.isNews = false) :
    s.WorkStep i a (s', es) :=
  .aside hw.inside .loop hes

theorem proceed (es : List Event) (hw : s'.Working i p k (.parked true))
    (hes : ∀ ev ∈ es, ev.isNews = false) :
    s.WorkStep i a (emit es (s'.proceed i p pool k)) := by
  have told {es' : List Event} (hes' : ∀ ev ∈ es', ev.isNews = false) :
      ∀ ev ∈ es ++ es', ev.isNews = false := fun ev hev =>
    (List.mem_append.mp hev).elim (hes ev) (hes' ev)
  unfold System.proceed
  split
  · exact .loop (hw.onThread (Thread.rephases_leave _)) (told (by simp [Event.isNews]))
  · split
    · exact .loop (hw.onThread Thread.rephases_setPhase) (told (List.forall_mem_nil _))
    · next t pool' hc =>
      have hw' : (s'.setPool p pool').Working i p k (.parked true) := hw
      exact .loop (hw'.onThread Thread.rephases_setPhase) (told (by simp [Event.isNews]))

theorem register (hw : s.Working i p k .starting) : s.WorkStep i a (s.register i p pool k) := by
  let g (th : Thread) : Thread := { th with spans := th.spans.enter (some .worker) }
  have hw' : (s.onThread i g).Working i p k .starting := hw.stay fun _ => ⟨rfl, rfl⟩
  have told : ∀ ev ∈ [Event.log (.registered p k pool.register.threadCount)],
      ev.isNews = false := by simp [Event.isNews]
  exact .proceed _ ((hw'.wakeAll (.workerRegistered p)).settled pool.register) told

theorem begin (hw : s.Working i p k (.holding t)) : s.WorkStep i a (s.begin i t task) := by
  have g : Thread.Rephases (.running t) fun th =>
      { ({ th with spans := th.spans.enter (some .execution) } : Thread).setPhase (.running t) with
        spans := (th.spans.enter (some .execution)).enter task.captured } :=
    fun th => Thread.rephases_enter (fun th => th.spans.enter (some .execution)) th
  unfold System.begin
  split
  · have hw' : (s.setTask t { task with slot := task.slot.start, runs := task.runs + 1 }).Working
      i p k (.holding t) := hw
    exact .begins _ hw (hw'.onThread g).inside
  · have hw' : (s.setTask t { task with slot := task.slot.start }).Working i p k (.holding t) := hw
    exact .loop (hw'.onThread (Thread.rephases_enter _)) (List.forall_mem_nil _)

theorem retire (hw : s.Working i p k (.counted t)) :
    s.WorkStep i a (s.retire i p pool k t task) := by
  have hw' : (s.published i p pool t task).Working i p k (.counted t) := hw.published rfl
  have inside : (s.retired i p pool t task).Inside i
      [.disposing (.reference t :: task.slot.leftovers t) none true] :=
    hw'.inside.onThread fun th hth => by simp [hth]
  have quiet : ∀ ev ∈ (s.retire i p pool k t task).2, ev.isNews = false := by
    by_cases hd : task.slot.ownership = .detached <;> simp [System.retire, hd, Event.isNews]
  exact .aside inside (.letGo _ none) quiet

theorem work {phase : Phase} (hw : s.Working i p k phase) (h : s.work? i p k phase = some e) :
    s.WorkStep i a e := by
  obtain ⟨pool, hp, h⟩ := Option.bind_eq_some_iff.mp h
  cases phase with
  | starting =>
    cases h
    exact .register hw
  | parked woken =>
    cases woken with
    | false => cases h
    | true =>
      cases h
      exact .proceed [] hw (List.forall_mem_nil _)
  | holding t =>
    obtain ⟨task, ht, h⟩ := Option.bind_eq_some_iff.mp h
    cases h
    exact .begin hw
  | running t => cases h
  | stashing t work o =>
    obtain ⟨task, ht, h⟩ := Option.bind_eq_some_iff.mp h
    cases h
    have hw' : (s.setSlot t (task.slot.stash work o)).Working i p k (.stashing t work o) := hw
    exact .loop (hw'.onThread Thread.rephases_setPhase) (List.forall_mem_nil _)
  | stashed t returned =>
    cases h
    have hw' : (s.setPool p (pool.count k returned)).Working i p k (.stashed t returned) := hw
    refine .loop (hw'.onThread (Thread.rephases_leave _)) ?_
    cases returned <;> simp [Event.isNews]
  | counted t =>
    obtain ⟨task, ht, h⟩ := Option.bind_eq_some_iff.mp h
    cases h
    exact .retire hw
  | releasing =>
    cases h
    exact .proceed [] (hw.settled (pool.released i)) (List.forall_mem_nil _)
  | exited => cases h

theorem dispose (hi : s.Inside i [.disposing todo failure true]) (valid : s.Calls) :
    s.WorkStep i a (s.dispose i th todo failure true) := by
  cases todo with
  | nil =>
    simp only [System.dispose, if_true]
    split
    · exact .aside hi.pop .loop (by simp [Event.isNews])
    · exact .aside hi.pop .loop (List.forall_mem_nil _)
  | cons d todo =>
    obtain ⟨todo', s', es, he, hi' | hi', quiet⟩ := dispose_cons th valid hi
    · exact he ▸ .aside hi' (.letGo todo' failure) quiet
    · exact he ▸ .aside hi' (.destroy todo' failure) quiet

end WorkStep

/-- A worker goes on with its loop, or with letting go of a task. -/
theorem WorkStep.of_atWork (busy : AtWork calls) (hi : s.Inside i calls) (valid : s.Calls)
    (hcall : ∀ op pick, a ≠ .call op pick) (hs : s.step i a = some e) : s.WorkStep i a e := by
  cases busy with
  | loop =>
    obtain ⟨th, hth, hc⟩ := hi
    cases a with
    | call op pick => exact absurd rfl (hcall op pick)
    | expire => simp [System.step, hth, expire?, hc] at hs
    | advance pick =>
      cases hr : th.role with
      | caller => simp [System.step, hth, advance?, hc, hr] at hs
      | worker p k phase =>
        have hw : s.Working i p k phase := ⟨th, hth, hr, hc⟩
        exact .work hw (by simpa [System.step, hth, advance?, hc, hr] using hs)
    | finish ending =>
      obtain ⟨p, k, t, hr⟩ : ∃ p k t, th.role = .worker p k (.running t) := by
        cases hr : th.role with
        | caller => simp [System.step, hth, finish?, hc, hr] at hs
        | worker p k phase =>
          cases phase with
          | running t => exact ⟨p, k, t, rfl⟩
          | _ => simp [System.step, hth, finish?, hc, hr] at hs
      have hw : s.Working i p k (.running t) := ⟨th, hth, hr, hc⟩
      obtain ⟨task, ht, rfl⟩ : ∃ task, s.tasks[t]? = some task ∧ s.endWork i t task ending = e := by
        simpa [System.step, hth, finish?, hc, hr, Option.bind_eq_some_iff] using hs
      exact .ends hw rfl rfl (hw.onThread (Thread.rephases_leave _)).inside
  | letGo todo failure =>
    obtain ⟨th, rfl⟩ := hi.disposes hs
    exact .dispose hi valid
  | destroy todo failure =>
    obtain ⟨failure', rfl⟩ := hi.destroys hcall hs
    exact .aside hi.pop.enter (.letGo todo failure') (List.forall_mem_nil _)

end System

end WorkerPool
