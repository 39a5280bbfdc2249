import WorkerPool.Proofs.Custody

/-!
What a move does to the record of one task.

Most moves leave the record alone and tell nothing that concerns the task. `Record.Change` lists the
others with their conditions; `Move.change` says that there are no more.
-/
namespace WorkerPool

open Function (update)

/-- The record of the task before and after a move of the thread `i`, and what the move tells. -/
inductive Record.Change (i : ThreadId) (t : TaskId) : Record → List Event → Record → Prop
  | same {r : Record} {es : List Event} : (∀ e ∈ es, e.concerns t = false) → Change i t r es r
  | hire {r : Record} {es : List Event} {employer : ThreadId → Option PoolId} :
      (∀ j p, r.employer j = some p → employer j = some p) → (∀ e ∈ es, e.concerns t = false) →
      Change i t r es { r with employer }
  | accept {r : Record} {p : PoolId} {n : Nat} {m : Metric} : r.handle →
      r.slot.ownership = .caller →
      Change i t r [.log (.submitted p t n), .metric p m]
        { r with slot := r.slot.claim, queued := update r.queued p (r.queued p + 1) }
  | take {r : Record} {x : Reply} : r.handle → r.slot.ownership = .pool →
      r.slot.state = .finished →
      Change i t r [.joined t r.slot.outcome, .replied x] { r with slot := r.slot.release }
  | surrender {r : Record} {slot : Slot} {todo : List Disposal} : r.handle →
      r.slot.Surrender t slot todo → Change i t r [] { r with slot, handle := false }
  | abandon {r : Record} {es : List Event} : r.handle = false → r.slot.isOutstanding →
      (∀ e ∈ es, e.concerns t = false) → Change i t r es { r with slot := r.slot.detach }
  | clear {r : Record} : r.handle = false → (r.bearing = fun _ => none) →
      (r.queued = fun _ => 0) → Change i t r [] { r with slot := r.slot.clear }
  | claim {r : Record} {p : PoolId} {es : List Event} : r.queued p ≠ 0 →
      (∀ e ∈ es, e.concerns t = false) →
      Change i t r es { r with
        queued := update r.queued p (r.queued p - 1)
        bearing := update r.bearing i (some (p, .holding t)) }
  | begin {r : Record} {p : PoolId} : r.bearing i = some (p, .holding t) →
      r.employer i = some p →
      Change i t r [.started t (r.runs + 1)] { r with
        slot := r.slot.start, runs := r.runs + 1
        bearing := update r.bearing i (some (p, .running t)) }
  | beginEmpty {r : Record} {p : PoolId} {o : Outcome} : r.bearing i = some (p, .holding t) →
      r.slot.work = false →
      Change i t r [] { r with
        slot := r.slot.start, bearing := update r.bearing i (some (p, .stashing t false o)) }
  | endWork {r : Record} {p : PoolId} {o : Outcome} : r.bearing i = some (p, .running t) →
      o.run = r.runs →
      Change i t r [.ended t o] { r with
        bearing := update r.bearing i (some (p, .stashing t true o)) }
  | stash {r : Record} {p : PoolId} {work : Bool} {o : Outcome} :
      r.bearing i = some (p, .stashing t work o) →
      Change i t r [] { r with
        slot := r.slot.stash work o
        bearing := update r.bearing i (some (p, .stashed t o.returned)) }
  | count {r : Record} {p : PoolId} {returned : Bool} {es : List Event} :
      r.bearing i = some (p, .stashed t returned) → (∀ e ∈ es, e.concerns t = false) →
      Change i t r es { r with bearing := update r.bearing i (some (p, .counted t)) }
  | retire {r : Record} {p : PoolId} {es : List Event} :
      r.bearing i = some (p, .counted t) → (∀ e ∈ es, e.concerns t = false) →
      Change i t r es { r with
        slot := r.slot.complete, bearing := update r.bearing i none }

theorem Record.Change.of_eq {i : ThreadId} {t : TaskId} {r r' : Record} {es : List Event}
    (hr : r' = r) (he : ∀ e ∈ es, e.concerns t = false) : Change i t r es r' := by
  rw [hr]
  exact .same he

namespace System

variable {s s' : System} {i : ThreadId} {p : PoolId} {k : Nat} {t u : TaskId}
  {es : List Event} {task : Task} {pool : Pool} {f : Frame}

theorem Working.employer {phase : Phase} (h : s.Working i p k phase) :
    (s.record t).employer i = some p := by
  obtain ⟨th, hth, hr, -⟩ := h
  simp [System.record, System.employer, hth, Thread.employer, hr]

theorem Working.bearing_self {phase : Phase} (h : s.Working i p k phase)
    (ht : phase.task? = some t) : (s.record t).bearing i = some (p, phase) := by
  rw [h.bearing, Phase.bears_self ht]

theorem handle_of_canShare (h : s.canShare t) : (s.record t).handle := by
  obtain ⟨⟨o, ho⟩, -⟩ := canShare_iff.mp h
  obtain ⟨task, ht, h⟩ := Option.map_eq_some_iff.mp ho
  simp only [Prod.mk.injEq] at h
  simp [record, task_eq ht, h.1]

theorem change_accept {pick : Pick} (hp : s.pools[p]? = some pool) (ht : s.tasks[t]? = some task)
    (share : s.canShare t) (ho : task.slot.ownership = .caller) :
    Record.Change i u (s.record u)
      [.log (.submitted p t (pool.accept t).queue.length),
        .metric p (.submission (pool.accept t).queue.length)]
      ((((s.setSlot t task.slot.claim).setPool p (pool.accept t)).wakeOne p pick).record u) := by
  have hp' : (s.setSlot t task.slot.claim).pools[p]? = some pool := hp
  have hcount : (pool.accept t).queue.entries.count u =
      pool.queue.entries.count u + if t = u then 1 else 0 := pool.queue.count_push t u
  rw [record_wakeOne]
  by_cases hu : t = u
  · subst hu
    rw [record_setPool hp', record_setSlot ht, hcount, if_pos rfl, ← queued_eq hp,
      ← record_slot ht]
    exact .accept (handle_of_canShare share) (record_slot ht ▸ ho)
  · rw [record_setPool_same hp' (by simp [hcount, hu]), record_setSlot_ne _ hu]
    exact .same (by simp [Event.concerns, hu])

theorem change_take (ht : s.tasks[t]? = some task) (own : (s.onThread i Thread.pop).canOwn t)
    (ho : task.slot.ownership = .pool) (hs : task.slot.state = .finished) :
    Record.Change i u (s.record u)
      [.joined t task.slot.outcome, .replied (joinReply t task.slot.outcome)]
      (((s.setSlot t task.slot.release).onThread i Thread.pop).record u) := by
  rw [record_pop]
  by_cases hu : t = u
  · subst hu
    have hh := handle_of_canShare (canOwn_iff.mp own).1
    rw [record_pop] at hh
    rw [record_setSlot ht, ← record_slot ht]
    exact .take hh (record_slot ht ▸ ho) (record_slot ht ▸ hs)
  · rw [record_setSlot_ne _ hu]
    exact .same (by simp [Event.concerns, hu])

theorem change_claim {pool' : Pool} (hw : s.Working i p k (.parked true))
    (hp : s.pools[p]? = some pool) (hc : pool.claim? = some (t, pool')) :
    Record.Change i u (s.record u) [.log (.claimed p k t), .metric p (.busy k)]
      (((s.setPool p pool').onThread i (·.setPhase (.holding t))).record u) := by
  obtain ⟨queue, hq, rfl⟩ := Pool.claim?_eq hc
  obtain ⟨entries, he, rfl⟩ := PendingQueue.pop?_eq hq
  have hw' : (s.setPool p { pool with
      queue := { pool.queue with entries }, idleCount := pool.idleCount - 1
      runningCount := pool.runningCount + 1 }).Working i p k (.parked true) := hw
  rw [hw'.record (.holding t) fun _ => rfl]
  by_cases hu : t = u
  · subst hu
    have hcount : (s.record t).queued p = entries.count t + 1 := by simp [queued_eq hp, he]
    have hpos : (s.record t).queued p ≠ 0 := by omega
    have change : Record.Change i t (s.record t) [.log (.claimed p k t), .metric p (.busy k)] _ :=
      .claim hpos (by simp [Event.concerns])
    rw [record_setPool hp, Phase.bears_self rfl]
    simpa [hcount] using change
  · rw [Phase.bears_ne (t := t) rfl hu, record_setPool_same hp (by simp [he, hu])]
    have hb : (s.record u).bearing i = none := hw.bearing.trans (Phase.bears_none rfl)
    have hsame : update (s.record u).bearing i none = (s.record u).bearing := by
      rw [← hb, Function.update_eq_self]
    rw [hsame]
    exact .same (by simp [Event.concerns])

theorem change_hire (hp : s.pools[p]? = some pool) :
    Record.Change i u (s.record u)
      [.log (.spawned p pool.rosterSize pool.config.threadName)] ((s.hired p pool).record u) := by
  have hp' : (s.spawn { role := .worker p pool.rosterSize .starting }).pools[p]? = some pool := hp
  have hc : (pool.hire s.threads.length).queue.entries.count u = pool.queue.entries.count u := rfl
  unfold hired
  rw [record_setPool_same hp' hc, record_spawn (by simp [Thread.bears, Phase.bears, Phase.task?])]
  exact .hire (fun j q => employer_spawn) (by simp [Event.concerns])

theorem change_letGo {slot : Slot} {todo todo' : List Disposal} {failure : Option Payload}
    {releasing : Bool} (ht : s.tasks[t]? = some task) (own : s.canOwn t)
    (surrender : task.slot.Surrender t slot todo) :
    Record.Change i u (s.record u) []
      (((s.setTask t { task with slot, handle := false }).enter i
        (.disposing todo' failure releasing)).record u) := by
  rw [record_enter]
  by_cases hu : t = u
  · subst hu
    rw [record_setTask ht, ← record_runs ht]
    exact .surrender (handle_of_canShare (canOwn_iff.mp own).1) (record_slot ht ▸ surrender)
  · rw [record_setTask_ne _ hu]
    exact .same (by simp)

theorem change_abandon (ht : s.tasks[t]? = some task) (ho : task.slot.isOutstanding)
    (hh : task.handle = false) :
    Record.Change i u (s.record u) [.log (.abandoned t task.slot.state)]
      (((s.enter i f).setSlot t task.slot.detach).record u) := by
  have ht' : (s.enter i f).tasks[t]? = some task := ht
  by_cases hu : t = u
  · subst hu
    rw [record_setSlot ht', record_enter, ← record_slot ht]
    exact .abandon (record_handle ht ▸ hh) (record_slot ht ▸ ho) (by simp [Event.concerns])
  · rw [record_setSlot_ne _ hu, record_enter]
    exact .same (by simp [Event.concerns])

theorem change_clear {f' : Frame} (ht : s.tasks[t]? = some task)
    (hrefs : (s.enter i f).references t = 0) :
    Record.Change i u (s.record u) []
      (((s.enter i f').setSlot t task.slot.clear).record u) := by
  have ht' : ∀ f, (s.enter i f).tasks[t]? = some task := fun _ => ht
  by_cases hu : t = u
  · subst hu
    have hr := record_of_references hrefs (ht' f)
    rw [record_enter] at hr
    rw [record_setSlot (ht' f'), record_enter, ← record_slot ht]
    exact .clear hr.1 hr.2.1 hr.2.2
  · rw [record_setSlot_ne _ hu, record_enter]
    exact .same (by simp)

/-- A worker that goes on with one task leaves the others alone. -/
theorem Working.record_ne {phase phase' : Phase} {g : Thread → Thread} (h : s.Working i p k phase)
    (hg : Thread.Rephases phase' g) (ht : phase.task? = some t) (ht' : phase'.task? = some t)
    (hu : t ≠ u) : (s.onThread i g).record u = s.record u :=
  h.record_same (fun th => (hg th).1) ((Phase.bears_ne ht' hu).trans (Phase.bears_ne ht hu).symm)

theorem change_begin {g : Thread → Thread} (hw : s.Working i p k (.holding t))
    (ht : s.tasks[t]? = some task) (hg : Thread.Rephases (.running t) g) :
    Record.Change i u (s.record u) [.started t (task.runs + 1)]
      (((s.setTask t { task with slot := task.slot.start, runs := task.runs + 1 }).onThread i
        g).record u) := by
  have hw' : (s.setTask t { task with slot := task.slot.start, runs := task.runs + 1 }).Working i
    p k (.holding t) := hw
  by_cases hu : t = u
  · subst hu
    rw [hw'.record (.running t) fun th => (hg th).1, record_setTask ht, ← record_slot ht,
      ← record_runs ht, ← record_handle ht, Phase.bears_self rfl]
    exact .begin (hw.bearing_self rfl) hw.employer
  · rw [hw'.record_ne hg rfl rfl hu, record_setTask_ne _ hu]
    exact .same (by simp [Event.concerns, hu])

theorem change_beginEmpty {g : Thread → Thread} {o : Outcome} (hw : s.Working i p k (.holding t))
    (ht : s.tasks[t]? = some task) (hwork : task.slot.work = false)
    (hg : Thread.Rephases (.stashing t false o) g) :
    Record.Change i u (s.record u) []
      (((s.setTask t { task with slot := task.slot.start }).onThread i g).record u) := by
  have hw' : (s.setTask t { task with slot := task.slot.start }).Working i p k (.holding t) := hw
  by_cases hu : t = u
  · subst hu
    rw [hw'.record (.stashing t false o) fun th => (hg th).1, record_setTask ht, ← record_slot ht,
      ← record_runs ht, ← record_handle ht, Phase.bears_self rfl]
    exact .beginEmpty (hw.bearing_self rfl) (record_slot ht ▸ hwork)
  · rw [hw'.record_ne hg rfl rfl hu, record_setTask_ne _ hu]
    exact .same (by simp)

theorem change_endWork {g : Thread → Thread} {o : Outcome} (hw : s.Working i p k (.running t))
    (ht : s.tasks[t]? = some task) (ho : o.run = task.runs)
    (hg : Thread.Rephases (.stashing t true o) g) :
    Record.Change i u (s.record u) [.ended t o] ((s.onThread i g).record u) := by
  by_cases hu : t = u
  · subst hu
    rw [hw.record (.stashing t true o) fun th => (hg th).1, Phase.bears_self rfl]
    exact .endWork (hw.bearing_self rfl) (record_runs ht ▸ ho)
  · rw [hw.record_ne hg rfl rfl hu]
    exact .same (by simp [Event.concerns, hu])

theorem change_stash {work : Bool} {o : Outcome} (hw : s.Working i p k (.stashing t work o))
    (ht : s.tasks[t]? = some task) :
    Record.Change i u (s.record u) []
      (((s.setSlot t (task.slot.stash work o)).onThread i
        (·.setPhase (.stashed t o.returned))).record u) := by
  have hw' : (s.setSlot t (task.slot.stash work o)).Working i p k (.stashing t work o) := hw
  by_cases hu : t = u
  · subst hu
    rw [hw'.record (.stashed t o.returned) fun _ => rfl, record_setSlot ht, ← record_slot ht,
      Phase.bears_self rfl]
    exact .stash (hw.bearing_self rfl)
  · rw [hw'.record_ne Thread.rephases_setPhase rfl rfl hu, record_setSlot_ne _ hu]
    exact .same (by simp)

theorem change_count {returned : Bool} {g : Thread → Thread}
    (hw : s.Working i p k (.stashed t returned)) (hp : s.pools[p]? = some pool)
    (hg : Thread.Rephases (.counted t) g) (he : ∀ e ∈ es, e.concerns u = false) :
    Record.Change i u (s.record u) es
      (((s.setPool p (pool.count k returned)).onThread i g).record u) := by
  have hw' : (s.setPool p (pool.count k returned)).Working i p k (.stashed t returned) := hw
  have hc : (pool.count k returned).queue.entries.count u = pool.queue.entries.count u := rfl
  by_cases hu : t = u
  · subst hu
    rw [hw'.record (.counted t) fun th => (hg th).1, record_setPool_same hp hc,
      Phase.bears_self rfl]
    exact .count (hw.bearing_self rfl) he
  · rw [hw'.record_ne hg rfl rfl hu, record_setPool_same hp hc]
    exact .same he

theorem Working.published {phase : Phase} (hw : s.Working i p k phase)
    (hph : phase.task? = some u) : (s.published i p pool t task).Working i p k phase := by
  have hw : ((s.setPool p (pool.retire i)).setSlot t task.slot.complete).Working i p k phase := hw
  unfold System.published
  split
  · exact hw
  · have := hw.wakeAll (.finished t)
    cases phase <;> simp_all [Phase.wake, Phase.task?]

theorem record_published (hp : s.pools[p]? = some pool) :
    (s.published i p pool t task).record u = (s.setSlot t task.slot.complete).record u := by
  have hc : (pool.retire i).queue.entries.count u = pool.queue.entries.count u := rfl
  have hp' : (s.setSlot t task.slot.complete).pools[p]? = some pool := hp
  have h := record_setPool_same hp' hc
  unfold System.published
  split
  · exact h
  · rw [record_wakeAll]
    exact h

theorem change_retire (hw : s.Working i p k (.counted t)) (hp : s.pools[p]? = some pool)
    (ht : s.tasks[t]? = some task) (he : ∀ e ∈ es, e.concerns u = false) :
    Record.Change i u (s.record u) es ((s.retired i p pool t task).record u) := by
  have hw' : (s.published i p pool t task).Working i p k (.counted t) := hw.published rfl
  rw [retired_eq, record_push]
  by_cases hu : t = u
  · subst hu
    rw [hw'.record .releasing fun _ => rfl, record_published hp, record_setSlot ht,
      ← record_slot ht, Phase.bears_none rfl]
    exact .retire (hw.bearing_self rfl) he
  · have hb : Phase.bears u p .releasing = (Phase.counted t).bears u p :=
      (Phase.bears_none rfl).trans (Phase.bears_ne rfl hu).symm
    rw [hw'.record_same (fun _ => rfl) hb, record_published hp, record_setSlot_ne _ hu]
    exact .same he

/-- No move does more to the record of a task. -/
theorem Move.change (m : Move i s es s') (u : TaskId) :
    Record.Change i u (s.record u) es (s'.record u) := by
  cases m with
  | call _ _ => exact .of_eq (record_push _) (by simp)
  | leave _ _ he =>
    rcases he with rfl | ⟨r, rfl⟩ <;> exact .of_eq record_pop (by simp [Event.concerns])
  | wait _ _ _ => exact .of_eq (record_enter _) (by simp)
  | @note r hr =>
    refine .same ?_
    cases r <;> simp_all [LogRecord.isNote, Event.concerns]
  | addPool hc => exact .of_eq (record_addPool (Pool.create_queue hc)) (by simp [Event.concerns])
  | addTask captured => exact .of_eq (record_addTask captured) (by simp)
  | hire hp _ _ => exact change_hire hp
  | accept hp ht _ _ share ho => exact change_accept hp ht share ho
  | take _ _ ht own ho hs => exact change_take ht own ho hs
  | letGo _ _ ht own surrender => exact change_letGo ht own surrender
  | discard _ _ => exact .of_eq (record_enter _) (by simp)
  | destroy _ _ =>
    exact .of_eq ((record_push _).trans (record_enter _)) (by simp [Event.concerns])
  | release _ _ _ => exact .of_eq (record_enter _) (by simp)
  | abandon _ ht ho hh => exact change_abandon ht ho hh
  | unref _ _ => exact .of_eq (record_enter _) (by simp)
  | clear _ ht hrefs => exact change_clear ht hrefs
  | resume _ => exact .of_eq ((record_enter _).trans record_pop) (by simp)
  | close hp _ => exact .of_eq (record_setPool_same hp rfl) (by simp)
  | stop k hp _ => exact .of_eq ((record_wakeAll _).trans (record_setPool_same hp rfl)) (by simp)
  | dismiss total hp _ => exact .of_eq (record_setPool_same hp rfl) (by simp [Event.concerns])
  | dropPool hp _ => exact .of_eq (record_setPool_same hp rfl) (by simp)
  | @register p _ _ g hw hp hg =>
    have hsame : ((s.onThread i g).wakeAll (.workerRegistered p)).record u = s.record u :=
      (record_wakeAll _).trans (record_onThread fun th => (hg th).1)
    have hw' := (hw.stay hg).wakeAll (.workerRegistered p)
    refine .of_eq ((hw'.record_settled _ hp rfl ?_).trans hsame) (by simp [Event.concerns])
    rfl
  | released hw hp => exact .of_eq (hw.record_settled _ hp rfl rfl) (by simp)
  | exit hw _ _ hg =>
    exact .of_eq (hw.record_same (fun th => (hg th).1) rfl) (by simp [Event.concerns])
  | claim hw hp _ hc => exact change_claim hw hp hc
  | park hw _ _ _ => exact .of_eq (hw.record_same (fun _ => rfl) rfl) (by simp)
  | begin hw ht _ hg => exact change_begin hw ht hg
  | beginEmpty hw ht hwork hg => exact change_beginEmpty hw ht hwork hg
  | endWork hw ht ho hg => exact change_endWork hw ht ho hg
  | stash hw ht => exact change_stash hw ht
  | count hw hp hg =>
    refine change_count hw hp hg ?_
    split <;> simp [Event.concerns]
  | retire hw hp ht =>
    refine change_retire hw hp ht ?_
    split <;> simp [Event.concerns]

end System

end WorkerPool
