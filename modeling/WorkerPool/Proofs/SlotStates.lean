import WorkerPool.Proofs.ExactlyOnce
import WorkerPool.Proofs.Conservation
import WorkerPool.Proofs.References

/-!
What the slot of a task holds.

As long as anything refers to a task, its slot is in one of six states, each of which goes with one
kind of place: with the caller, in a queue, in the hands of a worker, or finished. So a join that
finds its task with a pool comes to an outcome, and nobody who has the handle of a task finds it
detached.
-/
namespace WorkerPool

variable {slot slot' : Slot} {t : TaskId}

namespace Slot

/-- The states of the slot of a task that something refers to. -/
inductive Filled : Slot → Prop
  | resting {state : TaskState} : state = .unsubmitted ∨ state = .finished →
      Filled ⟨state, .caller, true, none⟩
  | pending {o : Ownership} : o ≠ .caller → Filled ⟨.pending, o, true, none⟩
  | running {o : Ownership} : o ≠ .caller → Filled ⟨.running, o, false, none⟩
  | stashed {o : Ownership} (x : Outcome) : o ≠ .caller → Filled ⟨.running, o, true, some x⟩
  | finished (x : Outcome) : Filled ⟨.finished, .pool, true, some x⟩
  | handedBack : Filled ⟨.finished, .detached, false, none⟩

namespace Filled

theorem of_caller (h : slot.Filled) (ho : slot.ownership = .caller) :
    ∃ state, (state = .unsubmitted ∨ state = .finished) ∧ slot = ⟨state, .caller, true, none⟩ := by
  cases h with
  | resting hst => exact ⟨_, hst, rfl⟩
  | pending hne | running hne | stashed _ hne => exact absurd ho hne
  | finished | handedBack => cases ho

theorem of_pending (h : slot.Filled) (hs : slot.state = .pending) :
    ∃ o, o ≠ .caller ∧ slot = ⟨.pending, o, true, none⟩ := by
  cases h with
  | pending hne => exact ⟨_, hne, rfl⟩
  | resting hst => rcases hst with rfl | rfl <;> cases hs
  | _ => cases hs

theorem of_running (h : slot.Filled) (hs : slot.state = .running) : ∃ o, o ≠ .caller ∧
    (slot = ⟨.running, o, false, none⟩ ∨ ∃ x, slot = ⟨.running, o, true, some x⟩) := by
  cases h with
  | running hne => exact ⟨_, hne, .inl rfl⟩
  | stashed x hne => exact ⟨_, hne, .inr ⟨x, rfl⟩⟩
  | resting hst => rcases hst with rfl | rfl <;> cases hs
  | _ => cases hs

theorem of_finished (h : slot.Filled) (hs : slot.state = .finished) :
    slot = ⟨.finished, .caller, true, none⟩ ∨ (∃ x, slot = ⟨.finished, .pool, true, some x⟩) ∨
      slot = ⟨.finished, .detached, false, none⟩ := by
  cases h with
  | resting => exact .inl (by rw [← hs])
  | finished x => exact .inr (.inl ⟨x, rfl⟩)
  | handedBack => exact .inr (.inr rfl)
  | _ => cases hs

/-! The operations on a slot lead from one of the states to another one. -/

theorem claim (h : slot.Filled) (ho : slot.ownership = .caller) : slot.claim.Filled := by
  obtain ⟨state, -, rfl⟩ := h.of_caller ho
  exact .pending (by simp)

theorem release (h : slot.Filled) (ho : slot.ownership = .pool) (hs : slot.state = .finished) :
    slot.release.Filled := by
  obtain rfl | ⟨x, rfl⟩ | rfl := h.of_finished hs
  · cases ho
  · exact .resting (.inr rfl)
  · cases ho

theorem detach (h : slot.Filled) (ho : slot.ownership = .pool) (hs : slot.state ≠ .finished) :
    slot.detach.Filled := by
  cases h with
  | pending => exact .pending (by simp)
  | running => exact .running (by simp)
  | stashed x => exact .stashed x (by simp)
  | finished => exact absurd rfl hs
  | resting | handedBack => cases ho

theorem surrender {todo : List Disposal} (h : slot.Filled) (hs : slot.Surrender t slot' todo) :
    slot'.Filled := by
  cases hs with
  | finished ho hst => exact h.release ho hst
  | outstanding ho hst => exact h.detach ho hst
  | plain => exact h

theorem start (h : slot.Filled) (hs : slot.state = .pending) : slot.start.Filled := by
  obtain ⟨o, hne, rfl⟩ := h.of_pending hs
  exact .running hne

theorem stash (x : Outcome) (h : slot.Filled) (hs : slot.state = .running) :
    (slot.stash true x).Filled := by
  obtain ⟨o, hne, rfl | ⟨y, rfl⟩⟩ := h.of_running hs
  · exact .stashed x hne
  · exact .stashed x hne

theorem complete (h : slot.Filled) (hs : slot.state = .running) (hx : slot.outcome.isSome) :
    slot.complete.Filled := by
  obtain ⟨o, hne, rfl | ⟨x, rfl⟩⟩ := h.of_running hs
  · cases hx
  · cases o with
    | caller => exact absurd rfl hne
    | pool => exact .finished x
    | detached => exact .handedBack

end Filled

end Slot

/-! ### Changes -/

theorem Record.Kept.stashable {r : Record} {h : Trace} {i : ThreadId} {p : PoolId} {work : Bool}
    {o : Outcome} (kept : r.Kept t h) (hb : r.bearing i = some (p, .stashing t work o)) :
    r.slot.state = .running ∧ work = true := by
  obtain ⟨life, st, hat, -⟩ := kept
  obtain rfl := hat.of_bearing hb
  obtain ⟨-, -, hs, -, hw⟩ := hat.agrees
  exact ⟨hs, hw⟩

theorem Record.Kept.completable {r : Record} {h : Trace} {i : ThreadId} {p : PoolId}
    (kept : r.Kept t h) (hb : r.bearing i = some (p, .counted t)) :
    r.slot.state = .running ∧ r.slot.outcome.isSome := by
  obtain ⟨life, st, hat, -⟩ := kept
  obtain rfl := hat.of_bearing hb
  obtain ⟨o, -, -, hs, hout, -⟩ := hat.agrees
  exact ⟨hs, by simp [hout]⟩

/-- The slot of a task that is not loose goes from one of its states to another one. -/
theorem Record.Change.filled {r r' : Record} {h : Trace} {i : ThreadId} {es : List Event}
    (c : r.Change i t es r') (kept : r.Kept t h) (filled : r.slot.Filled) (tied : ¬ r.Loose) :
    r'.slot.Filled := by
  cases c with
  | same | hire | claim | endWork | count => exact filled
  | accept _ ho => exact filled.claim ho
  | take _ ho hs => exact filled.release ho hs
  | surrender _ hs => exact filled.surrender hs
  | abandon _ out _ =>
    simp only [Slot.isOutstanding, decide_eq_true_eq] at out
    exact filled.detach out.1 out.2
  | clear hh hb hq => exact absurd ⟨hh, hb, hq⟩ tied
  | begin hb => exact filled.start (kept.pending hb)
  | beginEmpty hb => exact filled.start (kept.pending hb)
  | stash hb =>
    obtain ⟨hs, rfl⟩ := kept.stashable hb
    exact filled.stash _ hs
  | retire hb =>
    obtain ⟨hs, hx⟩ := kept.completable hb
    exact filled.complete hs hx

/-! ### Places -/

/-- The slot of a task at its place. -/
inductive Life.Fits : Life → Slot → Prop
  /-- With its caller, or about to be let go of. -/
  | resting {state : TaskState} : state = .unsubmitted ∨ state = .finished →
      Fits idle ⟨state, .caller, true, none⟩
  | queued {p : PoolId} {o : Ownership} : o ≠ .caller → Fits (queued p) ⟨.pending, o, true, none⟩
  /-- A worker has claimed the task and not begun. -/
  | claimed {p : PoolId} {i : ThreadId} {t : TaskId} {o : Ownership} : o ≠ .caller →
      Fits (carried p i (.holding t)) ⟨.pending, o, true, none⟩
  | running {p : PoolId} {i : ThreadId} {t : TaskId} {o : Ownership} : o ≠ .caller →
      Fits (carried p i (.running t)) ⟨.running, o, false, none⟩
  /-- The work has ended; the worker has both the work and the outcome. -/
  | ended {p : PoolId} {i : ThreadId} {t : TaskId} {o : Ownership} {x : Outcome} : o ≠ .caller →
      Fits (carried p i (.stashing t true x)) ⟨.running, o, false, none⟩
  | stashed {p : PoolId} {i : ThreadId} {t : TaskId} {o : Ownership} {x : Outcome}
      {returned : Bool} : o ≠ .caller →
      Fits (carried p i (.stashed t returned)) ⟨.running, o, true, some x⟩
  | counted {p : PoolId} {i : ThreadId} {t : TaskId} {o : Ownership} {x : Outcome} :
      o ≠ .caller → Fits (carried p i (.counted t)) ⟨.running, o, true, some x⟩
  /-- Nobody has joined or detached the task. -/
  | finished {x : Outcome} : Fits (done x) ⟨.finished, .pool, true, some x⟩
  | handedBack {x : Outcome} : Fits (done x) ⟨.finished, .detached, false, none⟩

/-- A slot in one of its states fits the place of the task, which is with nobody once the outcome is
given away. -/
theorem Record.At.fits {r : Record} {st : Stage} {life : Life} (hat : r.At st life)
    (filled : r.slot.Filled) :
    ∃ life' : Life, r.bearing = life'.bearing ∧ r.queued = life'.queue ∧ life'.Fits r.slot := by
  obtain ⟨hb, hq, -, agrees⟩ := hat
  cases life with
  | idle =>
    obtain ⟨state, hst, hslot⟩ := filled.of_caller agrees.2.1
    exact ⟨.idle, hb, hq, hslot ▸ .resting hst⟩
  | queued p =>
    obtain ⟨o, hne, hslot⟩ := filled.of_pending agrees.2.2.1
    exact ⟨.queued p, hb, hq, hslot ▸ .queued hne⟩
  | carried p i phase =>
    cases phase with
    | holding u =>
      obtain ⟨o, hne, hslot⟩ := filled.of_pending agrees.2.2.1
      exact ⟨_, hb, hq, hslot ▸ .claimed hne⟩
    | running u =>
      obtain ⟨-, -, hs, hout⟩ := agrees
      obtain ⟨o, hne, hslot | ⟨x, hslot⟩⟩ := filled.of_running hs
      · exact ⟨_, hb, hq, hslot ▸ .running hne⟩
      · simp [hslot] at hout
    | stashing u work x =>
      obtain ⟨-, -, hs, hout, rfl⟩ := agrees
      obtain ⟨o, hne, hslot | ⟨y, hslot⟩⟩ := filled.of_running hs
      · exact ⟨_, hb, hq, hslot ▸ .ended hne⟩
      · simp [hslot] at hout
    | stashed u returned =>
      obtain ⟨y, -, -, hs, hout, -⟩ := agrees
      obtain ⟨o, hne, hslot | ⟨x, hslot⟩⟩ := filled.of_running hs
      · simp [hslot] at hout
      · exact ⟨_, hb, hq, hslot ▸ .stashed hne⟩
    | counted u =>
      obtain ⟨y, -, -, hs, hout, -⟩ := agrees
      obtain ⟨o, hne, hslot | ⟨x, hslot⟩⟩ := filled.of_running hs
      · simp [hslot] at hout
      · exact ⟨_, hb, hq, hslot ▸ .counted hne⟩
    | _ => exact agrees.elim
  | done x =>
    obtain hslot | ⟨y, hslot⟩ | hslot := filled.of_finished agrees.2.1
    · exact ⟨.idle, hb, hq, hslot ▸ .resting (.inr rfl)⟩
    · exact ⟨.done y, hb, hq, hslot ▸ .finished⟩
    · exact ⟨.done x, hb, hq, hslot ▸ .handedBack⟩

namespace System

variable {s s' : System} {i : ThreadId} {es : List Event} {h : Trace} {callers : Nat}
  {task : Task} {bound : Bound} {rest : List Frame} {a : Action}

/-- The task is at this place and nowhere else: in this queue once, or in the hands of this worker,
or in no queue and in nobody's hands. -/
def Located (s : System) (t : TaskId) (life : Life) : Prop :=
  s.bearing t = life.bearing ∧ s.queued t = life.queue

/-- Every slot that something refers to is in one of its states. -/
theorem Run.filled (run : Run callers h s) (t : TaskId) : (s.task t).slot.Filled ∨ s.Gone t := by
  have both : (∀ t, (s.record t).Kept t h) ∧ ∀ t, (s.task t).slot.Filled ∨ s.Gone t :=
    run.keeps (P := fun h s => (∀ t, (s.record t).Kept t h) ∧
        ∀ t, (s.task t).slot.Filled ∨ s.Gone t)
      ⟨kept_start callers, fun t => .inl (.resting (.inl rfl))⟩
      fun {_ _ s _ _} _ ⟨kept, filled⟩ m => ⟨fun t => (kept t).change (m.change t), fun t => by
        rcases filled t with filled | gone
        · by_cases loose : (s.record t).Loose
          · rcases m.of_loose (kept t) loose with ⟨hslot, -⟩ | gone
            · exact .inl (hslot ▸ filled)
            · exact .inr gone
          · exact .inl ((m.change t).filled (kept t) filled loose)
        · exact .inr (gone.move (kept t) m)⟩
  exact both.2 t

/-- A task whose handle is there is not gone. -/
theorem Gone.not_handle (gone : s.Gone t) (ht : s.tasks[t]? = some task) : task.handle = false :=
  record_handle ht ▸ gone.loose.handle

theorem Gone.references (gone : s.Gone t) : s.references t = 0 := by
  cases ht : s.tasks[t]? with
  | none =>
    have hh : (s.task t).handle = false := gone.loose.handle
    simp [System.task, ht] at hh
  | some task => exact (gone_iff ht).mp gone

theorem Run.placed (run : Run callers h s) (href : s.references t ≠ 0) :
    ∃ life : Life, s.Located t life ∧ life.Fits (s.task t).slot := by
  obtain ⟨life, st, hat, -⟩ := run.kept t
  have filled := (run.filled t).resolve_right fun gone => href gone.references
  obtain ⟨life', hb, hq, fits⟩ := hat.fits filled
  exact ⟨life', ⟨hb, hq⟩, fits⟩

/-! ### Joins -/

/-- How a step of a join that found its task with a pool leaves the thread, or replies. -/
inductive JoinStep (i : ThreadId) (t : TaskId) (bound : Bound) : System → List Event → Prop
  | waits {s : System} {rest : List Frame} : s.Inside i (.awaitingOutcome t bound false :: rest) →
      JoinStep i t bound s []
  | value {s : System} (run : Nat) (v : Value) :
      JoinStep i t bound s [.joined t (some ⟨run, .value v⟩), .replied (.value run v)]
  | panicked {s : System} (run : Nat) (message : String) :
      JoinStep i t bound s [.joined t (some ⟨run, .panicked message⟩),
        .replied (.failed (.taskPanicked (LogRecord.number t) message))]
  | timeout {s : System} {nanos : Nat} (ms : Nat) : bound = some nanos →
      JoinStep i t bound s [.replied (.failed (.timeout ms))]

theorem joinStep_takeOutcome {x : Outcome} (hx : task.slot.outcome = some x) :
    JoinStep i t bound (s.takeOutcome i t task).1 (s.takeOutcome i t task).2 := by
  obtain ⟨run, ending⟩ := x
  cases ending with
  | value v =>
    simp only [takeOutcome, hx]
    exact .value run v
  | panicked message =>
    simp only [takeOutcome, hx]
    exact .panicked run message

/-- A finished task that a pool owns has an outcome for its handle. -/
theorem Run.outcome (run : Run callers h s) (ht : s.tasks[t]? = some task) (hh : task.handle)
    (ho : task.slot.ownership = .pool) (hs : task.slot.state = .finished) :
    ∃ x, task.slot.outcome = some x := by
  have filled : task.slot.Filled := by
    rcases run.filled t with filled | gone
    · exact task_eq ht ▸ filled
    · simp [gone.not_handle ht] at hh
  obtain hslot | ⟨x, hslot⟩ | hslot := filled.of_finished hs
  · simp [hslot] at ho
  · exact ⟨x, by rw [hslot]⟩
  · simp [hslot] at ho

theorem handle_of_canOwn (own : s.canOwn t) (ht : s.tasks[t]? = some task) : task.handle :=
  record_handle ht ▸ handle_of_canShare (canOwn_iff.mp own).1

/-- A join begins. -/
theorem Run.join_step {pick : Pick} (run : Run callers h s) (ht : s.tasks[t]? = some task)
    (ho : task.slot.ownership = .pool)
    (hs : s.step i (.call (.join t bound) pick) = some (s', es)) : JoinStep i t bound s' es := by
  obtain ⟨th, hth, hs⟩ := Option.bind_eq_some_iff.mp hs
  obtain ⟨-, own, hjoin⟩ :
      th.inUserCode ∧ s.canOwn t ∧ (s.inCall i).join i t task bound = (s', es) := by
    simpa [call?, ht, inCall] using hs
  have hh := handle_of_canOwn own ht
  unfold join at hjoin
  rw [if_neg (not_not.mpr ho)] at hjoin
  split at hjoin
  · next hst =>
    obtain ⟨x, hx⟩ := run.outcome ht hh ho hst
    have step : JoinStep i t bound ((s.inCall i).takeOutcome i t task).1
        ((s.inCall i).takeOutcome i t task).2 := joinStep_takeOutcome hx
    rwa [hjoin] at step
  · split at hjoin
    · next hbound =>
      cases hjoin
      exact .timeout 0 hbound
    · cases hjoin
      exact .waits (Inside.inCall hth).enter

/-- A join goes on, after a wake-up or at the end of its bound. -/
theorem Run.rejoin_step {woken : Bool} (run : Run callers h s)
    (hi : s.Inside i (.awaitingOutcome t bound woken :: rest)) (hs : s.step i a = some (s', es)) :
    JoinStep i t bound s' es := by
  have take {task : Task} (ht : s.tasks[t]? = some task) (hst : task.slot.state = .finished) :
      JoinStep i t bound (s.takeOutcome i t task).1 (s.takeOutcome i t task).2 := by
    have hh : s.standing t = some (true, .pool) := run.calls.relies.inside hi
    rw [standing_eq ht] at hh
    simp only [Option.some.injEq, Prod.mk.injEq] at hh
    obtain ⟨x, hx⟩ := run.outcome ht hh.1 hh.2 hst
    exact joinStep_takeOutcome hx
  obtain ⟨th, hth, hc⟩ := hi
  have hi : s.Inside i (.awaitingOutcome t bound woken :: rest) := ⟨th, hth, hc⟩
  cases a with
  | call op pick => simp [System.step, hth, Thread.inUserCode, hc] at hs
  | finish ending => simp [System.step, hth, finish?, hc] at hs
  | advance pick =>
    cases woken with
    | false => simp [System.step, hth, advance?, hc] at hs
    | true =>
      obtain ⟨task, ht, hjoin⟩ :
          ∃ task, s.tasks[t]? = some task ∧ s.resumeJoin i t task bound = (s', es) := by
        simpa [System.step, hth, advance?, hc, Option.bind_eq_some_iff] using hs
      unfold resumeJoin at hjoin
      split at hjoin
      · next hst =>
        have := take ht hst
        rwa [hjoin] at this
      · cases hjoin
        exact .waits hi.enter
  | expire =>
    cases bound with
    | none => simp [System.step, hth, expire?, hc] at hs
    | some nanos =>
      cases woken with
      | true => simp [System.step, hth, expire?, hc] at hs
      | false =>
        obtain ⟨task, ht, hjoin⟩ :
            ∃ task, s.tasks[t]? = some task ∧ s.expireJoin i t task nanos = (s', es) := by
          simpa [System.step, hth, expire?, hc, Option.bind_eq_some_iff] using hs
        unfold expireJoin at hjoin
        split at hjoin
        · next hst =>
          have := take ht hst
          rwa [hjoin] at this
        · cases hjoin
          exact .timeout _ rfl

/-! ### Handles -/

theorem Run.not_detached (run : Run callers h s) (ht : s.tasks[t]? = some task)
    (hh : task.handle) : task.slot.ownership ≠ .detached := by
  intro ho
  obtain ⟨life, st, hat, -⟩ := run.kept t
  have := hat.detached (by rw [record_slot ht, ho])
  rw [record_handle ht, hh] at this
  cases this

/-- Whoever detaches a task has it, or takes it from its pool. -/
theorem Run.detach_step {pick : Pick} (run : Run callers h s) (ht : s.tasks[t]? = some task)
    (hs : s.step i (.call (.detach t) pick) = some (s', es)) :
    (task.slot.ownership = .caller ∧ es = [.replied (.rejected .notSubmitted)]) ∨
      (task.slot.ownership = .pool ∧ es = []) := by
  obtain ⟨th, hth, hs⟩ := Option.bind_eq_some_iff.mp hs
  obtain ⟨-, own, hdetach⟩ :
      th.inUserCode ∧ s.canOwn t ∧ (s.inCall i).detach i t task = (s', es) := by
    simpa [call?, ht, inCall] using hs
  unfold detach at hdetach
  cases ho : task.slot.ownership with
  | caller =>
    rw [ho] at hdetach
    cases hdetach
    exact .inl ⟨rfl, rfl⟩
  | pool =>
    rw [ho] at hdetach
    simp only at hdetach
    split at hdetach
    · cases hdetach
      exact .inr ⟨rfl, rfl⟩
    · cases hdetach
      exact .inr ⟨rfl, rfl⟩
  | detached => exact absurd ho (run.not_detached ht (handle_of_canOwn own ht))

/-- What the slot of a task holds as long as something refers to it, and what the handle of the task
meets. -/
structure SlotSound (h : Trace) (s : System) (t : TaskId) : Prop where
  placed : s.references t ≠ 0 → ∃ life : Life, s.Located t life ∧ life.Fits (s.task t).slot
  /-- A task that nothing refers to has come to its end. -/
  gone : ∀ {task s'}, s.tasks[t]? = some task → s.references t = 0 → Later s s' →
    s'.references t = 0
  join : ∀ {i bound pick es s' task}, s.tasks[t]? = some task → task.slot.ownership = .pool →
    s.step i (.call (.join t bound) pick) = some (s', es) → JoinStep i t bound s' es
  rejoin : ∀ {i bound woken rest a es s'}, s.Inside i (.awaitingOutcome t bound woken :: rest) →
    s.step i a = some (s', es) → JoinStep i t bound s' es
  /-- No join has ever come back empty-handed. -/
  joined : ∀ {i r}, (i, .joined t r) ∈ h → r.isSome
  live : ∀ {task}, s.tasks[t]? = some task → task.handle → task.slot.ownership ≠ .detached
  detach : ∀ {i pick es s' task}, s.tasks[t]? = some task →
    s.step i (.call (.detach t) pick) = some (s', es) →
    (task.slot.ownership = .caller ∧ es = [.replied (.rejected .notSubmitted)]) ∨
      (task.slot.ownership = .pool ∧ es = [])

theorem Run.slot_sound (run : Run callers h s) (t : TaskId) : SlotSound h s t where
  placed := run.placed
  gone ht href later := (((gone_iff ht).mpr href).later run later).references
  join := run.join_step
  rejoin := run.rejoin_step
  joined {i r} hmem := by
    obtain ⟨life, st, -, story⟩ := run.kept t
    obtain ⟨h₁, h₂, rfl⟩ := List.append_of_mem hmem
    obtain ⟨o, rfl, -⟩ := story.joined_mem
    rfl
  live := run.not_detached
  detach := run.detach_step

/-- The work of a detached task has ended, and its worker has put the work and the outcome back. -/
theorem slot_sound_detached : ∃ h s, Run 1 h s ∧ s.references 0 ≠ 0 ∧
    (s.task 0).slot = ⟨.running, .detached, true, some ⟨1, .value .null⟩⟩ ∧ SlotSound h s 0 := by
  have run : Run 1 _ _ := run_of_replay [(0, .call (.createPool (.new 1)) 0),
    (0, .call (.createTask none) 0), (0, .call (.submit 0 0) 0), (1, .advance 0), (0, .advance 0),
    (1, .advance 0), (1, .advance 0), (0, .call (.detach 0) 0), (0, .advance 0), (0, .advance 0),
    (0, .advance 0), (0, .advance 0), (1, .finish (.ok .null)), (1, .advance 0)] rfl
  exact ⟨_, _, run, by decide, rfl, run.slot_sound 0⟩

end System

end WorkerPool
