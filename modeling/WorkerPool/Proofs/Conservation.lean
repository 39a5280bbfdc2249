import WorkerPool.Proofs.Accounts
import WorkerPool.Proofs.Fates

/-!
Conservation of outcomes.

The value that an invocation has returned is in one place: with its worker, in the slot, among the
leftovers of a detached task, with the call that detached the task after it had finished, joined or
destroyed. It never comes back from the last two. The join that ends a submission takes the outcome
of the invocation that the submission paid for.
-/
namespace WorkerPool

/-- Whether the outcome is the value of the given run. -/
def Outcome.isValueOf (run : Nat) (o : Outcome) : Bool := o.run = run ∧ o.returned

/-- Outcomes of the task with the property that a worker is letting go of in its loop, if
`releasing`, and otherwise that a call is letting go of. -/
def Frame.carriesAs (releasing : Bool) (t : TaskId) (q : Outcome → Bool) : Frame → Nat
  | disposing todo _ r => if r = releasing then todo.countP (Disposal.carries t q) else 0
  | _ => 0

namespace Trace

/-- A join is followed by its reply. -/
def Answered : Trace → Prop
  | [] => True
  | (i, .joined t r) :: h => h.head? = some (i, .replied (System.joinReply t r)) ∧ Answered h
  | _ :: h => Answered h

variable {h h' h₁ h₂ : Trace} {i : ThreadId} {t : TaskId} {r : Option Outcome}

theorem Answered.append (answered : Answered h) (answered' : Answered h') :
    Answered (h ++ h') := by
  induction h with
  | nil => exact answered'
  | cons x h ih =>
    obtain ⟨j, e⟩ := x
    cases e with
    | joined u r =>
      obtain ⟨hhead, answered⟩ := answered
      refine ⟨?_, ih answered⟩
      obtain ⟨h₃, rfl⟩ := List.head?_eq_some_iff.mp hhead
      rfl
    | _ => exact ih answered

theorem Answered.joined (answered : Answered (h₁ ++ (i, .joined t r) :: h₂)) :
    ∃ h₃, h₂ = (i, .replied (System.joinReply t r)) :: h₃ := by
  induction h₁ with
  | nil => exact (List.head?_eq_some_iff.mp answered.1)
  | cons x h₁ ih =>
    obtain ⟨j, e⟩ := x
    cases e with
    | joined u r => exact ih answered.2
    | _ => exact ih answered

theorem endings_eq_yielded (run : Nat) : h.endings t run = h.yielded t (·.run == run) := by
  unfold endings yielded
  congr 1
  funext e
  refine Bool.eq_iff_iff.mpr ?_
  cases e.2 <;> simp [Event.ends, Event.yields]

theorem yielded_le {q q' : Outcome → Bool} (hq : ∀ o, q o → q' o) :
    h.yielded t q ≤ h.yielded t q' := by
  apply List.countP_mono_left
  intro e _ he
  cases hev : e.2 with
  | ended u o =>
    obtain ⟨hu, ho⟩ : u = t ∧ q o := by simpa [hev, Event.yields] using he
    simp [Event.yields, hu, hq o ho]
  | _ => simp [hev, Event.yields] at he

theorem yielded_eq_zero {q : Outcome → Bool} (hq : ∀ i o, (i, .ended t o) ∈ h → q o = false) :
    h.yielded t q = 0 := by
  apply List.countP_eq_zero.mpr
  intro e hmem he
  obtain ⟨i, e⟩ := e
  cases e with
  | ended u o =>
    obtain ⟨rfl, ho⟩ : u = t ∧ q o := by simpa [Event.yields] using he
    simp [hq i o hmem] at ho
  | _ => simp [Event.yields] at he

end Trace

/-- What a story says of an invocation that has ended is in the trace. -/
theorem Story.ended_mem {employer : ThreadId → Option PoolId} {t : TaskId} {h : Trace} {st : Stage}
    {n : Nat} {o : Outcome} (story : Story employer t h st) (hst : st = .ended n o) :
    o.run = n ∧ ∃ i, (i, .ended t o) ∈ h := by
  induction story with
  | other i _ _ ih =>
    obtain ⟨ho, j, hj⟩ := ih hst
    exact ⟨ho, j, List.mem_append_left _ hj⟩
  | @ended h n p i o _ ho =>
    cases hst
    exact ⟨ho, i, by simp⟩
  | _ => cases hst

/-- A join ends the last submission and takes the outcome of its invocation. -/
theorem Story.joined_mem {employer : ThreadId → Option PoolId} {t : TaskId} {h₁ h₂ : Trace}
    {i : ThreadId} {r : Option Outcome} {st : Stage}
    (story : Story employer t (h₁ ++ (i, .joined t r) :: h₂) st) :
    ∃ o, r = some o ∧ o.run = h₁.submissions t ∧ ∃ j, (j, .ended t o) ∈ h₁ := by
  rw [List.append_cons] at story
  obtain ⟨st', story⟩ := story.before
  obtain ⟨-, hc⟩ | ⟨n, p, k, -, he, -⟩ | ⟨n, p, -, -, he, -⟩ | ⟨n, p, o, -, -, he, -⟩ |
    ⟨n, o, before, he, -⟩ := story.last
  · simp [Event.concerns] at hc
  · cases he
  · cases he
  · cases he
  · cases he
    obtain ⟨hrun, hmem⟩ := before.ended_mem rfl
    exact ⟨o, rfl, by rw [hrun, before.submissions_eq]; rfl, hmem⟩

namespace System

variable {s s' : System} {i : ThreadId} {t : TaskId} {q : Outcome → Bool} {h : Trace}
  {es : List Event} {callers : Nat} {o : Outcome}

/-! ### Places -/

/-- With the worker that is about to stash it. -/
def stashing (s : System) (t : TaskId) (q : Outcome → Bool) : Nat := s.tally (Thread.stashes t q)

/-- In the slot, until the destructor begins if the slot goes down with the last reference. -/
def slotted (s : System) (t : TaskId) (q : Outcome → Bool) : Nat :=
  s.stored t q + if (s.task t).slot.ownership = .pool then s.weight (Frame.carries t q) else 0

/-- Among the leftovers of a detached task, with the worker that releases it. -/
def leftover (s : System) (t : TaskId) (q : Outcome → Bool) : Nat :=
  if (s.task t).slot.ownership = .detached then s.weight (Frame.carriesAs true t q) else 0

/-- With the call that detached the task and took it from the slot. -/
def detaching (s : System) (t : TaskId) (q : Outcome → Bool) : Nat :=
  if (s.task t).slot.ownership = .caller then s.weight (Frame.carriesAs false t q) else 0

theorem weight_congr {g g' : Frame → Nat} (h : s.EachFrame fun f => g f = g' f) :
    s.weight g = s.weight g' := by
  unfold weight tally Thread.weigh
  congr 1
  apply List.map_congr_left
  intro th hth
  congr 1
  exact List.map_congr_left fun f hf => h th hth f hf

/-- A frame with an outcome of the task is of the kind that the owner of the task tells. -/
theorem Fates.carriesAs {f : Frame} {releasing : Bool} (fates : s.Fates f)
    (ho : ∀ r rest, (s.record t).slot.ownership.Fate t r rest → r = releasing) :
    f.carries t q = f.carriesAs releasing t q := by
  cases f with
  | disposing todo failure r =>
    by_cases hr : r = releasing
    · simp [Frame.carries, Frame.carriesAs, hr]
    · simp only [Frame.carries, Frame.carriesAs, hr, if_false, List.countP_eq_zero]
      intro d hd hc
      cases d with
      | outcome u o =>
        obtain ⟨rfl, -⟩ : u = t ∧ q o := by simpa [Disposal.carries] using hc
        obtain ⟨front, rest, rfl⟩ := List.append_of_mem hd
        exact hr (ho r rest (fates u o rest (List.suffix_append _ _)).2)
      | _ => simp [Disposal.carries] at hc
  | _ => rfl

/-- Whoever holds an outcome is in one of the places. -/
theorem holdings_eq (fates : s.EachFrame s.Fates) : s.holdings t q =
    s.stashing t q + s.slotted t q + s.leftover t q + s.detaching t q := by
  unfold holdings stashing slotted leftover detaching
  cases ho : (s.task t).slot.ownership with
  | caller =>
    have hcall : s.weight (Frame.carries t q) = s.weight (Frame.carriesAs false t q) :=
      weight_congr (fates.mono fun f hf => hf.carriesAs fun r rest fate => by
        have hown : (s.record t).slot.ownership = .caller := ho
        rw [hown] at fate
        exact fate.1)
    simp [hcall]
  | pool =>
    simp only [if_true, reduceCtorEq, if_false]
    omega
  | detached =>
    have hwork : s.weight (Frame.carries t q) = s.weight (Frame.carriesAs true t q) :=
      weight_congr (fates.mono fun f hf => hf.carriesAs fun r rest fate => by
        have hown : (s.record t).slot.ownership = .detached := ho
        rw [hown] at fate
        exact fate.1)
    simp [hwork]

/-- Somebody holds the outcome of the task. -/
inductive Holds (s : System) (t : TaskId) (o : Outcome) : Prop
  | stashing {i : ThreadId} {p : PoolId} {work : Bool} : s.Has i p (.stashing t work o) →
      Holds s t o
  | stored : (s.task t).slot.outcome = some o → Holds s t o
  | disposing {th : Thread} {todo : List Disposal} {failure : Option Payload} {releasing : Bool} :
      th ∈ s.threads → .disposing todo failure releasing ∈ th.calls → .outcome t o ∈ todo →
      Holds s t o

theorem Holds.holdings_pos (holds : s.Holds t o) (hq : q o) : s.holdings t q ≠ 0 := by
  intro hz
  obtain ⟨⟨hstash, hstore⟩, hweight⟩ : (s.tally (Thread.stashes t q) = 0 ∧ s.stored t q = 0) ∧
      s.weight (Frame.carries t q) = 0 := by
    simpa [holdings] using hz
  cases holds with
  | stashing has =>
    obtain ⟨th, k, hth, hr⟩ := has
    have := tally_eq_zero.mp hstash th (List.mem_of_getElem? hth)
    simp [Thread.stashes, hr, Phase.stashes, hq] at this
  | stored hout => simp [System.stored, hout, hq] at hstore
  | disposing hth hf hmem =>
    have := weight_eq_zero.mp hweight _ hth _ hf
    have := List.countP_eq_zero.mp this _ hmem
    simp [Disposal.carries, hq] at this

/-! ### Replies of joins -/

theorem Move.answered (m : Move i s es s') : Trace.Answered (es.map (i, ·)) := by
  cases m with
  | take _ _ _ _ _ _ => exact ⟨rfl, trivial⟩
  | endWork _ _ _ _ => trivial
  | destroy _ _ => trivial
  | leave _ _ he => rcases he with rfl | ⟨r, rfl⟩ <;> trivial
  | count _ _ _ => split <;> trivial
  | retire _ _ _ => split <;> trivial
  | _ => trivial

theorem Run.answered (run : Run callers h s) : h.Answered :=
  run.keeps (P := fun h _ => h.Answered) trivial fun _ answered m => answered.append m.answered

/-! ### Conservation -/

/-- What a run shows about the outcomes of one task. -/
structure Conserved (h : Trace) (s : System) (t : TaskId) : Prop where
  /-- A value that an invocation has returned is in exactly one place. -/
  one_place : ∀ i run v, (i, .ended t ⟨run, .value v⟩) ∈ h →
    s.stashing t (·.isValueOf run) + s.slotted t (·.isValueOf run) +
      s.leftover t (·.isValueOf run) + s.detaching t (·.isValueOf run) +
      h.handed t (·.isValueOf run) + (h.destroyed t).count run = 1
  /-- A value that no invocation has returned is in no place. -/
  no_place : ∀ run, (∀ i v, (i, .ended t ⟨run, .value v⟩) ∉ h) →
    s.stashing t (·.isValueOf run) + s.slotted t (·.isValueOf run) +
      s.leftover t (·.isValueOf run) + s.detaching t (·.isValueOf run) +
      h.handed t (·.isValueOf run) + (h.destroyed t).count run = 0
  /-- Whoever holds an outcome holds one that an invocation has ended with. -/
  genuine : ∀ o, s.Holds t o → ∃ i, (i, .ended t o) ∈ h
  /-- No outcome, be it a value or a panic, is joined twice. -/
  joined_once : ∀ run, h.handed t (·.run == run) ≤ 1
  /-- The join that ends the submission number `k` returns the outcome of invocation number `k`. -/
  in_order : ∀ (h₁ h₂ : Trace) i r, h = h₁ ++ (i, .joined t r) :: h₂ →
    ∃ k j h₃, k = h₁.submissions t ∧
    ((∃ v, (j, .ended t ⟨k, .value v⟩) ∈ h₁ ∧ h₂ = (i, .replied (.value k v)) :: h₃) ∨
      ∃ m, (j, .ended t ⟨k, .panicked m⟩) ∈ h₁ ∧
        h₂ = (i, .replied (.failed (.taskPanicked (LogRecord.number t) m))) :: h₃)

theorem Accounts.count_destroyed {gone : List Outcome} (acc : Accounts h s t gone) (run : Nat) :
    (h.destroyed t).count run = gone.countP (·.isValueOf run) := by
  rw [acc.destroyed, List.count_eq_countP, List.countP_map, List.countP_filter]
  apply List.countP_congr
  intro o _
  simp [Outcome.isValueOf]

/-- The places of a value, counted. -/
theorem Accounts.places {gone : List Outcome} (acc : Accounts h s t gone)
    (each : s.EachFrame s.Fates) (n : Nat) :
    s.stashing t (·.isValueOf n) + s.slotted t (·.isValueOf n) +
      s.leftover t (·.isValueOf n) + s.detaching t (·.isValueOf n) +
      h.handed t (·.isValueOf n) + (h.destroyed t).count n = h.yielded t (·.isValueOf n) := by
  rw [acc.count_destroyed, ← holdings_eq each]
  exact acc.balance _

theorem Accounts.genuine {gone : List Outcome} {o : Outcome} (acc : Accounts h s t gone)
    (holds : s.Holds t o) : ∃ i, (i, .ended t o) ∈ h := by
  by_contra hno
  classical
  have hzero : h.yielded t (fun x => x = o) = 0 :=
    Trace.yielded_eq_zero fun j x hmem => decide_eq_false fun hx => hno ⟨j, hx ▸ hmem⟩
  have := acc.balance fun x => x = o
  have := holds.holdings_pos (q := fun x => x = o) (by simp)
  omega

/-- A join answers with the outcome of the last invocation, which the last submission has paid
for. -/
theorem Run.joined {h₁ h₂ : Trace} {i : ThreadId} {r : Option Outcome}
    (run : Run callers (h₁ ++ (i, .joined t r) :: h₂) s) :
    ∃ k j h₃, k = h₁.submissions t ∧
    ((∃ v, (j, .ended t ⟨k, .value v⟩) ∈ h₁ ∧ h₂ = (i, .replied (.value k v)) :: h₃) ∨
      ∃ m, (j, .ended t ⟨k, .panicked m⟩) ∈ h₁ ∧
        h₂ = (i, .replied (.failed (.taskPanicked (LogRecord.number t) m))) :: h₃) := by
  obtain ⟨life, st, -, story⟩ := run.kept t
  obtain ⟨o, rfl, hrun, j, hmem⟩ := story.joined_mem
  obtain ⟨h₃, rfl⟩ := run.answered.joined
  obtain ⟨n, ending⟩ := o
  cases hrun
  refine ⟨_, j, h₃, rfl, ?_⟩
  cases ending with
  | value v => exact .inl ⟨v, hmem, rfl⟩
  | panicked m => exact .inr ⟨m, hmem, rfl⟩

theorem Run.conserved (run : Run callers h s) (t : TaskId) : Conserved h s t := by
  obtain ⟨gone, acc⟩ := run.accounts t
  obtain ⟨life, st, -, story⟩ := run.kept t
  have endings_le (n : Nat) : h.endings t n ≤ 1 := by
    rw [story.endings_eq]
    split <;> omega
  refine ⟨fun i n v hmem => ?_, fun n hno => ?_, fun o holds => acc.genuine holds, fun n => ?_,
    fun h₁ h₂ i r hsplit => ?_⟩
  · have hle : h.yielded t (·.isValueOf n) ≤ h.endings t n := by
      rw [Trace.endings_eq_yielded]
      apply Trace.yielded_le
      intro o ho
      simp only [Outcome.isValueOf, decide_eq_true_eq] at ho
      simp [ho.1]
    have hpos : 0 < h.yielded t (·.isValueOf n) :=
      List.countP_pos_iff.mpr ⟨_, hmem, by simp [Event.yields, Outcome.isValueOf, Outcome.returned]⟩
    have := endings_le n
    rw [acc.places run.fates]
    omega
  · rw [acc.places run.fates]
    apply Trace.yielded_eq_zero
    intro j o hmem
    obtain ⟨m, ending⟩ := o
    cases ending with
    | value v =>
      have hne : m ≠ n := fun hmn => hno j v (hmn ▸ hmem)
      simp [Outcome.isValueOf, hne]
    | panicked m => simp [Outcome.isValueOf, Outcome.returned]
  · have := acc.balance (·.run == n)
    have := endings_le n
    rw [Trace.endings_eq_yielded] at this
    omega
  · subst hsplit
    exact run.joined

/-- The value of the first run has been joined; that of the second one, which was left over when the
task was detached, has been destroyed. -/
theorem conserved_detached : ∃ h s, Run 1 h s ∧ h.handed 0 (·.isValueOf 1) = 1 ∧
    h.destroyed 0 = [2] ∧ Conserved h s 0 := by
  have run : Run 1 _ _ := run_of_replay [(0, .call (.createPool (.new 1)) 0),
    (0, .call (.createTask none) 0), (0, .call (.submit 0 0) 0), (1, .advance 0), (0, .advance 0),
    (1, .advance 0), (1, .advance 0), (1, .finish (.ok .null)), (1, .advance 0), (1, .advance 0),
    (1, .advance 0), (0, .call (.join 0 none) 0), (0, .call (.submit 0 0) 0), (1, .advance 0),
    (1, .advance 0), (1, .advance 0), (1, .advance 0), (0, .call (.detach 0) 0),
    (1, .finish (.ok .null)), (1, .advance 0), (1, .advance 0), (1, .advance 0), (1, .advance 0),
    (1, .advance 0)] rfl
  exact ⟨_, _, run, rfl, rfl, run.conserved 0⟩

end System

end WorkerPool
