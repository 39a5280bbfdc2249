import WorkerPool.Proofs.Conservation
import WorkerPool.Proofs.Lockstep
import WorkerPool.Proofs.Todos

/-!
Handles that are given up, in two ways.

A detachment and the drop of a handle differ in what the thread has yet to let go of, and in the
slot of a task that has finished before. A mask rewrites just that; the state after one of them,
masked, is the state after the other one. A step that the mask does not show lets go of one of the
things in question.
-/
namespace WorkerPool

namespace Trace

/-- What a trace shows of user code. -/
def code (h : Trace) : Trace := h.filter (·.2.isCode)

theorem code_append (h h' : Trace) : code (h ++ h') = h.code ++ h'.code := List.filter_append _ _

theorem code_map (i : ThreadId) (es : List Event) :
    code (es.map (i, ·)) = (es.filter Event.isCode).map (i, ·) := by
  rw [code, List.filter_map]
  rfl

/-- What a trace shows of user code, but for some events. -/
def codeBut (hidden : Event → Bool) (h : Trace) : Trace := h.code.filter fun e => !hidden e.2

theorem codeBut_append (hidden : Event → Bool) (h h' : Trace) :
    codeBut hidden (h ++ h') = h.codeBut hidden ++ h'.codeBut hidden := by
  rw [codeBut, code_append, List.filter_append]
  rfl

theorem codeBut_of_code {hidden : Event → Bool} {h h' : Trace} (same : h.code = h'.code) :
    h.codeBut hidden = h'.codeBut hidden := by
  rw [codeBut, same, codeBut]

end Trace

/-- Whether the destructor of a value of the task begins, if values matter. -/
def Event.destroysValue (t : TaskId) (values : Bool) (e : Event) : Bool :=
  values && (e.destroyed? t).isSome

/-- Whether the thing is the handle of the task, or tells that the task was detached. -/
def Disposal.gives (t : TaskId) : Disposal → Bool
  | handle u | record (.detached u) => u == t
  | _ => false

/-- Whether the thing is an outcome of the task. -/
def Disposal.comesOut (t : TaskId) : Disposal → Bool
  | outcome u _ => u == t
  | _ => false

/-- Nothing is destroyed for the thing: it is the handle of the task, the record of its detachment,
or the panic of an invocation. -/
def Disposal.isSilent (t : TaskId) (d : Disposal) : Bool :=
  d.gives t || (d.comesOut t && d.remains?.isNone)

/-- Rewrites a given handle to the task into a mere reference, and takes the outcome of the task out
of the slot and of what is let go of. -/
def Mask.parting (t : TaskId) (given taken : Bool) : Mask where
  slot u slot := if taken && u == t then slot.release else slot
  item
    | .outcome u o => if taken && u == t then none else some (.outcome u o)
    | .handle u => if given && u == t then some (.reference u) else some (.handle u)
    | .record (.detached u) => if given && u == t then none else some (.record (.detached u))
    | d => some d

namespace Mask

variable {t u : TaskId} {given taken : Bool} {d : Disposal}

theorem parting_item (hg : given → d.gives t = false) (ho : taken → d.comesOut t = false) :
    (parting t given taken).item d = some d := by
  cases d with
  | outcome u o => cases taken <;> simp_all [parting, Disposal.comesOut]
  | handle u => cases given <;> simp_all [parting, Disposal.gives]
  | record r => cases r <;> cases given <;> simp_all [parting, Disposal.gives]
  | _ => rfl

theorem parting_lawful : (parting t given taken).Lawful where
  holds u todo failure releasing := by
    simp only [Frame.holds, List.countP_filterMap]
    refine List.countP_congr fun d _ => ?_
    cases d with
    | outcome v o => cases taken <;> by_cases hv : v = t <;> simp [parting, hv]
    | handle v => cases given <;> by_cases hv : v = t <;> simp [parting, hv]
    | record r =>
      cases r with
      | detached v => cases given <;> by_cases hv : v = t <;> simp [parting, hv]
      | _ => simp [parting]
    | _ => simp [parting]
  reference _ := rfl
  contents u slot := by
    obtain ⟨state, ownership, work, outcome⟩ := slot
    cases taken <;> by_cases hu : u = t <;> cases work <;> cases outcome <;>
      simp [parting, Slot.contents, Slot.release, hu]
  clear u slot := by
    simp only [parting]
    split <;> rfl
  calm := rfl
  completed _ _ := rfl
  panicked _ _ := rfl

/-- The mask rewrites nothing of other tasks. -/
theorem parting_shares (hu : u ≠ t) : (parting t given taken).Shares u where
  slot slot := by simp [parting, hu]
  outcome o := parting_item (fun _ => rfl) fun _ => by simp [Disposal.comesOut, hu]
  work := rfl
  handle := parting_item (fun _ => by simp [Disposal.gives, hu]) fun _ => rfl
  record := parting_item (fun _ => by simp [Disposal.gives, hu]) fun _ => rfl

theorem parting_plain : (parting t given false).Plain t where
  slot slot := by simp [parting]
  outcome o := rfl
  work := rfl

end Mask

/-- No invocation of a loose task ends. -/
theorem Record.Change.unyielding {i : ThreadId} {t : TaskId} {es : List Event} {r r' : Record}
    (c : r.Change i t es r') (loose : r.Loose) {q : Outcome → Bool} :
    ∀ e ∈ es, e.yields t q = false := by
  obtain ⟨hh, hb, hq⟩ := loose
  have other (e : Event) (he : e.concerns t = false) : e.yields t q = false := by
    cases e <;> simp_all [Event.concerns, Event.yields]
  cases c with
  | same he | hire _ he | abandon _ _ he => exact fun e hmem => other e (he e hmem)
  | accept handle | take handle | surrender handle => simp [hh] at handle
  | clear => simp
  | claim queued => simp [hq] at queued
  | begin bearing | beginEmpty bearing | endWork bearing | stash bearing | count bearing
  | retire bearing => simp [hb] at bearing

namespace Slot

variable {t : TaskId} {slot : Slot} {d : Disposal}

/-- What comes out of a slot is no handle. -/
theorem gives_contents (hd : d ∈ slot.contents t) : d.gives t = false := by
  rcases List.mem_append.mp hd with hd | hd
  · cases hw : slot.work <;> simp_all [Disposal.gives]
  · obtain ⟨o, -, rfl⟩ := List.mem_map.mp hd
    rfl

theorem gives_leftovers (hd : d ∈ slot.leftovers t) : d.gives t = false := by
  unfold leftovers at hd
  split at hd
  · rcases List.mem_append.mp hd with hd | hd
    · obtain ⟨o, -, rfl⟩ := List.mem_map.mp hd
      rfl
    · cases hw : slot.work <;> simp_all [Disposal.gives]
  · cases hd

end Slot

namespace System

variable {callers : Nat} {h : Trace} {s s' : System} {i j : ThreadId} {a : Action}
  {es : List Event} {t u : TaskId} {given taken : Bool} {f : Frame} {rest : List Frame}
  {todo : List Disposal} {failure : Option Payload} {releasing : Bool} {d : Disposal}

/-- If what tells of a handle is not rewritten, no handle of the task is given up. -/
def Parting (t : TaskId) (given : Bool) (_ : ThreadId) (todo : List Disposal) : Prop :=
  ∀ d ∈ todo, d.gives t → given

theorem ebbing_parting : Disposal.Ebbing t (Parting t given) where
  nil _ := nofun
  tail _ _ _ hl := (List.forall_mem_cons.mp hl).2
  cons _ d _ hd hl := by
    refine List.forall_mem_cons.mpr ⟨fun h => ?_, hl⟩
    cases d with
    | record r => cases r <;> simp_all [Disposal.gives, Disposal.about]
    | _ => simp_all [Disposal.gives, Disposal.about]
  refer _ _ _ hl := List.forall_mem_cons.mpr ⟨nofun, (List.forall_mem_cons.mp hl).2⟩

/-- The task has been given up, and its pool will not run it; no worker has it in hands if its
outcome is taken out. -/
structure Parted (s : System) (t : TaskId) (given taken : Bool) : Prop where
  isOver : (s.record t).Over
  loose : taken → (s.record t).Loose
  todos : s.Todos (Parting t given)

theorem Parted.move (parted : s.Parted t given taken) (kept : (s.record t).Kept t h)
    (m : Move j s es s') : s'.Parted t given taken := by
  have change := m.change t
  refine ⟨(change.over_kept kept parted.isOver).1, fun ht => change.loose (parted.loose ht), ?_⟩
  refine parted.todos.move ebbing_parting m ⟨fun _ hh => ?_, fun _ l hl => ?_, fun _ _ => ?_⟩
  · simp [parted.isOver.1] at hh
  · exact List.forall_mem_append.mpr
      ⟨fun d hd h => by simp [Slot.gives_contents hd] at h, hl⟩
  · exact List.forall_mem_cons.mpr
      ⟨nofun, fun d hd h => by simp [Slot.gives_leftovers hd] at h⟩

theorem Parted.moves (parted : s.Parted t given taken) (kept : (s.record t).Kept t h)
    (ms : Moves j s es s') : s'.Parted t given taken := by
  induction ms generalizing h with
  | nil => exact parted
  | cons m _ ih => exact ih (parted.move kept m) (kept.change (m.change t))

/-! ### Steps -/

theorem Parted.exists (parted : s.Parted t given taken) : ∃ task, s.tasks[t]? = some task ∧
    task.handle = false := by
  have hh := parted.isOver.1
  cases ht : s.tasks[t]? with
  | none => simp [record, System.task, ht] at hh
  | some task => exact ⟨task, rfl, record_handle ht ▸ hh⟩

/-- Who uses a handle does not use the one that was given up. -/
theorem Parted.ne_of_standing {o : Ownership} (parted : s.Parted t given taken)
    (hs : s.standing u = some (true, o)) : u ≠ t := by
  rintro rfl
  obtain ⟨task, ht, hh⟩ := parted.exists
  simp [standing_eq ht, hh] at hs

theorem Parted.plain {th : Thread} {p : PoolId} {k : Nat} {phase : Phase}
    (parted : s.Parted t given taken) (hth : s.threads[j]? = some th)
    (hr : th.role = .worker p k phase) (hu : phase.task? = some u) :
    (Mask.parting t given taken).Plain u := by
  by_cases ht : u = t
  · subst ht
    cases taken with
    | false => exact Mask.parting_plain
    | true =>
      have hb := congrFun (parted.loose rfl).bearing j
      simp [record, System.bearing, hth, Thread.bears, hr, Phase.bears_self hu] at hb
  · exact (Mask.parting_shares ht).toPlain

/-- What the thread lets go of next shows in the masked state. -/
def Shows (s : System) (m : Mask) (j : ThreadId) : Prop :=
  ∀ d todo failure releasing rest,
    s.Inside j (.disposing (d :: todo) failure releasing :: rest) → m.Keeps d

/-- A step that lets go of nothing in question shows in the masked state. -/
theorem Parted.fits (run : Run callers h s) (parted : s.Parted t given taken)
    (keeps : s.Shows (Mask.parting t given taken) j) :
    ∀ th, s.threads[j]? = some th → (Mask.parting t given taken).Fits s th a := by
  intro th hth
  obtain ⟨own, ht, hh⟩ := parted.exists
  refine ⟨?_, rfl, fun u task hu handle => ?_, fun f rest hc => ?_, fun p k phase hc hr => ?_,
    fun _ _ _ _ _ _ => rfl⟩
  · exact (Mask.parting_shares (List.getElem?_eq_some_iff.mp ht).1.ne').toPlain
  · refine Mask.parting_shares fun htu => ?_
    subst htu
    simp_all
  · have relies := run.calls.relies.inside ⟨th, hth, hc⟩
    cases f with
    | awaitingWorker p u woken =>
      obtain ⟨o, standing⟩ := relies
      exact (Mask.parting_shares (parted.ne_of_standing standing)).toPlain
    | awaitingOutcome u bound woken =>
      exact (Mask.parting_shares (parted.ne_of_standing relies)).toPlain
    | disposing todo failure releasing =>
      cases todo with
      | nil => trivial
      | cons d todo => exact keeps d todo failure releasing rest ⟨th, hth, hc⟩
    | _ => trivial
  · have plain (u : TaskId) (hu : phase.task? = some u) := parted.plain hth hr hu
    cases phase with
    | holding u => exact ⟨plain u rfl, fun _ _ _ _ => rfl⟩
    | running u => exact fun _ _ _ => rfl
    | stashing u work o => exact ⟨plain u rfl, rfl⟩
    | stashed u returned => rfl
    | counted u => exact plain u rfl
    | _ => trivial

theorem Mask.keeps_or (d : Disposal) : (Mask.parting t given taken).Keeps d ∨ d.gives t ∨
    (taken ∧ d.comesOut t) := by
  by_cases hg : d.gives t
  · exact .inr (.inl hg)
  by_cases ho : taken ∧ d.comesOut t
  · exact .inr (.inr ho)
  left
  have item : (Mask.parting t given taken).item d = some d :=
    Mask.parting_item (fun _ => by simpa using hg) fun ht => by simpa [ht] using ho
  cases d with
  | outcome u o => exact ⟨o, item, rfl, rfl⟩
  | handle u => exact Mask.parting_shares (by simpa [Disposal.gives] using hg)
  | record r => exact ⟨r, item⟩
  | work u => exact item
  | reference u => trivial

theorem Parted.step (run : Run callers h s) (parted : s.Parted t given taken)
    (hs : s.step j a = some (s', es)) : s'.Parted t given taken :=
  parted.moves (run.kept t) (moves_of_step run.calls hs)

theorem Parted.replay {h' : Trace} {σ : List (ThreadId × Action)} (run : Run callers h s)
    (parted : s.Parted t given taken) (hr : s.replay σ = some (h', s')) :
    s'.Parted t given taken :=
  run.along (P := fun _ s => s.Parted t given taken) hr parted
    fun run parted hs => parted.step run hs

theorem enter_self (hi : s.Inside i (f :: rest)) : s.enter i f = s := by
  obtain ⟨th, hth, hc⟩ := hi
  have same : th.replace f = th := by
    obtain ⟨role, calls, spans⟩ := th
    obtain rfl : calls = f :: rest := hc
    rfl
  have threads : s.threads.modify i (·.replace f) = s.threads := by
    apply List.ext_getElem?
    intro j
    rw [List.getElem?_modify]
    split
    · next hij => simp [← hij, hth, same]
    · simp
  simp [enter, onThread, threads]

/-- What looks the same with the mask as before. -/
theorem Mask.apply_enter_same {m : Mask} {f' : Frame} (hi : s.Inside i (f :: rest))
    (hf : m.frame f' = m.frame f) : m.apply (s.enter i f') = m.apply s := by
  obtain ⟨th, hth, hc⟩ := hi
  have hi' : (m.apply s).Inside i (m.frame f :: rest.map m.frame) :=
    ⟨m.thread th, by simp [hth], by simp [hc]⟩
  rw [Mask.apply_enter, hf, enter_self hi']

/-- The handle of a task that no pool will run goes without any more ado. -/
theorem dispose_handle {th : Thread} {task : Task} (isOver : (s.record t).Over)
    (ht : s.tasks[t]? = some task) : s.dispose i th (.handle t :: todo) failure releasing =
      (s.enter i (.disposing (.reference t :: todo) failure releasing), []) := by
  have settled : task.slot.isOutstanding = false := by
    have ho := isOver.2
    rw [record_slot ht] at ho
    simp only [Slot.isOutstanding, decide_eq_false_iff_not]
    rintro ⟨h₁, h₂⟩
    exact ho.elim (· h₁) (h₂ ·)
  simp [dispose, ht, settled]

/-- What does not show in the masked state is silent, or a value that was taken out. -/
theorem silent_or_value (hd : ¬ (Mask.parting t given taken).Keeps d) : d.isSilent t ∨
    taken ∧ ∃ o, d = .outcome t o ∧ o.returned := by
  obtain hg | ⟨ht, ho⟩ := (Mask.keeps_or d).resolve_left hd
  · exact .inl (by simp [Disposal.isSilent, hg])
  · obtain ⟨o, rfl⟩ : ∃ o, d = .outcome t o := by
      cases d <;> simp_all [Disposal.comesOut]
    cases hr : o.returned with
    | true => exact .inr ⟨ht, o, rfl, hr⟩
    | false => exact .inl (by simp [Disposal.isSilent, ho, Disposal.remains?, hr])

/-- What was hidden and is silent goes in one step, and all that is left is a reference. -/
theorem Parted.dispose (th : Thread) (parted : s.Parted t given taken)
    (hi : s.Inside j (.disposing (d :: todo) failure releasing :: rest))
    (hidden : ¬ (Mask.parting t given taken).Keeps d) (silent : d.isSilent t) :
    ∃ es todo', s.dispose j th (d :: todo) failure releasing =
        (s.enter j (.disposing todo' failure releasing), es) ∧ es.filter Event.isCode = [] ∧
      (todo' = todo ∨ todo' = .reference t :: todo) ∧
      (Mask.parting t given taken).frame (.disposing todo' failure releasing) =
        (Mask.parting t given taken).frame (.disposing (d :: todo) failure releasing) := by
  have each : Parting t given j (d :: todo) := parted.todos.inside hi
  have gives : d.gives t → given := each d (.head _)
  cases d with
  | outcome u o =>
    obtain ⟨hu, ho⟩ : u = t ∧ o.returned = false := by
      simpa [Disposal.isSilent, Disposal.gives, Disposal.comesOut, Disposal.remains?] using silent
    subst hu
    obtain ⟨rfl, -⟩ : taken ∧ _ :=
      ((Mask.keeps_or _).resolve_left hidden).resolve_left (by simp [Disposal.gives])
    refine ⟨[], todo, ?_, rfl, .inl rfl, ?_⟩
    · simp [System.dispose, ho]
    · simp [Mask.frame, Mask.parting]
  | handle u =>
    have hg : (Disposal.handle u).gives t := by
      simpa [Disposal.isSilent, Disposal.comesOut] using silent
    obtain rfl : u = t := by simpa [Disposal.gives] using hg
    obtain ⟨task, ht, -⟩ := parted.exists
    refine ⟨[], .reference u :: todo, dispose_handle parted.isOver ht, rfl, .inr rfl, ?_⟩
    simp [Mask.frame, Mask.parting, gives hg]
  | record r =>
    have hg : (Disposal.record r).gives t := by
      simpa [Disposal.isSilent, Disposal.comesOut] using silent
    obtain rfl : r = .detached t := by
      cases r <;> simp_all [Disposal.gives]
    refine ⟨_, todo, rfl, ?_, .inl rfl, ?_⟩
    · split <;> rfl
    · simp [Mask.frame, Mask.parting, gives hg]
  | work u => simp [Disposal.isSilent, Disposal.gives, Disposal.comesOut] at silent
  | reference u => simp [Disposal.isSilent, Disposal.gives, Disposal.comesOut] at silent

/-! ### Values -/

/-- Nothing comes back to a loose task. -/
theorem Moves.loose (ms : Moves j s es s') (loose : (s.record t).Loose) {q : Outcome → Bool} :
    (s'.record t).Loose ∧ ∀ e ∈ es, e.yields t q = false := by
  induction ms with
  | nil => exact ⟨loose, nofun⟩
  | cons m _ ih =>
    have change := m.change t
    obtain ⟨loose', quiet⟩ := ih (change.loose loose)
    exact ⟨loose', List.forall_mem_append.mpr ⟨change.unyielding loose, quiet⟩⟩

theorem Run.unyielding {h' : Trace} {σ : List (ThreadId × Action)} (run : Run callers h s)
    (loose : (s.record t).Loose) (hr : s.replay σ = some (h', s')) {q : Outcome → Bool} :
    (s'.record t).Loose ∧ h'.yielded t q = 0 := by
  have kept := run.along (P := fun g s => (s.record t).Loose ∧ g.yielded t q = h.yielded t q) hr
    ⟨loose, rfl⟩ fun {g s j a es s'} run ⟨loose, same⟩ hs => by
      obtain ⟨loose', quiet⟩ := (moves_of_step run.calls hs).loose loose (q := q)
      have none : Trace.yielded (es.map (j, ·)) t q = 0 := by simpa [Trace.yielded] using quiet
      exact ⟨loose', by rw [Trace.yielded_append, none, same, Nat.add_zero]⟩
  have sum : Trace.yielded (h ++ h') t q = h.yielded t q + h'.yielded t q := Trace.yielded_append
  exact ⟨kept.1, by omega⟩

/-- The values of a task are held, handed over or destroyed. -/
theorem Run.balance {h' : Trace} (run : Run callers h s) (run' : Run callers (h ++ h') s') :
    s'.holdings t (·.returned) + Trace.handed h' t (·.returned) + (Trace.destroyed h' t).length =
      s.holdings t (·.returned) + Trace.yielded h' t (·.returned) := by
  obtain ⟨gone, acc⟩ := run.accounts t
  obtain ⟨gone', acc'⟩ := run'.accounts t
  have count := congrArg List.length acc.destroyed
  have count' := congrArg List.length acc'.destroyed
  have balance := acc.balance (·.returned)
  have balance' := acc'.balance (·.returned)
  rw [Trace.destroyed_append, List.length_append, List.length_map,
    ← List.countP_eq_length_filter] at count'
  rw [List.length_map, ← List.countP_eq_length_filter] at count
  rw [Trace.handed_append, Trace.yielded_append] at balance'
  omega

theorem Run.spent {h' : Trace} {σ : List (ThreadId × Action)} (run : Run callers h s)
    (loose : (s.record t).Loose) (hr : s.replay σ = some (h', s')) :
    s'.holdings t (·.returned) + Trace.handed h' t (·.returned) + (Trace.destroyed h' t).length =
      s.holdings t (·.returned) := by
  have balance := run.balance (run.replay hr) (t := t)
  have quiet := (run.unyielding loose hr (q := (·.returned))).2
  omega

theorem Run.valueless {h' : Trace} {σ : List (ThreadId × Action)} (run : Run callers h s)
    (loose : (s.record t).Loose) (values : s.holdings t (·.returned) = 0)
    (hr : s.replay σ = some (h', s')) : s'.holdings t (·.returned) = 0 := by
  have := run.spent loose hr
  omega

/-- If no value of the task is held, what is let go of is none. -/
theorem remains_of_valueless (values : s.holdings t (·.returned) = 0)
    (hi : s.Inside j (.disposing (d :: todo) failure releasing :: rest)) (hd : d.comesOut t) :
    d.remains? = none := by
  have none : s.weight (Frame.carries t (·.returned)) = 0 := by
    unfold holdings at values
    omega
  have carried := (le_weight hi).trans_eq none
  cases d with
  | outcome u o =>
    have hu : u = t := by simpa [Disposal.comesOut] using hd
    simp_all [Frame.carries, Disposal.carries, Disposal.remains?]
  | _ => simp [Disposal.comesOut] at hd

/-! ### Runs -/

/-- The second schedule is the first one without some steps in which a thread lets go of something
silent of the task, and perhaps without some in which it lets go of a value of the task whose
destructor calls nothing and returns. -/
inductive Trims (t : TaskId) (values : Bool) :
    System → List (ThreadId × Action) → List (ThreadId × Action) → Prop
  | nil (s : System) : Trims t values s [] []
  | both {s s' : System} {j : ThreadId} {a : Action} {es : List Event}
      {σ σ' : List (ThreadId × Action)} : s.step j a = some (s', es) → Trims t values s' σ σ' →
      Trims t values s ((j, a) :: σ) ((j, a) :: σ')
  | shed {s s' : System} {j : ThreadId} {pick : Pick} {es : List Event} {d : Disposal}
      {todo : List Disposal} {failure : Option Payload} {releasing : Bool} {rest : List Frame}
      {σ σ' : List (ThreadId × Action)} :
      s.Inside j (.disposing (d :: todo) failure releasing :: rest) → d.isSilent t →
      s.step j (.advance pick) = some (s', es) → Trims t values s' σ σ' →
      Trims t values s ((j, .advance pick) :: σ) σ'
  | destroy {s s' : System} {j : ThreadId} {h : Trace} {o : Outcome} {todo : List Disposal}
      {failure : Option Payload} {releasing : Bool} {rest : List Frame}
      {σ σ' : List (ThreadId × Action)} : values →
      s.Inside j (.disposing (.outcome t o :: todo) failure releasing :: rest) →
      s.replay [(j, .advance 0), (j, .finish (.ok .null))] = some (h, s') →
      Trims t values s' σ σ' →
      Trims t values s ((j, .advance 0) :: (j, .finish (.ok .null)) :: σ) σ'

section runs

variable {values : Bool} {σ : List (ThreadId × Action)}

/-- A step lets go of something that the mask hides, or shows in the masked state. -/
theorem Parted.project (run : Run callers h s) (parted : s.Parted t given taken)
    (valueless : taken → s.holdings t (·.returned) = 0) (hs : s.step j a = some (s', es)) :
    (∃ d todo failure releasing rest pick,
      s.Inside j (.disposing (d :: todo) failure releasing :: rest) ∧ d.isSilent t ∧
      a = .advance pick ∧ es.filter Event.isCode = [] ∧
      (Mask.parting t given taken).apply s' = (Mask.parting t given taken).apply s) ∨
    ∃ es', ((Mask.parting t given taken).apply s).step j a =
        some ((Mask.parting t given taken).apply s', es') ∧
      es'.filter Event.isCode = es.filter Event.isCode := by
  by_cases shown : s.Shows (Mask.parting t given taken) j
  · exact .inr (Mask.step_some Mask.parting_lawful (parted.fits run shown) hs)
  · left
    obtain ⟨d, todo, failure, releasing, rest, hi, hidden⟩ : ∃ d todo failure releasing rest,
        s.Inside j (.disposing (d :: todo) failure releasing :: rest) ∧
          ¬ (Mask.parting t given taken).Keeps d := by
      simpa only [Shows, not_forall, exists_prop] using shown
    have silent : d.isSilent t := by
      refine (silent_or_value hidden).resolve_right fun ⟨ht, o, hd, ho⟩ => ?_
      have := remains_of_valueless (valueless ht) (hd ▸ hi) (by simp [Disposal.comesOut])
      simp [Disposal.remains?, ho] at this
    obtain ⟨pick, rfl⟩ := hi.advances hs
    obtain ⟨th, he⟩ := hi.disposes hs
    obtain ⟨es', todo', hd, code, -, same⟩ := parted.dispose th hi hidden silent
    obtain ⟨rfl, rfl⟩ := Prod.mk.inj (hd.symm.trans he)
    exact ⟨d, todo, failure, releasing, rest, pick, hi, silent, rfl, code,
      Mask.apply_enter_same hi same⟩

/-- What happens in a state happens in the masked state, but for what the mask hides. -/
theorem Parted.projects {h' : Trace} (run : Run callers h s) (parted : s.Parted t given taken)
    (valueless : taken → s.holdings t (·.returned) = 0) (hr : s.replay σ = some (h', s')) :
    ∃ σ' h'', Trims t values s σ σ' ∧ h''.code = h'.code ∧
      ((Mask.parting t given taken).apply s).replay σ' =
        some (h'', (Mask.parting t given taken).apply s') := by
  induction σ generalizing h h' s with
  | nil =>
    cases hr
    exact ⟨[], [], .nil _, rfl, rfl⟩
  | cons x σ ih =>
    obtain ⟨j, a⟩ := x
    obtain ⟨s₁, es, h₁, hs, hr₁, rfl⟩ := replay_cons hr
    have valueless₁ (ht : taken) := run.valueless (parted.loose ht) (valueless ht) (replay_one hs)
    obtain ⟨σ', h₂, trims, code, hr₂⟩ := ih (run.step hs) (parted.step run hs) valueless₁ hr₁
    obtain ⟨d, todo, failure, releasing, rest, pick, hi, silent, rfl, none, same⟩ |
      ⟨es', hs', same⟩ := parted.project run valueless hs
    · refine ⟨σ', h₂, .shed hi silent hs trims, ?_, same ▸ hr₂⟩
      rw [Trace.code_append, code, Trace.code_map, none]
      rfl
    · refine ⟨(j, a) :: σ', es'.map (j, ·) ++ h₂, .both hs trims, ?_, ?_⟩
      · rw [Trace.code_append, Trace.code_append, code, Trace.code_map, Trace.code_map, same]
      · simp [System.replay, hs', hr₂]

/-- A destructor that returns leaves its thread with what is left to let go of. -/
theorem finish_destructor {th : Thread} (v : Value) (hth : s.threads[j]? = some th)
    (hc : th.calls = .destructor :: .disposing todo failure releasing :: rest) :
    s.step j (.finish (.ok v)) =
      some ((s.onThread j Thread.pop).enter j (.disposing todo failure releasing), []) := by
  simp [System.step, hth, finish?, hc]

/-- A value is let go of: its destructor begins, and ends at once. -/
theorem replay_value {o : Outcome} (pick : Pick) (v : Value) (ho : o.returned)
    (hi : s.Inside j (.disposing (.outcome t o :: todo) failure releasing :: rest)) :
    s.replay [(j, .advance pick), (j, .finish (.ok v))] =
      some ([(j, .destroying (.value t o.run))],
        s.enter j (.disposing todo failure releasing)) := by
  obtain ⟨th, hth, hc⟩ := hi
  have begun : s.step j (.advance pick) = some
      ((s.enter j (.disposing todo failure releasing)).onThread j (·.push .destructor),
        [.destroying (.value t o.run)]) := by
    simp [System.step, hth, advance?, hc, System.dispose, ho, runDestructor]
  have entered : (s.enter j (.disposing todo failure releasing)).Inside j
      (.disposing todo failure releasing :: rest) := Inside.enter ⟨th, hth, hc⟩
  obtain ⟨th', hth', hc'⟩ := entered.push (f := .destructor)
  have again : (((s.enter j (.disposing todo failure releasing)).onThread j
      (·.push .destructor)).onThread j Thread.pop).enter j
        (.disposing todo failure releasing) = s.enter j (.disposing todo failure releasing) := by
    simp only [enter, onThread_onThread]
    rfl
  simp [System.replay, begun, again ▸ finish_destructor v hth' hc']

/-- A thread lets go of one thing that the mask hides. -/
theorem Parted.shed (parted : s.Parted t given taken)
    (valueless : values = false → taken → s.holdings t (·.returned) = 0)
    (hi : s.Inside j (.disposing (d :: todo) failure releasing :: rest))
    (hidden : ¬ (Mask.parting t given taken).Keeps d) : ∃ σ h' s' todo',
      (∀ σ₁ σ₂, Trims t values s' σ₁ σ₂ → Trims t values s (σ ++ σ₁) σ₂) ∧
      h'.codeBut (Event.destroysValue t values) = [] ∧ s.replay σ = some (h', s') ∧
      (Mask.parting t given taken).apply s' = (Mask.parting t given taken).apply s ∧
      s'.Inside j (.disposing todo' failure releasing :: rest) ∧
      (todo' = todo ∨ todo' = .reference t :: todo) := by
  obtain silent | ⟨ht, o, rfl, ho⟩ := silent_or_value hidden
  · obtain ⟨th, hs⟩ := hi.advance 0
    obtain ⟨es, todo', he, code, left, same⟩ := parted.dispose th hi hidden silent
    refine ⟨[(j, .advance 0)], es.map (j, ·), _, todo', fun _ _ => .shed hi silent (he ▸ hs), ?_,
      replay_one (he ▸ hs), Mask.apply_enter_same hi same, hi.enter, left⟩
    rw [Trace.codeBut, Trace.code_map, code]
    rfl
  · cases values with
    | false =>
      have := remains_of_valueless (valueless rfl ht) hi (by simp [Disposal.comesOut])
      simp [Disposal.remains?, ho] at this
    | true =>
      have hr := replay_value 0 .null ho hi
      refine ⟨_, _, _, todo, fun _ _ => .destroy rfl hi hr, ?_, hr, ?_, hi.enter, .inl rfl⟩
      · simp [Trace.codeBut, Trace.code, Event.isCode, Event.destroysValue, Event.destroyed?]
      · exact Mask.apply_enter_same hi (by simp [Mask.frame, Mask.parting, ht])

/-- A thread lets go of what comes before the next thing that shows in the masked state. -/
theorem Parted.flush (run : Run callers h s) (parted : s.Parted t given taken)
    (valueless : values = false → taken → s.holdings t (·.returned) = 0)
    (hi : s.Inside j (.disposing todo failure releasing :: rest)) : ∃ σ h' s',
      (∀ σ₁ σ₂, Trims t values s' σ₁ σ₂ → Trims t values s (σ ++ σ₁) σ₂) ∧
      h'.codeBut (Event.destroysValue t values) = [] ∧ s.replay σ = some (h', s') ∧
      (Mask.parting t given taken).apply s' = (Mask.parting t given taken).apply s ∧
      s'.Shows (Mask.parting t given taken) j := by
  induction todo generalizing h s with
  | nil =>
    refine ⟨[], [], s, fun _ _ => id, rfl, rfl, rfl, fun d todo _ _ _ hi' => ?_⟩
    cases hi.unique hi'
  | cons d todo ih =>
    by_cases kept : (Mask.parting t given taken).Keeps d
    · refine ⟨[], [], s, fun _ _ => id, rfl, rfl, rfl, fun d' _ _ _ _ hi' => ?_⟩
      cases hi.unique hi'
      exact kept
    · obtain ⟨σ₁, h₁, s₁, todo', trims₁, code₁, hr₁, same₁, hi₁, left⟩ :=
        parted.shed valueless hi kept
      obtain rfl | rfl := left
      · have valueless₁ (hv : values = false) (ht : taken) :=
          run.valueless (parted.loose ht) (valueless hv ht) hr₁
        obtain ⟨σ₂, h₂, s₂, trims₂, code₂, hr₂, same₂, shown⟩ :=
          ih (run.replay hr₁) (parted.replay run hr₁) valueless₁ hi₁
        refine ⟨σ₁ ++ σ₂, h₁ ++ h₂, s₂, fun σ σ' hσ => ?_, ?_, replay_append hr₁ hr₂,
          same₂.trans same₁, shown⟩
        · rw [List.append_assoc]
          exact trims₁ _ _ (trims₂ _ _ hσ)
        · rw [Trace.codeBut_append, code₁, code₂, List.nil_append]
      · refine ⟨σ₁, h₁, s₁, trims₁, code₁, hr₁, same₁, fun d' _ _ _ _ hi' => ?_⟩
        cases hi₁.unique hi'
        trivial

/-- What the masked state can do, the state can do once the thread has let go of what the mask
hides. -/
theorem Parted.lift {w : System} (run : Run callers h s) (parted : s.Parted t given taken)
    (valueless : values = false → taken → s.holdings t (·.returned) = 0)
    (hs : ((Mask.parting t given taken).apply s).step j a = some (w, es)) :
    ∃ σ h' s', (∀ σ₁ σ₂, Trims t values s' σ₁ σ₂ → Trims t values s (σ ++ σ₁) ((j, a) :: σ₂)) ∧
      s.replay σ = some (h', s') ∧ (Mask.parting t given taken).apply s' = w ∧
      h'.codeBut (Event.destroysValue t values) =
        Trace.codeBut (Event.destroysValue t values) (es.map (j, ·)) := by
  obtain ⟨σ, h₁, s₁, trims, code, hr, same, shown⟩ : ∃ σ h₁ s₁,
      (∀ σ₁ σ₂, Trims t values s₁ σ₁ σ₂ → Trims t values s (σ ++ σ₁) σ₂) ∧
      Trace.codeBut (Event.destroysValue t values) h₁ = [] ∧ s.replay σ = some (h₁, s₁) ∧
      (Mask.parting t given taken).apply s₁ = (Mask.parting t given taken).apply s ∧
      s₁.Shows (Mask.parting t given taken) j := by
    by_cases inside : ∃ todo failure releasing rest,
        s.Inside j (.disposing todo failure releasing :: rest)
    · obtain ⟨todo, failure, releasing, rest, hi⟩ := inside
      exact parted.flush run valueless hi
    · exact ⟨[], [], s, fun _ _ => id, rfl, rfl, rfl,
        fun d todo failure releasing rest hi => absurd ⟨_, _, _, _, hi⟩ inside⟩
  have fits := (parted.replay run hr).fits (a := a) (run.replay hr) shown
  obtain ⟨s', es', hs', hw, hes⟩ := Mask.of_step Mask.parting_lawful fits (same ▸ hs)
  refine ⟨σ ++ [(j, a)], _, s', fun σ₁ σ₂ hσ => ?_, replay_snoc hr hs', hw, ?_⟩
  · rw [List.append_assoc]
    exact trims _ _ (.both hs' hσ)
  · have shows : Trace.code (es'.map (j, ·)) = Trace.code (es.map (j, ·)) := by
      rw [Trace.code_map, Trace.code_map, hes]
    rw [Trace.codeBut_append, code, List.nil_append, Trace.codeBut_of_code shows]

/-- What happens in the masked state happens in the state, with what the mask hides in between. -/
theorem Parted.lifts {w : System} {h' : Trace} (run : Run callers h s)
    (parted : s.Parted t given taken)
    (valueless : values = false → taken → s.holdings t (·.returned) = 0)
    (hr : ((Mask.parting t given taken).apply s).replay σ = some (h', w)) :
    ∃ σ' h'' s', Trims t values s σ' σ ∧ s.replay σ' = some (h'', s') ∧
      (Mask.parting t given taken).apply s' = w ∧
      h''.codeBut (Event.destroysValue t values) = h'.codeBut (Event.destroysValue t values) := by
  induction σ generalizing h h' s with
  | nil =>
    cases hr
    exact ⟨[], [], s, .nil s, rfl, rfl, rfl⟩
  | cons x σ ih =>
    obtain ⟨j, a⟩ := x
    obtain ⟨w₁, es, h₁, hs, hr₁, rfl⟩ := replay_cons hr
    obtain ⟨σ₁, h₂, s₁, trims, hr₂, rfl, code⟩ := parted.lift run valueless hs
    have valueless₁ (hv : values = false) (ht : taken) :=
      run.valueless (parted.loose ht) (valueless hv ht) hr₂
    obtain ⟨σ₂, h₃, s₂, trims', hr₃, hw, code'⟩ :=
      ih (run.replay hr₂) (parted.replay run hr₂) valueless₁ hr₁
    refine ⟨σ₁ ++ σ₂, h₂ ++ h₃, s₂, trims _ _ trims', replay_append hr₂ hr₃, hw, ?_⟩
    rw [Trace.codeBut_append, Trace.codeBut_append, code, code']

end runs

end System

end WorkerPool
