import WorkerPool.Proofs.Holdings

/-!
The balance of outcomes.

What invocations have ended with is held by somebody, or a join has taken it, or it is gone; and a
destructor has begun for exactly the values among what is gone. Every move keeps this balance.
-/
namespace WorkerPool

namespace Event

/-- Whether an invocation of the task ends with an outcome that has the property. -/
def yields (t : TaskId) (q : Outcome → Bool) : Event → Bool
  | ended u o => u = t ∧ q o
  | _ => false

/-- Whether a join of the task takes an outcome that has the property. -/
def hands (t : TaskId) (q : Outcome → Bool) : Event → Bool
  | joined u (some o) => u = t ∧ q o
  | _ => false

/-- The run of the task whose value a destructor begins for. -/
def destroyed? (t : TaskId) : Event → Option Nat
  | destroying (.value u run) => if u = t then some run else none
  | _ => none

/-- Whether the event tells nothing of outcomes. -/
def isQuiet : Event → Bool
  | ended .. | joined .. | destroying (.value ..) => false
  | _ => true

theorem yields_of_isQuiet {e : Event} {t : TaskId} {q : Outcome → Bool} (h : e.isQuiet) :
    e.yields t q = false := by
  cases e <;> simp_all [isQuiet, yields]

theorem hands_of_isQuiet {e : Event} {t : TaskId} {q : Outcome → Bool} (h : e.isQuiet) :
    e.hands t q = false := by
  cases e <;> simp_all [isQuiet, hands]

theorem destroyed?_of_isQuiet {e : Event} {t : TaskId} (h : e.isQuiet) :
    e.destroyed? t = none := by
  cases e with
  | destroying r => cases r <;> simp_all [isQuiet, destroyed?]
  | _ => rfl

end Event

namespace Trace

variable {h h' : Trace} {t : TaskId} {q : Outcome → Bool}

/-- Invocations of the task that have ended with an outcome of the property. -/
def yielded (h : Trace) (t : TaskId) (q : Outcome → Bool) : Nat := h.countP fun e => e.2.yields t q

/-- Joins of the task that have taken an outcome of the property. -/
def handed (h : Trace) (t : TaskId) (q : Outcome → Bool) : Nat := h.countP fun e => e.2.hands t q

/-- The runs of the task whose values have been destroyed. -/
def destroyed (h : Trace) (t : TaskId) : List Nat := h.filterMap fun e => e.2.destroyed? t

theorem yielded_append : yielded (h ++ h') t q = h.yielded t q + h'.yielded t q :=
  List.countP_append

theorem handed_append : handed (h ++ h') t q = h.handed t q + h'.handed t q :=
  List.countP_append

theorem destroyed_append : destroyed (h ++ h') t = h.destroyed t ++ h'.destroyed t :=
  List.filterMap_append

end Trace

namespace Disposal

variable {d : Disposal} {t : TaskId} {q : Outcome → Bool}

/-- The outcomes of the task that are let go of with it. -/
def outcomes (t : TaskId) : Disposal → List Outcome
  | outcome u o => if u = t then [o] else []
  | _ => []

theorem countP_outcomes : (d.outcomes t).countP q = if d.carries t q then 1 else 0 := by
  cases d with
  | outcome u o => by_cases hu : u = t <;> simp [outcomes, carries, hu, List.countP_singleton]
  | _ => rfl

/-- A destructor begins for each value that is let go of. -/
theorem destroyed_remains {r : Remains} {i : ThreadId} (h : d.remains? = some r) :
    Trace.destroyed ([Event.destroying r].map (i, ·)) t =
      ((d.outcomes t).filter (·.returned)).map (·.run) := by
  cases d with
  | outcome u o =>
    simp only [remains?] at h
    split at h
    · next hret =>
      cases h
      by_cases hu : u = t <;> simp [Trace.destroyed, Event.destroyed?, outcomes, hu, hret]
    · cases h
  | work u =>
    cases h
    rfl
  | _ => cases h

end Disposal

namespace System

variable {s s' : System} {i : ThreadId} {t u : TaskId} {q : Outcome → Bool} {h : Trace}
  {es : List Event} {gone lost : List Outcome} {f : Frame} {rest : List Frame} {task : Task}

/-- The trace accounts for the outcomes of the task; those in `gone` are neither held nor joined. -/
structure Accounts (h : Trace) (s : System) (t : TaskId) (gone : List Outcome) : Prop where
  destroyed : h.destroyed t = (gone.filter (·.returned)).map (·.run)
  balance : ∀ q, s.holdings t q + h.handed t q + gone.countP q = h.yielded t q

namespace Accounts

theorem step (lost : List Outcome) (acc : Accounts h s t gone)
    (hd : Trace.destroyed (es.map (i, ·)) t = (lost.filter (·.returned)).map (·.run))
    (hb : ∀ q, s'.holdings t q + Trace.handed (es.map (i, ·)) t q + lost.countP q =
      s.holdings t q + Trace.yielded (es.map (i, ·)) t q) :
    Accounts (h ++ es.map (i, ·)) s' t (gone ++ lost) := by
  refine ⟨?_, fun q => ?_⟩
  · rw [Trace.destroyed_append, acc.destroyed, hd, List.filter_append, List.map_append]
  · have := acc.balance q
    have := hb q
    rw [Trace.handed_append, Trace.yielded_append, List.countP_append]
    omega

/-- Nothing changes hands. -/
theorem quiet (acc : Accounts h s t gone) (he : ∀ e ∈ es, e.isQuiet)
    (hs : ∀ q, s'.holdings t q = s.holdings t q) : Accounts (h ++ es.map (i, ·)) s' t gone := by
  have hhand : ∀ q, Trace.handed (es.map (i, ·)) t q = 0 := fun q => by
    simpa [Trace.handed] using fun e he' => Event.hands_of_isQuiet (he e he')
  have hyield : ∀ q, Trace.yielded (es.map (i, ·)) t q = 0 := fun q => by
    simpa [Trace.yielded] using fun e he' => Event.yields_of_isQuiet (he e he')
  have hdestroy : Trace.destroyed (es.map (i, ·)) t = [] := by
    simpa [Trace.destroyed] using fun e he' => Event.destroyed?_of_isQuiet (he e he')
  have acc : Accounts (h ++ es.map (i, ·)) s' t (gone ++ []) :=
    acc.step [] hdestroy fun q => by simp [hs, hhand, hyield]
  rwa [List.append_nil] at acc

end Accounts

theorem handed_take (slot : Slot) (x : Reply) :
    Trace.handed ([Event.joined u slot.outcome, .replied x].map (i, ·)) t q =
      slot.keeps u t q := by
  unfold Slot.keeps
  cases slot.outcome <;> simp [Trace.handed, Event.hands, List.countP_cons]

theorem yielded_ended (o : Outcome) :
    Trace.yielded ([Event.ended u o].map (i, ·)) t q = (Phase.stashing u true o).stashes t q := by
  simp [Trace.yielded, Event.yields, Phase.stashes]

/-- No destructor runs for what needs none. -/
theorem IsIdle.outcomes {d : Disposal} (hd : s.IsIdle d) :
    (d.outcomes t).filter (·.returned) = [] := by
  cases d with
  | outcome u o =>
    have hret : o.returned = false := hd
    by_cases hu : u = t <;> simp [Disposal.outcomes, hu, hret]
  | _ => rfl

/-- What a wait or a call is about to let go of is nothing. -/
theorem Due.carries (due : s.Due i f) : f.carries t q = 0 := by
  cases f with
  | disposing todo failure releasing => exact due.elim
  | _ => rfl

/-- What a thread lets go of is gone. -/
theorem Accounts.letGo {d : Disposal} {todo : List Disposal} {failure : Option Payload}
    {releasing : Bool} (acc : Accounts h s t gone)
    (hi : s.Inside i (.disposing (d :: todo) failure releasing :: rest))
    (hs : ∀ q, s'.holdings t q =
      (s.enter i (.disposing todo failure releasing)).holdings t q)
    (hquiet : ∀ e ∈ es, ∀ q, e.yields t q = false ∧ e.hands t q = false)
    (hd : Trace.destroyed (es.map (i, ·)) t = ((d.outcomes t).filter (·.returned)).map (·.run)) :
    ∃ gone, Accounts (h ++ es.map (i, ·)) s' t gone := by
  refine ⟨gone ++ d.outcomes t, acc.step _ hd fun q => ?_⟩
  have hhand : Trace.handed (es.map (i, ·)) t q = 0 := by
    simpa [Trace.handed] using fun e he => (hquiet e he q).2
  have hyield : Trace.yielded (es.map (i, ·)) t q = 0 := by
    simpa [Trace.yielded] using fun e he => (hquiet e he q).1
  have hold := holdings_enter (t := t) (q := q) hi (.disposing todo failure releasing)
  simp only [Frame.carries, List.countP_cons, ← Disposal.countP_outcomes] at hold
  rw [hs, hhand, hyield]
  omega

theorem Accounts.move (acc : Accounts h s t gone) (kept : ∀ u, (s.record u).Kept u h)
    (m : Move i s es s') : ∃ gone, Accounts (h ++ es.map (i, ·)) s' t gone := by
  cases m with
  | call hth _ => exact ⟨gone, acc.quiet (by simp) fun _ => holdings_push hth _⟩
  | leave hi hf he =>
    refine ⟨gone, acc.quiet ?_ fun _ => holdings_leave hi hf⟩
    rcases he with rfl | ⟨r, rfl⟩ <;> simp [Event.isQuiet]
  | wait hi hf due =>
    refine ⟨gone, acc.quiet (by simp) fun _ => holdings_replace hi ?_⟩
    rw [Frame.carries_of_isBare hf, due.carries]
  | note _ => exact ⟨gone, acc.quiet (by simp [Event.isQuiet]) fun _ => rfl⟩
  | addPool _ => exact ⟨gone, acc.quiet (by simp [Event.isQuiet]) fun _ => rfl⟩
  | addTask captured => exact ⟨gone, acc.quiet (by simp) fun _ => holdings_addTask captured⟩
  | hire _ _ _ => exact ⟨gone, acc.quiet (by simp [Event.isQuiet]) fun _ => holdings_hired⟩
  | @accept p pool u task pick hp ht _ _ share ho =>
    have hempty := (kept u).empty_caller (handle_of_canShare share) (record_slot ht ▸ ho)
    rw [record_slot ht] at hempty
    exact ⟨gone, acc.quiet (by simp [Event.isQuiet]) fun _ => holdings_accept _ pick ht hempty⟩
  | @take f rest u task hi hf ht _ _ _ =>
    refine ⟨gone ++ [], acc.step [] (by simp [Trace.destroyed, Event.destroyed?]) fun q => ?_⟩
    have hold := holdings_take (t := t) (q := q) hi hf ht
    have hyield : Trace.yielded ([Event.joined u task.slot.outcome,
        .replied (joinReply u task.slot.outcome)].map (i, ·)) t q = 0 := by
      simp [Trace.yielded, Event.yields]
    rw [handed_take, hyield, List.countP_nil]
    omega
  | letGo hi hf ht _ surrender =>
    exact ⟨gone, acc.quiet (by simp) fun _ => holdings_letGo hi hf ht surrender⟩
  | discard hi hd =>
    exact acc.letGo hi (fun _ => rfl) (by simp) (by rw [hd.outcomes]; rfl)
  | destroy hi hr =>
    obtain ⟨th, hth, -⟩ := hi.enter
    refine acc.letGo hi (fun q => holdings_push hth .destructor) ?_ ?_
    · simp [Event.yields, Event.hands]
    · exact Disposal.destroyed_remains hr
  | release hi _ _ => exact ⟨gone, acc.quiet (by simp) fun _ => holdings_replace hi rfl⟩
  | abandon hi ht _ _ =>
    exact ⟨gone, acc.quiet (by simp [Event.isQuiet]) fun _ => holdings_abandon hi ht⟩
  | unref hi _ => exact acc.letGo hi (fun _ => rfl) (by simp) rfl
  | clear hi ht _ => exact ⟨gone, acc.quiet (by simp) fun _ => holdings_clear hi ht⟩
  | resume hi => exact ⟨gone, acc.quiet (by simp) fun _ => holdings_resume hi⟩
  | close _ _ => exact ⟨gone, acc.quiet (by simp) fun _ => rfl⟩
  | stop _ _ _ => exact ⟨gone, acc.quiet (by simp) fun _ => holdings_wakeAll _⟩
  | dismiss _ _ _ => exact ⟨gone, acc.quiet (by simp [Event.isQuiet]) fun _ => rfl⟩
  | dropPool _ _ => exact ⟨gone, acc.quiet (by simp) fun _ => rfl⟩
  | @register p pool k g hw _ hg =>
    have hw' := (hw.stay hg).wakeAll (.workerRegistered p)
    refine ⟨gone, acc.quiet (by simp [Event.isQuiet]) fun q => ?_⟩
    rw [hw'.holdings_settled rfl, holdings_wakeAll, holdings_onThread hg]
  | released hw _ => exact ⟨gone, acc.quiet (by simp) fun _ => hw.holdings_settled rfl⟩
  | exit hw _ _ hg =>
    exact ⟨gone, acc.quiet (by simp [Event.isQuiet]) fun _ => hw.holdings _ hg⟩
  | @claim p pool pool' k u hw _ _ _ =>
    have hw' : (s.setPool p pool').Working i p k (.parked true) := hw
    exact ⟨gone, acc.quiet (by simp [Event.isQuiet]) fun _ =>
      hw'.holdings _ Thread.rephases_setPhase⟩
  | park hw _ _ _ =>
    exact ⟨gone, acc.quiet (by simp) fun _ => hw.holdings _ Thread.rephases_setPhase⟩
  | begin hw ht _ hg =>
    exact ⟨gone, acc.quiet (by simp [Event.isQuiet]) fun _ => hw.holdings_begin _ ht hg⟩
  | @beginEmpty p k u task o g hw ht hwork _ =>
    have := (kept u).equipped (hw.bearing_self rfl)
    simp [record_slot ht, hwork] at this
  | @endWork p k u task o g hw _ _ hg =>
    refine ⟨gone ++ [], acc.step [] (by simp [Trace.destroyed, Event.destroyed?]) fun q => ?_⟩
    have hphase := hw.holdings (t := t) (q := q) _ hg
    have hhand : Trace.handed ([Event.ended u o].map (i, ·)) t q = 0 := by
      simp [Trace.handed, Event.hands]
    have hbefore : (Phase.running u).stashes t q = 0 := rfl
    rw [yielded_ended, hhand]
    simp only [List.countP_nil]
    omega
  | @stash p k u task work o hw ht =>
    have hempty := (kept u).empty_stashing (hw.bearing_self rfl)
    rw [record_slot ht] at hempty
    exact ⟨gone, acc.quiet (by simp) fun _ => hw.holdings_stash ht hempty⟩
  | @count p pool k u returned g hw _ hg =>
    have hw' : (s.setPool p (pool.count k returned)).Working i p k (.stashed u returned) := hw
    refine ⟨gone, acc.quiet ?_ fun q => hw'.holdings _ hg⟩
    split <;> simp [Event.isQuiet]
  | retire hw _ ht =>
    refine ⟨gone, acc.quiet ?_ fun q => hw.holdings_retired ht⟩
    split <;> simp [Event.isQuiet]

theorem accounts_start (callers : Nat) (t : TaskId) : Accounts [] (start callers) t [] := by
  refine ⟨rfl, fun q => ?_⟩
  have hs : (start callers).tally (Thread.stashes t q) = 0 :=
    tally_eq_zero.mpr fun th hth => by rw [List.eq_of_mem_replicate hth]; rfl
  have hf : (start callers).weight (Frame.carries t q) = 0 :=
    weight_eq_zero.mpr fun th hth f hf => by
      rw [List.eq_of_mem_replicate hth] at hf
      cases hf
  have ht : (start callers).stored t q = 0 := rfl
  simp [holdings, hs, hf, ht, Trace.handed, Trace.yielded]

/-- In every run, the trace accounts for all outcomes. -/
theorem Run.accounts {callers : Nat} (run : Run callers h s) (t : TaskId) :
    ∃ gone, Accounts h s t gone := by
  have both : (∀ u, (s.record u).Kept u h) ∧ ∃ gone, Accounts h s t gone :=
    run.keeps (P := fun h s => (∀ u, (s.record u).Kept u h) ∧ ∃ gone, Accounts h s t gone)
      ⟨kept_start callers, [], accounts_start callers t⟩
      fun _ ⟨kept, gone, acc⟩ m => ⟨fun u => (kept u).change (m.change u), acc.move kept m⟩
  exact both.2

end System

end WorkerPool
