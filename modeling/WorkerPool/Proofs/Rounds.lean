import WorkerPool.Proofs.Changes

/-!
Every task goes round by round.

`Record.Kept` ties the record of a task to its story. Every change of the record keeps it, and so
does every run.
-/
namespace WorkerPool

open Function (update)

/-- The record of the task has a place, and the trace tells its story up to there. -/
def Record.Kept (t : TaskId) (h : Trace) (r : Record) : Prop :=
  ∃ life st, r.At st life ∧ Story r.employer t h st

namespace Record.Kept

variable {t : TaskId} {h : Trace} {r : Record} {i j : ThreadId} {p : PoolId} {es : List Event}
  {slot : Slot} {todo : List Disposal} {o : Outcome} {n : Nat} {work : Bool}

theorem others (kept : r.Kept t h) (he : ∀ e ∈ es, e.concerns t = false) :
    r.Kept t (h ++ es.map (i, ·)) := by
  obtain ⟨life, st, hat, story⟩ := kept
  exact ⟨life, st, hat, story.others he⟩

theorem hire {employer : ThreadId → Option PoolId} (kept : r.Kept t h)
    (he : ∀ j p, r.employer j = some p → employer j = some p) :
    Kept t h { r with employer } := by
  obtain ⟨life, st, ⟨bearing, queued, detached, agrees⟩, story⟩ := kept
  refine ⟨life, st, ⟨bearing, queued, detached, ?_⟩, story.mono he⟩
  cases life with
  | carried p i phase => cases phase <;> exact agrees
  | _ => exact agrees

/-- A task that its caller has is idle. -/
theorem life_caller {life : Life} {st : Stage} (hat : r.At st life) (hh : r.handle)
    (ho : r.slot.ownership = .caller) : life = .idle := by
  have agrees := hat.agrees
  cases life with
  | idle => rfl
  | queued p => exact absurd ho agrees.2.1
  | carried p i phase =>
    cases phase with
    | holding t => exact absurd ho agrees.2.1
    | running t => exact absurd ho agrees.2.1
    | stashing t work o => exact absurd ho agrees.2.1
    | stashed t returned =>
      obtain ⟨o, -, hne, -⟩ := agrees
      exact absurd ho hne
    | counted t =>
      obtain ⟨o, -, hne, -⟩ := agrees
      exact absurd ho hne
    | _ => exact agrees.elim
  | done o =>
    have := (agrees.2.2.2 hh).1
    simp [ho] at this

/-- A task that has finished and waits for a join is done. -/
theorem life_finished {life : Life} {st : Stage} (hat : r.At st life)
    (ho : r.slot.ownership = .pool) (hs : r.slot.state = .finished) :
    ∃ o, life = .done o := by
  have agrees := hat.agrees
  cases life with
  | idle => simp [Life.Agrees, ho] at agrees
  | queued p => simp [Life.Agrees, hs] at agrees
  | carried p i phase => cases phase <;> simp [Life.Agrees, hs] at agrees
  | done o => exact ⟨o, rfl⟩

theorem accept {m : Metric} (kept : r.Kept t h) (hh : r.handle)
    (ho : r.slot.ownership = .caller) :
    Kept t (h ++ [Event.log (.submitted p t n), .metric p m].map (i, ·))
      { r with slot := r.slot.claim, queued := update r.queued p (r.queued p + 1) } := by
  obtain ⟨life, st, hat, story⟩ := kept
  obtain rfl := life_caller hat hh ho
  obtain ⟨rfl, -, -, hwork⟩ := hat.agrees
  have hq : r.queued = fun _ => 0 := hat.queued
  have story := (story.accepted i p n).other i (e := .metric p m) rfl
  refine ⟨.queued p, _, ⟨hat.bearing, funext fun q => ?_, fun hd => ?_, ?_⟩, by simpa using story⟩
  · by_cases hpq : q = p
    · simp [hpq, hq, Life.queue]
    · simp [hpq, hq, Life.queue]
  · simp [Slot.claim] at hd
  · exact ⟨rfl, by simp [Slot.claim], rfl, rfl, hwork hh⟩

theorem take {x : Reply} (kept : r.Kept t h) (hh : r.handle) (ho : r.slot.ownership = .pool)
    (hs : r.slot.state = .finished) :
    Kept t (h ++ [Event.joined t r.slot.outcome, .replied x].map (i, ·))
      { r with slot := r.slot.release } := by
  obtain ⟨life, st, hat, story⟩ := kept
  obtain ⟨o, rfl⟩ := life_finished hat ho hs
  obtain ⟨rfl, -, -, hfacts⟩ := hat.agrees
  obtain ⟨-, houtcome, hwork⟩ := hfacts hh
  have story := (story.joined i).other (e := .replied x) i rfl
  refine ⟨.idle, _, ⟨hat.bearing, hat.queued, fun hd => ?_, ?_⟩,
    by simpa [houtcome] using story⟩
  · simp [Slot.release] at hd
  · exact ⟨rfl, rfl, rfl, fun _ => hwork⟩

theorem detach {handle : Bool} (kept : r.Kept t h) (ho : r.slot.ownership = .pool)
    (hs : r.slot.state ≠ .finished) (hh : handle = false) :
    Kept t h { r with slot := r.slot.detach, handle } := by
  obtain ⟨life, st, hat, story⟩ := kept
  refine ⟨life, st, ⟨hat.bearing, hat.queued, fun _ => hh, ?_⟩, story⟩
  have agrees := hat.agrees
  cases life with
  | idle => simp [Life.Agrees, ho] at agrees
  | queued p => exact ⟨agrees.1, by simp [Slot.detach], agrees.2.2⟩
  | carried p i phase => cases phase <;> simp_all [Life.Agrees, Slot.detach]
  | done o => exact absurd agrees.2.1 hs

theorem surrender (kept : r.Kept t h) (hs : r.slot.Surrender t slot todo) :
    Kept t h { r with slot, handle := false } := by
  cases hs with
  | finished ho hst =>
    obtain ⟨life, st, hat, story⟩ := kept
    obtain ⟨o, rfl⟩ := life_finished hat ho hst
    exact ⟨.done o, st, ⟨hat.bearing, hat.queued, fun _ => rfl, hat.agrees.1, hst, fun _ => rfl,
      nofun⟩, story⟩
  | outstanding ho hst => exact kept.detach ho hst rfl
  | plain =>
    obtain ⟨life, st, hat, story⟩ := kept
    refine ⟨life, st, ⟨hat.bearing, hat.queued, fun _ => rfl, ?_⟩, story⟩
    have agrees := hat.agrees
    cases life with
    | idle => exact ⟨agrees.1, agrees.2.1, agrees.2.2.1, nofun⟩
    | queued p => exact agrees
    | carried p i phase => cases phase <;> exact agrees
    | done o => exact ⟨agrees.1, agrees.2.1, agrees.2.2.1, nofun⟩

theorem clear (kept : r.Kept t h) (hh : r.handle = false) (hb : r.bearing = fun _ => none)
    (hq : r.queued = fun _ => 0) : Kept t h { r with slot := r.slot.clear } := by
  obtain ⟨life, st, hat, story⟩ := kept
  refine ⟨life, st, ⟨hat.bearing, hat.queued, fun _ => hh, ?_⟩, story⟩
  have agrees := hat.agrees
  cases life with
  | idle => exact ⟨agrees.1, agrees.2.1, rfl, fun h => by simp [hh] at h⟩
  | queued p =>
    have := congrFun (hq.symm.trans hat.queued) p
    simp [Life.queue] at this
  | carried p i phase =>
    have := congrFun (hb.symm.trans hat.bearing) i
    simp [Life.bearing] at this
  | done o => exact ⟨agrees.1, agrees.2.1, fun _ => rfl, fun h => by simp [hh] at h⟩

theorem claim (kept : r.Kept t h) (hq : r.queued p ≠ 0) :
    Kept t h { r with
      queued := update r.queued p (r.queued p - 1)
      bearing := update r.bearing i (some (p, .holding t)) } := by
  obtain ⟨life, st, hat, story⟩ := kept
  obtain rfl := hat.of_queued hq
  have hqueue : r.queued = fun q => if q = p then 1 else 0 := hat.queued
  have hbearing : r.bearing = fun _ => none := hat.bearing
  refine ⟨.carried p i (.holding t), st, ⟨funext fun j => ?_, funext fun q => ?_, hat.detached,
    hat.agrees⟩, story⟩
  · by_cases hj : j = i
    · simp [hj, Life.bearing]
    · simp [hj, hbearing, Life.bearing]
  · by_cases hpq : q = p
    · simp [hpq, hqueue, Life.queue]
    · simp [hpq, hqueue, Life.queue]

/-- A worker that has a task in hands goes on with it. -/
theorem carry {r' : Record} {life : Life} {st st' : Stage} {phase phase' : Phase}
    (hat : r.At st life) (hb : r.bearing i = some (p, phase))
    (hb' : r'.bearing = update r.bearing i (some (p, phase'))) (hq : r'.queued = r.queued)
    (hd : r'.slot.ownership = .detached → r'.handle = false)
    (agrees : (Life.carried p i phase').Agrees r' st') : r'.At st' (.carried p i phase') := by
  obtain rfl := hat.of_bearing hb
  refine ⟨?_, hq.trans hat.queued, hd, agrees⟩
  rw [hb', hat.bearing]
  funext j
  by_cases hj : j = i
  · simp [hj, Life.bearing]
  · simp [hj, Life.bearing]

theorem begin (kept : r.Kept t h) (hb : r.bearing i = some (p, .holding t))
    (he : r.employer i = some p) :
    Kept t (h ++ [(i, .started t (r.runs + 1))]) { r with
      slot := r.slot.start, runs := r.runs + 1
      bearing := update r.bearing i (some (p, .running t)) } := by
  obtain ⟨life, st, hat, story⟩ := kept
  obtain rfl := hat.of_bearing hb
  obtain ⟨rfl, ho, -, hout, -⟩ := hat.agrees
  exact ⟨_, _, carry hat hb rfl rfl hat.detached ⟨rfl, ho, rfl, hout⟩, story.started he⟩

/-- A worker that is about to begin finds the work in place. -/
theorem equipped (kept : r.Kept t h) (hb : r.bearing i = some (p, .holding t)) : r.slot.work := by
  obtain ⟨life, st, hat, story⟩ := kept
  obtain rfl := hat.of_bearing hb
  exact hat.agrees.2.2.2.2

/-- The caller of a task that is not submitted finds the slot empty. -/
theorem empty_caller (kept : r.Kept t h) (hh : r.handle) (ho : r.slot.ownership = .caller) :
    r.slot.outcome = none := by
  obtain ⟨life, st, hat, story⟩ := kept
  obtain rfl := life_caller hat hh ho
  exact hat.agrees.2.2.1

/-- A worker that is about to stash an outcome finds the slot empty. -/
theorem empty_stashing (kept : r.Kept t h) (hb : r.bearing i = some (p, .stashing t work o)) :
    r.slot.outcome = none := by
  obtain ⟨life, st, hat, story⟩ := kept
  obtain rfl := hat.of_bearing hb
  exact hat.agrees.2.2.2.1

theorem endWork (kept : r.Kept t h) (hb : r.bearing i = some (p, .running t))
    (ho : o.run = r.runs) :
    Kept t (h ++ [(i, .ended t o)]) { r with
      bearing := update r.bearing i (some (p, .stashing t true o)) } := by
  obtain ⟨life, st, hat, story⟩ := kept
  obtain rfl := hat.of_bearing hb
  obtain ⟨rfl, hown, hs, hout⟩ := hat.agrees
  exact ⟨_, _, carry hat hb rfl rfl hat.detached ⟨rfl, hown, hs, hout, rfl⟩, story.ended ho⟩

theorem stash (kept : r.Kept t h) (hb : r.bearing i = some (p, .stashing t work o)) :
    Kept t h { r with
      slot := r.slot.stash work o
      bearing := update r.bearing i (some (p, .stashed t o.returned)) } := by
  obtain ⟨life, st, hat, story⟩ := kept
  obtain rfl := hat.of_bearing hb
  obtain ⟨rfl, hown, hs, -, hw⟩ := hat.agrees
  exact ⟨_, _, carry hat hb rfl rfl hat.detached ⟨o, rfl, hown, hs, rfl, hw⟩, story⟩

theorem count {returned : Bool} (kept : r.Kept t h)
    (hb : r.bearing i = some (p, .stashed t returned)) :
    Kept t h { r with bearing := update r.bearing i (some (p, .counted t)) } := by
  obtain ⟨life, st, hat, story⟩ := kept
  obtain rfl := hat.of_bearing hb
  exact ⟨_, _, carry hat hb rfl rfl hat.detached hat.agrees, story⟩

theorem retire (kept : r.Kept t h) (hb : r.bearing i = some (p, .counted t)) :
    Kept t h { r with slot := r.slot.complete, bearing := update r.bearing i none } := by
  obtain ⟨life, st, hat, story⟩ := kept
  obtain rfl := hat.of_bearing hb
  obtain ⟨o, rfl, hown, hs, hout, hw⟩ := hat.agrees
  have hbearing : r.bearing = fun j => if j = i then some (p, .counted t) else none := hat.bearing
  have hq : r.queued = fun _ => 0 := hat.queued
  have howner : r.slot.complete.ownership = r.slot.ownership := by
    unfold Slot.complete
    split <;> rfl
  refine ⟨.done o, _, ⟨funext fun j => ?_, hq, howner ▸ hat.detached, rfl, ?_, fun hp => ?_,
    fun hh => ?_⟩, story⟩
  · by_cases hj : j = i
    · simp [hj, Life.bearing]
    · simp [hj, hbearing, Life.bearing]
  · unfold Slot.complete
    split <;> rfl
  · have hdet : r.slot.ownership = .detached := by cases h : r.slot.ownership <;> simp_all
    simp [Slot.complete, hdet]
  · have hdet : r.slot.ownership ≠ .detached := fun hd => by simp [hat.detached hd] at hh
    have hpool : r.slot.ownership = .pool := by cases h : r.slot.ownership <;> simp_all
    simp [Slot.complete, hpool, hout, hw]

theorem change {r' : Record} (kept : r.Kept t h) (c : r.Change i t es r') :
    r'.Kept t (h ++ es.map (i, ·)) := by
  cases c with
  | same he => exact kept.others he
  | hire hs he => exact (kept.hire hs).others he
  | accept hh ho => exact kept.accept hh ho
  | take hh ho hs => exact kept.take hh ho hs
  | surrender _ hs => simpa using kept.surrender hs
  | abandon hh ho he =>
    simp only [Slot.isOutstanding, decide_eq_true_eq] at ho
    exact (kept.detach ho.1 ho.2 hh).others he
  | clear hh hb hq => simpa using kept.clear hh hb hq
  | claim hq he => exact (kept.claim hq).others he
  | begin hb he => exact kept.begin hb he
  | beginEmpty hb hw => simp [kept.equipped hb] at hw
  | endWork hb ho => exact kept.endWork hb ho
  | stash hb => simpa using kept.stash hb
  | count hb he => exact (kept.count hb).others he
  | retire hb he => exact (kept.retire hb).others he

end Record.Kept

namespace System

variable {s : System} {t : TaskId} {h : Trace}

theorem kept_start (callers : Nat) (t : TaskId) : ((start callers).record t).Kept t [] := by
  have hb : (start callers).bearing t = fun _ => none := by
    funext j
    unfold bearing start
    cases hj : (List.replicate callers ({} : Thread))[j]? with
    | none => rfl
    | some th =>
      rw [List.eq_of_mem_replicate (List.mem_of_getElem? hj)]
      rfl
  have hat : ((start callers).record t).At (.resting 0) .idle :=
    ⟨hb, rfl, by simp [record, System.task, start], rfl, rfl, rfl, fun _ => rfl⟩
  exact ⟨.idle, .resting 0, hat, .nil⟩

/-- In every run, every task is at one place, and its story fits. -/
theorem Run.kept {callers : Nat} (run : Run callers h s) (t : TaskId) : (s.record t).Kept t h :=
  run.keeps (P := fun h s => (s.record t).Kept t h) (kept_start callers t)
    fun _ kept m => kept.change (m.change t)

end System

end WorkerPool
