import WorkerPool.Proofs.ExactlyOnce

/-!
Which pool has a task.

A task that is queued, or in the hands of a worker, is where it was accepted last. Until a join has
taken its outcome, that acceptance is the last thing the trace tells of the task but for its
invocation.
-/
namespace WorkerPool

open Function (update)

/-- The pool that accepts the task, if the event says so. -/
def Event.taker? (t : TaskId) : Event → Option PoolId
  | .log (.submitted p u _) => if u = t then some p else none
  | _ => none

theorem Event.taker?_of_other {t : TaskId} {e : Event} (h : e.concerns t = false) :
    e.taker? t = none := by
  cases e with
  | log r => cases r <;> simp_all [concerns, taker?]
  | _ => rfl

namespace Trace

variable {h : Trace} {i : ThreadId} {e : Event} {es : List Event} {t : TaskId} {p : PoolId}

/-- The pool that has accepted the task last. -/
def taker (h : Trace) (t : TaskId) : Option PoolId := (h.filterMap fun e => e.2.taker? t).getLast?

theorem taker_concat : Trace.taker (h ++ [(i, e)]) t = (e.taker? t).or (h.taker t) := by
  cases he : e.taker? t with
  | none => simp [taker, List.filterMap_append, he]
  | some p => simp [taker, List.filterMap_append, he]

theorem taker_same (hes : ∀ e ∈ es, e.taker? t = none) :
    Trace.taker (h ++ es.map (i, ·)) t = h.taker t := by
  have hnil : (es.map (i, ·)).filterMap (fun e => e.2.taker? t) = [] := by
    rw [List.filterMap_map]
    exact List.filterMap_eq_nil_iff.mpr hes
  simp [taker, List.filterMap_append, hnil]

end Trace

namespace Story

variable {employer : ThreadId → Option PoolId} {t : TaskId} {h : Trace} {st : Stage} {p : PoolId}

/-- A task is in its round from the last acceptance on until a join. -/
theorem unjoined (story : Story employer t h st) (hst : ∀ n, st ≠ .resting n)
    (hp : h.taker t = some p) : ∃ h₁ i n h₂,
      h = h₁ ++ (i, .log (.submitted p t n)) :: h₂ ∧ ∀ j r, (j, .joined t r) ∉ h₂ := by
  have go_on {h : Trace} {i : ThreadId} {e : Event}
      (ih : ∃ h₁ j n h₂, h = h₁ ++ (j, .log (.submitted p t n)) :: h₂ ∧
        ∀ j r, (j, .joined t r) ∉ h₂)
      (he : ∀ r, e ≠ .joined t r) : ∃ h₁ j n h₂,
        h ++ [(i, e)] = h₁ ++ (j, .log (.submitted p t n)) :: h₂ ∧
          ∀ j r, (j, .joined t r) ∉ h₂ := by
    obtain ⟨h₁, j, n, h₂, rfl, hno⟩ := ih
    refine ⟨h₁, j, n, h₂ ++ [(i, e)], by simp, fun k r hmem => ?_⟩
    rcases List.mem_append.mp hmem with hmem | hmem
    · exact hno k r hmem
    · exact he r (by simpa using (congrArg Prod.snd (List.mem_singleton.mp hmem)).symm)
  induction story with
  | nil => exact absurd rfl (hst 0)
  | @other h st e i _ hc ih =>
    rw [Trace.taker_concat, Event.taker?_of_other hc] at hp
    exact go_on (ih hst hp) fun r he => by simp [he, Event.concerns] at hc
  | @accepted h n i q pending _ _ =>
    obtain rfl : q = p := by simpa [Trace.taker_concat, Event.taker?] using hp
    exact ⟨h, i, pending, [], rfl, by simp⟩
  | started _ _ ih =>
    rw [Trace.taker_concat] at hp
    exact go_on (ih (by simp) hp) (by simp)
  | ended _ _ ih =>
    rw [Trace.taker_concat] at hp
    exact go_on (ih (by simp) hp) (by simp)
  | joined i _ _ => exact absurd rfl (hst _)

end Story

/-- Between two rounds no pool has the task. -/
theorem Record.At.idle {r : Record} {life : Life} {n : Nat} (hat : r.At (.resting n) life) :
    life = .idle := by
  have agrees := hat.agrees
  cases life with
  | idle => rfl
  | queued p => cases agrees.1
  | carried p i phase => cases phase <;> simp [Life.Agrees] at agrees
  | done o => cases agrees.1

/-- The task is nowhere but in this pool. -/
structure Record.TakenBy (r : Record) (o : Option PoolId) : Prop where
  queued : ∀ p, r.queued p ≠ 0 → o = some p
  bearing : ∀ i p phase, r.bearing i = some (p, phase) → o = some p

namespace Record.TakenBy

variable {r r' : Record} {o : Option PoolId} {i : ThreadId} {p : PoolId} {t : TaskId} {h : Trace}
  {phase : Phase} {es : List Event}

theorem same (taken : r.TakenBy o) (hq : r'.queued = r.queued) (hb : r'.bearing = r.bearing) :
    r'.TakenBy o :=
  ⟨hq ▸ taken.queued, hb ▸ taken.bearing⟩

/-- An idle task is taken by the pool that accepts it. -/
theorem accept {st : Stage} (hat : r.At st .idle) :
    Record.TakenBy { r with slot := r.slot.claim, queued := update r.queued p (r.queued p + 1) }
      (some p) := by
  refine ⟨fun q hq => ?_, fun j q x hj => ?_⟩
  · by_cases hqp : q = p
    · rw [hqp]
    · simp [hqp, hat.queued, Life.queue] at hq
  · have hb : Life.idle.bearing j = some (q, x) := hat.bearing ▸ hj
    cases hb

/-- A worker of the pool gets the task in hands, or goes on with it. -/
theorem carry (taken : r.TakenBy o) (ho : o = some p) (hq : ∀ q, r'.queued q ≠ 0 → r.queued q ≠ 0)
    (hb : r'.bearing = update r.bearing i (some (p, phase))) : r'.TakenBy o := by
  refine ⟨fun q h => taken.queued q (hq q h), fun j q x hj => ?_⟩
  rw [hb] at hj
  by_cases hji : j = i
  · subst hji
    obtain ⟨rfl, -⟩ : p = q ∧ phase = x := by simpa using hj
    exact ho
  · rw [Function.update_of_ne hji] at hj
    exact taken.bearing j q x hj

theorem change (taken : r.TakenBy (h.taker t)) (kept : r.Kept t h) (c : r.Change i t es r') :
    r'.TakenBy (Trace.taker (h ++ es.map (i, ·)) t) := by
  have quiet (hes : ∀ e ∈ es, e.taker? t = none) :
      Trace.taker (h ++ es.map (i, ·)) t = h.taker t := Trace.taker_same hes
  have others (hes : ∀ e ∈ es, e.concerns t = false) :
      Trace.taker (h ++ es.map (i, ·)) t = h.taker t :=
    quiet fun e he => Event.taker?_of_other (hes e he)
  cases c with
  | same hes => rwa [others hes]
  | hire _ hes => rw [others hes]; exact taken.same rfl rfl
  | @accept p n m hh ho =>
    obtain ⟨life, st, hat, -⟩ := kept
    obtain rfl := Record.Kept.life_caller hat hh ho
    have hp : Trace.taker (h ++ [Event.log (.submitted p t n), .metric p m].map (i, ·)) t =
        some p := by
      simp [Trace.taker, List.filterMap_append, Event.taker?]
    rw [hp]
    exact accept hat
  | take _ _ _ => rw [quiet (by simp [Event.taker?])]; exact taken.same rfl rfl
  | surrender _ _ => rw [quiet (by simp)]; exact taken.same rfl rfl
  | abandon _ _ hes => rw [others hes]; exact taken.same rfl rfl
  | clear _ _ _ => rw [quiet (by simp)]; exact taken.same rfl rfl
  | @claim p _ hq hes =>
    rw [others hes]
    refine taken.carry (taken.queued p hq) (fun q hq' => ?_) rfl
    by_cases hqp : q = p
    · exact hqp ▸ hq
    · simpa [hqp] using hq'
  | begin hb _ =>
    rw [quiet (by simp [Event.taker?])]
    exact taken.carry (taken.bearing i _ _ hb) (fun _ => id) rfl
  | beginEmpty hb _ =>
    rw [quiet (by simp)]
    exact taken.carry (taken.bearing i _ _ hb) (fun _ => id) rfl
  | endWork hb _ =>
    rw [quiet (by simp [Event.taker?])]
    exact taken.carry (taken.bearing i _ _ hb) (fun _ => id) rfl
  | stash hb =>
    rw [quiet (by simp)]
    exact taken.carry (taken.bearing i _ _ hb) (fun _ => id) rfl
  | count hb hes =>
    rw [others hes]
    exact taken.carry (taken.bearing i _ _ hb) (fun _ => id) rfl
  | retire hb hes =>
    rw [others hes]
    refine ⟨taken.queued, fun j q x hj => ?_⟩
    by_cases hji : j = i
    · simp [hji] at hj
    · exact taken.bearing j q x (by simpa [hji] using hj)

end Record.TakenBy

namespace System

variable {s : System} {h : Trace} {callers : Nat} {p : PoolId} {pool : Pool} {t : TaskId}
  {i : ThreadId} {phase : Phase}

theorem taken_start (callers : Nat) (t : TaskId) :
    ((start callers).record t).TakenBy (Trace.taker [] t) := by
  refine ⟨fun p hq => absurd rfl hq, fun i p phase hb => ?_⟩
  obtain ⟨th, k, hth, hr⟩ := has_of_bearing hb
  rw [List.eq_of_mem_replicate (List.mem_of_getElem? hth)] at hr
  cases hr

theorem Run.taken (run : Run callers h s) (t : TaskId) : (s.record t).TakenBy (h.taker t) := by
  have := run.keeps (P := fun h s => (s.record t).Kept t h ∧ (s.record t).TakenBy (h.taker t))
    ⟨kept_start callers t, taken_start callers t⟩
    fun _ both m => ⟨both.1.change (m.change t), both.2.change both.1 (m.change t)⟩
  exact this.2

/-- What a pool has in its queue, or one of its workers in hands, has been accepted by it and not
been joined since. -/
theorem Run.unjoined (run : Run callers h s)
    (has : (s.record t).queued p ≠ 0 ∨ ∃ i phase, (s.record t).bearing i = some (p, phase)) :
    ∃ h₁ i n h₂, h = h₁ ++ (i, .log (.submitted p t n)) :: h₂ ∧ ∀ j r, (j, .joined t r) ∉ h₂ := by
  obtain ⟨life, st, hat, story⟩ := run.kept t
  have hp : h.taker t = some p := by
    rcases has with hq | ⟨i, phase, hb⟩
    · exact (run.taken t).queued p hq
    · exact (run.taken t).bearing i p phase hb
  refine story.unjoined (fun n hst => ?_) hp
  subst hst
  obtain rfl := hat.idle
  rcases has with hq | ⟨i, phase, hb⟩
  · cases hat.of_queued hq
  · cases hat.of_bearing hb

/-- A pool has nothing to do once all it has accepted has been joined. -/
theorem Run.idle_of_joined (run : Run callers h s) (hp : s.pools[p]? = some pool)
    (joined : ∀ h₁ i t n h₂, h = h₁ ++ (i, .log (.submitted p t n)) :: h₂ →
      ∃ j r, (j, .joined t r) ∈ h₂) : pool.queue.isEmpty ∧ pool.runningCount = 0 := by
  have none (t : TaskId) : ¬ ((s.record t).queued p ≠ 0 ∨
      ∃ i phase, (s.record t).bearing i = some (p, phase)) := fun has => by
    obtain ⟨h₁, i, n, h₂, hsplit, hno⟩ := run.unjoined has
    obtain ⟨j, r, hmem⟩ := joined h₁ i t n h₂ hsplit
    exact hno j r hmem
  constructor
  · refine List.isEmpty_iff.mpr (List.eq_nil_iff_forall_not_mem.mpr fun t ht => ?_)
    refine none t (.inl ?_)
    rw [queued_eq hp]
    exact (List.count_pos_iff.mpr ht).ne'
  · rw [run.books.busy hp]
    refine List.countP_eq_zero.mpr fun th hth hbusy => ?_
    obtain ⟨i, hi⟩ := List.getElem?_of_mem hth
    cases hr : th.role with
    | caller => simp [Thread.isBusyIn, hr] at hbusy
    | worker q k phase =>
      obtain ⟨rfl, hphase⟩ : q = p ∧ phase.task?.isSome := by
        simpa [Thread.isBusyIn, hr] using hbusy
      obtain ⟨t, ht⟩ := Option.isSome_iff_exists.mp hphase
      have has : s.Has i q phase := ⟨th, k, hi, hr⟩
      exact none t (.inr ⟨i, phase, has.bearing ht⟩)

end System

end WorkerPool
