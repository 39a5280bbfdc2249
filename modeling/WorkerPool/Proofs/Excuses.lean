import WorkerPool.Proofs.ExactlyOnce
import WorkerPool.Proofs.Partings
import WorkerPool.Proofs.Teardown

/-!
Panics of works, excused.

The work of a task panics, or it returns a value instead: the two states differ in one outcome, and
once the worker has counted the execution in two of its counters. A mask excuses the panic, and the
states go on in step. Only who lets go of the outcome does more where it is a value, for that has a
destructor.
-/
namespace WorkerPool

/-- The outcome, as if the given invocation had returned the value. -/
def Outcome.excused (t : TaskId) (n : Nat) (v : Value) (u : TaskId) (o : Outcome) : Outcome :=
  if u = t ∧ o.run = n then ⟨n, .value v⟩ else o

/-- The counters, as if one execution had counted as completed instead of panicked. -/
def WorkerStats.excused (stats : WorkerStats) : WorkerStats :=
  ⟨{ stats.counters with
    completed := stats.counters.completed + 1, panicked := stats.counters.panicked - 1 }⟩

/-- The pool, as if one execution by the worker on the given thread had counted as completed. -/
def Pool.excused (i : ThreadId) (pool : Pool) : Pool :=
  { pool with crew := pool.crew.map fun member =>
      if member.thread = i then { member with stats := member.stats.excused } else member }

/-- Whether the execution of the task counts as panicked. -/
def Event.blames (t : TaskId) : Event → Bool
  | log (.panicked _ _ u) => u == t
  | _ => false

/-- Whether an execution of the task by the worker on the thread has counted as panicked. -/
def Trace.blames (h : Trace) (i : ThreadId) (t : TaskId) : Bool :=
  h.any fun e => e.1 == i && e.2.blames t

/-- Excuses the panic of one invocation of the task, which the worker on the thread `i` has counted
or not. -/
def Mask.excuse (t : TaskId) (n : Nat) (v : Value) (i : ThreadId) (counted : Bool) : Mask where
  slot u slot := { slot with outcome := slot.outcome.map (.excused t n v u) }
  outcome := .excused t n v
  returned u returned := returned || (u == t && !counted)
  item
    | .outcome u o => some (.outcome u (o.excused t n v u))
    | d => some d
  stats j stats := if counted && j == i then stats.excused else stats

namespace WorkerStats

variable {stats : WorkerStats}

theorem excused_addPanicked : stats.addPanicked.excused = stats.addCompleted := by
  simp [excused, addPanicked, addCompleted]

theorem addPanicked_excused : stats.excused.addPanicked = stats.addCompleted := by
  simp [excused, addPanicked, addCompleted]

end WorkerStats

namespace Mask

variable {t u : TaskId} {n : Nat} {v : Value} {i : ThreadId} {counted : Bool} {o : Outcome}

theorem excused_run : (o.excused t n v u).run = o.run := by
  unfold Outcome.excused
  split
  · next h => exact h.2.symm
  · rfl

theorem excuse_lawful : (excuse t n v i counted).Lawful where
  holds u todo failure releasing := by
    simp only [Frame.holds, List.countP_filterMap]
    refine List.countP_congr fun d _ => ?_
    cases d <;> rfl
  reference _ := rfl
  contents u slot := by
    obtain ⟨state, ownership, work, outcome⟩ := slot
    cases work <;> cases outcome <;> rfl
  clear _ _ := rfl
  calm := rfl
  completed j stats := by
    simp only [excuse]
    split <;> rfl
  panicked j stats := by
    simp only [excuse]
    split
    · rw [WorkerStats.excused_addPanicked, WorkerStats.addPanicked_excused]
    · rfl

theorem excuse_shares : (excuse t n v i counted).Shares u :=
  ⟨⟨fun _ => rfl, fun _ => rfl, rfl⟩, rfl, rfl⟩

/-- An outcome of another invocation stays what it is. -/
theorem excused_ne (h : u = t → o.run ≠ n) : o.excused t n v u = o :=
  if_neg fun ⟨hu, ho⟩ => h hu ho

theorem excuse_keeps (h : u = t → o.run = n → o.returned) :
    (excuse t n v i counted).Keeps (.outcome u o) := by
  refine ⟨_, rfl, ?_, excused_run⟩
  unfold Outcome.excused
  split
  · next hx => exact (h hx.1 hx.2).symm
  · rfl

end Mask

/-! ### The course of an execution -/

section records

variable {r r' : Record} {t : TaskId} {h : Trace} {i j : ThreadId} {p q : PoolId}
  {phase phase' : Phase} {es : List Event} {n : Nat}

/-- One worker at most has the task in hands. -/
theorem Record.Kept.sole (kept : r.Kept t h) (hb : r.bearing i = some (p, phase))
    (hb' : r.bearing j = some (q, phase')) : j = i ∧ q = p ∧ phase' = phase := by
  obtain ⟨life, st, hat, -⟩ := kept
  cases (hat.of_bearing hb).symm.trans (hat.of_bearing hb')
  exact ⟨rfl, rfl, rfl⟩

/-- The invocation that runs has not ended. -/
theorem Record.Kept.unended (kept : r.Kept t h) (hb : r.bearing i = some (p, .running t)) :
    h.endings t r.runs = 0 := by
  obtain ⟨life, st, hat, story⟩ := kept
  obtain rfl := hat.of_bearing hb
  obtain ⟨rfl, -⟩ := hat.agrees
  have begun := story.begun_pos rfl
  have none : ¬ (1 ≤ r.runs ∧ r.runs ≤ r.runs - 1) := by omega
  rw [story.endings_eq, Stage.finished, if_neg none]

/-- No worker is about to stash an outcome of the invocation. -/
def Past (n : Nat) (bearing : ThreadId → Option (PoolId × Phase)) : Prop :=
  ∀ j p t work o, bearing j = some (p, .stashing t work o) → o.run ≠ n

theorem Past.update {bearing : ThreadId → Option (PoolId × Phase)} {x : Option (PoolId × Phase)}
    (past : Past n bearing) (hx : ∀ p t work o, x = some (p, .stashing t work o) → o.run ≠ n) :
    Past n (Function.update bearing i x) := by
  intro j p t work o hj
  by_cases hij : j = i
  · subst hij
    exact hx p t work o (by simpa using hj)
  · exact past j p t work o (by rwa [Function.update_of_ne hij] at hj)

/-- Once the invocation has ended and its outcome is stashed, it stays so. -/
theorem Record.Change.past (c : r.Change i t es r') (kept : r.Kept t h)
    (ended : h.endings t n ≠ 0) (past : Past n r.bearing) : Past n r'.bearing := by
  cases c with
  | same | hire | accept | take | surrender | abandon | clear => exact past
  | claim | begin | stash | count | retire => exact past.update nofun
  | beginEmpty hb hw => simp [kept.equipped hb] at hw
  | endWork hb ho =>
    refine past.update fun p t work o ho' hn => ended ?_
    cases ho'
    rw [← hn, ho, kept.unended hb]

end records

theorem Trace.blames_append (h h' : Trace) (i : ThreadId) (t : TaskId) :
    blames (h ++ h') i t = (h.blames i t || h'.blames i t) := List.any_append

theorem Trace.endings_append (h h' : Trace) (t : TaskId) (n : Nat) :
    endings (h ++ h') t n = h.endings t n + h'.endings t n := List.countP_append

namespace System

variable {callers : Nat} {h : Trace} {s s' : System} {i j : ThreadId} {a : Action}
  {es : List Event} {p : PoolId} {pool : Pool} {k : Nat} {pick : Pick} {t u : TaskId} {n : Nat}
  {v : Value} {phase : Phase} {counted : Bool} {todo : List Disposal} {failure : Option Payload}
  {releasing : Bool} {rest : List Frame}

theorem Moves.past (ms : Moves j s es s') (kept : (s.record t).Kept t h)
    (ended : h.endings t n ≠ 0) (past : Past n (s.bearing t)) : Past n (s'.bearing t) := by
  induction ms generalizing h with
  | nil => exact past
  | @cons s s₁ s₂ es₁ es₂ m _ ih =>
    refine ih (kept.change (m.change t)) ?_ ((m.change t).past kept ended past)
    rw [Trace.endings_append]
    omega

/-- A worker that has a task in hands sleeps through no wake-up. -/
theorem Spares.working (spares : Spares s s' i) (hj : j ≠ i) (hw : s.Working j p k phase)
    (busy : phase.task? = some t) : s'.Working j p k phase := by
  obtain ⟨th, hth, hr, hc⟩ := hw
  obtain ⟨th', hth', woken⟩ := spares j th hj hth
  refine ⟨th', hth', ?_⟩
  clear hth'
  induction woken with
  | refl => exact ⟨hr, hc⟩
  | wake c _ ih =>
    refine ⟨?_, by simp [ih.2]⟩
    rw [Thread.role_wake, ih.1]
    cases phase <;> first | rfl | cases busy

/-- How far the worker on the thread has come with the outcome of an invocation that has panicked:
it is still to count the execution, or has done so. -/
inductive Excusable (s : System) (i : ThreadId) (t : TaskId) (n : Nat) : Bool → Prop
  | stashing {p : PoolId} {k : Nat} {o : Outcome} : o.run = n → o.returned = false →
      s.Working i p k (.stashing t true o) → Excusable s i t n false
  | stashed {p : PoolId} {k : Nat} : s.Working i p k (.stashed t false) → Excusable s i t n false
  | counted {p : PoolId} {k : Nat} {st : Station} : s.posts[i]? = some (some ⟨p, k, st⟩) →
      Past n (s.bearing t) → Excusable s i t n true

/-- A worker that is in no user code can only go on. -/
theorem Working.step_eq (hw : s.Working i p k phase) (code : ∀ t, phase ≠ .running t) :
    s.step i a = match a with
      | .advance _ => s.work? i p k phase
      | _ => none := by
  obtain ⟨th, hth, hr, hc⟩ := hw
  cases a with
  | call op pick =>
    cases phase <;> first | exact absurd rfl (code _) | simp [step, hth, Thread.inUserCode, hc, hr]
  | finish ending =>
    cases phase <;> first | exact absurd rfl (code _) | simp [step, hth, finish?, hc, hr]
  | advance pick => simp [step, hth, advance?, hc, hr]
  | expire => simp [step, hth, expire?, hc]

/-- A step of a worker that is about to stash an outcome. -/
theorem Working.step_stashing {work : Bool} {o : Outcome}
    (hw : s.Working i p k (.stashing t work o)) (hs : s.step i a = some (s', es)) :
    es = [] ∧ s'.Working i p k (.stashed t o.returned) := by
  rw [hw.step_eq nofun] at hs
  obtain ⟨th, hth, hr, hc⟩ := hw
  cases a with
  | advance pick =>
    obtain ⟨pool, hp, hs⟩ := Option.bind_eq_some_iff.mp hs
    obtain ⟨task, ht, hs⟩ := Option.bind_eq_some_iff.mp hs
    cases hs
    refine ⟨rfl, th.setPhase (.stashed t o.returned), ?_, Thread.role_setPhase hr, ?_⟩
    · simp [getElem?_onThread, setSlot, hth]
    · rw [Thread.calls_setPhase, hc]
  | _ => cases hs

/-- A step of a worker that is about to count an execution. -/
theorem Working.step_stashed {returned : Bool} (hw : s.Working i p k (.stashed t returned))
    (hs : s.step i a = some (s', es)) : ∃ pool pick, s.pools[p]? = some pool ∧ a = .advance pick ∧
      s.count i p pool k t returned = (s', es) ∧ s'.Working i p k (.counted t) := by
  rw [hw.step_eq nofun] at hs
  obtain ⟨th, hth, hr, hc⟩ := hw
  cases a with
  | advance pick =>
    obtain ⟨pool, hp, hs⟩ := Option.bind_eq_some_iff.mp hs
    refine ⟨pool, pick, hp, rfl, Option.some.inj hs, ?_⟩
    cases hs
    refine ⟨_, by simp only [getElem?_onThread, setPool, hth, if_true]; rfl, ?_, ?_⟩
    · exact Thread.role_setPhase hr
    · exact (Thread.calls_setPhase).trans hc
  | _ => cases hs

/-! ### Steps -/

theorem blames_other (hj : j ≠ i) : Trace.blames (es.map (j, ·)) i t = false := by
  simp [Trace.blames, hj]

/-- The worker goes on with the outcome, and counts the execution as panicked. -/
theorem Excusable.step (run : Run callers h s) (ended : h.endings t n ≠ 0)
    (x : s.Excusable i t n counted) (hs : s.step j a = some (s', es)) :
    s'.Excusable i t n (counted || Trace.blames (es.map (j, ·)) i t) := by
  have ms := moves_of_step run.calls hs
  cases x with
  | counted hpost past =>
    obtain ⟨st', hpost', -⟩ := ms.station hpost
    exact .counted hpost' (ms.past (run.kept t) ended past)
  | stashing hrun hret hw =>
    by_cases hj : j = i
    · subst hj
      obtain ⟨rfl, hw'⟩ := hw.step_stashing hs
      exact .stashed (hret ▸ hw')
    · rw [blames_other hj]
      exact .stashing hrun hret (ms.spares.working (Ne.symm hj) hw rfl)
  | stashed hw =>
    by_cases hj : j = i
    · subst hj
      obtain ⟨pool, pick, hp, rfl, he, hw'⟩ := hw.step_stashed hs
      have blamed : Trace.blames (es.map (j, ·)) j t := by
        obtain ⟨-, rfl⟩ := Prod.mk.inj he
        simp [Trace.blames, Event.blames]
      rw [blamed, Bool.or_true]
      refine .counted hw'.post fun i q u work o hb => ?_
      have sole := ((run.step hs).kept t).sole (hw'.bearing_self rfl) hb
      cases sole.2.2
    · rw [blames_other hj]
      exact .stashed (ms.spares.working (Ne.symm hj) hw rfl)

/-- The worker is about to count the execution as panicked. -/
def Counts (s : System) (i : ThreadId) (t : TaskId) : Prop :=
  ∃ p k, s.Working i p k (.stashed t false)

/-- A worker is about to stash an outcome of the invocation until the execution counts. -/
theorem Excusable.run_eq {work : Bool} {o : Outcome} (x : s.Excusable i t n counted)
    (kept : (s.record t).Kept t h) (hw : s.Working j p k (.stashing t work o)) :
    o.run = n ↔ counted = false := by
  have hb : (s.record t).bearing j = _ := hw.bearing_self rfl
  cases x with
  | stashing hrun _ hw' =>
    cases (kept.sole (hw'.bearing_self rfl) hb).2.2
    exact iff_of_true hrun rfl
  | stashed hw' => cases (kept.sole (hw'.bearing_self rfl) hb).2.2
  | counted _ past => exact iff_of_false (past j p t work o hb) nofun

/-- A worker that has stashed a task is the one that is to count the execution. -/
theorem Excusable.sole {returned : Bool} (x : s.Excusable i t n false)
    (kept : (s.record t).Kept t h) (hw : s.Working j p k (.stashed t returned)) :
    j = i ∧ returned = false := by
  have hb : (s.record t).bearing j = _ := hw.bearing_self rfl
  cases x with
  | stashing _ _ hw' => cases (kept.sole (hw'.bearing_self rfl) hb).2.2
  | stashed hw' =>
    obtain ⟨rfl, -, hphase⟩ := kept.sole (hw'.bearing_self rfl) hb
    cases hphase
    exact ⟨rfl, rfl⟩

/-- A step fits the mask if it neither lets go of the outcome nor counts the execution. -/
theorem Excusable.fits (run : Run callers h s) (ended : h.endings t n ≠ 0)
    (x : s.Excusable i t n counted) (shown : s.Shows (Mask.excuse t n v i counted) j)
    (counts : counted = false → ¬ s.Counts j t) :
    ∀ th, s.threads[j]? = some th → (Mask.excuse t n v i counted).Fits s th a := by
  intro th hth
  refine ⟨Mask.excuse_shares.toPlain, ?_, fun _ _ _ _ => Mask.excuse_shares, fun f rest hc => ?_,
    fun p k phase hc hr => ?_, fun _ _ _ _ _ _ => rfl⟩
  · cases x with
    | counted hpost _ =>
      have hlt := (List.getElem?_eq_some_iff.mp hpost).1
      have hne : s.threads.length ≠ i := by
        simp only [posts, List.length_map] at hlt
        omega
      simp [Mask.excuse, hne]
    | _ => rfl
  · cases f with
    | disposing todo failure releasing =>
      cases todo with
      | nil => trivial
      | cons d todo => exact shown d todo failure releasing rest ⟨th, hth, hc⟩
    | awaitingWorker | awaitingOutcome => exact Mask.excuse_shares.toPlain
    | _ => trivial
  · have hw : s.Working j p k phase := ⟨th, hth, hr, hc⟩
    cases phase with
    | holding u =>
      refine ⟨Mask.excuse_shares.toPlain, fun task ht empty ending => ?_⟩
      have equipped := (run.kept u).equipped (hw.bearing_self rfl)
      rw [record_slot ht, empty] at equipped
      cases equipped
    | running u =>
      intro task ht ending
      refine Mask.excused_ne fun hu hn => ended ?_
      subst hu
      have unended := (run.kept u).unended (hw.bearing_self rfl)
      rwa [record_runs ht, show task.runs = n from hn] at unended
    | stashing u work o =>
      refine ⟨Mask.excuse_shares.toPlain, ?_⟩
      by_cases hu : u = t
      · subst hu
        have hn := x.run_eq (run.kept u) hw
        cases counted <;> simp_all [Mask.excuse, Outcome.excused, Outcome.returned]
      · simp [Mask.excuse, Outcome.excused, hu]
    | stashed u returned =>
      show (returned || (u == t && !counted)) = returned
      by_cases hu : u = t
      · subst hu
        cases counted with
        | true => simp
        | false =>
          obtain ⟨-, rfl⟩ := x.sole (run.kept u) hw
          exact absurd ⟨p, k, hw⟩ (counts rfl)
      · simp [hu]
    | counted u => exact Mask.excuse_shares.toPlain
    | _ => trivial

/-! ### The count of the execution -/

theorem Working.apply (m : Mask) (hw : s.Working i p k phase) :
    (m.apply s).Working i p k (m.phase phase) := by
  obtain ⟨th, hth, hr, hc⟩ := hw
  exact ⟨m.thread th, by simp [hth], by simp [Mask.role, hr], by simp [hc]⟩

theorem Inside.apply {calls : List Frame} (m : Mask) (hi : s.Inside i calls) :
    (m.apply s).Inside i (calls.map m.frame) := by
  obtain ⟨th, hth, rfl⟩ := hi
  exact ⟨m.thread th, by simp [hth], rfl⟩

/-- A worker thread is the member of one pool only. -/
theorem Books.member {q : PoolId} {l : Nat} {member : Member} (books : s.Books)
    (hw : s.Working i p k phase) (hq : s.pools[q]? = some pool)
    (hm : pool.crew[l]? = some member) : member.thread = i ↔ q = p ∧ l = k := by
  have hand : pool.hands[l]? = some member.thread := by simp [Pool.hands, hm]
  have crew := (books.pools q pool hq).crew
  constructor
  · intro h
    obtain ⟨st, hst⟩ := (crew l i).mp (h ▸ hand)
    obtain ⟨rfl, rfl, -⟩ := by simpa using hw.post.symm.trans hst
    exact ⟨rfl, rfl⟩
  · rintro ⟨rfl, rfl⟩
    exact Option.some.inj (hand.symm.trans ((crew l i).mpr ⟨_, hw.post⟩))

/-- The pool that counts a panic, excused, is the pool that counts a completion. -/
theorem Books.excuse_count (books : s.Books) (hw : s.Working i p k phase)
    (hp : s.pools[p]? = some pool) : (Mask.excuse t n v i true).pool (pool.count k false) =
      ((Mask.excuse t n v i false).pool pool).count k true := by
  have crew : (pool.count k false).crew.map (Mask.excuse t n v i true).member =
      (((Mask.excuse t n v i false).pool pool).count k true).crew := by
    apply List.ext_getElem?
    intro l
    simp only [Pool.count, Mask.pool_crew, List.getElem?_map, List.getElem?_modify]
    cases hm : pool.crew[l]? with
    | none => rfl
    | some member =>
      have hi := books.member hw hp hm
      by_cases hl : k = l
      · subst hl
        simp [Mask.member, Mask.excuse, hi.mpr ⟨rfl, rfl⟩, WorkerStats.excused_addPanicked]
      · have hne : member.thread ≠ i := fun h => hl (hi.mp h).2.symm
        simp [Mask.member, Mask.excuse, hl, hne]
  exact congrArg (fun crew => { pool with crew }) crew

/-- The count of the execution does not show in other pools. -/
theorem Books.excuse_other {q : PoolId} (books : s.Books) (hw : s.Working i p k phase)
    (hq : s.pools[q]? = some pool) (hne : q ≠ p) :
    (Mask.excuse t n v i true).pool pool = (Mask.excuse t n v i false).pool pool := by
  have crew : pool.crew.map (Mask.excuse t n v i true).member =
      pool.crew.map (Mask.excuse t n v i false).member := by
    apply List.map_congr_left
    intro member hmem
    obtain ⟨l, hm⟩ := List.getElem?_of_mem hmem
    have other : member.thread ≠ i := fun h => hne ((books.member hw hq hm).mp h).1
    simp [Mask.member, Mask.excuse, other]
  exact congrArg (fun crew => { pool with crew }) crew

/-- Whether the execution counts does not show in a thread that is not about to count it. -/
theorem Mask.excuse_thread {th : Thread}
    (h : ∀ p k returned, th.role ≠ .worker p k (.stashed t returned)) :
    (Mask.excuse t n v i true).thread th = (Mask.excuse t n v i false).thread th := by
  obtain ⟨role, calls, spans⟩ := th
  have same : (Mask.excuse t n v i true).role role = (Mask.excuse t n v i false).role role := by
    cases role with
    | caller => rfl
    | worker p k phase =>
      cases phase with
      | stashed u returned =>
        have hu : u ≠ t := fun hu => h p k returned (hu ▸ rfl)
        simp [Mask.role, Mask.phase, Mask.excuse, hu]
      | _ => rfl
  exact congrArg
    (fun role => Thread.mk role (calls.map (Mask.excuse t n v i false).frame) spans) same

/-- The count of a panic, excused, is the count of a completion. -/
theorem Run.excuse_counted (run : Run callers h s) (hw : s.Working i p k (.stashed t false))
    (hp : s.pools[p]? = some pool) :
    (Mask.excuse t n v i true).apply (s.count i p pool k t false).1 =
      (((Mask.excuse t n v i false).apply s).count i p ((Mask.excuse t n v i false).pool pool)
        k t true).1 := by
  have pools : (s.pools.set p (pool.count k false)).map (Mask.excuse t n v i true).pool =
      (s.pools.map (Mask.excuse t n v i false).pool).set p
        (((Mask.excuse t n v i false).pool pool).count k true) := by
    apply List.ext_getElem?
    intro q
    rw [List.map_set, run.books.excuse_count hw hp, List.getElem?_set, List.getElem?_set]
    by_cases hq : p = q
    · simp [hq]
    · rw [if_neg hq, if_neg hq, List.getElem?_map, List.getElem?_map]
      cases hpool : s.pools[q]? with
      | none => rfl
      | some other => simp [run.books.excuse_other hw hpool (Ne.symm hq)]
  have threads : (s.threads.modify i fun th =>
      { th.setPhase (.counted t) with spans := th.spans.leave (some .execution) }).map
        (Mask.excuse t n v i true).thread =
      (s.threads.map (Mask.excuse t n v i false).thread).modify i fun th =>
        { th.setPhase (.counted t) with spans := th.spans.leave (some .execution) } := by
    apply List.ext_getElem?
    intro j
    simp only [List.getElem?_map, List.getElem?_modify]
    cases hth : s.threads[j]? with
    | none => rfl
    | some th =>
      by_cases hj : i = j
      · subst hj
        obtain ⟨th', hth', hr, hc⟩ := hw
        obtain rfl : th = th' := Option.some.inj (hth.symm.trans hth')
        simp [Thread.setPhase, Mask.thread, Mask.role, Mask.phase, hr, hc]
      · have same :
            (Mask.excuse t n v i true).thread th = (Mask.excuse t n v i false).thread th := by
          refine Mask.excuse_thread fun q l returned hr => hj ?_
          have has : s.Has j q (.stashed t returned) := ⟨th, l, hth, hr⟩
          exact ((run.kept t).sole (hw.bearing_self rfl) (has.bearing rfl)).1.symm
        simp [hj, same]
  simp only [Mask.apply, System.count, setPool, onThread, System.mk.injEq]
  exact ⟨pools, rfl, threads⟩

/-! ### In step -/

/-- What keeps a step from fitting the mask. -/
theorem shows_or_panic (hidden : ¬ s.Shows (Mask.excuse t n v i counted) j) :
    ∃ o todo failure releasing rest,
      s.Inside j (.disposing (.outcome t o :: todo) failure releasing :: rest) ∧ o.run = n ∧
        o.returned = false := by
  obtain ⟨d, todo, failure, releasing, rest, hi, hd⟩ : ∃ d todo failure releasing rest,
      s.Inside j (.disposing (d :: todo) failure releasing :: rest) ∧
        ¬ (Mask.excuse t n v i counted).Keeps d := by
    simpa only [Shows, not_forall, exists_prop] using hidden
  cases d with
  | outcome u o =>
    by_contra none
    refine hd (Mask.excuse_keeps fun hu ho => ?_)
    subst hu
    by_contra hret
    exact none ⟨o, todo, failure, releasing, rest, hi, ho, by simpa using hret⟩
  | work | reference | record => exact absurd (by first | rfl | trivial | exact ⟨_, rfl⟩) hd
  | handle => exact absurd Mask.excuse_shares hd

/-- A panic is let go of without further ado, and the value that excuses it with a destructor that
calls nothing and returns. -/
theorem excuse_dispose {o : Outcome} (v : Value) (i : ThreadId) (counted : Bool) (ho : o.run = n)
    (hret : o.returned = false)
    (hi : s.Inside j (.disposing (.outcome t o :: todo) failure releasing :: rest))
    (hs : s.step j a = some (s', es)) : ∃ pick, a = .advance pick ∧ es = [] ∧
      ((Mask.excuse t n v i counted).apply s).replay
          [(j, .advance pick), (j, .finish (.ok .null))] =
        some ([(j, .destroying (.value t n))], (Mask.excuse t n v i counted).apply s') := by
  obtain ⟨pick, rfl⟩ := hi.advances hs
  obtain ⟨th, he⟩ := hi.disposes hs
  obtain ⟨rfl, rfl⟩ : s.enter j (.disposing todo failure releasing) = s' ∧ [] = es := by
    simpa [System.dispose, hret] using he
  refine ⟨pick, rfl, rfl, ?_⟩
  have excused : Outcome.excused t n v t o = ⟨n, .value v⟩ := by simp [Outcome.excused, ho]
  have shown (todo : List Disposal) : (Mask.excuse t n v i counted).frame
      (.disposing todo failure releasing) =
        .disposing (todo.filterMap (Mask.excuse t n v i counted).item) failure releasing := by
    cases releasing <;> rfl
  have hi' := hi.apply (.excuse t n v i counted)
  rw [List.map_cons, shown] at hi'
  have hr := replay_value pick .null (by rw [excused]; rfl) hi'
  rw [excused] at hr
  rw [hr, Mask.apply_enter, shown]

/-- Only the worker that is to count the execution does so. -/
theorem Excusable.still (x : s.Excusable i t n counted) (hs : s.step j a = some (s', es))
    (counts : counted = false → ¬ s.Counts j t) :
    (counted || Trace.blames (es.map (j, ·)) i t) = counted := by
  by_cases hj : j = i
  · subst hj
    cases x with
    | stashing _ _ hw =>
      obtain ⟨rfl, -⟩ := hw.step_stashing hs
      rfl
    | stashed hw => exact absurd ⟨_, _, hw⟩ (counts rfl)
    | counted => rfl
  · rw [blames_other hj, Bool.or_false]

/-- The worker counts the panic, and a completion in the masked state. -/
theorem Run.lockstep_count (run : Run callers h s) (hw : s.Working i p k (.stashed t false))
    (hs : s.step i a = some (s', es)) : Trace.blames (es.map (i, ·)) i t ∧
      ∃ es', ((Mask.excuse t n v i false).apply s).step i a =
          some ((Mask.excuse t n v i true).apply s', es') ∧
        es'.filter Event.isCode = es.filter Event.isCode := by
  obtain ⟨pool, pick, hp, rfl, he, -⟩ := hw.step_stashed hs
  obtain ⟨rfl, rfl⟩ : (s.count i p pool k t false).1 = s' ∧
      [.log (.panicked p k t), .metric p (.panic none)] = es :=
    ⟨congrArg Prod.fst he, congrArg Prod.snd he⟩
  have hw' : ((Mask.excuse t n v i false).apply s).Working i p k (.stashed t true) := by
    simpa [Mask.phase, Mask.excuse] using hw.apply (.excuse t n v i false)
  refine ⟨by simp [Trace.blames, Event.blames], [.metric p (.completion none)], ?_, rfl⟩
  rw [hw'.step_eq (by simp), run.excuse_counted hw hp]
  simp only [work?, Mask.apply_pool?, hp, Option.map_some]
  rfl

/-- The state in which the work has panicked, excused, goes on in step. -/
theorem Excusable.lockstep (run : Run callers h s) (ended : h.endings t n ≠ 0)
    (x : s.Excusable i t n counted) (hs : s.step j a = some (s', es)) :
    (∃ es', ((Mask.excuse t n v i counted).apply s).step j a =
        some ((Mask.excuse t n v i (counted || Trace.blames (es.map (j, ·)) i t)).apply s', es') ∧
      es'.filter Event.isCode = es.filter Event.isCode) ∨
    ∃ o todo failure releasing rest pick,
      s.Inside j (.disposing (.outcome t o :: todo) failure releasing :: rest) ∧ o.run = n ∧
        a = .advance pick ∧ es = [] ∧ ((Mask.excuse t n v i counted).apply s).replay
          [(j, .advance pick), (j, .finish (.ok .null))] =
            some ([(j, .destroying (.value t n))],
              (Mask.excuse t n v i (counted || Trace.blames (es.map (j, ·)) i t)).apply s') := by
  by_cases shown : s.Shows (Mask.excuse t n v i counted) j
  · left
    by_cases counts : counted = false ∧ s.Counts j t
    · obtain ⟨rfl, p, k, hw⟩ := counts
      obtain ⟨rfl, -⟩ := x.sole (run.kept t) hw
      obtain ⟨blamed, step⟩ := run.lockstep_count hw hs
      rwa [blamed, Bool.or_true]
    · have other (hc : counted = false) : ¬ s.Counts j t := fun hcounts => counts ⟨hc, hcounts⟩
      rw [x.still hs other]
      exact Mask.step_some Mask.excuse_lawful (x.fits run ended shown other) hs
  · obtain ⟨o, todo, failure, releasing, rest, hi, ho, hret⟩ := shows_or_panic shown
    obtain ⟨pick, rfl, rfl, hr⟩ :=
      excuse_dispose v i counted ho hret hi hs
    refine .inr ⟨o, todo, failure, releasing, rest, pick, hi, ho, rfl, rfl, ?_⟩
    rwa [List.map_nil, show Trace.blames [] i t = false from rfl, Bool.or_false]

/-- Whatever is possible where the work has panicked is possible where the panic is excused. -/
theorem Excusable.isSome_step (run : Run callers h s) (ended : h.endings t n ≠ 0)
    (x : s.Excusable i t n counted) : (((Mask.excuse t n v i counted).apply s).step j a).isSome =
      (s.step j a).isSome := by
  by_cases shown : s.Shows (Mask.excuse t n v i counted) j
  · by_cases counts : counted = false ∧ s.Counts j t
    · obtain ⟨rfl, p, k, hw⟩ := counts
      have hw' := hw.apply (.excuse t n v i false)
      have phase : (Mask.excuse t n v i false).phase (.stashed t false) = .stashed t true := by
        simp [Mask.phase, Mask.excuse]
      rw [phase] at hw'
      rw [hw.step_eq (by simp), hw'.step_eq (by simp)]
      cases a with
      | advance pick => cases hp : s.pools[p]? <;> simp [work?, hp]
      | _ => rfl
    · exact Mask.isSome_step Mask.excuse_lawful
        (x.fits run ended shown fun hc hcounts => counts ⟨hc, hcounts⟩)
  · obtain ⟨o, todo, failure, releasing, rest, hi, -⟩ := shows_or_panic shown
    obtain ⟨th, hstep⟩ := hi.step_eq (a := a)
    obtain ⟨th', hstep'⟩ := (hi.apply (.excuse t n v i counted)).step_eq (a := a)
    rw [hstep, hstep']
    cases a <;> rfl

/-! ### Runs -/

/-- The second schedule is the first one, and where a thread lets go of the outcome of the given
invocation it has a destructor return besides. -/
inductive Pays (t : TaskId) (n : Nat) :
    System → List (ThreadId × Action) → List (ThreadId × Action) → Prop
  | nil (s : System) : Pays t n s [] []
  | both {s s' : System} {j : ThreadId} {a : Action} {es : List Event}
      {σ σ' : List (ThreadId × Action)} : s.step j a = some (s', es) → Pays t n s' σ σ' →
      Pays t n s ((j, a) :: σ) ((j, a) :: σ')
  | value {s s' : System} {j : ThreadId} {pick : Pick} {es : List Event} {o : Outcome}
      {todo : List Disposal} {failure : Option Payload} {releasing : Bool} {rest : List Frame}
      {σ σ' : List (ThreadId × Action)} :
      s.Inside j (.disposing (.outcome t o :: todo) failure releasing :: rest) → o.run = n →
      s.step j (.advance pick) = some (s', es) → Pays t n s' σ σ' →
      Pays t n s ((j, .advance pick) :: σ) ((j, .advance pick) :: (j, .finish (.ok .null)) :: σ')

/-- Whether the destructor of the value of the given invocation begins. -/
def discards (t : TaskId) (n : Nat) : Event → Bool
  | .destroying (.value u m) => u == t && m == n
  | _ => false

/-- What happens where the work has panicked happens where the panic is excused. -/
theorem Excusable.follows {g : Trace} {σ : List (ThreadId × Action)} (run : Run callers h s)
    (ended : h.endings t n ≠ 0) (x : s.Excusable i t n counted)
    (hr : s.replay σ = some (g, s')) : s'.Excusable i t n (counted || g.blames i t) ∧
      ∃ σ' g', Pays t n s σ σ' ∧ g'.codeBut (discards t n) = g.codeBut (discards t n) ∧
        ((Mask.excuse t n v i counted).apply s).replay σ' =
          some (g', (Mask.excuse t n v i (counted || g.blames i t)).apply s') := by
  induction σ generalizing h g s counted with
  | nil =>
    cases hr
    rw [show Trace.blames [] i t = false from rfl, Bool.or_false]
    exact ⟨x, [], [], .nil _, rfl, rfl⟩
  | cons move σ ih =>
    obtain ⟨j, a⟩ := move
    obtain ⟨s₁, es, g₁, hs, hr₁, rfl⟩ := replay_cons hr
    have ended₁ : Trace.endings (h ++ es.map (j, ·)) t n ≠ 0 := by
      rw [Trace.endings_append]
      omega
    obtain ⟨x', σ', g', pays, code, hr'⟩ := ih (run.step hs) ended₁ (x.step run ended hs) hr₁
    rw [Trace.blames_append, ← Bool.or_assoc]
    refine ⟨x', ?_⟩
    obtain ⟨es', hs', same⟩ | ⟨o, todo, failure, releasing, rest, pick, hi, ho, rfl, rfl, hd⟩ :=
      x.lockstep (v := v) run ended hs
    · refine ⟨(j, a) :: σ', es'.map (j, ·) ++ g', .both hs pays, ?_, ?_⟩
      · have shows : Trace.code (es'.map (j, ·)) = Trace.code (es.map (j, ·)) := by
          rw [Trace.code_map, Trace.code_map, same]
        rw [Trace.codeBut_append, Trace.codeBut_append, code, Trace.codeBut_of_code shows]
      · simp [System.replay, hs', hr']
    · refine ⟨_, _, .value hi ho hs pays, ?_, replay_append hd hr'⟩
      rw [Trace.codeBut_append, code]
      simp [Trace.codeBut, Trace.code, Event.isCode, discards]

/-! ### Pools with an excuse -/

theorem posts_apply (m : Mask) : (m.apply s).posts = s.posts := by
  have post (th : Thread) : (m.thread th).post = th.post := by
    obtain ⟨role, calls, spans⟩ := th
    cases role with
    | caller => rfl
    | worker p k phase => cases phase <;> rfl
  simp [posts, Mask.apply_threads, Function.comp_def, post]

theorem excuse_pool :
    (Mask.excuse t n v i counted).pool = if counted then Pool.excused i else id := by
  have member (x : Member) : (Mask.excuse t n v i counted).member x =
      if counted ∧ x.thread = i then { x with stats := x.stats.excused } else x := by
    simp only [Mask.member, Mask.excuse, Bool.and_eq_true, beq_iff_eq]
    split <;> rfl
  funext pool
  cases counted with
  | true => simp [Mask.pool, Pool.excused, member]
  | false =>
    have same : (Mask.excuse t n v i false).member = id := funext fun x => by simp [member]
    simp [Mask.pool, same]

theorem pools_excuse : ((Mask.excuse t n v i counted).apply s).pools =
    if counted then s.pools.map (Pool.excused i) else s.pools := by
  cases counted <;> simp [Mask.apply_pools, excuse_pool]

/-! ### The end of the work -/

/-- A frame without an outcome of the invocation shows as it is. -/
theorem excuse_frame {f : Frame} (none : f.carries t (·.run == n) = 0) :
    (Mask.excuse t n v i counted).frame f = f := by
  cases f with
  | disposing todo failure releasing =>
    have items : todo.filterMap (Mask.excuse t n v i counted).item = todo.filterMap some := by
      refine List.filterMap_congr fun d hd => ?_
      cases d with
      | outcome u o =>
        have other := List.countP_eq_zero.mp none _ hd
        have same : o.excused t n v u = o :=
          Mask.excused_ne fun hu hn => other (by simp [Disposal.carries, hu, hn])
        simp [Mask.excuse, same]
      | _ => rfl
    rw [List.filterMap_some] at items
    cases releasing <;> simp only [Mask.frame, items] <;> rfl
  | _ => rfl

/-- A role without an outcome of the invocation shows as it is. -/
theorem excuse_role {th : Thread} (none : th.stashes t (·.run == n) = 0)
    (idle : ∀ p k returned, th.role ≠ .worker p k (.stashed t returned)) :
    (Mask.excuse t n v i counted).role th.role = th.role := by
  cases hr : th.role with
  | caller => rfl
  | worker p k phase =>
    cases phase with
    | stashing u work o =>
      simp only [Thread.stashes, hr, Phase.stashes] at none
      have same : o.excused t n v u = o :=
        Mask.excused_ne fun hu hn => by simp [hu, hn] at none
      simp [Mask.role, Mask.phase, Mask.excuse, same]
    | stashed u returned =>
      have hu : u ≠ t := fun hu => idle p k returned (hu ▸ hr)
      simp [Mask.role, Mask.phase, Mask.excuse, hu]
    | _ => rfl

/-- Nothing shows in the mask before the invocation has ended. -/
theorem excuse_self (held : s.holdings t (·.run == n) = 0)
    (idle : ∀ j p returned, ¬ s.Has j p (.stashed t returned)) :
    (Mask.excuse t n v i false).apply s = s := by
  obtain ⟨⟨stashing, stored⟩, carried⟩ : (s.tally (Thread.stashes t (·.run == n)) = 0 ∧
      s.stored t (·.run == n) = 0) ∧ s.weight (Frame.carries t (·.run == n)) = 0 := by
    simpa [holdings] using held
  have pools : s.pools.map (Mask.excuse t n v i false).pool = s.pools := by simp [excuse_pool]
  have tasks : s.tasks.mapIdx (Mask.excuse t n v i false).task = s.tasks := by
    apply List.ext_getElem?
    intro u
    rw [List.getElem?_mapIdx]
    cases ht : s.tasks[u]? with
    | none => rfl
    | some task =>
      have same : task.slot.outcome.map (.excused t n v u) = task.slot.outcome := by
        cases ho : task.slot.outcome with
        | none => rfl
        | some o =>
          refine congrArg some (Mask.excused_ne fun hu hn => ?_)
          subst hu
          simp [System.stored, task_eq ht, ho, hn] at stored
      simp [Mask.task, Mask.excuse, same]
  have threads : s.threads.map (Mask.excuse t n v i false).thread = s.threads := by
    refine (List.map_congr_left fun th hth => ?_).trans (List.map_id _)
    obtain ⟨j, hj⟩ := List.getElem?_of_mem hth
    have role : (Mask.excuse t n v i false).role th.role = th.role :=
      excuse_role (tally_eq_zero.mp stashing th hth)
        fun p k returned hr => idle j p returned ⟨th, k, hj, hr⟩
    have calls : th.calls.map (Mask.excuse t n v i false).frame = th.calls :=
      (List.map_congr_left fun f hf => excuse_frame (weight_eq_zero.mp carried th hth f hf)).trans
        (List.map_id _)
    simp [Mask.thread, role, calls]
  simp only [Mask.apply, pools, tasks, threads]

/-- Nobody holds an outcome of the invocation that runs. -/
theorem Run.unheld {task : Task} (run : Run callers h s) (hw : s.Working i p k (.running t))
    (ht : s.tasks[t]? = some task) : s.holdings t (·.run == task.runs) = 0 := by
  obtain ⟨gone, acc⟩ := run.accounts t
  have unended := (run.kept t).unended (hw.bearing_self rfl)
  rw [record_runs ht, Trace.endings_eq_yielded] at unended
  have := acc.balance (·.run == task.runs)
  omega

/-- The state in which the work has panicked, excused, is the one in which it has returned. -/
theorem Run.excuse_ended {task : Task} (payload : Payload) (run : Run callers h s)
    (hw : s.Working i p k (.running t)) (ht : s.tasks[t]? = some task) :
    (Mask.excuse t task.runs v i false).apply (s.endWork i t task (.error payload)).1 =
      (s.endWork i t task (.ok v)).1 := by
  have idle (j : ThreadId) (q : PoolId) (returned : Bool) : ¬ s.Has j q (.stashed t returned) := by
    intro has
    cases ((run.kept t).sole (hw.bearing_self rfl) (has.bearing rfl)).2.2
  have self : (Mask.excuse t task.runs v i false).apply s = s :=
    excuse_self (run.unheld hw ht) idle
  have phase : (Mask.excuse t task.runs v i false).phase
      (.stashing t true ⟨task.runs, .of (.error payload)⟩) =
        .stashing t true ⟨task.runs, .of (.ok v)⟩ := by
    simp [Mask.phase, Mask.excuse, Outcome.excused, Ending.of]
  have left := Mask.apply_leave (m := .excuse t task.runs v i false) (s := s) (i := i)
    (.stashing t true ⟨task.runs, .of (.error payload)⟩) (fun th => th.spans.leave task.captured)
    fun _ => rfl
  rw [phase, self] at left
  exact left

end System

end WorkerPool
