import Mathlib.Data.List.Nodup
import WorkerPool.Proofs.Plans
import WorkerPool.Proofs.Totals

/-!
What a course has come to, and what is left of its plan.

Every submission and every join of the plan is told by the trace or still left to some thread, so
tasks are submitted and joined once. From this `OnCourse` derives how calls can end: a submission
fails for a full queue only, and a join takes what the work of its task has come to (`Verdict`).
-/
namespace WorkerPool

/-- Changing the first element of a list takes it out of all the elements together. -/
theorem flatten_set_perm {α : Type} {l : List (List α)} {i : Nat} {a : α} {rest : List α}
    (h : l[i]? = some (a :: rest)) : l.flatten.Perm (a :: (l.set i rest).flatten) := by
  induction l generalizing i with
  | nil => simp at h
  | cons x l ih =>
    cases i with
    | zero =>
      obtain rfl : x = a :: rest := by simpa using h
      simp
    | succ i =>
      have := (ih (by simpa using h)).append_left x
      exact this.trans List.perm_middle

namespace Event

variable {e : Event} {es : List Event} {t : TaskId} {key : Event → Option TaskId}

theorem concerns_of_sale (h : e.sale? = some t) : e.concerns t := by
  cases e with
  | log r => cases r <;> simp_all [sale?, concerns]
  | _ => cases h

theorem concerns_of_collect (h : e.collect? = some t) : e.concerns t := by
  cases e with
  | joined u o => cases o <;> simp_all [collect?, concerns]
  | _ => cases h

theorem concerns_of_begin (h : e.begin? = some t) : e.concerns t := by
  cases e <;> simp_all [begin?, concerns]

theorem concerns_of_quiet (h : e.isNews = false) (t : TaskId) : e.concerns t = false := by
  cases e with
  | log r => cases r <;> simp_all [isNews, concerns]
  | _ => simp_all [isNews, concerns]

/-- Events that concern no task name none. -/
theorem filterMap_unconcerned (hkey : ∀ {e t}, key e = some t → e.concerns t)
    (quiet : ∀ e ∈ es, ∀ t, e.concerns t = false) : es.filterMap key = [] := by
  refine List.filterMap_eq_nil_iff.mpr fun e he => ?_
  cases hk : key e with
  | none => rfl
  | some t => simpa [quiet e he t] using hkey hk

end Event

namespace Trace

variable {h : Trace} {key : Event → Option TaskId} {i : ThreadId} {es : List Event} {t : TaskId}

theorem named_append : Trace.named (h ++ es.map (i, ·)) key = h.named key ++ es.filterMap key := by
  simp [named, List.filterMap_append, List.filterMap_map]

theorem named_unconcerned (hkey : ∀ {e t}, key e = some t → e.concerns t)
    (quiet : ∀ x ∈ h, ∀ t, x.2.concerns t = false) : h.named key = [] := by
  have named : h.named key = (h.map Prod.snd).filterMap key := by
    rw [List.filterMap_map]
    rfl
  rw [named]
  exact Event.filterMap_unconcerned hkey (List.forall_mem_map.mpr quiet)

theorem count_named (pred : Event → Bool) (hkey : ∀ e, (key e == some t) = pred e) :
    (h.named key).count t = h.countP fun e => pred e.2 := by
  induction h with
  | nil => rfl
  | cons x h ih =>
    have named : Trace.named (x :: h) key = (key x.2).toList ++ Trace.named h key := by
      simp only [Trace.named, List.filterMap_cons]
      cases key x.2 <;> rfl
    rw [named, List.count_append, ih, List.countP_cons, ← hkey x.2, Nat.add_comm]
    cases key x.2 with
    | none => rfl
    | some u => simp [List.count_singleton]

theorem count_sold : (h.named Event.sale?).count t = h.submissions t :=
  count_named (Event.buys t) fun e => by
    cases e with
    | log r => cases r <;> simp [Event.sale?, Event.buys]
    | _ => rfl

theorem count_collected : (h.named Event.collect?).count t = h.joinings t :=
  count_named (Event.givesBack t) fun e => by
    cases e with
    | joined u o => cases o <;> simp [Event.collect?, Event.givesBack]
    | _ => rfl

theorem count_begun : (h.named Event.begin?).count t = h.countP fun e => e.2.starts t :=
  count_named (Event.starts t) fun e => by cases e <;> rfl

end Trace

namespace Workload

open WorkerPool.System

/-! ### What is left -/

/-- The tasks that the threads have yet to deal with in one way. -/
def Progress.left (s : Progress) (duty : Chore → Option TaskId) : List TaskId :=
  s.chores.flatten.filterMap duty

namespace Plan

/-- The tasks that the plan deals with in one way. -/
def due (plan : Plan) (duty : Chore → Option TaskId) : List TaskId :=
  plan.programs.flatten.filterMap duty

/-- What a joined task adds to the sum. -/
def yield (plan : Plan) (t : TaskId) : Nat :=
  match plan.ending t with
  | .ok (.number n _) => n.toNat
  | _ => 0

def panics (plan : Plan) (t : TaskId) : Bool :=
  match plan.ending t with
  | .ok _ => false
  | .error _ => true

/-- The outcome of the only invocation of a task. -/
def outcome (plan : Plan) (t : TaskId) : Outcome := ⟨1, .of (plan.ending t)⟩

/-- The pool of the plan takes the tasks, and their works end as planned. -/
def Foresees (plan : Plan) : Event → Prop
  | .log (.submitted p _ _) => p = thePool
  | .ended t o => o.ending = .of (plan.ending t)
  | _ => True

/-- What the trace tells and what is left make up the plan. -/
def Covers (plan : Plan) (h : Trace) (s : Progress) (key : Event → Option TaskId)
    (duty : Chore → Option TaskId) : Prop :=
  (h.named key ++ s.left duty).Perm (plan.due duty)

end Plan

variable {plan : Plan} {s s' : Progress} {i : ThreadId} {a : Action} {e : Effect} {h : Trace}
  {c : Chore} {rest : List Chore} {es : List Event} {t : TaskId} {key : Event → Option TaskId}
  {duty : Chore → Option TaskId}

theorem Progress.left_perm (duty : Chore → Option TaskId) (hc : s.chores[i]? = some (c :: rest))
    (hch : s'.chores = s.chores.set i rest) :
    (s.left duty).Perm ((duty c).toList ++ s'.left duty) := by
  have taken := (flatten_set_perm hc).filterMap duty
  rw [← hch] at taken
  refine taken.trans (.of_eq ?_)
  rw [List.filterMap_cons, Progress.left]
  cases duty c <;> rfl

theorem Progress.left_mem (hc : s.chores[i]? = some (c :: rest)) (hd : duty c = some t) :
    t ∈ s.left duty :=
  List.mem_filterMap.mpr
    ⟨c, List.mem_flatten.mpr ⟨_, List.mem_of_getElem? hc, List.mem_cons_self⟩, hd⟩

namespace Plan.Covers

theorem same (covers : plan.Covers h s key duty) (hes : es.filterMap key = [])
    (hch : s'.chores = s.chores) : plan.Covers (h ++ es.map (i, ·)) s' key duty := by
  unfold Plan.Covers Progress.left
  rwa [Trace.named_append, hes, List.append_nil, hch]

/-- A thread is done with a chore when the trace tells so. -/
theorem done (covers : plan.Covers h s key duty) (hc : s.chores[i]? = some (c :: rest))
    (hes : es.filterMap key = (duty c).toList) (hch : s'.chores = s.chores.set i rest) :
    plan.Covers (h ++ es.map (i, ·)) s' key duty := by
  have left := (Progress.left_perm duty hc hch).append_left (h.named key)
  unfold Plan.Covers
  rw [Trace.named_append, hes, List.append_assoc]
  exact left.symm.trans covers

end Plan.Covers

theorem Plan.foresees_unconcerned (plan : Plan) {ev : Event} (h : ∀ t, ev.concerns t = false) :
    plan.Foresees ev := by
  cases ev with
  | log r => cases r <;> simp_all [Plan.Foresees, Event.concerns]
  | _ => simp_all [Plan.Foresees, Event.concerns]

/-! ### The ledger -/

/-- What the trace, the chores and the totals of a course have to do with each other. -/
structure Ledger (plan : Plan) (h : Trace) (s : Progress) : Prop where
  sold : plan.Covers h s Event.sale? Chore.submits?
  collected : plan.Covers h s Event.collect? Chore.joins?
  /-- A thread has done the first part of its program, which includes its submissions. -/
  programs : ∀ (i : ThreadId) (cs : List Chore), s.chores[i]? = some cs → ∃ past : List Chore,
    plan.programs[i]? = some (past ++ cs) ∧ ∀ t, .submit t ∈ past → t ∈ h.named Event.sale?
  foreseen : ∀ x ∈ h, plan.Foresees x.2
  runs : s.runs = (h.named Event.begin?).length
  sum : s.sum = ((h.named Event.collect?).map plan.yield).sum
  joinedPanics : s.joinedPanics = (h.named Event.collect?).countP plan.panics

namespace Ledger

theorem start {u : System} (quiet : ∀ x ∈ h, ∀ t, x.2.concerns t = false) :
    Ledger plan h { system := u, chores := plan.programs } := by
  have sold := Trace.named_unconcerned Event.concerns_of_sale quiet
  have collected := Trace.named_unconcerned Event.concerns_of_collect quiet
  have begun := Trace.named_unconcerned Event.concerns_of_begin quiet
  exact {
    sold := by rw [Plan.Covers, sold]; exact .refl _
    collected := by rw [Plan.Covers, collected]; exact .refl _
    programs := fun i cs hcs => ⟨[], hcs, nofun⟩
    foreseen := fun x hx => plan.foresees_unconcerned (quiet x hx)
    runs := by rw [begun]; rfl
    sum := by rw [collected]; rfl
    joinedPanics := by rw [collected]; rfl }

/-- A step that ends no chore. -/
theorem stay (ledger : Ledger plan h s) (hch : s'.chores = s.chores)
    (hsale : es.filterMap Event.sale? = []) (hcollect : es.filterMap Event.collect? = [])
    (hfore : ∀ ev ∈ es, plan.Foresees ev)
    (hruns : s'.runs = s.runs + (es.filterMap Event.begin?).length) (hsum : s'.sum = s.sum)
    (hpanics : s'.joinedPanics = s.joinedPanics) : Ledger plan (h ++ es.map (i, ·)) s' where
  sold := ledger.sold.same hsale hch
  collected := ledger.collected.same hcollect hch
  programs := by
    rw [hch, Trace.named_append, hsale, List.append_nil]
    exact ledger.programs
  foreseen := List.forall_mem_append.mpr ⟨ledger.foreseen, by simpa using hfore⟩
  runs := by rw [hruns, ledger.runs, Trace.named_append, List.length_append]
  sum := by rw [hsum, ledger.sum, Trace.named_append, hcollect, List.append_nil]
  joinedPanics := by
    rw [hpanics, ledger.joinedPanics, Trace.named_append, hcollect, List.append_nil]

/-- A step that ends a chore. -/
theorem done (ledger : Ledger plan h s) (hc : s.chores[i]? = some (c :: rest))
    (hch : s'.chores = s.chores.set i rest) (hsale : es.filterMap Event.sale? = c.submits?.toList)
    (hcollect : es.filterMap Event.collect? = c.joins?.toList)
    (hbegin : es.filterMap Event.begin? = []) (hfore : ∀ ev ∈ es, plan.Foresees ev)
    (hruns : s'.runs = s.runs) (hsum : s'.sum = s.sum + (c.joins?.toList.map plan.yield).sum)
    (hpanics : s'.joinedPanics = s.joinedPanics + c.joins?.toList.countP plan.panics) :
    Ledger plan (h ++ es.map (i, ·)) s' where
  sold := ledger.sold.done hc hsale hch
  collected := ledger.collected.done hc hcollect hch
  programs := by
    intro j cs hcs
    rw [Trace.named_append, hsale]
    rw [hch] at hcs
    by_cases hj : i = j
    · subst hj
      obtain rfl : rest = cs := by
        rw [List.getElem?_set_self (List.getElem?_eq_some_iff.mp hc).1] at hcs
        exact Option.some.inj hcs
      -- The chore goes from what is left to the past, and the step tells of its submission.
      obtain ⟨past, hprog, hpast⟩ := ledger.programs i _ hc
      refine ⟨past ++ [c], by simpa using hprog, fun t ht => List.mem_append.mpr ?_⟩
      rcases List.mem_append.mp ht with ht | ht
      · exact .inl (hpast t ht)
      · obtain rfl := List.mem_singleton.mp ht
        exact .inr (by simp [Chore.submits?])
    · rw [List.getElem?_set_ne hj] at hcs
      obtain ⟨past, hprog, hpast⟩ := ledger.programs j cs hcs
      exact ⟨past, hprog, fun t ht => List.mem_append_left _ (hpast t ht)⟩
  foreseen := List.forall_mem_append.mpr ⟨ledger.foreseen, by simpa using hfore⟩
  runs := by rw [hruns, ledger.runs, Trace.named_append, hbegin, List.append_nil]
  sum := by
    rw [hsum, ledger.sum, Trace.named_append, hcollect, List.map_append, List.sum_append]
  joinedPanics := by
    rw [hpanics, ledger.joinedPanics, Trace.named_append, hcollect, List.countP_append]

theorem nodup_sold (ledger : Ledger plan h s) :
    (h.named Event.sale? ++ s.left Chore.submits?).Nodup :=
  ledger.sold.nodup_iff.mpr (plan.submitted.nodup_iff.mpr List.nodup_range)

/-- A task that is still to be submitted has not been. -/
theorem unsold (ledger : Ledger plan h s) (hc : s.chores[i]? = some (.submit t :: rest)) :
    h.submissions t = 0 := by
  rw [← Trace.count_sold, List.count_eq_zero]
  exact fun ht => List.disjoint_of_nodup_append ledger.nodup_sold ht (Progress.left_mem hc rfl)

theorem sold_once (ledger : Ledger plan h s) (ht : t ∈ h.named Event.sale?) :
    h.submissions t = 1 := by
  rw [← Trace.count_sold]
  exact List.count_eq_one_of_mem ledger.nodup_sold.of_append_left ht

/-- A task that is still to be joined has been submitted. -/
theorem sold_join (ledger : Ledger plan h s) (hc : s.chores[i]? = some (.join t :: rest)) :
    t ∈ h.named Event.sale? := by
  obtain ⟨past, hprog, hpast⟩ := ledger.programs i _ hc
  have before := plan.order _ (List.mem_of_getElem? hprog) past.length (by simp) t
    (by simp [Chore.joins?])
  exact hpast t (by simpa using before)

/-- A task that is still to be joined has not been. -/
theorem uncollected (ledger : Ledger plan h s) (hc : s.chores[i]? = some (.join t :: rest)) :
    h.joinings t = 0 := by
  have nodup := ledger.collected.nodup_iff.mpr plan.joined
  rw [← Trace.count_collected, List.count_eq_zero]
  exact fun ht => List.disjoint_of_nodup_append nodup ht (Progress.left_mem hc rfl)

end Ledger

/-! ### How calls end -/

/-- The pool of the plan is open, and has a worker once a work has been invoked. -/
def Plan.Hosts (plan : Plan) (h : Trace) (u : System) : Prop :=
  ∃ pool, u.pools[thePool]? = some pool ∧ pool.config = plan.config ∧ pool.closed = false ∧
    (h.named Event.begin? ≠ [] → 1 ≤ pool.threadCount)

/-- What holds on a course of the plan. -/
structure OnCourse (plan : Plan) (h : Trace) (s : Progress) : Prop where
  run : Run plan.programs.length h s.system
  placed : Placed s
  ledger : Ledger plan h s
  hosts : plan.Hosts h s.system

/-- What a step of a course comes to. -/
inductive Verdict (plan : Plan) (s : Progress) (i : ThreadId) : Effect → Progress → Prop
  | quiet {u : System} {es : List Event} : (∀ ev ∈ es, ev.isNews = false) →
      Verdict plan s i (u, es) { s with system := u }
  /-- A submission is to be repeated. -/
  | fails {u : System} {t : TaskId} {rest : List Chore} {err : PoolError} :
      s.chores[i]? = some (.submit t :: rest) → err.isRecoverable →
      Verdict plan s i (u, [.replied (.failed err)]) { s with system := u }
  | begins {u : System} {p : PoolId} {k : Nat} {t : TaskId} (n : Nat) :
      s.system.Working i p k (.holding t) →
      Verdict plan s i (u, [.started t n]) { s with system := u, runs := s.runs + 1 }
  | ends {u : System} {t : TaskId} {o : Outcome} : o.ending = .of (plan.ending t) →
      Verdict plan s i (u, [.ended t o]) { s with system := u }
  | submits {u : System} {t : TaskId} {rest : List Chore} (pool : Pool) :
      s.chores[i]? = some (.submit t :: rest) →
      Verdict plan s i (u, pool.receipt thePool t)
        { s with system := u, chores := s.chores.set i rest }
  | joins {u : System} {t : TaskId} {rest : List Chore} :
      s.chores[i]? = some (.join t :: rest) →
      Verdict plan s i (u, [.joined t (some (plan.outcome t)),
          .replied (joinReply t (some (plan.outcome t)))])
        { s with
          system := u
          chores := s.chores.set i rest
          sum := s.sum + plan.yield t
          joinedPanics := s.joinedPanics + (plan.panics t).toNat }
  | gaveAway {u : System} {c : Chore} {t : TaskId} {rest : List Chore} (r : Reply) :
      s.chores[i]? = some (c :: rest) → c.givesAway t →
      Verdict plan s i (u, [.replied r]) { s with system := u, chores := s.chores.set i rest }
  | idle {u : System} {pool : Pool} {rest : List Chore} :
      s.chores[i]? = some (.waitIdle :: rest) → s.system.pools[thePool]? = some pool →
      pool.isQuiescentFor i → u.pools = s.system.pools →
      Verdict plan s i (u, [.replied .done])
        { s with system := u, chores := s.chores.set i rest }

namespace OnCourse

variable {pool : Pool} {task : Task} {err : PoolError} {u : System}

/-- Nothing but a full queue is in the way of a submission. -/
theorem recoverable (course : OnCourse plan h s) (hc : s.chores[i]? = some (.submit t :: rest))
    (hp : s.system.pools[thePool]? = some pool) (ht : s.system.tasks[t]? = some task)
    (declines : Declines pool t task err)
    (staffed : ∀ k message cause, err ≠ .spawnFailed k message cause) : err.isRecoverable := by
  obtain ⟨pool', hp', -, hopen, -⟩ := course.hosts
  obtain rfl : pool' = pool := Option.some.inj (hp'.symm.trans hp)
  cases declines with
  | refusal hr =>
    unfold Pool.refusal at hr
    rw [hopen] at hr
    split at hr
    · contradiction
    · split at hr
      · cases hr
        rfl
      · cases hr
  | owned _ ho =>
    -- An owned task has been submitted, but the plan does so once and has yet to do it.
    obtain ⟨life, st, hat, story⟩ := course.run.kept t
    have taken := hat.taken_owned (by rwa [record_slot ht])
    have := story.balance
    have := course.ledger.unsold hc
    omega
  | unstaffed _ _ _ _ => exact absurd rfl (staffed _ _ _)

/-- A task that is to be joined is in the custody of the pool. -/
theorem owned (course : OnCourse plan h s) (hc : s.chores[i]? = some (.join t :: rest))
    (ht : s.system.tasks[t]? = some task) (hh : task.handle) : task.slot.ownership = .pool := by
  obtain ⟨life, st, hat, story⟩ := course.run.kept t
  have hbalance := story.balance
  have hsold := course.ledger.sold_once (course.ledger.sold_join hc)
  have hcollected := course.ledger.uncollected hc
  cases ho : task.slot.ownership with
  | pool => rfl
  | caller =>
    have := hat.taken_caller ((record_handle ht).trans hh) (by rw [record_slot ht, ho])
    omega
  | detached => exact absurd ho (course.run.not_detached ht hh)

/-- A join finds what the plan says. -/
theorem outcome (course : OnCourse plan h s) (hc : s.chores[i]? = some (.join t :: rest))
    (ht : s.system.tasks[t]? = some task) (hh : task.handle)
    (hs : task.slot.state = .finished) : task.slot.outcome = some (plan.outcome t) := by
  have ho := course.owned hc ht hh
  obtain ⟨life, st, hat, story⟩ := course.run.kept t
  obtain ⟨⟨n, ending⟩, rfl⟩ := Record.Kept.life_finished hat (by rw [record_slot ht, ho])
    (by rw [record_slot ht, hs])
  obtain ⟨rfl, -, -, hfacts⟩ := hat.agrees
  obtain ⟨-, houtcome, -⟩ := hfacts ((record_handle ht).trans hh)
  -- The task has been submitted once, so its work has been invoked once.
  have hsold := course.ledger.sold_once (course.ledger.sold_join hc)
  have hbought : h.submissions t = (s.system.record t).runs := story.submissions_eq
  obtain ⟨hrun, j, hmem⟩ := story.ended_mem rfl
  obtain rfl : n = 1 := hrun.trans (hbought.symm.trans hsold)
  obtain rfl : ending = .of (plan.ending t) := course.ledger.foreseen _ hmem
  rw [record_slot ht] at houtcome
  exact houtcome

/-! ### Turns -/

theorem plain (course : OnCourse plan h s) (hc : s.chores[i]? = some (c :: rest)) : c.isPlain := by
  obtain ⟨past, hprog, -⟩ := course.ledger.programs i _ hc
  exact plan.plain _ (List.mem_of_getElem? hprog) c (by simp)

theorem turn (course : OnCourse plan h s) (allowed : plan.Allows s i a)
    (hs : s.system.step i a = some e) : Turn s i a e :=
  allowed.turn course.placed course.run.calls (fun _ _ => course.plain) hs

end OnCourse

namespace Plan

/-- A join notes the value of the task, or the panic. -/
theorem apply_joined (plan : Plan) (u : System) (hc : s.chores[i]? = some (.join t :: rest)) :
    s.apply i (u, [.joined t (some (plan.outcome t)),
        .replied (joinReply t (some (plan.outcome t)))]) =
      { s with
        system := u
        chores := s.chores.set i rest
        sum := s.sum + plan.yield t
        joinedPanics := s.joinedPanics + (plan.panics t).toNat } := by
  cases hend : plan.ending t with
  | ok v =>
    cases v <;> simp [Progress.apply, Progress.absorb, Progress.receive, hc, Progress.setChores,
      Plan.outcome, Plan.yield, Plan.panics, Ending.of, joinReply, hend]
  | error payload =>
    simp [Progress.apply, Progress.absorb, Progress.receive, hc, Progress.setChores,
      Plan.outcome, Plan.yield, Plan.panics, Ending.of, joinReply, hend]

end Plan

namespace OnCourse

variable {u : System}

theorem answered (course : OnCourse plan h s) (hc : s.chores[i]? = some (c :: rest))
    (answer : c.Answer s.system es) : Verdict plan s i (u, es) (s.apply i (u, es)) := by
  cases answer with
  | @declined t pool task err hp ht _ declines staffed =>
    have passes := course.recoverable hc hp ht declines staffed
    have same : s.apply i (u, [.replied (.failed err)]) = { s with system := u } := by
      simp [Progress.apply, Progress.absorb, Progress.receive, hc, passes]
    exact same ▸ .fails hc passes
  | @accepted t pool =>
    have noted : s.apply i (u, pool.receipt thePool t) =
        { s with system := u, chores := s.chores.set i rest } := by
      simp [Progress.apply, Pool.receipt, Progress.absorb, Progress.receive, hc,
        Progress.setChores]
    exact noted ▸ .submits pool hc
  | @joined t task ht hh _ hs =>
    rw [course.outcome hc ht hh hs, plan.apply_joined u hc]
    exact .joins hc
  | unowned ht hh ho => exact absurd (course.owned hc ht hh) ho
  | gaveAway r hgive =>
    have noted : s.apply i (u, [.replied r]) =
        { s with system := u, chores := s.chores.set i rest } := by
      cases c with
      | detach _ | drop _ =>
        simp [Progress.apply, Progress.absorb, Progress.receive, hc, Progress.setChores]
      | _ => cases hgive
    exact noted ▸ .gaveAway r hc hgive

/-- Every step of a course comes to one of these. -/
theorem verdict (course : OnCourse plan h s) (allowed : plan.Allows s i a)
    (hs : s.system.step i a = some e) : Verdict plan s i e (s.apply i e) := by
  cases course.turn allowed hs with
  | @chore c rest hc step =>
    cases step with
    | goesOn _ _ quiet => exact Progress.apply_quiet quiet ▸ .quiet quiet
    | ends _ answer => exact course.answered hc answer
    | @returns u pool hidle _ hp hq hpools =>
      subst hidle
      have noted : s.apply i (u, [.replied .done]) =
          { s with system := u, chores := s.chores.set i rest } := by
        simp [Progress.apply, Progress.absorb, Progress.receive, hc, Progress.setChores]
      exact noted ▸ .idle hc hp hq hpools
  | work _ step =>
    cases step with
    | aside _ _ quiet => exact Progress.apply_quiet quiet ▸ .quiet quiet
    | begins n hw _ => exact .begins n hw
    | @ends u p k t o ending hw ha ho _ =>
      subst ha
      exact .ends (allowed.ending hw ▸ ho)

end OnCourse

/-! ### Steps -/

namespace Verdict

theorem not_farewell (v : Verdict plan s i e s') (p : PoolId) (pool : Pool) (total : Nat) :
    e.2 ≠ pool.farewell p total := by
  intro he
  cases v with
  | @quiet u es quiet =>
    obtain rfl : es = pool.farewell p total := he
    have told := quiet (.replied .done) (by simp [Pool.farewell])
    cases told
  | _ => simp [Pool.farewell, Pool.receipt] at he

/-- The chores of the others stay. -/
theorem chores (v : Verdict plan s i e s') :
    s'.chores = s.chores ∨ ∃ rest, s'.chores = s.chores.set i rest := by
  cases v with
  | quiet _ | fails _ _ | begins _ _ | ends _ => exact .inl rfl
  | submits _ _ | joins _ | gaveAway _ _ _ | idle _ _ _ _ => exact .inr ⟨_, rfl⟩

theorem ledger (v : Verdict plan s i e s') (ledger : Ledger plan h s) :
    Ledger plan (h ++ e.2.map (i, ·)) s' := by
  cases v with
  | quiet quiet =>
    have unconcerned := fun ev hev => Event.concerns_of_quiet (quiet ev hev)
    have none {key : Event → Option TaskId} (hkey : ∀ {e t}, key e = some t → e.concerns t) :=
      Event.filterMap_unconcerned hkey unconcerned
    exact ledger.stay rfl (none Event.concerns_of_sale) (none Event.concerns_of_collect)
      (fun ev hev => plan.foresees_unconcerned (unconcerned ev hev))
      (by simp [none Event.concerns_of_begin]) rfl rfl
  | fails _ _ => exact ledger.stay rfl rfl rfl (by simp [Plan.Foresees]) rfl rfl rfl
  | begins _ _ => exact ledger.stay rfl rfl rfl (by simp [Plan.Foresees]) rfl rfl rfl
  | ends ho => exact ledger.stay rfl rfl rfl (by simpa [Plan.Foresees] using ho) rfl rfl rfl
  | submits pool hc =>
    exact ledger.done hc rfl rfl rfl rfl (by simp [Plan.Foresees, Pool.receipt]) rfl rfl rfl
  | @joins u t rest hc =>
    refine ledger.done hc rfl rfl rfl rfl (by simp [Plan.Foresees]) rfl (by simp [Chore.joins?]) ?_
    cases hp : plan.panics t <;> simp [Chore.joins?, hp]
  | @gaveAway u c t rest r hc hgive =>
    have neither : c.submits? = none ∧ c.joins? = none := by
      cases c with
      | detach _ | drop _ => exact ⟨rfl, rfl⟩
      | _ => cases hgive
    exact ledger.done hc rfl (by rw [neither.1]; rfl) (by rw [neither.2]; rfl) rfl
      (by simp [Plan.Foresees]) rfl (by simp [neither.2]) (by simp [neither.2])
  | idle hc _ _ _ => exact ledger.done hc rfl rfl rfl rfl (by simp [Plan.Foresees]) rfl rfl rfl

/-- Works are invoked by workers that have them in hands. -/
theorem begun (v : Verdict plan s i e s') : e.2.filterMap Event.begin? = [] ∨
    ∃ p k t, s.system.Working i p k (.holding t) := by
  cases v with
  | quiet quiet =>
    exact .inl (Event.filterMap_unconcerned Event.concerns_of_begin fun ev hev =>
      Event.concerns_of_quiet (quiet ev hev))
  | begins _ hw => exact .inr ⟨_, _, _, hw⟩
  | _ => exact .inl rfl

end Verdict

namespace OnCourse

theorem moves {u : System} (course : OnCourse plan h s) (hs : s.system.step i a = some (u, es)) :
    Moves i s.system es u :=
  moves_of_step course.run.calls hs

theorem placed_step (course : OnCourse plan h s) (allowed : plan.Allows s i a)
    (hs : s.system.step i a = some e) : Placed (s.apply i e) := by
  have v := course.verdict allowed hs
  obtain ⟨u, es⟩ := e
  have ms : Moves i s.system es (s.apply i (u, es)).system := by
    rw [Progress.system_apply]
    exact course.moves hs
  have hlen : (s.apply i (u, es)).chores.length = s.chores.length := by
    rcases v.chores with hch | ⟨rest, hch⟩ <;> simp [hch]
  have others : ∀ j, j ≠ i → (s.apply i (u, es)).chores[j]? = s.chores[j]? := fun j hj => by
    rcases v.chores with hch | ⟨rest, hch⟩
    · rw [hch]
    · rw [hch, List.getElem?_set_ne hj.symm]
  have place {calls : List Frame} (hi : u.Inside i calls)
      (own : Stands (s.apply i (u, es)).chores[i]? calls) : Placed (s.apply i (u, es)) :=
    course.placed.keep course.run.unentered ms hlen others
      (by rwa [Progress.system_apply]) own
  cases course.turn allowed hs with
  | chore hc step =>
    cases step with
    | goesOn hi engaged quiet =>
      refine place hi ?_
      rw [Progress.apply_quiet quiet]
      exact hc ▸ .engaged _ engaged
    | ends hi _ => exact place hi (.nil _)
    | returns _ hi _ _ _ => exact place hi (.nil _)
  | work hc step =>
    cases step with
    | aside hi busy quiet =>
      refine place hi ?_
      rw [Progress.apply_quiet quiet]
      exact hc ▸ .working busy
    | begins _ _ hi => exact place hi (.nil _)
    | ends _ _ _ hi => exact place hi (.nil _)

/-- A worker of the pool has the task in hands, since nobody else takes tasks. -/
theorem staffed {p : PoolId} {k : Nat} {pool : Pool} (course : OnCourse plan h s)
    (hw : s.system.Working i p k (.holding t)) (hp : s.system.pools[thePool]? = some pool) :
    1 ≤ pool.threadCount := by
  obtain ⟨h₁, j, n, h₂, rfl, -⟩ := course.run.unjoined (.inr ⟨i, _, hw.bearing_self rfl⟩)
  obtain rfl : p = thePool := course.ledger.foreseen (j, .log (.submitted p t n)) (by simp)
  have balanced := course.run.books.pools _ pool hp
  have hbusy := balanced.running_pos hw.post
  have := balanced.total
  omega

theorem hosts_step (course : OnCourse plan h s) (allowed : plan.Allows s i a)
    (hs : s.system.step i a = some e) : plan.Hosts (h ++ e.2.map (i, ·)) e.1 := by
  have v := course.verdict allowed hs
  have placed := course.placed_step allowed hs
  obtain ⟨u, es⟩ := e
  obtain ⟨pool, hp, hconfig, hopen, hstaff⟩ := course.hosts
  obtain ⟨pool', hp', hconfig', keep⟩ := (course.moves hs).opened hp
  -- Nobody is inside a shutdown or the drop of a pool, before the step or after it.
  have hsame : u.isClosed thePool = s.system.isClosed thePool :=
    isClosed_of_step course.run.calls course.run.nested hs
      (fun _ _ hi => (course.placed.stands i _ hi).not_teardown)
      (fun _ _ hi => (placed.stands i _ (by rwa [Progress.system_apply])).not_teardown)
      v.not_farewell thePool
  have hopen' : pool'.closed = false := by simpa [isClosed, hp, hp', hopen] using hsame
  obtain ⟨-, hle⟩ := keep hopen'
  refine ⟨pool', hp', hconfig'.trans hconfig, hopen', fun hbegun => ?_⟩
  rw [Trace.named_append] at hbegun
  by_cases hbefore : h.named Event.begin? = []
  · rw [hbefore, List.nil_append] at hbegun
    obtain ⟨p, k, t, hw⟩ := v.begun.resolve_left hbegun
    exact (course.staffed hw hp).trans hle
  · exact (hstaff hbefore).trans hle

theorem start {u : System}
    (hr : (System.start plan.programs.length).replay plan.setup = some (h, u)) :
    OnCourse plan h { system := u, chores := plan.programs } := by
  obtain ⟨hpools, hthreads, quiet⟩ := plan.replay_setup hr
  exact {
    run := run_of_replay _ hr
    placed := {
      callers := fun i hi => by simp [posts, hthreads, Thread.post, hi]
      stands := fun i calls hi => by
        obtain ⟨th, hth, rfl⟩ := hi
        rw [hthreads] at hth
        rw [List.eq_of_mem_replicate (List.mem_of_getElem? hth)]
        exact .nil _ }
    ledger := .start quiet
    hosts := ⟨Pool.new plan.config, by simp [hpools, thePool], rfl, rfl, fun hbegun =>
      absurd (Trace.named_unconcerned Event.concerns_of_begin quiet) hbegun⟩ }

end OnCourse

/-- This holds on every course. -/
theorem Course.onCourse (course : Course plan h s) : OnCourse plan h s := by
  induction course with
  | start hr => exact .start hr
  | @step h s i a e course allowed hs ih =>
    exact {
      run := (course.step allowed hs).run
      placed := ih.placed_step allowed hs
      ledger := (ih.verdict allowed hs).ledger ih.ledger
      hosts := by
        rw [Progress.system_apply]
        exact ih.hosts_step allowed hs }

end Workload

end WorkerPool
