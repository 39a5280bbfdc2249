import Mathlib.Data.List.Induction
import Mathlib.Order.Bounds.Basic
import WorkerPool.Proofs.Bookkeeping

/-!
In which order the tasks of a pool are claimed.

The submissions that a pool has accepted are numbered in the order of their pushes. `Served` accepts
the traces in which every claim takes the submission that comes next by the order of the queue, and
lists the numbers that are taken. The queue holds the submissions that are left, the next one at its
head; `System.InLine` says so of every pool, and every move keeps it.
-/
namespace WorkerPool

namespace QueueOrder

/-- Whether the first of two numbers is served before the second one if both of them wait. -/
def Before : QueueOrder → Nat → Nat → Prop
  | lifo => fun m n => n < m
  | fifo => fun m n => m < n

/-- The number is the one to be served next. -/
def IsNext (waiting : Set Nat) (n : Nat) : QueueOrder → Prop
  | lifo => IsGreatest waiting n
  | fifo => IsLeast waiting n

variable {order : QueueOrder} {waiting : Set Nat} {n : Nat}

/-- Who comes before all others is next. -/
theorem isNext_of_before (hn : n ∈ waiting) (hbefore : ∀ m ∈ waiting, m = n ∨ order.Before n m) :
    order.IsNext waiting n := by
  cases order with
  | lifo =>
    refine ⟨hn, fun m hm => ?_⟩
    rcases hbefore m hm with rfl | hlt
    · exact le_rfl
    · exact Nat.le_of_lt hlt
  | fifo =>
    refine ⟨hn, fun m hm => ?_⟩
    rcases hbefore m hm with rfl | hlt
    · exact le_rfl
    · exact Nat.le_of_lt hlt

end QueueOrder

namespace Event

/-- The task that the pool has accepted. -/
def accepted? (p : PoolId) : Event → Option TaskId
  | log (.submitted q t _) => if q = p then some t else none
  | _ => none

/-- The task that a worker of the pool has claimed. -/
def claimed? (p : PoolId) : Event → Option TaskId
  | log (.claimed q _ t) => if q = p then some t else none
  | _ => none

end Event

/-- Numbers that stand for elements of a list still do after the list has grown. -/
theorem map_getElem?_append {α : Type} {l l' as : List α} {ns : List Nat}
    (hn : ns.map (l[·]?) = as.map some) : ns.map ((l ++ l')[·]?) = as.map some := by
  rw [← hn]
  refine List.map_congr_left fun n hmem => ?_
  have hsome : l[n]? ∈ as.map some := hn ▸ List.mem_map_of_mem hmem
  obtain ⟨a, -, ha⟩ := List.mem_map.mp hsome
  exact List.getElem?_append_left (List.getElem?_eq_some_iff.mp ha.symm).1

namespace Trace

/-- The tasks of the submissions that the pool has accepted, in the order of their pushes. -/
def accepted (h : Trace) (p : PoolId) : List TaskId := h.filterMap fun e => e.2.accepted? p

/-- The tasks that workers of the pool have claimed, in the order of the claims. -/
def claimed (h : Trace) (p : PoolId) : List TaskId := h.filterMap fun e => e.2.claimed? p

/-- The numbers of the accepted submissions that are not among those served. -/
def waiting (h : Trace) (p : PoolId) (served : List Nat) : Set Nat :=
  {n | n < (h.accepted p).length ∧ n ∉ served}

variable {h : Trace} {es : List Event} {i : ThreadId} {p : PoolId}

theorem accepted_append : accepted (h ++ es.map (i, ·)) p =
    h.accepted p ++ es.filterMap (·.accepted? p) := by
  simp [accepted, List.filterMap_map]

theorem claimed_append : claimed (h ++ es.map (i, ·)) p =
    h.claimed p ++ es.filterMap (·.claimed? p) := by
  simp [claimed, List.filterMap_map]

end Trace

/-- The claims of the pool take the submissions of the given numbers, each of them the one that is
next by the order. -/
inductive Served (order : QueueOrder) (p : PoolId) : Trace → List Nat → Prop
  | nil : Served order p [] []
  | other {h : Trace} {served : List Nat} {e : Event} (i : ThreadId) : Served order p h served →
      e.claimed? p = none → Served order p (h ++ [(i, e)]) served
  | claim {h : Trace} {served : List Nat} {e : Event} {n : Nat} {t : TaskId} (i : ThreadId) :
      Served order p h served → e.claimed? p = some t → order.IsNext (h.waiting p served) n →
      (h.accepted p)[n]? = some t → Served order p (h ++ [(i, e)]) (served ++ [n])

namespace Served

variable {order : QueueOrder} {p : PoolId} {h h₁ h₂ : Trace} {served : List Nat}
  {es : List Event} {i : ThreadId} {e : Event} {t : TaskId} {n : Nat}

theorem others (done : Served order p h served) (hes : ∀ e ∈ es, e.claimed? p = none) :
    Served order p (h ++ es.map (i, ·)) served := by
  induction es generalizing h with
  | nil => simpa using done
  | cons e es ih =>
    have rest := ih (done.other i (hes e (.head _))) fun e he => hes e (.tail _ he)
    simpa using rest

/-- Events of which one is a claim. -/
theorem claims (done : Served order p h served) (hc : es.filterMap (·.claimed? p) = [t])
    (ha : es.filterMap (·.accepted? p) = []) (hn : order.IsNext (h.waiting p served) n)
    (ht : (h.accepted p)[n]? = some t) :
    Served order p (h ++ es.map (i, ·)) (served ++ [n]) := by
  obtain ⟨es₁, e, es₂, rfl, hes₁, he, hes₂⟩ := List.filterMap_eq_cons_iff.mp hc
  have ha₁ : es₁.filterMap (·.accepted? p) = [] := by
    rw [List.filterMap_append] at ha
    exact (List.append_eq_nil_iff.mp ha).1
  have same : Trace.accepted (h ++ es₁.map (i, ·)) p = h.accepted p := by
    rw [Trace.accepted_append, ha₁, List.append_nil]
  have hn' : order.IsNext (Trace.waiting (h ++ es₁.map (i, ·)) p served) n := by
    rwa [Trace.waiting, same]
  have claim := (done.others hes₁).claim i he hn' (same ▸ ht)
  simpa using claim.others (i := i) (List.filterMap_eq_nil_iff.mp hes₂)

/-- The trace before a claim tells which number is next. -/
theorem next (done : Served order p (h₁ ++ (i, e) :: h₂) served) (he : e.claimed? p = some t) :
    ∃ served₁ n, Served order p h₁ served₁ ∧ served₁ ++ [n] <+: served ∧
      order.IsNext (h₁.waiting p served₁) n ∧ (h₁.accepted p)[n]? = some t := by
  induction h₂ using List.reverseRecOn generalizing served with
  | nil =>
    generalize hh : h₁ ++ [(i, e)] = h at done
    cases done with
    | nil => simp at hh
    | other _ done he' =>
      obtain ⟨rfl, hlast⟩ := List.append_inj' hh rfl
      cases hlast
      simp [he] at he'
    | claim _ done he' hn ht =>
      obtain ⟨rfl, hlast⟩ := List.append_inj' hh rfl
      cases hlast
      cases he.symm.trans he'
      exact ⟨_, _, done, List.prefix_rfl, hn, ht⟩
  | append_singleton h₂ last ih =>
    generalize hh : h₁ ++ (i, e) :: (h₂ ++ [last]) = h at done
    rw [← List.cons_append, ← List.append_assoc] at hh
    cases done with
    | nil => simp at hh
    | other _ done _ =>
      obtain ⟨rfl, -⟩ := List.append_inj' hh rfl
      exact ih done
    | claim _ done _ _ _ =>
      obtain ⟨rfl, -⟩ := List.append_inj' hh rfl
      obtain ⟨served₁, n, before, first, hn, ht⟩ := ih done
      exact ⟨served₁, n, before, first.trans (List.prefix_append _ _), hn, ht⟩

/-- The submissions served are those of the claims. -/
theorem map_accepted (done : Served order p h served) :
    served.map ((h.accepted p)[·]?) = (h.claimed p).map some := by
  induction done with
  | nil => rfl
  | @other h served e i _ he ih =>
    have hc := @Trace.claimed_append h [e] i p
    have ha := @Trace.accepted_append h [e] i p
    simp only [List.map_cons, List.map_nil, List.filterMap_cons_none he, List.filterMap_nil,
      List.append_nil] at hc ha
    rw [hc, ha]
    exact map_getElem?_append ih
  | @claim h served e n t i _ he _ ht ih =>
    have hc := @Trace.claimed_append h [e] i p
    have ha := @Trace.accepted_append h [e] i p
    simp only [List.map_cons, List.map_nil, List.filterMap_cons_some he, List.filterMap_nil]
      at hc ha
    rw [hc, ha]
    refine map_getElem?_append ?_
    simp [ih, ht]

end Served

/-! ### Lines of submissions -/

/-- What a move does to the configuration and the queue of a pool, with the tasks that it accepts
and claims there. -/
inductive Turn : Option (Config × PendingQueue TaskId) → List TaskId → List TaskId →
    Option (Config × PendingQueue TaskId) → Prop
  | same (x : Option (Config × PendingQueue TaskId)) : Turn x [] [] x
  | create (c : Config) : Turn none [] [] (some (c, .empty c.maxPending c.order))
  | push (c : Config) (queue : PendingQueue TaskId) (t : TaskId) :
      Turn (some (c, queue)) [t] [] (some (c, queue.push t))
  | pop {queue queue' : PendingQueue TaskId} {t : TaskId} (c : Config) :
      queue.pop? = some (t, queue') → Turn (some (c, queue)) [] [t] (some (c, queue'))

/-- The submissions of the given numbers wait in the queue, the next one at its head. -/
structure InLine (h : Trace) (p : PoolId) (c : Config) (queue : PendingQueue TaskId)
    (served line : List Nat) : Prop where
  order : queue.order = c.order
  serves : Served c.order p h served
  parts : (served ++ line).Perm (List.range (h.accepted p).length)
  sorted : line.Pairwise c.order.Before
  entries : line.map ((h.accepted p)[·]?) = queue.entries.map some
  fifo : c.order = .fifo → h.accepted p = h.claimed p ++ queue.entries

namespace InLine

variable {h : Trace} {p : PoolId} {c : Config} {queue queue' : PendingQueue TaskId}
  {served line : List Nat} {es : List Event} {i : ThreadId} {t : TaskId}

theorem quiet (inLine : InLine h p c queue served line) (ha : es.filterMap (·.accepted? p) = [])
    (hc : es.filterMap (·.claimed? p) = []) :
    InLine (h ++ es.map (i, ·)) p c queue served line := by
  have hA : Trace.accepted (h ++ es.map (i, ·)) p = h.accepted p := by
    rw [Trace.accepted_append, ha, List.append_nil]
  have hC : Trace.claimed (h ++ es.map (i, ·)) p = h.claimed p := by
    rw [Trace.claimed_append, hc, List.append_nil]
  exact ⟨inLine.order, inLine.serves.others (List.filterMap_eq_nil_iff.mp hc), hA ▸ inLine.parts,
    inLine.sorted, hA ▸ inLine.entries, by rw [hA, hC]; exact inLine.fifo⟩

theorem create (ha : h.accepted p = []) (hserved : Served c.order p h []) :
    InLine h p c (.empty c.maxPending c.order) [] [] where
  order := rfl
  serves := hserved
  parts := by simp [ha]
  sorted := .nil
  entries := rfl
  fifo _ := by
    have hC := hserved.map_accepted
    simp only [List.map_nil, List.nil_eq, List.map_eq_nil_iff] at hC
    simp [ha, hC, PendingQueue.empty]

/-- The line after the submission with the given number has joined it. -/
def joined (order : QueueOrder) (n : Nat) (line : List Nat) : List Nat :=
  match order with
  | .lifo => n :: line
  | .fifo => line ++ [n]

theorem joined_perm (order : QueueOrder) (n : Nat) : (joined order n line).Perm (line ++ [n]) := by
  cases order with
  | lifo => exact (List.perm_append_singleton n line).symm
  | fifo => exact .rfl

theorem joined_sorted {order : QueueOrder} {n : Nat} (sorted : line.Pairwise order.Before)
    (hlt : ∀ m ∈ line, m < n) : (joined order n line).Pairwise order.Before := by
  cases order with
  | lifo => exact List.pairwise_cons.mpr ⟨hlt, sorted⟩
  | fifo =>
    refine List.pairwise_append.mpr ⟨sorted, List.pairwise_singleton _ _, fun m hm n' hn => ?_⟩
    obtain rfl := List.mem_singleton.mp hn
    exact hlt m hm

theorem map_joined {α : Type} {f : Nat → Option α} {n : Nat} {a : α} {queue : PendingQueue α}
    (hline : line.map f = queue.entries.map some) (hn : f n = some a) :
    (joined queue.order n line).map f = (queue.push a).entries.map some := by
  unfold PendingQueue.push joined
  cases queue.order with
  | lifo => simp [hline, hn]
  | fifo => simp [hline, hn]

theorem lt_of_mem (inLine : InLine h p c queue served line) {m : Nat} (hm : m ∈ line) :
    m < (h.accepted p).length :=
  List.mem_range.mp (inLine.parts.mem_iff.mp (List.mem_append_right _ hm))

theorem push (inLine : InLine h p c queue served line)
    (ha : es.filterMap (·.accepted? p) = [t]) (hc : es.filterMap (·.claimed? p) = []) :
    InLine (h ++ es.map (i, ·)) p c (queue.push t) served
      (joined c.order (h.accepted p).length line) := by
  have hA : Trace.accepted (h ++ es.map (i, ·)) p = h.accepted p ++ [t] := by
    rw [Trace.accepted_append, ha]
  have hC : Trace.claimed (h ++ es.map (i, ·)) p = h.claimed p := by
    rw [Trace.claimed_append, hc, List.append_nil]
  refine ⟨inLine.order, inLine.serves.others (List.filterMap_eq_nil_iff.mp hc), ?_,
    joined_sorted inLine.sorted fun m => inLine.lt_of_mem, ?_, fun hfifo => ?_⟩
  · rw [hA, List.length_append, List.length_singleton, List.range_succ]
    refine ((joined_perm _ _).append_left served).trans ?_
    rw [← List.append_assoc]
    exact inLine.parts.append_right _
  · rw [← inLine.order]
    refine map_joined ?_ (by simp [hA])
    rw [hA]
    exact map_getElem?_append inLine.entries
  · have horder : queue.order = .fifo := inLine.order.trans hfifo
    simp [hA, hC, inLine.fifo hfifo, PendingQueue.push, horder]

theorem pop {line : List Nat} (inLine : InLine h p c queue served line)
    (hpop : queue.pop? = some (t, queue')) (ha : es.filterMap (·.accepted? p) = [])
    (hc : es.filterMap (·.claimed? p) = [t]) : ∃ n line', line = n :: line' ∧
      InLine (h ++ es.map (i, ·)) p c queue' (served ++ [n]) line' := by
  obtain ⟨rest, hentries, rfl⟩ := PendingQueue.pop?_eq hpop
  have hqueue := inLine.entries
  rw [hentries, List.map_cons] at hqueue
  obtain ⟨n, line', rfl, hn, hrest⟩ := List.map_eq_cons_iff.mp hqueue
  have hA : Trace.accepted (h ++ es.map (i, ·)) p = h.accepted p := by
    rw [Trace.accepted_append, ha, List.append_nil]
  have hC : Trace.claimed (h ++ es.map (i, ·)) p = h.claimed p ++ [t] := by
    rw [Trace.claimed_append, hc]
  have distinct : (served ++ n :: line').Nodup := inLine.parts.nodup_iff.mpr List.nodup_range
  have next : c.order.IsNext (h.waiting p served) n := by
    refine QueueOrder.isNext_of_before ⟨inLine.lt_of_mem (.head _), fun hmem => ?_⟩ fun m hm => ?_
    · exact (List.nodup_append.mp distinct).2.2 n hmem n (.head _) rfl
    · have hmem := inLine.parts.mem_iff.mpr (List.mem_range.mpr hm.1)
      rcases List.mem_cons.mp ((List.mem_append.mp hmem).resolve_left hm.2) with hmn | hline
      · exact .inl hmn
      · exact .inr ((List.pairwise_cons.mp inLine.sorted).1 m hline)
  refine ⟨n, line', rfl, inLine.order, inLine.serves.claims hc ha next hn, ?_, ?_, ?_, ?_⟩
  · simpa [hA] using inLine.parts
  · exact (List.pairwise_cons.mp inLine.sorted).2
  · rw [hA]
    exact hrest
  · intro hfifo
    simp [hA, hC, inLine.fifo hfifo, hentries]

theorem union (inLine : InLine h p c queue served line) :
    (h.claimed p ++ queue.entries).Perm (h.accepted p) := by
  have tasks := inLine.parts.map ((h.accepted p)[·]?)
  have all : (List.range (h.accepted p).length).map ((h.accepted p)[·]?) =
      (h.accepted p).map some := by
    refine List.ext_getElem? fun n => ?_
    rcases Nat.lt_or_ge n (h.accepted p).length with hn | hn
    · simp [hn]
    · simp [hn]
  rw [List.map_append, inLine.serves.map_accepted, inLine.entries, ← List.map_append, all] at tasks
  exact (List.map_perm_map_iff (Option.some_injective _)).mp tasks

end InLine

/-- The queue of the pool, if that is there, holds the submissions that are left to serve. -/
def Lined (h : Trace) (p : PoolId) : Option (Config × PendingQueue TaskId) → Prop
  | none => h.accepted p = [] ∧ ∀ order, Served order p h []
  | some (c, queue) => ∃ served line, InLine h p c queue served line

theorem Lined.turn {h : Trace} {p : PoolId} {es : List Event} {i : ThreadId}
    {x x' : Option (Config × PendingQueue TaskId)} (lined : Lined h p x)
    (turn : Turn x (es.filterMap (·.accepted? p)) (es.filterMap (·.claimed? p)) x') :
    Lined (h ++ es.map (i, ·)) p x' := by
  generalize ha : es.filterMap (·.accepted? p) = accepted at turn
  generalize hc : es.filterMap (·.claimed? p) = claimed at turn
  cases turn with
  | same =>
    cases x with
    | none =>
      refine ⟨?_, fun order => (lined.2 order).others (List.filterMap_eq_nil_iff.mp hc)⟩
      rw [Trace.accepted_append, ha, List.append_nil, lined.1]
    | some x =>
      obtain ⟨served, line, inLine⟩ := lined
      exact ⟨served, line, inLine.quiet ha hc⟩
  | create c => exact ⟨[], [], (InLine.create lined.1 (lined.2 c.order)).quiet ha hc⟩
  | push c queue t =>
    obtain ⟨served, line, inLine⟩ := lined
    exact ⟨served, _, inLine.push ha hc⟩
  | pop c hpop =>
    obtain ⟨served, line, inLine⟩ := lined
    obtain ⟨n, line', -, inLine'⟩ := inLine.pop hpop ha hc
    exact ⟨served ++ [n], line', inLine'⟩

namespace System

variable {s s' : System} {h : Trace} {es : List Event} {i : ThreadId} {p : PoolId} {pool : Pool}
  {callers : Nat}

/-- The configuration and the queue of the pool. -/
def line (s : System) (p : PoolId) : Option (Config × PendingQueue TaskId) :=
  s.pools[p]?.map fun pool => (pool.config, pool.queue)

theorem line_set {q : PoolId} {old new : Pool} (hq : s.pools[q]? = some old)
    (hpools : s'.pools = s.pools.set q new) :
    s'.line p = if p = q then some (new.config, new.queue) else s.line p := by
  have hlt := (List.getElem?_eq_some_iff.mp hq).1
  by_cases hp : q = p
  · subst hp
    simp [line, hpools, hlt]
  · simp [line, hpools, hp, Ne.symm hp]

theorem Move.turn (m : Move i s es s') (p : PoolId) :
    Turn (s.line p) (es.filterMap (·.accepted? p)) (es.filterMap (·.claimed? p)) (s'.line p) := by
  have quiet (hline : s'.line p = s.line p)
      (he : ∀ e ∈ es, e.accepted? p = none ∧ e.claimed? p = none) :
      Turn (s.line p) (es.filterMap (·.accepted? p)) (es.filterMap (·.claimed? p))
        (s'.line p) := by
    rw [hline, List.filterMap_eq_nil_iff.mpr fun e hmem => (he e hmem).1,
      List.filterMap_eq_nil_iff.mpr fun e hmem => (he e hmem).2]
    exact .same _
  have same (hpools : s'.pools = s.pools) : s'.line p = s.line p := by rw [line, hpools, line]
  -- The pool that the move is about keeps its queue.
  have set {q : PoolId} {old new : Pool} (hq : s.pools[q]? = some old)
      (hpools : s'.pools = s.pools.set q new) (hc : new.config = old.config)
      (hqueue : new.queue = old.queue) : s'.line p = s.line p := by
    rw [line_set hq hpools]
    split
    · next hp => simp [line, hp, hq, hc, hqueue]
    · rfl
  cases m with
  | call _ _ => exact quiet (same rfl) (by simp)
  | leave _ _ he =>
    rcases he with rfl | ⟨r, rfl⟩
    · exact quiet (same rfl) (by simp)
    · exact quiet (same rfl) (by simp [Event.accepted?, Event.claimed?])
  | wait _ _ _ => exact quiet (same rfl) (by simp)
  | @note r hr =>
    refine quiet (same rfl) ?_
    cases r <;> simp_all [LogRecord.isNote, Event.accepted?, Event.claimed?]
  | @addPool c pool hc =>
    obtain ⟨-, rfl⟩ := Pool.create_eq hc
    by_cases hp : p = s.pools.length
    · have hnone : s.line p = none := by simp [line, hp]
      have hsome : (s.addPool (Pool.new c)).line p = some (c, .empty c.maxPending c.order) := by
        simp [line, System.addPool, hp, Pool.new]
      rw [hnone, hsome]
      exact .create c
    · refine quiet ?_ (by simp [Event.accepted?, Event.claimed?])
      simp [line, System.addPool, getElem?_snoc, hp]
  | addTask _ => exact quiet (same rfl) (by simp)
  | hire hq _ _ =>
    exact quiet (set hq rfl rfl rfl) (by simp [Event.accepted?, Event.claimed?])
  | @accept q pool t task pick hq _ _ _ _ _ =>
    by_cases hp : q = p
    · subst hp
      have hline : s.line q = some (pool.config, pool.queue) := by simp [line, hq]
      rw [hline, line_set hq (pools_wakeOne pick), if_pos rfl]
      simpa [Event.accepted?, Event.claimed?, Pool.accept] using
        Turn.push pool.config pool.queue t
    · refine quiet ?_ (by simp [Event.accepted?, Event.claimed?, hp])
      rw [line_set hq (pools_wakeOne pick), if_neg (Ne.symm hp)]
  | take _ _ _ _ _ _ => exact quiet (same rfl) (by simp [Event.accepted?, Event.claimed?])
  | letGo _ _ _ _ _ => exact quiet (same rfl) (by simp)
  | discard _ _ => exact quiet (same rfl) (by simp)
  | destroy _ _ => exact quiet (same rfl) (by simp [Event.accepted?, Event.claimed?])
  | release _ _ _ => exact quiet (same rfl) (by simp)
  | abandon _ _ _ _ => exact quiet (same rfl) (by simp [Event.accepted?, Event.claimed?])
  | unref _ _ => exact quiet (same rfl) (by simp)
  | clear _ _ _ => exact quiet (same rfl) (by simp)
  | resume _ => exact quiet (same rfl) (by simp)
  | close hq _ => exact quiet (set hq rfl rfl rfl) (by simp)
  | stop k hq _ => exact quiet (set hq rfl rfl rfl) (by simp)
  | dismiss total hq _ =>
    exact quiet (set hq rfl rfl rfl) (by simp [Event.accepted?, Event.claimed?])
  | dropPool hq _ => exact quiet (set hq rfl rfl rfl) (by simp)
  | register _ hq _ =>
    exact quiet (set hq (pools_settled _) rfl rfl) (by simp [Event.accepted?, Event.claimed?])
  | released _ hq => exact quiet (set hq (pools_settled _) rfl rfl) (by simp)
  | exit _ _ _ _ => exact quiet (same rfl) (by simp [Event.accepted?, Event.claimed?])
  | @claim q pool pool' k t _ hq _ hc =>
    obtain ⟨queue, hpop, rfl⟩ := Pool.claim?_eq hc
    by_cases hp : q = p
    · subst hp
      have hline : s.line q = some (pool.config, pool.queue) := by simp [line, hq]
      rw [hline, line_set hq rfl, if_pos rfl]
      simpa [Event.accepted?, Event.claimed?] using Turn.pop pool.config hpop
    · refine quiet ?_ (by simp [Event.accepted?, Event.claimed?, hp])
      rw [line_set hq rfl, if_neg (Ne.symm hp)]
  | park _ _ _ _ => exact quiet (same rfl) (by simp)
  | begin _ _ _ _ => exact quiet (same rfl) (by simp [Event.accepted?, Event.claimed?])
  | beginEmpty _ _ _ _ => exact quiet (same rfl) (by simp)
  | endWork _ _ _ _ => exact quiet (same rfl) (by simp [Event.accepted?, Event.claimed?])
  | stash _ _ => exact quiet (same rfl) (by simp)
  | @count _ _ _ _ returned _ _ hq _ =>
    refine quiet (set hq rfl rfl rfl) ?_
    cases returned <;> simp [Event.accepted?, Event.claimed?]
  | retire _ hq _ =>
    refine quiet (set hq Books.pools_retired rfl rfl) ?_
    split <;> simp [Event.accepted?, Event.claimed?]

theorem Run.lined (run : Run callers h s) (p : PoolId) : Lined h p (s.line p) :=
  run.keeps (P := fun h s => Lined h p (s.line p)) ⟨rfl, fun _ => .nil⟩ fun _ lined m =>
    lined.turn (m.turn p)

/-- How the claims of a pool follow the submissions it has accepted. -/
structure ClaimOrder (h : Trace) (p : PoolId) (pool : Pool) (served line : List Nat) : Prop where
  /-- A claim takes, of the accepted submissions that no earlier claim has taken, the one that is
  next by the order of the pool. -/
  next : ∀ (h₁ h₂ : Trace) (i : ThreadId) (k : Nat) (t : TaskId),
    h = h₁ ++ (i, .log (.claimed p k t)) :: h₂ → ∃ served₁ n, served₁ ++ [n] <+: served ∧
      served₁.map ((h₁.accepted p)[·]?) = (h₁.claimed p).map some ∧
      pool.config.order.IsNext (h₁.waiting p served₁) n ∧ (h₁.accepted p)[n]? = some t
  claims : served.map ((h.accepted p)[·]?) = (h.claimed p).map some
  queue : line.map ((h.accepted p)[·]?) = pool.queue.entries.map some
  /-- Each accepted submission has been claimed or waits in the queue, once. -/
  parts : (served ++ line).Perm (List.range (h.accepted p).length)
  union : (h.claimed p ++ pool.queue.entries).Perm (h.accepted p)
  /-- The oldest entry first: the claims repeat the submissions, and the queue holds the rest. -/
  fifo : pool.config.order = .fifo → h.accepted p = h.claimed p ++ pool.queue.entries
  room : pool.queue.length ≤ pool.config.maxPending

theorem Run.claims_in_order (run : Run callers h s) (hp : s.pools[p]? = some pool) :
    ∃ served line, ClaimOrder h p pool served line := by
  have lined := run.lined p
  have hline : s.line p = some (pool.config, pool.queue) := by simp [System.line, hp]
  rw [hline] at lined
  obtain ⟨served, line, inLine⟩ := lined
  have balanced := run.books.pools p pool hp
  refine ⟨served, line, fun h₁ h₂ i k t hh => ?_, inLine.serves.map_accepted, inLine.entries,
    inLine.parts, inLine.union, inLine.fifo, balanced.capacity ▸ balanced.room⟩
  have serves := inLine.serves
  rw [hh] at serves
  obtain ⟨served₁, n, before, first, hn, ht⟩ := serves.next (t := t) (by simp [Event.claimed?])
  exact ⟨served₁, n, first, before.map_accepted, hn, ht⟩

/-- The second task is claimed first, and first again after it has been submitted anew. -/
theorem claims_in_order_lifo : ∃ h s pool served line, Run 1 h s ∧ s.pools[0]? = some pool ∧
    pool.config.order = .lifo ∧ h.accepted 0 = [0, 1, 1] ∧ h.claimed 0 = [1, 1] ∧
    pool.queue.entries = [0] ∧ ClaimOrder h 0 pool served line := by
  have run : Run 1 _ _ := run_of_replay [(0, .call (.createPool (.new 1)) 0),
    (0, .call (.createTask none) 0), (0, .call (.createTask none) 0), (0, .call (.submit 0 0) 0),
    (1, .advance 0), (0, .advance 0), (0, .call (.submit 0 1) 0), (1, .advance 0),
    (1, .advance 0), (1, .finish (.ok .null)), (1, .advance 0), (1, .advance 0), (1, .advance 0),
    (0, .call (.join 1 none) 0), (0, .call (.submit 0 1) 0), (1, .advance 0), (1, .advance 0),
    (1, .advance 0)] rfl
  have ordered : ∃ served line, ClaimOrder _ 0 _ served line := run.claims_in_order rfl
  obtain ⟨served, line, order⟩ := ordered
  exact ⟨_, _, _, served, line, run, rfl, rfl, rfl, rfl, rfl, order⟩

end System

end WorkerPool
