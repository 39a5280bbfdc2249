import WorkerPool.Proofs.Headcount
import WorkerPool.Proofs.Submissions

/-!
Workers that wait for work.

Each accepted submission wakes one sleeping worker, if there is one. Whichever worker of the pool
looks for work first takes the task, so a worker that has been woken may find nothing and go back to
sleep; but it does so only if the queue is empty. Hence nobody sleeps while more tasks are queued
than workers are on their way to them.
-/
namespace WorkerPool

/-- Whether a worker in this phase waits for work, and has been woken or not. -/
def Phase.rests (woken : Bool) : Phase → Bool
  | parked w => w == woken
  | _ => false

@[simp] theorem Phase.rests_parked (w woken : Bool) : (parked w).rests woken = (w == woken) := rfl

namespace Thread

variable {th : Thread} {p : PoolId}

/-- The threads that `System.wakeOne` chooses from. -/
theorem worksAt_sleeps : th.worksAt p (Phase.rests false) = th.sleepsIn p := by
  unfold worksAt sleepsIn
  cases th.role with
  | caller => rfl
  | worker q k phase =>
    cases phase with
    | parked w => cases w <;> simp
    | _ => simp [Phase.rests]

/-- A wake-up for work leaves nobody of the pool asleep. -/
theorem worksAt_wake_rests (b : Bool) :
    (th.wake (.workAvailable p)).worksAt p (Phase.rests b) =
      (b && (th.worksAt p (Phase.rests true) || th.worksAt p (Phase.rests false))) := by
  simp only [worksAt, role_wake]
  cases th.role with
  | caller => simp [Role.wake]
  | worker q k phase =>
    cases phase with
    | parked w =>
      by_cases hq : q = p
      · subst hq
        cases w <;> cases b <;> simp [Role.wake, Phase.wake]
      · simp [Role.wake, beq_eq_false_iff_ne.mpr hq]
    | _ => simp [Role.wake, Phase.wake, Phase.rests]

end Thread

namespace System

variable {s s' : System} {i : ThreadId} {p q : PoolId} {k : Nat} {pool new : Pool}
  {phase phase' : Phase} {g : Thread → Thread} {es : List Event} {e : Effect} {h : Trace}
  {callers : Nat} {t : TaskId} {task : Task} {b : Bool}

/-- The number of workers of the pool that wait for work, and have been woken or not. -/
def resting (s : System) (p : PoolId) (woken : Bool) : Nat := s.headcount p (Phase.rests woken)

/-! ### Wake-ups -/

/-- Nobody sleeps through a wake-up for all. -/
theorem resting_wakeAll : (s.wakeAll (.workAvailable p)).resting p false = 0 := by
  simp [resting, headcount, System.wakeAll, List.countP_eq_zero, Thread.worksAt_wake_rests]

theorem mem_sleepers {j : ThreadId} : j ∈ s.sleepers p ↔
    ∃ th, s.threads[j]? = some th ∧ th.worksAt p (Phase.rests false) := by
  simp only [sleepers, List.mem_filter, List.mem_range, Option.any_eq_true,
    Thread.worksAt_sleeps]
  exact ⟨And.right, fun ⟨th, hth, h⟩ => ⟨(List.getElem?_eq_some_iff.mp hth).1, th, hth, h⟩⟩

/-- A wake-up for one reaches one worker that sleeps, or nobody if none does. -/
theorem wakeOne_reaches (s : System) (p : PoolId) (pick : Pick) :
    (s.resting p false = 0 ∧ s.wakeOne p pick = s) ∨
      ∃ j th, s.threads[j]? = some th ∧ th.worksAt p (Phase.rests false) ∧
        s.wakeOne p pick = s.onThread j (Thread.wake (.workAvailable p)) := by
  simp only [wakeOne]
  split
  · next hnone =>
    have hlen : (s.sleepers p).length = 0 := by
      by_contra hpos
      have := Nat.mod_lt pick.sleeper (Nat.pos_of_ne_zero hpos)
      have := List.getElem?_eq_none_iff.mp hnone
      omega
    refine .inl ⟨List.countP_eq_zero.mpr fun th hth hrest => ?_, rfl⟩
    obtain ⟨j, hj⟩ := List.getElem?_of_mem hth
    have hmem : j ∈ s.sleepers p := mem_sleepers.mpr ⟨th, hj, hrest⟩
    simp [List.eq_nil_of_length_eq_zero hlen] at hmem
  · next j hj =>
    obtain ⟨th, hth, hrest⟩ := mem_sleepers.mp (List.mem_of_getElem? hj)
    exact .inr ⟨j, th, hth, hrest, rfl⟩

theorem resting_wakeOne (s : System) (p : PoolId) (pick : Pick) :
    (s.wakeOne p pick).resting p false = s.resting p false - 1 ∧
      (s.wakeOne p pick).resting p true = s.resting p true + min 1 (s.resting p false) := by
  obtain ⟨hnone, hw⟩ | ⟨j, th, hth, hrest, hw⟩ := wakeOne_reaches s p pick
  · rw [hw]
    omega
  · have hawake : th.worksAt p (Phase.rests true) = false := by
      unfold Thread.worksAt at *
      cases hr : th.role with
      | caller => rfl
      | worker q k phase => cases phase <;> simp_all [Phase.rests]
    have hpos : 0 < s.resting p false :=
      List.countP_pos_iff.mpr ⟨th, List.mem_of_getElem? hth, hrest⟩
    have hsleep := headcount_onThread p (Phase.rests false) (Thread.wake (.workAvailable p)) hth
    have hwoken := headcount_onThread p (Phase.rests true) (Thread.wake (.workAvailable p)) hth
    simp only [Thread.worksAt_wake_rests, hrest, hawake, Bool.true_and, Bool.false_and,
      Bool.or_true, Bool.toNat_true, Bool.toNat_false] at hsleep hwoken
    rw [hw]
    unfold resting at *
    omega

/-! ### Queues -/

/-- The number of tasks in the queue of the pool. -/
def backlog (s : System) (p : PoolId) : Nat := (s.pools[p]?.map (·.queue.length)).getD 0

theorem backlog_eq (hp : s.pools[p]? = some pool) : s.backlog p = pool.queue.length := by
  simp [backlog, hp]

theorem backlog_set (hq : s.pools[q]? = some pool) (hpools : s'.pools = s.pools.set q new) :
    s'.backlog p = if p = q then new.queue.length else s.backlog p :=
  getD_pools_set 0 hq hpools

theorem backlog_same (hq : s.pools[q]? = some pool) (hpools : s'.pools = s.pools.set q new)
    (hn : new.queue = pool.queue) : s'.backlog p = s.backlog p :=
  getD_pools_same 0 hq hpools (congrArg PendingQueue.length hn)

theorem backlog_addPool (hn : new.queue.length = 0) : (s.addPool new).backlog p = s.backlog p :=
  getD_addPool 0 hn

theorem length_claim (hc : pool.claim? = some (t, new)) :
    new.queue.length + 1 = pool.queue.length := by
  obtain ⟨queue, hpop, rfl⟩ := Pool.claim?_eq hc
  obtain ⟨rest, hentries, rfl⟩ := PendingQueue.pop?_eq hpop
  simp [PendingQueue.length, hentries]

theorem length_claim_none (hc : pool.claim? = none) : pool.queue.length = 0 := by
  unfold Pool.claim? PendingQueue.pop? at hc
  unfold PendingQueue.length
  cases he : pool.queue.entries with
  | nil => rfl
  | cons t rest => simp [he] at hc

/-! ### Runs -/

/-- No worker of the pool sleeps unless others have been woken for all that is queued. -/
def Alert (s : System) (p : PoolId) : Prop :=
  s.resting p false = 0 ∨ s.backlog p ≤ s.resting p true

theorem Alert.mono (alert : s.Alert p) (hb : s'.backlog p ≤ s.backlog p)
    (hs : s'.resting p false ≤ s.resting p false) (hw : s.resting p true ≤ s'.resting p true) :
    s'.Alert p := by
  unfold Alert at *
  omega

theorem Alert.accept {pick : Pick} (alert : s.Alert p) (hq : s.pools[q]? = some pool)
    (hpools : s'.pools = s.pools.set q (pool.accept t)) (ht : s'.threads = s.threads) :
    (s'.wakeOne q pick).Alert p := by
  have hrest : ∀ b, s'.resting p b = s.resting p b := fun _ => headcount_congr ht
  have hback : (s'.wakeOne q pick).backlog p = s'.backlog p := by simp [backlog]
  by_cases hp : p = q
  · subst hp
    obtain ⟨hsleep, hwoken⟩ := resting_wakeOne s' p pick
    unfold Alert at *
    rw [backlog_eq hq] at alert
    rw [hback, backlog_set hq hpools, Pool.length_accept, if_pos rfl, hsleep, hwoken, hrest, hrest]
    omega
  · have hsame (b : Bool) : (s'.wakeOne q pick).resting p b = s.resting p b :=
      (headcount_wakeOne_ne (Ne.symm hp)).trans (hrest b)
    refine alert.mono ?_ (hsame false).le (hsame true).ge
    rw [hback, backlog_set hq hpools, if_neg hp]

theorem Alert.claim (alert : s.Alert p) (hw : s.Working i q k (.parked true))
    (hq : s.pools[q]? = some pool) (hc : pool.claim? = some (t, new)) :
    ((s.setPool q new).onThread i (·.setPhase (.holding t))).Alert p := by
  have hw' : (s.setPool q new).Working i q k (.parked true) := hw
  have hlen := length_claim hc
  have hback : ((s.setPool q new).onThread i (·.setPhase (.holding t))).backlog p =
      if p = q then new.queue.length else s.backlog p := backlog_set hq rfl
  by_cases hp : q = p
  · subst hp
    have counts (b : Bool) := hw'.headcount q (Phase.rests b) (g := (·.setPhase (.holding t)))
      fun _ => rfl
    have hsleep := counts false
    have hwoken := counts true
    have hsame (b : Bool) : (s.setPool q new).headcount q (Phase.rests b) = s.resting q b := rfl
    simp only [hsame, beq_self_eq_true, Phase.rests, Bool.true_beq, Bool.and_false, Bool.and_true,
      Bool.toNat_false, Bool.toNat_true, Nat.add_zero] at hsleep hwoken
    unfold Alert resting at *
    rw [backlog_eq hq] at alert
    rw [hback, if_pos rfl]
    omega
  · have hsame (b : Bool) : ((s.setPool q new).onThread i (·.setPhase (.holding t))).resting p b =
        s.resting p b := hw'.headcount_ne (fun _ => rfl) hp
    exact alert.mono (by rw [hback, if_neg (Ne.symm hp)]) (hsame false).le (hsame true).ge

/-- A worker may go if there is nothing to take. -/
theorem Alert.unqueued (alert : s.Alert p) (hw : s.Working i q k phase)
    (hq : s.pools[q]? = some pool) (hlen : pool.queue.length = 0)
    (hg : ∀ th, (g th).role = (th.setPhase phase').role) : (s.onThread i g).Alert p := by
  by_cases hp : q = p
  · subst hp
    have hback : (s.onThread i g).backlog q = 0 := (backlog_eq hq).trans hlen
    exact .inr (by omega)
  · exact alert.mono le_rfl (hw.headcount_ne hg hp).le (hw.headcount_ne hg hp).ge

/-- A worker that has no task yet, or no more, is not asleep. -/
theorem Alert.settled (alert : s.Alert p) (hw : s.Working i q k phase)
    (hrest : ∀ b, phase.rests b = false) (hq : s.pools[q]? = some pool)
    (hn : new.queue = pool.queue) : (s.settled i q new).Alert p := by
  have hsleep := hw.headcount_settled p (Phase.rests false) new
  have hwoken := hw.headcount_settled p (Phase.rests true) new
  simp only [hrest, Phase.rests_parked, Bool.true_beq, Bool.and_false, Bool.toNat_false,
    Nat.add_zero] at hsleep hwoken
  exact alert.mono (backlog_same hq (pools_settled _) hn).le hsleep.le
    ((Nat.le_add_right _ _).trans hwoken.ge)

theorem Alert.move (alert : s.Alert p) (books : s.Books) (m : Move i s es s') : s'.Alert p := by
  have same (hb : s'.backlog p = s.backlog p) (hr : ∀ b, s'.resting p b = s.resting p b) :
      s'.Alert p :=
    alert.mono hb.le (hr false).le (hr true).ge
  -- Moves of calls change no phase and no queue.
  have calls {g : Thread → Thread} (hg : ∀ th, (g th).role = th.role) (b : Bool) :
      (s.onThread i g).resting p b = s.resting p b := headcount_of_role hg
  have twice {g g' : Thread → Thread} (hg : ∀ th, (g th).role = th.role)
      (hg' : ∀ th, (g' th).role = th.role) (b : Bool) :
      ((s.onThread i g).onThread i g').resting p b = s.resting p b :=
    (headcount_of_role hg').trans (calls hg b)
  -- Who does not wait for work before or after a move is not counted.
  have busy {s₁ : System} {q : PoolId} {k : Nat} {phase phase' : Phase} {g : Thread → Thread}
      (hw : s₁.Working i q k phase) (ht : s₁.threads = s.threads)
      (hg : ∀ th, (g th).role = (th.setPhase phase').role)
      (hp : ∀ b, phase.rests b = phase'.rests b) (b : Bool) :
      (s₁.onThread i g).resting p b = s.resting p b :=
    (hw.headcount_same hg (hp b)).trans (headcount_congr ht)
  cases m with
  | call _ _ => exact same rfl (calls fun _ => rfl)
  | leave _ _ _ => exact same rfl (calls fun _ => rfl)
  | wait _ _ _ => exact same rfl (calls fun _ => rfl)
  | note _ => exact alert
  | addPool hc => exact same (backlog_addPool (by rw [(Pool.create_eq hc).2]; rfl)) fun _ => rfl
  | addTask _ => exact same rfl fun _ => rfl
  | hire hq _ _ => exact same (backlog_same hq rfl rfl) fun _ => headcount_spawn rfl
  | accept hq _ _ _ _ _ => exact alert.accept hq rfl rfl
  | take _ _ _ _ _ _ => exact same rfl (calls fun _ => rfl)
  | letGo _ _ _ _ _ => exact same rfl (calls fun _ => rfl)
  | discard _ _ => exact same rfl (calls fun _ => rfl)
  | destroy _ _ => exact same rfl (twice (fun _ => rfl) fun _ => rfl)
  | release _ _ _ => exact same rfl (calls fun _ => rfl)
  | abandon _ _ _ _ => exact same rfl (calls fun _ => rfl)
  | unref _ _ => exact same rfl (calls fun _ => rfl)
  | clear _ _ _ => exact same rfl (calls fun _ => rfl)
  | resume _ => exact same rfl (twice (fun _ => rfl) fun _ => rfl)
  | close hq _ => exact same (backlog_same hq rfl rfl) fun _ => rfl
  | @stop q pool k hq _ =>
    by_cases hqp : q = p
    · subst hqp
      exact .inl resting_wakeAll
    · exact same (backlog_same hq rfl rfl) fun _ => headcount_wakeAll_ne (by simp [hqp])
  | dismiss _ hq _ => exact same (backlog_same hq rfl rfl) fun _ => rfl
  | dropPool hq _ => exact same (backlog_same hq rfl rfl) fun _ => rfl
  | @register q pool k g hw hq hg =>
    have told (b : Bool) : ((s.onThread i g).wakeAll (.workerRegistered q)).resting p b =
        s.resting p b := (headcount_wakeAll_ne (by simp)).trans (calls (fun th => (hg th).1) b)
    have alert' : ((s.onThread i g).wakeAll (.workerRegistered q)).Alert p :=
      alert.mono le_rfl (told false).le (told true).ge
    exact alert'.settled ((hw.stay hg).wakeAll (.workerRegistered q)) (fun _ => rfl) hq rfl
  | released hw hq => exact alert.settled hw (fun _ => rfl) hq rfl
  | @exit q pool k g hw hq hx hg =>
    -- Workers leave a closed pool only, and its queue is empty.
    have balanced := books.pools q pool hq
    have hc : pool.closed = true := by
      by_contra ho
      simp [balanced.stays (by simpa using ho) k] at hx
    have hlen : pool.queue.length = 0 := by simp [PendingQueue.length, (balanced.calm hc).2]
    exact alert.unqueued hw hq hlen fun th => (hg th).1
  | claim hw hq _ hc => exact alert.claim hw hq hc
  | park hw hq _ hc => exact alert.unqueued hw hq (length_claim_none hc) fun _ => rfl
  | begin hw _ _ hg => exact same rfl (busy hw rfl (fun th => (hg th).1) fun _ => rfl)
  | beginEmpty hw _ _ hg => exact same rfl (busy hw rfl (fun th => (hg th).1) fun _ => rfl)
  | endWork hw _ _ hg => exact same rfl (busy hw rfl (fun th => (hg th).1) fun _ => rfl)
  | stash hw _ => exact same rfl (busy hw rfl (fun _ => rfl) fun _ => rfl)
  | count hw hq hg =>
    exact same (backlog_same hq rfl rfl) (busy hw rfl (fun th => (hg th).1) fun _ => rfl)
  | @retire q pool k t task hw hq _ =>
    exact same (backlog_same hq Books.pools_retired rfl) fun b => hw.headcount_retired_same rfl

/-- In every run, no worker sleeps unless others have been woken for all that is queued. -/
theorem Run.alert (run : Run callers h s) (p : PoolId) : s.Alert p := by
  have both : s.Books ∧ s.Alert p :=
    run.keeps (P := fun _ s => s.Books ∧ s.Alert p)
      ⟨.start callers, .inr (by simp [backlog, System.start])⟩
      fun _ ⟨books, alert⟩ m => ⟨books.move m, alert.move books m⟩
  exact both.2

/-! ### Submissions and workers -/

/-- A submission that succeeds wakes one worker that sleeps, or nobody if none does. -/
theorem Attempt.resting (attempt : s.Attempt i p t pool task e) (done : .replied .done ∈ e.2) :
    e.1.resting p false = s.resting p false - 1 ∧
      e.1.resting p true = s.resting p true + min 1 (s.resting p false) := by
  cases attempt with
  | declined _ _ _ => simp at done
  | hires _ _ _ _ => simp at done
  | waits _ _ _ _ _ => simp at done
  | @accepted s₀ pick _ _ _ hs =>
    let told := (s₀.setSlot t task.slot.claim).setPool p (pool.accept t)
    have hrest (b : Bool) : told.resting p b = s.resting p b := by
      rcases hs with rfl | rfl
      · exact headcount_congr rfl
      · exact (headcount_congr rfl).trans (headcount_of_role fun _ => rfl)
    have hpop (b : Bool) : ((told.wakeOne p pick).onThread i Thread.pop).resting p b =
        (told.wakeOne p pick).resting p b := headcount_of_role fun _ => rfl
    have hwake := resting_wakeOne told p pick
    rw [hrest, hrest] at hwake
    exact ⟨(hpop false).trans hwake.1, (hpop true).trans hwake.2⟩

/-- A worker that looks for work takes the task at the head of the queue. -/
theorem Working.takes {rest : List TaskId} (hw : s.Working i p k phase)
    (hp : s.pools[p]? = some pool) (hphase : phase.seeksWork) (hx : pool.exitRequested k = false)
    (hq : pool.queue.entries = t :: rest) (pick : Pick) : ∃ s' es,
      s.step i (.advance pick) = some (s', es) ∧ .log (.claimed p k t) ∈ es := by
  obtain ⟨s₀, es, hwork⟩ := work?_seeksWork (i := i) (k := k) hp hphase
  obtain ⟨th, hth, hr, hc⟩ := hw
  have seen : (pool.seenBy i phase).exitRequested k = false ∧
      (pool.seenBy i phase).queue = pool.queue := by
    cases phase <;> exact ⟨hx, rfl⟩
  have hs : s.step i (.advance pick) =
      some (emit es (s₀.proceed i p (pool.seenBy i phase) k)) := by
    simp [step, hth, advance?, hc, hr, hwork]
  refine ⟨_, _, hs, ?_⟩
  simp [proceed, seen, Pool.claim?, PendingQueue.pop?, hq]

/-- What workers that wait for work can rely on. -/
structure WorkersWoken (s : System) (p : PoolId) (pool : Pool) : Prop where
  /-- If a worker sleeps, enough others have been woken for all that is queued. -/
  enough : 0 < s.resting p false → pool.queue.length ≤ s.resting p true
  /-- If none is on its way, there is nothing queued, or nobody sleeps. -/
  awake : s.resting p true = 0 → pool.queue.isEmpty ∨ s.resting p false = 0
  /-- A submission wakes one worker only, and nobody if none sleeps. -/
  one : ∀ {i t a s' es}, s.Attempts i p t a → s.step i a = some (s', es) → .replied .done ∈ es →
    s'.resting p false = s.resting p false - 1 ∧
      s'.resting p true = s.resting p true + min 1 (s.resting p false)
  /-- Whichever worker looks for work first takes the task. -/
  taken : ∀ {i k phase t rest}, s.Working i p k phase → phase.seeksWork →
    pool.exitRequested k = false → pool.queue.entries = t :: rest → ∀ pick, ∃ s' es,
      s.step i (.advance pick) = some (s', es) ∧ .log (.claimed p k t) ∈ es

theorem Run.workers_woken (run : Run callers h s) (hp : s.pools[p]? = some pool) :
    WorkersWoken s p pool := by
  have alert := run.alert p
  unfold Alert at alert
  rw [backlog_eq hp] at alert
  exact {
    enough := fun hsleep => alert.resolve_left (Nat.pos_iff_ne_zero.mp hsleep)
    awake := fun hnone => by
      rcases alert with hsleep | hlen
      · exact .inr hsleep
      · exact .inl (by simpa [PendingQueue.isEmpty, PendingQueue.length, hnone] using hlen)
    one := fun tries hs done => by
      obtain ⟨pool', task, -, -, -, attempt⟩ := tries.attempt run.calls hs
      exact attempt.resting done
    taken := fun hw hphase hx hq pick => hw.takes hp hphase hx hq pick }

/-- Both workers of a pool run a task each and go to sleep; then a third task is submitted. -/
def bothAsleep : List (ThreadId × Action) :=
  let call (op : Operation) : ThreadId × Action := (0, .call op 0)
  let go (i : ThreadId) (n : Nat) := List.replicate n (i, Action.advance 0)
  [call (.createPool (.new 2)), call (.createTask none), call (.createTask none),
    call (.createTask none), call (.submit 0 0)] ++ go 1 1 ++ go 0 1 ++ go 1 2 ++
  [call (.submit 0 1)] ++ go 2 1 ++ go 0 1 ++ go 2 1 ++ [(1, .finish (.ok .null))] ++ go 1 6 ++
  go 2 1 ++ [(2, .finish (.ok .null))] ++ go 2 6 ++ [call (.submit 0 2)]

/-- One of them has been woken for it and the other one sleeps on. -/
theorem workers_woken_bothAsleep : ∃ h s pool, Run 1 h s ∧ s.pools[0]? = some pool ∧
    pool.queue.length = 1 ∧ s.resting 0 true = 1 ∧ s.resting 0 false = 1 ∧
    WorkersWoken s 0 pool := by
  have run : Run 1 _ _ := run_of_replay bothAsleep rfl
  exact ⟨_, _, _, run, rfl, rfl, rfl, rfl, run.workers_woken rfl⟩

end System

end WorkerPool
