import WorkerPool.Proofs.Calls
import WorkerPool.Proofs.Run

/-!
Every step is made of moves.

The lemmas follow the functions that `System.step` is put together from. A call that goes on has its
frame on top; the frames of the other threads say that it may.
-/
namespace WorkerPool.System

variable {s s' : System} {i : ThreadId} {p : PoolId} {t : TaskId} {f f' : Frame}
  {pool : Pool} {task : Task} {rest : List Frame} {es : List Event} {e : Effect} {k : Nat}

/-- Moves of the thread have this effect. -/
def Makes (s : System) (i : ThreadId) (e : Effect) : Prop := Moves i s e.2 e.1

theorem Move.makes (m : Move i s es s') : s.Makes i (s', es) := Moves.single m

theorem Makes.after (h : s'.Makes i e) (m : Move i s [] s') : s.Makes i e := Moves.cons m h

theorem Makes.emit (h : s'.Makes i e) (m : Move i s es s') : s.Makes i (emit es e) :=
  Moves.cons m h

/-! ### Frames of other states -/

theorem Inside.wakeAll (hi : s.Inside i (f :: rest)) (hf : f.isBare) (c : Condition) :
    ∃ f' rest', (s.wakeAll c).Inside i (f' :: rest') ∧ f'.isBare := by
  obtain ⟨th, hth, hc⟩ := hi
  exact ⟨f.wake c, rest.map (Frame.wake c), ⟨th.wake c, by simp [getElem?_wakeAll, hth],
    by simp [hc]⟩, by simpa using hf⟩

theorem Inside.wakeOne (hi : s.Inside i (f :: rest)) (hf : f.isBare) (pick : Pick) :
    ∃ f' rest', (s.wakeOne p pick).Inside i (f' :: rest') ∧ f'.isBare := by
  obtain ⟨j, hj⟩ := wakeOne_eq s p pick
  obtain ⟨th, hth, hc⟩ := hi
  rw [hj]
  by_cases h : j = i
  · subst h
    let c : Condition := .workAvailable p
    exact ⟨f.wake c, rest.map (Frame.wake c), ⟨th.wake c, by simp [getElem?_onThread, hth, c],
      by simp [hc]⟩, by simpa using hf⟩
  · exact ⟨f, rest, ⟨th, by simp [getElem?_onThread, h, hth], hc⟩, hf⟩

theorem Inside.hired {calls : List Frame} (hi : s.Inside i calls) :
    (s.hired p pool).Inside i calls := by
  obtain ⟨th, hth, hc⟩ := hi
  have hlt : i < s.threads.length := (List.getElem?_eq_some_iff.mp hth).1
  exact ⟨th, (List.getElem?_append_left hlt).trans hth, hc⟩

theorem canShare_of (h : s.canShare t) (hs : s'.standing t = s.standing t)
    (hj : s'.weight (joining t) ≤ s.weight (joining t)) : s'.canShare t := by
  obtain ⟨ht, hw⟩ := canShare_iff.mp h
  exact canShare_iff.mpr ⟨hs ▸ ht, Nat.le_zero.mp (hw ▸ hj)⟩

theorem weight_pop_le (g : Frame → Nat) (hi : s.Inside i (f :: rest)) :
    (s.onThread i Thread.pop).weight g ≤ s.weight g := by
  have := weight_pop (g := g) hi
  omega

theorem canOwn_of (h : s.canOwn t) (hs : s'.standing t = s.standing t)
    (hj : s'.weight (joining t) ≤ s.weight (joining t))
    (hb : s'.weight (submitting t) ≤ s.weight (submitting t)) : s'.canOwn t := by
  obtain ⟨share, hw⟩ := canOwn_iff.mp h
  exact canOwn_iff.mpr ⟨canShare_of share hs hj, Nat.le_zero.mp (hw ▸ hb)⟩

/-- A call leaves its frame for another one. -/
theorem Makes.enter (hi : s.Inside i (f :: rest)) (hf : f.isBare)
    (due : (s.onThread i Thread.pop).Due i f') : s.Makes i (s.enter i f', []) :=
  (Move.wait hi hf due).makes

theorem Makes.reply (hi : s.Inside i (f :: rest)) (hf : f.isBare) (r : Reply) :
    s.Makes i (s.reply i r) :=
  (Move.leave hi hf (.inr ⟨r, rfl⟩)).makes

/-! ### Submissions -/

/-- The worker that a pool has just got has not registered. -/
theorem recruits_hired : ((s.hired p pool).onThread i Thread.pop).Recruits p := by
  obtain ⟨th, hth, hr⟩ : ∃ th, (s.hired p pool).threads[s.threads.length]? = some th ∧
      th.role = .worker p pool.rosterSize .starting :=
    ⟨_, List.getElem?_concat_length, rfl⟩
  have hpop := getElem?_onThread (s := s.hired p pool) (i := i) (j := s.threads.length) Thread.pop
  rw [hth] at hpop
  split at hpop
  · exact ⟨th.pop, List.mem_of_getElem? hpop, _, hr⟩
  · exact ⟨th, List.mem_of_getElem? hpop, _, hr⟩

theorem Makes.accept (pick : Pick) (hi : s.Inside i (f :: rest)) (hf : f.isBare)
    (hp : s.pools[p]? = some pool) (ht : s.tasks[t]? = some task) (hr : pool.refusal = none)
    (hu : pool.unregistered = 0) (share : s.canShare t) :
    s.Makes i (s.accept i p pool t task pick) := by
  unfold System.accept
  split
  · exact .reply hi hf _
  · next ho =>
    have hi' : ((s.setSlot t task.slot.claim).setPool p (pool.accept t)).Inside i (f :: rest) := hi
    obtain ⟨f', rest', hi', hf'⟩ := hi'.wakeOne (p := p) hf pick
    exact (Makes.reply hi' hf' _).emit (.accept hp ht hr hu share (not_not.mp ho))

theorem Makes.submit (pick : Pick) (hi : s.Inside i (f :: rest)) (hf : f.isBare)
    (hp : s.pools[p]? = some pool) (ht : s.tasks[t]? = some task) (share : s.canShare t) :
    s.Makes i (s.submit i p pool t task pick) := by
  unfold System.submit
  split
  · exact .reply hi hf _
  · next hr =>
    split
    · exact .reply hi hf _
    · split
      · next hn =>
        split
        · have hi' : (s.hired p pool).Inside i (f :: rest) := hi.hired
          have due : ((s.hired p pool).onThread i Thread.pop).Due i
              (.awaitingWorker p t false) := by
            refine ⟨rfl, canShare_of share rfl ((weight_pop_le _ hi').trans ?_), .inl ?_⟩
            · simp [hired, System.weight, Thread.weigh]
            · exact recruits_hired
          exact (Makes.enter hi' hf due).emit (.hire hp hr hn)
        · exact .reply hi hf _
      · split
        · next hu =>
          exact .enter hi hf ⟨rfl, canShare_of share rfl (weight_pop_le _ hi), .inr ⟨pool, hp, hu⟩⟩
        · next hu => exact .accept pick hi hf hp ht hr (by omega) share

theorem Makes.resumeSubmit (pick : Pick) (hi : s.Inside i (f :: rest)) (hf : f.isBare)
    (hp : s.pools[p]? = some pool) (ht : s.tasks[t]? = some task) (share : s.canShare t) :
    s.Makes i (s.resumeSubmit i p pool t task pick) := by
  unfold System.resumeSubmit
  split
  · next hu =>
    exact .enter hi hf ⟨rfl, canShare_of share rfl (weight_pop_le _ hi), .inr ⟨pool, hp, hu⟩⟩
  · next hu =>
    split
    · exact .reply hi hf _
    · next hr => exact .accept pick hi hf hp ht hr (by omega) share

/-! ### Joins -/

theorem Makes.takeOutcome (hi : s.Inside i (f :: rest)) (hf : f.isBare)
    (ht : s.tasks[t]? = some task) (own : (s.onThread i Thread.pop).canOwn t)
    (ho : task.slot.ownership = .pool) (hs : task.slot.state = .finished) :
    s.Makes i (s.takeOutcome i t task) :=
  (Move.take hi hf ht own ho hs).makes

theorem Due.outcome {bound : Bound} (ht : s.tasks[t]? = some task)
    (own : (s.onThread i Thread.pop).canOwn t) (ho : task.slot.ownership = .pool)
    (hs : task.slot.state ≠ .finished) :
    (s.onThread i Thread.pop).Due i (.awaitingOutcome t bound false) := by
  have h : (s.onThread i Thread.pop).task t = task := by simp [System.task, onThread, ht]
  exact ⟨rfl, own, h ▸ ho, h ▸ hs⟩

theorem Makes.join {bound : Bound} (hi : s.Inside i (f :: rest)) (hf : f.isBare)
    (ht : s.tasks[t]? = some task) (own : (s.onThread i Thread.pop).canOwn t) :
    s.Makes i (s.join i t task bound) := by
  unfold System.join
  split
  · exact .reply hi hf _
  · next ho =>
    have ho := not_not.mp ho
    split
    · next hs => exact .takeOutcome hi hf ht own ho hs
    · next hs =>
      split
      · exact .reply hi hf _
      · exact .enter hi hf (.outcome ht own ho hs)

theorem Makes.resumeJoin {bound : Bound} (hi : s.Inside i (f :: rest)) (hf : f.isBare)
    (ht : s.tasks[t]? = some task) (own : (s.onThread i Thread.pop).canOwn t)
    (ho : task.slot.ownership = .pool) : s.Makes i (s.resumeJoin i t task bound) := by
  unfold System.resumeJoin
  split
  · next hs => exact .takeOutcome hi hf ht own ho hs
  · next hs => exact .enter hi hf (.outcome ht own ho hs)

theorem Makes.expireJoin {nanos : Nat} (hi : s.Inside i (f :: rest)) (hf : f.isBare)
    (ht : s.tasks[t]? = some task) (own : (s.onThread i Thread.pop).canOwn t)
    (ho : task.slot.ownership = .pool) : s.Makes i (s.expireJoin i t task nanos) := by
  unfold System.expireJoin
  split
  · next hs => exact .takeOutcome hi hf ht own ho hs
  · exact .reply hi hf _

/-! ### Giving tasks away -/

theorem Makes.letGo {slot : Slot} {todo : List Disposal} (hi : s.Inside i (f :: rest))
    (hf : f.isBare) (ht : s.tasks[t]? = some task) (own : s.canOwn t)
    (surrender : task.slot.Surrender t slot todo) :
    s.Makes i (s.letGo i t { task with slot } todo) :=
  (Move.letGo hi hf ht own surrender).makes

theorem Makes.detach (hi : s.Inside i (f :: rest)) (hf : f.isBare)
    (ht : s.tasks[t]? = some task) (own : s.canOwn t) : s.Makes i (s.detach i t task) := by
  unfold System.detach
  split
  · next ho =>
    split
    · next hs => exact .letGo hi hf ht own (.finished ho hs)
    · next hs => exact .letGo hi hf ht own (.outstanding ho hs)
  · exact .reply hi hf _
  · exact .reply hi hf _

theorem Makes.destroy (hi : s.Inside i (f :: rest)) (hf : f.isBare)
    (ht : s.tasks[t]? = some task) (own : s.canOwn t) : s.Makes i (s.destroy i t task) := by
  unfold System.destroy
  split
  · exact .reply hi hf _
  · exact .letGo hi hf ht own (.plain _)

theorem Makes.discard {d : Disposal} {todo : List Disposal} {failure : Option Payload}
    {releasing : Bool} (hi : s.Inside i (.disposing (d :: todo) failure releasing :: rest))
    (idle : s.IsIdle d) : s.Makes i (s.enter i (.disposing todo failure releasing), []) :=
  (Move.discard hi idle).makes

theorem Makes.dispose {th : Thread} {todo : List Disposal} {failure : Option Payload}
    {releasing : Bool} (calls : s.Calls)
    (hi : s.Inside i (.disposing todo failure releasing :: rest)) :
    s.Makes i (s.dispose i th todo failure releasing) := by
  cases todo with
  | nil =>
    have leave : Move i s [] (s.onThread i Thread.pop) := .leave hi rfl (.inl rfl)
    simp only [System.dispose]
    split
    · split
      · exact leave.makes.emit (.note rfl)
      · exact leave.makes
    · split
      · exact .reply hi rfl _
      · exact .reply hi rfl _
  | cons d todo =>
    cases d with
    | outcome t o =>
      simp only [System.dispose]
      split
      · next h => exact (Move.destroy hi (by simp [Disposal.remains?, h])).makes
      · next h => exact .discard hi (by simpa [IsIdle] using h)
    | work t => exact (Move.destroy hi rfl).makes
    | record r =>
      have h : s.Makes i (s.enter i (.disposing todo failure releasing), []) :=
        .discard hi trivial
      obtain ⟨u, rfl⟩ := (calls.given hi).1
      simp only [System.dispose]
      split
      · exact h.emit (.note rfl)
      · exact h
    | handle t =>
      simp only [System.dispose]
      split
      · next ht => exact .discard hi ht
      · next task ht =>
        split
        · next ho =>
          obtain ⟨o, h⟩ := (calls.given hi).1
          rw [standing_eq ht] at h
          exact (Move.abandon hi ht ho (congrArg Prod.fst (Option.some.inj h))).makes
        · next ho => exact (Move.release hi ht (by simpa using ho)).makes
    | reference t =>
      simp only [System.dispose]
      split
      · next ht => exact .discard hi ht
      · next task ht =>
        split
        · next h => exact (Move.clear hi ht h).makes
        · next h => exact (Move.unref hi h).makes

/-! ### Waiting for a pool and shutting it down -/

theorem Makes.endShutdown (failure : Option PoolError) (dropping : Bool)
    (hi : s.Inside i (f :: rest)) (hf : f.isBare) :
    s.Makes i (s.endShutdown i p pool failure dropping) := by
  unfold System.endShutdown
  split
  · exact .reply hi hf _
  · exact .reply hi hf _
  · exact (Makes.reply hi hf _).emit (.note rfl)

theorem getElem?_setPool (hp : s.pools[p]? = some pool) (pool' : Pool) :
    (s.setPool p pool').pools[p]? = some pool' := by
  have hlt : p < s.pools.length := (List.getElem?_eq_some_iff.mp hp).1
  simp [setPool, hlt]

theorem Makes.stopNext (next total : Nat) (dropping : Bool) (hi : s.Inside i (f :: rest))
    (hf : f.isBare) (hp : s.pools[p]? = some pool) (hc : pool.closed) :
    s.Makes i (s.stopNext i p pool next total dropping) := by
  unfold System.stopNext
  split
  · have hi' : (s.setPool p (pool.requestExit next)).Inside i (f :: rest) := hi
    obtain ⟨f', rest', hi', hf'⟩ := hi'.wakeAll hf (.workAvailable p)
    have due : (((s.setPool p (pool.requestExit next)).wakeAll (.workAvailable p)).onThread i
        Thread.pop).Due i (.joiningCrew p next total dropping) := ⟨_, getElem?_setPool hp _, hc⟩
    exact (Makes.enter hi' hf' due).after (.stop next hp hc)
  · have hi' : (s.setPool p pool.dismiss).Inside i (f :: rest) := hi
    exact (Makes.endShutdown none dropping hi' hf).emit (.dismiss total hp hc)

theorem stopNext_setPool (pool' : Pool) (next total : Nat) (dropping : Bool) :
    (s.setPool p pool').stopNext i p pool next total dropping =
      s.stopNext i p pool next total dropping := by
  have h : ∀ new, (s.setPool p pool').setPool p new = s.setPool p new := fun new => by
    simp [setPool]
  simp only [System.stopNext, System.finishTeardown, h]

theorem Makes.decideShutdown (dropping : Bool) (hi : s.Inside i (f :: rest)) (hf : f.isBare)
    (hp : s.pools[p]? = some pool) : s.Makes i (s.decideShutdown i p pool dropping) := by
  unfold System.decideShutdown
  split
  · next hq =>
    have hi' : (s.setPool p pool.close).Inside i (f :: rest) := hi
    rw [← stopNext_setPool pool.close]
    exact (Makes.stopNext _ _ _ hi' hf (getElem?_setPool hp _) rfl).after (.close hp hq)
  · exact .endShutdown _ _ hi hf

theorem Makes.resumeShutdown (dropping : Bool) (hi : s.Inside i (f :: rest)) (hf : f.isBare)
    (hp : s.pools[p]? = some pool) : s.Makes i (s.resumeShutdown i p pool dropping) := by
  unfold System.resumeShutdown
  split
  · next h =>
    simp only [Bool.and_eq_true, Bool.not_eq_true'] at h
    exact .enter hi hf ⟨rfl, pool, hp, h⟩
  · exact .decideShutdown dropping hi hf hp

theorem Makes.shutdown (dropping : Bool) (hi : s.Inside i (f :: rest)) (hf : f.isBare)
    (hp : s.pools[p]? = some pool) : s.Makes i (s.shutdown i p pool dropping) := by
  unfold System.shutdown
  split
  · exact .endShutdown _ _ hi hf
  · exact .resumeShutdown dropping hi hf hp

theorem Makes.waitIdle (dropping : Bool) (hi : s.Inside i (f :: rest)) (hf : f.isBare)
    (hp : s.pools[p]? = some pool) : s.Makes i (s.waitIdle i p pool dropping) := by
  unfold System.waitIdle
  split
  · split
    · exact .enter hi hf trivial
    · exact .reply hi hf _
  · next h => exact .enter hi hf ⟨rfl, pool, hp, by simpa using h⟩

theorem Makes.dropPool (hi : s.Inside i (f :: rest)) (hf : f.isBare)
    (hp : s.pools[p]? = some pool) (hd : s.canDrop p) : s.Makes i (s.dropPool i p pool) := by
  have hi' : (s.setPool p { pool with handle := false }).Inside i (f :: rest) := hi
  have m : Move i s [] (s.setPool p { pool with handle := false }) := .dropPool hp hd
  simp only [System.dropPool]
  split
  · exact (Makes.reply hi' hf _).after m
  · exact (Makes.waitIdle true hi' hf (getElem?_setPool hp _)).after m

theorem Makes.joinCrew {next total : Nat} {dropping : Bool} (hi : s.Inside i (f :: rest))
    (hf : f.isBare) (hp : s.pools[p]? = some pool) (hc : pool.closed)
    (h : s.joinCrew? i p pool next total dropping = some e) : s.Makes i e := by
  have stop := Makes.stopNext (next + 1) total dropping hi hf hp hc
  unfold System.joinCrew? at h
  split at h
  · cases h
  · split at h
    · cases h
      exact stop.emit (.note rfl)
    · split at h
      · cases h
        exact stop
      · cases h

/-! ### Workers -/

theorem Working.inside {phase : Phase} (h : s.Working i p k phase) : s.Inside i [] := by
  obtain ⟨th, hth, -, hc⟩ := h
  exact ⟨th, hth, hc⟩

theorem Working.onThread {g : Thread → Thread} {phase phase' : Phase}
    (h : s.Working i p k phase) (hg : Thread.Rephases phase' g) :
    (s.onThread i g).Working i p k phase' := by
  obtain ⟨th, hth, hr, hc⟩ := h
  exact ⟨g th, by simp [getElem?_onThread, hth], (hg th).1.trans (Thread.role_setPhase hr),
    (hg th).2.trans hc⟩

theorem Working.stay {g : Thread → Thread} {phase : Phase} (h : s.Working i p k phase)
    (hg : ∀ th, (g th).role = th.role ∧ (g th).calls = th.calls) :
    (s.onThread i g).Working i p k phase := by
  obtain ⟨th, hth, hr, hc⟩ := h
  exact ⟨g th, by simp [getElem?_onThread, hth], (hg th).1.trans hr, (hg th).2.trans hc⟩

theorem Working.wakeAll {phase : Phase} (h : s.Working i p k phase) (c : Condition) :
    (s.wakeAll c).Working i p k (phase.wake c p) := by
  obtain ⟨th, hth, hr, hc⟩ := h
  exact ⟨th.wake c, by simp [getElem?_wakeAll, hth], by simp [hr, Role.wake], by simp [hc]⟩

theorem Working.settled {phase : Phase} (h : s.Working i p k phase) (pool : Pool) :
    (s.settled i p pool).Working i p k (.parked true) := by
  have h' : ((s.setPool p pool).onThread i (·.setPhase (.parked true))).Working i p k
      (.parked true) := by
    have h : (s.setPool p pool).Working i p k phase := h
    exact h.onThread Thread.rephases_setPhase
  unfold System.settled
  split
  · simpa [Phase.wake] using h'.wakeAll (.quiescent p)
  · exact h'

theorem getElem?_settled (hp : s.pools[p]? = some pool) (pool' : Pool) :
    (s.settled i p pool').pools[p]? = some pool' := by
  unfold System.settled
  split <;> exact getElem?_setPool hp pool'

theorem Makes.proceed (hw : s.Working i p k (.parked true)) (hp : s.pools[p]? = some pool) :
    s.Makes i (s.proceed i p pool k) := by
  unfold System.proceed
  split
  · next hx => exact (Move.exit hw hp hx (Thread.rephases_leave _)).makes
  · next hx =>
    have hx : pool.exitRequested k = false := by simpa using hx
    split
    · next hc => exact (Move.park hw hp hx hc).makes
    · next hc => exact (Move.claim hw hp hx hc).makes

theorem Makes.settle {phase : Phase} {pool' : Pool} (hw : s.Working i p k phase)
    (hp : s.pools[p]? = some pool) : (s.settled i p pool').Makes i (s.settle i p pool' k) :=
  .proceed (hw.settled pool') (getElem?_settled hp pool')

theorem Makes.register (hw : s.Working i p k .starting) (hp : s.pools[p]? = some pool) :
    s.Makes i (s.register i p pool k) := by
  let g (th : Thread) : Thread := { th with spans := th.spans.enter (some .worker) }
  have hw' : (s.onThread i g).Working i p k .starting := hw.stay fun _ => ⟨rfl, rfl⟩
  exact (Makes.settle (hw'.wakeAll (.workerRegistered p)) hp).emit
    (.register hw hp fun _ => ⟨rfl, rfl⟩)

theorem Makes.begin (hw : s.Working i p k (.holding t)) (ht : s.tasks[t]? = some task) :
    s.Makes i (s.begin i t task) := by
  unfold System.begin
  have g : Thread.Rephases (.running t) fun th =>
      { ({ th with spans := th.spans.enter (some .execution) } : Thread).setPhase (.running t) with
        spans := (th.spans.enter (some .execution)).enter task.captured } :=
    fun th => Thread.rephases_enter (fun th => th.spans.enter (some .execution)) th
  split
  · next h => exact (Move.begin hw ht h g).makes
  · next h => exact (Move.beginEmpty hw ht (by simpa using h) (Thread.rephases_enter _)).makes

theorem Makes.work {phase : Phase} (hw : s.Working i p k phase)
    (h : s.work? i p k phase = some e) : s.Makes i e := by
  unfold System.work? at h
  cases hp : s.pools[p]? with
  | none => simp [hp] at h
  | some pool =>
    simp only [hp, Option.bind_eq_bind, Option.bind_some] at h
    cases phase with
    | starting =>
      cases h
      exact .register hw hp
    | parked woken =>
      cases woken with
      | false => cases h
      | true =>
        cases h
        exact .proceed hw hp
    | holding t =>
      obtain ⟨task, ht, h⟩ := Option.bind_eq_some_iff.mp h
      cases h
      exact .begin hw ht
    | running t => cases h
    | stashing t work o =>
      obtain ⟨task, ht, h⟩ := Option.bind_eq_some_iff.mp h
      cases h
      exact (Move.stash hw ht).makes
    | stashed t returned =>
      cases h
      exact (Move.count hw hp (Thread.rephases_leave _)).makes
    | counted t =>
      obtain ⟨task, ht, h⟩ := Option.bind_eq_some_iff.mp h
      cases h
      exact (Move.retire hw hp ht).makes
    | releasing =>
      cases h
      exact (Makes.settle hw hp).after (.released hw hp)
    | exited => cases h

/-! ### Steps -/

/-- The state after a thread has begun a call. -/
def inCall (s : System) (i : ThreadId) : System := s.onThread i (·.push (.disposing [] none false))

theorem Inside.inCall {th : Thread} (hth : s.threads[i]? = some th) :
    (s.inCall i).Inside i (.disposing [] none false :: th.calls) :=
  ⟨th.push (.disposing [] none false), by simp [System.inCall, getElem?_onThread, hth], rfl⟩

/-- A call that is over has left no trace on its thread. -/
theorem pop_inCall : (s.inCall i).onThread i Thread.pop = s := by
  have h : Thread.pop ∘ (·.push (.disposing [] none false)) = id := rfl
  rw [inCall, onThread_onThread, h, onThread, List.modify_id]

theorem canShare_inCall {th : Thread} (hth : s.threads[i]? = some th) (h : s.canShare t) :
    (s.inCall i).canShare t :=
  canShare_of h rfl (by simp [inCall, weight_push hth, joining, Frame.joins])

theorem canOwn_inCall {th : Thread} (hth : s.threads[i]? = some th) (h : s.canOwn t) :
    (s.inCall i).canOwn t :=
  canOwn_of h rfl (by simp [inCall, weight_push hth, joining, Frame.joins])
    (by simp [inCall, weight_push hth, submitting, Frame.submits])

theorem canOwn_pop (hi : s.Inside i (f :: rest)) (h : s.canOwn t) :
    (s.onThread i Thread.pop).canOwn t :=
  canOwn_of h rfl (weight_pop_le _ hi) (weight_pop_le _ hi)

theorem canDrop_inCall (h : s.canDrop p) : (s.inCall i).canDrop p := by
  simp only [canDrop, Bool.and_eq_true, List.all_eq_true] at h ⊢
  refine ⟨h.1, fun th hth f hf => ?_⟩
  have each : s.EachFrame fun f => (!f.uses p) := fun th hth f hf => h.2 th hth f hf
  exact each.push (f := .disposing [] none false) rfl th hth f hf

theorem Makes.inCall {th : Thread} (hth : s.threads[i]? = some th) (hu : th.inUserCode)
    (h : (s.inCall i).Makes i e) : s.Makes i e :=
  h.after (.call hth hu)

theorem Makes.call {op : Operation} {pick : Pick} {th : Thread} (hth : s.threads[i]? = some th)
    (hu : th.inUserCode) (h : s.call? i op pick = some e) : s.Makes i e := by
  refine .inCall hth hu ?_
  have hi := Inside.inCall hth
  simp only [call?] at h
  cases op with
  | createPool c =>
    simp only at h
    split at h
    · cases h
      exact .reply hi rfl _
    · next pool hc =>
      cases h
      have hi' : ((s.inCall i).addPool pool).Inside i (.disposing [] none false :: th.calls) := hi
      exact (Makes.reply hi' rfl _).emit (.addPool hc)
  | createTask captured =>
    cases h
    have hi' : ((s.inCall i).addTask { captured }).Inside i
      (.disposing [] none false :: th.calls) := hi
    exact (Makes.reply hi' rfl _).after (.addTask _ captured)
  | submit p t =>
    obtain ⟨pool, hp, h⟩ := Option.bind_eq_some_iff.mp h
    obtain ⟨task, ht, h⟩ := Option.bind_eq_some_iff.mp h
    split at h
    · next access =>
      cases h
      have share := (Bool.and_eq_true _ _).mp access
      exact .submit pick hi rfl hp ht (canShare_inCall hth share.2)
    · cases h
  | join t bound =>
    obtain ⟨task, ht, h⟩ := Option.bind_eq_some_iff.mp h
    split at h
    · next own =>
      cases h
      exact .join hi rfl ht (canOwn_pop hi (canOwn_inCall hth own))
    · cases h
  | detach t =>
    obtain ⟨task, ht, h⟩ := Option.bind_eq_some_iff.mp h
    split at h
    · next own =>
      cases h
      exact .detach hi rfl ht (canOwn_inCall hth own)
    · cases h
  | destroy t =>
    obtain ⟨task, ht, h⟩ := Option.bind_eq_some_iff.mp h
    split at h
    · next own =>
      cases h
      exact .destroy hi rfl ht (canOwn_inCall hth own)
    · cases h
  | drop t =>
    obtain ⟨task, ht, h⟩ := Option.bind_eq_some_iff.mp h
    split at h
    · next own =>
      cases h
      exact .letGo hi rfl ht (canOwn_inCall hth own) (.plain _)
    · cases h
  | waitIdle p =>
    obtain ⟨pool, hp, h⟩ := Option.bind_eq_some_iff.mp h
    split at h
    · cases h
      exact .waitIdle false hi rfl hp
    · cases h
  | shutdown p =>
    obtain ⟨pool, hp, h⟩ := Option.bind_eq_some_iff.mp h
    split at h
    · cases h
      exact .shutdown false hi rfl hp
    · cases h
  | dropPool p =>
    obtain ⟨pool, hp, h⟩ := Option.bind_eq_some_iff.mp h
    split at h
    · next hd =>
      cases h
      exact .dropPool hi rfl hp (canDrop_inCall hd)
    · cases h

theorem Makes.finish {th : Thread} {ending : Except Payload Value}
    (hth : s.threads[i]? = some th) (h : s.finish? i th ending = some e) : s.Makes i e := by
  unfold finish? at h
  split at h
  · next hc =>
    cases h
    exact (Move.resume ⟨th, hth, hc⟩).makes
  · next t hc hr =>
    obtain ⟨task, ht, h⟩ := Option.bind_eq_some_iff.mp h
    cases h
    exact (Move.endWork ⟨th, hth, hr, hc⟩ ht rfl (Thread.rephases_leave _)).makes
  · cases h

/-- A submission that waits may go on when it likes. -/
theorem Calls.share {woken : Bool} (calls : s.Calls)
    (hi : s.Inside i (.awaitingWorker p t woken :: rest)) : s.canShare t := by
  refine canShare_iff.mpr ⟨calls.relies.inside hi, ?_⟩
  have hb := le_weight (g := submitting t) hi
  have := calls.join_alone t
  simp only [submitting, Frame.submits, beq_self_eq_true, if_true] at hb
  omega

/-- A join that waits is the only call on its task. -/
theorem Calls.own {bound : Bound} {woken : Bool} (calls : s.Calls)
    (hi : s.Inside i (.awaitingOutcome t bound woken :: rest)) :
    (s.onThread i Thread.pop).canOwn t := by
  have hj := weight_pop (g := joining t) hi
  have hb := weight_pop_le (submitting t) hi
  have one := calls.one_join t
  have alone := calls.join_alone t
  have self : joining t (.awaitingOutcome t bound woken) = 1 := by simp [joining, Frame.joins]
  rw [self] at hj
  refine canOwn_iff.mpr ⟨canShare_iff.mpr ⟨⟨_, calls.relies.inside hi⟩, ?_⟩, ?_⟩
  · omega
  · omega

theorem Calls.owned {bound : Bound} {woken : Bool} (calls : s.Calls)
    (hi : s.Inside i (.awaitingOutcome t bound woken :: rest)) (ht : s.tasks[t]? = some task) :
    task.slot.ownership = .pool := by
  have h : s.standing t = some (true, .pool) := calls.relies.inside hi
  rw [standing_eq ht] at h
  exact congrArg Prod.snd (Option.some.inj h)

theorem Makes.advance {th : Thread} {pick : Pick} (calls : s.Calls)
    (hth : s.threads[i]? = some th) (h : s.advance? i th pick = some e) : s.Makes i e := by
  unfold advance? at h
  split at h
  · next hc =>
    split at h
    · cases h
    · next hr => exact .work ⟨th, hth, hr, hc⟩ h
  · next hc =>
    have hi : s.Inside i _ := ⟨th, hth, hc⟩
    obtain ⟨pool, hp, h⟩ := Option.bind_eq_some_iff.mp h
    obtain ⟨task, ht, h⟩ := Option.bind_eq_some_iff.mp h
    cases h
    exact .resumeSubmit pick hi rfl hp ht (calls.share hi)
  · next hc =>
    have hi : s.Inside i _ := ⟨th, hth, hc⟩
    obtain ⟨task, ht, h⟩ := Option.bind_eq_some_iff.mp h
    cases h
    exact .resumeJoin hi rfl ht (calls.own hi) (calls.owned hi ht)
  · next dropping _ hc =>
    obtain ⟨pool, hp, h⟩ := Option.bind_eq_some_iff.mp h
    cases h
    exact .waitIdle dropping ⟨th, hth, hc⟩ rfl hp
  · next dropping _ hc =>
    obtain ⟨pool, hp, h⟩ := Option.bind_eq_some_iff.mp h
    cases h
    exact .shutdown dropping ⟨th, hth, hc⟩ rfl hp
  · next dropping _ hc =>
    obtain ⟨pool, hp, h⟩ := Option.bind_eq_some_iff.mp h
    cases h
    exact .resumeShutdown dropping ⟨th, hth, hc⟩ rfl hp
  · next p _ _ _ _ hc =>
    have hi : s.Inside i _ := ⟨th, hth, hc⟩
    obtain ⟨pool, hp, h⟩ := Option.bind_eq_some_iff.mp h
    have closed : s.isClosed p := calls.relies.inside hi
    exact .joinCrew hi rfl hp (by simpa [isClosed, hp] using closed) h
  · next hc =>
    cases h
    exact .dispose calls ⟨th, hth, hc⟩
  all_goals cases h

theorem Makes.expire {th : Thread} (calls : s.Calls) (hth : s.threads[i]? = some th)
    (h : s.expire? i th = some e) : s.Makes i e := by
  unfold expire? at h
  split at h
  · next hc =>
    have hi : s.Inside i _ := ⟨th, hth, hc⟩
    obtain ⟨task, ht, h⟩ := Option.bind_eq_some_iff.mp h
    cases h
    exact .expireJoin hi rfl ht (calls.own hi) (calls.owned hi ht)
  · cases h

/-- A step is made of moves. -/
theorem moves_of_step {a : Action} (calls : s.Calls) (h : s.step i a = some (s', es)) :
    Moves i s es s' := by
  obtain ⟨th, hth, h⟩ := Option.bind_eq_some_iff.mp h
  suffices s.Makes i (s', es) from this
  cases a with
  | call op pick =>
    simp only at h
    split at h
    · next hu => exact .call hth hu h
    · cases h
  | finish ending => exact .finish hth h
  | advance pick => exact .advance calls hth h
  | expire => exact .expire calls hth h

/-! ### Calls that begin and go on -/

theorem step_createTask {captured : Option Span} {pick : Pick}
    (hs : s.step i (.call (.createTask captured) pick) = some e) :
    e = (s.addTask { captured }, [.replied (.task s.tasks.length)]) := by
  obtain ⟨th, hth, hs⟩ := Option.bind_eq_some_iff.mp hs
  obtain ⟨-, hs⟩ := Option.ite_none_right_eq_some.mp hs
  have same : ((s.inCall i).addTask { captured }).onThread i Thread.pop =
      s.addTask { captured } :=
    congrArg (System.addTask · { captured }) (pop_inCall (s := s) (i := i))
  have hs : ((s.inCall i).addTask { captured }).reply i (.task s.tasks.length) = e :=
    Option.some.inj hs
  rw [← hs, System.reply, same]

theorem step_createPool {config : Config} {pick : Pick} (valid : config.validate = .ok ())
    (hs : s.step i (.call (.createPool config) pick) = some e) :
    e = (s.addPool (Pool.new config),
      [.log (.created config), .replied (.pool s.pools.length)]) := by
  obtain ⟨th, hth, hs⟩ := Option.bind_eq_some_iff.mp hs
  obtain ⟨-, hs⟩ := Option.ite_none_right_eq_some.mp hs
  have same : ((s.inCall i).addPool (Pool.new config)).onThread i Thread.pop =
      s.addPool (Pool.new config) :=
    congrArg (System.addPool · (Pool.new config)) (pop_inCall (s := s) (i := i))
  have hs : emit [.log (.created config)]
      (((s.inCall i).addPool (Pool.new config)).reply i (.pool s.pools.length)) = e := by
    simpa [call?, Pool.create, valid, inCall] using hs
  rw [← hs, System.reply, same]
  rfl

theorem step_submit {pick : Pick} (hs : s.step i (.call (.submit p t) pick) = some e) :
    ∃ th pool task, s.threads[i]? = some th ∧ s.pools[p]? = some pool ∧
      s.tasks[t]? = some task ∧ s.canShare t ∧ (s.inCall i).submit i p pool t task pick = e := by
  obtain ⟨th, hth, hs⟩ := Option.bind_eq_some_iff.mp hs
  simp only [call?, Option.bind_eq_bind, Option.ite_none_right_eq_some, Option.bind_eq_some_iff,
    Option.some.injEq, Bool.and_eq_true] at hs
  obtain ⟨-, pool, hp, task, ht, ⟨-, share⟩, he⟩ := hs
  exact ⟨th, pool, task, hth, hp, ht, share, he⟩

theorem step_shutdown {pick : Pick} (hs : s.step i (.call (.shutdown p) pick) = some e) :
    ∃ th pool, s.threads[i]? = some th ∧ th.inUserCode ∧ s.pools[p]? = some pool ∧
      (s.inCall i).shutdown i p pool false = e := by
  obtain ⟨th, hth, hs⟩ := Option.bind_eq_some_iff.mp hs
  simp only [call?, Option.bind_eq_bind, Option.ite_none_right_eq_some, Option.bind_eq_some_iff,
    Option.some.injEq] at hs
  obtain ⟨hu, pool, hp, -, he⟩ := hs
  exact ⟨th, pool, hth, hu, hp, he⟩

theorem Inside.resumesSubmit {woken : Bool} {a : Action}
    (hi : s.Inside i (.awaitingWorker p t woken :: rest)) (hs : s.step i a = some e) :
    ∃ pool task pick, s.pools[p]? = some pool ∧ s.tasks[t]? = some task ∧
      s.resumeSubmit i p pool t task pick = e := by
  obtain ⟨th, hth, hc⟩ := hi
  cases a with
  | call op pick => simp [step, hth, Thread.inUserCode, hc] at hs
  | finish ending => simp [step, hth, finish?, hc] at hs
  | expire => simp [step, hth, expire?, hc] at hs
  | advance pick =>
    cases woken with
    | false => simp [step, hth, advance?, hc] at hs
    | true =>
      obtain ⟨pool, hp, task, ht, he⟩ : ∃ pool, s.pools[p]? = some pool ∧
          ∃ task, s.tasks[t]? = some task ∧ s.resumeSubmit i p pool t task pick = e := by
        simpa [step, hth, advance?, hc, Option.bind_eq_some_iff] using hs
      exact ⟨pool, task, pick, hp, ht, he⟩

/-- A thread inside a join looks for the outcome again, or the bound of the join has passed. -/
theorem Inside.resumesJoin {bound : Bound} {woken : Bool} {a : Action}
    (hi : s.Inside i (.awaitingOutcome t bound woken :: rest)) (hs : s.step i a = some e) :
    ∃ task, s.tasks[t]? = some task ∧ (s.resumeJoin i t task bound = e ∨
      ∃ nanos, bound = some nanos ∧ s.expireJoin i t task nanos = e) := by
  obtain ⟨th, hth, hc⟩ := hi
  cases a with
  | call op pick => simp [step, hth, Thread.inUserCode, hc] at hs
  | finish ending => simp [step, hth, finish?, hc] at hs
  | advance pick =>
    cases woken with
    | false => simp [step, hth, advance?, hc] at hs
    | true =>
      obtain ⟨task, ht, he⟩ : ∃ task, s.tasks[t]? = some task ∧
          s.resumeJoin i t task bound = e := by
        simpa [step, hth, advance?, hc, Option.bind_eq_some_iff] using hs
      exact ⟨task, ht, .inl he⟩
  | expire =>
    cases bound with
    | none => simp [step, hth, expire?, hc] at hs
    | some nanos =>
      cases woken with
      | true => simp [step, hth, expire?, hc] at hs
      | false =>
        obtain ⟨task, ht, he⟩ :
            ∃ task, s.tasks[t]? = some task ∧ s.expireJoin i t task nanos = e := by
          simpa [step, hth, expire?, hc, Option.bind_eq_some_iff] using hs
        exact ⟨task, ht, .inr ⟨nanos, rfl, he⟩⟩

theorem Inside.resumesWait {dropping woken : Bool} {a : Action}
    (hi : s.Inside i (.awaitingIdle p dropping woken :: rest)) (hs : s.step i a = some e) :
    ∃ pool, s.pools[p]? = some pool ∧ s.waitIdle i p pool dropping = e := by
  obtain ⟨th, hth, hc⟩ := hi
  cases a with
  | call op pick => simp [step, hth, Thread.inUserCode, hc] at hs
  | finish ending => simp [step, hth, finish?, hc] at hs
  | expire => simp [step, hth, expire?, hc] at hs
  | advance pick =>
    cases woken with
    | false => simp [step, hth, advance?, hc] at hs
    | true => simpa [step, hth, advance?, hc, Option.bind_eq_some_iff] using hs

section disposing

variable {todo : List Disposal} {failure : Option Payload} {releasing : Bool} {a : Action}

/-- A thread that has things to let go of does nothing else. -/
theorem Inside.step_eq (hi : s.Inside i (.disposing todo failure releasing :: rest)) : ∃ th,
    s.step i a = match a with
      | .advance _ => some (s.dispose i th todo failure releasing)
      | _ => none := by
  obtain ⟨th, hth, hc⟩ := hi
  refine ⟨th, ?_⟩
  cases a with
  | call op pick => simp [step, hth, Thread.inUserCode, hc]
  | finish ending => simp [step, hth, finish?, hc]
  | advance pick => simp [step, hth, advance?, hc]
  | expire => simp [step, hth, expire?, hc]

theorem Inside.advance (hi : s.Inside i (.disposing todo failure releasing :: rest)) (pick : Pick) :
    ∃ th, s.step i (.advance pick) = some (s.dispose i th todo failure releasing) :=
  hi.step_eq

theorem Inside.advances (hi : s.Inside i (.disposing todo failure releasing :: rest))
    (hs : s.step i a = some e) : ∃ pick, a = .advance pick := by
  obtain ⟨th, he⟩ := hi.step_eq (a := a)
  cases a with
  | advance pick => exact ⟨pick, rfl⟩
  | _ => cases he.symm.trans hs

theorem Inside.disposes (hi : s.Inside i (.disposing todo failure releasing :: rest))
    (hs : s.step i a = some e) : ∃ th, s.dispose i th todo failure releasing = e := by
  obtain ⟨pick, rfl⟩ := hi.advances hs
  obtain ⟨th, he⟩ := hi.advance pick
  exact ⟨th, Option.some.inj (he.symm.trans hs)⟩

end disposing

/-- A destructor that calls nothing ends, and the thread goes on with what is left to let go of. -/
theorem Inside.destroys {todo : List Disposal} {failure : Option Payload} {releasing : Bool}
    {a : Action} (hi : s.Inside i (.destructor :: .disposing todo failure releasing :: rest))
    (hcall : ∀ op pick, a ≠ .call op pick) (hs : s.step i a = some e) : ∃ failure',
      ((s.onThread i Thread.pop).enter i (.disposing todo failure' releasing), []) = e := by
  obtain ⟨th, hth, hc⟩ := hi
  cases a with
  | call op pick => exact absurd rfl (hcall op pick)
  | expire => simp [step, hth, expire?, hc] at hs
  | advance pick => simp [step, hth, advance?, hc] at hs
  | finish ending =>
    have hs : s.finish? i th ending = some e := by simpa [step, hth] using hs
    rw [finish?, hc] at hs
    exact ⟨_, Option.some.inj hs⟩

/-! ### Runs -/

theorem Moves.calls (ms : Moves i s es s') (calls : s.Calls) : s'.Calls := by
  induction ms with
  | nil => exact calls
  | cons m _ ih => exact ih (calls.move m)

theorem Run.calls {callers : Nat} {h : Trace} (run : Run callers h s) : s.Calls := by
  induction run with
  | start => exact calls_start callers
  | step _ hs ih => exact (moves_of_step ih hs).calls ih

/-- What holds at the start and is kept by every move holds in every run. -/
theorem Run.keeps {callers : Nat} {h : Trace} {P : Trace → System → Prop}
    (run : Run callers h s) (base : P [] (System.start callers))
    (keep : ∀ {i h s es s'}, s.Calls → P h s → Move i s es s' → P (h ++ es.map (i, ·)) s') :
    P h s := by
  induction run with
  | start => exact base
  | @step h s s' i a es run hs ih =>
    have ms := moves_of_step run.calls hs
    have calls := run.calls
    clear hs run
    induction ms generalizing h with
    | nil => simpa using ih
    | cons m _ ihm =>
      have := ihm (keep calls ih m) (calls.move m)
      simpa using this

end WorkerPool.System
