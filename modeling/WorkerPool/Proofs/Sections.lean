import WorkerPool.Proofs.References

/-!
What the steps leave alone that do not let go of anything.

Only a thread that lets go of things takes references away or begins a destructor. Every other step
leaves a task with at least the references it had, and opens no frame but one of the call that it
belongs to. The lemmas follow the functions that `System.step` is put together from.
-/
namespace WorkerPool

/-- The error says that a worker thread has panicked. -/
def PoolError.isJoinFailure : PoolError → Bool
  | joinFailed .. => true
  | _ => false

def Reply.isMild : Reply → Bool
  | failed e | rejected e => !e.isJoinFailure
  | _ => true

/-- The event is no end of user code and no destructor, and tells of no worker thread that has
panicked. -/
def Event.isMild : Event → Bool
  | ended .. | destroying _ => false
  | replied r => r.isMild
  | log (.closeFailed _ _ e) => !e.isJoinFailure
  | _ => true

/-- The frame waits for the pool or shuts it down, as part of dropping it or not. -/
def Frame.waitsFor (p : PoolId) (dropping : Bool) : Frame → Bool
  | awaitingIdle q d _ | closing q d | awaitingReleases q d _ | joiningCrew q _ _ d =>
      q == p && d == dropping
  | _ => false

/-- The frames are of the same call. -/
inductive Frame.Alike : Frame → Frame → Prop
  | submission {p : PoolId} {t : TaskId} (woken woken' : Bool) :
      Alike (awaitingWorker p t woken) (awaitingWorker p t woken')
  | join {t : TaskId} {bound : Bound} (woken woken' : Bool) :
      Alike (awaitingOutcome t bound woken) (awaitingOutcome t bound woken')
  | wait {p : PoolId} {dropping : Bool} {f f' : Frame} : f.waitsFor p dropping →
      f'.waitsFor p dropping → Alike f f'

/-- The frame goes on to shut the pool down, as the last part of dropping it. -/
def Frame.closes (p : PoolId) : Frame → Bool
  | closing q dropping | awaitingReleases q dropping _ | joiningCrew q _ _ dropping =>
      q == p && dropping
  | _ => false

/-- The property, which is one of the frames of a thread, does not depend on wake-ups, and letting
go of things has it. -/
structure Frame.Lasting (P : ThreadId → Frame → Prop) : Prop where
  wake : ∀ j c f, P j f → P j (f.wake c)
  disposing : ∀ j todo failure releasing, P j (disposing todo failure releasing)

/-- Who shuts a pool down as a part of dropping it waits for that pool. -/
theorem Frame.of_closes {p q : PoolId} {dropping : Bool} {f : Frame} (hw : f.waitsFor p dropping)
    (hc : f.closes q) : p = q ∧ dropping = true := by
  cases f <;> simp_all [waitsFor, closes]

/-- Whether the task is in the hands of the thread. -/
def Role.holds (t : TaskId) (r : Role) : Nat := if r.task? = some t then 1 else 0

theorem Thread.holds_eq (t : TaskId) (th : Thread) :
    th.holds t = th.role.holds t + th.weigh (Frame.holds t) := by
  rw [holds, foldr_weigh]
  rfl

theorem Frame.holds_of_isBare {f : Frame} (t : TaskId) (h : f.isBare) : f.holds t = 0 := by
  cases f with
  | disposing todo failure releasing =>
    cases todo with
    | nil => rfl
    | cons d todo => simp [isBare] at h
  | _ => rfl

theorem Pool.mild_refusal {pool : Pool} {e : PoolError} (h : pool.refusal = some e) :
    (Reply.failed e).isMild := by
  unfold refusal at h
  split at h
  · cases h
    rfl
  · split at h <;> cases h
    rfl

theorem Config.mild_validate {c : Config} {e : PoolError} (h : c.validate = .error e) :
    (Reply.failed e).isMild := by
  unfold validate at h
  repeat' split at h
  all_goals cases h
  all_goals rfl

theorem Pool.mild_create {c : Config} {e : PoolError} (h : Pool.create c = .error e) :
    (Reply.failed e).isMild := by
  unfold create at h
  split at h
  · next hv =>
    cases h
    exact Config.mild_validate hv
  · cases h

namespace System

variable {s s' s'' : System} {i j : ThreadId} {p : PoolId} {t u : TaskId} {f : Frame}
  {rest : List Frame} {pool new : Pool} {task : Task} {e : Effect} {es : List Event} {k : Nat}
  {pick : Pick}
  {P : ThreadId → Frame → Prop} {th : Thread} {g : Thread → Thread} {phase phase' : Phase}

/-! ### Frames and their threads -/

/-- Every frame of a thread has the property. -/
def Frames (s : System) (P : ThreadId → Frame → Prop) : Prop :=
  ∀ j th, s.threads[j]? = some th → ∀ f ∈ th.calls, P j f

namespace Frames

theorem onThread (h : s.Frames P) (hg : ∀ th, s.threads[i]? = some th → (∀ f ∈ th.calls, P i f) →
    ∀ f ∈ (g th).calls, P i f) : (s.onThread i g).Frames P := by
  intro j th hth
  rw [getElem?_onThread] at hth
  split at hth
  · next hij =>
    subst hij
    obtain ⟨old, hold, rfl⟩ := Option.map_eq_some_iff.mp hth
    exact hg old hold (h i old hold)
  · exact h j th hth

theorem pop (h : s.Frames P) : (s.onThread i Thread.pop).Frames P :=
  h.onThread fun _ _ hth f hf => hth f (List.mem_of_mem_tail hf)

theorem push (h : s.Frames P) (hf : P i f) : (s.onThread i (·.push f)).Frames P :=
  h.onThread fun _ _ hth => List.forall_mem_cons.mpr ⟨hf, hth⟩

theorem enter (h : s.Frames P) (hf : P i f) : (s.enter i f).Frames P :=
  h.onThread fun _ _ hth =>
    List.forall_mem_cons.mpr ⟨hf, fun f' hf' => hth f' (List.mem_of_mem_tail hf')⟩

theorem inside (h : s.Frames P) (hi : s.Inside i (f :: rest)) : P i f := by
  obtain ⟨th, hth, hc⟩ := hi
  exact h i th hth f (by simp [hc])

theorem wake (h : s.Frames P) (lasting : ∀ j c f, P j f → P j (f.wake c)) (c : Condition)
    (hth : s.threads[j]? = some th) : ∀ f ∈ (th.wake c).calls, P j f := by
  intro f hf
  obtain ⟨f', hf', rfl⟩ := List.mem_map.mp hf
  exact lasting j c f' (h j th hth f' hf')

theorem wakeAll (h : s.Frames P) (lasting : ∀ j c f, P j f → P j (f.wake c)) (c : Condition) :
    (s.wakeAll c).Frames P := by
  intro j th hth
  rw [getElem?_wakeAll] at hth
  obtain ⟨old, hold, rfl⟩ := Option.map_eq_some_iff.mp hth
  exact h.wake lasting c hold

theorem wakeOne (h : s.Frames P) (lasting : ∀ j c f, P j f → P j (f.wake c)) (pick : Pick) :
    (s.wakeOne p pick).Frames P := by
  obtain ⟨j, hj⟩ := wakeOne_eq s p pick
  rw [hj]
  exact h.onThread fun th hth _ => h.wake lasting _ hth

theorem spawn (h : s.Frames P) (hc : th.calls = []) : (s.spawn th).Frames P := by
  intro j th' hth
  rw [System.spawn, getElem?_snoc] at hth
  split at hth
  · cases hth
    simp [hc]
  · exact h j th' hth

end Frames

/-! ### References in other states -/

/-- Whether the handle of the task is there. -/
def handles (s : System) (t : TaskId) : Nat := if s.tasks[t]?.any (·.handle) then 1 else 0

/-- Entries of the task in queues. -/
def entries (s : System) (t : TaskId) : Nat :=
  (s.pools.map fun pool => pool.queue.entries.count t).sum

theorem references_eq (s : System) (t : TaskId) :
    s.references t = s.handles t + s.entries t + s.tally (Thread.holds t) := by
  rw [references, foldr_weigh, foldr_weigh]
  rfl

theorem handles_setTask (ht : s.tasks[u]? = some task) (new : Task) :
    (s.setTask u new).handles t =
      if u = t then (if new.handle then 1 else 0) else s.handles t := by
  have hlt : u < s.tasks.length := (List.getElem?_eq_some_iff.mp ht).1
  by_cases hu : u = t
  · subst hu
    simp [handles, System.setTask, hlt]
  · simp [handles, System.setTask, hu]

theorem handles_eq (ht : s.tasks[t]? = some task) :
    s.handles t = if task.handle then 1 else 0 := by
  simp [handles, ht]

theorem entries_setPool (hp : s.pools[p]? = some pool) (new : Pool) :
    (s.setPool p new).entries t + pool.queue.entries.count t =
      s.entries t + new.queue.entries.count t := by
  have hset : s.pools.set p new = s.pools.modify p fun _ => new := by
    simp [List.modify_eq_set_getElem?, hp]
  rw [entries, System.setPool, hset]
  exact sum_map_modify (fun pool : Pool => pool.queue.entries.count t) (fun _ => new) hp

theorem wakeFree_holds : WakeFree (Thread.holds t) := by
  intro c th
  have role : (th.wake c).role.task? = th.role.task? := by
    rw [Thread.role_wake]
    cases th.role with
    | caller => rfl
    | worker p k phase => cases phase <;> rfl
  rw [Thread.holds_eq, Thread.holds_eq, Thread.wakeFree_weigh Frame.holds_wake, Role.holds, role]
  rfl

/-- The second state has the tasks of the first one, with at least as many references, and no other
frames than the first one but such with the property. -/
structure Retains (P : ThreadId → Frame → Prop) (s s' : System) : Prop where
  frames : s.Frames P → s'.Frames P
  tasks : s'.tasks.length = s.tasks.length
  references : ∀ t, s.references t ≤ s'.references t

namespace Retains

theorem trans (h : Retains P s s') (h' : Retains P s' s'') : Retains P s s'' :=
  ⟨h'.frames ∘ h.frames, h'.tasks.trans h.tasks, fun t =>
    (h.references t).trans (h'.references t)⟩

/-- One thread changes, and holds no less. -/
theorem onThread (hP : ∀ th, s.threads[i]? = some th → (∀ f ∈ th.calls, P i f) →
      ∀ f ∈ (g th).calls, P i f)
    (hg : ∀ th, s.threads[i]? = some th → ∀ t, th.holds t ≤ (g th).holds t) :
    Retains P s (s.onThread i g) := by
  refine ⟨fun h => h.onThread hP, rfl, fun t => ?_⟩
  rw [references_eq, references_eq]
  refine Nat.add_le_add_left ?_ _
  cases hth : s.threads[i]? with
  | none =>
    have hi : s.threads.length ≤ i := List.getElem?_eq_none_iff.mp hth
    simp [tally, System.onThread, List.modify_eq_self hi]
  | some th =>
    have := tally_onThread (w := Thread.holds t) g hth
    have := hg th hth t
    omega

theorem wakeAll (lasting : Frame.Lasting P) (c : Condition) : Retains P s (s.wakeAll c) := by
  refine ⟨fun h => h.wakeAll lasting.wake c, rfl, fun t => ?_⟩
  rw [references_eq, references_eq, tally_wakeAll wakeFree_holds]
  rfl

theorem wakeOne (lasting : Frame.Lasting P) (pick : Pick) : Retains P s (s.wakeOne p pick) := by
  refine ⟨fun h => h.wakeOne lasting.wake pick, by simp, fun t => ?_⟩
  have hhandle : (s.wakeOne p pick).handles t = s.handles t := by simp [handles]
  have hentries : (s.wakeOne p pick).entries t = s.entries t := by simp [entries]
  rw [references_eq, references_eq, tally_wakeOne wakeFree_holds, hhandle, hentries]

/-- One pool changes, and no entry of its queue goes. -/
theorem setPool (hp : s.pools[p]? = some pool)
    (hc : ∀ t, pool.queue.entries.count t ≤ new.queue.entries.count t) :
    Retains P s (s.setPool p new) := by
  refine ⟨id, rfl, fun t => ?_⟩
  have hsum := entries_setPool (t := t) hp new
  have hhandle : (s.setPool p new).handles t = s.handles t := rfl
  rw [references_eq, references_eq, tally_setPool, hhandle]
  have := hc t
  omega

theorem setTask (ht : s.tasks[t]? = some task) {new : Task} (hh : new.handle = task.handle) :
    Retains P s (s.setTask t new) := by
  refine ⟨id, by simp [System.setTask], fun u => ?_⟩
  have hhandle : (s.setTask t new).handles u = s.handles u := by
    rw [handles_setTask ht]
    split
    · next hu => rw [← hu, handles_eq ht, hh]
    · rfl
  have hentries : (s.setTask t new).entries u = s.entries u := rfl
  rw [references_eq, references_eq, hhandle, hentries, tally_setTask]

theorem setSlot (ht : s.tasks[t]? = some task) (slot : Slot) : Retains P s (s.setSlot t slot) := by
  rw [setSlot_eq ht]
  exact setTask ht rfl

end Retains

/-! ### Effects of steps -/

/-- The effect retains what there was, and lets mild events known. -/
structure Mild (P : ThreadId → Frame → Prop) (s : System) (e : Effect) : Prop where
  retains : Retains P s e.1
  events : ∀ ev ∈ e.2, ev.isMild

theorem Mild.emit (h : Mild P s e) (hes : ∀ ev ∈ es, ev.isMild) : Mild P s (emit es e) :=
  ⟨h.retains, fun ev hev => (List.mem_append.mp hev).elim (hes ev) (h.events ev)⟩

theorem Mild.after (h : Mild P s' e) (r : Retains P s s') : Mild P s e :=
  ⟨r.trans h.retains, h.events⟩

theorem Mild.silent (r : Retains P s s') : Mild P s (s', []) := ⟨r, nofun⟩

theorem retains_pop (hi : s.Inside i (f :: rest)) (hf : ∀ t, f.holds t = 0) :
    Retains P s (s.onThread i Thread.pop) := by
  obtain ⟨th, hth, hc⟩ := hi
  refine .onThread (fun _ _ h f hf => h f (List.mem_of_mem_tail hf)) fun th' hth' t => ?_
  obtain rfl : th = th' := Option.some.inj (hth.symm.trans hth')
  have hw := Thread.weigh_pop (Frame.holds t) hc
  have hz := hf t
  rw [Thread.holds_eq, Thread.holds_eq, Thread.role_pop]
  omega

theorem retains_enter {f' : Frame} (hi : s.Inside i (f :: rest))
    (hf : ∀ t, f.holds t ≤ f'.holds t) (hP : P i f') : Retains P s (s.enter i f') := by
  obtain ⟨th, hth, hc⟩ := hi
  refine .onThread (fun th' hth' h f'' hf'' => ?_) fun th' hth' t => ?_
  · rcases List.mem_cons.mp hf'' with rfl | hf''
    · exact hP
    · exact h f'' (List.mem_of_mem_tail hf'')
  · obtain rfl : th = th' := Option.some.inj (hth.symm.trans hth')
    have hw := Thread.weigh_pop (Frame.holds t) hc
    have hz := hf t
    rw [Thread.holds_eq, Thread.holds_eq, Thread.role_replace, Thread.replace, Thread.weigh_push]
    omega

theorem retains_push (hP : P i f) : Retains P s (s.onThread i (·.push f)) := by
  refine .onThread (fun th _ h f' hf' => ?_) fun th _ t => ?_
  · rcases List.mem_cons.mp hf' with rfl | hf'
    · exact hP
    · exact h f' hf'
  · rw [Thread.holds_eq, Thread.holds_eq, Thread.role_push, Thread.weigh_push]
    omega

/-- A worker goes on to another phase with the task it had in hands, if it had one. -/
theorem Working.retains (hw : s.Working i p k phase) (hg : Thread.Rephases phase' g)
    (ht : ∀ t, phase.task? = some t → phase'.task? = some t) : Retains P s (s.onThread i g) := by
  obtain ⟨th, hth, hr, -⟩ := hw
  refine .onThread (fun th _ h => by rwa [(hg th).2]) fun th' hth' t => ?_
  obtain rfl : th = th' := Option.some.inj (hth.symm.trans hth')
  have hcalls : (g th).weigh (Frame.holds t) = th.weigh (Frame.holds t) := by
    simp [Thread.weigh, (hg th).2]
  rw [Thread.holds_eq, Thread.holds_eq, hcalls, (hg th).1, Thread.role_setPhase hr, hr]
  refine Nat.add_le_add_right ?_ _
  by_cases h : phase.task? = some t
  · simp [Role.holds, Role.task?, h, ht t h]
  · simp [Role.holds, Role.task?, h]

theorem Mild.reply (hi : s.Inside i (f :: rest)) (hf : f.isBare) {r : Reply} (hr : r.isMild) :
    Mild P s (s.reply i r) :=
  ⟨retains_pop hi fun t => f.holds_of_isBare t hf, by simpa [System.reply, Event.isMild] using hr⟩

theorem Mild.enter {f' : Frame} (hi : s.Inside i (f :: rest)) (hf : f.isBare) (hP : P i f') :
    Mild P s (s.enter i f', []) :=
  .silent (retains_enter hi (fun t => by simp [f.holds_of_isBare t hf]) hP)

/-! ### Submissions -/

theorem Mild.accept (lasting : Frame.Lasting P) (pick : Pick) (hi : s.Inside i (f :: rest))
    (hf : f.isBare) (hp : s.pools[p]? = some pool) (ht : s.tasks[t]? = some task) :
    Mild P s (s.accept i p pool t task pick) := by
  unfold System.accept
  split
  · exact .reply hi hf rfl
  · have hp' : (s.setSlot t task.slot.claim).pools[p]? = some pool := hp
    have taken : Retains P s ((s.setSlot t task.slot.claim).setPool p (pool.accept t)) :=
      (Retains.setSlot ht _).trans (.setPool hp' fun u => by
        have := pool.queue.count_push t u
        simp only [Pool.accept]
        omega)
    have hi' : ((s.setSlot t task.slot.claim).setPool p (pool.accept t)).Inside i (f :: rest) := hi
    obtain ⟨f', rest', hi', hf'⟩ := hi'.wakeOne (p := p) hf pick
    exact ((Mild.reply hi' hf' rfl).after (taken.trans (.wakeOne lasting pick))).emit
      (by simp [Event.isMild])

theorem Retains.hired (hp : s.pools[p]? = some pool) : Retains P s (s.hired p pool) := by
  have spawned : Retains P s (s.spawn { role := .worker p pool.rosterSize .starting }) := by
    refine ⟨fun h => h.spawn rfl, rfl, fun t => ?_⟩
    rw [references_eq, references_eq, tally_spawn, ← Nat.add_assoc]
    exact Nat.le_add_right _ _
  exact spawned.trans (.setPool hp fun _ => le_rfl)

theorem Mild.submit (lasting : Frame.Lasting P) (hP : ∀ woken, P i (.awaitingWorker p t woken))
    (pick : Pick) (hi : s.Inside i (f :: rest)) (hf : f.isBare) (hp : s.pools[p]? = some pool)
    (ht : s.tasks[t]? = some task) : Mild P s (s.submit i p pool t task pick) := by
  unfold System.submit
  split
  · next e he => exact .reply hi hf (Pool.mild_refusal he)
  · split
    · exact .reply hi hf rfl
    · split
      · split
        · have hi' : (s.hired p pool).Inside i (f :: rest) := hi.hired
          have entered : Mild P s ((s.hired p pool).enter i (.awaitingWorker p t false), []) :=
            (Mild.enter hi' hf (hP false)).after (.hired hp)
          exact ⟨entered.retains, by simp [Event.isMild]⟩
        · exact .reply hi hf rfl
      · split
        · exact .enter hi hf (hP false)
        · exact .accept lasting pick hi hf hp ht

theorem Mild.resumeSubmit (lasting : Frame.Lasting P)
    (hP : ∀ woken, P i (.awaitingWorker p t woken)) (pick : Pick) (hi : s.Inside i (f :: rest))
    (hf : f.isBare) (hp : s.pools[p]? = some pool) (ht : s.tasks[t]? = some task) :
    Mild P s (s.resumeSubmit i p pool t task pick) := by
  unfold System.resumeSubmit
  split
  · exact .enter hi hf (hP false)
  · split
    · next e he => exact .reply hi hf (Pool.mild_refusal he)
    · exact .accept lasting pick hi hf hp ht

/-! ### Joins -/

theorem Mild.takeOutcome (hi : s.Inside i (f :: rest)) (hf : f.isBare)
    (ht : s.tasks[t]? = some task) : Mild P s (s.takeOutcome i t task) := by
  have hi' : (s.setSlot t task.slot.release).Inside i (f :: rest) := hi
  have hr : (joinReply t task.slot.outcome).isMild := by
    unfold joinReply
    split <;> rfl
  exact ((Mild.reply hi' hf hr).after (.setSlot ht _)).emit (by simp [Event.isMild])

theorem Mild.join {bound : Bound} (hP : ∀ woken, P i (.awaitingOutcome t bound woken))
    (hi : s.Inside i (f :: rest)) (hf : f.isBare) (ht : s.tasks[t]? = some task) :
    Mild P s (s.join i t task bound) := by
  unfold System.join
  split
  · exact .reply hi hf rfl
  · split
    · exact .takeOutcome hi hf ht
    · split
      · exact .reply hi hf rfl
      · exact .enter hi hf (hP false)

theorem Mild.resumeJoin {bound : Bound} (hP : ∀ woken, P i (.awaitingOutcome t bound woken))
    (hi : s.Inside i (f :: rest)) (hf : f.isBare) (ht : s.tasks[t]? = some task) :
    Mild P s (s.resumeJoin i t task bound) := by
  unfold System.resumeJoin
  split
  · exact .takeOutcome hi hf ht
  · exact .enter hi hf (hP false)

theorem Mild.expireJoin {nanos : Nat} (hi : s.Inside i (f :: rest)) (hf : f.isBare)
    (ht : s.tasks[t]? = some task) : Mild P s (s.expireJoin i t task nanos) := by
  unfold System.expireJoin
  split
  · exact .takeOutcome hi hf ht
  · exact .reply hi hf rfl

/-! ### Giving tasks away -/

/-- Whoever gives a task away has its handle to let go of. -/
theorem Mild.letGo {slot : Slot} {todo : List Disposal} (lasting : Frame.Lasting P)
    (hi : s.Inside i (f :: rest)) (hf : f.isBare) (ht : s.tasks[t]? = some task)
    (htodo : .handle t ∈ todo) : Mild P s (s.letGo i t { task with slot } todo) := by
  have hlength : (s.letGo i t { task with slot } todo).1.tasks.length = s.tasks.length := by
    simp [System.letGo, System.enter, System.onThread, System.setTask]
  refine .silent ⟨fun each => ?_, hlength, fun u => ?_⟩
  · have entered : (s.enter i (.disposing todo none false)).Frames P :=
      each.enter (lasting.disposing _ _ _ _)
    exact entered
  · obtain ⟨th, hth, hc⟩ := hi
    let given : System := s.setTask t { task with slot, handle := false }
    have hentered : (given.enter i (.disposing todo none false)).tally (Thread.holds u) +
        th.holds u = s.tally (Thread.holds u) +
          (th.replace (.disposing todo none false)).holds u :=
      tally_onThread (s := given) (·.replace (.disposing todo none false)) hth
    have hnew : (th.replace (.disposing todo none false)).holds u =
        th.holds u + (Frame.disposing todo none false).holds u := by
      have hw := Thread.weigh_pop (Frame.holds u) hc
      have hz := f.holds_of_isBare u hf
      rw [Thread.holds_eq, Thread.holds_eq, Thread.role_replace, Thread.replace, Thread.weigh_push]
      omega
    have hmine : s.handles u ≤
        given.handles u + (Frame.disposing todo none false).holds u := by
      rw [handles_setTask ht]
      split
      · next hu =>
        subst hu
        have hpos : 0 < (Frame.disposing todo none false).holds t :=
          List.countP_pos_iff.mpr ⟨_, htodo, by simp⟩
        rw [handles_eq ht]
        split <;> omega
      · exact Nat.le_add_right _ _
    have hhandle : (given.enter i (.disposing todo none false)).handles u = given.handles u := rfl
    have hentries : (given.enter i (.disposing todo none false)).entries u = s.entries u := rfl
    have hle : s.references u ≤ (given.enter i (.disposing todo none false)).references u := by
      rw [references_eq, references_eq, hhandle, hentries]
      omega
    exact hle

theorem Mild.detach (lasting : Frame.Lasting P) (hi : s.Inside i (f :: rest)) (hf : f.isBare)
    (ht : s.tasks[t]? = some task) : Mild P s (s.detach i t task) := by
  unfold System.detach
  split
  · split
    · exact .letGo lasting hi hf ht (by simp)
    · exact .letGo lasting hi hf ht (by simp)
  · exact .reply hi hf rfl
  · exact .reply hi hf rfl

theorem Mild.destroy (lasting : Frame.Lasting P) (hi : s.Inside i (f :: rest)) (hf : f.isBare)
    (ht : s.tasks[t]? = some task) : Mild P s (s.destroy i t task) := by
  unfold System.destroy
  split
  · exact .reply hi hf rfl
  · exact .letGo lasting hi hf ht (by simp)

/-! ### Waiting for a pool and shutting it down -/

theorem Mild.endShutdown {failure : Option PoolError} {dropping : Bool}
    (hi : s.Inside i (f :: rest)) (hf : f.isBare) (he : ∀ e ∈ failure, e.isJoinFailure = false) :
    Mild P s (s.endShutdown i p pool failure dropping) := by
  unfold System.endShutdown
  split
  · exact .reply hi hf rfl
  · next e =>
    exact .reply hi hf (by simpa [Reply.isMild] using he e rfl)
  · next e =>
    exact (Mild.reply hi hf rfl).emit (by simpa [Event.isMild] using he e rfl)

theorem Mild.stopNext (lasting : Frame.Lasting P) {dropping : Bool}
    (hP : ∀ f : Frame, f.waitsFor p dropping → P i f) (next total : Nat)
    (hi : s.Inside i (f :: rest)) (hf : f.isBare) (hp : s.pools[p]? = some pool) :
    Mild P s (s.stopNext i p pool next total dropping) := by
  unfold System.stopNext
  split
  · have hi' : (s.setPool p (pool.requestExit next)).Inside i (f :: rest) := hi
    obtain ⟨f', rest', hi', hf'⟩ := hi'.wakeAll hf (.workAvailable p)
    have told : Retains P s (s.setPool p (pool.requestExit next)) := .setPool hp fun _ => le_rfl
    exact (Mild.enter hi' hf' (hP _ (by simp [Frame.waitsFor]))).after
      (told.trans (.wakeAll lasting _))
  · have hi' : (s.setPool p pool.dismiss).Inside i (f :: rest) := hi
    have told : Retains P s (s.setPool p pool.dismiss) := .setPool hp fun _ => le_rfl
    simp only [System.finishTeardown]
    exact ((Mild.endShutdown hi' hf (by simp)).after told).emit (by simp [Event.isMild])

theorem Mild.decideShutdown (lasting : Frame.Lasting P) {dropping : Bool}
    (hP : ∀ f : Frame, f.waitsFor p dropping → P i f) (hi : s.Inside i (f :: rest)) (hf : f.isBare)
    (hp : s.pools[p]? = some pool) : Mild P s (s.decideShutdown i p pool dropping) := by
  unfold System.decideShutdown
  split
  · have hi' : (s.setPool p pool.close).Inside i (f :: rest) := hi
    have told : Retains P s (s.setPool p pool.close) := .setPool hp fun _ => le_rfl
    rw [← stopNext_setPool pool.close]
    exact (Mild.stopNext lasting hP _ _ hi' hf (getElem?_setPool hp _)).after told
  · exact .endShutdown hi hf (by simp [PoolError.isJoinFailure])

theorem Mild.resumeShutdown (lasting : Frame.Lasting P) {dropping : Bool}
    (hP : ∀ f : Frame, f.waitsFor p dropping → P i f) (hi : s.Inside i (f :: rest)) (hf : f.isBare)
    (hp : s.pools[p]? = some pool) : Mild P s (s.resumeShutdown i p pool dropping) := by
  unfold System.resumeShutdown
  split
  · exact .enter hi hf (hP _ (by simp [Frame.waitsFor]))
  · exact .decideShutdown lasting hP hi hf hp

theorem Mild.shutdown (lasting : Frame.Lasting P) {dropping : Bool}
    (hP : ∀ f : Frame, f.waitsFor p dropping → P i f) (hi : s.Inside i (f :: rest)) (hf : f.isBare)
    (hp : s.pools[p]? = some pool) : Mild P s (s.shutdown i p pool dropping) := by
  unfold System.shutdown
  split
  · exact .endShutdown hi hf (by simp)
  · exact .resumeShutdown lasting hP hi hf hp

theorem Mild.waitIdle {dropping : Bool}
    (hP : ∀ f : Frame, f.waitsFor p dropping → (f.closes p → pool.isQuiescentFor i) → P i f)
    (hi : s.Inside i (f :: rest)) (hf : f.isBare) : Mild P s (s.waitIdle i p pool dropping) := by
  unfold System.waitIdle
  split
  · next quiet =>
    split
    · next h => exact .enter hi hf (hP _ (by simp [Frame.waitsFor, h]) fun _ => quiet)
    · exact .reply hi hf rfl
  · exact .enter hi hf (hP _ (by simp [Frame.waitsFor]) nofun)

theorem Mild.dropPool
    (hP : ∀ f : Frame, f.waitsFor p true → (f.closes p → pool.isQuiescentFor i) → P i f)
    (hi : s.Inside i (f :: rest)) (hf : f.isBare) (hp : s.pools[p]? = some pool) :
    Mild P s (s.dropPool i p pool) := by
  have hi' : (s.setPool p { pool with handle := false }).Inside i (f :: rest) := hi
  have told : Retains P s (s.setPool p { pool with handle := false }) :=
    .setPool hp fun _ => le_rfl
  simp only [System.dropPool]
  split
  · exact (Mild.reply hi' hf rfl).after told
  · exact (Mild.waitIdle hP hi' hf).after told

theorem Mild.joinCrew (lasting : Frame.Lasting P) {next total : Nat} {dropping : Bool}
    (hP : ∀ f : Frame, f.waitsFor p dropping → P i f) (hi : s.Inside i (f :: rest)) (hf : f.isBare)
    (hp : s.pools[p]? = some pool) (h : s.joinCrew? i p pool next total dropping = some e) :
    Mild P s e := by
  have stop := Mild.stopNext lasting hP (next + 1) total hi hf hp
  unfold System.joinCrew? at h
  split at h
  · cases h
  · split at h
    · cases h
      exact stop.emit (by simp [Event.isMild])
    · split at h
      · cases h
        exact stop
      · cases h

/-! ### Workers -/

theorem Retains.settled (lasting : Frame.Lasting P) (hw : s.Working i p k phase)
    (hp : s.pools[p]? = some pool)
    (hc : ∀ t, pool.queue.entries.count t ≤ new.queue.entries.count t)
    (ht : phase.task? = none) : Retains P s (s.settled i p new) := by
  have hw' : (s.setPool p new).Working i p k phase := hw
  have parked : Retains P s ((s.setPool p new).onThread i (·.setPhase (.parked true))) :=
    (Retains.setPool hp hc).trans (hw'.retains Thread.rephases_setPhase (by simp [ht]))
  unfold System.settled
  split
  · exact parked.trans (.wakeAll lasting _)
  · exact parked

/-- The task at the head of the queue goes into the hands of the worker. -/
theorem Retains.claim {pool' : Pool} (hw : s.Working i p k (.parked true))
    (hp : s.pools[p]? = some pool) (hc : pool.claim? = some (t, pool')) :
    Retains P s ((s.setPool p pool').onThread i (·.setPhase (.holding t))) := by
  have hcount (u : TaskId) : pool.queue.entries.count u =
      pool'.queue.entries.count u + if t = u then 1 else 0 := by
    obtain ⟨queue, hq, rfl⟩ := Pool.claim?_eq hc
    obtain ⟨rest, hentries, rfl⟩ := PendingQueue.pop?_eq hq
    simp [hentries, List.count_cons]
  obtain ⟨th, hth, hr, -⟩ := hw
  refine ⟨fun h => Frames.onThread (s := s.setPool p pool') h fun _ _ h => by
    rwa [Thread.calls_setPhase], rfl, fun u => ?_⟩
  have hphase := tally_onThread (w := Thread.holds u) (s := s.setPool p pool')
    (·.setPhase (.holding t)) hth
  have hsum := entries_setPool (t := u) hp pool'
  have hbefore : th.holds u = th.weigh (Frame.holds u) := by
    simp [Thread.holds_eq, hr, Role.holds, Role.task?, Phase.task?]
  have hafter : (th.setPhase (.holding t)).holds u =
      (if t = u then 1 else 0) + th.weigh (Frame.holds u) := by
    simp [Thread.holds_eq, Thread.role_setPhase hr, Role.holds, Role.task?, Phase.task?,
      Thread.weigh]
  have hhandle : ((s.setPool p pool').onThread i (·.setPhase (.holding t))).handles u =
      s.handles u := rfl
  have hentries : ((s.setPool p pool').onThread i (·.setPhase (.holding t))).entries u =
      (s.setPool p pool').entries u := rfl
  have := hcount u
  rw [tally_setPool] at hphase
  rw [references_eq, references_eq, hhandle, hentries]
  omega

theorem Mild.proceed (hw : s.Working i p k (.parked true)) (hp : s.pools[p]? = some pool) :
    Mild P s (s.proceed i p pool k) := by
  unfold System.proceed
  split
  · exact ⟨hw.retains (Thread.rephases_leave _) (by simp [Phase.task?]), by simp [Event.isMild]⟩
  · split
    · exact .silent (hw.retains Thread.rephases_setPhase (by simp [Phase.task?]))
    · next hc => exact ⟨.claim hw hp hc, by simp [Event.isMild]⟩

theorem Mild.settle (new : Pool) (lasting : Frame.Lasting P) (hw : s.Working i p k phase)
    (hp : s.pools[p]? = some pool)
    (hc : ∀ t, pool.queue.entries.count t ≤ new.queue.entries.count t)
    (ht : phase.task? = none) : Mild P s (s.settle i p new k) :=
  (Mild.proceed (hw.settled new) (getElem?_settled hp new)).after (.settled lasting hw hp hc ht)

theorem Mild.register (lasting : Frame.Lasting P) (hw : s.Working i p k .starting)
    (hp : s.pools[p]? = some pool) : Mild P s (s.register i p pool k) := by
  let g (th : Thread) : Thread := { th with spans := th.spans.enter (some .worker) }
  have hw' : (s.onThread i g).Working i p k .starting := hw.stay fun _ => ⟨rfl, rfl⟩
  have entered : Retains P s (s.onThread i g) := .onThread (fun _ _ h => h) fun _ _ _ => le_rfl
  have settled : Mild P s
      (((s.onThread i g).wakeAll (.workerRegistered p)).settle i p pool.register k) :=
    (Mild.settle pool.register lasting (hw'.wakeAll (.workerRegistered p)) hp (fun _ => le_rfl)
      rfl).after (entered.trans (.wakeAll lasting _))
  have told : ∀ ev ∈ [Event.log (.registered p k pool.register.threadCount)], ev.isMild := by
    simp [Event.isMild]
  exact settled.emit told

theorem Mild.begin (hw : s.Working i p k (.holding t)) (ht : s.tasks[t]? = some task) :
    Mild P s (s.begin i t task) := by
  have started (phase : Phase) {new : Task} {g : Thread → Thread} (hh : new.handle = task.handle)
      (hg : Thread.Rephases phase g) (hphase : phase.task? = some t) :
      Retains P s ((s.setTask t new).onThread i g) := by
    have hw' : (s.setTask t new).Working i p k (.holding t) := hw
    exact (Retains.setTask ht hh).trans
      (hw'.retains hg fun u hu => hphase.trans (by simpa [Phase.task?] using hu))
  unfold System.begin
  split
  · exact ⟨started (.running t) rfl
      (fun th => Thread.rephases_enter (fun th => th.spans.enter (some .execution)) th) rfl,
      by simp [Event.isMild]⟩
  · exact .silent (started (.stashing t false _) rfl (Thread.rephases_enter _) rfl)

theorem Mild.retire (lasting : Frame.Lasting P) (hw : s.Working i p k (.counted t))
    (hp : s.pools[p]? = some pool) (ht : s.tasks[t]? = some task) :
    Mild P s (s.retire i p pool k t task) := by
  have told : Retains P s (s.published i p pool t task) := by
    have counted : Retains P s (s.setPool p (pool.retire i)) := .setPool hp fun _ => le_rfl
    have ht' : (s.setPool p (pool.retire i)).tasks[t]? = some task := ht
    have told := counted.trans (.setSlot ht' task.slot.complete)
    unfold published
    split
    · exact told
    · exact told.trans (.wakeAll lasting _)
  obtain ⟨th, hth, hr, -⟩ : (s.published i p pool t task).Working i p k (.counted t) :=
    hw.published rfl
  -- The reference goes from the hands of the worker to what it lets go of.
  have pushed : Retains P (s.published i p pool t task) (s.retired i p pool t task) := by
    refine .onThread (fun th _ h f hf => ?_) fun th' hth' u => ?_
    · rw [Thread.calls_push, Thread.calls_setPhase] at hf
      rcases List.mem_cons.mp hf with rfl | hf
      · exact lasting.disposing _ _ _ _
      · exact h f hf
    · obtain rfl : th = th' := Option.some.inj (hth.symm.trans hth')
      have hcalls : (th.setPhase .releasing).weigh (Frame.holds u) = th.weigh (Frame.holds u) := by
        simp [Thread.weigh]
      have hmine : th.role.holds u ≤
          (Frame.disposing (.reference t :: task.slot.leftovers t) none true).holds u := by
        by_cases hu : t = u <;>
          simp [hr, Role.holds, Role.task?, Phase.task?, Frame.holds, hu]
      rw [Thread.holds_eq, Thread.holds_eq, Thread.weigh_push, hcalls]
      omega
  refine ⟨told.trans pushed, ?_⟩
  simp only [System.retire]
  split <;> simp [Event.isMild]

theorem Mild.count {returned : Bool} (hw : s.Working i p k (.stashed t returned))
    (hp : s.pools[p]? = some pool) : Mild P s (s.count i p pool k t returned) := by
  have hw' : (s.setPool p (pool.count k returned)).Working i p k (.stashed t returned) := hw
  have counted : Retains P s (s.setPool p (pool.count k returned)) := .setPool hp fun _ => le_rfl
  refine ⟨counted.trans (hw'.retains (Thread.rephases_leave _) fun _ h => h), ?_⟩
  simp only [System.count]
  split <;> simp [Event.isMild]

theorem Mild.work (lasting : Frame.Lasting P) (hw : s.Working i p k phase)
    (h : s.work? i p k phase = some e) : Mild P s e := by
  obtain ⟨pool, hp, h⟩ := Option.bind_eq_some_iff.mp h
  cases phase with
  | starting =>
    cases h
    exact .register lasting hw hp
  | parked woken =>
    cases woken with
    | false => cases h
    | true =>
      cases h
      exact .proceed hw hp
  | holding t =>
    obtain ⟨task, ht, h⟩ := Option.bind_eq_some_iff.mp h
    cases h
    exact .begin hw ht
  | running t => cases h
  | stashing t work o =>
    obtain ⟨task, ht, h⟩ := Option.bind_eq_some_iff.mp h
    cases h
    have hw' : (s.setSlot t (task.slot.stash work o)).Working i p k (.stashing t work o) := hw
    have put : Retains P s (s.setSlot t (task.slot.stash work o)) := .setSlot ht _
    exact .silent (put.trans (hw'.retains Thread.rephases_setPhase fun _ h => h))
  | stashed t returned =>
    cases h
    exact .count hw hp
  | counted t =>
    obtain ⟨task, ht, h⟩ := Option.bind_eq_some_iff.mp h
    cases h
    exact .retire lasting hw hp ht
  | releasing =>
    cases h
    exact .settle (pool.released i) lasting hw hp (fun _ => le_rfl) rfl
  | exited => cases h

/-! ### Steps -/

/-- The pool is quiescent, but for what the thread itself may let go of. -/
def QuietFor (s : System) (i : ThreadId) (p : PoolId) : Prop :=
  ∃ pool, s.pools[p]? = some pool ∧ pool.isQuiescentFor i

/-- Frames that a step of the thread may open. The last part of dropping a pool begins when the pool
is quiescent. -/
inductive Opens (s : System) (i : ThreadId) : Action → Frame → Prop
  | submit {p : PoolId} {t : TaskId} {pick : Pick} (woken : Bool) : s.canUse p →
      Opens s i (.call (.submit p t) pick) (.awaitingWorker p t woken)
  | join {t : TaskId} {bound : Bound} {pick : Pick} (woken : Bool) :
      Opens s i (.call (.join t bound) pick) (.awaitingOutcome t bound woken)
  | waitIdle {p : PoolId} {pick : Pick} {f : Frame} : s.canUse p → f.waitsFor p false →
      Opens s i (.call (.waitIdle p) pick) f
  | shutdown {p : PoolId} {pick : Pick} {f : Frame} : s.canUse p → f.waitsFor p false →
      Opens s i (.call (.shutdown p) pick) f
  | dropPool {p : PoolId} {pick : Pick} {f : Frame} : s.canDrop p → f.waitsFor p true →
      (f.closes p → s.QuietFor i p) → Opens s i (.call (.dropPool p) pick) f
  | goOn {a : Action} {f f' : Frame} {rest : List Frame} : s.Inside i (f :: rest) → f.Alike f' →
      (∀ p, f'.closes p → f.closes p ∨ s.QuietFor i p) → Opens s i a f'

/-- The last part of dropping a pool goes on. -/
theorem Inside.keepsClosing {a : Action} {f' : Frame} {dropping : Bool}
    (hi : s.Inside i (f :: rest)) (hw : f.waitsFor p dropping) (hc : f.closes p = dropping)
    (hw' : f'.waitsFor p dropping) : s.Opens i a f' := by
  refine .goOn hi (.wait hw hw') fun q hq => .inl ?_
  obtain ⟨rfl, rfl⟩ := Frame.of_closes hw' hq
  exact hc

/-- The thread has things to let go of. -/
def Sheds (s : System) (i : ThreadId) : Prop :=
  ∃ d todo failure releasing rest, s.Inside i (.disposing (d :: todo) failure releasing :: rest)

theorem mild_call {op : Operation} (lasting : Frame.Lasting P)
    (hP : ∀ f, s.Opens i (.call op pick) f → P i f) (new : ∀ captured, op ≠ .createTask captured)
    (hth : s.threads[i]? = some th)
    (h : s.call? i op pick = some e) : Mild P s e := by
  have hi := Inside.inCall hth
  have begun : Retains P s (s.inCall i) := retains_push (lasting.disposing _ _ _ _)
  suffices Mild P (s.inCall i) e from this.after begun
  cases op with
  | createPool c =>
    simp only [call?] at h
    split at h
    · next hc =>
      cases h
      exact .reply hi rfl (Pool.mild_create hc)
    · next pool hc =>
      cases h
      have hi' : ((s.inCall i).addPool pool).Inside i (.disposing [] none false :: th.calls) := hi
      have added : Retains P (s.inCall i) ((s.inCall i).addPool pool) := by
        refine ⟨id, rfl, fun t => ?_⟩
        have hentries : ((s.inCall i).addPool pool).entries t = (s.inCall i).entries t := by
          simp [entries, addPool, Pool.create_queue hc]
        rw [references_eq, references_eq, hentries]
        rfl
      exact ((Mild.reply hi' rfl rfl).after added).emit (by simp [Event.isMild])
  | createTask captured => exact absurd rfl (new captured)
  | submit p t =>
    obtain ⟨pool, hp, h⟩ := Option.bind_eq_some_iff.mp h
    obtain ⟨task, ht, h⟩ := Option.bind_eq_some_iff.mp h
    split at h
    · next access =>
      cases h
      exact .submit lasting (fun woken => hP _ (.submit woken (Bool.and_eq_true _ _ ▸ access).1))
        pick hi rfl hp ht
    · cases h
  | join t bound =>
    obtain ⟨task, ht, h⟩ := Option.bind_eq_some_iff.mp h
    obtain ⟨-, h⟩ := Option.ite_none_right_eq_some.mp h
    cases h
    exact .join (fun woken => hP _ (.join woken)) hi rfl ht
  | detach t =>
    obtain ⟨task, ht, h⟩ := Option.bind_eq_some_iff.mp h
    obtain ⟨-, h⟩ := Option.ite_none_right_eq_some.mp h
    cases h
    exact .detach lasting hi rfl ht
  | destroy t =>
    obtain ⟨task, ht, h⟩ := Option.bind_eq_some_iff.mp h
    obtain ⟨-, h⟩ := Option.ite_none_right_eq_some.mp h
    cases h
    exact .destroy lasting hi rfl ht
  | drop t =>
    obtain ⟨task, ht, h⟩ := Option.bind_eq_some_iff.mp h
    obtain ⟨-, h⟩ := Option.ite_none_right_eq_some.mp h
    cases h
    exact .letGo lasting hi rfl ht (by simp)
  | waitIdle p =>
    obtain ⟨pool, hp, h⟩ := Option.bind_eq_some_iff.mp h
    obtain ⟨use, h⟩ := Option.ite_none_right_eq_some.mp h
    cases h
    exact .waitIdle (fun f hf _ => hP f (.waitIdle use hf)) hi rfl
  | shutdown p =>
    obtain ⟨pool, hp, h⟩ := Option.bind_eq_some_iff.mp h
    obtain ⟨use, h⟩ := Option.ite_none_right_eq_some.mp h
    cases h
    exact .shutdown lasting (fun f hf => hP f (.shutdown use hf)) hi rfl hp
  | dropPool p =>
    obtain ⟨pool, hp, h⟩ := Option.bind_eq_some_iff.mp h
    obtain ⟨drop, h⟩ := Option.ite_none_right_eq_some.mp h
    cases h
    exact .dropPool (fun f hf quiet => hP f (.dropPool drop hf fun h => ⟨pool, hp, quiet h⟩)) hi rfl
      hp

/-- A thread that has let go of everything. -/
theorem mild_disposed {failure : Option Payload} {releasing : Bool}
    (hi : s.Inside i (.disposing [] failure releasing :: rest)) :
    Mild P s (s.dispose i th [] failure releasing) := by
  have popped : Retains P s (s.onThread i Thread.pop) := retains_pop hi fun _ => rfl
  simp only [dispose]
  split
  · split
    · exact ⟨popped, by simp [Event.isMild]⟩
    · exact .silent popped
  · split
    · exact .reply hi rfl rfl
    · exact .reply hi rfl rfl

/-- A handle that is let go of is a reference yet. -/
theorem mild_handle {todo : List Disposal} {failure : Option Payload} {releasing : Bool}
    (lasting : Frame.Lasting P)
    (hi : s.Inside i (.disposing (.handle t :: todo) failure releasing :: rest))
    (ht : s.tasks[t]? = some task) :
    Mild P s (s.dispose i th (.handle t :: todo) failure releasing) := by
  have entered : Retains P s (s.enter i (.disposing (.reference t :: todo) failure releasing)) :=
    retains_enter hi (fun _ => le_rfl) (lasting.disposing _ _ _ _)
  simp only [dispose, ht]
  split
  · have ht' : (s.enter i (.disposing (.reference t :: todo) failure releasing)).tasks[t]? =
        some task := ht
    exact ⟨entered.trans (.setSlot ht' _), by simp [Event.isMild]⟩
  · exact .silent entered

/-- The end of user code. -/
theorem retains_finish {ending : Except Payload Value} (lasting : Frame.Lasting P)
    (hth : s.threads[i]? = some th) (h : s.finish? i th ending = some e) : Retains P s e.1 := by
  unfold finish? at h
  split at h
  · next todo failure releasing rest hc =>
    cases h
    have hi : s.Inside i (.destructor :: .disposing todo failure releasing :: rest) := ⟨th, hth, hc⟩
    have popped : Retains P s (s.onThread i Thread.pop) := retains_pop hi fun _ => rfl
    exact popped.trans (retains_enter hi.pop (fun _ => le_rfl) (lasting.disposing _ _ _ _))
  · next t hc hr =>
    obtain ⟨task, ht, h⟩ := Option.bind_eq_some_iff.mp h
    cases h
    have hw : s.Working i _ _ (.running t) := ⟨th, hth, hr, hc⟩
    exact hw.retains (Thread.rephases_leave _) fun _ h => h
  · cases h

theorem mild_advance (lasting : Frame.Lasting P) (hP : ∀ f, s.Opens i (.advance pick) f → P i f)
    (hth : s.threads[i]? = some th) (h : s.advance? i th pick = some e) (keeps : ¬ s.Sheds i) :
    Mild P s e := by
  unfold advance? at h
  split at h
  · next hc =>
    split at h
    · cases h
    · next hr => exact .work lasting ⟨th, hth, hr, hc⟩ h
  · next hc =>
    have hi : s.Inside i _ := ⟨th, hth, hc⟩
    obtain ⟨pool, hp, h⟩ := Option.bind_eq_some_iff.mp h
    obtain ⟨task, ht, h⟩ := Option.bind_eq_some_iff.mp h
    cases h
    exact .resumeSubmit lasting (fun _ => hP _ (.goOn hi (.submission _ _) nofun)) pick hi rfl hp ht
  · next hc =>
    have hi : s.Inside i _ := ⟨th, hth, hc⟩
    obtain ⟨task, ht, h⟩ := Option.bind_eq_some_iff.mp h
    cases h
    exact .resumeJoin (fun _ => hP _ (.goOn hi (.join _ _) nofun)) hi rfl ht
  · next hc =>
    have hi : s.Inside i _ := ⟨th, hth, hc⟩
    obtain ⟨pool, hp, h⟩ := Option.bind_eq_some_iff.mp h
    cases h
    refine .waitIdle (fun f hf quiet => hP f (.goOn hi (.wait (by simp [Frame.waitsFor]) hf)
      fun q hq => .inr ?_)) hi rfl
    obtain ⟨rfl, -⟩ := Frame.of_closes hf hq
    exact ⟨pool, hp, quiet hq⟩
  · next hc =>
    have hi : s.Inside i _ := ⟨th, hth, hc⟩
    obtain ⟨pool, hp, h⟩ := Option.bind_eq_some_iff.mp h
    cases h
    exact .shutdown lasting
      (fun f hf => hP f (hi.keepsClosing (by simp [Frame.waitsFor]) (by simp [Frame.closes]) hf))
      hi rfl hp
  · next hc =>
    have hi : s.Inside i _ := ⟨th, hth, hc⟩
    obtain ⟨pool, hp, h⟩ := Option.bind_eq_some_iff.mp h
    cases h
    exact .resumeShutdown lasting
      (fun f hf => hP f (hi.keepsClosing (by simp [Frame.waitsFor]) (by simp [Frame.closes]) hf))
      hi rfl hp
  · next hc =>
    have hi : s.Inside i _ := ⟨th, hth, hc⟩
    obtain ⟨pool, hp, h⟩ := Option.bind_eq_some_iff.mp h
    exact .joinCrew lasting
      (fun f hf => hP f (hi.keepsClosing (by simp [Frame.waitsFor]) (by simp [Frame.closes]) hf))
      hi rfl hp h
  · next todo failure releasing rest hc =>
    cases h
    cases todo with
    | nil => exact mild_disposed ⟨th, hth, hc⟩
    | cons d todo => exact absurd ⟨d, todo, failure, releasing, rest, th, hth, hc⟩ keeps
  all_goals cases h

theorem mild_expire (hth : s.threads[i]? = some th) (h : s.expire? i th = some e) :
    Mild P s e := by
  unfold expire? at h
  split at h
  · next hc =>
    obtain ⟨task, ht, h⟩ := Option.bind_eq_some_iff.mp h
    cases h
    exact .expireJoin ⟨th, hth, hc⟩ rfl ht
  · cases h

/-- A step of the library on what there is, which lets go of nothing, is mild. -/
theorem mild_step {a : Action} (lasting : Frame.Lasting P) (hP : ∀ f, s.Opens i a f → P i f)
    (hs : s.step i a = some e) (code : ∀ ending, a ≠ .finish ending)
    (new : ∀ captured pick, a ≠ .call (.createTask captured) pick) (keeps : ¬ s.Sheds i) :
    Mild P s e := by
  obtain ⟨th, hth, hs⟩ := Option.bind_eq_some_iff.mp hs
  cases a with
  | call op pick =>
    obtain ⟨-, hs⟩ := Option.ite_none_right_eq_some.mp hs
    exact mild_call lasting hP (fun captured h => new captured pick (h ▸ rfl)) hth hs
  | finish ending => exact absurd rfl (code ending)
  | advance pick => exact mild_advance lasting hP hth hs keeps
  | expire => exact mild_expire hth hs

/-! ### Frames -/

theorem dispose_frames {todo : List Disposal} {failure : Option Payload} {releasing : Bool}
    (lasting : Frame.Lasting P) (destructor : P i .destructor) (each : s.Frames P) :
    (s.dispose i th todo failure releasing).1.Frames P := by
  have entered (todo : List Disposal) :
      (s.enter i (.disposing todo failure releasing)).Frames P :=
    each.enter (lasting.disposing _ _ _ _)
  cases todo with
  | nil =>
    simp only [dispose]
    split <;> split <;> exact each.pop
  | cons d todo =>
    cases d with
    | outcome t o =>
      simp only [dispose]
      split
      · exact (entered todo).push destructor
      · exact entered todo
    | work t => exact (entered todo).push destructor
    | record r => exact entered todo
    | handle t =>
      simp only [dispose]
      split
      · exact entered todo
      · split <;> exact entered (.reference t :: todo)
    | reference t =>
      simp only [dispose]
      split
      · exact entered todo
      · split <;> exact entered _

/-- A step opens no frame but one of the call that it belongs to. -/
theorem step_frames {a : Action} (lasting : Frame.Lasting P) (destructor : P i .destructor)
    (hP : ∀ f, s.Opens i a f → P i f) (hs : s.step i a = some e) (each : s.Frames P) :
    e.1.Frames P := by
  by_cases sheds : s.Sheds i
  · obtain ⟨d, todo, failure, releasing, rest, hi⟩ := sheds
    obtain ⟨th, rfl⟩ := hi.disposes hs
    exact dispose_frames lasting destructor each
  · by_cases code : ∃ ending, a = .finish ending
    · obtain ⟨ending, rfl⟩ := code
      obtain ⟨th, hth, hs⟩ := Option.bind_eq_some_iff.mp hs
      exact (retains_finish lasting hth hs).frames each
    · by_cases new : ∃ captured pick, a = .call (.createTask captured) pick
      · obtain ⟨captured, pick, rfl⟩ := new
        rw [step_createTask hs]
        exact each
      · exact (mild_step lasting hP hs (fun ending h => code ⟨ending, h⟩)
          (fun captured pick h => new ⟨captured, pick, h⟩) sheds).retains.frames each

end System

end WorkerPool
