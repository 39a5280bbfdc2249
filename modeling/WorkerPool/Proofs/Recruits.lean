import WorkerPool.Proofs.Newcomers
import WorkerPool.Proofs.OutsideWait

/-!
Submissions that wait for a worker to register.

A submission waits only if the pool has a worker that has not registered, and the registration of a
worker wakes all who wait for one. So whoever waits without a wake-up waits for a worker that is
there, whatever becomes of the pool in the meantime.
-/
namespace WorkerPool

/-- A submission to the pool waits for a worker to register, and has got no wake-up. -/
def Frame.expects (p : PoolId) : Frame → Bool
  | awaitingWorker q _ false => q == p
  | _ => false

theorem Frame.expects_wake {p : PoolId} {f : Frame} (c : Condition) (hf : f.expects p = false) :
    (f.wake c).expects p = false := by
  cases f with
  | awaitingWorker q t woken =>
    cases woken with
    | true => rfl
    | false => by_cases hc : c = .workerRegistered q <;> simp_all [Frame.wake, Frame.expects]
  | _ => rfl

namespace System

variable {s s' : System} {i j : ThreadId} {p q : PoolId} {pool : Pool} {f : Frame}
  {rest : List Frame} {es : List Event} {h : Trace} {callers : Nat} {woken : Bool} {k : Nat}
  {t : TaskId} {st st' : Station} {pick : Pick}

/-- Nobody waits for a worker of the pool to register without a wake-up. -/
def Unexpected (s : System) (p : PoolId) : Prop := s.EachFrame fun f => f.expects p = false

theorem Unexpected.same (none : s.Unexpected p) (frames : SameFrames s s') : s'.Unexpected p :=
  frames.each _ (fun c _ hf => Frame.expects_wake c hf) none

/-- The wake-up of a registration reaches everybody. -/
theorem unexpected_wakeAll (s : System) (p : PoolId) :
    (s.wakeAll (.workerRegistered p)).Unexpected p := by
  intro th hth f hf
  obtain ⟨old, -, rfl⟩ := List.mem_map.mp hth
  obtain ⟨g, -, rfl⟩ := List.mem_map.mp hf
  cases g with
  | awaitingWorker q t woken =>
    cases woken with
    | true => rfl
    | false => by_cases hq : q = p <;> simp [Frame.wake, Frame.expects, Ne.symm, hq]
  | _ => rfl

/-! ### Workers that have not registered -/

theorem recruits_iff : s.Recruits p ↔ 0 < staff s.posts p .starting := by
  simp only [Recruits, staff, posts, List.countP_map, List.countP_pos_iff, Function.comp_apply]
  refine exists_congr fun th => and_congr_right fun _ => ?_
  cases hr : th.role with
  | caller => simp [Thread.post, hr]
  | worker q k phase => cases phase <;> simp [Thread.post, hr, Phase.station]

theorem Recruits.same (recruits : s.Recruits p) (hposts : s'.posts = s.posts) :
    s'.Recruits p := by
  rw [recruits_iff] at recruits ⊢
  rwa [hposts]

/-- Workers that have registered may do what they like. -/
theorem Recruits.work (recruits : s.Recruits p) (hi : s.posts[i]? = some (some ⟨q, k, st⟩))
    (hst : st ≠ .starting) (hposts : s'.posts = s.posts.set i (some ⟨q, k, st'⟩)) :
    s'.Recruits p := by
  rw [recruits_iff] at recruits ⊢
  have := staff_set (p := p) (x := .starting) st' hi
  simp only [hst, and_false, if_false] at this
  rw [hposts]
  omega

theorem Recruits.hire (recruits : s.Recruits p) : (s.hired q pool).Recruits p := by
  obtain ⟨th, hth, hr⟩ := recruits
  exact ⟨th, List.mem_append_left _ hth, hr⟩

/-- The other workers that have not registered are still there after a registration. -/
theorem Recruits.register (recruits : s.Recruits p) (hi : s.posts[i]? = some (some ⟨q, k, st⟩))
    (hq : q ≠ p) (hposts : s'.posts = s.posts.set i (some ⟨q, k, st'⟩)) : s'.Recruits p := by
  rw [recruits_iff] at recruits ⊢
  have := staff_set (p := p) (x := .starting) st' hi
  simp only [hq, false_and, if_false] at this
  rw [hposts]
  omega

/-- A submission waits only for a worker that is there. -/
theorem Due.recruits (due : s.Due i f) (books : s.Books) (hf : f.expects p) : s.Recruits p := by
  cases f with
  | awaitingWorker q t woken =>
    cases woken with
    | true => cases hf
    | false =>
      obtain rfl : q = p := by simpa [Frame.expects] using hf
      obtain ⟨-, -, recruits | ⟨pool, hp, hu⟩⟩ := due
      · exact recruits
      · rw [recruits_iff]
        have balanced := books.pools q pool hp
        cases hc : pool.closed with
        | true => simp [Pool.unregistered, Pool.rosterSize, hc] at hu
        | false =>
          have := balanced.enlisted hc
          simp only [Pool.unregistered, Pool.rosterSize, hc, Bool.false_eq_true, if_false] at hu
          omega
  | _ => cases hf

/-! ### Runs -/

/-- Whoever waits for a worker of the pool to register waits for one that is there. -/
def Promised (s : System) (p : PoolId) : Prop := s.Unexpected p ∨ s.Recruits p

theorem Promised.move (promised : s.Promised p) (books : s.Books) (m : Move i s es s') :
    s'.Promised p := by
  have same (hposts : s'.posts = s.posts) (frames : SameFrames s s') : s'.Promised p :=
    promised.imp (·.same frames) (·.same hposts)
  have inner (hposts : s'.posts = s.posts) (frames : s.Unexpected p → s'.Unexpected p) :
      s'.Promised p :=
    promised.imp frames (·.same hposts)
  have work {q : PoolId} {k : Nat} {st st' : Station} (frames : SameFrames s s')
      (hi : s.posts[i]? = some (some ⟨q, k, st⟩)) (hst : st ≠ .starting)
      (hposts : s'.posts = s.posts.set i (some ⟨q, k, st'⟩)) : s'.Promised p :=
    promised.imp (·.same frames) (·.work hi hst hposts)
  have roles {g : Thread → Thread} (hg : ∀ th, (g th).role = th.role) :
      (s.onThread i g).posts = s.posts := posts_onThread hg
  have twice {g g' : Thread → Thread} (hg : ∀ th, (g th).role = th.role)
      (hg' : ∀ th, (g' th).role = th.role) : ((s.onThread i g).onThread i g').posts = s.posts :=
    (posts_onThread hg').trans (roles hg)
  cases m with
  | call _ _ => exact inner (roles fun _ => rfl) fun none => none.push rfl
  | leave _ _ _ => exact inner (roles fun _ => rfl) fun none => none.pop
  | @wait f f' rest hi _ due =>
    cases hf : f'.expects p with
    | false => exact inner (roles fun _ => rfl) fun none => none.enter hf
    | true =>
      have popped : (s.onThread i Thread.pop).posts = s.posts := roles fun _ => rfl
      have recruits := due.recruits (books.onThread fun _ => rfl) hf
      exact .inr ((recruits.same popped.symm).same (roles fun _ => rfl))
  | note _ => exact promised
  | addPool _ => exact same rfl (.of_threads rfl)
  | addTask captured => exact same rfl (.of_threads rfl)
  | hire _ _ _ =>
    exact promised.imp (·.same ((SameFrames.spawn rfl).trans (.of_threads rfl))) (·.hire)
  | @accept q pool t task pick _ _ _ _ _ _ =>
    have told : SameFrames s ((s.setSlot t task.slot.claim).setPool q (pool.accept t)) :=
      .of_threads rfl
    exact same (posts_wakeOne _) (told.trans (.wakeOne pick))
  | take _ _ _ _ _ _ =>
    exact inner (roles fun _ => rfl) fun none => EachFrame.pop (s := s) none
  | letGo _ _ _ _ _ =>
    exact inner (roles fun _ => rfl) fun none => EachFrame.enter (s := s) none rfl
  | discard _ _ => exact inner (roles fun _ => rfl) fun none => none.enter rfl
  | destroy _ _ =>
    exact inner (twice (fun _ => rfl) fun _ => rfl) fun none =>
      (EachFrame.enter none rfl).push rfl
  | release _ _ _ => exact inner (roles fun _ => rfl) fun none => none.enter rfl
  | abandon _ _ _ _ =>
    exact inner (roles fun _ => rfl) fun none => EachFrame.enter (s := s) none rfl
  | unref _ _ => exact inner (roles fun _ => rfl) fun none => none.enter rfl
  | clear _ _ _ =>
    exact inner (roles fun _ => rfl) fun none => EachFrame.enter (s := s) none rfl
  | resume _ =>
    exact inner (twice (fun _ => rfl) fun _ => rfl) fun none => none.pop.enter rfl
  | close _ _ => exact same rfl (.of_threads rfl)
  | @stop q pool k _ _ =>
    have told : SameFrames s (s.setPool q (pool.requestExit k)) := .of_threads rfl
    exact same (posts_wakeAll _) (told.trans (.wakeAll _))
  | dismiss _ _ _ => exact same rfl (.of_threads rfl)
  | dropPool _ _ => exact same rfl (.of_threads rfl)
  | @register q pool k g hw hp hg =>
    let told := (s.onThread i g).wakeAll (.workerRegistered q)
    have frames : SameFrames s told := (SameFrames.onThread fun th => (hg th).2).trans (.wakeAll _)
    have hposts : told.posts = s.posts := (posts_wakeAll _).trans (roles fun th => (hg th).1)
    have hw' : told.Working i q k .starting := (hw.stay hg).wakeAll _
    by_cases hq : q = p
    · subst hq
      exact .inl ((unexpected_wakeAll _ q).same (.settled _))
    · exact promised.imp (fun none => none.same (frames.trans (.settled _))) fun recruits =>
        (recruits.same hposts).register hw'.post hq (hw'.posts_settled _)
  | released hw _ => exact work (.settled _) hw.post (by simp [Phase.station]) (hw.posts_settled _)
  | exit hw _ _ hg =>
    exact work (.onThread fun th => (hg th).2) hw.post (by simp [Phase.station])
      (hw.posts .exited fun th => (hg th).1)
  | @claim q pool pool' k t hw _ _ _ =>
    have hw' : (s.setPool q pool').Working i q k (.parked true) := hw
    exact work (.after rfl fun _ => Thread.calls_setPhase) hw.post (by simp [Phase.station])
      (hw'.posts (.holding t) fun _ => rfl)
  | park hw _ _ _ =>
    exact same (hw.posts_same Thread.rephases_setPhase rfl)
      (.onThread fun _ => Thread.calls_setPhase)
  | begin hw _ _ hg =>
    exact same (Working.posts_same (s := s.setTask _ _) hw hg rfl) (.after rfl fun th => (hg th).2)
  | beginEmpty hw _ _ hg =>
    exact same (Working.posts_same (s := s.setTask _ _) hw hg rfl) (.after rfl fun th => (hg th).2)
  | endWork hw _ _ hg => exact same (hw.posts_same hg rfl) (.onThread fun th => (hg th).2)
  | stash hw _ =>
    exact same (Working.posts_same (s := s.setSlot _ _) hw Thread.rephases_setPhase rfl)
      (.after rfl fun _ => Thread.calls_setPhase)
  | count hw _ hg =>
    exact same (Working.posts_same (s := s.setPool _ _) hw hg rfl) (.after rfl fun th => (hg th).2)
  | @retire q pool k t task hw _ _ =>
    have frames : SameFrames s ((s.published i q pool t task).onThread i (·.setPhase .releasing)) :=
      (SameFrames.published pool).trans (.onThread fun _ => Thread.calls_setPhase)
    have hw' : (s.published i q pool t task).Working i q k (.counted t) := hw.published rfl
    have hposts : (s.retired i q pool t task).posts =
        (s.published i q pool t task).posts.set i (some ⟨q, k, .releasing⟩) :=
      hw'.posts .releasing fun _ => rfl
    rw [Books.posts_published] at hposts
    refine promised.imp (fun none => ?_) fun recruits =>
      recruits.work hw.post (by simp [Phase.station]) hposts
    rw [retired_eq]
    exact (none.same frames).push rfl

/-- In every run, whoever waits for a worker to register without a wake-up waits for one that is
there. -/
theorem Run.promised (run : Run callers h s) (p : PoolId) : s.Promised p := by
  have both : s.Books ∧ s.Promised p :=
    run.keeps (P := fun _ s => s.Books ∧ s.Promised p)
      ⟨.start callers, .inl fun th hth f hf => by
        rw [List.eq_of_mem_replicate hth] at hf
        cases hf⟩
      fun _ ⟨books, promised⟩ m => ⟨books.move m, promised.move books m⟩
  exact both.2

/-- A worker that registers wakes all submissions that wait for one. -/
theorem Working.wakes (hw : s.Working j p k .starting) (hp : s.pools[p]? = some pool)
    (pick : Pick) : ∃ s' es, s.step j (.advance pick) = some (s', es) ∧ s'.Unexpected p := by
  obtain ⟨th, hth, hr, hc⟩ := hw
  refine ⟨(s.register j p pool k).1, (s.register j p pool k).2, ?_, ?_⟩
  · simp [step, hth, advance?, hc, hr, work?, hp]
  · let inSpan (th : Thread) := { th with spans := th.spans.enter (some .worker) }
    have told : (((s.onThread j inSpan).wakeAll (.workerRegistered p)).settled j p
        pool.register).Unexpected p :=
      (unexpected_wakeAll _ p).same (.settled _)
    simp only [System.register, System.settle, emit, System.proceed]
    split
    · exact told.same (.onThread fun _ => Thread.calls_setPhase)
    · split
      · exact told.same (.onThread fun _ => Thread.calls_setPhase)
      · exact told.same (.after rfl fun _ => Thread.calls_setPhase)

/-- A submission that waits without a wake-up is woken by the next step of a worker. -/
theorem Run.woken_by (run : Run callers h s)
    (hi : s.Inside i (.awaitingWorker p t false :: rest)) : ∃ j k, s.Working j p k .starting ∧
      ∀ pick, ∃ s' es rest', s.step j (.advance pick) = some (s', es) ∧
        s'.Inside i (.awaitingWorker p t true :: rest') := by
  have recruits : s.Recruits p := (run.promised p).resolve_left fun none => by
    simpa [Frame.expects] using none.inside hi
  obtain ⟨th, hth, k, hr⟩ := recruits
  obtain ⟨j, hj⟩ := List.getElem?_of_mem hth
  have hnew : th.isNew := by simp [Thread.isNew, hr]
  have hw : s.Working j p k .starting := ⟨th, hj, hr, run.unentered th hth hnew⟩
  obtain ⟨pool, hp⟩ : ∃ pool, s.pools[p]? = some pool :=
    ⟨_, List.getElem?_eq_getElem (run.books.known _ (List.mem_of_getElem? hw.post))⟩
  refine ⟨j, k, hw, fun pick => ?_⟩
  obtain ⟨s', es, hs, none⟩ := hw.wakes hp pick
  have hij : i ≠ j := by
    rintro rfl
    obtain ⟨th', hth', hc⟩ := hi
    obtain rfl : th = th' := Option.some.inj (hj.symm.trans hth')
    simp [run.unentered th hth hnew] at hc
  obtain ⟨woken, rest', hi'⟩ := (moves_of_step run.calls hs).spares.awaitingWorker hij hi
  cases woken with
  | true => exact ⟨s', es, rest', hs, hi'⟩
  | false => simpa [Frame.expects] using none.inside hi'

end System

end WorkerPool
