import Mathlib.Data.ENat.Basic
import WorkerPool.Proofs.Doubles
import WorkerPool.Proofs.NoTrace
import WorkerPool.Proofs.Rest
import WorkerPool.Timeout

/-!
Joins with a bound in seconds.

Every double gives a bound. It is no wait for what is not a number or is below a billionth, absent
from `2^64` on, and the nearest number of nanoseconds in between, so that a larger double never
gives a smaller bound. A join that gives up reports the milliseconds of its bound.
-/
namespace WorkerPool

namespace Bound

open Binary64 Extended

/-- How long the bound is, in nanoseconds. -/
def length : Bound → ℕ∞
  | none => ⊤
  | some nanos => nanos

/-- The double for a billionth. -/
def epsilon : ℚ := magnitude shortestBits

theorem shortestBits_eq : shortestBits = 0x3E112E0BE826D695 := rfl

theorem epsilon_eq : epsilon = 0x112E0BE826D695 / 2 ^ 82 := by
  rw [epsilon, shortestBits_eq]
  norm_num [magnitude, significand, unit]

variable {bits bits' : UInt64} {x y : Extended}

/-- The ways a double gives a bound. -/
inductive Timed (bits : UInt64) : Bound → Prop
  | polls : (∀ x, value bits = some x → x < .finite epsilon) → Timed bits (some 0)
  | endless {x : Extended} : value bits = some x → .finite (2 ^ 64) ≤ x → Timed bits none
  /-- There is no double between the last whole number below `2^64` and `2^64`. -/
  | waits {x : ℚ} {d : ℕ} : value bits = some (.finite x) → epsilon ≤ x → x ≤ 2 ^ 64 - 1 →
      Rounds (x * 10 ^ 9) d → Timed bits (some d)

theorem timed_whole {m k : ℕ} (hb : bits.toNat < infinity) (hs : shortestBits ≤ bits.toNat)
    (hd : decode bits.toNat = (m, .ofNat k)) :
    Timed bits (if UInt64.size ≤ m <<< k then none else some ((m <<< k) * nanosPerSecond)) := by
  have hv := value_of_lt hb
  have whole : magnitude bits.toNat = (m <<< k : ℕ) := by
    rw [← decode_magnitude, hd, Nat.shiftLeft_eq]
    push_cast
    exact congrArg _ (zpow_natCast _ _)
  split
  · next h =>
    refine .endless hv (finite_le_finite.mpr ?_)
    rw [whole]
    exact_mod_cast h
  · next h =>
    refine .waits hv (magnitude_strictMono.monotone hs) ?_ ?_
    · have : ((m <<< k : ℕ) : ℚ) + 1 ≤ 2 ^ 64 := by exact_mod_cast Nat.lt_of_not_le h
      rw [whole]
      linarith
    · have : magnitude bits.toNat * (10 : ℚ) ^ 9 = ((m <<< k * nanosPerSecond : ℕ) : ℚ) := by
        rw [whole, nanosPerSecond]
        push_cast
        norm_num
      exact this ▸ Rounds.natCast _

theorem timed_fraction {m k : ℕ} (hb : bits.toNat < infinity) (hs : shortestBits ≤ bits.toNat)
    (hd : decode bits.toNat = (m, .negSucc k)) :
    Timed bits (some (roundQuotient (m * nanosPerSecond) (1 <<< (k + 1)))) := by
  have hlt := decode_lt bits.toNat
  have quotient : magnitude bits.toNat = (m : ℚ) / (1 <<< (k + 1) : ℕ) := by
    rw [← decode_magnitude, hd, Nat.one_shiftLeft, zpow_negSucc]
    push_cast
    rw [div_eq_mul_inv]
  rw [hd] at hlt
  have hk : (1 : ℚ) ≤ (1 <<< (k + 1) : ℕ) := by
    rw [Nat.one_shiftLeft]
    exact_mod_cast Nat.one_le_two_pow
  refine .waits (value_of_lt hb) (magnitude_strictMono.monotone hs) ?_ ?_
  · have small : (m : ℚ) ≤ 2 ^ 53 := by exact_mod_cast hlt.le
    calc magnitude bits.toNat = (m : ℚ) / (1 <<< (k + 1) : ℕ) := quotient
      _ ≤ m := div_le_self (by positivity) hk
      _ ≤ 2 ^ 64 - 1 := by linarith
  · have : magnitude bits.toNat * (10 : ℚ) ^ 9 =
        ((m * nanosPerSecond : ℕ) : ℚ) / (1 <<< (k + 1) : ℕ) := by
      rw [quotient, nanosPerSecond]
      push_cast
      ring
    exact this ▸ rounds_quotient _ (by rw [Nat.one_shiftLeft]; positivity)

theorem epsilon_pos : 0 < epsilon := by
  rw [epsilon_eq]
  norm_num

theorem shortestBits_lt : shortestBits < infinity := by
  rw [shortestBits_eq]
  decide

theorem timed (bits : UInt64) : Timed bits (ofSeconds bits) := by
  simp only [ofSeconds]
  split
  · next h =>
    refine .polls fun x hx => ?_
    by_cases sign : 2 ^ 63 ≤ bits.toNat
    · exact (value_of_sign sign hx).trans_lt (finite_lt_finite.mpr epsilon_pos)
    · obtain h | h := h.resolve_left (by rwa [Nat.one_shiftLeft])
      · rw [value_nan h (Nat.lt_of_not_le sign)] at hx
        cases hx
      · rw [value_of_lt (h.trans shortestBits_lt)] at hx
        cases hx
        exact finite_lt_finite.mpr (magnitude_strictMono h)
  · next h =>
    push Not at h
    split
    · next hi => exact .endless (value_infinity hi) le_top
    · next hi =>
      have hb : bits.toNat < infinity := by omega
      split
      · next hd => exact timed_whole hb h.2.2 hd
      · next hd => exact timed_fraction hb h.2.2 hd

/-! ### Consequences -/

/-- A number of nanoseconds that is waited for is at least one. -/
theorem one_le_of_rounds {x : ℚ} {d : ℕ} (hx : epsilon ≤ x) (rounds : Rounds (x * 10 ^ 9) d) :
    1 ≤ d := by
  have near := (abs_le.mp rounds.half).2
  rw [epsilon_eq] at hx
  have : (0 : ℚ) < d := by
    norm_num at hx near
    linarith
  exact_mod_cast this

theorem ofSeconds_eq_zero :
    ofSeconds bits = some 0 ↔ ∀ x, value bits = some x → x < .finite epsilon := by
  have timed := timed bits
  generalize ofSeconds bits = bound at timed
  cases timed with
  | polls below => exact iff_of_true rfl below
  | endless hv hx =>
    refine iff_of_false nofun fun below =>
      (below _ hv).not_ge (le_trans (finite_le_finite.mpr ?_) hx)
    rw [epsilon_eq]
    norm_num
  | waits hv hx _ rounds =>
    have := one_le_of_rounds hx rounds
    refine iff_of_false ?_ fun below => (finite_lt_finite.mp (below _ hv)).not_ge hx
    simp
    omega

theorem ofSeconds_eq_none :
    ofSeconds bits = none ↔ ∃ x, value bits = some x ∧ .finite (2 ^ 64) ≤ x := by
  have timed := timed bits
  generalize ofSeconds bits = bound at timed
  cases timed with
  | polls below =>
    refine iff_of_false nofun fun ⟨x, hv, hx⟩ =>
      (below x hv).not_ge (le_trans (finite_le_finite.mpr ?_) hx)
    rw [epsilon_eq]
    norm_num
  | endless hv hx => exact iff_of_true rfl ⟨_, hv, hx⟩
  | waits hv _ hx _ =>
    refine iff_of_false nofun fun ⟨y, hv', hy⟩ => ?_
    obtain rfl := Option.some.inj (hv.symm.trans hv')
    have := finite_le_finite.mp hy
    linarith

theorem ofSeconds_rounds {x : ℚ} (hv : value bits = some (.finite x)) (hε : epsilon ≤ x)
    (hx : x < 2 ^ 64) : ∃ d, ofSeconds bits = some d ∧ Rounds (x * 10 ^ 9) d ∧ 1 ≤ d ∧
      d < 2 ^ 64 * 10 ^ 9 := by
  have timed := timed bits
  generalize ofSeconds bits = bound at timed
  cases timed with
  | polls below => exact absurd (finite_lt_finite.mp (below _ hv)) hε.not_gt
  | endless hv' hle =>
    obtain rfl := Option.some.inj (hv.symm.trans hv')
    exact absurd (finite_le_finite.mp hle) hx.not_ge
  | @waits y d hv' _ hle rounds =>
    obtain rfl : x = y := finite_injective (Option.some.inj (hv.symm.trans hv'))
    refine ⟨d, rfl, rounds, one_le_of_rounds hε rounds, ?_⟩
    have near := (abs_le.mp rounds.half).1
    have : (d : ℚ) < 2 ^ 64 * 10 ^ 9 := by
      norm_num at hle near
      linarith
    exact_mod_cast this

theorem length_ofSeconds_mono (hx : value bits = some x) (hy : value bits' = some y)
    (hxy : x ≤ y) : (ofSeconds bits).length ≤ (ofSeconds bits').length := by
  have timed' := timed bits'
  generalize ofSeconds bits' = bound' at timed'
  cases timed' with
  | polls below =>
    have : ofSeconds bits = some 0 := ofSeconds_eq_zero.mpr fun z hz => by
      obtain rfl := Option.some.inj (hx.symm.trans hz)
      exact hxy.trans_lt (below y hy)
    rw [this]
  | endless _ _ => exact le_top
  | @waits y' d' hv' hε' hle' rounds' =>
    obtain rfl := Option.some.inj (hy.symm.trans hv')
    have timed := timed bits
    generalize ofSeconds bits = bound at timed
    cases timed with
    | polls _ => exact Nat.cast_le.mpr (Nat.zero_le _)
    | endless hv hle =>
      obtain rfl := Option.some.inj (hx.symm.trans hv)
      have := finite_le_finite.mp (hle.trans hxy)
      linarith
    | @waits x' d hv hε hle rounds =>
      obtain rfl := Option.some.inj (hx.symm.trans hv)
      have := finite_le_finite.mp hxy
      exact Nat.cast_le.mpr (rounds.mono rounds' (by linarith))

/-- No double is nearer to a billionth: its neighbours are more than half a unit away. -/
theorem epsilon_nearest {x : ℚ} (hx : value bits = some (.finite x)) :
    |epsilon - 1 / 10 ^ 9| ≤ |x - 1 / 10 ^ 9| := by
  have near : |epsilon - 1 / 10 ^ 9| ≤ 1 / 2 ^ 83 := by
    rw [epsilon_eq]
    norm_num [abs_le]
  have smaller (h : x ≤ magnitude (shortestBits - 1)) :
      |epsilon - 1 / 10 ^ 9| ≤ |x - 1 / 10 ^ 9| := by
    refine near.trans (le_abs.mpr (.inr ?_))
    rw [shortestBits_eq] at h
    norm_num [magnitude, significand, unit] at h ⊢
    linarith
  have larger (h : magnitude (shortestBits + 1) ≤ x) :
      |epsilon - 1 / 10 ^ 9| ≤ |x - 1 / 10 ^ 9| := by
    refine near.trans (le_abs.mpr (.inl ?_))
    rw [shortestBits_eq] at h
    norm_num [magnitude, significand, unit] at h ⊢
    linarith
  by_cases sign : 2 ^ 63 ≤ bits.toNat
  · exact smaller ((finite_le_finite.mp (value_of_sign sign hx)).trans (magnitude_nonneg _))
  · rcases lt_trichotomy bits.toNat infinity with hb | hb | hb
    · rw [value_of_lt hb] at hx
      obtain rfl := finite_injective (Option.some.inj hx)
      rcases lt_trichotomy bits.toNat shortestBits with h | h | h
      · exact smaller (magnitude_strictMono.monotone (by omega))
      · rw [h, epsilon]
      · exact larger (magnitude_strictMono.monotone (by omega))
    · rw [value_infinity hb] at hx
      exact absurd (Option.some.inj hx).symm finite_ne_top
    · rw [value_nan hb (Nat.lt_of_not_le sign)] at hx
      cases hx

theorem value_shortest (h : bits.toNat = shortestBits) :
    value bits = some (.finite epsilon) := by
  rw [value_of_lt (h ▸ shortestBits_lt), h, epsilon]

end Bound

namespace System

open Binary64 (value)

variable {callers : Nat} {g h : Trace} {s s' : System} {i : ThreadId} {t : TaskId} {bound : Bound}
  {own : List Passage} {last : Passage} {r : Reply} {es : List Event} {ms : Nat} {pick : Pick}

/-! ### Joins that give up -/

/-- A join that is underway waits with the bound it was called with. -/
theorem Underway.joins (under : Underway s i (.join t bound) own h s') (run : Run callers g s) :
    ∃ woken rest, s'.Inside i (.awaitingOutcome t bound woken :: rest) := by
  induction under with
  | @call pick s' es hs silent =>
    obtain ⟨th, hth, -⟩ := Option.bind_eq_some_iff.mp hs
    cases run.join_section hs with
    | takes o => exact absurd (by simp) (silent (joinReply t (some o)))
    | waits => exact ⟨false, th.calls, Inside.push ⟨th, hth, rfl⟩⟩
    | fails failure => exact absurd (List.mem_singleton_self _) (silent _)
  | @own own h s₁ s' a es under hs silent ih =>
    obtain ⟨woken, rest, hi⟩ := ih
    cases (under.run run).rejoin_section hi hs with
    | takes o => exact absurd (by simp) (silent (joinReply t (some o)))
    | waits => exact ⟨false, rest, hi.pop.push⟩
    | fails failure => exact absurd (List.mem_singleton_self _) (silent _)
  | other under hij hs ih =>
    obtain ⟨woken, rest, hi⟩ := ih
    obtain ⟨f, rest', hi', hf⟩ :=
      (moves_of_step (under.run run).calls hs).spares.inside hij hi
    obtain ⟨woken', rfl⟩ : ∃ woken, f = .awaitingOutcome t bound woken := by
      cases f <;> simp_all [Frame.asleep]
    exact ⟨woken', rest', hi'⟩

theorem joinReply_ne_timeout (o : Option Outcome) :
    Reply.failed (.timeout ms) ≠ joinReply t o := by
  unfold joinReply
  split <;> nofun

theorem timeout_takeOutcome {task : Task} (he : s.takeOutcome i t task = (s', es)) :
    .replied (.failed (.timeout ms)) ∉ es := by
  cases he
  simp [reply, joinReply_ne_timeout]

/-- A join gives up at once if it only looks, and else when its bound has passed. -/
theorem Returns.timeout
    (returns : Returns s i (.join t bound) own h last (.failed (.timeout ms)))
    (run : Run callers g s) : ∃ nanos, bound = some nanos ∧ ms = Bound.millis nanos := by
  cases returns with
  | atOnce hs hr =>
    obtain ⟨task, ht, -, hjoin⟩ := join_of_step hs
    unfold join at hjoin
    split at hjoin
    · cases hjoin
      simp at hr
    · split at hjoin
      · exact absurd hr (timeout_takeOutcome hjoin)
      · split at hjoin
        · next hb =>
          cases hjoin
          exact ⟨0, hb, by simpa [Bound.millis] using hr⟩
        · cases hjoin
          simp at hr
  | later under hs hr =>
    obtain ⟨woken, rest, hi⟩ := under.joins run
    obtain ⟨task, ht, hjoin | ⟨nanos, hb, hjoin⟩⟩ := hi.resumesJoin hs
    · unfold resumeJoin at hjoin
      split at hjoin
      · exact absurd hr (timeout_takeOutcome hjoin)
      · cases hjoin
        simp at hr
    · unfold expireJoin at hjoin
      split at hjoin
      · exact absurd hr (timeout_takeOutcome hjoin)
      · cases hjoin
        exact ⟨nanos, hb, by simpa using hr⟩

/-- A join that only looks does not wait. -/
theorem Returns.polls (returns : Returns s i (.join t (some 0)) own h last r) : own = [] := by
  cases returns with
  | atOnce _ _ => rfl
  | later under _ _ =>
    obtain ⟨pick, s₁, es, hs, silent⟩ := under.called
    obtain ⟨task, -, -, hjoin⟩ := join_of_step hs
    unfold join at hjoin
    split at hjoin
    · cases hjoin
      exact absurd (List.mem_singleton_self _) (silent _)
    · split at hjoin
      · cases hjoin
        exact absurd (by simp [reply]) (silent (joinReply t task.slot.outcome))
      · rw [if_pos rfl] at hjoin
        cases hjoin
        exact absurd (List.mem_singleton_self _) (silent _)

/-- How long joins wait. Bounds in seconds are given as the patterns of doubles. -/
structure TimesJoins (s : System) : Prop where
  /-- The shortest wait in seconds is the double for a billionth. -/
  shortest : ∀ {bits : UInt64}, bits.toNat = Bound.shortestBits →
    value bits = some (.finite Bound.epsilon)
  nearest : ∀ {bits : UInt64} {x : ℚ}, value bits = some (.finite x) →
    |Bound.epsilon - 1 / 10 ^ 9| ≤ |x - 1 / 10 ^ 9|
  /-- Nothing is waited for if the double is no number or a smaller one. -/
  zero : ∀ {bits : UInt64}, Bound.ofSeconds bits = some 0 ↔
    ∀ x, value bits = some x → x < .finite Bound.epsilon
  endless : ∀ {bits : UInt64}, Bound.ofSeconds bits = none ↔
    ∃ x, value bits = some x ∧ .finite (2 ^ 64) ≤ x
  /-- Otherwise the nearest number of nanoseconds is. -/
  nanos : ∀ {bits : UInt64} {x : ℚ}, value bits = some (.finite x) → Bound.epsilon ≤ x →
    x < 2 ^ 64 → ∃ d, Bound.ofSeconds bits = some d ∧ Rounds (x * 10 ^ 9) d ∧ 1 ≤ d ∧
      d < 2 ^ 64 * 10 ^ 9
  monotone : ∀ {bits bits' : UInt64} {x y : Extended}, value bits = some x →
    value bits' = some y → x ≤ y → (Bound.ofSeconds bits).length ≤ (Bound.ofSeconds bits').length
  /-- A join with no time to wait returns with its first section. -/
  polls : ∀ {i t own g last r}, Returns s i (.join t (some 0)) own g last r → own = []
  /-- A join that gives up has a bound and reports it. -/
  reports : ∀ {i t bound own g last ms},
    Returns s i (.join t bound) own g last (.failed (.timeout ms)) →
    ∃ d, bound = some d ∧ ms = min (d / 10 ^ 6) (2 ^ 64 - 1)

theorem Run.times_joins (run : Run callers g s) : s.TimesJoins where
  shortest := Bound.value_shortest
  nearest := Bound.epsilon_nearest
  zero := Bound.ofSeconds_eq_zero
  endless := Bound.ofSeconds_eq_none
  nanos := Bound.ofSeconds_rounds
  monotone := Bound.length_ofSeconds_mono
  polls := Returns.polls
  reports returns := returns.timeout run

/-- A join waits for one second in vain. -/
theorem times_joins_oneSecond : ∃ g s, Run 1 g s ∧ s.TimesJoins ∧
    ∃ own h last, own ≠ [] ∧ Returns s 0 (.join 0 (.ofSeconds 0x3FF0000000000000)) own h last
      (.failed (.timeout 1000)) := by
  have run : Run 1 _ _ := run_of_replay [(0, .call (.createPool (.new 1)) 0),
    (0, .call (.createTask none) 0), (0, .call (.submit 0 0) 0), (1, .advance 0),
    (0, .advance 0)] rfl
  have second : Bound.ofSeconds 0x3FF0000000000000 = some 1000000000 := by decide
  rw [second]
  exact ⟨_, _, run, run.times_joins, returns_of_replay 0 [] .expire _ rfl rfl rfl rfl (.head _)⟩

end System

end WorkerPool
