import Mathlib.Logic.Function.Basic
import WorkerPool.Span

/-!
Work that is wrapped in a span.

Threads call a wrapped work in any order, and enter and leave spans of their own in between. Each
call sees the stack of its thread with the captured span on top, and no call leaves anything behind.
-/
namespace WorkerPool

open Function (update)

namespace Tracing.Lawful

variable {tr : Tracing}

theorem enter_eq (lawful : tr.Lawful) (s : SpanStack) (span : Option Span) :
    tr.enter s span = span.toList ++ s := by
  cases span with
  | none => exact lawful.enter_none s
  | some span => exact lawful.enter_some s span

/-- A span that is entered is the one that is left. -/
theorem leave_enter (lawful : tr.Lawful) (s : SpanStack) (span : Option Span) :
    tr.leave (tr.enter s span) span = s := by
  rw [lawful.enter_eq]
  cases span with
  | none => exact lawful.leave_none s
  | some span => exact lawful.leave_some s span

/-- Spans that are left in the opposite order leave nothing behind. -/
theorem foldl_leave_enter (lawful : tr.Lawful) (spans : List (Option Span)) (s : SpanStack) :
    spans.reverse.foldl tr.leave (spans.foldl tr.enter s) = s := by
  induction spans generalizing s with
  | nil => rfl
  | cons span spans ih => simp [ih, lawful.leave_enter]

theorem foldl_enter (lawful : tr.Lawful) (spans : List Span) (s : SpanStack) :
    (spans.map some).foldl tr.enter s = spans.reverse ++ s := by
  induction spans generalizing s with
  | nil => rfl
  | cons span spans ih => simp [ih, lawful.enter_eq]

end Tracing.Lawful

/-- What a thread does: it changes its stack, or calls the wrapped work. -/
inductive Deed
  | change (f : SpanStack → SpanStack)
  | call

def Deed.isCall : Deed → Bool
  | change _ => false
  | call => true

abbrev Deeds := List (Nat × Deed)

/-- The stacks of the threads after their deeds if calls left no trace. -/
def Deeds.result : Deeds → (Nat → SpanStack) → Nat → SpanStack
  | [], given => given
  | (i, .change f) :: rest, given => Deeds.result rest (update given i (f (given i)))
  | (_, .call) :: rest, given => Deeds.result rest given

namespace Wrapped

variable {α : Type} {w : Wrapped α} {tr : Tracing} {s : SpanStack} {deeds before after : Deeds}
  {given : Nat → SpanStack} {i : Nat}

/-- Takes the threads through their deeds: what the calls give, and the stacks at the end. -/
def run (w : Wrapped α) (tr : Tracing) : Deeds → (Nat → SpanStack) → List α × (Nat → SpanStack)
  | [], given => ([], given)
  | (i, .change f) :: rest, given => w.run tr rest (update given i (f (given i)))
  | (i, .call) :: rest, given =>
    let (a, s) := w.call tr (given i)
    let (as, final) := w.run tr rest (update given i s)
    (a :: as, final)

/-- A call runs the body inside the captured span and restores the stack. -/
theorem call_eq (lawful : tr.Lawful) (w : Wrapped α) (s : SpanStack) :
    w.call tr s = (w.body (w.captured.toList ++ s), s) := by
  simp [call, lawful.leave_enter, ← lawful.enter_eq]

/-- What is captured is the innermost span. -/
theorem capture_eq (lawful : tr.Lawful) (s : SpanStack) (body : SpanStack → α) :
    capture tr s body = ⟨s.head?, body⟩ :=
  congrArg (Wrapped.mk · body) (lawful.current s)

/-- Calls leave no trace. -/
theorem run_result (lawful : tr.Lawful) : (w.run tr deeds given).2 = deeds.result given := by
  induction deeds generalizing given with
  | nil => rfl
  | cons deed rest ih =>
    obtain ⟨i, deed⟩ := deed
    cases deed with
    | change f => exact ih
    | call => simp [run, call_eq lawful, ih, Deeds.result]

/-- What a call gives depends on the stack of its thread at that moment only. -/
theorem run_call (lawful : tr.Lawful) :
    (w.run tr (before ++ (i, .call) :: after) given).1[before.countP (·.2.isCall)]? =
      some (w.body (w.captured.toList ++ before.result given i)) := by
  induction before generalizing given with
  | nil => simp [run, call_eq lawful, Deeds.result]
  | cons deed rest ih =>
    obtain ⟨j, deed⟩ := deed
    cases deed with
    | change f => simpa [run, Deeds.result, Deed.isCall] using ih
    | call => simpa [run, call_eq lawful, Deeds.result, Deed.isCall] using ih

/-! ### Calls inside requests -/

theorem callEach_eq (lawful : tr.Lawful) (w : Wrapped α) (s : SpanStack)
    (tags : List (Option String)) :
    w.callEach tr s tags = (tags.map fun tag =>
      w.body (w.captured.toList ++ (tag.map Span.request).toList ++ s), s) := by
  induction tags with
  | nil => rfl
  | cons tag tags ih =>
    simp only [callEach, call_eq lawful, lawful.leave_enter, ih]
    simp [lawful.enter_eq]

/-- Each call sees its own request and the innermost one of the wrapping, and nothing is left. -/
theorem callAll_eq (lawful : tr.Lawful) (tags : List String) (calls : List (Option String)) :
    callAll tags calls tr = (calls.map fun tag => SpanStack.labels
      ((tags.getLast?.map Span.request).toList ++ (tag.map Span.request).toList), []) := by
  have inside : (tags.map fun tag => some (Span.request tag)).foldl tr.enter [] =
      (tags.map Span.request).reverse := by
    simpa [Function.comp_def] using lawful.foldl_enter (tags.map Span.request) []
  simp only [callAll, lawful.foldl_leave_enter, callEach_eq lawful]
  simp [inside, capture_eq lawful, SpanStack.labels]

end Wrapped

end WorkerPool
