/-!
Spans that are entered around a piece of work, and work that remembers one.

A thread takes the guard of a span and drops it again. A tracing library turns this into a stack of
entered spans; the library is a parameter, and `Tracing.Lawful` says what is relied upon. Wrapping a
work captures the span that is current at that moment; every later call of the work runs inside it.
-/
namespace WorkerPool

structure Span where
  label : String
  deriving DecidableEq, Repr, Inhabited

namespace Span

/-- The span around the whole life of a worker thread. -/
def worker : Span := ⟨"worker"⟩

/-- The span around the execution of one task. -/
def execution : Span := ⟨"task_execution"⟩

/-- The span of a request with the given tag. -/
def request (tag : String) : Span := ⟨"request:" ++ tag⟩

end Span

/-- The spans a thread has entered and not left, innermost first. -/
abbrev SpanStack := List Span

/-- The labels, outermost first. -/
def SpanStack.labels (s : SpanStack) : List String := (s.map Span.label).reverse

/-- What a thread does with a span; there may be none. -/
inductive SpanMove
  | enter (span : Option Span)
  | leave (span : Option Span)
  deriving DecidableEq, Repr

/-- What a thread has done with spans, latest first. -/
abbrev SpanHistory := List SpanMove

namespace SpanHistory

/-- Takes the guard of the span. -/
def enter (history : SpanHistory) (span : Option Span) : SpanHistory := .enter span :: history

/-- Drops the guard of the span, at the end of its scope or while a panic unwinds. -/
def leave (history : SpanHistory) (span : Option Span) : SpanHistory := .leave span :: history

end SpanHistory

/-- A library that keeps the spans of each thread. -/
structure Tracing where
  /-- The span that is current. -/
  current : SpanStack → Option Span
  /-- A guard is taken. -/
  enter : SpanStack → Option Span → SpanStack
  /-- A guard is dropped. -/
  leave : SpanStack → Option Span → SpanStack

namespace Tracing

/-- What is relied upon: the innermost span is current, a guard enters its span when it is taken,
and leaves it when it is dropped. There is nothing to enter where there is no span. -/
structure Lawful (tr : Tracing) : Prop where
  current : ∀ stack, tr.current stack = stack.head?
  enter_none : ∀ stack, tr.enter stack none = stack
  enter_some : ∀ stack span, tr.enter stack (some span) = span :: stack
  leave_none : ∀ stack, tr.leave stack none = stack
  leave_some : ∀ stack span, tr.leave (span :: stack) (some span) = stack

/-- The spans that are entered after the history. -/
def stack (tr : Tracing) : SpanHistory → SpanStack
  | [] => []
  | .enter span :: history => tr.enter (tr.stack history) span
  | .leave span :: history => tr.leave (tr.stack history) span

@[simp] theorem stack_enter (tr : Tracing) (history : SpanHistory) (span : Option Span) :
    tr.stack (history.enter span) = tr.enter (tr.stack history) span := rfl

@[simp] theorem stack_leave (tr : Tracing) (history : SpanHistory) (span : Option Span) :
    tr.stack (history.leave span) = tr.leave (tr.stack history) span := rfl

/-- A library that pushes what is entered and drops the innermost entry of what is left. -/
def lists : Tracing where
  current s := s.head?
  enter s span := span.toList ++ s
  leave
    | s, none => s
    | s, some span => s.erase span

theorem lists_lawful : lists.Lawful where
  current _ := rfl
  enter_none _ := rfl
  enter_some _ _ := rfl
  leave_none _ := rfl
  leave_some s span := List.erase_cons_head span s

end Tracing

/-- A work wrapped in the span it captured; `body` sees the stack it runs under. -/
structure Wrapped (α : Type) where
  captured : Option Span
  body : SpanStack → α

namespace Wrapped

/-- Wraps a work on a thread with the given stack. -/
def capture (tr : Tracing) (s : SpanStack) (body : SpanStack → α) : Wrapped α :=
  ⟨tr.current s, body⟩

/-- One call: what the body gives, and the stack of the calling thread afterwards. -/
def call (w : Wrapped α) (tr : Tracing) (s : SpanStack) : α × SpanStack :=
  let inside := tr.enter s w.captured
  (w.body inside, tr.leave inside w.captured)

/-- Calls the work once per tag, inside a request span of its own where there is a tag; lists what
the calls give, and the stack afterwards. -/
def callEach (w : Wrapped α) (tr : Tracing) (s : SpanStack) :
    List (Option String) → List α × SpanStack
  | [] => ([], s)
  | tag :: tags =>
    let span := tag.map Span.request
    let (a, s) := w.call tr (tr.enter s span)
    let (rest, s) := w.callEach tr (tr.leave s span) tags
    (a :: rest, s)

/-- Enters a request span per tag, wraps a work that looks at its spans, leaves the spans again, and
calls the work once per entry of `calls`. Gives the labels that each call saw, and those left at the
end. -/
def callAll (tags : List String) (calls : List (Option String)) (tr : Tracing := .lists) :
    List (List String) × List String :=
  let spans := tags.map fun tag => some (Span.request tag)
  let inside := spans.foldl tr.enter []
  let w := capture tr inside SpanStack.labels
  let outside := spans.reverse.foldl tr.leave inside
  let (labels, after) := w.callEach tr outside calls
  (labels, after.labels)

end Wrapped

end WorkerPool
