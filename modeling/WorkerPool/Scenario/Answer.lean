import WorkerPool.Scenario.Schedule

/-!
The answers of a script: one record per step, with as much of the state as was asked for.
-/
namespace WorkerPool.Scenario

/-- How much of the state follows each answer. -/
inductive Snapshot
  | all
  | pools
  | none
  deriving DecidableEq, Repr, Inhabited

structure Options where
  snapshot : Snapshot := .all
  live : Bool := false
  log : Bool := false
  trace : Bool := false
  deriving Repr, Inhabited

namespace Session

def reportPools (s : Session) : Value :=
  .record (s.pools.filterMap fun (name, p) =>
    s.system.pools[p]?.map fun pool => (name, pool.reportCounts))

/-- State and ownership of every task, or that its handle is gone. -/
def reportTasks (s : Session) : Value :=
  .record ((s.entries.zip s.system.tasks).map fun (entry, task) =>
    (entry.name, if task.handle then task.reportState else .text "gone"))

/-- The works and values of every task that have not been destroyed. -/
def reportLive (s : Session) : Value :=
  .record (s.entries.map fun entry =>
    (entry.name, .list [.nat entry.liveWorks, .nat entry.liveValues]))

/-- The answer of a step with what happened during it and the state after it. Pools that never
settle are marked. -/
def report (s : Session) (o : Options) (answer : Value) : Value :=
  .record ([("r", answer)]
    ++ (if s.events.isEmpty then [] else [("ev", .list s.events.reverse)])
    ++ (if o.snapshot = .none then [] else [("p", s.reportPools)])
    ++ (if o.snapshot = .all then [("t", s.reportTasks)] else [])
    ++ (if o.live then [("l", s.reportLive)] else [])
    ++ (if o.log then [("log", .list (s.logs.reverse.map LogRecord.report))] else [])
    ++ (if o.trace then [("trace", .list (s.metrics.reverse.map Metric.report))] else [])
    ++ (if s.poolsSettled then [] else [("unsettled", .flag true)]))

end Session

/-- The answers of a whole script. -/
def runScript (o : Options) (commands : List Command) : List Value :=
  (commands.foldl (fun (s, answers) command =>
    let (s, answer) := s.execute command
    (s, s.report o answer :: answers)) (({} : Session), [])).2.reverse

end WorkerPool.Scenario
