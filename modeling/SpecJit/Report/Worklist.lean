import SpecJit.Report.Lowering
import SpecJit.Worklist.Pool

/-!
# Reports on worklists
-/

namespace SpecJit.Report

def worklistStats (s : WorklistStats) : Json :=
  .obj [("enqueued", nat s.enqueued), ("compiled", nat s.compiled), ("failed", nat s.failed),
    ("abandoned", nat s.abandoned), ("completed", nat s.completed)]

/-- Text that shows a pool. -/
def poolText (p : CompilePool) : String :=
  let s := p.worklist.stats
  let name := Text.quote p.worklist.name
  s!"Worklist \x7b name: {name}, background: {p.background}, stats: WorklistStats \x7b " ++
    s!"enqueued: {s.enqueued}, compiled: {s.compiled}, failed: {s.failed}, " ++
    s!"abandoned: {s.abandoned}, completed: {s.completed} \x7d \x7d"

/-- A function that a plan lowered. -/
def planned (f : LoweredFunction) : Json :=
  .obj [("stats", loweringStats f.stats), ("insts", nat f.lir.instCount), ("name", .str f.lir.name)]

def worklistConfig (c : WorklistConfig) : Json :=
  .obj [("name", .str c.name), ("threads", nat c.threads), ("background", encode c.background),
    ("workers", nat c.workers)]

end SpecJit.Report
