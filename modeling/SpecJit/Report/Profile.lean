import SpecJit.Profile
import SpecJit.Report.Basic

/-!
# Reports on profiles of exits
-/

namespace SpecJit.Report

/-- The values seen at an exit: the ring, and their kinds. -/
def valueProfile (v : ValueProfile) : Json := .arr [list word v.buckets.toList, specType v.observed]

/-- What is known about an exit. -/
def siteProfile (s : SiteProfile) : Json := .arr [nat s.count, option valueProfile s.values]

/-- A profile after a step with a result. -/
def profileStep (result : Json) (p : ExitProfile) : Json :=
  .obj [("result", result), ("total", nat p.total), ("reoptimize", encode p.shouldReoptimize),
    ("sites", list (fun (id, s) => .arr [encode id, nat s.count]) p.sites)]

/-- Whether a profile is read back as it is written, and the profile. -/
def profileRoundTrip (p : ExitProfile) : Json :=
  .arr [encode ((decode (encode p) : Option ExitProfile) == some p), encode p]

/-- A profile after an exit was recorded in it. -/
def recordedProfile (p : ExitProfile) : Json := .arr [encode p.shouldReoptimize, encode p]

end SpecJit.Report
