import AnnotationDefaults.Proofs.Report.ClassCheck
import AnnotationDefaults.Report.Output
import Mathlib.Algebra.Ring.Nat

set_option autoImplicit false

/-!
The records of a text report. A method's lines are those of one record, a pass or a failure,
and the totals at the end of the report are the sums of what the records say.
-/

namespace AnnotationDefaults

/-- What a text report says about one method. -/
inductive MethodRecord where
  | pass (name : String) (total : Nat)
  | fail (name : String) (failed total : Nat) (details : List String)
  deriving DecidableEq, Repr

namespace MethodRecord

def name : MethodRecord → String
  | .pass name _ => name
  | .fail name _ _ _ => name

def total : MethodRecord → Nat
  | .pass _ total => total
  | .fail _ _ total _ => total

def failed : MethodRecord → Nat
  | .pass _ _ => 0
  | .fail _ failed _ _ => failed

def lines : MethodRecord → List String
  | .pass name total => ["PASS " ++ name ++ " (" ++ Integer.render total ++ " checks)"]
  | .fail name failed total details =>
      ("FAIL " ++ name ++ " (" ++ Integer.render failed ++ " of " ++ Integer.render total ++
        " checks)") :: details.map fun detail => "  " ++ detail

end MethodRecord

namespace MethodReport

def record (report : MethodReport) : MethodRecord :=
  match report.failures with
  | [] => .pass report.name report.outcomes.length
  | failures =>
      .fail report.name failures.length report.outcomes.length (failures.map Outcome.message)

variable {report : MethodReport}

end MethodReport

namespace ClassReport

variable {report : ClassReport}

end ClassReport

end AnnotationDefaults
