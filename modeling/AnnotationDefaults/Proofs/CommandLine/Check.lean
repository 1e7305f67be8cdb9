import AnnotationDefaults.CommandLine.Run
import AnnotationDefaults.Proofs.Expectation.Document
import AnnotationDefaults.Proofs.Report.Text
import AnnotationDefaults.Proofs.Report.Verdict

set_option autoImplicit false

/-!
The outcome of a check in its three forms. The status tells whether the check was completed
and whether every outcome was a match; the JSON report carries the same verdict, and the text
report carries it method by method.
-/

namespace AnnotationDefaults

theorem textOfLines_singleton (line : String) : textOfLines [line] = line ++ "\n" :=
  String.empty_append

namespace Command

variable {files : Files} {path expect : String} {configuration : Configuration} {json : Bool}
  {file : ClassFile} {report : ClassReport}

theorem runCheck_of_ok (hReport : checkReport files path expect configuration = .ok report) :
    runCheck files path expect configuration json =
      ⟨if report.passed then 0 else 1,
        if json then (checkJson path report).indented ++ "\n"
        else textOfLines (report.lines path), ""⟩ := by
  rw [runCheck, hReport, ← textOfLines_singleton]

theorem runCheck_exit_of_ok (hReport : checkReport files path expect configuration = .ok report) :
    (runCheck files path expect configuration json).exit = if report.passed then 0 else 1 := by
  rw [runCheck_of_ok hReport]

theorem runCheck_exit_of_error {cause : Fault}
    (hReport : checkReport files path expect configuration = .error cause) :
    (runCheck files path expect configuration json).exit = 2 := by
  rw [runCheck, hReport]
  rfl

/-! ### The status -/

end Command

end AnnotationDefaults
