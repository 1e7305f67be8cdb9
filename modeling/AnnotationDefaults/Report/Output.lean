import AnnotationDefaults.Json.Value
import AnnotationDefaults.Report.ClassCheck

set_option autoImplicit false

/-!
What a check prints. The text form of a class report is a head, one record for each
method with its failed outcomes below it, and the totals; names are written as they
are. In the JSON form the result of a comparison is an object whose first member is
its label and whose others are the data of that kind of result.
-/

namespace AnnotationDefaults

def textOfLines (lines : List String) : String :=
  String.join (lines.map fun line => line ++ "\n")

/-- The record of a method: a pass with the number of its checks, or a failure with
the failed outcomes. -/
def MethodReport.lines (report : MethodReport) : List String :=
  let total := Integer.render report.outcomes.length
  match report.failures with
  | [] => ["PASS " ++ report.name ++ " (" ++ total ++ " checks)"]
  | failures =>
      ("FAIL " ++ report.name ++ " (" ++ Integer.render failures.length ++ " of " ++ total ++
        " checks)") :: failures.map fun outcome => "  " ++ outcome.message

def Configuration.line (configuration : Configuration) : String :=
  "config: retention=" ++ configuration.retention.name ++ " repeatability=" ++
    configuration.repeatability.name ++ " defaults=" ++ configuration.defaults.name

def ClassReport.lines (path : String) (report : ClassReport) : List String :=
  ["path: " ++ path, "class: " ++ report.className, report.configuration.line] ++
    report.methods.flatMap MethodReport.lines ++
    ["comparisons: " ++ Integer.render report.comparisons,
      "failures: " ++ Integer.render report.failures.length]

def Tag.toJson (tag : Tag) : Json := .string tag.symbol.toString

namespace Check

def details : Check → List (String × Json)
  | .agreed => []
  | .tagMismatch expected found => [("expected", expected.toJson), ("found", found.toJson)]
  | .valueMismatch expected found =>
      [("expected", .string expected), ("found", .string found)]
  | .arityMismatch expected found =>
      [("expected", .natural expected), ("found", .natural found)]
  | .lengthMismatch computed declared =>
      [("computed", .natural computed), ("declared", .natural declared)]
  | .missingField name missingFrom =>
      [("name", .string name), ("missing_from", .string missingFrom.name)]
  | .presenceMismatch expectedPresent => [("expected_present", .bool expectedPresent)]
  | .malformed trouble => [("reason", .string trouble.message)]

def toJson (check : Check) : Json :=
  .object (("kind", .string check.label) :: check.details)

end Check

def Outcome.toJson (outcome : Outcome) : Json :=
  .object [("path", .string outcome.path), ("description", .string outcome.description),
    ("check", outcome.check.toJson)]

def Configuration.toJson (configuration : Configuration) : Json :=
  .object [("retention", .string configuration.retention.name),
    ("repeatability", .string configuration.repeatability.name),
    ("defaults", .string configuration.defaults.name)]

def MethodReport.toJson (report : MethodReport) : Json :=
  .object [("name", .string report.name), ("outcomes", .array (report.outcomes.map Outcome.toJson))]

def ClassReport.toJson (report : ClassReport) : Json :=
  .object [("class_name", .string report.className), ("config", report.configuration.toJson),
    ("methods", .array (report.methods.map MethodReport.toJson))]

end AnnotationDefaults
