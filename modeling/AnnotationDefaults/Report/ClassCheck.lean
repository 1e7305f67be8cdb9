import AnnotationDefaults.ClassFile.Format
import AnnotationDefaults.Expectation.Document
import AnnotationDefaults.Report.Comparison
import AnnotationDefaults.Report.Configuration
import AnnotationDefaults.Report.Outcome

set_option autoImplicit false

/-!
The check of a whole class. Each method gets a report of its own: whether it carries
a default as configured, whether there is exactly one, whether it decodes, and
whether its value and its length are as expected. The declared length is compared
with the size that the value has by its shape, if the root has the expected tag. A
class has no report only if its own name or the name of one of its methods does not
resolve.
-/

namespace AnnotationDefaults

namespace AnnotationDefault

def lengthCheck (expected : Tag) (default : AnnotationDefault) : Check :=
  let found := default.value.tag
  if found ≠ expected then .tagMismatch expected found
  else
    let computed := default.value.encodedSize
    if computed = default.declaredLength then .agreed
    else .lengthMismatch computed default.declaredLength

def lengthOutcome (expected : Tag) (default : AnnotationDefault) : Outcome :=
  ⟨Outcome.rootPath, "check length : " ++ expected.symbol.toString, lengthCheck expected default⟩

end AnnotationDefault

structure MethodReport where
  name : String
  outcomes : List Outcome
  deriving DecidableEq, Repr

structure ClassReport where
  className : String
  configuration : Configuration
  methods : List MethodReport
  deriving DecidableEq, Repr

namespace MethodReport

def failures (report : MethodReport) : List Outcome :=
  report.outcomes.filter fun outcome => !outcome.isMatch

end MethodReport

namespace ClassReport

def failures (report : ClassReport) : List (String × Outcome) :=
  report.methods.flatMap fun method => method.failures.map fun outcome => (method.name, outcome)

def comparisons (report : ClassReport) : Nat :=
  report.methods.foldl (fun total method => total + method.outcomes.length) 0

def passed (report : ClassReport) : Bool := report.failures.isEmpty

end ClassReport

namespace ClassCheck

open AnnotationDefault (attributeName)

def rootOutcome (description : String) (check : Check) : Outcome :=
  ⟨Outcome.rootPath, description, check⟩

def presenceOutcome (present expected : Bool) : Outcome :=
  rootOutcome ("check " ++ attributeName ++ " presence")
    (if present = expected then .agreed else .presenceMismatch expected)

def countOutcome (count : Nat) : Outcome :=
  rootOutcome ("number of " ++ attributeName ++ " attributes")
    (if count = 1 then .agreed else .arityMismatch 1 count)

def nameOutcome (pool : ConstantPool) (default : AnnotationDefault) : Outcome :=
  rootOutcome ("check " ++ attributeName ++ " attribute name")
    (Comparison.textCheck pool default.nameIndex attributeName)

def valueOutcomes (pool : ConstantPool) (expectations : ExpectationSet) (method : String)
    (default : AnnotationDefault) : List Outcome :=
  nameOutcome pool default ::
    match expectations.get? method with
    | none => [rootOutcome "find expected value" (.missingField method .expected)]
    | some expected =>
        Comparison.outcomes pool default.value expected ++
          [default.lengthOutcome default.value.tag]

/-- The outcomes of a method that carries the defaults `first :: others`. -/
def defaultOutcomes (pool : ConstantPool) (expectations : ExpectationSet) (method : String)
    (first : Attribute) (others : List Attribute) : List Outcome :=
  countOutcome (others.length + 1) ::
    match AnnotationDefault.ofAttribute first with
    | .error cause => [rootOutcome "decode default value" (.malformed (.fault cause))]
    | .ok default => valueOutcomes pool expectations method default

def methodOutcomes (pool : ConstantPool) (expectations : ExpectationSet)
    (configuration : Configuration) (method : String) (member : Member) : List Outcome :=
  match member.defaults pool with
  | [] => [presenceOutcome false configuration.expectsDefault]
  | first :: others =>
      presenceOutcome true configuration.expectsDefault ::
        if configuration.expectsDefault then
          defaultOutcomes pool expectations method first others
        else []

def methodReports (pool : ConstantPool) (expectations : ExpectationSet)
    (configuration : Configuration) : List Member → Except Fault (List MethodReport)
  | [] => .ok []
  | member :: rest => do
      let name ← member.name pool
      let reports ← methodReports pool expectations configuration rest
      return ⟨name, methodOutcomes pool expectations configuration name member⟩ :: reports

def run (file : ClassFile) (expectations : ExpectationSet) (configuration : Configuration) :
    Except Fault ClassReport := do
  let className ← file.name
  let methods ← methodReports file.pool expectations configuration file.methods
  return ⟨className, configuration, methods⟩

end ClassCheck

end AnnotationDefaults
