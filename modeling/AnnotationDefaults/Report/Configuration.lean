set_option autoImplicit false

/-!
Configurations of a class check. Retention and repeatability only label a report;
the third choice says whether methods are to carry defaults.
-/

namespace AnnotationDefaults

inductive Retention where
  | source
  | classFile
  | runtime
  deriving DecidableEq, Repr

inductive Repeatability where
  | single
  | repeatable
  deriving DecidableEq, Repr

inductive DefaultPresence where
  | present
  | stripped
  deriving DecidableEq, Repr

def Retention.name : Retention → String
  | .source => "source"
  | .classFile => "class"
  | .runtime => "runtime"

def Repeatability.name : Repeatability → String
  | .single => "single"
  | .repeatable => "repeatable"

def DefaultPresence.name : DefaultPresence → String
  | .present => "present"
  | .stripped => "stripped"

def Retention.all : List Retention := [.source, .classFile, .runtime]

def Retention.ofName? (name : String) : Option Retention :=
  Retention.all.find? fun retention => retention.name == name

structure Configuration where
  retention : Retention := .runtime
  repeatability : Repeatability := .single
  defaults : DefaultPresence := .present
  deriving DecidableEq, Repr

namespace Configuration

/-- Every configuration: presence outermost, then repeatability, then retention. -/
def matrix : List Configuration :=
  [DefaultPresence.present, .stripped].flatMap fun defaults =>
    [Repeatability.single, .repeatable].flatMap fun repeatability =>
      Retention.all.map fun retention => ⟨retention, repeatability, defaults⟩

def expectsDefault (configuration : Configuration) : Bool :=
  configuration.defaults == .present

end Configuration

end AnnotationDefaults
