import AnnotationDefaults.Element.Tag
import AnnotationDefaults.Scalar.Token

set_option autoImplicit false

/-!
Outcomes of single comparisons. An outcome says where in the value tree something
was compared, what it was, and how the comparison went; each kind of result has a
fixed label and a fixed wording.
-/

namespace AnnotationDefaults

inductive Side where
  | node
  | expected
  deriving DecidableEq, Repr

inductive Trouble where
  | fault (cause : Fault)
  | token (cause : TokenFault)
  deriving DecidableEq, Repr

def Trouble.message : Trouble → String
  | .fault cause => cause.message
  | .token cause => cause.message

inductive Check where
  | agreed
  | tagMismatch (expected found : Tag)
  | valueMismatch (expected found : String)
  | arityMismatch (expected found : Nat)
  | lengthMismatch (computed declared : Nat)
  | missingField (name : String) (missingFrom : Side)
  | presenceMismatch (expectedPresent : Bool)
  | malformed (trouble : Trouble)
  deriving DecidableEq, Repr

namespace Side

def name : Side → String
  | .node => "node"
  | .expected => "expected"

def description : Side → String
  | .node => "class file"
  | .expected => "expectation"

end Side

namespace Check

def label : Check → String
  | .agreed => "match"
  | .tagMismatch _ _ => "tag_mismatch"
  | .valueMismatch _ _ => "value_mismatch"
  | .arityMismatch _ _ => "arity_mismatch"
  | .lengthMismatch _ _ => "length_mismatch"
  | .missingField _ _ => "missing_field"
  | .presenceMismatch _ => "presence_mismatch"
  | .malformed _ => "malformed"

def message : Check → String
  | .agreed => "ok"
  | .tagMismatch expected found =>
      "tag mismatch: expected " ++ expected.symbol.toString ++ ", found " ++
        found.symbol.toString
  | .valueMismatch expected found => "value mismatch: expected " ++ expected ++ ", found " ++ found
  | .arityMismatch expected found =>
      "count mismatch: expected " ++ Integer.render expected ++ ", found " ++
        Integer.render found
  | .lengthMismatch computed declared =>
      "length mismatch: computed " ++ Integer.render computed ++ ", declared " ++
        Integer.render declared
  | .missingField name missingFrom =>
      "element " ++ name ++ " missing from " ++ missingFrom.description
  | .presenceMismatch true => "attribute expected but absent"
  | .presenceMismatch false => "attribute present but not expected"
  | .malformed trouble => "malformed: " ++ trouble.message

end Check

structure Outcome where
  path : String
  description : String
  check : Check
  deriving DecidableEq, Repr

namespace Outcome

def rootPath : String := "default"

def isMatch (outcome : Outcome) : Bool := outcome.check == .agreed

def message (outcome : Outcome) : String :=
  outcome.path ++ ": " ++ outcome.description ++ ": " ++ outcome.check.message

end Outcome

end AnnotationDefaults
