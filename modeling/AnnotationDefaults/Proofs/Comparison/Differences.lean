import AnnotationDefaults.Proofs.Comparison.Conformance
import AnnotationDefaults.Proofs.Comparison.Outcomes
import AnnotationDefaults.Proofs.Comparison.Position

set_option autoImplicit false

/-!
What a comparison of values of one shape reports. Such values can only differ in what their
leaves refer to, and the failures are the differing leaves one by one: each once, in the order
of the expectation, under the path of the value that it belongs to, with both contents.
-/

namespace AnnotationDefaults

namespace Comparison

variable {pool : ConstantPool} {path : String} {node : DecodedElement}
  {role : LeafRole} {index : UInt16} {text : String}

/-! ### Single leaves -/

/-- The leaf refers to something that the text can be compared with. A literal resolves and its
token is one of its kind; a name is the same; any other leaf refers to a text. -/
def LeafComparable (pool : ConstantPool) : LeafRole → UInt16 → String → Prop
  | .literal kind, index, token => (∃ found, Scalar.resolve pool kind index = .ok found) ∧
      ∃ wanted, Scalar.ofToken kind token = .ok wanted
  | .pairName, index, name => pool.utf8 index = .ok name
  | _, index, _ => ∃ text, pool.utf8 index = .ok text

def LeafShows (pool : ConstantPool) : LeafRole → UInt16 → String → Prop
  | .literal kind, index, found => ∃ value, Scalar.resolve pool kind index = .ok value ∧
      found = foundText kind value
  | _, index, found => pool.utf8 index = .ok found

def leafDescription : LeafRole → String
  | .literal kind => "check " ++ kind.name ++ " value"
  | .enumType => "check enum type"
  | .enumConstant => "check enum constant"
  | .classDescriptor => "check class descriptor"
  | .annotationType => "check annotation type"
  -- a name is no leaf of an expectation: it is recorded only if it does not resolve
  | .pairName => "resolve element name"

def leafCheck (pool : ConstantPool) : LeafRole → UInt16 → String → Check
  | .literal kind, index, token => literalCheck pool kind index token
  | _, index, text => textCheck pool index text

theorem leafCheck_eq_agreed_iff :
    leafCheck pool role index text = .agreed ↔ LeafConforms pool role index text := by
  cases role with
  | literal kind => exact literalCheck_eq_agreed_iff
  | _ => exact textCheck_eq_agreed_iff

instance : Decidable (LeafConforms pool role index text) :=
  decidable_of_iff _ leafCheck_eq_agreed_iff

theorem literalCheck_of_comparable {kind : LiteralTag} {token : String}
    (hComparable : LeafComparable pool (.literal kind) index token)
    (hDiffers : ¬ LeafConforms pool (.literal kind) index token) :
    ∃ found, LeafShows pool (.literal kind) index found ∧
      literalCheck pool kind index token = .valueMismatch token found := by
  obtain ⟨⟨value, hValue⟩, wanted, hWanted⟩ := hComparable
  have hDisagree : ¬ value.agrees wanted = true := by
    intro hAgree
    exact hDiffers ⟨value, wanted, hValue, hWanted, hAgree⟩
  have hCheck : literalCheck pool kind index token =
      .valueMismatch token (foundText kind value) := by
    simp only [literalCheck, hValue, hWanted, if_neg hDisagree]
  exact ⟨foundText kind value, ⟨value, hValue, rfl⟩, hCheck⟩

theorem textCheck_of_comparable {found : String} (hFound : pool.utf8 index = .ok found)
    (hDiffers : ¬ pool.utf8 index = .ok text) :
    textCheck pool index text = .valueMismatch text found := by
  have hDisagree : ¬ found = text := by
    intro hSame
    rw [hSame] at hFound
    exact hDiffers hFound
  simp only [textCheck, hFound, if_neg hDisagree]

theorem leafCheck_of_comparable (hComparable : LeafComparable pool role index text)
    (hDiffers : ¬ LeafConforms pool role index text) :
    ∃ found, LeafShows pool role index found ∧
      leafCheck pool role index text = .valueMismatch text found := by
  cases role with
  | literal kind => exact literalCheck_of_comparable hComparable hDiffers
  | pairName => exact absurd hComparable hDiffers
  | _ =>
      obtain ⟨found, hFound⟩ := hComparable
      exact ⟨found, hFound, textCheck_of_comparable hFound hDiffers⟩

/-! ### Reports -/

/-- At the position of the leaf, the decoded value refers to something else. -/
def Differs (pool : ConstantPool) (node : DecodedElement) (leaf : ExpectedLeaf) : Prop :=
  ∃ index ∈ node.indexAt? pool leaf.steps leaf.role, ¬ LeafConforms pool leaf.role index leaf.text

instance {leaf : ExpectedLeaf} : Decidable (Differs pool node leaf) :=
  inferInstanceAs (Decidable (∃ index ∈ node.indexAt? pool leaf.steps leaf.role,
    ¬ LeafConforms pool leaf.role index leaf.text))

def Reports (pool : ConstantPool) (path : String) (node : DecodedElement) (leaf : ExpectedLeaf)
    (outcome : Outcome) : Prop :=
  ∃ index found, node.indexAt? pool leaf.steps leaf.role = some index ∧
    LeafShows pool leaf.role index found ∧
    outcome = ⟨Step.pathFrom path leaf.steps, leafDescription leaf.role,
      .valueMismatch leaf.text found⟩

/-- Every leaf has its place in the decoded value, and the failures are the reports of those
leaves that differ, in order. -/
structure Accounts (pool : ConstantPool) (path : String) (node : DecodedElement)
    (leaves : List ExpectedLeaf) (outcomes : List Outcome) : Prop where
  located : ∀ leaf ∈ leaves, ∃ index, node.indexAt? pool leaf.steps leaf.role = some index
  reported : List.Forall₂ (Reports pool path node)
    (leaves.filter fun leaf => Differs pool node leaf)
    (outcomes.filter fun outcome => !outcome.isMatch)

namespace Accounts

variable {leaves : List ExpectedLeaf} {outcomes : List Outcome}

theorem nil : Accounts pool path node [] [] :=
  ⟨List.forall_mem_nil _, .nil⟩

theorem append {others : List ExpectedLeaf} {rest : List Outcome}
    (hFirst : Accounts pool path node leaves outcomes)
    (hSecond : Accounts pool path node others rest) :
    Accounts pool path node (leaves ++ others) (outcomes ++ rest) := by
  constructor
  · exact List.forall_mem_append.2 ⟨hFirst.located, hSecond.located⟩
  · rw [List.filter_append, List.filter_append]
    exact List.rel_append hFirst.reported hSecond.reported

theorem leaf (hIndex : node.leaf? role = some index)
    (hComparable : LeafComparable pool role index text) :
    Accounts pool path node [⟨[], role, text⟩]
      [⟨path, leafDescription role, leafCheck pool role index text⟩] := by
  have hLocated : node.indexAt? pool [] role = some index := hIndex
  constructor
  · rw [List.forall_mem_singleton]
    exact ⟨index, hLocated⟩
  · by_cases hConforms : LeafConforms pool role index text
    · have hAgreed := leafCheck_eq_agreed_iff.2 hConforms
      have hSame : ¬ Differs pool node ⟨[], role, text⟩ := by
        intro hDiffers
        obtain ⟨other, hOther, hApart⟩ := hDiffers
        cases hLocated.symm.trans hOther
        exact hApart hConforms
      simp [hAgreed, hSame, Outcome.isMatch]
    · obtain ⟨found, hShown, hCheck⟩ := leafCheck_of_comparable hComparable hConforms
      have hDiffers : Differs pool node ⟨[], role, text⟩ := ⟨index, hLocated, hConforms⟩
      have hReports : Reports pool path node ⟨[], role, text⟩
          ⟨path, leafDescription role, .valueMismatch text found⟩ :=
        ⟨index, found, hLocated, hShown, rfl⟩
      simp [hCheck, hDiffers, hReports, Outcome.isMatch]

theorem under {step : Step} {value : DecodedElement}
    (hChild : node.child? (DecodedElement.isNamed pool) step = some value)
    (hValue : Accounts pool (step.extend path) value leaves outcomes) :
    Accounts pool path node (leaves.map (ExpectedLeaf.under step)) outcomes := by
  have hIndex (leaf : ExpectedLeaf) :
      node.indexAt? pool (leaf.under step).steps (leaf.under step).role =
        value.indexAt? pool leaf.steps leaf.role := by
    rw [DecodedElement.indexAt?, ExpectedLeaf.under, Element.reach?, hChild]
    rfl
  have hDiffers (leaf : ExpectedLeaf) :
      Differs pool node (leaf.under step) ↔ Differs pool value leaf := by
    rw [Differs, hIndex]
    rfl
  constructor
  · rw [List.forall_mem_map]
    intro leaf hLeaf
    rw [hIndex]
    exact hValue.located leaf hLeaf
  · rw [List.filter_map, List.forall₂_map_left_iff]
    simp only [Function.comp_def, hDiffers]
    apply hValue.reported.imp
    intro leaf outcome hReports
    obtain ⟨index, found, hLocated, hShown, hOutcome⟩ := hReports
    exact ⟨index, found, (hIndex leaf).trans hLocated, hShown, hOutcome⟩

end Accounts

/-! ### Values of one shape -/

/-- The two values have equal tags everywhere and arrays of equal lengths, in each annotation
the same names, none of them twice, and leaves that can be compared. -/
structure SameShape (pool : ConstantPool) (node : DecodedElement) (expected : ExpectedElement) :
    Prop where
  shape : Element.Corresponds (LeafComparable pool) node expected
  names : Element.NamesApart Eq expected

end Comparison

end AnnotationDefaults
