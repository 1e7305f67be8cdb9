import AnnotationDefaults.Proofs.Comparison.Acceptance
import AnnotationDefaults.Report.ClassCheck

set_option autoImplicit false

/-!
When the check of a class passes. A class has a report exactly if its own name and the
names of its methods resolve, the report has one entry for each method in declaration
order, and it passes if every outcome of every method is a match. Where defaults are
expected, a method passes exactly if it carries one default that decodes, is accepted
by the expectation of the method's name, and has the length that its value needs.
-/

namespace AnnotationDefaults

theorem Attribute.isNamed_iff {entry : Attribute} {pool : ConstantPool} {text : String} :
    entry.isNamed pool text = true ↔ pool.utf8 entry.nameIndex = .ok text := by
  unfold Attribute.isNamed Attribute.name
  cases hName : pool.utf8 entry.nameIndex with
  | error cause => simp
  | ok name => simp

theorem Member.mem_defaults_iff {member : Member} {pool : ConstantPool} {entry : Attribute} :
    entry ∈ member.defaults pool ↔ entry ∈ member.attributes ∧
      pool.utf8 entry.nameIndex = .ok AnnotationDefault.attributeName := by
  rw [Member.defaults, Member.attributesNamed, List.mem_filter, Attribute.isNamed_iff]

theorem AnnotationDefault.nameIndex_of_ofAttribute {entry : Attribute}
    {default : AnnotationDefault} (hDefault : ofAttribute entry = .ok default) :
    default.nameIndex = entry.nameIndex := by
  obtain ⟨found, -, hResult⟩ := bind_eq_ok_iff.1 hDefault
  rw [← pure_eq_ok_iff.1 hResult]

theorem AnnotationDefault.lengthOutcome_isMatch {default : AnnotationDefault} :
    (default.lengthOutcome default.value.tag).isMatch = true ↔
      default.value.encodedSize = default.declaredLength := by
  rw [lengthOutcome, Outcome.isMatch_mk, lengthCheck]
  dsimp only
  rw [if_neg (fun hDifferent => hDifferent rfl)]
  by_cases hLength : default.value.encodedSize = default.declaredLength
  · simp [hLength]
  · simp [hLength]

theorem MethodReport.failures_eq_nil_iff {report : MethodReport} :
    report.failures = [] ↔ AllMatch report.outcomes := by
  rw [failures, List.filter_eq_nil_iff]
  apply forall₂_congr
  intro outcome hOutcome
  rw [Bool.not_eq_true, Bool.not_eq_false']

theorem ClassReport.passed_iff {report : ClassReport} :
    report.passed = true ↔ ∀ method ∈ report.methods, AllMatch method.outcomes := by
  rw [ClassReport.passed, ClassReport.failures, List.isEmpty_iff, List.flatMap_eq_nil_iff]
  apply forall₂_congr
  intro method hMethod
  rw [List.map_eq_nil_iff, MethodReport.failures_eq_nil_iff]

namespace ClassCheck

variable {pool : ConstantPool} {expectations : ExpectationSet} {configuration : Configuration}

theorem methodReports_eq_ok_iff {methods : List Member} {reports : List MethodReport} :
    methodReports pool expectations configuration methods = .ok reports ↔
      List.Forall₂ (fun member report => member.name pool = .ok report.name ∧
        report.outcomes = methodOutcomes pool expectations configuration report.name member)
        methods reports := by
  induction methods generalizing reports with
  | nil =>
      rw [methodReports, Except.ok.injEq, List.forall₂_nil_left_iff]
      exact eq_comm
  | cons member rest ih =>
      simp only [methodReports, bind_eq_ok_iff, pure_eq_ok_iff, List.forall₂_cons_left_iff]
      constructor
      · intro hGiven
        rcases hGiven with ⟨name, hName, others, hOthers, rfl⟩
        exact ⟨⟨name, _⟩, others, ⟨hName, rfl⟩, ih.1 hOthers, rfl⟩
      · intro hGiven
        rcases hGiven with ⟨⟨name, outcomes⟩, others, ⟨hName, hOutcomes⟩, hOthers, rfl⟩
        exact ⟨name, hName, others, ih.2 hOthers, by rw [← hOutcomes]⟩

theorem exists_methodReports {methods : List Member}
    (hNames : ∀ member ∈ methods, ∃ name, member.name pool = .ok name) :
    ∃ reports, methodReports pool expectations configuration methods = .ok reports := by
  induction methods with
  | nil => exact ⟨[], rfl⟩
  | cons member rest ih =>
      rw [List.forall_mem_cons] at hNames
      rcases hNames.1 with ⟨name, hName⟩
      obtain ⟨reports, hReports⟩ := ih hNames.2
      rw [methodReports, hName, hReports]
      exact ⟨_, rfl⟩

private theorem allMatch_valueOutcomes_iff {method : String} {default : AnnotationDefault}
    (hName : pool.utf8 default.nameIndex = .ok AnnotationDefault.attributeName) :
    AllMatch (valueOutcomes pool expectations method default) ↔
      ∃ expected, expectations.get? method = some expected ∧
        Comparison.Accepts pool default.value expected ∧
        default.value.encodedSize = default.declaredLength := by
  rw [valueOutcomes, AllMatch.cons_iff, nameOutcome, rootOutcome, Outcome.isMatch_mk,
    Comparison.textCheck_eq_agreed_iff]
  cases hExpected : expectations.get? method with
  | none => simp [rootOutcome]
  | some expected =>
      simp [hName, Comparison.Accepts, AnnotationDefault.lengthOutcome_isMatch]

theorem allMatch_methodOutcomes_iff {method : String} {member : Member}
    (hPresent : configuration.expectsDefault = true) :
    AllMatch (methodOutcomes pool expectations configuration method member) ↔
      ∃ entry default expected, member.defaults pool = [entry] ∧
        AnnotationDefault.ofAttribute entry = .ok default ∧
        expectations.get? method = some expected ∧
        Comparison.Accepts pool default.value expected ∧
        default.value.encodedSize = default.declaredLength := by
  rw [methodOutcomes]
  cases hDefaults : member.defaults pool with
  | nil => simp [presenceOutcome, rootOutcome, hPresent]
  | cons first others =>
      have hNamed := (Member.mem_defaults_iff.1 (hDefaults ▸ List.mem_cons_self)).2
      dsimp only
      rw [AllMatch.cons_iff, if_pos hPresent, presenceOutcome, rootOutcome, Outcome.isMatch_mk,
        hPresent, if_pos rfl, defaultOutcomes, AllMatch.cons_iff, countOutcome, rootOutcome,
        Outcome.isMatch_mk]
      constructor
      · intro hGiven
        rcases hGiven with ⟨-, hCount, hRest⟩
        cases others with
        | cons second others => simp at hCount
        | nil =>
            cases hDefault : AnnotationDefault.ofAttribute first with
            | error cause =>
                rw [hDefault] at hRest
                simp [rootOutcome] at hRest
            | ok default =>
                rw [hDefault] at hRest
                rw [← AnnotationDefault.nameIndex_of_ofAttribute hDefault] at hNamed
                obtain ⟨expected, hExpected, hMatch⟩ := (allMatch_valueOutcomes_iff hNamed).1 hRest
                exact ⟨first, default, expected, rfl, hDefault, hExpected, hMatch⟩
      · intro hGiven
        rcases hGiven with ⟨entry, default, expected, hEntry, hDefault, hExpected, hMatch⟩
        rcases List.cons.inj hEntry with ⟨rfl, rfl⟩
        rw [← AnnotationDefault.nameIndex_of_ofAttribute hDefault] at hNamed
        rw [hDefault]
        exact ⟨rfl, rfl, (allMatch_valueOutcomes_iff hNamed).2 ⟨expected, hExpected, hMatch⟩⟩

end ClassCheck

end AnnotationDefaults
