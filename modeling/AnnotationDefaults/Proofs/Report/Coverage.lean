import AnnotationDefaults.Proofs.Report.Verdict

set_option autoImplicit false

/-!
Which expectations a check looks at. A check goes through the methods of the class, so a
report that passes has compared the default of every method with the expectation of the
method's name. An expectation under a name that no method has is not looked at, and the
report is the same without it.
-/

namespace AnnotationDefaults.ClassCheck

variable {pool : ConstantPool} {expectations other : ExpectationSet}
  {configuration : Configuration} {member : Member} {name : String}

/-- The method has one default. It decodes, and among the recorded outcomes are those of
comparing its value with the expectation, every one of them a match. -/
def VerifiedBy (pool : ConstantPool) (member : Member) (recorded : List Outcome)
    (expected : ExpectedElement) : Prop :=
  ∃ entry default, member.HasJustDefault pool entry ∧
    AnnotationDefault.ofAttribute entry = .ok default ∧
    Comparison.outcomes pool default.value expected <:+: recorded ∧
    ∀ outcome ∈ Comparison.outcomes pool default.value expected, outcome.isMatch = true

/-! ### What is compared -/

theorem outcomes_infix_methodOutcomes {entry : Attribute} {default : AnnotationDefault}
    {expected : ExpectedElement} (hPresent : configuration.expectsDefault = true)
    (hDefaults : member.defaults pool = [entry])
    (hDefault : AnnotationDefault.ofAttribute entry = .ok default)
    (hExpected : expectations.get? name = some expected) :
    Comparison.outcomes pool default.value expected <:+:
      methodOutcomes pool expectations configuration name member := by
  have hOutcomes : methodOutcomes pool expectations configuration name member =
      [presenceOutcome true true, countOutcome 1, nameOutcome pool default] ++
        Comparison.outcomes pool default.value expected ++
          [default.lengthOutcome default.value.tag] := by
    rw [methodOutcomes, hDefaults]
    dsimp only
    rw [hPresent, if_pos rfl, defaultOutcomes, hDefault]
    dsimp only
    rw [valueOutcomes, hExpected]
    rfl
  rw [hOutcomes]
  exact ⟨_, _, rfl⟩

theorem verifiedBy_of_allMatch {expected : ExpectedElement}
    (hPresent : configuration.expectsDefault = true)
    (hExpected : expectations.get? name = some expected)
    (hMatch : AllMatch (methodOutcomes pool expectations configuration name member)) :
    VerifiedBy pool member (methodOutcomes pool expectations configuration name member)
      expected := by
  obtain ⟨entry, default, found, hDefaults, hDefault, hFound, hAccepts, -⟩ :=
    (allMatch_methodOutcomes_iff hPresent).1 hMatch
  cases hExpected.symm.trans hFound
  have hInfix := outcomes_infix_methodOutcomes hPresent hDefaults hDefault hExpected
  exact ⟨entry, default, Member.defaults_eq_singleton_iff.1 hDefaults, hDefault, hInfix, hAccepts⟩

/-! ### What is not looked at -/

theorem methodOutcomes_of_get?_eq (hSame : other.get? name = expectations.get? name) :
    methodOutcomes pool other configuration name member =
      methodOutcomes pool expectations configuration name member := by
  simp only [methodOutcomes, defaultOutcomes, valueOutcomes, hSame]

theorem methodReports_of_get?_eq {methods : List Member}
    (hSame : ∀ member ∈ methods, ∀ name, member.name pool = .ok name →
      other.get? name = expectations.get? name) :
    methodReports pool other configuration methods =
      methodReports pool expectations configuration methods := by
  induction methods with
  | nil => rfl
  | cons member rest ih =>
      rw [List.forall_mem_cons] at hSame
      rw [methodReports, methodReports, ih hSame.2]
      cases hName : member.name pool with
      | error cause => rfl
      | ok name => rw [ok_bind, ok_bind, methodOutcomes_of_get?_eq (hSame.1 name hName)]

/-- Where defaults are expected, a report that passes has verified every method against the
expectation of its name, if the set has one. Nothing else of the set counts: any set that
agrees with it on the names of the methods leads to the same report. -/
theorem run_covers_methods (file : ClassFile) (expectations : ExpectationSet)
    (configuration : Configuration) (report : ClassReport)
    (hPresent : configuration.expectsDefault = true)
    (hRun : run file expectations configuration = .ok report) (hPassed : report.passed = true) :
    (∀ name expected, expectations.get? name = some expected →
      ∀ member ∈ file.methods, member.name file.pool = .ok name →
        ∃ method ∈ report.methods, method.name = name ∧
          VerifiedBy file.pool member method.outcomes expected) ∧
    ∀ other : ExpectationSet,
      (∀ member ∈ file.methods, ∀ name, member.name file.pool = .ok name →
        other.get? name = expectations.get? name) →
      run file other configuration = .ok report := by
  obtain ⟨hClass, hConfiguration, hMethods⟩ := run_eq_ok_iff.1 hRun
  constructor
  · intro name expected hExpected member hMember hName
    obtain ⟨method, hMethod, hMethodName, hOutcomes⟩ :=
      exists_right_of_mem (methodReports_eq_ok_iff.1 hMethods) hMember
    cases hName.symm.trans hMethodName
    have hMatch := ClassReport.passed_iff.1 hPassed method hMethod
    rw [hOutcomes] at hMatch
    refine ⟨method, hMethod, rfl, ?_⟩
    rw [hOutcomes]
    exact verifiedBy_of_allMatch hPresent hExpected hMatch
  · intro other hSame
    rw [run_eq_ok_iff, methodReports_of_get?_eq hSame]
    exact ⟨hClass, hConfiguration, hMethods⟩

/-- An expectation for the method, and one under a name that no method has. -/
def oneTooMany : ExpectationSet := .ofList [("m", .literal .int "5"), ("n", .literal .int "6")]

/-- The method is verified against the first expectation, and without the second one the
report is the same. -/
theorem run_covers_methods_five :
    ∃ report, run fiveByDefault oneTooMany {} = .ok report ∧ report.passed = true ∧
      (∃ member ∈ fiveByDefault.methods, ∃ method ∈ report.methods,
        VerifiedBy fiveByDefault.pool member method.outcomes (.literal .int "5")) ∧
      run fiveByDefault (.ofList [("m", .literal .int "5")]) {} = .ok report := by
  obtain ⟨report, hRun, hPassed⟩ : ∃ report, run fiveByDefault oneTooMany {} = .ok report ∧
    report.passed = true := ⟨_, rfl, rfl⟩
  obtain ⟨hCovers, hOthers⟩ :=
    run_covers_methods fiveByDefault oneTooMany {} report rfl hRun hPassed
  obtain ⟨method, hMethod, -, hVerified⟩ :=
    hCovers "m" (.literal .int "5") rfl _ List.mem_cons_self rfl
  refine ⟨report, hRun, hPassed, ⟨_, List.mem_cons_self, method, hMethod, hVerified⟩, ?_⟩
  apply hOthers
  intro member hMember name hName
  rcases List.mem_singleton.1 hMember with rfl
  cases hName
  rfl

/-- A report may pass although the set has an expectation under a name that no method has. -/
theorem run_passes_beside_unknown_name :
    ∃ report, run fiveByDefault oneTooMany {} = .ok report ∧ report.passed = true ∧
      ∃ name expected, oneTooMany.get? name = some expected ∧
        ¬ ∃ member ∈ fiveByDefault.methods, member.name fiveByDefault.pool = .ok name := by
  refine ⟨_, rfl, rfl, "n", .literal .int "6", rfl, ?_⟩
  intro hGiven
  rcases hGiven with ⟨member, hMember, hName⟩
  rcases List.mem_singleton.1 hMember with rfl
  exact absurd (Except.ok.inj hName) (by decide)

end AnnotationDefaults.ClassCheck
