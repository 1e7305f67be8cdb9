import AnnotationDefaults.Proofs.ConstantPool.Lookup
import AnnotationDefaults.Proofs.Report.ClassCheck
import AnnotationDefaults.Proofs.Report.Length

set_option autoImplicit false

/-!
The verdict on a class. Whether there is a report depends on the names of the class and of
its methods alone, and whether the report passes is decided method by method: by the absence
of defaults where they are stripped, and by one default that is as expected where they are
present. The other choices of a configuration do not enter.
-/

namespace AnnotationDefaults

def Attribute.NamesDefault (pool : ConstantPool) (entry : Attribute) : Prop :=
  pool.get entry.nameIndex = .ok (.utf8 AnnotationDefault.attributeName)

namespace Member

/-- One attribute, at one place, is named as a default. -/
def HasJustDefault (pool : ConstantPool) (member : Member) (entry : Attribute) : Prop :=
  ∃ before after, member.attributes = before ++ entry :: after ∧ entry.NamesDefault pool ∧
    ∀ other ∈ before ++ after, ¬ other.NamesDefault pool

/-- The method is as it has to be: without a default if defaults are stripped, and else
with one default that decodes, is accepted by the expectation of the method's name and has
the length that it declares. -/
def Meets (pool : ConstantPool) (expectations : ExpectationSet) (member : Member) :
    DefaultPresence → Prop
  | .stripped => ∀ entry ∈ member.attributes, ¬ entry.NamesDefault pool
  | .present =>
      ∃ entry default name expected, member.HasJustDefault pool entry ∧
        AnnotationDefault.ofAttribute entry = .ok default ∧
        pool.get member.nameIndex = .ok (.utf8 name) ∧
        expectations.get? name = some expected ∧
        Comparison.Accepts pool default.value expected ∧
        default.value.encodedSize = entry.declaredLength

variable {pool : ConstantPool} {member : Member}

theorem isNamed_attributeName_iff {entry : Attribute} :
    entry.isNamed pool AnnotationDefault.attributeName = true ↔ entry.NamesDefault pool :=
  Attribute.isNamed_iff.trans ConstantPool.utf8_eq_ok_iff

theorem defaults_eq_nil_iff :
    member.defaults pool = [] ↔ ∀ entry ∈ member.attributes, ¬ entry.NamesDefault pool := by
  simp only [defaults, attributesNamed, List.filter_eq_nil_iff, isNamed_attributeName_iff]

theorem defaults_eq_singleton_iff {entry : Attribute} :
    member.defaults pool = [entry] ↔ member.HasJustDefault pool entry := by
  simp only [defaults, attributesNamed, List.filter_eq_cons_iff, List.filter_eq_nil_iff,
    isNamed_attributeName_iff]
  constructor
  · rintro ⟨before, after, hSplit, hBefore, hEntry, hAfter⟩
    exact ⟨before, after, hSplit, hEntry, List.forall_mem_append.2 ⟨hBefore, hAfter⟩⟩
  · rintro ⟨before, after, hSplit, hEntry, hOthers⟩
    obtain ⟨hBefore, hAfter⟩ := List.forall_mem_append.1 hOthers
    exact ⟨before, after, hSplit, hBefore, hEntry, hAfter⟩

end Member

namespace ClassCheck

variable {pool : ConstantPool} {expectations : ExpectationSet} {configuration : Configuration}
  {member : Member} {name : String}

theorem allMatch_methodOutcomes_of_stripped (hStripped : configuration.expectsDefault = false) :
    AllMatch (methodOutcomes pool expectations configuration name member) ↔
      member.defaults pool = [] := by
  rw [methodOutcomes]
  cases member.defaults pool with
  | nil => simp [presenceOutcome, rootOutcome, hStripped]
  | cons first others => simp [presenceOutcome, rootOutcome, hStripped]

theorem allMatch_methodOutcomes_iff_meets (hName : member.name pool = .ok name) :
    AllMatch (methodOutcomes pool expectations configuration name member) ↔
      member.Meets pool expectations configuration.defaults := by
  cases hDefaults : configuration.defaults with
  | stripped =>
      have hStripped : configuration.expectsDefault = false := by
        rw [Configuration.expectsDefault, hDefaults]
        rfl
      rw [allMatch_methodOutcomes_of_stripped hStripped, Member.defaults_eq_nil_iff, Member.Meets]
  | present =>
      have hPresent : configuration.expectsDefault = true := by
        rw [Configuration.expectsDefault, hDefaults]
        rfl
      rw [allMatch_methodOutcomes_iff hPresent, Member.Meets]
      constructor
      · rintro ⟨entry, default, expected, hEntry, hDefault, hExpected, hAccepts, hLength⟩
        obtain ⟨hDeclared, -⟩ := AnnotationDefault.run_decode_of_ofAttribute hDefault
        exact ⟨entry, default, name, expected, Member.defaults_eq_singleton_iff.1 hEntry,
          hDefault, ConstantPool.utf8_eq_ok_iff.1 hName, hExpected, hAccepts,
          hLength.trans hDeclared⟩
      · rintro ⟨entry, default, found, expected, hEntry, hDefault, hFound, hExpected, hAccepts,
          hLength⟩
        obtain ⟨hDeclared, -⟩ := AnnotationDefault.run_decode_of_ofAttribute hDefault
        cases hName.symm.trans (ConstantPool.utf8_eq_ok_iff.2 hFound)
        exact ⟨entry, default, expected, Member.defaults_eq_singleton_iff.2 hEntry, hDefault,
          hExpected, hAccepts, hLength.trans hDeclared.symm⟩

theorem run_eq_ok_iff {file : ClassFile} {report : ClassReport} :
    run file expectations configuration = .ok report ↔
      file.name = .ok report.className ∧ report.configuration = configuration ∧
        methodReports file.pool expectations configuration file.methods = .ok report.methods := by
  rw [run, bind_eq_ok_iff]
  constructor
  · rintro ⟨className, hClass, hRun⟩
    obtain ⟨methods, hMethods, hReport⟩ := bind_eq_ok_iff.1 hRun
    cases hReport
    exact ⟨hClass, rfl, hMethods⟩
  · rintro ⟨hClass, rfl, hMethods⟩
    exact ⟨report.className, hClass, bind_eq_ok_iff.2 ⟨report.methods, hMethods, rfl⟩⟩

theorem exists_run_iff {file : ClassFile} :
    (∃ report, run file expectations configuration = .ok report) ↔
      (∃ className, file.name = .ok className) ∧
        ∀ member ∈ file.methods, ∃ name, member.name file.pool = .ok name := by
  constructor
  · rintro ⟨report, hRun⟩
    obtain ⟨hClass, -, hMethods⟩ := run_eq_ok_iff.1 hRun
    refine ⟨⟨_, hClass⟩, fun member hMember => ?_⟩
    obtain ⟨method, -, hName, -⟩ := exists_right_of_mem (methodReports_eq_ok_iff.1 hMethods) hMember
    exact ⟨_, hName⟩
  · rintro ⟨⟨className, hClass⟩, hNames⟩
    obtain ⟨methods, hMethods⟩ := exists_methodReports hNames
    exact ⟨⟨className, configuration, methods⟩, run_eq_ok_iff.2 ⟨hClass, rfl, hMethods⟩⟩

theorem methodOutcomes_congr {other : Configuration}
    (hDefaults : other.defaults = configuration.defaults) :
    methodOutcomes pool expectations other name member =
      methodOutcomes pool expectations configuration name member := by
  have hExpects : other.expectsDefault = configuration.expectsDefault := by
    rw [Configuration.expectsDefault, Configuration.expectsDefault, hDefaults]
  rw [methodOutcomes, methodOutcomes, hExpects]

theorem methodReports_congr {other : Configuration} {methods : List Member}
    (hDefaults : other.defaults = configuration.defaults) :
    methodReports pool expectations other methods =
      methodReports pool expectations configuration methods := by
  induction methods with
  | nil => rfl
  | cons member rest ih => simp only [methodReports, ih, methodOutcomes_congr hDefaults]

/-- There is a report exactly if the class's own name and the names of its methods resolve.
It has one entry for each method in declaration order, made from that method alone and
whatever the retention and the repeatability, and it passes exactly if every method is as
it has to be. -/
theorem run_verdict (file : ClassFile) (expectations : ExpectationSet)
    (configuration : Configuration) :
    ((∃ report, run file expectations configuration = .ok report) ↔
      (∃ name text, file.pool.get file.thisClass = .ok (.classRef name) ∧
        file.pool.get name = .ok (.utf8 text)) ∧
      ∀ member ∈ file.methods, ∃ text, file.pool.get member.nameIndex = .ok (.utf8 text)) ∧
    ∀ report, run file expectations configuration = .ok report →
      List.Forall₂ (fun member method =>
        file.pool.get member.nameIndex = .ok (.utf8 method.name) ∧
        method.outcomes =
          methodOutcomes file.pool expectations configuration method.name member)
        file.methods report.methods ∧
      (∀ retention repeatability, ∃ other,
        run file expectations { configuration with retention, repeatability } = .ok other ∧
          other.methods = report.methods) ∧
      (report.passed = true ↔ ∀ member ∈ file.methods,
        member.Meets file.pool expectations configuration.defaults) := by
  constructor
  · rw [exists_run_iff, ClassFile.name]
    simp only [ConstantPool.className_eq_ok_iff, Member.name, ConstantPool.utf8_eq_ok_iff]
    rw [exists_comm]
  · intro report hRun
    obtain ⟨hClass, -, hMethods⟩ := run_eq_ok_iff.1 hRun
    have hPlaces := methodReports_eq_ok_iff.1 hMethods
    refine ⟨?_, fun retention repeatability => ?_, ?_⟩
    · refine hPlaces.imp fun member method hMethod => ?_
      exact ⟨ConstantPool.utf8_eq_ok_iff.1 hMethod.1, hMethod.2⟩
    · refine ⟨⟨report.className, { configuration with retention, repeatability }, report.methods⟩,
        run_eq_ok_iff.2 ⟨hClass, rfl, ?_⟩, rfl⟩
      rw [← hMethods]
      exact methodReports_congr rfl
    · rw [ClassReport.passed_iff]
      constructor
      · intro hMatch member hMember
        obtain ⟨method, hMethod, hName, hOutcomes⟩ := exists_right_of_mem hPlaces hMember
        exact (allMatch_methodOutcomes_iff_meets hName).1 (hOutcomes ▸ hMatch method hMethod)
      · intro hMeets method hMethod
        obtain ⟨member, hMember, hName, hOutcomes⟩ := exists_left_of_mem hPlaces hMethod
        rw [hOutcomes]
        exact (allMatch_methodOutcomes_iff_meets hName).2 (hMeets member hMember)

/-- A class whose only method carries the default five. -/
def fiveByDefault : ClassFile where
  minorVersion := 0
  majorVersion := 65
  pool := .ofSlots [some (.utf8 "A"), some (.classRef 1), some (.utf8 "m"),
    some (.utf8 AnnotationDefault.attributeName), some (.integer 5)]
  accessFlags := 0x2601
  thisClass := 2
  superClass := 2
  interfaces := []
  fields := []
  methods := [⟨0x0401, 3, 3, [⟨4, Element.encode (.literal .int 5)⟩]⟩]
  attributes := []

/-- The class passes where five is expected, and its method is as it has to be. -/
theorem run_verdict_five :
    ∃ report, run fiveByDefault (.ofList [("m", .literal .int "5")]) {} = .ok report ∧
      report.passed = true ∧ ∀ member ∈ fiveByDefault.methods,
        member.Meets fiveByDefault.pool (.ofList [("m", .literal .int "5")]) .present := by
  have hVerdict := run_verdict fiveByDefault (.ofList [("m", .literal .int "5")]) {}
  exact ⟨_, rfl, rfl, (hVerdict.2 _ rfl).2.2.1 rfl⟩

end ClassCheck

end AnnotationDefaults
