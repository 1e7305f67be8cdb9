import AnnotationDefaults.Proofs.CommandLine.Check
import AnnotationDefaults.Proofs.Expectation.Rendering
import AnnotationDefaults.Proofs.Report.ClassCheck
import AnnotationDefaults.Proofs.Report.Dump

set_option autoImplicit false

/-!
The check of a class file against its own dump. Rendering, writing, reading, compiling
and comparing lose nothing, so the only obstacle is the limit on nesting of whoever
reads the document: a value takes up to three containers for each of its levels, and
the check passes exactly if every default leaves room for the two containers of the
document around it.
-/

namespace AnnotationDefaults

/-- Method names resolve to distinct texts, and every method carries exactly one
default, whose contents are one value that repeats no name, with no byte left over. -/
structure ClassFile.CarriesDefaults (file : ClassFile) : Prop where
  names : ∃ names, List.Forall₂ (fun member name => member.name file.pool = .ok name)
    file.methods names ∧ names.Nodup
  defaults : ∀ member ∈ file.methods, ∃ entry value, member.defaults file.pool = [entry] ∧
    entry.Holds value ∧ value.DistinctNames file.pool

/-- Every default, written as a specification, fits with the two containers that a
document puts around it. -/
def ClassFile.DefaultsFit (file : ClassFile) : Prop :=
  ∀ member ∈ file.methods, ∀ entry ∈ member.defaults file.pool, ∀ value, entry.Holds value →
    value.containers + 2 ≤ nestingLimit

namespace ClassFile

variable {file : ClassFile} {rendered : List (String × ExpectedElement)}

private theorem map_name_eq {pool : ConstantPool} {methods : List Member} {names : List String}
    (hRendered : List.Forall₂ (Member.RendersAs pool) methods rendered)
    (hNames : List.Forall₂ (fun member name => member.name pool = .ok name) methods names) :
    rendered.map (·.1) = names := by
  induction hRendered generalizing names with
  | nil =>
      cases hNames
      rfl
  | cons hFirst hRest ih =>
      cases hNames with
      | cons hName hOthers =>
          rw [List.map_cons, ih hOthers, Except.ok.inj (hFirst.1.symm.trans hName)]

theorem CarriesDefaults.nodup (hFile : file.CarriesDefaults)
    (hRendered : List.Forall₂ (Member.RendersAs file.pool) file.methods rendered) :
    (rendered.map (·.1)).Nodup := by
  obtain ⟨names, hNames, hNodup⟩ := hFile.names
  rw [map_name_eq hRendered hNames]
  exact hNodup

theorem CarriesDefaults.get?_ofList (hFile : file.CarriesDefaults)
    (hRendered : List.Forall₂ (Member.RendersAs file.pool) file.methods rendered)
    {entry : String × ExpectedElement} (hEntry : entry ∈ rendered) :
    (NameMap.ofList rendered).get? entry.1 = some entry.2 :=
  NameMap.get?_insertAll_of_mem (hFile.nodup hRendered) hEntry

theorem CarriesDefaults.fits_iff (hFile : file.CarriesDefaults)
    (hRendered : List.Forall₂ (Member.RendersAs file.pool) file.methods rendered) :
    (ExpectationSet.toDocument (.ofList rendered)).Fits ↔ file.DefaultsFit := by
  rw [ExpectationSet.fits_toDocument_iff]
  constructor
  · intro hFits member hMember entry hEntry value hHolds
    obtain ⟨other, hOther, -, found, ⟨only, hDefaults, hBounded, hOnly⟩, hRendering⟩ :=
      exists_right_of_mem hRendered hMember
    rw [hDefaults, List.mem_singleton] at hEntry
    subst hEntry
    have hSame := Member.carriesOnly_unique ⟨entry, hDefaults, hBounded, hHolds⟩
      ⟨entry, hDefaults, hBounded, hOnly⟩
    have hFound := NameMap.mem_entries_of_get? (hFile.get?_ofList hRendered hOther)
    rw [hSame, ← Element.containers_traverse hRendering]
    exact hFits _ hFound
  · intro hFits entry hEntry
    rcases NameMap.mem_entries_insertAll hEntry with hEmpty | hListed
    · cases hEmpty
    · obtain ⟨member, hMember, -, value, ⟨only, hDefaults, -, hHolds⟩, hRendering⟩ :=
        exists_left_of_mem hRendered hListed
      rw [Element.containers_traverse hRendering]
      exact hFits member hMember only (hDefaults ▸ List.mem_cons_self) value hHolds

theorem CarriesDefaults.exists_passed (hFile : file.CarriesDefaults)
    (hRendered : List.Forall₂ (Member.RendersAs file.pool) file.methods rendered)
    {className : String} (hName : file.name = .ok className) {configuration : Configuration}
    (hPresent : configuration.expectsDefault = true) :
    ∃ report, ClassCheck.run file (.ofList rendered) configuration = .ok report ∧
      report.passed = true := by
  have hNames : ∀ member ∈ file.methods, ∃ name, member.name file.pool = .ok name := by
    intro member hMember
    obtain ⟨entry, -, hEntry, -⟩ := exists_right_of_mem hRendered hMember
    exact ⟨entry.1, hEntry⟩
  obtain ⟨reports, hReports⟩ := ClassCheck.exists_methodReports hNames
  refine ⟨⟨className, configuration, reports⟩, ?_, ?_⟩
  · exact bind_eq_ok_iff.2 ⟨className, hName, bind_eq_ok_iff.2 ⟨reports, hReports, rfl⟩⟩
  · apply ClassReport.passed_iff.2
    intro report hReport
    obtain ⟨member, hMember, hReportName, hOutcomes⟩ :=
      exists_left_of_mem (ClassCheck.methodReports_eq_ok_iff.1 hReports) hReport
    obtain ⟨entry, hEntry, hEntryName, value, ⟨only, hDefaults, hBounded, hHolds⟩, hRendering⟩ :=
      exists_right_of_mem hRendered hMember
    obtain ⟨other, value', hOther, hHolds', hDistinct⟩ := hFile.defaults member hMember
    cases hDefaults.symm.trans hOther
    have hSame := Member.carriesOnly_unique ⟨only, hDefaults, hBounded, hHolds'⟩
      ⟨only, hDefaults, hBounded, hHolds⟩
    subst hSame
    have hExpected := hFile.get?_ofList hRendered hEntry
    rw [Except.ok.inj (hEntryName.symm.trans hReportName)] at hExpected
    rw [hOutcomes, ClassCheck.allMatch_methodOutcomes_iff hPresent]
    exact ⟨only, _, entry.2, hDefaults, AnnotationDefault.ofAttribute_eq_ok_of_holds hHolds,
      hExpected, (ExpectedElement.ofDecoded_conforms hRendering).accepts hDistinct,
      AnnotationDefault.encodedSize_of_holds hHolds hBounded⟩

end ClassFile

namespace Command

variable {files : Files} {path expect : String} {file : ClassFile}

theorem runDump_eq {dump : Dump} {className : String} (hFile : openClass files path = .ok file)
    (hDump : Dump.ofClassFile file = .ok dump) (hName : file.name = .ok className) :
    runDump files path true = ⟨0, (dump.toJson className).indented ++ "\n", ""⟩ := by
  rw [runDump, dumpOf, hFile, ok_bind, hDump, ok_bind]
  dsimp only [pure, Except.pure]
  rw [hName]
  dsimp only
  rw [if_pos rfl, textOfLines_singleton]

theorem exists_of_runDump_exit {json : Bool} (hFile : openClass files path = .ok file)
    (hExit : (runDump files path json).exit = 0) :
    ∃ dump className, Dump.ofClassFile file = .ok dump ∧ file.name = .ok className := by
  cases hDump : Dump.ofClassFile file with
  | error cause =>
      rw [runDump, dumpOf, hFile, ok_bind, hDump, error_bind] at hExit
      cases hExit
  | ok dump =>
      cases hName : file.name with
      | error cause =>
          rw [runDump, dumpOf, hFile, ok_bind, hDump, ok_bind] at hExit
          dsimp only [pure, Except.pure] at hExit
          rw [hName] at hExit
          cases hExit
      | ok className => exact ⟨dump, className, rfl, rfl⟩

/-- A class file whose methods all carry a default passes the check against its own
dump exactly if every default fits; otherwise the document cannot be read. -/
theorem check_dump_exit (json : Bool) (hFile : openClass files path = .ok file)
    (hDefaults : file.CarriesDefaults) (hDump : (run files (.dump path true)).exit = 0)
    (hExpect : files expect = .ok (Utf8.encode (run files (.dump path true)).stdout)) :
    (file.DefaultsFit → (run files (.check path expect {} json)).exit = 0) ∧
      (¬ file.DefaultsFit → (run files (.check path expect {} json)).exit = 2) := by
  rw [run] at hDump hExpect
  obtain ⟨dump, className, hContents, hName⟩ := exists_of_runDump_exit hFile hDump
  obtain ⟨bytes, -, hBytes⟩ := bind_eq_ok_iff.1 hFile
  have hCarries : ∀ member ∈ file.methods, ∃ value, member.CarriesOnly file.pool value := by
    intro member hMember
    obtain ⟨entry, value, hEntry, hHolds, -⟩ := hDefaults.defaults member hMember
    have hAttribute := (Member.mem_defaults_iff.1 (hEntry ▸ List.mem_cons_self)).1
    exact ⟨value, entry, hEntry, ClassFile.isBounded_of_ofBytes hBytes hMember hAttribute, hHolds⟩
  obtain ⟨rendered, hRendered, hRead⟩ := Dump.exists_ofBytes hCarries hContents
  have hDocument : readFile files expect =
      .ok (Utf8.encode ((dump.toJson className).indented ++ "\n")) := by
    rw [runDump_eq hFile hContents hName] at hExpect
    exact mapError_eq_ok_iff.2 hExpect
  constructor
  · intro hFit
    have hSet := hRead className
    rw [if_pos ((hDefaults.fits_iff hRendered).2 hFit)] at hSet
    have hPresent : ({} : Configuration).expectsDefault = true := rfl
    obtain ⟨report, hReport, hPassed⟩ := hDefaults.exists_passed hRendered hName hPresent
    have hCheck : checkReport files path expect {} = .ok report := by
      rw [checkReport, hFile, ok_bind, hDocument, ok_bind, hSet, ok_bind, hReport]
    rw [run, runCheck_exit_of_ok hCheck, if_pos hPassed]
  · intro hUnfit
    have hSet := hRead className
    rw [if_neg (fun hFits => hUnfit ((hDefaults.fits_iff hRendered).1 hFits))] at hSet
    have hCheck : checkReport files path expect {} = .error .notADocument := by
      rw [checkReport, hFile, ok_bind, hDocument, ok_bind, hSet, error_bind]
    rw [run, runCheck_exit_of_error hCheck]

/-- A class whose only method defaults to an array of one annotation of an integer. -/
def sampleFile : ClassFile where
  minorVersion := 0
  majorVersion := 65
  pool := .ofSlots [some (.utf8 "A"), some (.classRef 1), some (.utf8 "m"),
    some (.utf8 AnnotationDefault.attributeName), some (.utf8 "LA;"), some (.utf8 "n"),
    some (.integer 5)]
  accessFlags := 0x2601
  thisClass := 2
  superClass := 2
  interfaces := []
  fields := []
  methods := [⟨0x0401, 3, 3,
    [⟨4, Element.encode (.array [.annotationValue 5 [(6, .literal .int 7)]])⟩]⟩]
  attributes := []

def sampleFiles : Files := fun path =>
  if path = "A.class" then .ok sampleFile.encode
  else .ok (Utf8.encode (runDump (fun _ => .ok sampleFile.encode) "A.class" true).stdout)

/-- The sample class file passes the check against its own dump. -/
theorem check_dump_exit_sample :
    openClass sampleFiles "A.class" = .ok sampleFile ∧ sampleFile.CarriesDefaults ∧
      (run sampleFiles (.dump "A.class" true)).exit = 0 ∧ sampleFile.DefaultsFit ∧
      (run sampleFiles (.check "A.class" "A.json" {} false)).exit = 0 := by
  have hFile : openClass sampleFiles "A.class" = .ok sampleFile := rfl
  have hDefaults : sampleFile.CarriesDefaults := by
    refine ⟨⟨["m"], .cons rfl .nil, List.nodup_singleton _⟩, ?_⟩
    rw [sampleFile, List.forall_mem_singleton]
    refine ⟨_, _, rfl, ⟨_, rfl, rfl⟩, .array ?_⟩
    rw [List.forall_mem_singleton]
    refine .annotationValue (List.pairwise_singleton _ _) ?_
    rw [List.forall_mem_singleton]
    exact .literal
  obtain ⟨dump, hContents⟩ : ∃ dump, Dump.ofClassFile sampleFile = .ok dump := ⟨_, rfl⟩
  have hName : sampleFile.name = .ok "A" := rfl
  have hDump : (run sampleFiles (.dump "A.class" true)).exit = 0 := by
    rw [run, runDump_eq hFile hContents hName]
  have hExpect : sampleFiles "A.json" =
      .ok (Utf8.encode (run sampleFiles (.dump "A.class" true)).stdout) := by
    have hOnly : openClass (fun _ => .ok sampleFile.encode) "A.class" = .ok sampleFile := rfl
    rw [run, runDump_eq hFile hContents hName, ← runDump_eq hOnly hContents hName, sampleFiles,
      if_neg (by decide)]
  have hFit : sampleFile.DefaultsFit := by
    rw [ClassFile.DefaultsFit, sampleFile, List.forall_mem_singleton]
    intro entry hEntry value hHolds
    rcases List.mem_singleton.1 hEntry with rfl
    rcases hHolds with ⟨after, hRun, -⟩
    cases hRun
    decide
  exact ⟨hFile, hDefaults, hDump, hFit,
    (check_dump_exit false hFile hDefaults hDump hExpect).1 hFit⟩

end Command

end AnnotationDefaults
