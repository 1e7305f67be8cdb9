import AnnotationDefaults.Proofs.CommandLine.Check

set_option autoImplicit false

/-!
What a command has printed when it fails. Faults arise before anything is printed, with one
exception: the text form of a dump names the file first and resolves the name of the class
afterwards. So a failed command has printed nothing, or that one line.
-/

namespace AnnotationDefaults.Command

variable {files : Files} {path expect : String} {configuration : Configuration} {json : Bool}
  {file : ClassFile} {contents : Dump} {cause : Fault}

theorem runCheck_of_error
    (hReport : checkReport files path expect configuration = .error cause) :
    runCheck files path expect configuration json = .failed "" cause := by
  rw [runCheck, hReport]

theorem dumpOf_eq_ok_iff :
    dumpOf files path = .ok (file, contents) ↔
      openClass files path = .ok file ∧ Dump.ofClassFile file = .ok contents := by
  rw [dumpOf, bind_eq_ok_iff]
  simp only [bind_eq_ok_iff, pure_eq_ok_iff, Prod.mk.injEq]
  constructor
  · intro hGiven
    rcases hGiven with ⟨opened, hOpened, listed, hListed, rfl, rfl⟩
    exact ⟨hOpened, hListed⟩
  · intro hGiven
    exact ⟨file, hGiven.1, contents, hGiven.2, rfl, rfl⟩

/-! ### The three ways of a dump -/

theorem runDump_of_error (hDump : dumpOf files path = .error cause) :
    runDump files path json = .failed "" cause := by
  rw [runDump, hDump]

theorem runDump_of_unnamed (hDump : dumpOf files path = .ok (file, contents))
    (hName : file.name = .error cause) :
    runDump files path json =
      .failed (if json then "" else "path: " ++ path ++ "\n") cause := by
  rw [runDump, hDump]
  dsimp only
  rw [hName, textOfLines_singleton]
  rfl

theorem runDump_of_named {className : String} (hDump : dumpOf files path = .ok (file, contents))
    (hName : file.name = .ok className) : (runDump files path json).exit = 0 := by
  rw [runDump, hDump]
  dsimp only
  rw [hName]

/-! ### What a failed command has printed -/

private theorem pathLine_ne_empty (path : String) : "path: " ++ path ++ "\n" ≠ "" := by
  intro hEmpty
  have hLength := congrArg String.length hEmpty
  have hBreak : "\n".length = 1 := rfl
  have hNone : "".length = 0 := rfl
  rw [String.length_append, hBreak, hNone] at hLength
  exact Nat.succ_ne_zero _ hLength

/-- The command is a text dump that finds everything but a name of the class. -/
def LacksOnlyClassName (files : Files) : Command → Prop
  | .check _ _ _ _ => False
  | .dump path json => json = false ∧ ∃ file contents, openClass files path = .ok file ∧
      Dump.ofClassFile file = .ok contents ∧ ∀ className, file.name ≠ .ok className

private theorem runCheck_stdout_of_exit
    (hExit : (runCheck files path expect configuration json).exit = 2) :
    (runCheck files path expect configuration json).stdout = "" := by
  cases hReport : checkReport files path expect configuration with
  | error cause =>
      rw [runCheck_of_error hReport]
      rfl
  | ok report =>
      rw [runCheck_exit_of_ok hReport] at hExit
      cases hPassed : report.passed with
      | true => simp [hPassed] at hExit
      | false => simp [hPassed] at hExit

private theorem runDump_stdout_of_exit (hExit : (runDump files path json).exit = 2) :
    (runDump files path json).stdout = "" ∨ LacksOnlyClassName files (.dump path json) := by
  cases hDump : dumpOf files path with
  | error cause =>
      rw [runDump_of_error hDump]
      exact Or.inl rfl
  | ok found =>
      rcases found with ⟨file, contents⟩
      cases hName : file.name with
      | ok className =>
          rw [runDump_of_named hDump hName] at hExit
          cases hExit
      | error cause =>
          rw [runDump_of_unnamed hDump hName]
          cases json with
          | true => exact Or.inl rfl
          | false =>
              obtain ⟨hFile, hContents⟩ := dumpOf_eq_ok_iff.1 hDump
              refine Or.inr ⟨rfl, file, contents, hFile, hContents, ?_⟩
              intro className hNamed
              rw [hName] at hNamed
              cases hNamed

private theorem run_of_lacksOnlyClassName {command : Command}
    (hLacks : LacksOnlyClassName files command) :
    (run files command).exit = 2 ∧ ∃ path, command = .dump path false ∧
      (run files command).stdout = "path: " ++ path ++ "\n" := by
  cases command with
  | check path expect configuration json => exact hLacks.elim
  | dump path json =>
      obtain ⟨rfl, file, contents, hFile, hContents, hUnnamed⟩ := hLacks
      have hDump := dumpOf_eq_ok_iff.2 ⟨hFile, hContents⟩
      cases hName : file.name with
      | ok className => exact absurd hName (hUnnamed className)
      | error cause =>
          rw [run, runDump_of_unnamed hDump hName]
          exact ⟨rfl, path, rfl, rfl⟩

/-- A command that exits with two has printed nothing, unless it is a text dump that finds
everything but a name of the class. Such a dump does exit with two, and has printed the line
that names the file. -/
theorem stdout_of_exit_two (files : Files) (command : Command) :
    ((run files command).exit = 2 →
      ((run files command).stdout = "" ↔ ¬ LacksOnlyClassName files command)) ∧
    (LacksOnlyClassName files command → (run files command).exit = 2 ∧
      ∃ path, command = .dump path false ∧
        (run files command).stdout = "path: " ++ path ++ "\n") := by
  constructor
  · intro hExit
    constructor
    · intro hEmpty hLacks
      obtain ⟨-, path, -, hPrinted⟩ := run_of_lacksOnlyClassName hLacks
      exact pathLine_ne_empty path (hPrinted.symm.trans hEmpty)
    · intro hOthers
      cases command with
      | check path expect configuration json => exact runCheck_stdout_of_exit hExit
      | dump path json => exact (runDump_stdout_of_exit hExit).resolve_right hOthers
  · exact run_of_lacksOnlyClassName

/-- A class file without methods whose own name is slot zero. -/
def namelessFile : ClassFile where
  minorVersion := 0
  majorVersion := 65
  pool := .ofSlots []
  accessFlags := 0x2601
  thisClass := 0
  superClass := 0
  interfaces := []
  fields := []
  methods := []
  attributes := []

/-- The text dump of the nameless class fails after its first line; the other form of the dump
fails and prints nothing. -/
theorem stdout_of_nameless_dump :
    let files : Files := fun _ => .ok namelessFile.encode
    LacksOnlyClassName files (.dump "A.class" false) ∧
      (run files (.dump "A.class" false)).exit = 2 ∧
      (run files (.dump "A.class" false)).stdout = "path: A.class\n" ∧
      (run files (.dump "A.class" true)).exit = 2 ∧
      (run files (.dump "A.class" true)).stdout = "" := by
  intro files
  have hFile : openClass files "A.class" = .ok namelessFile := rfl
  have hLacks : LacksOnlyClassName files (.dump "A.class" false) := by
    refine ⟨rfl, namelessFile, .empty, hFile, rfl, ?_⟩
    intro className hName
    cases hName
  obtain ⟨hExit, path, hSame, hPrinted⟩ := (stdout_of_exit_two files _).2 hLacks
  cases hSame
  have hOther : (run files (.dump "A.class" true)).exit = 2 := rfl
  have hNothing := ((stdout_of_exit_two files _).1 hOther).2
    (fun hGiven => absurd hGiven.1 (by decide))
  exact ⟨hLacks, hExit, hPrinted, hOther, hNothing⟩

end AnnotationDefaults.Command
