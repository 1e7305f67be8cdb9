import AnnotationDefaults.Proofs.ClassFile.Decoding
import AnnotationDefaults.Proofs.Expectation.Document
import AnnotationDefaults.Report.Dump

set_option autoImplicit false

/-!
What a dump says about a class file. Each method is read once, and what is read of a default
goes into both maps under one name, so the two are one table seen from two sides and the text
form pairs them rightly. If every method carries one default, every default is rendered under
its method's name, the specifications of the dump are those of a set of expectations, and the
JSON form of the dump is a document of that set.
-/

namespace AnnotationDefaults

/-! ### Methods of any kind -/

/-- What a dump reads of a method: its name, and the first default that it carries, if any. -/
def Member.DumpsAs (pool : ConstantPool) (member : Member)
    (reading : String × Option DumpEntry) : Prop :=
  member.name pool = .ok reading.1 ∧
    match member.defaults pool with
    | [] => reading.2 = none
    | first :: _ => ∃ entry, DumpEntry.ofAttribute pool first = .ok entry ∧ reading.2 = some entry

namespace Dump

/-- The dump of one table, both of whose maps have the names of the table. -/
def ofTable (table : NameMap DumpEntry) (withoutDefault : List String) : Dump :=
  ⟨table.map (·.spec), table.map (·.lengths), withoutDefault⟩

def listed (readings : List (String × Option DumpEntry)) : List (String × DumpEntry) :=
  readings.filterMap fun reading => reading.2.map fun entry => (reading.1, entry)

def bare (readings : List (String × Option DumpEntry)) : List String :=
  readings.filterMap fun reading => if reading.2.isNone then some reading.1 else none

variable {pool : ConstantPool} {table : NameMap DumpEntry} {names : List String}

theorem addDefault_ofTable (name : String) (entry : DumpEntry) :
    (ofTable table names).addDefault name entry = ofTable (table.insert name entry) names := by
  rw [addDefault]
  simp only [ofTable, NameMap.map_insert]

theorem exists_of_addMethod {member : Member} {result : Dump}
    (hAdded : addMethod pool (ofTable table names) member = .ok result) :
    ∃ reading, member.DumpsAs pool reading ∧
      result = ofTable (table.insertAll (listed [reading])) (names ++ bare [reading]) := by
  obtain ⟨name, hName, hAdded⟩ := bind_eq_ok_iff.1 hAdded
  cases hDefaults : member.defaults pool with
  | nil =>
      rw [hDefaults] at hAdded
      cases hAdded
      refine ⟨(name, none), ⟨hName, ?_⟩, rfl⟩
      rw [hDefaults]
  | cons first rest =>
      rw [hDefaults] at hAdded
      obtain ⟨entry, hEntry, hAdded⟩ := bind_eq_ok_iff.1 hAdded
      cases hAdded
      refine ⟨(name, some entry), ⟨hName, ?_⟩, ?_⟩
      · rw [hDefaults]
        exact ⟨entry, hEntry, rfl⟩
      · have hNames : names ++ bare [(name, some entry)] = names := List.append_nil names
        rw [addDefault_ofTable, hNames]
        rfl

theorem exists_of_foldlM {methods : List Member} {result : Dump}
    (hDump : methods.foldlM (addMethod pool) (ofTable table names) = .ok result) :
    ∃ readings, List.Forall₂ (Member.DumpsAs pool) methods readings ∧
      result = ofTable (table.insertAll (listed readings)) (names ++ bare readings) := by
  induction methods generalizing table names with
  | nil =>
      cases hDump
      refine ⟨[], .nil, ?_⟩
      rw [bare, List.filterMap_nil, List.append_nil]
      rfl
  | cons member rest ih =>
      rw [List.foldlM_cons] at hDump
      obtain ⟨added, hAdded, hDump⟩ := bind_eq_ok_iff.1 hDump
      obtain ⟨reading, hReading, rfl⟩ := exists_of_addMethod hAdded
      obtain ⟨readings, hReadings, rfl⟩ := ih hDump
      refine ⟨reading :: readings, .cons hReading hReadings, ?_⟩
      have hListed : listed (reading :: readings) = listed [reading] ++ listed readings :=
        List.filterMap_append (l := [reading])
      have hBare : bare (reading :: readings) = bare [reading] ++ bare readings :=
        List.filterMap_append (l := [reading])
      rw [hListed, hBare, NameMap.insertAll_append, List.append_assoc]

/-- The dump of a class file is that of one table, which the methods fill in order. -/
theorem exists_of_ofClassFile {file : ClassFile} {dump : Dump}
    (hDump : ofClassFile file = .ok dump) :
    ∃ readings, List.Forall₂ (Member.DumpsAs file.pool) file.methods readings ∧
      dump = ofTable (.ofList (listed readings)) (bare readings) := by
  have hEmpty : empty = ofTable .empty [] := rfl
  rw [ofClassFile, hEmpty] at hDump
  exact exists_of_foldlM hDump

end Dump

/-! ### Methods that carry one default each -/

/-- The method carries exactly one default, whose contents are one value with nothing
left over. -/
def Member.CarriesOnly (pool : ConstantPool) (member : Member) (value : DecodedElement) : Prop :=
  ∃ entry, member.defaults pool = [entry] ∧ entry.IsBounded ∧ entry.Holds value

def Member.RendersAs (pool : ConstantPool) (member : Member) (entry : String × ExpectedElement) :
    Prop :=
  member.name pool = .ok entry.1 ∧
    ∃ value, member.CarriesOnly pool value ∧ ExpectedElement.ofDecoded pool value = .ok entry.2

theorem Member.carriesOnly_unique {pool : ConstantPool} {member : Member}
    {first second : DecodedElement} (hFirst : member.CarriesOnly pool first)
    (hSecond : member.CarriesOnly pool second) : first = second := by
  rcases hFirst with ⟨entry, hEntry, -, after, hRun, -⟩
  rcases hSecond with ⟨other, hOther, -, after', hRun', -⟩
  cases hEntry.symm.trans hOther
  cases hRun.symm.trans hRun'
  rfl

/-- An entry of a dump speaks of one expectation, and its lengths take four bytes each. -/
structure DumpEntry.Describes (listed : DumpEntry) (expected : ExpectedElement) : Prop where
  spec : listed.spec = .ofElement expected
  declared : listed.lengths.declared < UInt32.size
  computed : listed.lengths.computed < UInt32.size

namespace DumpEntry

variable {listed : DumpEntry} {expected : ExpectedElement}

theorem Describes.plain_lengths (hListed : listed.Describes expected) :
    listed.lengths.toJson.Plain := by
  have hSize : UInt32.size < UInt64.size := by decide
  apply Json.Plain.object
  rw [List.forall_mem_cons, List.forall_mem_singleton]
  exact ⟨.natural (hListed.declared.trans hSize), .natural (hListed.computed.trans hSize)⟩

theorem exists_describes {pool : ConstantPool} {entry : Attribute} {value : DecodedElement}
    (hBounded : entry.IsBounded) (hHolds : entry.Holds value)
    (hListed : ofAttribute pool entry = .ok listed) :
    ∃ expected, ExpectedElement.ofDecoded pool value = .ok expected ∧
      listed.Describes expected := by
  rw [ofAttribute, AnnotationDefault.ofAttribute_eq_ok_of_holds hHolds] at hListed
  obtain ⟨default, hDefault, hListed⟩ := bind_eq_ok_iff.1 hListed
  cases hDefault
  obtain ⟨expected, hExpected, hListed⟩ := bind_eq_ok_iff.1 hListed
  cases hListed
  have hSize := AnnotationDefault.encodedSize_of_holds hHolds hBounded
  have hDeclared : entry.declaredLength < UInt32.size := Nat.mod_lt _ (by decide)
  exact ⟨expected, hExpected, rfl, hDeclared, hSize.trans_lt hDeclared⟩

end DumpEntry

namespace Dump

variable {pool : ConstantPool} {methods : List Member}
  {readings : List (String × Option DumpEntry)} {listed : List (String × DumpEntry)}
  {rendered : List (String × ExpectedElement)}

def Lists (listed : List (String × DumpEntry)) (rendered : List (String × ExpectedElement)) :
    Prop :=
  List.Forall₂ (fun entry other => entry.1 = other.1 ∧ entry.2.Describes other.2) listed rendered

private theorem exists_of_dumpsAs {member : Member} {value : DecodedElement}
    {reading : String × Option DumpEntry} (hCarries : member.CarriesOnly pool value)
    (hReading : member.DumpsAs pool reading) :
    ∃ name entry expected, reading = (name, some entry) ∧
      member.RendersAs pool (name, expected) ∧ entry.Describes expected := by
  obtain ⟨only, hDefaults, hBounded, hHolds⟩ := hCarries
  obtain ⟨hName, hFirst⟩ := hReading
  rw [hDefaults] at hFirst
  obtain ⟨entry, hEntry, hSome⟩ := hFirst
  obtain ⟨expected, hExpected, hDescribes⟩ := DumpEntry.exists_describes hBounded hHolds hEntry
  refine ⟨reading.1, entry, expected, Prod.ext rfl hSome, ⟨hName, value, ?_, hExpected⟩, hDescribes⟩
  exact ⟨only, hDefaults, hBounded, hHolds⟩

theorem exists_rendered (hCarries : ∀ member ∈ methods, ∃ value, member.CarriesOnly pool value)
    (hReadings : List.Forall₂ (Member.DumpsAs pool) methods readings) :
    ∃ rendered, List.Forall₂ (Member.RendersAs pool) methods rendered ∧
      Lists (Dump.listed readings) rendered ∧ bare readings = [] := by
  induction hReadings with
  | nil => exact ⟨[], .nil, .nil, rfl⟩
  | cons hReading hRest ih =>
      rw [List.forall_mem_cons] at hCarries
      obtain ⟨value, hValue⟩ := hCarries.1
      obtain ⟨name, entry, expected, rfl, hRenders, hDescribes⟩ :=
        exists_of_dumpsAs hValue hReading
      obtain ⟨rendered, hRendered, hLists, hBare⟩ := ih hCarries.2
      exact ⟨(name, expected) :: rendered, .cons hRenders hRendered,
        .cons ⟨rfl, hDescribes⟩ hLists, hBare⟩

private theorem map_spec_eq (hLists : Lists listed rendered) :
    listed.map (fun entry => (entry.1, entry.2.spec)) =
      rendered.map fun entry => (entry.1, Spec.ofElement entry.2) := by
  induction hLists with
  | nil => rfl
  | cons hEntry hRest ih => rw [List.map_cons, List.map_cons, ih, hEntry.1, hEntry.2.spec]

theorem document_ofTable (hLists : Lists listed rendered) (withoutDefault : List String) :
    (ofTable (.ofList listed) withoutDefault).document =
      ExpectationSet.toDocument (.ofList rendered) := by
  have hDocument : (ofTable (.ofList listed) withoutDefault).document =
      NameMap.map (·.spec) (NameMap.empty.insertAll listed) := rfl
  have hRendered : NameMap.ofList rendered = NameMap.empty.insertAll rendered := rfl
  rw [hDocument, ExpectationSet.toDocument, hRendered, NameMap.map_insertAll,
    NameMap.map_insertAll, map_spec_eq hLists]
  rfl

theorem plain_toJson (className : String) {dump : Dump} {expectations : ExpectationSet}
    (hDocument : dump.document = expectations.toDocument)
    (hLengths : ∀ entry ∈ dump.lengths.entries, entry.2.toJson.Plain) :
    (dump.toJson className).Plain := by
  apply Json.Plain.object
  rw [List.forall_mem_cons, List.forall_mem_cons, List.forall_mem_cons, List.forall_mem_singleton]
  refine ⟨.string, .object ?_, .object ?_, .array ?_⟩
  · rw [hDocument]
    intro member hMem
    rcases List.mem_map.1 hMem with ⟨entry, hEntry, rfl⟩
    rcases List.mem_map.1 hEntry with ⟨original, -, rfl⟩
    exact Spec.plain_toJson_ofElement original.2
  · intro member hMem
    rcases List.mem_map.1 hMem with ⟨entry, hEntry, rfl⟩
    exact hLengths entry hEntry
  · intro item hMem
    rcases List.mem_map.1 hMem with ⟨name, -, rfl⟩
    exact .string

private theorem plain_lengths_ofTable (hLists : Lists listed rendered) (names : List String) :
    ∀ entry ∈ (ofTable (.ofList listed) names).lengths.entries, entry.2.toJson.Plain := by
  intro entry hEntry
  rcases List.mem_map.1 hEntry with ⟨original, hOriginal, rfl⟩
  rcases NameMap.mem_entries_insertAll hOriginal with hEmpty | hListed
  · cases hEmpty
  · obtain ⟨other, -, -, hDescribes⟩ := exists_right_of_mem hLists hListed
    exact hDescribes.plain_lengths

theorem exists_ofBytes {file : ClassFile} {dump : Dump}
    (hCarries : ∀ member ∈ file.methods, ∃ value, member.CarriesOnly file.pool value)
    (hDump : ofClassFile file = .ok dump) :
    ∃ rendered : List (String × ExpectedElement),
      List.Forall₂ (Member.RendersAs file.pool) file.methods rendered ∧
      ∀ className, ExpectationSet.ofBytes
        (Utf8.encode ((dump.toJson className).indented ++ "\n")) =
          if (ExpectationSet.toDocument (.ofList rendered)).Fits then .ok (.ofList rendered)
          else .error .notADocument := by
  obtain ⟨readings, hReadings, rfl⟩ := exists_of_ofClassFile hDump
  obtain ⟨rendered, hRendered, hLists, hBare⟩ := exists_rendered hCarries hReadings
  rw [hBare]
  have hDocument := document_ofTable hLists []
  refine ⟨rendered, hRendered, fun className => ?_⟩
  have hPlain := plain_toJson className hDocument (plain_lengths_ofTable hLists [])
  apply ExpectationSet.ofBytes_encode (Json.indented_cutInto hPlain).lineBreak
  rw [← hDocument, Reading.field?_cons_of_ne (by decide)]
  exact Reading.field?_cons_self rfl _

end Dump

end AnnotationDefaults
