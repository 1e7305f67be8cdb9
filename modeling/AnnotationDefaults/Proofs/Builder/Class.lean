import AnnotationDefaults.Builder.Class
import AnnotationDefaults.Proofs.Builder.Literal
import AnnotationDefaults.Proofs.ClassFile.Decoding

set_option autoImplicit false

/-!
Class files read back from their builder. What a step came to holds in the pool of every
later builder, so a run of steps leaves one method for each declaration, in order, and
answers that stay good. The bytes of a builder that is within the limits of the format are
read as the class file that was built.
-/

namespace AnnotationDefaults

def Member.IsCalled (member : Member) (pool : ConstantPool) (name descriptor : String) : Prop :=
  member.name pool = .ok name ∧ member.descriptor pool = .ok descriptor

namespace ClassBuilder

open PoolBuilder (Provides provides_text provides_intern provides_encode)

namespace Step

def isDeclaration : Step → Bool
  | .element _ _ => true
  | .bare _ _ => true
  | .withAttributes _ _ _ => true
  | _ => false

/-- The member is the method that the step declares. -/
def Declares (pool : ConstantPool) : Step → Member → Prop
  | .element name default, member =>
      member.IsCalled pool name ("()" ++ default.descriptor) ∧
        ∃ entry, member.attributes = [entry] ∧
          entry.name pool = .ok AnnotationDefault.attributeName ∧
          default.IsWrittenAs pool entry.info
  | .bare name descriptor, member => member.IsCalled pool name descriptor ∧ member.attributes = []
  | .withAttributes name descriptor attributes, member =>
      member.IsCalled pool name descriptor ∧
        List.Forall₂ (fun given entry => entry.name pool = .ok given.1 ∧ entry.info = given.2)
          attributes member.attributes
  | _, _ => False

/-- The answer is good in the pool. -/
def Answers (pool : ConstantPool) : Step → Answer → Prop
  | request, .declared => request.isDeclaration = true
  | .text content, .index index => pool.get index = .ok (.utf8 content)
  | .integer value, .index index => pool.get index = .ok (.integer value)
  | .encode literal, .bytes bytes => literal.IsWrittenAs pool bytes
  | _, _ => False

end Step

/-! ### What computations add -/

def attributeOf (entry : UInt16 × List UInt8) : Attribute := ⟨entry.1, entry.2⟩

def memberOf (built : MethodBuilder) : Member :=
  ⟨methodFlags, built.nameIndex, built.descriptorIndex, built.attributes.map attributeOf⟩

/-- One builder leads to another that has more keys and methods; its pool is sound again if
slots last, and the new methods are as described in the pool of every later builder. -/
structure Leads (builder later : ClassBuilder) (describes : ConstantPool → List Member → Prop) :
    Prop where
  grows : builder.pool.index <+: later.pool.index
  sound : builder.pool.IsSound → later.pool.slotCount ≤ 65535 → later.pool.IsSound
  thisClass : later.thisClass = builder.thisClass
  methods : ∃ added, later.methods = builder.methods ++ added ∧
    ∀ latest : PoolBuilder, later.pool.index <+: latest.index → latest.IsSound →
      describes latest.pool (added.map memberOf)

namespace Leads

variable {builder between later : ClassBuilder}
  {first second both : ConstantPool → List Member → Prop}

theorem refl (builder : ClassBuilder) (hDescribes : ∀ pool, both pool []) :
    Leads builder builder both where
  grows := List.prefix_rfl
  sound hSound _ := hSound
  thisClass := rfl
  methods := ⟨[], (List.append_nil _).symm, fun latest _ _ => hDescribes latest.pool⟩

theorem trans (hFirst : Leads builder between first) (hSecond : Leads between later second)
    (hBoth : ∀ pool earlier added, first pool earlier → second pool added →
      both pool (earlier ++ added)) : Leads builder later both where
  grows := hFirst.grows.trans hSecond.grows
  sound hSound hRoom :=
    -- There was room in between as well.
    hSecond.sound (hFirst.sound hSound
      ((PoolBuilder.slotCount_le_of_isPrefix hSecond.grows).trans hRoom)) hRoom
  thisClass := hSecond.thisClass.trans hFirst.thisClass
  methods := by
    obtain ⟨earlier, hEarlier, hDescribed⟩ := hFirst.methods
    obtain ⟨added, hAdded, hDescribed'⟩ := hSecond.methods
    refine ⟨earlier ++ added, by rw [hAdded, hEarlier, List.append_assoc], ?_⟩
    intro latest hLater hSound
    rw [List.map_append]
    exact hBoth _ _ _ (hDescribed latest (hSecond.grows.trans hLater) hSound)
      (hDescribed' latest hLater hSound)

theorem mono (hFirst : Leads builder later first)
    (hWeaker : ∀ pool added, first pool added → both pool added) : Leads builder later both where
  grows := hFirst.grows
  sound := hFirst.sound
  thisClass := hFirst.thisClass
  methods := by
    obtain ⟨added, hAdded, hDescribed⟩ := hFirst.methods
    exact ⟨added, hAdded, fun latest hLater hSound =>
      hWeaker _ _ (hDescribed latest hLater hSound)⟩

end Leads

/-- Wherever it starts, the computation leads to a builder that its result and the new methods
describe. -/
def Extends {α : Type} (computation : StateM ClassBuilder α)
    (holds : ConstantPool → α → List Member → Prop) : Prop :=
  ∀ builder, Leads builder (computation.run builder).2 fun pool added =>
    holds pool (computation.run builder).1 added

namespace Extends

variable {α β : Type} {holds : ConstantPool → α → List Member → Prop}
  {holds' : ConstantPool → β → List Member → Prop}

/-- A computation that adds no method goes in front of another. -/
theorem bind {first : StateM ClassBuilder α} {next : α → StateM ClassBuilder β}
    {holdsFirst : ConstantPool → α → Prop}
    (hFirst : Extends first fun pool value added => added = [] ∧ holdsFirst pool value)
    (hNext : ∀ value, Extends (next value) fun pool result added =>
      holdsFirst pool value → holds' pool result added) :
    Extends (first >>= next) holds' := by
  intro builder
  refine (hFirst builder).trans (hNext _ _) fun pool earlier added hEarlier hAdded => ?_
  rw [hEarlier.1]
  exact hAdded hEarlier.2

theorem convert {first : StateM ClassBuilder α} (hFirst : Extends first holds) (build : α → β)
    (hBuild : ∀ pool value added, holds pool value added → holds' pool (build value) added) :
    Extends (do return build (← first)) holds' :=
  fun builder => (hFirst builder).mono fun pool added => hBuild pool _ added

theorem onPool {computation : StateM PoolBuilder α} {provided : ConstantPool → α → Prop}
    (hProvides : Provides computation provided) :
    Extends (ClassBuilder.onPool computation) fun pool value added =>
      added = [] ∧ provided pool value := by
  intro builder
  constructor
  · exact hProvides.grows builder.pool
  · exact hProvides.sound builder.pool
  · rfl
  · exact ⟨[], (List.append_nil _).symm, fun latest hLater hSound =>
      ⟨rfl, hProvides.result builder.pool latest hLater hSound⟩⟩

end Extends

theorem extends_text (content : String) :
    Extends (text content) fun pool index added =>
      added = [] ∧ pool.get index = .ok (.utf8 content) :=
  .onPool (provides_text content)

theorem extends_pushMethod (name descriptor : String) (attributes : List (UInt16 × List UInt8))
    (default : Option Literal) :
    Extends (pushMethod name descriptor attributes default) fun pool _ added =>
      ∃ built : Member, added = [built] ∧ built.IsCalled pool name descriptor ∧
        built.attributes = attributes.map attributeOf := by
  refine (extends_text name).bind fun nameIndex => ?_
  refine (extends_text descriptor).bind fun descriptorIndex => ?_
  intro builder
  constructor
  · exact List.prefix_rfl
  · exact fun hSound _ => hSound
  · rfl
  · refine ⟨[⟨name, nameIndex, descriptorIndex, attributes, default⟩], rfl, ?_⟩
    intro latest _ _ hDescriptor hName
    exact ⟨_, rfl, ⟨ConstantPool.utf8_eq_ok_iff.2 hName, ConstantPool.utf8_eq_ok_iff.2 hDescriptor⟩,
      rfl⟩

theorem extends_attributes (attributes : List (String × List UInt8)) :
    Extends (internAttributes attributes) fun pool entries added => added = [] ∧
      List.Forall₂ (fun given entry => entry.name pool = .ok given.1 ∧ entry.info = given.2)
        attributes (entries.map attributeOf) := by
  induction attributes with
  | nil => exact fun builder => .refl builder fun _ => ⟨rfl, .nil⟩
  | cons given rest ih =>
      rw [internAttributes]
      refine (extends_text given.1).bind fun nameIndex => ?_
      refine ih.convert (List.cons (nameIndex, given.2)) fun pool entries added hEntries hName => ?_
      exact ⟨hEntries.1, .cons ⟨ConstantPool.utf8_eq_ok_iff.2 hName, rfl⟩ hEntries.2⟩

/-! ### One step -/

structure Step.Achieves (pool : ConstantPool) (request : Step) (answer : Answer)
    (added : List Member) : Prop where
  answers : request.Answers pool answer
  declares : List.Forall₂ (Step.Declares pool) ([request].filter Step.isDeclaration) added

theorem Step.achieves_declared {pool : ConstantPool} {request : Step} {built : Member}
    (hRequest : request.isDeclaration = true) (hDeclares : request.Declares pool built) :
    request.Achieves pool .declared [built] where
  answers := by
    cases request with
    | element _ _ => rfl
    | bare _ _ => rfl
    | withAttributes _ _ _ => rfl
    | _ => cases hRequest
  declares := by
    rw [List.filter_cons_of_pos hRequest]
    exact .cons hDeclares .nil

theorem Step.achieves_answered {pool : ConstantPool} {request : Step} {answer : Answer}
    (hRequest : request.isDeclaration = false) (hAnswers : request.Answers pool answer) :
    request.Achieves pool answer [] where
  answers := hAnswers
  declares := by
    rw [List.filter_cons_of_neg (by rw [hRequest]; exact Bool.false_ne_true)]
    exact .nil

theorem extends_perform (request : Step) :
    Extends (perform request) fun pool answer added => request.Achieves pool answer added := by
  cases request with
  | element name default =>
      refine (extends_text _).bind fun nameIndex => ?_
      refine (Extends.onPool (provides_encode default)).bind fun info => ?_
      refine (extends_pushMethod name _ [(nameIndex, info)] default).convert
        (fun _ => Answer.declared) ?_
      intro pool _ added hAdded hInfo hName
      obtain ⟨built, rfl, hCalled, hAttributes⟩ := hAdded
      exact Step.achieves_declared rfl
        ⟨hCalled, _, hAttributes, ConstantPool.utf8_eq_ok_iff.2 hName, hInfo⟩
  | bare name descriptor =>
      refine (extends_pushMethod name descriptor [] none).convert (fun _ => Answer.declared) ?_
      intro pool _ added hAdded
      obtain ⟨built, rfl, hBuilt⟩ := hAdded
      exact Step.achieves_declared rfl hBuilt
  | withAttributes name descriptor attributes =>
      refine (extends_attributes attributes).bind fun entries => ?_
      refine (extends_pushMethod name descriptor entries none).convert (fun _ => Answer.declared) ?_
      intro pool _ added hAdded hEntries
      obtain ⟨built, rfl, hCalled, hAttributes⟩ := hAdded
      exact Step.achieves_declared rfl ⟨hCalled, hAttributes.symm ▸ hEntries⟩
  | text content =>
      refine (extends_text content).convert Answer.index fun pool index added hIndex => ?_
      rw [hIndex.1]
      exact Step.achieves_answered rfl hIndex.2
  | integer value =>
      refine (Extends.onPool (provides_intern (.integer value))).convert Answer.index ?_
      intro pool index added hIndex
      rw [hIndex.1]
      exact Step.achieves_answered rfl hIndex.2
  | encode literal =>
      refine (Extends.onPool (provides_encode literal)).convert Answer.bytes ?_
      intro pool bytes added hBytes
      rw [hBytes.1]
      exact Step.achieves_answered rfl hBytes.2

/-! ### Many steps -/

theorem leads_run (requests : List Step) (builder : ClassBuilder) :
    Leads builder (builder.run requests) fun pool added =>
      List.Forall₂ (Step.Declares pool) (requests.filter Step.isDeclaration) added := by
  induction requests generalizing builder with
  | nil => exact Leads.refl builder fun _ => .nil
  | cons request rest ih =>
      refine (extends_perform request builder).trans (ih _) ?_
      intro pool earlier added hEarlier hAdded
      rw [← List.singleton_append, List.filter_append]
      exact List.rel_append hEarlier.declares hAdded

theorem answers_run (builder : ClassBuilder) (before after : List Step) (request : Step)
    {latest : PoolBuilder}
    (hLater : (builder.run (before ++ request :: after)).pool.index <+: latest.index)
    (hSound : latest.IsSound) :
    request.Answers latest.pool (step request (builder.run before)).1 := by
  -- The steps behind this one only add keys.
  rw [run, List.foldl_append, List.foldl_cons] at hLater
  have hRest := (leads_run after (step request (builder.run before)).2).grows
  obtain ⟨added, -, hAchieves⟩ := (extends_perform request (builder.run before)).methods
  exact (hAchieves latest (hRest.trans hLater) hSound).answers

theorem start_spec (name : String) :
    ((start name).pool.slotCount ≤ 65535 → (start name).pool.IsSound) ∧
      ∀ latest : PoolBuilder, (start name).pool.index <+: latest.index → latest.IsSound →
        latest.pool.className (start name).thisClass = .ok name := by
  have hStart : Provides (do
      let thisClass ← PoolBuilder.intern (.classRef name)
      let superClass ← PoolBuilder.intern (.classRef "java/lang/Object")
      let interface ← PoolBuilder.intern (.classRef "java/lang/annotation/Annotation")
      return (thisClass, superClass, interface)) fun pool indices =>
        pool.className indices.1 = .ok name := by
    refine (provides_intern (.classRef name)).bind fun thisClass => ?_
    refine (provides_intern (.classRef "java/lang/Object")).bind fun superClass => ?_
    exact (provides_intern (.classRef "java/lang/annotation/Annotation")).convert
      (fun interface => (thisClass, superClass, interface)) fun _ _ _ _ hClass => hClass
  constructor
  · exact hStart.sound .empty PoolBuilder.isSound_empty
  · exact hStart.result .empty

/-! ### The bytes of a builder -/

def classFile (builder : ClassBuilder) : ClassFile where
  minorVersion := 0
  majorVersion := 65
  pool := builder.pool.pool
  accessFlags := classFlags
  thisClass := builder.thisClass
  superClass := builder.superClass
  interfaces := [builder.interface]
  fields := []
  methods := builder.methods.map memberOf
  attributes := []

/-- The builder fits the format. Keys and methods only ever come to those that are there, so a
builder that fits has always fitted. How many items a list has does not matter here, for
contents are kept as they are. -/
structure WithinLimits (builder : ClassBuilder) : Prop where
  slots : builder.pool.slotCount ≤ 65535
  texts : ∀ entry ∈ builder.pool.index, entry.1.HasShortText
  methods : builder.methods.length ≤ 65535
  attributes : ∀ built ∈ builder.methods, built.attributes.length ≤ 65535
  contents : ∀ built ∈ builder.methods, ∀ entry ∈ built.attributes, entry.2.length ≤ 4294967295

variable {builder : ClassBuilder}

theorem WithinLimits.isBounded (hLimits : builder.WithinLimits) :
    builder.classFile.IsBounded := by
  constructor
  · exact (by decide : 1 < UInt16.size)
  · exact ⟨(by decide : 0 < UInt16.size), List.forall_mem_nil _⟩
  · constructor
    · rw [classFile, List.length_map]
      exact Nat.lt_succ_of_le hLimits.methods
    · intro found hFound
      obtain ⟨built, hBuilt, rfl⟩ := List.mem_map.1 hFound
      constructor
      · rw [memberOf, List.length_map]
        exact Nat.lt_succ_of_le (hLimits.attributes built hBuilt)
      · intro found hFound
        obtain ⟨entry, hEntry, rfl⟩ := List.mem_map.1 hFound
        exact Nat.lt_succ_of_le (hLimits.contents built hBuilt entry hEntry)
  · exact ⟨(by decide : 0 < UInt16.size), List.forall_mem_nil _⟩

theorem methodBytes_eq (built : MethodBuilder) :
    methodBytes built = (memberOf built).encode := by
  rw [methodBytes, Member.encode, memberOf, List.length_map, List.flatMap_map]
  rfl

theorem encodeTable_methods (builder : ClassBuilder) :
    ClassFile.encodeTable Member.encode builder.classFile.methods =
      bigEndian 2 builder.methods.length ++ builder.methods.flatMap methodBytes := by
  rw [ClassFile.encodeTable, classFile, List.length_map, List.flatMap_map]
  congr 2
  funext built
  exact (methodBytes_eq built).symm

theorem build_eq (hSound : builder.pool.IsSound) : builder.build = builder.classFile.encode := by
  have hPool : builder.classFile.pool.encode =
      bigEndian 2 builder.pool.leaveSlotZero.next.toNat ++ builder.pool.bytes :=
    hSound.encode_pool
  have hInterface : ClassFile.encodeTable (fun index : UInt16 => bigEndian 2 index.toNat)
      builder.classFile.interfaces = bigEndian 2 1 ++ bigEndian 2 builder.interface.toNat :=
    congrArg (bigEndian 2 1 ++ ·) (List.append_nil _)
  rw [build, ClassFile.encode, hPool, hInterface, encodeTable_methods]
  simp only [List.append_assoc]
  rfl

theorem spans_build (hSound : builder.pool.IsSound) :
    ∃ headed pooled, (Cursor.ofBytes builder.build).Spans builder.classFile.encodeHead headed ∧
      headed.Spans builder.pool.pool.encode pooled ∧
      pooled.Spans builder.classFile.encodeBody ⟨builder.build.length, []⟩ := by
  have hParts := (build_eq hSound).trans (ClassFile.encode_eq builder.classFile)
  have hSpans := Cursor.ofBytes_spans_self builder.build
  nth_rewrite 2 [hParts] at hSpans
  obtain ⟨headed, hHead, hSpans⟩ := Cursor.spans_append_iff.1 hSpans
  obtain ⟨pooled, hPool, hBody⟩ := Cursor.spans_append_iff.1 hSpans
  exact ⟨headed, pooled, hHead, hPool, hBody⟩

theorem WithinLimits.run_decode (hLimits : builder.WithinLimits) (hSound : builder.pool.IsSound) :
    ClassFile.decode.run (.ofBytes builder.build) =
      .ok (builder.classFile, ⟨builder.build.length, []⟩) := by
  obtain ⟨headed, pooled, hHead, hPool, hBody⟩ := spans_build hSound
  have hRead := hSound.run_decode hLimits.texts hPool
  exact ClassFile.run_decode_iff.2 ⟨hLimits.isBounded, headed, pooled, hHead, hRead, hBody⟩

theorem WithinLimits.ofBytes_build (hLimits : builder.WithinLimits)
    (hSound : builder.pool.IsSound) : ClassFile.ofBytes builder.build = .ok builder.classFile := by
  rw [ClassFile.ofBytes, hLimits.run_decode hSound]
  rfl

/-- Whatever becomes of the tables behind it, the pool is read as it was built. -/
theorem pool_of_ofBytes_build (hSound : builder.pool.IsSound)
    (hTexts : ∀ entry ∈ builder.pool.index, entry.1.HasShortText) {file : ClassFile}
    (hFile : ClassFile.ofBytes builder.build = .ok file) : file.pool = builder.pool.pool := by
  obtain ⟨⟨decoded, after⟩, hRun, rfl⟩ := map_eq_ok_iff.1 hFile
  obtain ⟨-, found, behind, hFound, hDecoded, -⟩ := ClassFile.run_decode_iff.1 hRun
  obtain ⟨headed, pooled, hHead, hPool, -⟩ := spans_build hSound
  have hLength : decoded.encodeHead.length = builder.classFile.encodeHead.length := by
    simp only [ClassFile.encodeHead, List.length_append, length_bigEndian]
  have hSame : found = headed := hFound.after_eq hHead hLength
  rw [hSame, hSound.run_decode hTexts hPool] at hDecoded
  exact (Prod.mk.inj (Except.ok.inj hDecoded)).1.symm

theorem isSound_run (name : String) (requests : List Step)
    (hSlots : ((start name).run requests).pool.slotCount ≤ 65535) :
    ((start name).run requests).pool.IsSound := by
  have hLeads := leads_run requests (start name)
  have hStart := (PoolBuilder.slotCount_le_of_isPrefix hLeads.grows).trans hSlots
  exact hLeads.sound ((start_spec name).1 hStart) hSlots

/-- What a session built is read back: the class has its name, the methods are those
declared, in order, the answers of all steps are good in the pool that is read, and no
constant is there twice. -/
theorem decode_build (name : String) (requests : List Step)
    (hLimits : ((start name).run requests).WithinLimits) :
    ∃ file, ClassFile.decode.run (.ofBytes ((start name).run requests).build) =
        .ok (file, ⟨((start name).run requests).build.length, []⟩) ∧
      ClassFile.ofBytes ((start name).run requests).build = .ok file ∧
      file.name = .ok name ∧
      List.Forall₂ (Step.Declares file.pool) (requests.filter Step.isDeclaration)
        file.methods ∧
      (∀ before request after, requests = before ++ request :: after →
        request.Answers file.pool (step request ((start name).run before)).1) ∧
      ∀ index other constant constant', file.pool.get index = .ok constant →
        file.pool.get other = .ok constant' → (constant = constant' ↔ index = other) := by
  have hSound := isSound_run name requests hLimits.slots
  have hLeads := leads_run requests (start name)
  refine ⟨((start name).run requests).classFile, hLimits.run_decode hSound,
    hLimits.ofBytes_build hSound, ?_, ?_, ?_, ?_⟩
  · rw [ClassFile.name, classFile, hLeads.thisClass]
    exact (start_spec name).2 _ hLeads.grows hSound
  · obtain ⟨added, hAdded, hDeclared⟩ := hLeads.methods
    have hMethods : ((start name).run requests).methods = added := hAdded
    rw [classFile, hMethods]
    exact hDeclared _ List.prefix_rfl hSound
  · intro before request after hRequests
    subst hRequests
    exact answers_run _ before after request List.prefix_rfl hSound
  · intro index other constant constant' hIndex hOther
    constructor
    · intro hSame
      subst hSame
      exact ConstantPool.index_eq_of_get_eq_ok hSound.distinct hIndex hOther
    · intro hSame
      subst hSame
      exact Except.ok.inj (hIndex.symm.trans hOther)

/-- A session of every kind of step; the text and the number that it asks for are also
constants of its defaults. -/
def mixedSession : List Step :=
  [.text "size",
    .element "size" (.array [.annotationValue "LRange;" [("low", .long 7), ("size", .int 7)]]),
    .encode (.enumConstant "LMode;" "size"),
    .withAttributes "raw" "()I" [("AnnotationDefault", [73, 0, 1]), ("Deprecated", [])],
    .integer 7,
    .bare "size" "()J"]

theorem mixedSession_withinLimits : ((start "A").run mixedSession).WithinLimits where
  slots := by decide +kernel
  texts := by decide +kernel
  methods := by decide +kernel
  attributes := by decide +kernel
  contents := by decide +kernel

/-- The text keeps its first index, the number is found behind the wide constant, and the
encoded value refers to both an old and a new text. -/
theorem decode_build_mixed :
    ((start "A").run mixedSession).WithinLimits ∧
      ∃ file, ClassFile.ofBytes ((start "A").run mixedSession).build = .ok file ∧
        file.name = .ok "A" ∧ file.methods.length = 3 ∧
        file.pool.get 7 = .ok (.utf8 "size") ∧
        (Literal.enumConstant "LMode;" "size").IsWrittenAs file.pool [101, 0, 15, 0, 7] ∧
        file.pool.get 13 = .ok (.integer 7) := by
  obtain ⟨file, -, hFile, hName, hMethods, hAnswers, -⟩ :=
    decode_build "A" mixedSession mixedSession_withinLimits
  exact ⟨mixedSession_withinLimits, file, hFile, hName, hMethods.length_eq.symm,
    hAnswers [] _ _ rfl, hAnswers (mixedSession.take 2) _ _ rfl,
    hAnswers (mixedSession.take 4) _ _ rfl⟩

end ClassBuilder

end AnnotationDefaults
