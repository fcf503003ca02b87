/-
# RosInterface.Proofs.Output.Agreement -- the layouts declare the same classes

Layouts differ in where a class is declared, and from there in how a reference to it is
spelled.  They do not differ in anything else.  `ClassDeclaration.inFull` writes every
reference of a class in full, and the classes that a package declares are the same in all
layouts after that (`Package.layouts_agree`).

The argument is about scopes alone.  A class is made from a definition and a scope, and
changing the references that the scope makes is changing the references of the class
(`ClassDeclaration.mapRefs_ofInterface`).  All scopes of one package and kind make the
same references once these are written in full (`Scope.inFull_reference`).
-/
import RosInterface.Proofs.Output.Layout

set_option autoImplicit false

namespace RosInterface

/-! ## Changing references -/

/-- The reference in full; a bare name is one of the given package and kind. -/
def ClassRef.inFull (package : Text) (kind : Kind) : ClassRef → ClassRef
  | .bare name => .qualified ⟨package, kind, name⟩
  | .qualified type => .qualified type

section MapRefs

variable (f : ClassRef → ClassRef)

def ValueClass.mapRefs : ValueClass → ValueClass
  | .message ref => .message (f ref)
  | .bool => .bool
  | .int => .int
  | .float => .float
  | .str => .str

def TypeHint.mapRefs (hint : TypeHint) : TypeHint := { hint with item := hint.item.mapRefs f }

def Initial.mapRefs : Initial → Initial
  | .zero item => .zero (item.mapRefs f)
  | .zeros item size => .zeros (item.mapRefs f) size
  | .newObject ref => .newObject (f ref)
  | .newObjects ref size => .newObjects (f ref) size
  | .first values => .first values
  | .tuple values => .tuple values
  | .newEmptyList => .newEmptyList
  | .newList values => .newList values

def FieldDeclaration.mapRefs (field : FieldDeclaration) : FieldDeclaration :=
  { field with hint := field.hint.mapRefs f, initial := field.initial.mapRefs f }

def ConstantDeclaration.mapRefs (constant : ConstantDeclaration) : ConstantDeclaration :=
  { constant with hint := constant.hint.mapRefs f, value := constant.value.mapRefs f }

/-- The class with other references; names, types and bindings stay. -/
def ClassDeclaration.mapRefs : ClassDeclaration → ClassDeclaration
  | .message declared => .message
      { declared with
        fields := declared.fields.map (·.mapRefs f)
        constants := declared.constants.map (·.mapRefs f) }
  | .interface declared => .interface declared

end MapRefs

/-- The class with every reference in full. -/
def ClassDeclaration.inFull (package : Text) (kind : Kind) : ClassDeclaration → ClassDeclaration :=
  mapRefs (ClassRef.inFull package kind)

/-! ## Scopes that differ in their references -/

/-- Two scopes are about modules of one package and kind, and the references of the second
are those of the first after a change. -/
structure Scope.Changes (f : ClassRef → ClassRef) (first second : Scope) : Prop where
  package : second.package = first.package
  kind : second.kind = first.kind
  reference : ∀ type, f (first.reference type) = second.reference type

section Changes

theorem ValueClass.mapRefs_ofPrimitive (f : ClassRef → ClassRef) (type : Primitive) :
    (ofPrimitive type).mapRefs f = ofPrimitive type := by
  match type with
  | .basic .bool | .basic (.integer _) | .basic (.float _) | .string _ => rfl

theorem Initial.mapRefs_ofPrimitive (f : ClassRef → ClassRef) (element : Primitive)
    (default : Option (List Text)) (type : FieldType) :
    (ofPrimitive element default type).mapRefs f = ofPrimitive element default type := by
  match type, default with
  | .single _, none => exact congrArg Initial.zero (ValueClass.mapRefs_ofPrimitive f element)
  | .array _ size, none =>
      exact congrArg (Initial.zeros · size) (ValueClass.mapRefs_ofPrimitive f element)
  | .single _, some _ | .array _ _, some _ => rfl
  | .sequence _, none | .sequence _, some [] | .sequence _, some (_ :: _) => rfl
  | .boundedSequence _ _, none | .boundedSequence _ _, some []
  | .boundedSequence _ _, some (_ :: _) => rfl

theorem Initial.mapRefs_ofReference (f : ClassRef → ClassRef) (ref : ClassRef) (type : FieldType) :
    (ofReference ref type).mapRefs f = ofReference (f ref) type := by
  cases type <;> rfl

theorem Initial.mapRefs_ofConstant (f : ClassRef → ClassRef) (constant : Constant) :
    (ofConstant constant).mapRefs f = ofConstant constant := by
  unfold ofConstant
  cases constant.type <;> rfl

variable {f : ClassRef → ClassRef} {first second : Scope} (changes : Scope.Changes f first second)
include changes

/-- What a bare name of a definition stands for is spelled by the second scope as the first
one spells it after the change. -/
theorem Scope.Changes.reference_fullName (name : Text) :
    f (first.reference (first.fullName name)) = second.reference (second.fullName name) := by
  rw [changes.reference, fullName, fullName, changes.package]

theorem TypeHint.mapRefs_ofType (type : FieldType) :
    (ofType first type).mapRefs f = ofType second type := by
  have item : (ValueClass.ofElement first type.element).mapRefs f =
      ValueClass.ofElement second type.element := by
    cases type.element with
    | primitive primitive => exact ValueClass.mapRefs_ofPrimitive f primitive
    | named name => exact congrArg ValueClass.message (changes.reference_fullName name)
    | qualified full => exact congrArg ValueClass.message (changes.reference full)
  exact congrArg (TypeHint.mk type.multiplicity) item

theorem Initial.mapRefs_ofMember (member : Member) :
    (ofMember first member).mapRefs f = ofMember second member := by
  unfold ofMember
  cases member.type.element with
  | primitive element => exact mapRefs_ofPrimitive f element member.default member.type
  | named name =>
      exact (mapRefs_ofReference f _ member.type).trans (by rw [changes.reference_fullName])
  | qualified full => exact (mapRefs_ofReference f _ member.type).trans (by rw [changes.reference])

namespace ClassDeclaration

theorem mapRefs_ofMember (member : Member) :
    (ofMember first member).mapRefs f = ofMember second member := by
  simp only [FieldDeclaration.mapRefs, ofMember, TypeHint.mapRefs_ofType changes,
    Initial.mapRefs_ofMember changes]

theorem mapRefs_ofConstant (constant : Constant) :
    (ofConstant first constant).mapRefs f = ofConstant second constant := by
  simp only [ConstantDeclaration.mapRefs, ofConstant, TypeHint.mapRefs_ofType changes,
    Initial.mapRefs_ofConstant]

theorem mapRefs_ofMessage (message : Message) :
    (ofMessage first message).mapRefs f = ofMessage second message := by
  simp only [mapRefs, ofMessage, List.map_map, Function.comp_def, mapRefs_ofMember changes,
    mapRefs_ofConstant changes, changes.kind]

theorem mapRefs_ofService (service : Service) :
    (ofService first service).map (mapRefs f) = ofService second service := by
  simp only [ofService, List.map_cons, List.map_nil, mapRefs_ofMessage changes]
  simp only [mapRefs, changes.kind]

/-- **The classes of a definition depend on the scope through their references.** -/
theorem mapRefs_ofInterface (interface : Interface) :
    (ofInterface first interface).map (mapRefs f) = ofInterface second interface := by
  cases interface with
  | message m => exact congrArg ([·]) (mapRefs_ofMessage changes m)
  | service s => exact mapRefs_ofService changes s
  | action a =>
      simp only [ofInterface, ofAction, List.map_append, List.map_cons, List.map_nil,
        mapRefs_ofMessage changes, mapRefs_ofService changes]
      simp only [mapRefs, changes.kind]

end ClassDeclaration

end Changes

/-! ## References in full -/

/-- A bare reference is one of the package and kind of its scope. -/
theorem Scope.inFull_reference (scope : Scope) (type : TypeName) :
    (scope.reference type).inFull scope.package scope.kind = .qualified type := by
  unfold reference
  split
  case isTrue near =>
    obtain ⟨-, samePackage, sameKind, -⟩ := near
    rw [ClassRef.inFull, ← samePackage, ← sameKind]
  case isFalse => rfl

/-- Where bare names are ruled out, the references are those of any scope in full. -/
theorem Scope.changes_inFull (scope full : Scope) (package : full.package = scope.package)
    (kind : full.kind = scope.kind) (qualifiedOnly : full.qualifiedOnly = true) :
    Scope.Changes (ClassRef.inFull scope.package scope.kind) scope full := by
  refine ⟨package, kind, fun type => ?_⟩
  have bare : full.reference type = .qualified type := if_neg (by simp [qualifiedOnly])
  rw [bare]
  exact scope.inFull_reference type

namespace Package

variable {package : Package} {layout : ModuleLayout} {kind : Kind}

/-- The scope of a kind in a single file. -/
def fullScope (package : Package) (kind : Kind) : Scope :=
  .ofInterfaces package.name kind (package.interfaces kind) true

/-- A module declares the classes of its definitions, but for the spelling of references. -/
theorem inFull_moduleOf {path : Path} {interfaces : List Interface} :
    (package.moduleOf layout kind path interfaces).declarations.map
        (ClassDeclaration.inFull package.name kind) =
      interfaces.flatMap (ClassDeclaration.ofInterface (package.fullScope kind)) := by
  have changes : Scope.Changes (ClassRef.inFull package.name kind)
      (package.scopeOf layout kind interfaces) (package.fullScope kind) :=
    Scope.changes_inFull (package.scopeOf layout kind interfaces) _ rfl rfl rfl
  rw [declarations_moduleOf, List.map_flatMap]
  exact congrArg interfaces.flatMap (funext (ClassDeclaration.mapRefs_ofInterface changes))

/-- The modules of one kind in three layouts: one part for each definition with an initial
module, or the whole kind in one module, or nested in a file for everything.  They declare
the same classes in the same order, but for the spelling of references, and the initial
module exports every class from the part that declares it. -/
structure Agree (package : Package) (kind : Kind) (parts : List ModuleFile)
    (initial whole nested : ModuleFile) : Prop where
  parts_nested : (parts.flatMap (·.declarations)).map (ClassDeclaration.inFull package.name kind) =
    nested.declarations
  whole_nested : whole.declarations.map (ClassDeclaration.inFull package.name kind) =
    nested.declarations
  initial_path : initial.path = package.pathTo [kind.text, ModuleFile.initialName]
  exports : List.Forall₂ (fun exported part =>
    part.path = package.pathTo [kind.text, exported.1 ++ ".py"] ∧
      exported.2 = part.declarations.map (·.name)) initial.exports parts

theorem agree_modules :
    package.Agree kind ((package.namedModules kind).map (·.2))
      (package.exportModule kind (package.namedModules kind))
      (package.moduleOf .package kind (package.pathTo [kind.text ++ ".py"])
        (package.interfaces kind))
      (package.moduleOf .single kind (package.pathTo [kind.text ++ ".py"])
        (package.interfaces kind)) where
  parts_nested := by
    have each (i : Interface) : (package.ownModule kind i).declarations.map
        (ClassDeclaration.inFull package.name kind) =
          ClassDeclaration.ofInterface (package.fullScope kind) i :=
      inFull_moduleOf.trans (List.flatMap_singleton _ i)
    rw [List.map_flatMap, namedModules, List.map_map, List.flatMap_map]
    exact congrArg (package.interfaces kind).flatMap (funext each)
  whole_nested := inFull_moduleOf
  initial_path := rfl
  exports := by
    rw [exportModule, List.forall₂_map_left_iff, List.forall₂_map_right_iff, List.forall₂_same]
    intro named inNamed
    obtain ⟨i, -, rfl⟩ := List.mem_map.1 inNamed
    exact ⟨rfl, rfl⟩

/-- **The layouts declare the same classes.**  A package that can be laid out with a module
for each definition can be laid out in every other way, and in each kind that it has
definitions of, the layouts agree. -/
theorem layouts_agree {own : List ModuleFile} (laidOut : package.modules .declaration = .ok own) :
    ∃ whole nested, package.modules .package = .ok whole ∧ package.modules .single = .ok nested ∧
      ∀ kind, package.interfaces kind ≠ [] → ∃ parts initial file inner,
        ModuleFile.ofKind kind own = parts ++ [initial] ∧
        ModuleFile.ofKind kind whole = [file] ∧ ModuleFile.ofKind kind nested = [inner] ∧
        package.Agree kind parts initial file inner := by
  have distinct (layout : ModuleLayout) (other : layout ≠ .declaration) :
      package.StemsDistinct layout := fun same => absurd same other
  obtain ⟨-, rfl⟩ := modules_eq_ok_iff.1 laidOut
  refine ⟨_, _, modules_eq_ok_iff.2 ⟨distinct .package (by decide), rfl⟩,
    modules_eq_ok_iff.2 ⟨distinct .single (by decide), rfl⟩, fun kind some_ => ?_⟩
  refine ⟨_, _, _, _, ?_, ?_, ?_, agree_modules⟩
  · rw [ofKind_files, kindFiles_declaration some_]
  · rw [ofKind_files, kindFiles_of_ne (by decide) some_]
  · rw [ofKind_files, kindFiles_of_ne (by decide) some_]

theorem layouts_agree_sample :
    ∃ own whole nested, sample.modules .declaration = .ok own ∧
      ∃ parts initial file inner, ModuleFile.ofKind .action own = parts ++ [initial] ∧
        ModuleFile.ofKind .action whole = [file] ∧ ModuleFile.ofKind .action nested = [inner] ∧
        sample.Agree .action parts initial file inner := by
  have laidOut : sample.modules .declaration = .ok (sample.files .declaration) :=
    modules_eq_ok_iff.2 ⟨stemsDistinct_sample, rfl⟩
  have some_ : sample.interfaces .action ≠ [] := by
    intro empty
    have none_ := empty ▸ perm_interfaces_sample .action
    exact absurd none_.length_eq (by decide)
  obtain ⟨whole, nested, -, -, agree⟩ := layouts_agree laidOut
  exact ⟨_, whole, nested, laidOut, agree .action some_⟩

end Package

end RosInterface
