/-
# RosInterface.Proofs.Definition.Package -- packages of read definitions

A package sorts its definitions by kind and, within a kind, by name; nothing is lost and
nothing is added (`Package.perm_interfaces_ofInterfaces`).  It is *parsed* when its
definitions were read from texts under its own name, and then each of them is well
formed and its sections are named after it (`Package.Parsed.wellFormed`).
-/
import RosInterface.Proofs.Definition.Invariants
import RosInterface.Proofs.Text.Order
import RosInterface.Schema.Package
import Mathlib.Data.List.Count
import Mathlib.Data.List.Perm.Basic

set_option autoImplicit false

namespace RosInterface

/-! ## Read definitions -/

namespace Interface

variable {kind : Kind} {package name text : Text} {interface : Interface}

/-- A definition whose sections are named by a full name has that name, if only it
carries it where its sections do not show it. -/
theorem full_of_sections
    (names : interface.sections.map (fun m => (m.package, m.name)) =
      interface.kind.sectionSuffixes.map fun suffix => (package, name ++ suffix))
    (named : interface.kind = .message ∨ interface.package = package ∧ interface.name = name) :
    interface.package = package ∧ interface.name = name := by
  rcases named with message | full
  · cases interface with
    | message m =>
        have own : (m.package, m.name) = (package, name ++ Text.ofString "") :=
          (List.cons.inj names).1
        exact ⟨(Prod.mk.inj own).1, (Prod.mk.inj own).2.trans (List.append_nil name)⟩
    | service s => cases message
    | action a => cases message
  · exact full

theorem wellFormed_of_ofText (read : ofText kind package name text = .ok interface) :
    interface.kind = kind ∧ interface.WellFormed package name := by
  obtain ⟨rfl, sections, named⟩ := ofText_eq_ok_iff.1 read
  obtain ⟨names, wellFormed⟩ := wellFormed_of_readMessages sections
  obtain ⟨inPackage, hasName⟩ := full_of_sections names named
  exact ⟨rfl, inPackage, hasName, names, wellFormed⟩

end Interface

/-! ## Packages -/

namespace Package

variable {name : Text} {interfaces : List Interface} {shareFiles : List Path} {kind : Kind}

/-- The definitions of a kind are those that the package was made of. -/
theorem perm_interfaces_ofInterfaces :
    ((ofInterfaces name interfaces shareFiles).interfaces kind).Perm
      (interfaces.filter fun i => i.kind = kind) := by
  have sorted {α : Type} (key : α → Text) (pick : Interface → Option α) (back : α → Interface)
      (picks : ∀ i, (pick i).map back = if i.kind = kind then some i else none) :
      ((Text.sortOn key (interfaces.filterMap pick)).map back).Perm
        (interfaces.filter fun i => i.kind = kind) := by
    refine ((Text.perm_sortOn key _).map back).trans (List.Perm.of_eq ?_)
    rw [List.map_filterMap, ← List.filterMap_eq_filter]
    refine List.filterMap_congr fun i _ => ?_
    rw [picks i]
    simp [Option.guard]
  cases kind with
  | message => exact sorted _ _ Interface.message fun i => by cases i <;> rfl
  | service => exact sorted _ _ Interface.service fun i => by cases i <;> rfl
  | action => exact sorted _ _ Interface.action fun i => by cases i <;> rfl

/-- Definitions sorted by kind are the same definitions. -/
theorem perm_filter_kinds (interfaces : List Interface) :
    (Kind.all.flatMap fun kind => interfaces.filter fun i => i.kind = kind).Perm interfaces := by
  simp only [Kind.all, List.flatMap_cons, List.flatMap_nil, List.append_nil]
  induction interfaces with
  | nil => exact .nil
  | cons i rest ih =>
      cases i with
      | message m => exact ih.cons _
      | service s => exact List.perm_middle.trans (ih.cons _)
      | action a =>
          rw [← List.append_assoc] at ih ⊢
          exact List.perm_middle.trans (ih.cons _)

/-- A package declares what it was made of, by kind and name. -/
theorem perm_declarationNames_ofInterfaces :
    (ofInterfaces name interfaces shareFiles).declarationNames.Perm
      (interfaces.map fun i => (i.kind, i.name)) := by
  have ofKind (kind : Kind) :
      (((ofInterfaces name interfaces shareFiles).interfaces kind).map fun i => (kind, i.name)).Perm
        ((interfaces.filter fun i => i.kind = kind).map fun i => (i.kind, i.name)) := by
    refine (perm_interfaces_ofInterfaces.map _).trans (List.Perm.of_eq ?_)
    refine List.map_congr_left fun i member => ?_
    rw [of_decide_eq_true (List.mem_filter.1 member).2]
  refine (List.Perm.flatMap_left Kind.all fun kind _ => ofKind kind).trans ?_
  rw [← List.map_flatMap]
  exact (perm_filter_kinds interfaces).map _

theorem isEmpty_iff {package : Package} :
    package.isEmpty = true ↔ package.declarationNames = [] := by
  simp [isEmpty, declarationNames, Kind.all, Package.interfaces, and_assoc]

/-- The names of the definitions of a kind. -/
def namesOf (package : Package) (kind : Kind) : List Text :=
  (package.interfaces kind).map (·.name)

/-- The names of a kind are those of the definitions that the package was made of. -/
theorem perm_namesOf_ofInterfaces :
    ((ofInterfaces name interfaces shareFiles).namesOf kind).Perm
      ((interfaces.filter fun i => i.kind = kind).map (·.name)) :=
  perm_interfaces_ofInterfaces.map _

/-- A name is declared as often as definitions of its kind have it. -/
theorem count_declarationNames (package : Package) (kind : Kind) (name : Text) :
    package.declarationNames.count (kind, name) = (package.namesOf kind).count name := by
  have own (k : Kind) : (package.interfaces k).map (fun i => (k, i.name)) =
      (package.namesOf k).map (Prod.mk k) := List.map_map.symm
  have here (k : Kind) (names : List Text) :
      (names.map (Prod.mk k)).count (kind, name) = if k = kind then names.count name else 0 := by
    split
    case isTrue same =>
      rw [same]
      exact List.count_map_of_injective names _ (Prod.mk_right_injective kind) name
    case isFalse differ =>
      refine List.count_eq_zero_of_not_mem fun member => ?_
      obtain ⟨_, -, pair⟩ := List.mem_map.1 member
      exact differ (Prod.mk.inj pair).1
  simp only [declarationNames, Kind.all, List.flatMap_cons, List.flatMap_nil, List.count_append,
    own, here]
  cases kind <;> simp

/-- A package declares nothing twice when no two definitions of one kind share a name. -/
theorem nodup_declarationNames_iff {package : Package} :
    package.declarationNames.Nodup ↔ ∀ kind, (package.namesOf kind).Nodup := by
  simp only [List.nodup_iff_count_le_one, Prod.forall, count_declarationNames]

/-- The definitions of each kind are in the order of their names. -/
def InOrder (package : Package) : Prop :=
  ∀ kind, (package.interfaces kind).Pairwise fun a b => a.name.le b.name = true

/-- A package puts its definitions in order. -/
theorem inOrder_ofInterfaces : (ofInterfaces name interfaces shareFiles).InOrder := by
  intro kind
  cases kind with
  | message => exact List.pairwise_map.2 (Text.pairwise_sortOn Message.name _)
  | service => exact List.pairwise_map.2 (Text.pairwise_sortOn Service.name _)
  | action => exact List.pairwise_map.2 (Text.pairwise_sortOn Action.name _)

/-- The definitions of a package were read under its name. -/
def Parsed (package : Package) : Prop :=
  ∃ interfaces, package = .ofInterfaces package.name interfaces package.shareFiles ∧
    ∀ i ∈ interfaces, ∃ kind name text, Interface.ofText kind package.name name text = .ok i

theorem Parsed.wellFormed {package : Package} (parsed : package.Parsed) {interface : Interface}
    (member : interface ∈ package.interfaces kind) :
    interface.kind = kind ∧ interface.WellFormed package.name interface.name := by
  obtain ⟨interfaces, made, read⟩ := parsed
  rw [made] at member
  obtain ⟨inInterfaces, ofKind⟩ := List.mem_filter.1 (perm_interfaces_ofInterfaces.mem_iff.1 member)
  obtain ⟨_, name, _, readAs⟩ := read interface inInterfaces
  obtain ⟨-, wellFormed⟩ := Interface.wellFormed_of_ofText readAs
  exact ⟨of_decide_eq_true ofKind, wellFormed.name_eq ▸ wellFormed⟩

/-- A package is made of its definitions again when those of each kind are in order. -/
theorem eq_ofInterfaces {package : Package}
    (inOrder : ∀ kind, (package.interfaces kind).Pairwise fun a b => a.name.le b.name = true) :
    package =
      .ofInterfaces package.name (Kind.all.flatMap package.interfaces) package.shareFiles := by
  obtain ⟨name, messages, services, actions, shareFiles⟩ := package
  have ofMessages := Text.sortOn_of_pairwise (List.pairwise_map.1 (inOrder .message))
  have ofServices := Text.sortOn_of_pairwise (List.pairwise_map.1 (inOrder .service))
  have ofActions := Text.sortOn_of_pairwise (List.pairwise_map.1 (inOrder .action))
  simp only [Interface.name] at ofMessages ofServices ofActions
  simp [ofInterfaces, Kind.all, Package.interfaces, List.filterMap_map, ofMessages,
    ofServices, ofActions]

/-- In a parsed package the definitions of a kind are in the order of their names. -/
theorem Parsed.inOrder {package : Package} (parsed : package.Parsed) (kind : Kind) :
    (package.interfaces kind).Pairwise fun a b => a.name.le b.name = true := by
  obtain ⟨interfaces, made, -⟩ := parsed
  rw [made]
  exact inOrder_ofInterfaces kind

/-- Definitions in order that were read make up a parsed package. -/
theorem parsed_of_inOrder {package : Package}
    (inOrder : ∀ kind, (package.interfaces kind).Pairwise fun a b => a.name.le b.name = true)
    (read : ∀ kind, ∀ i ∈ package.interfaces kind,
      ∃ name text, Interface.ofText kind package.name name text = .ok i) : package.Parsed := by
  refine ⟨_, eq_ofInterfaces inOrder, fun i member => ?_⟩
  obtain ⟨kind, -, ofKind⟩ := List.mem_flatMap.1 member
  obtain ⟨name, text, result⟩ := read kind i ofKind
  exact ⟨kind, name, text, result⟩

/-! ## A small package -/

/-- A member that holds the message `Point` of its own package. -/
def samplePoint (name : Text) : Member := ⟨name, .single (.named "Point"), none⟩

def sampleMove : Action :=
  { package := "p", name := "Move"
    goal := ⟨"p", "Move_Goal", [samplePoint "to"], []⟩
    result := ⟨"p", "Move_Result", [], []⟩
    feedback := ⟨"p", "Move_Feedback", [], []⟩ }

def sampleInterfaces : List Interface :=
  [.message ⟨"p", "Pair", [samplePoint "first", samplePoint "second"], []⟩,
   .message ⟨"p", "Point", [⟨"x", .single (.primitive (.basic (.integer .int32))), none⟩], []⟩,
   .action sampleMove]

/-- Two messages, of which one holds the other, and an action that holds it as well. -/
def sample : Package := .ofInterfaces "p" sampleInterfaces []

theorem sample_parsed : sample.Parsed := by
  have pair : Section.all "Point first\nPoint second\n" =
      [[(1, Text.ofString "Point first"), (2, Text.ofString "Point second")]] := by
    decide +kernel
  have point : Section.all "int32 x\n" = [[(1, Text.ofString "int32 x")]] := by
    decide +kernel
  have move : Section.all "Point to\n---\n---\n" =
      [[(1, Text.ofString "Point to")], [], []] := by
    decide +kernel
  refine ⟨sampleInterfaces, rfl, ?_⟩
  simp only [sampleInterfaces, List.forall_mem_cons]
  refine ⟨⟨.message, "Pair", "Point first\nPoint second\n", ?_⟩,
    ⟨.message, "Point", "int32 x\n", ?_⟩, ⟨.action, "Move", "Point to\n---\n---\n", ?_⟩, by simp⟩
  · exact Interface.ofText_message pair
      (Message.ofSection_eq_ok_iff.2 ⟨_, .cons rfl (.cons rfl .nil), rfl, by decide⟩)
  · exact Interface.ofText_message point
      (Message.ofSection_eq_ok_iff.2 ⟨_, .cons rfl .nil, rfl, by decide⟩)
  · refine Interface.ofText_eq_ok_iff.2 ⟨rfl, Interface.readMessages_eq_ok_iff.2 ?_,
      .inr ⟨rfl, rfl⟩⟩
    rw [move]
    exact ⟨rfl, .cons (Message.ofSection_eq_ok_iff.2 ⟨_, .cons rfl .nil, rfl, by decide⟩)
      (.cons (Message.ofSection_of_silent rfl) (.cons (Message.ofSection_of_silent rfl) .nil))⟩

/-- The definitions of a kind, up to their order. -/
theorem perm_interfaces_sample (kind : Kind) :
    (sample.interfaces kind).Perm (sampleInterfaces.filter fun i => i.kind = kind) :=
  perm_interfaces_ofInterfaces

end Package

end RosInterface
