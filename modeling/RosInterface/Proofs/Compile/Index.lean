/-
# RosInterface.Proofs.Compile.Index -- what a run keeps of the indexes

A run that ends well has found some packages in the indexes of its locations, and every
listed line of their index files has become a definition.  `Result.KeepsIndex` says that
this was all: the names are those of the packages that were found, each once and in order;
a found package declares what its listed lines name and nothing else; and it is among the
packages of the result exactly when there is such a line.  The main result is
`Compile.run_keepsIndex`, for every tree, setting and environment.
-/
import RosInterface.Proofs.Compile.Success

set_option autoImplicit false

namespace RosInterface.Compile

variable {settings : Settings} {environment : Environment} {tree : FileTree} {result : Result}

/-! ## What is kept -/

/-- What a run keeps of the indexes at the locations that it searched. -/
structure Result.KeepsIndex (result : Result) (settings : Settings) (tree : FileTree) : Prop where
  names_sorted : result.packageNames.Pairwise fun s t => Text.le s t = true
  names_nodup : result.packageNames.Nodup
  mem_names : ∀ name, name ∈ result.packageNames ↔
    ∃ location, tree.Finds settings.excluded settings.locations location name
  packages_sorted : result.packages.Pairwise fun p q => Text.le p.name q.name = true
  packages_nodup : (result.packages.map (·.name)).Nodup
  packages_found : ∀ package ∈ result.packages, package.name ∈ result.packageNames
  /-- The listed lines of a package that was found are its definitions, and it is kept when
  there are any. -/
  declares : ∀ location name, tree.Finds settings.excluded settings.locations location name →
    ∃ lines declared, tree.IndexLines location name lines ∧
      List.Forall₂ IndexEntry.Names (lines.filter fun line => IndexEntry.Listed line) declared ∧
      declared.Nodup ∧
      ((∃ package ∈ result.packages, package.name = name) ↔ declared ≠ []) ∧
      ∀ package ∈ result.packages, package.name = name → package.declarationNames.Perm declared

/-- **A run keeps exactly what the indexes list.** -/
theorem run_keepsIndex (returned : run settings environment tree = .ok result) :
    result.KeepsIndex (settings.resolve environment) tree := by
  obtain ⟨found, stages⟩ := exists_stages returned
  refine
    { names_sorted := stages.names_eq ▸ Text.pairwise_sort _
      names_nodup := stages.names_eq ▸ (Text.perm_sort _).nodup_iff.2 stages.nodup
      mem_names := fun name => stages.mem_names_iff_finds
      packages_sorted := stages.packages_eq ▸ (Text.pairwise_sortOn _ _).filter _
      packages_nodup := stages.nodup_packages
      packages_found := fun package kept => ?_
      declares := fun location name finds => ?_ }
  · obtain ⟨p, member, rfl, -⟩ := stages.mem_packages.1 kept
    exact stages.mem_names.2 ⟨p, member, rfl⟩
  · obtain ⟨p, member, rfl, rfl⟩ := InstalledPackage.exists_of_discover stages.discovered finds
    obtain ⟨lines, declared, hasLines, named, perm⟩ := stages.exists_declared member
    refine ⟨lines, declared, hasLines, named, perm.nodup_iff.1 (stages.distinct p member), ?_, ?_⟩
    · rw [stages.kept_iff member, not_iff_not]
      exact ⟨fun empty => (empty ▸ perm).symm.eq_nil, fun empty => (empty ▸ perm).eq_nil⟩
    · intro package kept same
      rw [stages.eq_packageOf kept member same]
      exact perm

/-! ## Three installations -/

/-- Lines about two interface files, one of them with a dot in its name, and a line about another
file. -/
def variedIndex : Text := "msg/Zone.idl\nmsg/Zone.json\n  msg/a.b.idl \n"

/-- Three installations: one has two messages, one has an index without a listed line, and one has
an index that cannot be read. -/
def variedTree : FileTree where
  root := .folder [("a", sampleInstallation "p" variedIndex ["Zone.msg", "a.b.msg"]),
    ("b", sampleInstallation "o" "msg/Zone.json\n" []),
    ("c", sampleInstallation "q" "other/Zone.idl\n" [])]
  workingFolder := []

/-- The third package is excluded, and the last location is not there. -/
def variedSettings : Settings :=
  { sampleSettings with
    locations := [⟨.root, ["a"]⟩, ⟨.root, ["b"]⟩, ⟨.root, ["c"]⟩, ⟨.root, ["d"]⟩]
    excluded := ["q"] }

def variedPackage : InstalledPackage :=
  ⟨"p", ⟨.root, ["a"]⟩, [messageEntry "Zone.msg", messageEntry "a.b.msg"]⟩

def emptyPackage : InstalledPackage := ⟨"o", ⟨.root, ["b"]⟩, []⟩

theorem variedTree_discover :
    InstalledPackage.discover variedTree ["q"] variedSettings.locations =
      .ok [variedPackage, emptyPackage] := by
  have first : InstalledPackage.atLocation variedTree ["q"] ⟨.root, ["a"]⟩ =
      .ok [variedPackage] := by
    have decoded : Utf8.decode (variedIndex.flatMap Utf8.bytesOf) = .ok variedIndex := by
      decide +kernel
    have each : variedIndex.unifyNewlines.lines.mapM IndexEntry.ofLine =
        .ok [some (messageEntry "Zone.msg"), none, some (messageEntry "a.b.msg")] := by
      decide +kernel
    exact InstalledPackage.atLocation_of_single rfl (by decide) rfl decoded each
  have second : InstalledPackage.atLocation variedTree ["q"] ⟨.root, ["b"]⟩ =
      .ok [emptyPackage] := by
    have decoded : Utf8.decode (("msg/Zone.json\n" : Text).flatMap Utf8.bytesOf) =
        .ok "msg/Zone.json\n" := by decide +kernel
    have each : ("msg/Zone.json\n" : Text).unifyNewlines.lines.mapM IndexEntry.ofLine =
        .ok [none] := by decide +kernel
    exact InstalledPackage.atLocation_of_single rfl (by decide) rfl decoded each
  have third : InstalledPackage.atLocation variedTree ["q"] ⟨.root, ["c"]⟩ = .ok [] := by
    have entries : InstalledPackage.indexEntries variedTree ⟨.root, ["c"]⟩ =
        .ok [("q", false)] :=
      congrArg Except.ok (Text.sortOn_of_pairwise (List.pairwise_singleton _ _))
    have passed : InstalledPackage.ofIndexEntry variedTree ["q"] ⟨.root, ["c"]⟩ ("q", false) =
        .ok none :=
      InstalledPackage.ofIndexEntry_eq_none_iff.2 ⟨by decide +kernel, .inr (by decide)⟩
    exact InstalledPackage.atLocation_eq_ok_iff.2
      ⟨_, [none], entries, Outcome.mapM_eq_ok_iff.2 (.cons passed .nil), rfl⟩
  have last : InstalledPackage.atLocation variedTree ["q"] ⟨.root, ["d"]⟩ = .ok [] := rfl
  exact Outcome.bind_eq_ok_iff.2 ⟨_, Outcome.mapM_eq_ok_iff.2
    (.cons first (.cons second (.cons third (.cons last .nil)))), rfl⟩

theorem variedTree_values : ∀ p ∈ [variedPackage, emptyPackage],
    ∀ outcome ∈ outcomes variedTree p, ∃ value, outcome = .ok value := by
  have empty : ∀ p ∈ [variedPackage, emptyPackage], ∀ path ∈ p.paths,
      path.suffix = Kind.message.suffix ∧ variedTree.read path = .ok [] := by decide +kernel
  exact fun p member => values_of_empty (empty p member)

/-- Of the two packages that are found, the one with listed lines is kept, with a definition for
each of them. -/
theorem run_keepsIndex_varied :
    ∃ result package, run variedSettings [] variedTree = .ok result ∧
      result.packageNames = ["o", "p"] ∧ result.packages = [package] ∧ package.name = "p" ∧
      package.declarationNames.Perm [(.message, "Zone"), (.message, "a.b")] ∧
      result.KeepsIndex variedSettings variedTree := by
  have discovered : InstalledPackage.discover variedTree variedSettings.excluded
      variedSettings.locations = .ok [variedPackage, emptyPackage] := variedTree_discover
  obtain ⟨packages, sources, stages, generated⟩ := exists_generate (fun _ none_ => by cases none_)
    discovered variedTree_values (by decide) (by decide +kernel) (by decide)
  have returned : run variedSettings [] variedTree =
      .ok ⟨Text.sort ["p", "o"], packages, sources, [], variedTree⟩ :=
    run_of_generate rfl generated
  have names : Text.sort ["p", "o"] = ["o", "p"] :=
    (Text.eq_sort_iff.2 ⟨by decide, by decide⟩).symm
  have declares := perm_declared discovered variedTree_values List.mem_cons_self
  have declaresNone := perm_declared discovered variedTree_values
    (List.mem_cons_of_mem _ List.mem_cons_self)
  have kept : packages = [packageOf variedTree variedPackage] := by
    refine List.perm_singleton.1 ((List.perm_ext_iff_of_nodup stages.nodup_packages.of_map
      (List.nodup_singleton _)).2 fun package => ?_)
    rw [stages.mem_packages, List.mem_singleton]
    constructor
    · rintro ⟨p, member, rfl, some_⟩
      rcases List.mem_pair.1 member with rfl | rfl
      · rfl
      · exact absurd declaresNone.eq_nil some_
    · rintro rfl
      refine ⟨variedPackage, List.mem_cons_self, rfl, fun none_ => ?_⟩
      rw [none_] at declares
      exact absurd declares.symm.eq_nil (List.cons_ne_nil _ _)
  exact ⟨_, _, returned, names, kept, rfl, declares, run_keepsIndex returned⟩

end RosInterface.Compile
