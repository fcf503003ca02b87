/-
# RosInterface.Proofs.Output.Collisions -- the one way in which generation fails

Parsed packages can be written (`Output/Writable`), so what is left to go wrong is the layout.
A layout with a module for each definition refuses a package when two definitions of a kind
have one name in snake case (`Interface.Collide`), and no other layout refuses any.  Packages,
kinds and definitions are taken in order, so the failure names the first definition that asks
for the module of an earlier one: `Package.FirstCollision` says which one that is, without
saying how it is found.

`Sources.generation_fails_iff` is the main result: every failure of generation is that one.
-/
import RosInterface.Proofs.Output.Clashes
import RosInterface.Proofs.Output.Writable

set_option autoImplicit false

namespace RosInterface

/-! ## Collisions -/

/-- Two of some definitions, at different places, have one name in snake case. -/
def Interface.Collide (interfaces : List Interface) : Prop :=
  ∃ first second, [first, second].Sublist interfaces ∧
    first.name.snakeCase = second.name.snakeCase

open Interface (Collide)

theorem Package.moduleStem_inj {first second : Interface} :
    moduleStem first = moduleStem second ↔ first.name.snakeCase = second.name.snakeCase :=
  List.append_right_inj (Text.ofString "_")

theorem Interface.not_collide_iff {interfaces : List Interface} :
    ¬ Collide interfaces ↔ (interfaces.map Package.moduleStem).Nodup := by
  rw [List.nodup_iff_sublist, ← not_exists, not_iff_not]
  constructor
  · intro ⟨first, second, among, same⟩
    refine ⟨Package.moduleStem first, ?_⟩
    have stems := among.map Package.moduleStem
    rwa [List.map_cons, List.map_singleton, ← Package.moduleStem_inj.2 same] at stems
  · intro ⟨stem, twice⟩
    obtain ⟨pair, among, same⟩ := List.sublist_map_iff.1 twice
    obtain ⟨first, rest, rfl, ofFirst, others⟩ := List.map_eq_cons_iff.1 same.symm
    obtain ⟨second, rfl, ofSecond⟩ := List.map_eq_singleton_iff.1 others
    exact ⟨first, second, among, Package.moduleStem_inj.1 (ofFirst.trans ofSecond.symm)⟩

namespace Package

variable {package : Package} {layout : ModuleLayout} {kind : Kind} {fault : DuplicateFault}

/-- The definition is the first of its kind that has the name of an earlier one in snake case. -/
def RepeatsFirst (package : Package) (kind : Kind) (interface : Interface) : Prop :=
  ∃ before after, package.interfaces kind = before ++ interface :: after ∧ ¬ Collide before ∧
    ∃ earlier ∈ before, earlier.name.snakeCase = interface.name.snakeCase

/-- The first of some packages in which definitions collide, the first kind in which they do,
and the first definition of that kind that has the name of an earlier one. -/
structure FirstCollision (packages : List Package) (package : Package) (kind : Kind)
    (interface : Interface) : Prop where
  ofPackages : ∃ before after, packages = before ++ package :: after ∧
    ∀ p ∈ before, ∀ k, ¬ Collide (p.interfaces k)
  ofKinds : ∃ before after, Kind.all = before ++ kind :: after ∧
    ∀ k ∈ before, ¬ Collide (package.interfaces k)
  ofDefinitions : package.RepeatsFirst kind interface

/-- What is said of a definition whose module is taken: the module has that path already. -/
def collisionFault (package : Package) (kind : Kind) (interface : Interface) : DuplicateFault :=
  .moduleFile (package.pathTo [kind.text, "_" ++ interface.name.snakeCase ++ ".py"])

/-! ## How a package is refused -/

/-- The search for own modules ends at the first name that is taken. -/
theorem ownModules_eq_error_iff {taken : List Text} {interfaces : List Interface} :
    package.ownModules kind taken interfaces = .error fault ↔
      ∃ before interface after, interfaces = before ++ interface :: after ∧
        (before.map moduleStem).Nodup ∧ (∀ i ∈ before, moduleStem i ∉ taken) ∧
        (moduleStem interface ∈ taken ∨ moduleStem interface ∈ before.map moduleStem) ∧
        fault = package.collisionFault kind interface := by
  induction interfaces generalizing taken with
  | nil =>
      constructor
      · intro refused
        cases refused
      · rintro ⟨before, interface, after, whole, -⟩
        simp at whole
  | cons first rest ih =>
      rw [ownModules]
      by_cases isTaken : moduleStem first ∈ taken
      · have contained : taken.contains (moduleStem first) = true := by simpa using isTaken
        rw [if_pos contained]
        constructor
        · intro refused
          cases refused
          exact ⟨[], first, rest, rfl, by simp, by simp, .inl isTaken, rfl⟩
        · rintro ⟨before, interface, after, whole, -, apart, -, same⟩
          cases before with
          | nil =>
              cases whole
              rw [same]
              rfl
          | cons other before =>
              cases whole
              exact absurd isTaken (apart first List.mem_cons_self)
      · have free : ¬ taken.contains (moduleStem first) = true := by simpa using isTaken
        rw [if_neg free, Outcome.bind_eq_error_iff]
        constructor
        · rintro (refused | ⟨others, -, whole⟩)
          · obtain ⟨before, interface, after, rfl, distinct, apart, again, rfl⟩ := ih.1 refused
            have fresh : moduleStem first ∉ before.map moduleStem := by
              intro member
              obtain ⟨i, inBefore, same⟩ := List.mem_map.1 member
              exact apart i inBefore (same ▸ List.mem_cons_self)
            refine ⟨first :: before, interface, after, rfl, List.nodup_cons.2 ⟨fresh, distinct⟩,
              ?_, ?_, rfl⟩
            · intro i member
              rcases List.mem_cons.1 member with rfl | inBefore
              · exact isTaken
              · exact fun inTaken => apart i inBefore (List.mem_cons_of_mem _ inTaken)
            · simp only [List.mem_cons, List.map_cons] at again ⊢
              tauto
          · cases whole
        · rintro ⟨before, interface, after, whole, distinct, apart, again, same⟩
          left
          cases before with
          | nil =>
              cases whole
              simp [isTaken] at again
          | cons other before =>
              cases whole
              rw [List.map_cons, List.nodup_cons] at distinct
              refine ih.2 ⟨before, interface, after, rfl, distinct.2, ?_, ?_, same⟩
              · intro i inBefore
                rw [List.mem_cons, not_or]
                refine ⟨fun stem => distinct.1 (stem ▸ List.mem_map_of_mem inBefore), ?_⟩
                exact apart i (List.mem_cons_of_mem _ inBefore)
              · simp only [List.mem_cons, List.map_cons] at again ⊢
                tauto

theorem repeatsFirst_iff {interface : Interface} :
    package.RepeatsFirst kind interface ↔ ∃ before after,
      package.interfaces kind = before ++ interface :: after ∧ (before.map moduleStem).Nodup ∧
        moduleStem interface ∈ before.map moduleStem := by
  simp only [RepeatsFirst, Interface.not_collide_iff, List.mem_map, moduleStem_inj]

/-- A kind is refused for its first definition whose module is taken. -/
theorem kindModules_eq_error_iff :
    package.kindModules layout kind = .error fault ↔
      layout = .declaration ∧ ∃ interface, package.RepeatsFirst kind interface ∧
        fault = package.collisionFault kind interface := by
  unfold kindModules
  by_cases empty : package.interfaces kind = []
  · have none_ (interface : Interface) : ¬ package.RepeatsFirst kind interface := by
      intro ⟨before, after, whole, _⟩
      rw [empty] at whole
      simp at whole
    simp [empty, none_]
  · have some_ : ¬ (package.interfaces kind).isEmpty = true := by simpa using empty
    rw [if_neg some_]
    cases layout with
    | package | single => simp
    | declaration =>
        simp only [Outcome.bind_eq_error_iff, ownModules_eq_error_iff, repeatsFirst_iff]
        constructor
        · rintro (⟨before, interface, after, whole, distinct, -, again, same⟩ | ⟨_, -, whole⟩)
          · refine ⟨trivial, interface, ⟨before, after, whole, distinct, ?_⟩, same⟩
            simpa using again
          · cases whole
        · intro ⟨_, interface, ⟨before, after, whole, distinct, again⟩, same⟩
          exact .inl ⟨before, interface, after, whole, distinct, by simp, .inr again, same⟩

theorem exists_kindModules_iff :
    (∃ found, package.kindModules .declaration kind = .ok found) ↔
      ¬ Collide (package.interfaces kind) := by
  rw [Interface.not_collide_iff]
  simp [kindModules_eq_ok_iff]

/-- A package is refused for the first kind in which definitions collide. -/
theorem modules_eq_error_iff :
    package.modules layout = .error fault ↔
      layout = .declaration ∧ ∃ kind interface,
        (∃ before after, Kind.all = before ++ kind :: after ∧
          ∀ k ∈ before, ¬ Collide (package.interfaces k)) ∧
        package.RepeatsFirst kind interface ∧ fault = package.collisionFault kind interface := by
  unfold modules
  rw [Outcome.bind_eq_error_iff, Outcome.mapM_eq_error_iff]
  simp only [kindModules_eq_error_iff]
  constructor
  · rintro (⟨before, kind, after, whole, earlier, rfl, interface, first, same⟩ | ⟨_, -, whole⟩)
    · simp only [exists_kindModules_iff] at earlier
      exact ⟨rfl, kind, interface, ⟨before, after, whole, earlier⟩, first, same⟩
    · cases whole
  · rintro ⟨rfl, kind, interface, ⟨before, after, whole, earlier⟩, first, same⟩
    simp only [← exists_kindModules_iff] at earlier
    exact .inl ⟨before, kind, after, whole, earlier, rfl, interface, first, same⟩

theorem exists_modules_iff :
    (∃ files, package.modules .declaration = .ok files) ↔
      ∀ kind, ¬ Collide (package.interfaces kind) := by
  simp only [Interface.not_collide_iff, modules_eq_ok_iff, exists_and_left, exists_eq, and_true,
    StemsDistinct, true_imp_iff]

/-- The path of a module in words. -/
theorem name_collisionFault {interface : Interface} (component : Path.IsComponent package.name)
    (plain : CodePoint.slash ∉ interface.name.snakeCase) :
    (package.collisionFault kind interface).name =
      package.name ++ "/" ++ kind.text ++ "/_" ++ interface.name.snakeCase ++ ".py" := by
  have path : package.pathTo [kind.text, moduleStem interface ++ ".py"] =
      ⟨.none, package.name :: kind.text :: ownPlace interface⟩ := path_ownModule component interface
  have free : CodePoint.slash ∉ moduleStem interface ++ Text.ofString ".py" := by
    simp only [moduleStem, List.mem_append, not_or]
    exact ⟨⟨by decide, plain⟩, by decide⟩
  have place : ownPlace interface = [moduleStem interface ++ ".py"] :=
    Path.componentsOf_of_not_mem free (by simp [moduleStem, Text.ofString])
      (by simp [moduleStem, Text.ofString])
  rw [place] at path
  show Path.text (package.pathTo [kind.text, moduleStem interface ++ ".py"]) = _
  rw [path, Path.text, if_neg (by simp [Path.here])]
  simp [Anchor.text, Text.joined, List.intercalate, moduleStem, Text.ofString]

end Package

/-! ## How generation fails -/

namespace Sources

open Package (FirstCollision)

variable {package : Package} {packages : List Package} {layout : ModuleLayout} {comments : Bool}
  {failure : Failure}

theorem ofPackage_eq_error_iff (parsed : package.Parsed) (many : layout ≠ .single) :
    ofPackage package layout comments = .error failure ↔
      ∃ fault, package.modules layout = .error fault ∧
        failure = .diagnostic (.ofFault (.duplicate fault)) := by
  rw [ofPackage_eq many]
  cases laidOut : package.modules layout with
  | error fault =>
      constructor
      · intro refused
        cases refused
        exact ⟨fault, rfl, rfl⟩
      · intro ⟨_, same, whole⟩
        cases same
        rw [whole]
        rfl
  | ok files =>
      obtain ⟨-, rfl⟩ := Package.modules_eq_ok_iff.1 laidOut
      obtain ⟨texts, written⟩ : ∃ texts,
          (package.files layout).mapM (·.text layout comments) = .ok texts :=
        Outcome.exists_mapM_iff.2 fun file member => parsed.exists_text comments member
      simp [written]

theorem exists_ofPackage_iff (parsed : package.Parsed) :
    (∃ sources, ofPackage package .declaration comments = .ok sources) ↔
      ∀ kind, ¬ Collide (package.interfaces kind) := by
  rw [← Package.exists_modules_iff]
  constructor
  · intro ⟨sources, generated⟩
    obtain ⟨files, -, laidOut, -⟩ := exists_hold_of_ofPackage (by decide) generated
    exact ⟨files, laidOut⟩
  · intro ⟨files, laidOut⟩
    cases generated : ofPackage package .declaration comments with
    | ok sources => exact ⟨sources, rfl⟩
    | error failure =>
        obtain ⟨fault, same, -⟩ := (ofPackage_eq_error_iff parsed (by decide)).1 generated
        rw [laidOut] at same
        cases same

theorem exists_ofPackages_iff (parsed : ∀ p ∈ packages, p.Parsed) :
    (∃ sources, ofPackages packages .declaration comments = .ok sources) ↔
      ∀ p ∈ packages, ∀ kind, ¬ Collide (p.interfaces kind) := by
  have whole : (∃ sources, ofPackages packages .declaration comments = .ok sources) ↔
      ∃ parts, packages.mapM (ofPackage · .declaration comments) = .ok parts := by
    rw [ofPackages_eq (by decide)]
    simp only [Outcome.bind_eq_ok_iff]
    constructor
    · intro ⟨_, parts, read, _⟩
      exact ⟨parts, read⟩
    · intro ⟨parts, read⟩
      exact ⟨_, parts, read, rfl⟩
  rw [whole, Outcome.exists_mapM_iff]
  exact forall₂_congr fun p member => exists_ofPackage_iff (parsed p member)

/-- A single file takes every parsed package. -/
theorem exists_ofPackages_single (parsed : ∀ p ∈ packages, p.Parsed) :
    ∃ sources, ofPackages packages .single comments = .ok sources := by
  obtain ⟨nested, written⟩ := Outcome.exists_mapM_iff.2 fun p member =>
    (parsed p member).exists_nestedSteps
  exact ⟨_, Outcome.bind_eq_ok_iff.2 ⟨nested, written, rfl⟩⟩

theorem ofPackages_eq_error_iff (parsed : ∀ p ∈ packages, p.Parsed) :
    ofPackages packages layout comments = .error failure ↔
      layout = .declaration ∧ ∃ package kind interface,
        FirstCollision packages package kind interface ∧
        failure = .diagnostic (.ofFault (.duplicate (package.collisionFault kind interface))) := by
  by_cases single : layout = .single
  · subst single
    have generated : ∃ sources, ofPackages packages .single comments = .ok sources :=
      exists_ofPackages_single parsed
    obtain ⟨sources, generated⟩ := generated
    simp [generated]
  · rw [ofPackages_eq single, Outcome.bind_eq_error_iff, Outcome.mapM_eq_error_iff]
    constructor
    · rintro (⟨before, package, after, rfl, earlier, refused⟩ | ⟨_, -, whole⟩)
      · obtain ⟨fault, laidOut, rfl⟩ :=
          (ofPackage_eq_error_iff (parsed _ (by simp)) single).1 refused
        obtain ⟨rfl, kind, interface, ofKinds, first, rfl⟩ := Package.modules_eq_error_iff.1 laidOut
        refine ⟨rfl, package, kind, interface, ⟨⟨before, after, rfl, ?_⟩, ofKinds, first⟩, rfl⟩
        intro p member
        exact (exists_ofPackage_iff (parsed p (by simp [member]))).1 (earlier p member)
      · cases whole
    · rintro ⟨rfl, package, kind, interface, ⟨⟨before, after, rfl, earlier⟩, ofKinds, first⟩, rfl⟩
      refine .inl ⟨before, package, after, rfl, ?_, ?_⟩
      · intro p member
        exact (exists_ofPackage_iff (parsed p (by simp [member]))).2 (earlier p member)
      · exact (ofPackage_eq_error_iff (parsed _ (by simp)) single).2
          ⟨_, Package.modules_eq_error_iff.2 ⟨rfl, kind, interface, ofKinds, first, rfl⟩, rfl⟩

/-- **Generation of parsed packages fails for one reason only.**  It gives sources in every
layout but the one with a module for each definition; there it fails exactly when in some
package two definitions of a kind have one name in snake case, and the failure names the
module of the first of them, by package, by kind and by name. -/
theorem generation_fails_iff (parsed : ∀ p ∈ packages, p.Parsed) :
    (layout ≠ .declaration → ∃ sources, ofPackages packages layout comments = .ok sources) ∧
      ((∃ failure, ofPackages packages .declaration comments = .error failure) ↔
        ∃ p ∈ packages, ∃ kind, Collide (p.interfaces kind)) ∧
      (∀ failure, ofPackages packages layout comments = .error failure ↔
        layout = .declaration ∧ ∃ package kind interface,
          FirstCollision packages package kind interface ∧
          failure =
            .diagnostic (.ofFault (.duplicate (package.collisionFault kind interface)))) ∧
      (∀ p ∈ packages, ∀ kind,
        (p.interfaces kind).Pairwise (fun a b => a.name.le b.name = true) ∧
        (Path.IsComponent p.name → ∀ i ∈ p.interfaces kind,
          CodePoint.slash ∉ i.name.snakeCase → (p.collisionFault kind i).name =
            p.name ++ "/" ++ kind.text ++ "/_" ++ i.name.snakeCase ++ ".py")) := by
  refine ⟨fun other => ?_, ?_, fun failure => ofPackages_eq_error_iff parsed, ?_⟩
  · cases generated : ofPackages packages layout comments with
    | ok sources => exact ⟨sources, rfl⟩
    | error failure => exact absurd ((ofPackages_eq_error_iff parsed).1 generated).1 other
  · rw [Outcome.exists_error_iff, exists_ofPackages_iff parsed]
    simp only [not_forall, not_not, exists_prop]
  · intro p member kind
    exact ⟨(parsed p member).inOrder kind, fun component i _ plain =>
      Package.name_collisionFault component plain⟩

end Sources

/-! ## A package with a collision -/

/-- Two empty messages whose names differ by letter case only. -/
def Package.colliding : Package where
  name := "p"
  messages := [⟨"p", "HTTPServer", [], []⟩, ⟨"p", "HttpServer", [], []⟩]
  services := []
  actions := []
  shareFiles := []

theorem Package.colliding_parsed : colliding.Parsed := by
  have blank : Section.all "" = [[(1, [])]] := by decide +kernel
  apply parsed_of_inOrder
  · intro kind
    cases kind <;> decide +kernel
  · intro kind interface member
    have read (name : Text) :
        Interface.ofText .message "p" name "" = .ok (.message ⟨"p", name, [], []⟩) :=
      Interface.ofText_message blank (Message.ofSection_of_silent rfl)
    cases kind with
    | message =>
        rcases List.mem_pair.1 member with rfl | rfl
        · exact ⟨_, _, read "HTTPServer"⟩
        · exact ⟨_, _, read "HttpServer"⟩
    | service | action => cases member

/-- It is generated as one module, and refused where each message has its own. -/
theorem Sources.generation_fails_iff_colliding :
    (∀ p ∈ [Package.colliding], p.Parsed) ∧
      (∃ sources, ofPackages [.colliding] .package true = .ok sources) ∧
      ofPackages [.colliding] .declaration true = .error (.diagnostic (.ofFault (.duplicate
        (.moduleFile ⟨.none, ["p", "msg", "_http_server.py"]⟩)))) := by
  have parsed : ∀ p ∈ [Package.colliding], p.Parsed := by simpa using Package.colliding_parsed
  refine ⟨parsed, (generation_fails_iff parsed).1 (by decide), ?_⟩
  have path : Package.collisionFault .colliding .message (.message ⟨"p", "HttpServer", [], []⟩) =
      .moduleFile ⟨.none, ["p", "msg", "_http_server.py"]⟩ := by decide +kernel
  rw [← path]
  refine ((generation_fails_iff parsed).2.2.1 _).2 ⟨rfl, _, .message, _, ?_, rfl⟩
  refine ⟨⟨[], [], rfl, by simp⟩, ⟨[], _, rfl, by simp⟩, [.message ⟨"p", "HTTPServer", [], []⟩],
    [], rfl, ?_, _, List.mem_cons_self, by decide +kernel⟩
  rw [Interface.not_collide_iff]
  exact List.nodup_singleton _

end RosInterface
