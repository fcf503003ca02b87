/-
# RosInterface.Proofs.Output.Source -- when no generated text is lost

Sources keep one text for each path, so setting a path again loses the text that was
there.  `Sources.Hold` says that some sources have the texts of all of some modules, each
under the path of its module, and that is so exactly when no two modules share a path
(`Sources.ofPackages_holds_iff`).  Whatever was set, the paths of sources are distinct
(`Sources.nodup_paths_merge`), which is why a shared path cannot go unnoticed there.
-/
import RosInterface.Output.Source
import RosInterface.Proofs.Outcome
import RosInterface.Proofs.Output.Layout

set_option autoImplicit false

namespace RosInterface.Sources

/-- The paths of some sources, in order. -/
def paths (sources : Sources) : List Path := sources.map (·.1)

variable {sources more : Sources} {path : Path} {text : Text}

theorem paths_append : paths (sources ++ more) = sources.paths ++ more.paths := List.map_append

theorem set_of_not_mem (fresh : path ∉ sources.paths) :
    sources.set path text = sources ++ [(path, text)] := by
  induction sources with
  | nil => rfl
  | cons source rest ih =>
      obtain ⟨other, old⟩ := source
      rw [paths, List.map_cons, List.mem_cons, not_or] at fresh
      rw [set, if_neg (Ne.symm fresh.1), ih fresh.2]
      rfl

/-- Setting a path that is there changes no path. -/
theorem paths_set_of_mem (known : path ∈ sources.paths) :
    (sources.set path text).paths = sources.paths := by
  induction sources with
  | nil => cases known
  | cons source rest ih =>
      obtain ⟨other, old⟩ := source
      rw [set]
      split
      case isTrue same => rw [paths, paths, List.map_cons, List.map_cons, same]
      case isFalse differ =>
        have later := (List.mem_cons.1 known).resolve_left (Ne.symm differ)
        exact congrArg (other :: ·) (ih later)

theorem mem_of_mem_set {source : Path × Text} (member : source ∈ sources.set path text) :
    source ∈ sources ∨ source = (path, text) := by
  induction sources with
  | nil => exact .inr (List.mem_singleton.1 member)
  | cons first rest ih =>
      obtain ⟨other, old⟩ := first
      rw [set] at member
      split at member
      · exact (List.mem_cons.1 member).elim .inr fun inRest => .inl (List.mem_cons_of_mem _ inRest)
      · rcases List.mem_cons.1 member with rfl | inRest
        · exact .inl List.mem_cons_self
        · exact (ih inRest).imp_left (List.mem_cons_of_mem _)

theorem mem_of_mem_merge {source : Path × Text} (member : source ∈ sources.merge more) :
    source ∈ sources ∨ source ∈ more := by
  induction more generalizing sources with
  | nil => exact .inl member
  | cons first more ih =>
      have step : sources.merge (first :: more) = (sources.set first.1 first.2).merge more := rfl
      rw [step] at member
      rcases ih member with inSet | inMore
      · refine (mem_of_mem_set inSet).imp_right ?_
        rintro rfl
        exact List.mem_cons_self
      · exact .inr (List.mem_cons_of_mem _ inMore)

/-- A text among merged sources is one of the texts that were merged. -/
theorem mem_of_mem_foldl_merge {parts : List Sources} {source : Path × Text}
    (member : source ∈ parts.foldl merge sources) :
    source ∈ sources ∨ ∃ part ∈ parts, source ∈ part := by
  induction parts generalizing sources with
  | nil => exact .inl member
  | cons part parts ih =>
      rw [List.foldl_cons] at member
      rcases ih member with inFirst | ⟨other, inParts, inOther⟩
      · exact (mem_of_mem_merge inFirst).imp_right fun own => ⟨part, List.mem_cons_self, own⟩
      · exact .inr ⟨other, List.mem_cons_of_mem _ inParts, inOther⟩

theorem nodup_paths_set (distinct : sources.paths.Nodup) :
    (sources.set path text).paths.Nodup := by
  by_cases known : path ∈ sources.paths
  · rwa [paths_set_of_mem known]
  · rw [set_of_not_mem known, paths_append, List.nodup_append]
    refine ⟨distinct, List.pairwise_singleton _ path, fun other member last inLast same => ?_⟩
    rw [same, List.mem_singleton.1 inLast] at member
    exact known member

/-- No path comes twice in sources, however they were set. -/
theorem nodup_paths_merge (distinct : sources.paths.Nodup) : (sources.merge more).paths.Nodup := by
  induction more generalizing sources with
  | nil => exact distinct
  | cons source more ih => exact ih (nodup_paths_set distinct)

/-- Where no path comes twice, sources are merged by putting them together. -/
theorem merge_of_nodup (distinct : (paths (sources ++ more)).Nodup) :
    sources.merge more = sources ++ more := by
  induction more generalizing sources with
  | nil => exact (List.append_nil sources).symm
  | cons source more ih =>
      have fresh : source.1 ∉ sources.paths := by
        intro known
        rw [paths_append, List.nodup_append] at distinct
        exact distinct.2.2 _ known _ List.mem_cons_self rfl
      have step : sources.merge (source :: more) = merge (sources ++ [source]) more := by
        rw [merge, List.foldl_cons]
        exact congrArg (merge · more) (set_of_not_mem fresh)
      rw [← List.singleton_append, ← List.append_assoc] at distinct
      rw [step, ih distinct, List.append_assoc, List.singleton_append]

theorem nodup_paths_foldl_merge {parts : List Sources} (distinct : sources.paths.Nodup) :
    (parts.foldl merge sources).paths.Nodup := by
  induction parts generalizing sources with
  | nil => exact distinct
  | cons part parts ih => exact ih (nodup_paths_merge distinct)

theorem foldl_merge_of_nodup {parts : List Sources}
    (distinct : (paths (sources ++ parts.flatten)).Nodup) :
    (parts.map (merge [])).foldl merge sources = sources ++ parts.flatten := by
  induction parts generalizing sources with
  | nil => exact (List.append_nil sources).symm
  | cons part parts ih =>
      rw [List.flatten_cons, ← List.append_assoc] at distinct
      have both : (paths (sources ++ part)).Nodup := by
        rw [paths_append, List.nodup_append] at distinct
        exact distinct.1
      have own : (paths ([] ++ part)).Nodup := by
        rw [paths_append, List.nodup_append] at both
        exact both.2.1
      rw [List.map_cons, List.foldl_cons, merge_of_nodup own, List.nil_append,
        merge_of_nodup both, ih distinct, List.append_assoc, List.flatten_cons]

/-! ## Some of the paths -/

section Keep

variable (keep : Path → Bool)

theorem filter_set :
    (sources.set path text).filter (fun source => keep source.1) =
      if keep path then set path text (sources.filter fun source => keep source.1)
      else sources.filter fun source => keep source.1 := by
  induction sources with
  | nil => cases kept : keep path <;> simp [set, kept]
  | cons source rest ih =>
      obtain ⟨other, old⟩ := source
      rw [set]
      split
      case isTrue same =>
        subst same
        cases kept : keep other <;> simp [set, kept]
      case isFalse differ =>
        rw [List.filter_cons, List.filter_cons, ih]
        cases kept : keep other <;> cases keep path <;> simp [set, differ]

/-- Paths can be left out before sources are merged as well as after it. -/
theorem filter_merge :
    (sources.merge more).filter (fun source => keep source.1) =
      merge (sources.filter fun source => keep source.1)
        (more.filter fun source => keep source.1) := by
  induction more generalizing sources with
  | nil => rfl
  | cons source more ih =>
      have step (sources : Sources) : sources.merge (source :: more) =
          (sources.set source.1 source.2).merge more := rfl
      rw [step, ih, filter_set, List.filter_cons]
      cases keep source.1 <;> rfl

end Keep

/-! ## Sources of modules -/

/-- The sources are the texts of the modules, each under the path of its module. -/
def Hold (sources : Sources) (layout : ModuleLayout) (comments : Bool) (files : List ModuleFile) :
    Prop :=
  List.Forall₂ (fun source file => source.1 = file.path ∧
    file.text layout comments = .ok source.2) sources files

variable {layout : ModuleLayout} {comments : Bool} {files : List ModuleFile}

theorem Hold.paths_eq (hold : sources.Hold layout comments files) :
    sources.paths = files.map (·.path) :=
  Outcome.map_eq_of_forall₂ hold fun _ _ both => both.1

theorem hold_zip {texts : List Text}
    (written : List.Forall₂ (fun file text => ModuleFile.text layout comments file = .ok text)
      files texts) :
    Hold ((files.map (·.path)).zip texts) layout comments files := by
  induction written with
  | nil => exact .nil
  | cons first _ ih => exact .cons ⟨rfl, first⟩ ih

theorem ofPackage_eq {package : Package} (many : layout ≠ .single) :
    ofPackage package layout comments =
      match package.modules layout with
      | .error fault => .fault (.duplicate fault)
      | .ok files => do
          let texts ← files.mapM (·.text layout comments)
          return merge [] ((files.map (·.path)).zip texts) := by
  cases layout with
  | single => exact absurd rfl many
  | package | declaration => rfl

theorem ofPackages_eq {packages : List Package} (many : layout ≠ .single) :
    ofPackages packages layout comments = do
      let parts ← packages.mapM fun package => ofPackage package layout comments
      return parts.foldl merge [] := by
  cases layout with
  | single => exact absurd rfl many
  | package | declaration => rfl

/-- The sources of a package come from the texts of its modules, set one by one. -/
theorem exists_hold_of_ofPackage {package : Package} (many : layout ≠ .single)
    (generated : ofPackage package layout comments = .ok sources) :
    ∃ files written, package.modules layout = .ok files ∧ Hold written layout comments files ∧
      sources = merge [] written := by
  rw [ofPackage_eq many] at generated
  cases found : package.modules layout with
  | error fault =>
      rw [found] at generated
      cases generated
  | ok files =>
      rw [found] at generated
      obtain ⟨texts, written, whole⟩ := Outcome.bind_eq_ok_iff.1 generated
      cases whole
      exact ⟨files, _, rfl, hold_zip (Outcome.mapM_eq_ok_iff.1 written), rfl⟩

/-- Texts of all modules of a package make up its sources. -/
theorem ofPackage_of_hold {package : Package} {written : Sources} (many : layout ≠ .single)
    (laidOut : package.modules layout = .ok files) (hold : Hold written layout comments files) :
    ofPackage package layout comments = .ok (merge [] written) := by
  have texts : files.mapM (·.text layout comments) = .ok (written.map (·.2)) := by
    rw [Outcome.mapM_eq_ok_iff, List.forall₂_map_right_iff]
    exact hold.flip.imp fun _ _ both => both.2
  have zipped : (files.map (·.path)).zip (written.map (·.2)) = written := by
    rw [← hold.paths_eq]
    exact (List.zip_of_prod rfl rfl).symm
  rw [ofPackage_eq many, laidOut]
  exact Outcome.bind_eq_ok_iff.2 ⟨_, texts, by rw [zipped]; rfl⟩

/-- The sources of several packages come from the texts of all their modules. -/
theorem exists_holds_of_ofPackage {packages : List Package} {merged : List Sources}
    (many : layout ≠ .single)
    (each : List.Forall₂ (fun package sources => ofPackage package layout comments = .ok sources)
      packages merged) :
    ∃ (parts : List (List ModuleFile)) (written : List Sources),
      packages.mapM (·.modules layout) = .ok parts ∧
        Hold written.flatten layout comments parts.flatten ∧ merged = written.map (merge []) := by
  simp only [Outcome.mapM_eq_ok_iff]
  induction each with
  | nil => exact ⟨[], [], .nil, .nil, rfl⟩
  | cons first _ ih =>
      obtain ⟨files, own, laidOut, hold, rfl⟩ := exists_hold_of_ofPackage many first
      obtain ⟨parts, written, others, holds, rfl⟩ := ih
      refine ⟨files :: parts, own :: written, .cons laidOut others, ?_, rfl⟩
      rw [List.flatten_cons, List.flatten_cons]
      exact List.rel_append hold holds

/-- **No text is lost exactly when no two modules share a path.** -/
theorem hold_iff_of_ofPackages {packages : List Package} (many : layout ≠ .single)
    (generated : ofPackages packages layout comments = .ok sources) :
    ∃ parts, packages.mapM (·.modules layout) = .ok parts ∧
      (sources.Hold layout comments parts.flatten ↔ (parts.flatten.map (·.path)).Nodup) := by
  rw [ofPackages_eq many, Outcome.bind_eq_ok_iff] at generated
  obtain ⟨merged, each, whole⟩ := generated
  cases whole
  obtain ⟨parts, written, laidOut, hold, rfl⟩ :=
    exists_holds_of_ofPackage many (Outcome.mapM_eq_ok_iff.1 each)
  refine ⟨parts, laidOut, fun kept => ?_, fun distinct => ?_⟩
  · rw [← kept.paths_eq]
    exact nodup_paths_foldl_merge List.nodup_nil
  · rw [← hold.paths_eq] at distinct
    rw [foldl_merge_of_nodup distinct]
    exact hold

/-- A source of a package is the text of one of its modules. -/
theorem exists_text_of_ofPackage {package : Package} (many : layout ≠ .single)
    (generated : ofPackage package layout comments = .ok sources) {source : Path × Text}
    (member : source ∈ sources) :
    ∃ files, package.modules layout = .ok files ∧
      ∃ file ∈ files, file.path = source.1 ∧ file.text layout comments = .ok source.2 := by
  obtain ⟨files, written, laidOut, hold, rfl⟩ := exists_hold_of_ofPackage many generated
  have inWritten := (mem_of_mem_merge member).resolve_left List.not_mem_nil
  refine ⟨files, laidOut, ?_⟩
  clear laidOut generated member
  induction hold with
  | nil => cases inWritten
  | cons first _ ih =>
      rcases List.mem_cons.1 inWritten with rfl | inRest
      · exact ⟨_, List.mem_cons_self, first.1.symm, first.2⟩
      · obtain ⟨file, inFiles, own⟩ := ih inRest
        exact ⟨file, List.mem_cons_of_mem _ inFiles, own⟩

/-- A source is the text of a module of some package. -/
theorem exists_text_of_ofPackages {packages : List Package} (many : layout ≠ .single)
    (generated : ofPackages packages layout comments = .ok sources) {source : Path × Text}
    (member : source ∈ sources) :
    ∃ p ∈ packages, ∃ files, p.modules layout = .ok files ∧
      ∃ file ∈ files, file.path = source.1 ∧ file.text layout comments = .ok source.2 := by
  rw [ofPackages_eq many, Outcome.bind_eq_ok_iff] at generated
  obtain ⟨parts, each, whole⟩ := generated
  cases whole
  rcases mem_of_mem_foldl_merge member with inNone | ⟨part, inParts, inPart⟩
  · cases inNone
  · obtain ⟨p, inPackages, own⟩ := (Outcome.mem_iff_of_mapM each).1 inParts
    exact ⟨p, inPackages, exists_text_of_ofPackage many own inPart⟩

/-- The path of a source of a package is that of one of its modules. -/
theorem exists_file_of_ofPackage {package : Package} (many : layout ≠ .single)
    (generated : ofPackage package layout comments = .ok sources) {path : Path}
    (member : path ∈ sources.paths) : ∃ file ∈ package.files layout, file.path = path := by
  obtain ⟨source, inSources, rfl⟩ := List.mem_map.1 member
  obtain ⟨files, laidOut, file, inFiles, same, -⟩ :=
    exists_text_of_ofPackage many generated inSources
  obtain ⟨-, rfl⟩ := Package.modules_eq_ok_iff.1 laidOut
  exact ⟨file, inFiles, same⟩

/-- The path of a source is that of a module of some package. -/
theorem exists_file_of_ofPackages {packages : List Package} (many : layout ≠ .single)
    (generated : ofPackages packages layout comments = .ok sources) {path : Path}
    (member : path ∈ sources.paths) :
    ∃ p ∈ packages, ∃ file ∈ p.files layout, file.path = path := by
  obtain ⟨source, inSources, rfl⟩ := List.mem_map.1 member
  obtain ⟨p, inPackages, files, laidOut, file, inFiles, same, -⟩ :=
    exists_text_of_ofPackages many generated inSources
  obtain ⟨-, rfl⟩ := Package.modules_eq_ok_iff.1 laidOut
  exact ⟨p, inPackages, file, inFiles, same⟩

/-- A single file has one path, and every package is laid out. -/
theorem paths_of_ofPackages_single {packages : List Package}
    (generated : ofPackages packages .single comments = .ok sources) :
    sources.paths = [Path.ofText singleFileName] := by
  obtain ⟨nested, -, whole⟩ := Outcome.bind_eq_ok_iff.1 generated
  cases whole
  rfl

/-- No path comes twice. -/
theorem nodup_paths_ofPackages {packages : List Package}
    (generated : ofPackages packages layout comments = .ok sources) : sources.paths.Nodup := by
  by_cases single : layout = .single
  · subst single
    rw [paths_of_ofPackages_single generated]
    exact List.pairwise_singleton _ _
  · rw [ofPackages_eq single, Outcome.bind_eq_ok_iff] at generated
    obtain ⟨parts, -, whole⟩ := generated
    cases whole
    exact nodup_paths_foldl_merge List.nodup_nil

/-! ## The steps of sources -/

section Related

variable {r : Path × Text → Path × Text → Prop} {others moreOthers : Sources}

/-- Sources that are related place by place stay so when related texts are set in them. -/
theorem forall₂_set (samePath : ∀ a b, r a b → a.1 = b.1) (each : List.Forall₂ r sources others)
    {first second : Path × Text} (last : r first second) :
    List.Forall₂ r (sources.set first.1 first.2) (others.set second.1 second.2) := by
  obtain ⟨path, text⟩ := first
  obtain ⟨_, other⟩ := second
  cases samePath _ _ last
  induction each with
  | nil => exact .cons last .nil
  | @cons a b rest restOthers own later ih =>
      obtain ⟨otherPath, old⟩ := a
      obtain ⟨_, oldOther⟩ := b
      cases samePath _ _ own
      simp only [set] at ih ⊢
      split
      case isTrue => exact .cons last later
      case isFalse => exact .cons own ih

theorem forall₂_merge (samePath : ∀ a b, r a b → a.1 = b.1) (each : List.Forall₂ r sources others)
    (behind : List.Forall₂ r more moreOthers) :
    List.Forall₂ r (sources.merge more) (others.merge moreOthers) := by
  induction behind generalizing sources others with
  | nil => exact each
  | cons first _ ih => exact ih (forall₂_set samePath each first)

theorem forall₂_foldl_merge (samePath : ∀ a b, r a b → a.1 = b.1) {parts partOthers : List Sources}
    (each : List.Forall₂ r sources others)
    (behind : List.Forall₂ (List.Forall₂ r) parts partOthers) :
    List.Forall₂ r (parts.foldl merge sources) (partOthers.foldl merge others) := by
  induction behind generalizing sources others with
  | nil => exact each
  | cons first _ ih => exact ih (forall₂_merge samePath each first)

end Related

/-- The steps that write the source with a path: those of a module with that path, or those of
all packages in the single file. -/
def WrittenBy (packages : List Package) (layout : ModuleLayout) (path : Path)
    (steps : List WriterStep) : Prop :=
  match layout with
  | .single => path = Path.ofText singleFileName ∧ ∃ nested,
      packages.mapM (·.nestedSteps) = .ok nested ∧
        steps = ModuleFile.banner :: (ModuleFile.preamble ++ nested.flatten)
  | layout => ∃ p ∈ packages, ∃ file ∈ p.files layout, file.path = path ∧
      file.steps layout = .ok steps

theorem writtenBy_iff {packages : List Package} (many : layout ≠ .single)
    {steps : List WriterStep} :
    WrittenBy packages layout path steps ↔ ∃ p ∈ packages, ∃ file ∈ p.files layout,
      file.path = path ∧ file.steps layout = .ok steps := by
  cases layout with
  | single => exact absurd rfl many
  | package | declaration => exact Iff.rfl

/-- Two texts have one path, and the same steps write both, each with its writer. -/
def SameSteps (packages : List Package) (layout : ModuleLayout) (first second : Bool)
    (a b : Path × Text) : Prop :=
  a.1 = b.1 ∧ ∃ steps, WrittenBy packages layout a.1 steps ∧
    a.2 = ((Writer.new first).run steps).text ∧ b.2 = ((Writer.new second).run steps).text

/-- A module that has a text for one writer has one for each, from the same steps. -/
theorem exists_text_sameSteps {file : ModuleFile}
    (written : file.text layout comments = .ok text) (other : Bool) :
    ∃ steps, file.steps layout = .ok steps ∧ text = ((Writer.new comments).run steps).text ∧
      file.text layout other = .ok ((Writer.new other).run steps).text := by
  obtain ⟨steps, made, whole⟩ := Outcome.bind_eq_ok_iff.1 written
  cases whole
  exact ⟨steps, made, rfl, Outcome.bind_eq_ok_iff.2 ⟨steps, made, rfl⟩⟩

/-- The modules of a package are written by the same steps with another writer. -/
theorem exists_ofPackage_sameSteps {packages : List Package} {package : Package}
    (member : package ∈ packages) (many : layout ≠ .single)
    (generated : ofPackage package layout comments = .ok sources) (other : Bool) :
    ∃ others, ofPackage package layout other = .ok others ∧
      List.Forall₂ (SameSteps packages layout comments other) sources others := by
  obtain ⟨files, written, laidOut, hold, rfl⟩ := exists_hold_of_ofPackage many generated
  have inPackage : files = package.files layout := (Package.modules_eq_ok_iff.1 laidOut).2
  obtain ⟨writtenOther, holdOther, related⟩ := Outcome.exists_forall₂ hold.flip
    (s := fun file source => source.1 = file.path ∧ file.text layout other = .ok source.2)
    (t := SameSteps packages layout comments other) fun file inFiles source own => by
      obtain ⟨steps, made, ofSource, ofOther⟩ := exists_text_sameSteps own.2 other
      refine ⟨(source.1, ((Writer.new other).run steps).text), ⟨own.1, ofOther⟩, rfl, steps, ?_,
        ofSource, rfl⟩
      exact (writtenBy_iff many).2 ⟨package, member, file, inPackage ▸ inFiles, own.1.symm, made⟩
  exact ⟨_, ofPackage_of_hold many laidOut holdOther.flip,
    forall₂_merge (fun a b both => both.1) .nil related⟩

/-- **The switch for docstrings chooses the writer, and the writer alone.**  What is generated
with one writer is generated with each: the same paths in the same order, and each text by the
same steps. -/
theorem exists_ofPackages_sameSteps {packages : List Package}
    (generated : ofPackages packages layout comments = .ok sources) (other : Bool) :
    ∃ others, ofPackages packages layout other = .ok others ∧
      List.Forall₂ (SameSteps packages layout comments other) sources others := by
  by_cases single : layout = .single
  · subst single
    obtain ⟨nested, made, whole⟩ := Outcome.bind_eq_ok_iff.1 generated
    cases whole
    exact ⟨_, Outcome.bind_eq_ok_iff.2 ⟨nested, made, rfl⟩,
      .cons ⟨rfl, _, ⟨rfl, nested, made, rfl⟩, rfl, rfl⟩ .nil⟩
  · rw [ofPackages_eq single, Outcome.bind_eq_ok_iff] at generated
    obtain ⟨parts, each, whole⟩ := generated
    cases whole
    obtain ⟨partOthers, eachOther, related⟩ := Outcome.exists_mapM_of_rel each
      fun package member part own => exists_ofPackage_sameSteps member single own other
    rw [ofPackages_eq single]
    exact ⟨_, Outcome.bind_eq_ok_iff.2 ⟨partOthers, eachOther, rfl⟩,
      forall₂_foldl_merge (fun a b both => both.1) .nil related⟩

end RosInterface.Sources
