import TokenForge.Proofs.CommandLine.Changes
import TokenForge.Proofs.Flatten.Reachable
import TokenForge.Proofs.Import.Packages

/-!
# Relative imports of the file to flatten

The file that is flattened is the outermost source, which has no path: its relative imports are
looked for as they are written, from the working directory and from the directories to search, and
not from the directory of the file (`relative_import_of_target`).  So a file beside it is inlined
if its directory is the working directory or is searched, or if another candidate happens to lead
to the same file; otherwise the comment for a missing file stands in its place.
-/

namespace TokenForge

/-! ## The paths without files -/

namespace Flatten

/-- The paths whose directives were replaced by the comment for a missing file. -/
def Expansion.missed : Expansion → List Text
  | done => []
  | char _ rest => rest.missed
  | duplicate _ rest => rest.missed
  | missing path rest => path :: rest.missed
  | file _ inner rest => inner.missed ++ rest.missed

variable {lookup : Lookup} {importer : Option Text} {seen met : List Text}
  {pieces : List (Piece Import.Directive)} {e : Expansion}

theorem Expands.missed_eq (h : Expands lookup importer seen pieces e met) :
    e.missed = e.asked.filter fun path => (lookup path).isNone := by
  induction h with
  | done => rfl
  | char _ ih => exact ih
  | duplicate _ _ ih => exact ih
  | missing _ absent _ ih => simp [Expansion.missed, Expansion.asked, absent, ih]
  | file _ found _ _ innerIh restIh =>
    simp [Expansion.missed, Expansion.asked, found, innerIh, restIh]

/-- A path that is asked for and has a file is inlined, and not missed. -/
theorem Expands.inlined_of_found (h : Expands lookup importer seen pieces e met)
    {path content : Text} (asked : path ∈ e.asked) (found : lookup path = some content) :
    (path, Text.remove Import.directive content) ∈ e.copies ∧ path ∉ e.missed := by
  constructor
  · have member : path ∈ e.copies.map Prod.fst := by
      rw [h.copies_paths]
      exact List.mem_filter.mpr ⟨asked, by rw [found]; rfl⟩
    obtain ⟨⟨_, own⟩, copied, rfl⟩ := List.mem_map.mp member
    obtain ⟨content', found', rfl⟩ := h.copies_own _ copied
    cases found.symm.trans found'
    exact copied
  · simp [h.missed_eq, found]

/-- A path that is asked for and has no file is missed, and nothing is inlined for it. -/
theorem Expands.missed_of_absent (h : Expands lookup importer seen pieces e met) {path : Text}
    (asked : path ∈ e.asked) (absent : lookup path = none) :
    path ∈ e.missed ∧ ∀ own, (path, own) ∉ e.copies := by
  refine ⟨by simp [h.missed_eq, asked, absent], fun own member => ?_⟩
  obtain ⟨content, found, _⟩ := h.copies_own _ member
  cases absent.symm.trans found

/-- The relative directives of a source without a path are asked for as they are written. -/
theorem Expands.asked_of_hit {source : Text}
    (h : Expands lookup none [] (Text.pieces Import.directive source) e met) {d : Import.Directive}
    (member : d ∈ Text.hits Import.directive source) : d.path ∈ e.asked := by
  rw [h.mem_asked_iff]
  exact ⟨d.path, List.mem_map.mpr ⟨d, member, rfl⟩, .refl⟩

end Flatten

/-! ## Searching -/

namespace Import.Resolver

variable {r : Resolver} {tree : FileTree} {path file content : Text} {bytes : Bytes}

theorem findSome?_read (tree : FileTree) (files : List Text) :
    (files.findSome? fun file => (tree.read file).toOption.map (file, ·)) =
      (files.find? tree.isFile).bind fun file => (tree.read file).toOption.map (file, ·) := by
  induction files with
  | nil => rfl
  | cons file files ih =>
    rw [List.findSome?_cons, List.find?_cons, FileTree.isFile]
    cases read : tree.read file with
    | ok bytes => simp [read, Except.toOption]
    | error reason => exact ih

/-- A search without a file among the candidates finds nothing. -/
theorem look_of_none (h : (r.candidates path).find? tree.isFile = none) :
    r.look tree path = .nothing := by
  rw [look, findSome?_read, h]
  rfl

/-- A search finds the first file among the candidates. -/
theorem look_of_first (h : (r.candidates path).find? tree.isFile = some file)
    (read : tree.read file = .ok bytes) (decoded : FileTree.decodeLines bytes = .ok content) :
    r.look tree path = .text content := by
  rw [look, findSome?_read, h, Option.bind_some, read]
  simp only [Except.toOption, Option.map_some, decoded]

end Import.Resolver

namespace CommandLine

variable {tree : FileTree} {world : World} {arguments : Arguments} {line : List Text}
  {resolver : Import.Resolver} {target source text path content : Text} {output : Option Text}
  {place : Place} {bytes : Bytes}

/-- The only package that a command knows is the shared contract library. -/
theorem packages_of_resolverOf (known : resolverOf arguments = .ok resolver) :
    ∀ e ∈ resolver.packages, e.1 = Import.libraryPrefix := by
  obtain ⟨directories, _, made⟩ := bind_eq_ok.mp known
  cases made
  intro e member
  simp only [Import.Resolver.ofPaths] at member
  split at member <;> rw [List.mem_singleton.mp member]

/-- A relative path is looked for as it is written and below the directories to search. -/
theorem candidates_of_relative (known : resolverOf arguments = .ok resolver)
    (relative : Import.isRelative path = true) :
    resolver.candidates path =
      path :: resolver.directories.map fun directory => Path.join directory path := by
  refine Import.Resolver.candidates_of_outside fun e member inside => ?_
  rw [packages_of_resolverOf known e member] at inside
  obtain ⟨rest, rfl⟩ := inside
  cases relative

/-- A relative path that is looked for in the directory of a file, if the working directory or a
directory to search is that directory. -/
theorem join_mem_candidates (known : resolverOf arguments = .ok resolver)
    (relative : Import.isRelative path = true) {directory : Text}
    (searched : directory = [] ∨ directory ∈ resolver.directories) :
    Path.join directory path ∈ resolver.candidates path := by
  rw [candidates_of_relative known relative]
  rcases searched with rfl | searched
  · have open_start : path.head? ≠ some '/' := by
      rintro slash
      obtain ⟨rest, rfl⟩ := List.head?_eq_some_iff.mp slash
      cases relative
    rw [Path.join, if_neg open_start, if_pos (.inl rfl)]
    exact .head _
  · exact .tail _ (List.mem_map.mpr ⟨directory, searched, rfl⟩)

/-- Where a path leads to a readable file beside the file to flatten and no other file is found
first, that file is found, or no candidate is a file and nothing is found. -/
theorem look_of_beside {file : Text}
    (beside : tree.locate file = .ok (.file place bytes))
    (decoded : FileTree.decodeLines bytes = .ok content)
    (first : ∀ file, (resolver.candidates path).find? tree.isFile = some file →
      ∃ b, tree.locate file = .ok (.file place b)) :
    ((∃ file ∈ resolver.candidates path, tree.isFile file = true) ∧
        (resolver.look tree path).text? = some content) ∨
      ((¬ ∃ file ∈ resolver.candidates path, tree.isFile file = true) ∧
        (resolver.look tree path).text? = none) := by
  cases found : (resolver.candidates path).find? tree.isFile with
  | none =>
    refine .inr ⟨?_, by rw [Import.Resolver.look_of_none found]; rfl⟩
    rintro ⟨other, member, file⟩
    exact List.find?_eq_none.mp found other member file
  | some other =>
    obtain ⟨b, leads⟩ := first other found
    have same : b = bytes := by
      have there := (FileTree.locate_stands leads).2.2
      cases there.symm.trans (FileTree.locate_stands beside).2.2
      rfl
    subst same
    refine .inl ⟨⟨other, List.mem_of_find?_eq_some found, List.find?_some found⟩, ?_⟩
    rw [Import.Resolver.look_of_first found (FileTree.read_eq_ok_iff.mpr ⟨place, leads⟩) decoded]
    rfl

theorem flattenedName_ne_nil (target : Text) : flattenedName target ≠ [] := by
  simp [flattenedName]

theorem flattenedPath_ne_nil (target : Text) (output : Option Text) :
    flattenedPath target output ≠ [] := by
  rcases output with _ | _ | ⟨c, output⟩
  · exact flattenedName_ne_nil target
  · exact flattenedName_ne_nil target
  · exact List.cons_ne_nil _ _

/-- The file to flatten is flattened to a text in which a relative import of it is inlined if a
candidate for its path, as it is written, is a file, and missed otherwise.  Here the path leads from
the directory of the file to a readable file, and no other file is found first.  The import is
inlined, in particular, if the directory of the file is the working directory or is searched. -/
theorem relative_import_of_target (read : readArguments line = .ok arguments)
    (given : arguments.command = some (.flatten (some target) output))
    (known : resolverOf arguments = .ok resolver) (done : (run world line).ending = .done)
    (holds : Holds world.tree target source) {d : Import.Directive}
    (member : d ∈ Text.hits Import.directive source) (relative : Import.isRelative d.path = true)
    (beside : world.tree.locate (Path.join (Path.directory target) d.path) =
      .ok (.file place bytes))
    (decoded : FileTree.decodeLines bytes = .ok content)
    (first : ∀ file, (resolver.candidates d.path).find? world.tree.isFile = some file →
      ∃ b, world.tree.locate file = .ok (.file place b)) :
    ∃ text e met, (run world line).tree.read (flattenedPath target output) =
        .ok (Utf8.encode text) ∧ text = Flatten.tidy [] e.render ∧
      Flatten.Expands (fun path => (resolver.look world.tree path).text?) none []
        (Text.pieces Import.directive source) e met ∧
      resolver.candidates d.path =
        d.path :: resolver.directories.map (fun directory => Path.join directory d.path) ∧
      ((d.path, Text.remove Import.directive content) ∈ e.copies ↔
        ∃ file ∈ resolver.candidates d.path, world.tree.isFile file = true) ∧
      (d.path ∈ e.missed ↔ ¬ ∃ file ∈ resolver.candidates d.path, world.tree.isFile file = true) ∧
      (Path.directory target = [] ∨ Path.directory target ∈ resolver.directories →
        (d.path, Text.remove Import.directive content) ∈ e.copies ∧ d.path ∉ e.missed) := by
  obtain ⟨text, path, asks, deliverable⟩ := (run_done_iff world line).mp done
  obtain ⟨rfl, source', holds', flattens⟩ : path = flattenedPath target output ∧ ∃ source,
      Holds world.tree target source ∧ Flattens world.tree arguments source text := by
    cases (asks_iff read given).mp asks with
    | flatFile holds flattens => exact ⟨rfl, _, holds, flattens⟩
  cases holds.unique holds'
  obtain ⟨resolver', known', answer⟩ := flattens
  cases known.symm.trans known'
  have ran : flattening world.tree resolver source =
      ⟨.ok text, (flattening world.tree resolver source).state⟩ := by rw [← answer]
  obtain ⟨e, expands, rendered, _⟩ := Flatten.asked_of_flattenSource ran
  have asked : d.path ∈ e.asked := expands.asked_of_hit member
  refine ⟨text, e, _, run_read asks (flattenedPath_ne_nil target output) deliverable, rendered,
    expands, candidates_of_relative known relative, ?_⟩
  rcases look_of_beside beside decoded first with ⟨some_file, found⟩ | ⟨no_file, absent⟩
  · obtain ⟨inlined, unmissed⟩ := expands.inlined_of_found asked found
    exact ⟨iff_of_true inlined some_file, iff_of_false unmissed (not_not_intro some_file),
      fun _ => ⟨inlined, unmissed⟩⟩
  · obtain ⟨missed, not_inlined⟩ := expands.missed_of_absent asked absent
    refine ⟨iff_of_false (not_inlined _) no_file, iff_of_true missed no_file, fun searched => ?_⟩
    refine absurd ⟨_, join_mem_candidates known relative searched, ?_⟩ no_file
    exact isFile_iff.mpr ⟨bytes, FileTree.read_eq_ok_iff.mpr ⟨place, beside⟩⟩

/-- A contract that imports another one beside it. -/
def importingContract : Text := "import \"./Q.sol\";\ncontract P \x7b\x7d\n"

/-- The contract that is imported. -/
def importedContract : Text := "contract Q \x7b\x7d\n"

/-- Two contracts in a directory below the working directory. -/
def contractsBelow : World where
  tree := ⟨[(["sub", "P.sol"], .file (Utf8.encode importingContract)),
    (["sub", "Q.sol"], .file (Utf8.encode importedContract))]⟩
  tools := .none

/-- The contract beside the file to flatten is missed, though it is there. -/
theorem relative_import_missed_below :
    let line : List Text := ["flatten", "--path", "sub/P.sol", "--output", "out.sol"]
    let missing : Text := "// Import not found: ./Q.sol\ncontract P \x7b\x7d\n"
    (run contractsBelow line).ending = .done ∧
      contractsBelow.tree.isFile "sub/./Q.sol" = true ∧
      ∃ e : Flatten.Expansion, "./Q.sol".toList ∈ e.missed ∧ missing = Flatten.tidy [] e.render ∧
        (run contractsBelow line).tree.read "out.sol" = .ok (Utf8.encode missing) := by
  intro line missing
  let arguments : Arguments :=
    ⟨false, none, [], some (.flatten (some "sub/P.sol") (some "out.sol"))⟩
  let resolver : Import.Resolver := .ofPaths Import.Resolver.defaultPackages []
  have read : readArguments line = .ok arguments := by decide
  have holds : Holds contractsBelow.tree "sub/P.sol" importingContract :=
    ⟨_, by decide, FileTree.decodeLines_encode (by decide)⟩
  have answer : (flattening contractsBelow.tree resolver importingContract).answer =
      .ok missing := by
    decide +kernel
  have asks : Asks contractsBelow line missing "out.sol" :=
    ⟨arguments, _, read, rfl, .flatFile holds ⟨resolver, rfl, answer⟩⟩
  have deliverable : Deliverable contractsBelow.tree "out.sol" :=
    .inr ⟨["out.sol".toList], by decide⟩
  have done : (run contractsBelow line).ending = .done :=
    (run_done_iff _ _).mpr ⟨missing, _, asks, deliverable⟩
  have no_file : (resolver.candidates "./Q.sol").find? contractsBelow.tree.isFile = none := by
    decide
  have member : (⟨"./Q.sol"⟩ : Import.Directive) ∈
      Text.hits Import.directive importingContract := by
    decide
  have beside : contractsBelow.tree.locate (Path.join (Path.directory "sub/P.sol") "./Q.sol") =
      .ok (.file ["sub", "Q.sol"] (Utf8.encode importedContract)) := by
    decide
  have decoded : FileTree.decodeLines (Utf8.encode importedContract) = .ok importedContract :=
    FileTree.decodeLines_encode (by decide)
  obtain ⟨text, e, _, stored, rendered, _, _, _, missed, _⟩ :=
    relative_import_of_target read rfl rfl done holds member (by decide) beside decoded
      fun file found => by cases no_file.symm.trans found
  have same : text = missing := by
    have twice : Utf8.encode text = Utf8.encode missing := Except.ok.inj
      (stored.symm.trans (run_read asks (by decide) deliverable))
    have decoded := congrArg Utf8.decode twice
    rw [Utf8.decode_encode, Utf8.decode_encode] at decoded
    exact Except.ok.inj decoded
  subst same
  refine ⟨done, by decide, e, missed.mpr ?_, rendered, stored⟩
  rintro ⟨file, member, here⟩
  exact List.find?_eq_none.mp no_file file member here

end CommandLine

end TokenForge
