import TokenForge.Proofs.Path
import TokenForge.Proofs.Token.Features
import TokenForge.Proofs.Token.Lines
import TokenForge.Token.Source

/-!
# The imports of a generated source

The directives of a generated source are those of the bases, in their order, and behind
them those that are injected through the name or the symbol.  A name may hold single
quotes and semicolons, and with them a whole directive: the imports are the bases' alone
if and only if none is injected (`generate_paths`).
-/

namespace TokenForge

open Text

/-! ## Directives line by line -/

/-- Lines without the word `import` are read character by character. -/
theorem Import.piecesFrom_unlines {before : Option Char} {lines : List Text} {rest : Text}
    (without : ∀ line ∈ lines, Flatten.Without "import" line) :
    piecesFrom Import.directive 0 before (unlines lines ++ rest) = (unlines lines).map .char ++
      piecesFrom Import.directive 0 (charBefore before (unlines lines)) rest := by
  induction lines generalizing before with
  | nil => rfl
  | cons line lines ih =>
    have quiet : ∀ read left, line = read ++ left →
        Import.directive (charBefore before read)
          (left ++ '\n' :: (unlines lines ++ rest)) = none := by
      intro read left split
      refine Flatten.directive_eq_none (fun inside => ?_) (atBreak_cons _)
      refine without line (.head _) (inside.trans ?_)
      rw [split]
      exact (List.suffix_append _ _).isInfix
    rw [unlines_cons, List.append_assoc, List.cons_append, piecesFrom_quietLine quiet,
      ih fun line member => without line (.tail _ member)]
    simp

theorem importLine_eq (path : Flatten.QuotablePath) :
    Solidity.importLine path.1 = (Flatten.plainDirective path).text := by
  unfold Solidity.importLine
  rw [List.append_assoc]
  rfl

theorem sealed_importLine {path : Text} (quiet : Import.Quiet path) :
    Import.Sealed [] (Solidity.importLine path) := by
  have statement : Solidity.importLine path = ("import \"" ++ (path ++ ['"'])) ++ [';'] := by
    unfold Solidity.importLine
    rw [List.append_assoc, List.append_assoc, List.append_assoc]
    rfl
  rw [statement]
  exact Import.sealed_statement (Import.quiet_append (by decide)
    (Import.quiet_append quiet (by decide)))

/-- The piece of an import line with its line feed. -/
def Import.linePiece (path : Text) : Piece Import.Directive :=
  .hit ⟨path⟩ (Solidity.importLine path ++ ['\n'])

/-- Import lines are read as directives, in order. -/
theorem Import.piecesFrom_importLines {paths : List Text} {rest : Text}
    (quotable : ∀ path ∈ paths, path ≠ [] ∧
      ∀ c ∈ path, Import.isQuote c = false ∧ c ≠ '\n' ∧ c ≠ '\r') :
    piecesFrom Import.directive 0 (some '\n')
        (unlines (paths.map Solidity.importLine) ++ rest) =
      paths.map Import.linePiece ++ piecesFrom Import.directive 0 (some '\n') rest := by
  induction paths with
  | nil => rfl
  | cons path paths ih =>
    have others := ih fun path member => quotable path (.tail _ member)
    generalize same : unlines (paths.map Solidity.importLine) ++ rest = more at others
    have hit : Import.directive (some '\n') _ = _ := Flatten.directive_takes
      (Flatten.plainDirective ⟨path, quotable path (.head _)⟩) rfl (atBreak_cons more)
    rw [← importLine_eq] at hit
    have split : unlines ((path :: paths).map Solidity.importLine) ++ rest =
        (Solidity.importLine path ++ ['\n']) ++ more := by
      simp [← same]
    have line : Solidity.importLine path ++ '\n' :: more =
        (Solidity.importLine path ++ ['\n']) ++ more := by
      simp
    rw [line] at hit
    rw [split, piecesFrom_hit hit (by simp), charBefore_append]
    show Import.linePiece path :: piecesFrom _ 0 (some '\n') more = _
    rw [others]
    rfl

/-- The directives of import lines are found in order. -/
theorem Import.found_linePieces (paths : List Text) :
    found (paths.map Import.linePiece) = paths.map Import.Directive.mk := by
  rw [found, List.filterMap_map]
  show paths.filterMap (some ∘ Import.Directive.mk) = _
  rw [List.filterMap_eq_map]

/-! ## Accepted configurations -/

namespace Token

open Import (Sealed Harmless Injected)

theorem quiet_accessLabel {f : Features} {a : Access} (known : f.access = .known a) :
    Import.Quiet f.accessLabel := by
  rw [Features.accessLabel, known]
  cases a <;> decide

/-- The features of an accepted configuration are tame. -/
theorem Config.tame {members : List (Text × Json)} {c : Config}
    (accepted : Config.ofMembers members = .ok c) : c.features.Tame := by
  have names := Config.ofMembers_names accepted
  have forbidden : Token.isForbidden '\n' = true := rfl
  refine {
    name := fun member => ?_
    symbol := fun member => ?_
    contractName := (alphanumeric_contractName _).quiet
    initialSupply := (alphanumeric_ofNat _).quiet
    shownSupply := (alphanumeric_ofNat _).quiet
    maxSupply := (alphanumeric_ofNat _).quiet
    buyTax := (alphanumeric_ofNat _).quiet
    sellTax := (alphanumeric_ofNat _).quiet
    taxReceiver := fun account member => ?_
    accessLabel := ?_ }
  · rw [names.nameAllowed _ member] at forbidden
    cases forbidden
  · rw [names.symbolAllowed _ member] at forbidden
    cases forbidden
  · obtain ⟨address, _, rfl⟩ := Option.map_eq_some_iff.mp member
    exact (alphanumeric_checksummed address).quiet
  · exact quiet_accessLabel rfl

/-- The bases of the contract of a configuration, in order. -/
def Config.bases (c : Config) : List Base :=
  List.flatten [
    [.erc20],
    if c.burnable then [.burnable] else [],
    if c.pausable then [.pausable] else [],
    match c.access with
    | .ownable => [.ownable]
    | .roles => [.accessControl]
    | .unrestricted => []]

/-- The paths by which they are imported. -/
def Config.libraryPaths (c : Config) : List Text := c.bases.map Base.path

theorem Config.features_bases (c : Config) : c.features.bases = c.bases := by
  obtain ⟨_, _, _, _, _, burnable, pausable, _, _, _, access⟩ := c
  cases burnable <;> cases pausable <;> cases access <;> rfl

theorem Config.exists_base {c : Config} {path : Text} (h : path ∈ c.libraryPaths) :
    ∃ b : Base, b.path = path := by
  obtain ⟨b, _, same⟩ := List.mem_map.mp h
  exact ⟨b, same⟩

theorem Base.path_quotable (b : Base) : b.path ≠ [] ∧
    ∀ c ∈ b.path, Import.isQuote c = false ∧ c ≠ '\n' ∧ c ≠ '\r' := by
  cases b <;> decide

theorem Base.quiet_path (b : Base) : Import.Quiet b.path := by
  cases b <;> decide

/-! ## The source of an accepted configuration -/

/-- The lines before the contract, the last of which is empty. -/
def Config.headLines (c : Config) : List Text :=
  c.features.unit.preambleLines ++ c.libraryPaths.map Solidity.importLine

/-- The lines from the empty one before the contract on. -/
def Config.contractLines (c : Config) : List Text := [] :: c.features.contract.lines

/-- The source of a configuration by lines. -/
theorem Config.source_text (c : Config) :
    c.features.source.text = unlines (c.headLines ++ c.contractLines) := by
  rw [c.features.source_text, ← Features.contract_lines, Features.headLines, c.features_bases]
  rfl

theorem Config.headLines_sealed (c : Config) : ∀ line ∈ c.headLines, Sealed [] line := by
  intro line member
  rcases List.mem_append.mp member with first | imported
  · have plain : (c.features.unit.preambleLines.all Import.isPlain) = true := rfl
    exact (Import.forall_harmless_of_isPlain plain line first).toSealed
  · obtain ⟨path, inside, rfl⟩ := List.mem_map.mp imported
    obtain ⟨b, rfl⟩ := Config.exists_base inside
    exact sealed_importLine b.quiet_path

theorem Config.contractLines_harmless {c : Config} (tame : c.features.Tame) :
    ∀ line ∈ c.contractLines, Harmless [c.name, c.symbol] line :=
  List.forall_mem_cons.mpr ⟨Import.harmless_of_isPlain rfl, tame.contract_harmless⟩

/-- The pieces of the source of a configuration: the lines before the imports, the imports of the
bases, and the pieces of what is behind them. -/
theorem Config.pieces_source (c : Config) : pieces Import.directive c.features.source.text =
    (unlines c.features.unit.preambleLines).map .char ++ (c.libraryPaths.map Import.linePiece ++
      piecesFrom Import.directive 0 (some '\n') (unlines c.contractLines)) := by
  have without : ∀ line ∈ c.features.unit.preambleLines, Flatten.Without "import" line := by
    show ∀ line ∈ ["// SPDX-License-Identifier: MIT".toList,
      "pragma solidity ^0.8.20;".toList, []], _
    decide +kernel
  have quotable : ∀ path ∈ c.libraryPaths, path ≠ [] ∧
      ∀ c ∈ path, Import.isQuote c = false ∧ c ≠ '\n' ∧ c ≠ '\r' := by
    intro path member
    obtain ⟨b, rfl⟩ := Config.exists_base member
    exact b.path_quotable
  rw [pieces, c.source_text, unlines_append, Config.headLines, unlines_append,
    List.append_assoc, Import.piecesFrom_unlines without]
  exact congrArg _ (Import.piecesFrom_importLines quotable)

/-- What is found in the source of a configuration: the imports of the bases, and what is found
behind them. -/
theorem Config.hits_source (c : Config) : hits Import.directive c.features.source.text =
    c.libraryPaths.map Import.Directive.mk ++
      found (piecesFrom Import.directive 0 (some '\n') (unlines c.contractLines)) := by
  rw [hits, c.pieces_source]
  show found _ = _
  rw [found_append, found_append, found_chars, List.nil_append, Import.found_linePieces]

/-- A configuration that is accepted has a source, and the source imports the files of the bases,
in their order, and nothing else, if and only if no directive is injected through the name or
the symbol.  None is if no semicolon in them has `import` behind it, and one is if a semicolon
in them has a whole directive behind it. -/
theorem generate_paths {members : List (Text × Json)} {c : Config}
    (accepted : Config.ofMembers members = .ok c) :
    ∃ s, generate c.request = .ok s ∧
      (∀ importer, Import.paths s.text importer = c.libraryPaths ↔
        ¬ Injected [c.name, c.symbol] s.text) ∧
      (Injected [c.name, c.symbol] s.text → Import.HasOpening c.name ∨ Import.HasOpening c.symbol) ∧
      (Import.HasDirective c.name ∨ Import.HasDirective c.symbol →
        Injected [c.name, c.symbol] s.text) ∧
      ∀ path ∈ c.libraryPaths, Text.startsWith (Import.libraryPrefix ++ "/") path = true := by
  have tame := Config.tame accepted
  have harmless := Config.contractLines_harmless tame
  have sealed_ : ∀ line ∈ c.contractLines, Sealed [c.name, c.symbol] line :=
    fun line member => (harmless line member).toSealed
  have injected_iff : Injected [c.name, c.symbol] c.features.source.text ↔
      Injected [c.name, c.symbol] (unlines c.contractLines) := by
    rw [c.source_text]
    exact Import.injected_append_iff c.headLines_sealed sealed_
  refine ⟨c.features.source, ?_, ?_, ?_, ?_, ?_⟩
  · rw [generate, c.features_request]
    rfl
  · intro importer
    have resolved : (c.libraryPaths.map Import.Directive.mk).map
        (fun d => Import.resolve d.path importer) = c.libraryPaths := by
      rw [List.map_map, List.map_congr_left, List.map_id]
      intro path member
      obtain ⟨b, rfl⟩ := Config.exists_base member
      exact Import.resolve_of_plain (by cases b <;> decide) importer
    rw [Import.paths, c.hits_source, List.map_append, resolved, List.append_right_eq_self,
      List.map_eq_nil_iff, Import.found_eq_nil_iff harmless, injected_iff]
  · intro injected
    obtain ⟨p, member, opening⟩ := Import.hasOpening_of_injected injected
    simp only [List.mem_cons, List.not_mem_nil, or_false] at member
    rcases member with rfl | rfl
    · exact .inl opening
    · exact .inr opening
  · intro holds
    rw [injected_iff]
    rcases holds with holds | holds
    · have title : " * @title ".toList ++ (c.name ++ []) ∈ c.contractLines := by
        rw [List.append_nil]
        exact .tail _ (List.mem_append_left _ (.tail _ (.head _)))
      exact Import.injected_of_hasDirective sealed_ title holds
    · have line : " * - Symbol: ".toList ++ (c.symbol ++ []) ∈ c.contractLines := by
        rw [List.append_nil]
        exact .tail _ (List.mem_append_left _ (.tail _ (.tail _ (.tail _ (.head _)))))
      exact Import.injected_of_hasDirective sealed_ line holds
  · intro path member
    obtain ⟨b, rfl⟩ := Config.exists_base member
    cases b <;> decide

/-! ## A name that holds a directive -/

/-- Members that name a token after a directive. -/
def hostileMembers : List (Text × Json) := [
  ("name", .text ";import 'evil.sol';"), ("symbol", .text "ABC"), ("initialSupply", .int 1)]

/-- The configuration that they are accepted as. -/
def hostileConfig : Config where
  name := ";import 'evil.sol';"
  symbol := "ABC"
  initialSupply := 1
  maxSupply := 0
  mintable := false
  burnable := true
  pausable := false
  buyTax := 0
  sellTax := 0
  taxReceiver := none
  access := .ownable

/-- The directive in the name. -/
def hostileDirective : Flatten.DirectiveLine :=
  { Flatten.plainDirective ⟨"evil.sol", by decide⟩ with
    opening := ⟨'\'', by decide⟩
    closing := ⟨'\'', by decide⟩ }

theorem hostileConfig_accepted : Config.ofMembers hostileMembers = .ok hostileConfig := rfl

/-- The name is accepted, and the source imports more than the files of the bases. -/
theorem generate_paths_hostileConfig :
    Config.ofMembers hostileMembers = .ok hostileConfig ∧
      ∃ s, generate hostileConfig.request = .ok s ∧
        ∀ importer, Import.paths s.text importer ≠ hostileConfig.libraryPaths := by
  refine ⟨hostileConfig_accepted, ?_⟩
  obtain ⟨s, generated, exactly, _, injects, _⟩ := generate_paths hostileConfig_accepted
  have holds : Import.HasDirective hostileConfig.name := ⟨[], hostileDirective, [], by decide⟩
  refine ⟨s, generated, fun importer same => ?_⟩
  exact (exactly importer).mp same (injects (.inl holds))

end Token

end TokenForge
