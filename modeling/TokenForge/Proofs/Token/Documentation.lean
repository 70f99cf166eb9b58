import TokenForge.Proofs.Token.Imports

/-!
# The documentation of a generated source

The documentation of the contract of a configuration by lines: a line for the name, one for
the symbol, and one for each other field but the tax receiver (`Config.remarks_features`).
It is a comment, with a text before it and the code behind it (`Features.source_header`).
A name that is accepted has no line feed, so the lines can be read back from the text
(`splitOn_source`).
-/

namespace TokenForge

namespace Token

open Solidity
open Text (unlines unlines_append unlines_cons splitOn splitOn_append splitOn_of_not_mem)

/-! ## The header comment -/

/-- The end of a comment. -/
def commentEnd : Text := ['*', '/']

namespace Features

variable (f : Features)

/-- The lines inside the header comment. -/
def remarks : List Text := f.documentation.tail.dropLast

/-- The text before the header comment. -/
def preface : Text := unlines f.headLines ++ ['\n']

/-- The text inside the header comment. -/
def comment : Text := '\n' :: (unlines f.remarks ++ [' '])

/-- The text behind the header comment. -/
def code : Text := '\n' :: unlines f.codeLines

/-- The text behind the opening of the header comment. -/
def behindOpening : Text := f.comment ++ (commentEnd ++ f.code)

theorem documentation_eq : f.documentation = "/**".toList :: (f.remarks ++ [" */".toList]) := rfl

/-- A generated source with its header comment. -/
theorem source_header : f.source.text = f.preface ++ ("/**" ++ f.behindOpening) := by
  have ending : " */".toList = ' ' :: commentEnd := rfl
  rw [f.source_text, documentation_eq, ending, preface, behindOpening, comment, code]
  simp only [unlines_append, unlines_cons, List.cons_append, List.append_assoc, List.nil_append]

/-- The comment up to one of its lines, the line, and what is behind it. -/
theorem comment_eq {before after : List Text} {line : Text}
    (h : f.remarks = before ++ line :: after) : f.comment =
      unlines ([] :: before) ++ (line ++ '\n' :: (unlines after ++ [' '])) := by
  rw [comment, h, unlines_append, unlines_cons, unlines_cons, List.append_assoc, List.append_assoc]
  rfl

end Features

/-! ## The lines of the comment -/

/-- An access model in words. -/
def Access.label : Access → Text
  | .ownable => "Ownable"
  | .roles => "Role-Based"
  | .unrestricted => "None"

/-- A greatest supply in words. -/
def limitLabel (n : Nat) : Text := if 0 < n then Text.ofNat n else "Unlimited"

namespace Config

variable (c : Config)

/-- The line of the name. -/
def titleLine : Text := " * @title " ++ c.name

/-- The line between those of the name and the symbol. -/
def introduction : Text := " * @dev ERC-20 Token with the following features:"

/-- The line of the symbol. -/
def symbolLine : Text := " * - Symbol: " ++ c.symbol

/-- The lines of the other fields. -/
def details : List Text := [
  " * - Initial Supply: " ++ Text.ofNat c.initialSupply,
  " * - Max Supply: " ++ limitLabel c.maxSupply,
  " * - Mintable: " ++ Features.yesNo c.mintable,
  " * - Burnable: " ++ Features.yesNo c.burnable,
  " * - Pausable: " ++ Features.yesNo c.pausable,
  " * - Buy Tax: " ++ Text.ofNat c.buyTax ++ "%",
  " * - Sell Tax: " ++ Text.ofNat c.sellTax ++ "%",
  " * - Access Control: " ++ c.access.label]

theorem accessLabel_features : c.features.accessLabel = c.access.label := by
  obtain ⟨_, _, _, _, _, _, _, _, _, _, access⟩ := c
  cases access <;> rfl

theorem limit_features : (if c.features.hasMaxSupply then c.features.maxSupply
    else "Unlimited".toList) = limitLabel c.maxSupply := by
  have limited : c.features.hasMaxSupply = decide (0 < c.maxSupply) := rfl
  rw [limited, limitLabel]
  simp only [decide_eq_true_eq]
  rfl

/-- The lines inside the header comment of a configuration. -/
theorem remarks_features :
    c.features.remarks = c.titleLine :: introduction :: c.symbolLine :: c.details := by
  rw [details, ← accessLabel_features, ← limit_features]
  rfl

/-- The lines of the source of a configuration. -/
def sourceLines : List Text :=
  c.features.headLines ++ [] :: (c.features.documentation ++ c.features.codeLines)

end Config

/-- The source of a configuration that is accepted, cut at its line feeds. -/
theorem splitOn_source {members : List (Text × Json)} {c : Config}
    (accepted : Config.ofMembers members = .ok c) :
    splitOn '\n' c.features.source.text = c.sourceLines ++ [[]] := by
  have single : ∀ line ∈ c.sourceLines, '\n' ∉ line := by
    have harmless := Config.contractLines_harmless (Config.tame accepted)
    rw [Config.contractLines, Features.contract_lines] at harmless
    rw [Config.sourceLines, Features.headLines, c.features_bases]
    refine List.forall_mem_append.mpr ⟨fun line member => ?_, fun line member => ?_⟩
    · exact (c.headLines_sealed line member).single
    · exact (harmless line member).single
  rw [c.features.source_text]
  exact Text.splitOn_unlines single

end Token

end TokenForge
