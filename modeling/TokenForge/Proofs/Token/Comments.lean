import TokenForge.Proofs.Text.Occurrences
import TokenForge.Proofs.Token.Documentation

/-!
# The header comment of a generated source

The documentation of a contract is one comment, and the name and the symbol stand in it as they
are given.  They may hold the end of a comment: it occurs once for the comment itself and twice
for each time that it occurs in the name or in the symbol, and the comment ends where it should
if and only if it occurs in neither (`generate_header`).
-/

namespace TokenForge

namespace Token

open Solidity
open Text (unlines occurrences afterFirst? Apart apart_of_head apart_of_last occurrences_append
  occurrences_of_first_not_mem occurrences_of_second_not_mem occurrences_unlines_append
  afterFirst?_append_of_some afterFirst?_append_of_none afterFirst?_append_word_iff
  afterFirst?_eq_none_iff startsWith_pair)

/-! ## Lines without the end of a comment -/

theorem occurrences_behind {label : Text} (last : label.getLast? = some ' ')
    (none : occurrences commentEnd label = 0) (t : Text) :
    occurrences commentEnd (label ++ t) = occurrences commentEnd t := by
  rw [commentEnd, occurrences_append (apart_of_last last (by decide) t), ← commentEnd, none,
    Nat.zero_add]

theorem occurrences_quote (s t : Text) : occurrences commentEnd (s ++ '"' :: t) =
    occurrences commentEnd s + occurrences commentEnd t := by
  rw [commentEnd, occurrences_append (apart_of_head rfl (by decide) s), occurrences,
    startsWith_pair]
  simp

theorem indents_open : Indents fun line => occurrences commentEnd line = 0 where
  empty := rfl
  indent h := by rw [occurrences_behind rfl rfl, h]

theorem occurrences_eq_zero_of_occursIn {s : Text} (h : (!Text.occursIn commentEnd s) = true) :
    occurrences commentEnd s = 0 := by
  rw [← afterFirst?_eq_none_iff]
  simpa [Text.occursIn] using h

theorem sum_occurrences_eq_zero {lines : List Text}
    (h : ∀ line ∈ lines, occurrences commentEnd line = 0) :
    (lines.map (occurrences commentEnd)).sum = 0 := by
  induction lines with
  | nil => rfl
  | cons line lines ih =>
    have later := ih fun line member => h line (.tail _ member)
    rw [List.map_cons, List.sum_cons, h line (.head _), later]

/-! ## Lines of the code -/

section Lines

variable (c : Config)

theorem pastedSetup_open : ∀ s ∈ c.features.pastedSetup, ∀ line ∈ s.print,
    occurrences commentEnd line = 0 := by
  have number : ∀ n, '/' ∉ Text.ofNat n := fun n => (alphanumeric_ofNat n).not_mem (by decide)
  have scaled : ∀ n, '/' ∉ (Features.scaled (Text.ofNat n)).print := by
    simp [Features.scaled, Expr.print, printArguments, commaList, Operator.sign, number]
  have receiver : '/' ∉ c.features.receiver.print := by
    unfold Features.receiver
    cases given : c.features.taxReceiver with
    | none =>
      show '/' ∉ sender.print
      decide
    | some account =>
      obtain ⟨address, _, rfl⟩ := Option.map_eq_some_iff.mp given
      simpa [Expr.print, printArguments, commaList] using
        (alphanumeric_checksummed address).not_mem (c := '/') (by decide)
  intro s member line here
  apply occurrences_of_second_not_mem
  simp only [Features.pastedSetup, List.mem_cons, List.not_mem_nil, or_false] at member
  rcases member with rfl | rfl | rfl | rfl | rfl <;>
    rw [Stmt.print, List.mem_singleton] at here <;> rw [here]
  · simpa [Expr.print, Config.features] using scaled c.maxSupply
  · simpa [Expr.print, Config.features] using number c.buyTax
  · simpa [Expr.print, Config.features] using number c.sellTax
  · simpa [Expr.print] using receiver
  · simpa [Expr.print, printArguments, commaList, sender, Config.features]
      using scaled c.initialSupply

theorem ownLines_open :
    (Features.ownLines.all fun line => !Text.occursIn commentEnd line) = true := by
  decide +kernel

theorem body_open : ∀ line ∈ printBody c.features.constructor.body,
    occurrences commentEnd line = 0 :=
  forall_mem_printBody (c.features.forall_constructorBody ownLines_open
    (fun _ => occurrences_eq_zero_of_occursIn) (pastedSetup_open c))

theorem functionLines_open : ∀ line ∈ c.features.functionLines,
    occurrences commentEnd line = 0 :=
  indents_open.forall_mem_functions fun g member line here =>
    occurrences_eq_zero_of_occursIn (c.features.forall_functions ownLines_open g member line here)

theorem stateLines_open : ∀ line ∈ c.features.stateLines, occurrences commentEnd line = 0 := by
  refine List.forall_mem_append.mpr ⟨indents_open.forall_mem_spaced ?_,
    indents_open.forall_mem_spaced ?_⟩
  · exact List.forall_mem_map.mpr fun d member =>
      occurrences_eq_zero_of_occursIn (c.features.forall_state ownLines_open d member)
  · exact List.forall_mem_map.mpr fun e member =>
      occurrences_eq_zero_of_occursIn (c.features.forall_events ownLines_open e member)

theorem headLines_open : ∀ line ∈ c.features.headLines, occurrences commentEnd line = 0 := by
  refine List.forall_mem_append.mpr ⟨?_, ?_⟩
  · have plain : (c.features.unit.preambleLines.all
        fun line => !Text.occursIn commentEnd line) = true := rfl
    exact fun line member => occurrences_eq_zero_of_occursIn (List.all_eq_true.mp plain line member)
  · simp only [List.forall_mem_map]
    intro b _
    apply occurrences_of_first_not_mem
    cases b <;> decide

theorem opening_open : occurrences commentEnd c.features.contract.opening = 0 := by
  have name : '*' ∉ contractName c.symbol := (alphanumeric_contractName _).not_mem (by decide)
  have bases : '*' ∉ commaList (c.features.bases.map Base.name) := by
    intro member
    rcases mem_intercalate member with between | ⟨t, inside, here⟩
    · revert between
      decide
    · obtain ⟨b, _, rfl⟩ := List.mem_map.mp inside
      revert here
      cases b <;> decide
  apply occurrences_of_first_not_mem
  unfold Contract.opening
  simpa using ⟨name, bases⟩

theorem details_open : ∀ line ∈ c.details, occurrences commentEnd line = 0 := by
  have number : ∀ n, '/' ∉ Text.ofNat n := fun n => (alphanumeric_ofNat n).not_mem (by decide)
  have flag : ∀ b, '/' ∉ Features.yesNo b := by decide
  have access : '/' ∉ c.access.label := by cases c.access <;> decide
  have limit : '/' ∉ limitLabel c.maxSupply := by
    unfold limitLabel
    split
    · exact number c.maxSupply
    · decide
  intro line member
  apply occurrences_of_second_not_mem
  simp only [Config.details, List.mem_cons, List.not_mem_nil, or_false] at member
  rcases member with rfl | rfl | rfl | rfl | rfl | rfl | rfl | rfl
  · simpa using number c.initialSupply
  · simpa using limit
  · simpa using flag c.mintable
  · simpa using flag c.burnable
  · simpa using flag c.pausable
  · simpa using number c.buyTax
  · simpa using number c.sellTax
  · simpa using access

/-! ## Counting -/

/-- How often the end of a comment occurs in the name and the symbol. -/
def Config.pastedEnds (c : Config) : Nat :=
  occurrences commentEnd c.name + occurrences commentEnd c.symbol

theorem occurrences_titleLine :
    occurrences commentEnd c.titleLine = occurrences commentEnd c.name :=
  occurrences_behind rfl rfl c.name

theorem occurrences_symbolLine :
    occurrences commentEnd c.symbolLine = occurrences commentEnd c.symbol :=
  occurrences_behind rfl rfl c.symbol

theorem occurrences_introduction : occurrences commentEnd Config.introduction = 0 := by
  decide

theorem sum_occurrences_remarks :
    (c.features.remarks.map (occurrences commentEnd)).sum = c.pastedEnds := by
  rw [c.remarks_features, List.map_cons, List.map_cons, List.map_cons, List.sum_cons,
    List.sum_cons, List.sum_cons, sum_occurrences_eq_zero (details_open c),
    occurrences_titleLine, occurrences_introduction, occurrences_symbolLine, Config.pastedEnds]
  omega

theorem occurrences_comment : occurrences commentEnd c.features.comment = c.pastedEnds := by
  have split : c.features.comment = unlines ([] :: c.features.remarks) ++ [' '] := rfl
  have blank : occurrences commentEnd [] = 0 ∧ occurrences commentEnd [' '] = 0 := by decide
  rw [split, commentEnd, occurrences_unlines_append (by decide) (by decide), ← commentEnd,
    List.map_cons, List.sum_cons, sum_occurrences_remarks, blank.1, blank.2]
  omega

theorem occurrences_constructorOpening :
    occurrences commentEnd c.features.constructorOpening = c.pastedEnds := by
  have quoted : c.features.constructorOpening = "constructor() ERC20(".toList ++ '"' :: (c.name ++
      '"' :: (", ".toList ++ '"' :: (c.symbol ++ '"' :: c.features.constructorEnd.tail))) := by
    unfold Features.constructorOpening Features.constructorEnd
    cases c.features.isOwnable <;> simp [Config.features]
  have ending : occurrences commentEnd c.features.constructorEnd.tail = 0 := by
    unfold Features.constructorEnd
    cases c.features.isOwnable <;> decide
  have opening : occurrences commentEnd "constructor() ERC20(" = 0 := by decide
  have comma : occurrences commentEnd ", " = 0 := by decide
  rw [quoted, occurrences_quote, occurrences_quote, occurrences_quote, occurrences_quote, opening,
    comma, ending, Config.pastedEnds]
  omega

theorem sum_occurrences_constructor :
    ((indent c.features.constructor.print).map (occurrences commentEnd)).sum = c.pastedEnds := by
  have lines : indent c.features.constructor.print = (step ++ c.features.constructorOpening) ::
      indent (indent (printBody c.features.constructor.body) ++ [closing]) := by
    rw [c.features.constructor_print]
    rfl
  have body : ∀ line ∈ indent (printBody c.features.constructor.body) ++ [closing],
      occurrences commentEnd line = 0 :=
    List.forall_mem_append.mpr ⟨indents_open.forall_mem_indent (body_open c),
      List.forall_mem_singleton.mpr (by decide)⟩
  rw [lines, List.map_cons, List.sum_cons, occurrences_behind rfl rfl,
    occurrences_constructorOpening, sum_occurrences_eq_zero (indents_open.forall_mem_indent body),
    Nat.add_zero]

theorem sum_occurrences_codeLines :
    (c.features.codeLines.map (occurrences commentEnd)).sum = c.pastedEnds := by
  have closed : occurrences commentEnd closing = 0 := by decide
  simp only [Features.codeLines, List.map_cons, List.map_append, List.map_nil, List.sum_cons,
    List.sum_append, List.sum_nil, opening_open, closed,
    sum_occurrences_eq_zero (stateLines_open c), sum_occurrences_constructor,
    sum_occurrences_eq_zero (functionLines_open c)]
  omega

/-- The end of a comment in a source: once as such, and each time it is pasted twice. -/
theorem occurrences_source :
    occurrences commentEnd c.features.source.text = 1 + 2 * c.pastedEnds := by
  have text : c.features.source.text = unlines (c.features.headLines ++ [] ::
      "/**".toList :: (c.features.remarks ++ " */".toList :: c.features.codeLines)) ++ [] := by
    rw [c.features.source_text, c.features.documentation_eq, List.append_nil, List.cons_append,
      List.append_assoc]
    rfl
  have own : occurrences commentEnd [] = 0 ∧ occurrences commentEnd "/**" = 0 ∧
    occurrences commentEnd " */" = 1 := by decide
  rw [text, commentEnd, occurrences_unlines_append (by decide) (by decide), ← commentEnd]
  simp only [List.map_cons, List.map_append, List.sum_cons, List.sum_append,
    sum_occurrences_eq_zero (headLines_open c), own, sum_occurrences_remarks,
    sum_occurrences_codeLines]
  omega

/-! ## What is behind the comment -/

theorem afterFirst?_pasted {before after : List Text} {label s rest : Text}
    (remarks : c.features.remarks = before ++ (label ++ s) :: after)
    (earlier : ∀ line ∈ before, occurrences commentEnd line = 0)
    (last : label.getLast? = some ' ') (none : occurrences commentEnd label = 0)
    (h : afterFirst? commentEnd s = some rest) :
    ∃ more, afterFirst? commentEnd c.features.behindOpening = some (rest ++ '\n' :: more) := by
  have quiet : occurrences commentEnd (unlines ([] :: before) ++ label) = 0 := by
    rw [commentEnd, occurrences_unlines_append (by decide) (by decide), ← commentEnd,
      sum_occurrences_eq_zero (List.forall_mem_cons.mpr ⟨rfl, earlier⟩), none]
  have text : c.features.behindOpening =
      (unlines ([] :: before) ++ label) ++ (s ++ '\n' ::
        (unlines after ++ ' ' :: (commentEnd ++ c.features.code))) := by
    rw [Features.behindOpening, c.features.comment_eq remarks]
    simp only [List.append_assoc, List.cons_append, List.nil_append]
  have seam : ∀ t, Apart '*' '/' (unlines ([] :: before) ++ label) t :=
    apart_of_last (by rw [List.getLast?_append, last]; rfl) (by decide)
  rw [text, commentEnd, afterFirst?_append_of_none (seam _) quiet]
  exact ⟨_, afterFirst?_append_of_some h⟩

/-- Behind the end of a comment in the name there is code. -/
theorem afterFirst?_name {rest : Text} (h : afterFirst? commentEnd c.name = some rest) :
    ∃ more, afterFirst? commentEnd c.features.behindOpening = some (rest ++ '\n' :: more) :=
  @afterFirst?_pasted c [] _ _ _ _ c.remarks_features (by simp) rfl rfl h

/-- Behind the end of a comment in the symbol there is code, if none is in the name. -/
theorem afterFirst?_symbol {rest : Text} (none : occurrences commentEnd c.name = 0)
    (h : afterFirst? commentEnd c.symbol = some rest) :
    ∃ more, afterFirst? commentEnd c.features.behindOpening = some (rest ++ '\n' :: more) := by
  have earlier : ∀ line ∈ [c.titleLine, Config.introduction], occurrences commentEnd line = 0 :=
    List.forall_mem_cons.mpr ⟨(occurrences_titleLine c).trans none,
      List.forall_mem_singleton.mpr occurrences_introduction⟩
  exact @afterFirst?_pasted c [_, _] _ _ _ _ c.remarks_features earlier rfl rfl h

end Lines

/-- A configuration that is accepted has a source with a header comment, whose last line should
be its end.  In the source the end of a comment occurs once for the header, and twice for each
time that it occurs in the name or in the symbol.  The header is closed where it should be if and
only if it occurs in neither; otherwise what follows it in the name, or in the symbol, is behind
the comment. -/
theorem generate_header {members : List (Text × Json)} {c : Config}
    (accepted : Config.ofMembers members = .ok c) :
    ∃ s, generate c.request = .ok s ∧
      Text.splitOn '\n' s.text = s.features.headLines ++
        [] :: "/**".toList :: (s.features.remarks ++ " */".toList :: s.features.codeLines) ++ [[]] ∧
      s.text = s.features.preface ++ ("/**" ++ s.features.behindOpening) ∧
      occurrences commentEnd s.text =
        1 + 2 * (occurrences commentEnd c.name + occurrences commentEnd c.symbol) ∧
      (afterFirst? commentEnd s.features.behindOpening = some s.features.code ↔
        occurrences commentEnd c.name = 0 ∧ occurrences commentEnd c.symbol = 0) ∧
      (∀ rest, afterFirst? commentEnd c.name = some rest → ∃ more,
        afterFirst? commentEnd s.features.behindOpening = some (rest ++ '\n' :: more)) ∧
      ∀ rest, occurrences commentEnd c.name = 0 → afterFirst? commentEnd c.symbol = some rest →
        ∃ more, afterFirst? commentEnd s.features.behindOpening = some (rest ++ '\n' :: more) := by
  have seam : Apart '*' '/' c.features.comment (commentEnd ++ c.features.code) :=
    apart_of_head rfl (by decide) _
  refine ⟨c.features.source, c.generate_request, ?_, c.features.source_header,
    occurrences_source c, ?_, fun _ => afterFirst?_name c, fun _ => afterFirst?_symbol c⟩
  · have lines : (c.features.remarks ++ [" */".toList]) ++ c.features.codeLines =
        c.features.remarks ++ " */".toList :: c.features.codeLines := List.append_assoc _ _ _
    rw [splitOn_source accepted, Config.sourceLines, Features.documentation_eq, List.cons_append,
      lines]
    rfl
  · rw [← Nat.add_eq_zero_iff]
    have inside : occurrences ['*', '/'] c.features.comment = c.pastedEnds := occurrences_comment c
    exact (afterFirst?_append_word_iff seam).trans (by rw [inside, Config.pastedEnds])

/-! ## A name that closes the comment -/

/-- Members that name a token after code between the end of a comment and a new one. -/
def closingMembers : List (Text × Json) := [
  ("name", .text "*/ contract Evil \x7b\x7d /*"), ("symbol", .text "EVL"),
  ("initialSupply", .int 1)]

/-- The configuration that they are accepted as. -/
def closingConfig : Config := plainConfig "*/ contract Evil \x7b\x7d /*" "EVL"

theorem closingConfig_accepted : Config.ofMembers closingMembers = .ok closingConfig := rfl

/-- The name is accepted, the end of a comment is in the source three times, and a contract
stands behind the first. -/
theorem generate_header_closingConfig :
    Config.ofMembers closingMembers = .ok closingConfig ∧
      ∃ s, generate closingConfig.request = .ok s ∧ occurrences commentEnd s.text = 3 ∧
        ∃ more, afterFirst? commentEnd s.features.behindOpening =
          some (" contract Evil \x7b\x7d /*".toList ++ '\n' :: more) := by
  refine ⟨closingConfig_accepted, ?_⟩
  obtain ⟨s, generated, _, _, count, _, behind, _⟩ := generate_header closingConfig_accepted
  have ends : occurrences commentEnd closingConfig.name = 1 ∧
      occurrences commentEnd closingConfig.symbol = 0 := by decide
  rw [ends.1, ends.2] at count
  exact ⟨s, generated, count, behind _ (by decide)⟩

end Token

end TokenForge
