import TokenForge.Proofs.Solidity.Grown
import TokenForge.Proofs.Token.Features
import TokenForge.Proofs.Token.Layout

/-!
# Minting only adds lines

Whatever else a request asks for, its source with minting has the lines of its source
without minting, but for the one of the documentation that says whether there is
minting.  `Features.mintingLines` lists the lines that are added, in order, beside
empty ones (`generate_withMintable`).

The parts of a contract are looked at one by one: the lines of the state, the body of the
constructor and the functions grow, and the others are the same.
-/

namespace TokenForge

namespace Token

open Solidity
open Text (splitOn splitOn_of_not_mem splitOn_unlines_eq)

/-! ## Turning minting on and off -/

/-- The request with minting on or off. -/
def Request.withMintable (r : Request) (mintable : Bool) : Request where
  value
    | .mintable => .bool mintable
    | field => r.value field

/-- The features with minting on or off. -/
def Features.withMintable (f : Features) (mintable : Bool) : Features := { f with mintable }

/-- Of what a request asks for, minting decides nothing else. -/
theorem Request.features_withMintable (r : Request) (mintable : Bool) :
    (r.withMintable mintable).features = r.features.map fun f => f.withMintable mintable := by
  unfold Request.features
  simp only [Request.withMintable, isGiven_bool]
  rcases contractNameOf (r.value .symbol) with _ | _
  · rfl
  rcases accessOf (r.value .accessControl) with _ | _
  · rfl
  rcases supplyIsPositive (r.value .maxSupply) with _ | _
  · rfl
  rcases hasTaxOf (r.value .buyTax) (r.value .sellTax) with _ | _
  · rfl
  rcases supplyIsPositive (r.value .initialSupply) with _ | _ <;> rfl

namespace Features

variable (f : Features)

/-! ## The lines of minting -/

/-- What is added to the state. -/
def mintingState : List Text :=
  "    bool public mintable;" ::
    if f.hasRoles then ["    bytes32 public constant MINTER_ROLE = keccak256(\"MINTER_ROLE\");"]
    else []

/-- What is added to the constructor. -/
def mintingSetup : List Text := List.flatten [
  if f.hasRoles then ["        _grantRole(MINTER_ROLE, msg.sender);"] else [],
  ["        mintable = true;"]]

/-- The modifier of a function for the owner or the holders of a role. -/
def guardText (role : Text) : Text :=
  match f.access with
  | .known .ownable => " onlyOwner"
  | .known .roles => " onlyRole(" ++ role ++ ")"
  | _ => []

/-- The function to mint. -/
def mintLines : List Text := List.flatten [
  ["    function mint(address to, uint256 amount) external" ++ f.guardText "MINTER_ROLE" ++ " \x7b",
    "        require(mintable, \"Minting disabled\");"],
  if f.hasMaxSupply then [
    "        if (maxSupply > 0) \x7b",
    "            require(totalSupply() + amount <= maxSupply, \"Exceeds max supply\");",
    "        \x7d"]
  else [],
  ["        _mint(to, amount);", "    \x7d"]]

/-- The function to end minting. -/
def disableMintingLines : List Text :=
  if f.isUnrestricted then [] else [
    "    function disableMinting() external" ++ f.guardText "DEFAULT_ADMIN_ROLE" ++ " \x7b",
    "        mintable = false;",
    "    \x7d"]

/-- The lines that minting adds. -/
def mintingLines : List Text :=
  f.mintingState ++ (f.mintingSetup ++ (f.mintLines ++ f.disableMintingLines))

/-! ## State -/

/-- The declarations that minting adds. -/
def mintingDeclarations : List Declaration :=
  .variable "bool" "mintable" :: if f.hasRoles then [.role minterRole] else []

/-- The flag and the role stand between parts of the state that do not depend on minting. -/
theorem exists_state : ∃ limit taxes pauser : List Declaration, ∀ mintable,
    (f.withMintable mintable).state =
      limit ++ (if mintable then [.variable "bool" "mintable"] else []) ++ taxes ++
        (if f.hasRoles && mintable then [.role minterRole] else []) ++ pauser :=
  ⟨if f.hasMaxSupply then [.variable "uint256" "maxSupply"] else [],
    if f.hasTax then taxState else [],
    if f.hasRoles && f.pausable then [.role pauserRole] else [], fun _ => rfl⟩

theorem grown_state : Grown ((f.withMintable false).state.map Declaration.print)
    (f.mintingDeclarations.map Declaration.print)
    ((f.withMintable true).state.map Declaration.print) := by
  obtain ⟨limit, taxes, pauser, parts⟩ := f.exists_state
  rw [mintingDeclarations, parts, parts, Bool.and_false, Bool.and_true, if_neg Bool.false_ne_true,
    if_neg Bool.false_ne_true, if_pos rfl]
  -- What the lines say plays no role from here.
  generalize (if f.hasRoles then [.role minterRole] else [] : List Declaration) = role
  simpa using Grown.between (limit.map Declaration.print) (taxes.map Declaration.print)
    (pauser.map Declaration.print) [Declaration.print (.variable "bool" "mintable")]
    (role.map Declaration.print)

theorem grown_stateLines : Grown (f.withMintable false).stateLines f.mintingState
    (f.withMintable true).stateLines := by
  have lines : f.mintingState = indent (f.mintingDeclarations.map Declaration.print) := by
    rw [mintingState, mintingDeclarations]
    cases f.hasRoles <;> rfl
  have events : (f.withMintable false).events = (f.withMintable true).events := rfl
  rw [lines, stateLines, stateLines, events]
  simpa using f.grown_state.spaced.append (.refl (spaced _))

/-! ## Constructor -/

/-- The statements that minting adds. -/
def mintingStatements : List Stmt :=
  (if f.hasRoles then [grant minterRole] else []) ++
    [.assign (.name "mintable") (.name "true")]

/-- The grant and the start of the flag stand between parts that do not depend on minting. -/
theorem exists_setup : ∃ admin pauser limit taxes : List Stmt, ∀ mintable,
    (f.withMintable mintable).setup =
      admin ++ (if f.hasRoles && mintable then [grant minterRole] else []) ++ pauser ++ limit ++
        (if mintable then [.assign (.name "mintable") (.name "true")] else []) ++ taxes := by
  refine ⟨if f.hasRoles then [grant adminRole] else [],
    if f.hasRoles && f.pausable then [grant pauserRole] else [],
    if f.hasMaxSupply then [.assign (.name "maxSupply") (scaled f.maxSupply)] else [],
    if f.hasTax then f.taxSetup else [], fun mintable => ?_⟩
  have same : (f.withMintable mintable).hasRoles = f.hasRoles := rfl
  rw [setup, grants, same]
  cases f.hasRoles <;> rfl

theorem grown_setup : Grown (printBody (f.withMintable false).setup)
    (printBody f.mintingStatements) (printBody (f.withMintable true).setup) := by
  obtain ⟨admin, pauser, limit, taxes, parts⟩ := f.exists_setup
  rw [mintingStatements, parts, parts, Bool.and_false, Bool.and_true, if_neg Bool.false_ne_true,
    if_neg Bool.false_ne_true, if_pos rfl]
  -- What the statements do plays no role from here.
  generalize (if f.hasRoles then [grant minterRole] else []) = role
  generalize [Stmt.assign (.name "mintable") (.name "true")] = start
  simpa [printBody_append] using Grown.between (printBody admin) (printBody (pauser ++ limit))
    (printBody taxes) (printBody role) (printBody start)

/-- If nothing was done before the first tokens were made, the empty line before that is added with
what is done now. -/
theorem grown_withGap {body more : List Stmt} {added : List Text}
    (h : Grown (printBody body) added (printBody more)) :
    Grown (printBody (withGap body)) added (printBody (withGap more)) := by
  have printed (s : Stmt) (rest : List Stmt) :
      printBody (withGap (s :: rest)) = printBody (s :: rest) ++ [[]] :=
    printBody_append (s :: rest) [.gap]
  cases body with
  | nil =>
    cases more with
    | nil => exact h
    | cons s rest =>
      have start : Grown (printBody (withGap [])) added (printBody (s :: rest)) := h
      rw [printed]
      simpa using start.append (.gap .nil)
  | cons s rest =>
    have some_line : printBody (s :: rest) ≠ [] := fun none =>
      s.print_ne_nil (List.append_eq_nil_iff.mp none).1
    cases more with
    | nil => exact absurd rfl (h.ne_nil some_line)
    | cons t later =>
      rw [printed, printed]
      simpa using h.append (.refl [[]])

theorem grown_constructorBody : Grown (printBody (f.withMintable false).constructor.body)
    (printBody f.mintingStatements) (printBody (f.withMintable true).constructor.body) := by
  have body (mintable : Bool) : (f.withMintable mintable).constructor.body =
      if f.hasInitialSupply then withGap (f.withMintable mintable).setup ++
        [.run (.call "_mint" [sender, scaled f.initialSupply])]
      else (f.withMintable mintable).setup := rfl
  rw [body, body]
  generalize Stmt.run (.call "_mint" [sender, scaled f.initialSupply]) = supply
  cases f.hasInitialSupply with
  | false => exact f.grown_setup
  | true =>
    have grown := (grown_withGap f.grown_setup).append (.refl (printBody [supply]))
    rw [List.append_nil, ← printBody_append, ← printBody_append] at grown
    exact grown

theorem grown_constructor : Grown (indent (f.withMintable false).constructor.print)
    f.mintingSetup (indent (f.withMintable true).constructor.print) := by
  have lines : f.mintingSetup = indent (indent (printBody f.mintingStatements)) := by
    rw [mintingSetup, mintingStatements]
    cases f.hasRoles <;> rfl
  have opening : (f.withMintable false).constructorOpening =
      (f.withMintable true).constructorOpening := rfl
  have printed := (f.grown_constructorBody.indent.append (.refl [closing])).kept
    (f.withMintable true).constructorOpening
  rw [lines, constructor_print, constructor_print, opening]
  simpa using printed.indent

/-! ## Functions -/

/-- The lines of functions, each behind an empty line. -/
def blocks (functions : List Function) : List Text := functions.flatMap fun g => [] :: indent g.print

theorem blocks_append (functions more : List Function) :
    blocks (functions ++ more) = blocks functions ++ blocks more := List.flatMap_append

theorem blocks_singleton (g : Function) : blocks [g] = [] :: indent g.print := List.append_nil _

theorem print_guard (role : Text) :
    (f.guard role).flatMap (fun q => ' ' :: q.print) = f.guardText role := by
  obtain ⟨_, _, _, _, _, _, _, _, _, _, _, _, _, _, _, access⟩ := f
  rcases access with (_ | _ | _) | _
  · rfl
  · exact List.append_nil _
  · rfl
  · rfl

/-- The lines of a function that is called from outside. -/
theorem print_external (name : Text) (parameters : List Parameter) (role : Text)
    (body : List Stmt) : (external name parameters (f.guard role) body).print =
      ("function ".toList ++ name ++ "(".toList ++ commaList (parameters.map Parameter.print) ++
        (")".toList ++ (' ' :: "external".toList ++ f.guardText role) ++ " \x7b".toList)) ::
        (indent (printBody body) ++ [closing]) := by
  rw [← print_guard]
  rfl

theorem blocks_mint : blocks (f.withMintable true).mint = [] :: f.mintLines := by
  have mint : (f.withMintable true).mint =
    [external "mint" [⟨"address", "to"⟩, ⟨"uint256", "amount"⟩] (f.guard minterRole)
      ([requires (.name "mintable") "Minting disabled"] ++
        (if f.hasMaxSupply then [limitCheck] else []) ++
        [.run (.call "_mint" [.name "to", .name "amount"])])] := rfl
  rw [mint, blocks_singleton, print_external, mintLines]
  cases f.hasMaxSupply <;> rfl

theorem blocks_disableMinting : blocks (f.withMintable true).disableMinting =
    if f.isUnrestricted then [] else [] :: f.disableMintingLines := by
  have disableMinting : (f.withMintable true).disableMinting = if !f.isUnrestricted then
    [external "disableMinting" [] (f.guard adminRole) [.assign (.name "mintable") (.name "false")]]
    else [] := rfl
  rw [disableMinting, disableMintingLines]
  cases f.isUnrestricted with
  | false =>
    rw [Bool.not_false, if_pos rfl, blocks_singleton, print_external]
    rfl
  | true => rfl

theorem functions_withMintable (mintable : Bool) : (f.withMintable mintable).functions =
    (f.withMintable mintable).mint ++ (f.pause ++ f.taxAdmin) ++
      (f.withMintable mintable).disableMinting ++ (f.transferHook ++ f.supportsInterface) := by
  rw [functions]
  simp only [List.append_assoc]
  rfl

theorem grown_functionLines : Grown (f.withMintable false).functionLines
    (f.mintLines ++ f.disableMintingLines) (f.withMintable true).functionLines := by
  have mint : Grown (blocks (f.withMintable false).mint) f.mintLines
      (blocks (f.withMintable true).mint) := by
    rw [blocks_mint]
    exact (Grown.all f.mintLines).gap
  have disableMinting : Grown (blocks (f.withMintable false).disableMinting) f.disableMintingLines
      (blocks (f.withMintable true).disableMinting) := by
    rw [blocks_disableMinting, disableMintingLines]
    split
    · exact .nil
    · exact (Grown.all _).gap
  have lines (mintable : Bool) : (f.withMintable mintable).functionLines =
      blocks (f.withMintable mintable).functions := rfl
  have printed := ((mint.append (.refl (blocks (f.pause ++ f.taxAdmin)))).append
    disableMinting).append (.refl (blocks (f.transferHook ++ f.supportsInterface)))
  simp only [← blocks_append, List.append_nil] at printed
  rw [lines, lines, functions_withMintable, functions_withMintable]
  exact printed

/-! ## The whole source -/

theorem grown_codeLines : Grown (f.withMintable false).codeLines f.mintingLines
    (f.withMintable true).codeLines := by
  have parts := ((f.grown_stateLines.append f.grown_constructor).append
    f.grown_functionLines).append (.refl [closing])
  have opening : (f.withMintable false).contract.opening = (f.withMintable true).contract.opening :=
    rfl
  rw [codeLines, codeLines, opening]
  simpa [mintingLines] using parts.kept _

theorem single_guardText {role : Text} (single : '\n' ∉ role) : '\n' ∉ f.guardText role := by
  unfold guardText
  split
  · decide
  · simp [single]
  · exact List.not_mem_nil

theorem single_mintingLines : ∀ line ∈ f.mintingLines, '\n' ∉ line := by
  simp only [mintingLines, List.forall_mem_append]
  refine ⟨?_, ?_, ?_, ?_⟩
  · rw [mintingState]
    cases f.hasRoles <;> simp
  · rw [mintingSetup]
    cases f.hasRoles <;> simp
  · rw [mintLines]
    cases f.hasMaxSupply <;> simp [f.single_guardText]
  · rw [disableMintingLines]
    cases f.isUnrestricted <;> simp [f.single_guardText]

/-- What stands before the line of the documentation about minting. -/
def linesAbove : List Text := f.headLines ++ [] :: f.documentation.take 6

/-- The rest of the documentation. -/
def documentationBelow : List Text := f.documentation.drop 7

/-- The lines of a source around the one about minting, which is not cut. -/
theorem splitOn_text : splitOn '\n' f.source.text =
    f.linesAbove.flatMap (splitOn '\n') ++ (" * - Mintable: " ++ yesNo f.mintable) ::
      ((f.documentationBelow ++ f.codeLines).flatMap (splitOn '\n') ++ [[]]) := by
  have documented : f.documentation = f.documentation.take 6 ++
      (" * - Mintable: " ++ yesNo f.mintable) :: f.documentationBelow :=
    (List.take_append_drop 6 f.documentation).symm
  have single : '\n' ∉ " * - Mintable: " ++ yesNo f.mintable := by
    cases f.mintable <;> decide
  rw [f.source_text, splitOn_unlines_eq, documented, List.append_assoc, List.cons_append,
    ← List.cons_append, ← List.append_assoc, List.flatMap_append, List.flatMap_cons,
    splitOn_of_not_mem single]
  simp only [linesAbove, List.append_assoc, List.cons_append, List.nil_append]

/-- With minting and without, the line about minting is at one place, with the same lines above, and
the lines below grow. -/
theorem exists_lines : ∃ above below more : List Text,
    splitOn '\n' (f.withMintable true).source.text =
      above ++ (" * - Mintable: Yes" : Text) :: more ∧
    splitOn '\n' (f.withMintable false).source.text =
      above ++ (" * - Mintable: No" : Text) :: below ∧
    Grown below f.mintingLines more := by
  have code := (Grown.refl f.documentationBelow).append f.grown_codeLines
  have cut := (code.cut f.single_mintingLines).append (.refl [[]])
  rw [List.nil_append, List.append_nil] at cut
  exact ⟨f.linesAbove.flatMap (splitOn '\n'), _, _, (f.withMintable true).splitOn_text,
    (f.withMintable false).splitOn_text, cut⟩

end Features

/-- If a request has a source, it has one with minting and one without.  Up to the line of the
documentation about minting they are the same.  Without this line, the lines of the source
without minting are a subsequence of those with minting, and what is added is this line,
the lines of minting and empty ones. -/
theorem generate_withMintable {r : Request} {s : Source} (generated : generate r = .ok s) :
    ∃ on off, generate (r.withMintable true) = .ok on ∧
      generate (r.withMintable false) = .ok off ∧
      ∃ above below : List Text,
        splitOn '\n' off.text = above ++ (" * - Mintable: No" : Text) :: below ∧
        (above ++ [" * - Mintable: Yes".toList]) <+: splitOn '\n' on.text ∧
        (above ++ below).Sublist (splitOn '\n' on.text) ∧
        Grown (above ++ below) (" * - Mintable: Yes" :: s.features.mintingLines)
          (splitOn '\n' on.text) := by
  have source (mintable : Bool) :
      generate (r.withMintable mintable) = .ok (s.features.withMintable mintable).source := by
    rw [generate, r.features_withMintable, features_of_generate generated]
    rfl
  obtain ⟨above, below, more, on, off, grown⟩ := s.features.exists_lines
  refine ⟨(s.features.withMintable true).source, (s.features.withMintable false).source,
    source true, source false, above, below, off, ?_⟩
  have all : Grown (above ++ below) (" * - Mintable: Yes" :: s.features.mintingLines)
      (above ++ (" * - Mintable: Yes" : Text) :: more) :=
    (Grown.refl above).append (grown.more " * - Mintable: Yes")
  rw [on]
  exact ⟨⟨more, List.append_assoc _ _ _⟩, all.sublist, all⟩

/-- A configuration without an access model, whose name has a line like the one about minting. -/
def openConfig : Config :=
  { plainConfig "A\n * - Mintable: No" "ABC" with access := .unrestricted }

/-- Minting adds its flag and the function to mint, which nothing ends. -/
theorem generate_withMintable_openConfig :
    ∃ s on off, generate openConfig.request = .ok s ∧
      generate (openConfig.request.withMintable true) = .ok on ∧
      generate (openConfig.request.withMintable false) = .ok off ∧
      ∃ above below : List Text,
        splitOn '\n' off.text = above ++ (" * - Mintable: No" : Text) :: below ∧
        Grown (above ++ below) [" * - Mintable: Yes", "    bool public mintable;",
          "        mintable = true;",
          "    function mint(address to, uint256 amount) external \x7b",
          "        require(mintable, \"Minting disabled\");", "        _mint(to, amount);", "    \x7d"]
          (splitOn '\n' on.text) := by
  obtain ⟨on, off, generatedOn, generatedOff, above, below, split, _, _, grown⟩ :=
    generate_withMintable openConfig.generate_request
  exact ⟨_, on, off, openConfig.generate_request, generatedOn, generatedOff, above, below, split,
    grown⟩

end Token

end TokenForge
