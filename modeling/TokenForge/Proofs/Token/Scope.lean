import TokenForge.Proofs.Solidity.Scope
import TokenForge.Proofs.Token.Features
import TokenForge.Proofs.Token.Layout

/-!
# The names in a token contract

Each part of a contract mentions names of its own, and each name is a word of the language, or
declared in the contract, or inherited from a base (`Features.contract_inScope`).  A part is there
under a condition on the features, and this condition is also one under which its names are
declared or inherited.

The names that a contract declares are among `ownNames`, in this order, and no base has a name of
these or of another base (`eq_of_provides`).  So a name that is mentioned tells what is declared and
what is inherited.
-/

namespace TokenForge

namespace Token

open Solidity

/-! ## Names that are there -/

/-- The words of the language that stand as names in a contract. -/
def languageWords : List Text := ["msg.sender", "this", "true", "false", "address", "require"]

/-- The names of a base that a contract mentions. -/
def Base.provides : Base → List Text
  | .erc20 => ["ERC20", "_mint", "decimals", "totalSupply", "super._update"]
  | .burnable => []
  | .pausable => ["ERC20Pausable", "_pause", "_unpause", "_requireNotPaused"]
  | .ownable => ["Ownable", "onlyOwner"]
  | .accessControl => ["AccessControl", "onlyRole", adminRole, "_grantRole",
      "super.supportsInterface"]

/-- The names of the taxes. -/
def taxNames : List Text :=
  Features.taxState.filterMap Declaration.name? ++ Features.taxEvents.map Event.name

/-- All the names that a contract may declare, in their order. -/
def ownNames : List Text := [
  "maxSupply", "mintable", "buyTaxPercent", "sellTaxPercent", "taxReceiver", "isDexPair",
  "isExcludedFromTax", minterRole, pauserRole,
  "TaxUpdated", "TaxReceiverUpdated", "DexPairUpdated", "ExcludedFromTax"]

theorem nodup_ownNames : ownNames.Nodup := by decide +kernel

/-- The bases in their order. -/
def Base.all : List Base := [.erc20, .burnable, .pausable, .ownable, .accessControl]

theorem Base.mem_all (b : Base) : b ∈ Base.all := by cases b <;> decide

/-- A name of a base is no word of the language, no name that a contract declares, and no name of
another base. -/
theorem eq_of_provides {b : Base} {x : Text} (h : x ∈ b.provides) :
    x ∉ languageWords ∧ x ∉ ownNames ∧ ∀ c : Base, x ∈ c.provides → c = b := by
  have apart : ∀ b ∈ Base.all, ∀ x ∈ b.provides, x ∉ languageWords ∧ x ∉ ownNames ∧
      ∀ c ∈ Base.all, x ∈ c.provides → c = b := by decide +kernel
  obtain ⟨word, own, other⟩ := apart b b.mem_all x h
  exact ⟨word, own, fun c => other c c.mem_all⟩

theorem not_mem_ownNames {x : Text} (h : x ∈ ownNames) : x ∉ languageWords := by
  have apart : ∀ x ∈ ownNames, x ∉ languageWords := by decide +kernel
  exact apart x h

namespace Features

variable (f : Features)

/-- A name that may be mentioned in the contract. -/
inductive InScope (x : Text) : Prop where
  | language : x ∈ languageWords → InScope x
  | declared : x ∈ f.contract.declared → InScope x
  | inherited {b} : b ∈ f.bases → x ∈ b.provides → InScope x

variable {f} {x : Text}

/-! ## Bases -/

theorem erc20_mem : .erc20 ∈ f.bases := by simp [bases]

theorem pausable_mem (h : f.pausable = true) : .pausable ∈ f.bases := by simp [bases, h]

theorem ownable_mem (h : f.isOwnable = true) : .ownable ∈ f.bases := by simp [bases, h]

theorem accessControl_mem (h : f.hasRoles = true) : .accessControl ∈ f.bases := by
  have other : f.isOwnable = false := by
    rw [hasRoles, beq_iff_eq] at h
    rw [isOwnable, h]
    rfl
  simp [bases, h, other]

/-- What is there under a condition is part of what may be there. -/
theorem ite_sublist {α : Type} (b : Bool) (as : List α) : (if b then as else []).Sublist as := by
  cases b
  · exact List.nil_sublist _
  · exact .refl _

/-! ## Declared names -/

variable (f) in
/-- The names that a contract declares, in their order. -/
theorem declared_sublist : f.contract.declared.Sublist ownNames := by
  have state : f.state.Sublist ownState := by
    have roles : ∀ (flag : Bool) (d : Declaration),
        (if f.hasRoles && flag then [d] else []).Sublist [d] := fun _ _ => ite_sublist _ _
    exact ((((ite_sublist _ _).append (ite_sublist _ _)).append (ite_sublist _ _)).append
      (roles _ _)).append (roles _ _)
  exact (state.filterMap _).append ((ite_sublist _ _).map _)

theorem declared_of_state {d : Declaration} (h : d ∈ f.state) (named : d.name? = some x) :
    x ∈ f.contract.declared :=
  List.mem_append_left _ (List.mem_filterMap.mpr ⟨d, h, named⟩)

theorem mem_state {d : Declaration} : d ∈ f.state ↔
    (((f.hasMaxSupply = true ∧ d = .variable "uint256" "maxSupply") ∨
      (f.mintable = true ∧ d = .variable "bool" "mintable")) ∨ (f.hasTax = true ∧ d ∈ taxState)) ∨
      ((f.hasRoles && f.mintable) = true ∧ d = .role minterRole) ∨
      ((f.hasRoles && f.pausable) = true ∧ d = .role pauserRole) := by
  simp only [state, List.mem_append, List.mem_ite_nil_right, List.mem_singleton, or_assoc]

theorem inScope_maxSupply (h : f.hasMaxSupply = true) : f.InScope "maxSupply" :=
  .declared (declared_of_state (mem_state.mpr (.inl (.inl (.inl ⟨h, rfl⟩)))) rfl)

theorem inScope_mintable (h : f.mintable = true) : f.InScope "mintable" :=
  .declared (declared_of_state (mem_state.mpr (.inl (.inl (.inr ⟨h, rfl⟩)))) rfl)

theorem inScope_taxNames (h : f.hasTax = true) (member : x ∈ taxNames) : f.InScope x := by
  rcases List.mem_append.mp member with inState | inEvents
  · obtain ⟨d, inside, named⟩ := List.mem_filterMap.mp inState
    exact .declared (declared_of_state (mem_state.mpr (.inl (.inr ⟨h, inside⟩))) named)
  · have events : f.contract.events = taxEvents := if_pos h
    refine .declared (List.mem_append_right _ ?_)
    rw [events]
    exact inEvents

theorem inScope_minterRole (roles : f.hasRoles = true) (h : f.mintable = true) :
    f.InScope minterRole := by
  have both : (f.hasRoles && f.mintable) = true := by rw [roles, h]; rfl
  exact .declared (declared_of_state (mem_state.mpr (.inr (.inl ⟨both, rfl⟩))) rfl)

theorem inScope_pauserRole (roles : f.hasRoles = true) (h : f.pausable = true) :
    f.InScope pauserRole := by
  have both : (f.hasRoles && f.pausable) = true := by rw [roles, h]; rfl
  exact .declared (declared_of_state (mem_state.mpr (.inr (.inr ⟨both, rfl⟩))) rfl)

/-! ## Inherited names -/

theorem inScope_erc20 (h : x ∈ Base.erc20.provides) : f.InScope x := .inherited erc20_mem h

theorem inScope_pausable (h : f.pausable = true) (member : x ∈ Base.pausable.provides) :
    f.InScope x := .inherited (pausable_mem h) member

theorem inScope_accessControl (h : f.hasRoles = true) (member : x ∈ Base.accessControl.provides) :
    f.InScope x := .inherited (accessControl_mem h) member

/-- The names that every contract may mention. -/
def commonNames : List Text := languageWords ++ Base.erc20.provides

theorem inScope_commonNames (h : x ∈ commonNames) : f.InScope x := by
  rcases List.mem_append.mp h with word | inherited
  · exact .language word
  · exact inScope_erc20 inherited

/-- Names are in scope if those of them are that not every contract may mention. -/
theorem inScope_of_own {own : List Text} (h : ∀ x ∈ own, f.InScope x) :
    ∀ x ∈ commonNames ++ own, f.InScope x :=
  List.forall_mem_append.mpr ⟨fun _ => inScope_commonNames, h⟩

theorem openNames_inScope {body : List Stmt} {parameters own : List Text}
    (mentioned : ∀ x ∈ openNames body, x ∈ parameters ∨ x ∈ commonNames ++ own)
    (h : ∀ x ∈ own, f.InScope x) : ∀ x ∈ openNames body, x ∈ parameters ∨ f.InScope x :=
  fun x member => (mentioned x member).imp_right (inScope_of_own h x)

/-! ## Privileged functions -/

/-- A guard mentions the modifier of the access model, and the role. -/
theorem guard_inScope {role : Text} (h : f.hasRoles = true → f.InScope role) :
    ∀ x ∈ (f.guard role).flatMap Qualifier.names, f.InScope x := by
  intro x member
  rw [guard] at member
  split at member
  · rename_i ownable
    cases List.mem_singleton.mp member
    exact .inherited (ownable_mem ownable) (.tail _ (.head _))
  · split at member
    · rename_i roles
      rcases List.mem_pair.mp member with rfl | rfl
      · exact inScope_accessControl roles (.tail _ (.head _))
      · exact h roles
    · cases member

/-- A function mentions names in scope if its qualifiers do, and its body but for parameters. -/
theorem function_inScope {g : Function} (guarded : ∀ x ∈ g.qualifiers.flatMap Qualifier.names,
      f.InScope x)
    (h : ∀ x ∈ openNames g.body, x ∈ g.parameters.map Parameter.name ∨ f.InScope x) :
    ∀ x ∈ g.openNames, f.InScope x := by
  refine List.forall_mem_append.mpr ⟨guarded, fun x member => ?_⟩
  obtain ⟨mentioned, unbound⟩ := List.mem_filter.mp member
  exact (h x mentioned).resolve_left (of_decide_eq_true unbound)

theorem external_inScope {name role : Text} {parameters : List Parameter} {body : List Stmt}
    (guarded : f.hasRoles = true → f.InScope role)
    (h : ∀ x ∈ openNames body, x ∈ parameters.map Parameter.name ∨ f.InScope x) :
    ∀ x ∈ (external name parameters (f.guard role) body).openNames, f.InScope x :=
  @function_inScope f (external name parameters (f.guard role) body) (guard_inScope guarded) h

theorem mint_inScope : ∀ g ∈ f.mint, ∀ x ∈ g.openNames, f.InScope x := by
  intro g member
  rw [mint, List.mem_ite_nil_right, List.mem_singleton] at member
  obtain ⟨mintable, rfl⟩ := member
  have enabled := List.forall_mem_singleton.mpr (inScope_mintable mintable)
  refine external_inScope (fun roles => inScope_minterRole roles mintable)
    (forall_openNames_append (forall_openNames_append ?check ?limit) ?call)
  case check => exact openNames_inScope (by decide) enabled
  case limit =>
    split
    · rename_i limited
      exact openNames_inScope (by decide)
        (List.forall_mem_singleton.mpr (inScope_maxSupply limited))
    · exact fun x none => absurd none List.not_mem_nil
  case call => exact openNames_inScope (by decide) enabled

theorem pause_inScope : ∀ g ∈ f.pause, ∀ x ∈ g.openNames, f.InScope x := by
  intro g member
  rw [pause, List.mem_ite_nil_right, Bool.and_eq_true] at member
  obtain ⟨⟨pausable, -⟩, member⟩ := member
  have inherited : ∀ x ∈ Base.pausable.provides, f.InScope x := fun _ => inScope_pausable pausable
  have role := fun roles => inScope_pauserRole roles pausable
  rcases List.mem_pair.mp member with rfl | rfl
  · exact external_inScope role (openNames_inScope (by decide) inherited)
  · exact external_inScope role (openNames_inScope (by decide) inherited)

theorem adminRole_inScope (roles : f.hasRoles = true) : f.InScope adminRole :=
  inScope_accessControl roles (.tail _ (.tail _ (.head _)))

theorem taxAdmin_inScope : ∀ g ∈ f.taxAdmin, ∀ x ∈ g.openNames, f.InScope x := by
  intro g member
  rw [taxAdmin, List.mem_ite_nil_right, Bool.and_eq_true] at member
  obtain ⟨⟨taxed, -⟩, member⟩ := member
  have declared : ∀ x ∈ taxNames, f.InScope x := fun _ => inScope_taxNames taxed
  simp only [List.mem_cons, List.not_mem_nil, or_false] at member
  rcases member with rfl | rfl | rfl | rfl
  · exact external_inScope adminRole_inScope (openNames_inScope (by decide) declared)
  · exact external_inScope adminRole_inScope (openNames_inScope (by decide) declared)
  · exact external_inScope adminRole_inScope (openNames_inScope (by decide) declared)
  · exact external_inScope adminRole_inScope (openNames_inScope (by decide) declared)

theorem disableMinting_inScope : ∀ g ∈ f.disableMinting, ∀ x ∈ g.openNames, f.InScope x := by
  intro g member
  rw [disableMinting, List.mem_ite_nil_right, Bool.and_eq_true, List.mem_singleton] at member
  obtain ⟨⟨mintable, -⟩, rfl⟩ := member
  exact external_inScope adminRole_inScope
    (openNames_inScope (by decide) (List.forall_mem_singleton.mpr (inScope_mintable mintable)))

/-! ## The hook and the query -/

/-- The parameters of the hook. -/
def hookParameters : List Text := ["from", "to", "amount"]

theorem hookBody_inScope : ∀ x ∈ openNames f.hookBody, x ∈ hookParameters ∨ f.InScope x := by
  refine forall_openNames_append (forall_openNames_append ?pause ?tax) ?transfer
  case pause =>
    split
    · rename_i both
      rw [Bool.and_eq_true] at both
      exact openNames_inScope (by decide) fun _ => inScope_pausable both.2
    · exact fun x none => absurd none List.not_mem_nil
  case tax =>
    split
    · rename_i taxed
      exact openNames_inScope (by decide +kernel) fun _ => inScope_taxNames taxed
    · exact fun x none => absurd none List.not_mem_nil
  case transfer =>
    exact @openNames_inScope f _ hookParameters [] (by decide) (List.forall_mem_nil _)

theorem transferHook_inScope : ∀ g ∈ f.transferHook, ∀ x ∈ g.openNames, f.InScope x := by
  intro g member
  rw [transferHook, List.mem_ite_nil_right, List.mem_singleton] at member
  obtain ⟨-, rfl⟩ := member
  refine function_inScope ?_ hookBody_inScope
  intro x member
  cases pausable : f.pausable with
  | false =>
    rw [pausable] at member
    cases member
  | true =>
    rw [pausable] at member
    rcases List.mem_pair.mp member with rfl | rfl
    · exact inScope_erc20 (.head _)
    · exact inScope_pausable pausable (.head _)

theorem supportsInterface_inScope :
    ∀ g ∈ f.supportsInterface, ∀ x ∈ g.openNames, f.InScope x := by
  intro g member
  rw [supportsInterface, List.mem_ite_nil_right, List.mem_singleton] at member
  obtain ⟨roles, rfl⟩ := member
  have inherited : ∀ x ∈ Base.accessControl.provides, f.InScope x :=
    fun _ => inScope_accessControl roles
  refine function_inScope (fun x member => ?_) (openNames_inScope (by decide) inherited)
  cases List.mem_singleton.mp member
  exact inherited _ (.head _)

/-- Every function mentions names in scope. -/
theorem functions_inScope : ∀ g ∈ f.functions, ∀ x ∈ g.openNames, f.InScope x := by
  intro g member
  simp only [functions, List.mem_append, or_assoc] at member
  rcases member with here | here | here | here | here | here
  · exact mint_inScope g here
  · exact pause_inScope g here
  · exact taxAdmin_inScope g here
  · exact disableMinting_inScope g here
  · exact transferHook_inScope g here
  · exact supportsInterface_inScope g here

/-! ## The constructor -/

theorem constructorBases_inScope : ∀ x ∈ namesOfAll f.constructor.bases, f.InScope x := by
  rw [constructor_bases]
  intro x member
  cases ownable : f.isOwnable with
  | false =>
    rw [ownable] at member
    cases List.mem_singleton.mp member
    exact inScope_erc20 (.head _)
  | true =>
    rw [ownable] at member
    have names : x ∈ ["ERC20".toList, "Ownable".toList, "msg.sender".toList] := member
    simp only [List.mem_cons, List.not_mem_nil, or_false] at names
    rcases names with rfl | rfl | rfl
    · exact inScope_erc20 (.head _)
    · exact .inherited (ownable_mem ownable) (.head _)
    · exact .language (.head _)

theorem grant_inScope {role : Text} (roles : f.hasRoles = true) (h : f.InScope role) :
    ∀ x ∈ (grant role).openNames, f.InScope x := by
  intro x member
  have names : x ∈ ["_grantRole".toList, role, "msg.sender".toList] := member
  simp only [List.mem_cons, List.not_mem_nil, or_false] at names
  rcases names with rfl | rfl | rfl
  · exact inScope_accessControl roles (.tail _ (.tail _ (.tail _ (.head _))))
  · exact h
  · exact .language (.head _)

theorem receiver_inScope : ∀ x ∈ f.receiver.names, f.InScope x := by
  intro x member
  unfold receiver at member
  cases given : f.taxReceiver with
  | none =>
    rw [given] at member
    cases List.mem_singleton.mp member
    exact .language (.head _)
  | some account =>
    rw [given] at member
    cases List.mem_singleton.mp member
    exact .language (by decide)

theorem taxSetup_inScope (taxed : f.hasTax = true) :
    ∀ s ∈ f.taxSetup, ∀ x ∈ s.openNames, f.InScope x := by
  have declared : ∀ x ∈ taxNames, f.InScope x := fun _ => inScope_taxNames taxed
  intro s member x mentioned
  simp only [taxSetup, List.mem_cons, List.not_mem_nil, or_false] at member
  rcases member with rfl | rfl | rfl | rfl | rfl | rfl
  · cases List.mem_singleton.mp mentioned
    exact declared _ (by decide)
  · cases List.mem_singleton.mp mentioned
    exact declared _ (by decide)
  · rcases List.mem_cons.mp mentioned with rfl | inValue
    · exact declared _ (by decide)
    · exact receiver_inScope x inValue
  · cases mentioned
  · exact inScope_of_own declared x (by revert x; decide)
  · exact inScope_of_own declared x (by revert x; decide)

theorem setup_inScope : ∀ s ∈ f.setup, ∀ x ∈ s.openNames, f.InScope x := by
  intro s member
  simp only [setup, grants, List.mem_append, List.mem_ite_nil_right, List.mem_singleton] at member
  rcases member with ((⟨roles, (rfl | ⟨mintable, rfl⟩) | ⟨pausable, rfl⟩⟩ | ⟨limited, rfl⟩) |
    ⟨mintable, rfl⟩) | ⟨taxed, inside⟩
  · exact grant_inScope roles (adminRole_inScope roles)
  · exact grant_inScope roles (inScope_minterRole roles mintable)
  · exact grant_inScope roles (inScope_pauserRole roles pausable)
  · intro x mentioned
    rcases List.mem_pair.mp mentioned with rfl | rfl
    · exact inScope_maxSupply limited
    · exact inScope_erc20 (.tail _ (.tail _ (.head _)))
  · intro x mentioned
    rcases List.mem_pair.mp mentioned with rfl | rfl
    · exact inScope_mintable mintable
    · exact .language (.tail _ (.tail _ (.head _)))
  · exact taxSetup_inScope taxed s inside

/-- What a constructor does mentions names in scope, whatever texts are pasted into it. -/
theorem constructorBody_inScope : ∀ s ∈ f.constructor.body, ∀ x ∈ s.openNames, f.InScope x := by
  intro s member
  simp only [constructor] at member
  split at member
  · rcases List.mem_append.mp member with before | last
    · rcases mem_withGap before with inside | rfl
      · exact setup_inScope s inside
      · exact fun x none => absurd none List.not_mem_nil
    · rw [List.mem_singleton.mp last]
      intro x mentioned
      have names : x ∈ ["_mint".toList, "msg.sender".toList, "decimals".toList] := mentioned
      simp only [List.mem_cons, List.not_mem_nil, or_false] at names
      rcases names with rfl | rfl | rfl
      · exact inScope_erc20 (.tail _ (.head _))
      · exact .language (.head _)
      · exact inScope_erc20 (.tail _ (.tail _ (.head _)))
  · exact setup_inScope s member

variable (f) in
/-- Every name that is mentioned in the contract is in scope. -/
theorem contract_inScope : ∀ x ∈ f.contract.openNames, f.InScope x := by
  intro x member
  rcases List.mem_append.mp member with inConstructor | inFunctions
  · rcases List.mem_append.mp inConstructor with inBases | inBody
    · exact constructorBases_inScope x inBases
    · obtain ⟨s, inside, mentioned⟩ := exists_of_mem_openNames inBody
      exact constructorBody_inScope s inside x mentioned
  · obtain ⟨g, inside, mentioned⟩ := List.mem_flatMap.mp inFunctions
    exact functions_inScope g inside x mentioned

end Features

end Token

end TokenForge
