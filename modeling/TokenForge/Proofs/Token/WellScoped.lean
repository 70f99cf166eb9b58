import TokenForge.Proofs.Token.Scope

/-!
# The well-scoped contract

A generated contract declares every name once, mentions only names that are there, and imports each
of its bases once (`generate_wellScoped`).  The functions have different names
(`functionNames_sublist`), and those that are called from outside are guarded as the access model
wants it (`functions_guarded`): by the owner, or by a role of the function.  Without an access model
only the function to mint is called from outside, and everybody may mint.
-/

namespace TokenForge

namespace Token

open Solidity

namespace Features

variable {f : Features}

/-! ## Names of functions -/

/-- The names of all functions but the query of the interfaces, in their order. -/
def tokenNames : List Text := [
  "mint", "pause", "unpause", "setTaxPercent", "setTaxReceiver", "setDexPair",
  "setExcludedFromTax", "disableMinting", "_update"]

/-- The name of the query of the interfaces. -/
def queryName : Text := "supportsInterface"

variable (f) in
theorem tokenNames_sublist : ((f.mint ++ f.pause ++ f.taxAdmin ++ f.disableMinting ++
    f.transferHook).map Function.name).Sublist tokenNames := by
  simp only [List.map_append]
  have mint : (f.mint.map Function.name).Sublist ["mint".toList] := (ite_sublist _ _).map _
  have pause : (f.pause.map Function.name).Sublist ["pause".toList, "unpause".toList] :=
    (ite_sublist _ _).map _
  have taxAdmin : (f.taxAdmin.map Function.name).Sublist ["setTaxPercent".toList,
      "setTaxReceiver".toList, "setDexPair".toList, "setExcludedFromTax".toList] :=
    (ite_sublist _ _).map _
  have disable : (f.disableMinting.map Function.name).Sublist ["disableMinting".toList] :=
    (ite_sublist _ _).map _
  have hook : (f.transferHook.map Function.name).Sublist ["_update".toList] :=
    (ite_sublist _ _).map _
  exact (((mint.append pause).append taxAdmin).append disable).append hook

variable (f) in
theorem functionNames_sublist :
    (f.functions.map Function.name).Sublist (tokenNames ++ [queryName]) := by
  have query : (f.supportsInterface.map Function.name).Sublist [queryName] :=
    (ite_sublist _ _).map _
  rw [functions, List.map_append]
  exact f.tokenNames_sublist.append query

variable (f) in
/-- No two functions have the same name. -/
theorem nodup_functionNames : (f.functions.map Function.name).Nodup := by
  have all : (tokenNames ++ [queryName]).Nodup := by decide +kernel
  exact all.sublist f.functionNames_sublist

/-- The query of the interfaces is there only with the base that it overrides. -/
theorem accessControl_of_query {g : Function} (member : g ∈ f.functions)
    (named : g.name = queryName) : .accessControl ∈ f.bases := by
  rcases List.mem_append.mp member with other | query
  · have inside : queryName ∈ tokenNames :=
      f.tokenNames_sublist.subset (List.mem_map.mpr ⟨g, other, named⟩)
    exact absurd inside (by decide +kernel)
  · rw [supportsInterface, List.mem_ite_nil_right] at query
    exact accessControl_mem query.1

/-! ## Guards -/

/-- The role that a function is for. -/
def roleOf (name : Text) : Text :=
  if name = "mint".toList then minterRole
  else if name = "pause".toList ∨ name = "unpause".toList then pauserRole
  else adminRole

/-- A function is guarded as an access model wants it: its guard lets in the owner, or the holders
of the role of the function.  Without an access model it is the function to mint. -/
def Guarded (access : Access) (g : Function) : Prop :=
  match access with
  | .ownable => .onlyOwner ∈ g.qualifiers
  | .roles => .onlyRole (roleOf g.name) ∈ g.qualifiers
  | .unrestricted => g.name = "mint".toList

variable {access : Access}

theorem guarded_external (known : f.access = .known access) {name role : Text}
    {parameters : List Parameter} {body : List Stmt} (same : roleOf name = role)
    (restricted : f.isUnrestricted = true → name = "mint".toList) :
    Guarded access (external name parameters (f.guard role) body) := by
  subst same
  cases access with
  | ownable =>
    have ownable : f.isOwnable = true := by rw [isOwnable, known]; rfl
    show .onlyOwner ∈ _ :: f.guard (roleOf name)
    rw [guard, if_pos ownable]
    exact .tail _ (.head _)
  | roles =>
    have ownable : f.isOwnable = false := by rw [isOwnable, known]; rfl
    have roles : f.hasRoles = true := by rw [hasRoles, known]; rfl
    show .onlyRole (roleOf name) ∈ _ :: f.guard (roleOf name)
    rw [guard, if_neg (Bool.eq_false_iff.mp ownable), if_pos roles]
    exact .tail _ (.head _)
  | unrestricted =>
    exact restricted (by rw [isUnrestricted, known]; rfl)

/-- A function that is there only with an access model is guarded. -/
theorem guarded_restricted (known : f.access = .known access)
    (restricted : f.isUnrestricted = false) {name role : Text} {parameters : List Parameter}
    {body : List Stmt} (same : roleOf name = role) :
    Guarded access (external name parameters (f.guard role) body) :=
  guarded_external known same fun free => absurd (restricted.symm.trans free) Bool.false_ne_true

/-- The functions that are called from outside are guarded. -/
theorem functions_guarded (known : f.access = .known access) :
    ∀ g ∈ f.functions, .word "external" ∈ g.qualifiers → Guarded access g := by
  intro g member outside
  simp only [functions, List.mem_append, or_assoc] at member
  rcases member with here | here | here | here | here | here
  · rw [mint, List.mem_ite_nil_right, List.mem_singleton] at here
    obtain ⟨-, rfl⟩ := here
    exact guarded_external known (by decide) fun _ => rfl
  · rw [pause, List.mem_ite_nil_right, Bool.and_eq_true, Bool.not_eq_true'] at here
    obtain ⟨⟨-, restricted⟩, inside⟩ := here
    rcases List.mem_pair.mp inside with rfl | rfl
    · exact guarded_restricted known restricted (by decide)
    · exact guarded_restricted known restricted (by decide)
  · rw [taxAdmin, List.mem_ite_nil_right, Bool.and_eq_true, Bool.not_eq_true'] at here
    obtain ⟨⟨-, restricted⟩, inside⟩ := here
    simp only [List.mem_cons, List.not_mem_nil, or_false] at inside
    rcases inside with rfl | rfl | rfl | rfl
    · exact guarded_restricted known restricted (by decide)
    · exact guarded_restricted known restricted (by decide)
    · exact guarded_restricted known restricted (by decide)
    · exact guarded_restricted known restricted (by decide)
  · rw [disableMinting, List.mem_ite_nil_right, Bool.and_eq_true, Bool.not_eq_true',
      List.mem_singleton] at here
    obtain ⟨⟨-, restricted⟩, rfl⟩ := here
    exact guarded_restricted known restricted (by decide)
  · rw [transferHook, List.mem_ite_nil_right, List.mem_singleton] at here
    obtain ⟨-, rfl⟩ := here
    simp only [List.mem_cons, List.not_mem_nil, or_false, reduceCtorEq] at outside
    rcases outside with same | same
    · exact absurd same (by decide)
    · exact absurd same (by decide)
  · rw [supportsInterface, List.mem_ite_nil_right, List.mem_singleton] at here
    obtain ⟨-, rfl⟩ := here
    exact absurd outside (by decide)

/-! ## Bases and imports -/

variable (f) in
/-- The bases are the token and then extensions, each at most once. -/
theorem exists_bases : ∃ extensions, f.bases = .erc20 :: extensions ∧
    extensions.Sublist [.burnable, .pausable, .ownable, .accessControl] := by
  have access : (if f.isOwnable then [.ownable] else if f.hasRoles then [.accessControl]
      else []).Sublist [Base.ownable, .accessControl] := by
    split
    · exact List.sublist_append_left [_] _
    · exact (ite_sublist _ _).trans (List.sublist_append_right [_] _)
  exact ⟨_, rfl, ((ite_sublist _ _).append (ite_sublist _ _)).append access⟩

variable (f) in
/-- No two bases have the same file. -/
theorem nodup_paths : (f.bases.map Base.path).Nodup := by
  have all : (Base.all.map Base.path).Nodup := by decide +kernel
  obtain ⟨extensions, same, among⟩ := f.exists_bases
  rw [same]
  exact all.sublist ((among.cons_cons _).map _)

end Features

/-! ## The contract -/

/-- The contract of some features is well-scoped, the texts of a configuration left aside. -/
structure Features.WellScoped (f : Features) (access : Access) : Prop where
  /-- Every name of the state and the events is declared once. -/
  declaredOnce : f.unit.contract.declared.Nodup
  /-- A name that is mentioned is a word of the language, or declared, or inherited. -/
  inScope : ∀ x ∈ f.unit.contract.openNames,
    x ∈ languageWords ∨ x ∈ f.unit.contract.declared ∨ ∃ b ∈ f.bases, x ∈ b.provides
  /-- A name that the contract may declare is declared if it is mentioned. -/
  declared : ∀ x ∈ ownNames, x ∈ f.unit.contract.openNames → x ∈ f.unit.contract.declared
  /-- A name of a base is mentioned only with this base. -/
  inherited : ∀ b : Base, ∀ x ∈ b.provides, x ∈ f.unit.contract.openNames → b ∈ f.bases
  /-- The query of the interfaces is replaced only with the base that has it. -/
  query : ∀ g ∈ f.unit.contract.functions, g.name = Features.queryName →
    .accessControl ∈ f.bases
  /-- The bases are the token and then extensions, each once. -/
  bases : f.unit.contract.bases = f.bases.map Base.name ∧ ∃ extensions,
    f.bases = .erc20 :: extensions ∧
      extensions.Sublist [.burnable, .pausable, .ownable, .accessControl]
  /-- There is one import for each base, in the order of the bases. -/
  imports : f.unit.imports = f.bases.map Base.path ∧ f.unit.imports.Nodup
  /-- No two functions have the same name. -/
  functions : (f.unit.contract.functions.map Function.name).Nodup
  /-- Every function that is called from outside is guarded. -/
  guarded : ∀ g ∈ f.unit.contract.functions, .word "external" ∈ g.qualifiers →
    Features.Guarded access g

/-- The access model of a source is the one that is asked for. -/
theorem access_of_generate {r : Request} {s : Source} {access : Access}
    (generated : generate r = .ok s) (asked : r.value .accessControl = .text access.name) :
    s.features.access = .known access := by
  obtain ⟨f, features, rfl⟩ := map_eq_ok.mp generated
  simp only [Request.features, bind_eq_ok] at features
  obtain ⟨_, _, choice, chosen, _, _, _, _, _, _, same⟩ := features
  rw [asked, accessOf_name] at chosen
  cases chosen
  cases same
  rfl

/-- A source that is generated with an access model is the print of a well-scoped contract,
whatever else is asked for. -/
theorem generate_wellScoped {r : Request} {s : Source} {access : Access}
    (generated : generate r = .ok s) (asked : r.value .accessControl = .text access.name) :
    s.text = s.features.unit.print ∧ s.features.WellScoped access := by
  have known := access_of_generate generated asked
  have text : s.text = s.features.unit.print := by
    rw [← source_features_of_generate generated]
    rfl
  have mentioned := s.features.contract_inScope
  have declared := s.features.declared_sublist
  refine ⟨text, {
    declaredOnce := nodup_ownNames.sublist declared
    inScope := fun x member => ?inScope
    declared := fun x own member => ?declared
    inherited := fun b x provided member => ?inherited
    query := fun g member => Features.accessControl_of_query member
    bases := ⟨rfl, s.features.exists_bases⟩
    imports := ⟨rfl, s.features.nodup_paths⟩
    functions := s.features.nodup_functionNames
    guarded := Features.functions_guarded known }⟩
  case inScope =>
    cases mentioned x member with
    | language word => exact .inl word
    | declared here => exact .inr (.inl here)
    | inherited base there => exact .inr (.inr ⟨_, base, there⟩)
  case declared =>
    cases mentioned x member with
    | language word => exact absurd word (not_mem_ownNames own)
    | declared here => exact here
    | inherited _ there => exact absurd own (eq_of_provides there).2.1
  case inherited =>
    obtain ⟨noWord, notOwn, other⟩ := eq_of_provides provided
    cases mentioned x member with
    | language word => exact absurd word noWord
    | declared here => exact absurd (declared.subset here) notOwn
    | inherited base there =>
      rw [← other _ there]
      exact base

/-- A configuration with roles, a limited supply, taxes and everything else. -/
def fullConfig : Config :=
  { plainConfig "Full" "FULL" with
    maxSupply := 1000
    mintable := true
    pausable := true
    buyTax := 5
    access := .roles }

/-- All names are declared, and all functions that are called from outside are for roles. -/
theorem generate_wellScoped_fullConfig : ∃ s, generate fullConfig.request = .ok s ∧
    fullConfig.request.value .accessControl = .text Access.roles.name ∧
    s.features.WellScoped .roles ∧ s.features.unit.contract.declared = ownNames ∧
    s.features.unit.contract.functions.length = 10 := by
  have generated := fullConfig.generate_request
  have asked : fullConfig.request.value .accessControl = .text Access.roles.name := rfl
  exact ⟨_, generated, asked, (generate_wellScoped generated asked).2, by decide +kernel, rfl⟩

end Token

end TokenForge
