import TokenForge.Solidity.Syntax

/-!
# Names and their scope

The names that a part of a contract mentions and does not bind itself.  A local variable is bound
from its declaration to the end of the block, a parameter in the whole function.  Texts of a
configuration are left aside, whatever names they hold, and so are the words for types.

Of parts of a body one after the other each name that is left open is left open by one of them
(`mem_openNames_append`).
-/

namespace TokenForge

namespace Solidity

/-! ## Expressions -/

mutual

/-- The names in an expression: variables, mappings and what is called. -/
def Expr.names : Expr → List Text
  | .name name => [name]
  | .number _ | .string _ | .quoted _ | .pasted _ => []
  | .entry mapping key => mapping :: key.names
  | .call function arguments => function :: namesOfAll arguments
  | .binary _ left right => left.names ++ right.names
  | .group e => e.names

/-- The names in some expressions. -/
def namesOfAll : List Expr → List Text
  | [] => []
  | e :: es => e.names ++ namesOfAll es

end

/-! ## Statements -/

/-- The variable that a statement declares. -/
def Stmt.local? : Stmt → Option Text
  | .declare _ name _ => some name
  | _ => none

mutual

/-- The names that a statement mentions and that are not local to a block of it. -/
def Stmt.openNames : Stmt → List Text
  | .gap | .leave => []
  | .run call => call.names
  | .declare _ _ value => value.names
  | .assign target value => target.names ++ value.names
  | .decrease target value => target.names ++ value.names
  | .emit event arguments => event :: namesOfAll arguments
  | .result value => value.names
  | .branch conditions body otherwise =>
    namesOfAll conditions ++ openNames body ++ openNames otherwise

/-- The names that a block mentions, but for a local variable after its declaration. -/
def openNames : List Stmt → List Text
  | [] => []
  | s :: ss => s.openNames ++ (openNames ss).filter (s.local? != some ·)

end

theorem mem_openNames_append {a b : List Stmt} {x : Text} (h : x ∈ openNames (a ++ b)) :
    x ∈ openNames a ∨ x ∈ openNames b := by
  induction a with
  | nil => exact .inr h
  | cons s a ih =>
    rw [List.cons_append, openNames, List.mem_append, List.mem_filter] at h
    rw [openNames, List.mem_append, List.mem_filter]
    rcases h with here | ⟨later, unbound⟩
    · exact .inl (.inl here)
    · rcases ih later with here | there
      · exact .inl (.inr ⟨here, unbound⟩)
      · exact .inr there

/-- What a block mentions is mentioned in one of its statements. -/
theorem exists_of_mem_openNames {body : List Stmt} {x : Text} (h : x ∈ openNames body) :
    ∃ s ∈ body, x ∈ s.openNames := by
  induction body with
  | nil => cases h
  | cons s body ih =>
    rw [openNames, List.mem_append, List.mem_filter] at h
    rcases h with here | ⟨later, -⟩
    · exact ⟨s, .head _, here⟩
    · obtain ⟨t, member, there⟩ := ih later
      exact ⟨t, .tail _ member, there⟩

theorem forall_openNames_append {a b : List Stmt} {p : Text → Prop} (ha : ∀ x ∈ openNames a, p x)
    (hb : ∀ x ∈ openNames b, p x) : ∀ x ∈ openNames (a ++ b), p x := by
  intro x member
  rcases mem_openNames_append member with here | there
  · exact ha x here
  · exact hb x there

/-! ## Members -/

/-- The name that a declaration declares. -/
def Declaration.name? : Declaration → Option Text
  | .gap => none
  | .variable _ name | .mapping _ _ name | .role name => some name

/-- The names in a qualifier. -/
def Qualifier.names : Qualifier → List Text
  | .word _ | .returns _ => []
  | .onlyOwner => ["onlyOwner"]
  | .onlyRole role => ["onlyRole", role]
  | .overriding bases => bases

/-- The names that a function mentions and that are no parameters. -/
def Function.openNames (f : Function) : List Text :=
  f.qualifiers.flatMap Qualifier.names ++
    (Solidity.openNames f.body).filter (· ∉ f.parameters.map Parameter.name)

/-- The names that a constructor mentions. -/
def Constructor.openNames (c : Constructor) : List Text :=
  namesOfAll c.bases ++ Solidity.openNames c.body

/-- The names that the members of a contract mention. -/
def Contract.openNames (c : Contract) : List Text :=
  c.constructor.openNames ++ c.functions.flatMap Function.openNames

/-- The names of the state and the events that a contract declares. -/
def Contract.declared (c : Contract) : List Text :=
  c.state.filterMap Declaration.name? ++ c.events.map Event.name

end Solidity

end TokenForge
