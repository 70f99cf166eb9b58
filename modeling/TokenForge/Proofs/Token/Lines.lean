import TokenForge.Proofs.Import.Pasted
import TokenForge.Proofs.Token.Layout

/-!
# The lines of a token contract

The lines of the contract of a token are harmless: what the library writes has its
semicolons at the ends of lines only, and of the texts that it pastes in all but the name
and the symbol are quiet (`Tame.contract_harmless`).
-/

namespace TokenForge

namespace Token

open Solidity
open Import (AtEdge Quiet quiet_append Sealed sealed_of_quiet sealed_of_mem Harmless
  harmless_of_quiet harmless_statement isPlain harmless_of_isPlain forall_harmless_of_isPlain)

/-- The texts of some features that are pasted, the name and the symbol apart, are quiet, and
those two have no line feeds. -/
structure Features.Tame (f : Features) : Prop where
  name : '\n' ∉ f.name
  symbol : '\n' ∉ f.symbol
  contractName : Quiet f.contractName
  initialSupply : Quiet f.initialSupply
  shownSupply : Quiet f.shownSupply
  maxSupply : Quiet f.maxSupply
  buyTax : Quiet f.buyTax
  sellTax : Quiet f.sellTax
  taxReceiver : ∀ account ∈ f.taxReceiver, Quiet account
  accessLabel : Quiet f.accessLabel

theorem indents_harmless (pasted : List Text) : Indents (Harmless pasted) where
  empty := harmless_of_isPlain rfl
  indent h := { toSealed := h.toSealed.append_left (by decide), plain := h.plain }

/-! ## Quiet parts -/

theorem quiet_commaList {texts : List Text} (h : ∀ t ∈ texts, Quiet t) :
    Quiet (commaList texts) := by
  intro c member
  rcases mem_intercalate member with between | ⟨t, inside, here⟩
  · exact (by decide : Quiet ", ".toList) c between
  · exact h t inside c here

theorem mem_printArguments {arguments : List Expr} {t : Text} (h : t ∈ printArguments arguments) :
    ∃ e ∈ arguments, e.print = t := by
  induction arguments with
  | nil => cases h
  | cons e arguments ih =>
    rw [printArguments, List.mem_cons] at h
    rcases h with rfl | later
    · exact ⟨e, .head _, rfl⟩
    · obtain ⟨other, member, same⟩ := ih later
      exact ⟨other, .tail _ member, same⟩

theorem print_call (function : Text) (arguments : List Expr) :
    (Expr.call function arguments).print =
      function ++ "(" ++ commaList (printArguments arguments) ++ ")" := by
  rw [Expr.print]

theorem quiet_call {function : Text} {arguments : List Expr} (quiet : Quiet function)
    (h : ∀ e ∈ arguments, Quiet e.print) : Quiet (Expr.call function arguments).print := by
  have printed : ∀ t ∈ printArguments arguments, Quiet t := by
    intro t member
    obtain ⟨e, inside, rfl⟩ := mem_printArguments member
    exact h e inside
  rw [print_call]
  exact quiet_append (quiet_append (quiet_append quiet (by decide)) (quiet_commaList printed))
    (by decide)

theorem quiet_scaled {amount : Text} (h : Quiet amount) : Quiet (Features.scaled amount).print :=
  quiet_append (quiet_append (quiet_append (quiet_append h (by decide)) (by decide)) (by decide))
    (by decide)

theorem Base.quiet_name (b : Base) : Quiet b.name := by
  cases b <;> decide

namespace Features

variable {pasted : List Text}

theorem harmless_closing : Harmless pasted closing := harmless_of_isPlain (by decide)

/-! ## Functions, state and events -/

theorem isPlain_ownLines : ownLines.all isPlain = true := by decide +kernel

theorem functions_harmless (f : Features) :
    ∀ g ∈ f.functions, ∀ line ∈ g.print, Harmless pasted line :=
  fun g member line here =>
    harmless_of_isPlain (f.forall_functions isPlain_ownLines g member line here)

theorem state_harmless (f : Features) : ∀ d ∈ f.state, Harmless pasted d.print :=
  fun d member => harmless_of_isPlain (f.forall_state isPlain_ownLines d member)

theorem events_harmless (f : Features) : ∀ e ∈ f.events, Harmless pasted e.print :=
  fun e member => harmless_of_isPlain (f.forall_events isPlain_ownLines e member)

/-! ## The constructor -/

/-- An assignment of quiet expressions. -/
theorem assign_harmless {target value : Expr} (targetQuiet : Quiet target.print)
    (valueQuiet : Quiet value.print)
    (plain : Import.opens (target.print ++ " = " ++ value.print ++ ";") = false) :
    ∀ line ∈ (Stmt.assign target value).print, Harmless pasted line := by
  intro line member
  rw [Stmt.print, List.mem_singleton] at member
  rw [member]
  exact harmless_statement (quiet_append (quiet_append targetQuiet (by decide)) valueQuiet) plain

/-- A call of quiet expressions. -/
theorem run_harmless {call : Expr} (quiet : Quiet call.print)
    (plain : Import.opens (call.print ++ ";") = false) :
    ∀ line ∈ (Stmt.run call).print, Harmless pasted line := by
  intro line member
  rw [Stmt.print, List.mem_singleton] at member
  rw [member]
  exact harmless_statement quiet plain

variable {f : Features}

theorem Tame.quiet_receiver (tame : f.Tame) : Quiet f.receiver.print := by
  unfold receiver
  cases given : f.taxReceiver with
  | none =>
    show Quiet sender.print
    decide
  | some account =>
    exact quiet_call (by decide) (List.forall_mem_singleton.mpr (tame.taxReceiver account given))

theorem Tame.body_harmless (tame : f.Tame) :
    ∀ s ∈ f.constructor.body, ∀ line ∈ s.print, Harmless pasted line := by
  refine f.forall_constructorBody isPlain_ownLines (fun _ => harmless_of_isPlain) ?_
  intro s member
  simp only [pastedSetup, List.mem_cons, List.not_mem_nil, or_false] at member
  rcases member with rfl | rfl | rfl | rfl | rfl
  · exact assign_harmless (by decide) (quiet_scaled tame.maxSupply) rfl
  · exact assign_harmless (by decide) tame.buyTax rfl
  · exact assign_harmless (by decide) tame.sellTax rfl
  · exact assign_harmless (by decide) tame.quiet_receiver rfl
  · refine run_harmless (quiet_call (by decide) ?_) rfl
    exact List.forall_mem_cons.mpr
      ⟨by decide, List.forall_mem_singleton.mpr (quiet_scaled tame.initialSupply)⟩

theorem Tame.constructorOpening_harmless (tame : f.Tame) :
    Harmless [f.name, f.symbol] f.constructorOpening := by
  have last : Quiet f.constructorEnd ∧ AtEdge f.constructorEnd := by
    unfold constructorEnd
    split <;> exact ⟨by decide, by simp [AtEdge]⟩
  have second : Sealed [f.name, f.symbol] (f.symbol ++ f.constructorEnd) :=
    (sealed_of_quiet last.1).paste (by simp) tame.symbol last.2
  have behind : Sealed [f.name, f.symbol] ("\", \"" ++ (f.symbol ++ f.constructorEnd)) :=
    second.append_left (by decide)
  have first : Sealed [f.name, f.symbol] (f.name ++ ("\", \"" ++ (f.symbol ++ f.constructorEnd))) :=
    behind.paste (by simp) tame.name (by simp [AtEdge])
  exact { toSealed := first.append_left (by decide), plain := rfl }

theorem Tame.constructor_harmless (tame : f.Tame) :
    ∀ line ∈ f.constructor.print, Harmless [f.name, f.symbol] line := by
  rw [f.constructor_print]
  refine List.forall_mem_cons.mpr ⟨tame.constructorOpening_harmless, ?_⟩
  refine List.forall_mem_append.mpr ⟨?_, List.forall_mem_singleton.mpr harmless_closing⟩
  exact (indents_harmless _).forall_mem_indent (forall_mem_printBody tame.body_harmless)

/-! ## The whole contract -/

/-- A quiet text and a pasted one. -/
theorem pasted_harmless {s p : Text} (member : p ∈ pasted) (single : '\n' ∉ p) (quiet : Quiet s)
    (plain : Import.opens (s ++ p) = false) : Harmless pasted (s ++ p) :=
  { toSealed := (sealed_of_mem member single).append_left quiet, plain }

theorem quiet_yesNo (flag : Bool) : Quiet (yesNo flag) := by
  cases flag <;> decide

theorem Tame.documentation_harmless (tame : f.Tame) :
    ∀ line ∈ f.documentation, Harmless [f.name, f.symbol] line := by
  intro line member
  have limit : Quiet (if f.hasMaxSupply then f.maxSupply else String.toList "Unlimited") := by
    split
    · exact tame.maxSupply
    · decide
  unfold documentation at member
  simp only [List.mem_cons, List.not_mem_nil, or_false] at member
  rcases member with rfl | rfl | rfl | rfl | rfl | rfl | rfl | rfl | rfl | rfl | rfl | rfl | rfl
  · exact harmless_of_isPlain rfl
  · exact pasted_harmless (by simp) tame.name (by decide) rfl
  · exact harmless_of_isPlain rfl
  · exact pasted_harmless (by simp) tame.symbol (by decide) rfl
  · exact harmless_of_quiet (quiet_append (by decide) tame.shownSupply) rfl
  · exact harmless_of_quiet (quiet_append (by decide) limit) rfl
  · exact harmless_of_quiet (quiet_append (by decide) (quiet_yesNo _)) rfl
  · exact harmless_of_quiet (quiet_append (by decide) (quiet_yesNo _)) rfl
  · exact harmless_of_quiet (quiet_append (by decide) (quiet_yesNo _)) rfl
  · exact harmless_of_quiet (quiet_append (quiet_append (by decide) tame.buyTax) (by decide)) rfl
  · exact harmless_of_quiet (quiet_append (quiet_append (by decide) tame.sellTax) (by decide)) rfl
  · exact harmless_of_quiet (quiet_append (by decide) tame.accessLabel) rfl
  · exact harmless_of_isPlain rfl

theorem Tame.opening_harmless (tame : f.Tame) : Harmless pasted f.contract.opening := by
  have bases : Quiet (commaList f.contract.bases) := quiet_commaList fun t member => by
    obtain ⟨b, _, rfl⟩ := List.mem_map.mp member
    exact b.quiet_name
  have quiet : Quiet f.contract.opening :=
    quiet_append (quiet_append (quiet_append (quiet_append (by decide) tame.contractName)
      (by decide)) bases) (by decide)
  exact harmless_of_quiet quiet rfl

/-- The lines of a contract with tame features are harmless. -/
theorem Tame.contract_harmless (tame : f.Tame) :
    ∀ line ∈ f.contract.lines, Harmless [f.name, f.symbol] line := by
  intro line member
  simp only [Contract.lines, List.mem_append, List.mem_cons, List.not_mem_nil, or_false] at member
  rcases member with described | rfl | inside | rfl
  · exact tame.documentation_harmless line described
  · exact tame.opening_harmless
  · exact @Indents.forall_mem_bodyLines _ (indents_harmless _) f.contract f.state_harmless
      f.events_harmless tame.constructor_harmless f.functions_harmless line inside
  · exact harmless_closing

end Features

end Token

end TokenForge
