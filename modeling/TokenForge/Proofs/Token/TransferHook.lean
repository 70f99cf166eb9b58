import TokenForge.Proofs.Solidity.Execution
import TokenForge.Proofs.Token.Features
import TokenForge.Proofs.Token.Layout

/-!
# The transfer hook of a taxed token

The function that every transfer of a taxed token goes through is read from the text of the
source and run, for all states of the contract, all parties and all amounts.

What it does is said by `TaxState`: `TaxState.tax` is the tax on a transfer and
`TaxState.transfers` are the transfers that are made for it.  The function is one of two, with
the check that the contract is not paused or without it (`transferRoutine`); nothing else in a
configuration changes it.
-/

namespace TokenForge

namespace Token

open Solidity
open Text (unlines unlines_append)

/-! ## What a transfer should do -/

/-- What the transfer hook looks up. -/
structure TaxState (A : Type) where
  paused : Bool
  isDexPair : A → Bool
  isExcludedFromTax : A → Bool
  /-- The tax on purchases, in percent. -/
  buyTaxPercent : Nat
  /-- The tax on sales, in percent. -/
  sellTaxPercent : Nat
  taxReceiver : A

namespace TaxState

variable {A : Type} (state : TaxState A) (source target : A) (amount : Nat)

/-- Whether a transfer is not taxed because of its parties. -/
def isExempt [DecidableEq A] [Zero A] : Bool :=
  source = 0 || target = 0 || state.isExcludedFromTax source || state.isExcludedFromTax target

/-- The tax on a transfer between parties that are not exempt: a purchase, if the source is a
pair, or else a sale, if the target is one. -/
def tax : Nat :=
  if state.isDexPair source ∧ 0 < state.buyTaxPercent then amount * state.buyTaxPercent / 100
  else if state.isDexPair target ∧ 0 < state.sellTaxPercent then
    amount * state.sellTaxPercent / 100
  else 0

/-- The transfers that are made for one: the tax, if there is any, and the rest. -/
def transfers [DecidableEq A] [Zero A] : List (Transfer A) :=
  if state.isExempt source target then [⟨source, target, amount⟩]
  else
    let tax := state.tax source target amount
    (if 0 < tax then [⟨source, state.taxReceiver, tax⟩] else []) ++ [⟨source, target, amount - tax⟩]

/-- Percentages of at most a hundred. -/
structure Bounded : Prop where
  buyTaxPercent : state.buyTaxPercent ≤ 100
  sellTaxPercent : state.sellTaxPercent ≤ 100

variable {state}

theorem Bounded.tax_le (bounded : state.Bounded) : state.tax source target amount ≤ amount := by
  have share : ∀ {percent}, percent ≤ 100 → amount * percent / 100 ≤ amount := by
    intro percent h
    have scaled : amount * percent ≤ amount * 100 := Nat.mul_le_mul_left amount h
    omega
  unfold tax
  split
  · exact share bounded.buyTaxPercent
  split
  · exact share bounded.sellTaxPercent
  · exact Nat.zero_le amount

/-- Nothing is lost in a transfer. -/
theorem Bounded.sum_transfers [DecidableEq A] [Zero A] (bounded : state.Bounded) :
    ((state.transfers source target amount).map Transfer.amount).sum = amount := by
  have le := bounded.tax_le source target amount
  unfold transfers
  split
  · simp
  · dsimp only
    split
    · simp
      omega
    · simp
      omega

end TaxState

/-! ## The function -/

/-- The contract as the hook sees it. -/
def TaxState.storage {A : Type} (state : TaxState A) : Storage A where
  stored? := Assoc.get? [
    ("buyTaxPercent", .amount state.buyTaxPercent),
    ("sellTaxPercent", .amount state.sellTaxPercent),
    ("taxReceiver", .account state.taxReceiver)]
  entry? mapping a := (Assoc.get? [
    ("isDexPair", state.isDexPair),
    ("isExcludedFromTax", state.isExcludedFromTax)] mapping).map fun entries => .truth (entries a)
  paused := state.paused

/-- A transfer by the base. -/
def baseTransfer (source target amount : Text) : Command :=
  .call "super._update" (.cons (.name source) (.cons (.name target) (.cons (.name amount) .nil)))

/-- Whether an account is the zero address. -/
def zeroTest (account : Text) : Term :=
  .binary .equal (.name account) (.call "address" (.cons (.number 0) .nil))

/-- Whether a transfer is exempt. -/
def exemptTest : Term :=
  .binary .either
    (.binary .either (.binary .either (zeroTest "from") (zeroTest "to"))
      (.entry "isExcludedFromTax" (.name "from")))
    (.entry "isExcludedFromTax" (.name "to"))

/-- Whether a party is a pair and its tax is positive. -/
def pairTest (party rate : Text) : Term :=
  .binary .both (.entry "isDexPair" (.name party)) (.binary .greater (.name rate) (.number 0))

/-- The assignment of the tax at a rate. -/
def setTax (rate : Text) : Command :=
  .block [.assign "taxAmount"
    (.binary .divided (.binary .times (.name "amount") (.name rate)) (.number 100))]

/-- The end of an exempt transfer. -/
def passExempt : Command :=
  .branch exemptTest (.block [baseTransfer "from" "to" "amount", .leave]) .skip

/-- The choice between the taxes. -/
def chooseTax : Command :=
  .branch (pairTest "from" "buyTaxPercent") (setTax "buyTaxPercent")
    (.branch (pairTest "to" "sellTaxPercent") (setTax "sellTaxPercent") .skip)

/-- The transfer of the tax. -/
def payTax : Command :=
  .branch (.binary .greater (.name "taxAmount") (.number 0))
    (.block [baseTransfer "from" "taxReceiver" "taxAmount",
      .decrease "amount" (.name "taxAmount")])
    .skip

/-- The commands of the hook behind the check that the contract is not paused. -/
def taxedTransfer : Command :=
  .block [passExempt, .declare "uint256" "taxAmount" (.number 0), chooseTax, payTax,
    baseTransfer "from" "to" "amount"]

/-- The hook of a taxed token, with or without the check that the contract is not paused. -/
def transferRoutine (pausable : Bool) : Routine where
  name := "_update"
  parameters := [⟨"address", "from"⟩, ⟨"address", "to"⟩, ⟨"uint256", "amount"⟩]
  body := if pausable then .seq (.call "_requireNotPaused" .nil) taxedTransfer else taxedTransfer

/-! ## Running it -/

section Running

variable {A : Type} [DecidableEq A] [Zero A]

/-- The parameters of the hook. -/
def hookLocals (source target : A) (amount : Nat) : Assoc (Value A) :=
  [("from", .account source), ("to", .account target), ("amount", .amount amount)]

/-- The local variables of the hook with a tax. -/
def taxLocals (source target : A) (amount tax : Nat) : Assoc (Value A) :=
  [("from", .account source), ("to", .account target), ("amount", .amount amount),
    ("taxAmount", .amount tax)]

variable (state : TaxState A) (source target : A) (amount tax : Nat) (made : List (Transfer A))

theorem value_exemptTest : exemptTest.value state.storage (hookLocals source target amount) =
    .ok (.truth (state.isExempt source target)) :=
  Term.value_either (Term.value_either (Term.value_either rfl rfl) rfl) rfl

theorem run_passExempt : passExempt.run state.storage ⟨hookLocals source target amount, made⟩ =
    if state.isExempt source target then .returned (made ++ [⟨source, target, amount⟩])
    else .goesOn ⟨hookLocals source target amount, made⟩ := by
  unfold passExempt
  rw [Command.run_branch (value_exemptTest state source target amount)]
  cases state.isExempt source target <;> rfl

theorem value_buyTest :
    (pairTest "from" "buyTaxPercent").value state.storage (taxLocals source target amount tax) =
      .ok (.truth (state.isDexPair source && decide (0 < state.buyTaxPercent))) :=
  Term.value_both rfl rfl

theorem value_sellTest :
    (pairTest "to" "sellTaxPercent").value state.storage (taxLocals source target amount tax) =
      .ok (.truth (state.isDexPair target && decide (0 < state.sellTaxPercent))) :=
  Term.value_both rfl rfl

theorem run_chooseTax :
    chooseTax.run state.storage ⟨taxLocals source target amount 0, made⟩ =
      .goesOn ⟨taxLocals source target amount (state.tax source target amount), made⟩ := by
  unfold chooseTax TaxState.tax
  rw [Command.run_branch (value_buyTest state source target amount 0)]
  simp only [Bool.and_eq_true, decide_eq_true_eq]
  split
  · rfl
  · rw [Command.run_branch (value_sellTest state source target amount 0)]
    simp only [Bool.and_eq_true, decide_eq_true_eq]
    split <;> rfl

theorem run_decrease (le : tax ≤ amount) :
    (Command.decrease "amount" (.name "taxAmount")).run state.storage
      ⟨taxLocals source target amount tax, made⟩ =
        .goesOn ⟨taxLocals source target (amount - tax) tax, made⟩ := by
  show (if tax ≤ amount then _ else _) = _
  rw [if_pos le]
  rfl

/-- The tax is paid if it is positive, and taken off the amount. -/
theorem run_payTax (le : tax ≤ amount) :
    payTax.run state.storage ⟨taxLocals source target amount tax, made⟩ =
      .goesOn ⟨taxLocals source target (amount - tax) tax,
        made ++ if 0 < tax then [⟨source, state.taxReceiver, tax⟩] else []⟩ := by
  have test : (Term.binary .greater (.name "taxAmount") (.number 0)).value state.storage
      (taxLocals source target amount tax) = .ok (.truth (decide (0 < tax))) := rfl
  unfold payTax
  rw [Command.run_branch test]
  simp only [decide_eq_true_eq]
  split
  · have paid : (baseTransfer "from" "taxReceiver" "taxAmount").run state.storage
        ⟨taxLocals source target amount tax, made⟩ = .goesOn
          ⟨taxLocals source target amount tax, made ++ [⟨source, state.taxReceiver, tax⟩]⟩ := rfl
    unfold Command.block
    rw [List.foldr_cons, List.foldr_cons, Command.run_seq paid,
      Command.run_seq (run_decrease state source target amount tax _ le)]
    rfl
  · rename_i none
    rw [Nat.eq_zero_of_not_pos none, List.append_nil]
    rfl

/-- Behind the check that the contract is not paused the hook makes the transfers that it should
make. -/
theorem run_taxedTransfer (bounded : state.Bounded) :
    taxedTransfer.run state.storage ⟨hookLocals source target amount, []⟩ =
      if state.isExempt source target then .returned (state.transfers source target amount)
      else .goesOn ⟨taxLocals source target (amount - state.tax source target amount)
        (state.tax source target amount), state.transfers source target amount⟩ := by
  -- The commands are run one by one; an exempt transfer returns at the first.
  have pass := run_passExempt state source target amount []
  unfold taxedTransfer Command.block TaxState.transfers
  simp only [List.foldr_cons]
  split
  · rename_i exempt
    rw [if_pos exempt] at pass
    exact Command.run_seq_of_returned pass _
  · rename_i taxed
    rw [if_neg taxed] at pass
    have declared : (Command.declare "uint256" "taxAmount" (.number 0)).run state.storage
        ⟨hookLocals source target amount, []⟩ = .goesOn ⟨taxLocals source target amount 0, []⟩ :=
      rfl
    have chosen := run_chooseTax state source target amount []
    have paid := run_payTax state source target amount _ [] (bounded.tax_le source target amount)
    rw [Command.run_seq pass, Command.run_seq declared, Command.run_seq chosen,
      Command.run_seq paid]
    rfl

/-- The arguments of the hook. -/
def hookArguments : List (Value A) := [.account source, .account target, .amount amount]

theorem call_transferRoutine (pausable : Bool) :
    (transferRoutine pausable).call state.storage (hookArguments source target amount) =
      ((transferRoutine pausable).body.run state.storage
        ⟨hookLocals source target amount, []⟩).result := rfl

theorem run_pauseCheck : (Command.call "_requireNotPaused" .nil).run state.storage
    ⟨hookLocals source target amount, made⟩ =
      if state.paused then .rejected made
      else .goesOn ⟨hookLocals source target amount, made⟩ := rfl

/-- The hook rejects calls of a contract that is paused before it does anything else. -/
theorem call_of_paused (paused : state.paused = true) :
    (transferRoutine true).call state.storage (hookArguments source target amount) =
      .rejected [] := by
  have check := run_pauseCheck state source target amount []
  rw [paused, if_pos rfl] at check
  have body : (transferRoutine true).body.run state.storage
      ⟨hookLocals source target amount, []⟩ = .rejected [] := Command.run_seq_of_rejected check _
  rw [call_transferRoutine, body]
  rfl

/-- The hook makes the transfers that it should make, if it does not have to check that the
contract is not paused or the contract is not. -/
theorem call_of_running {pausable : Bool} (running : (pausable && state.paused) = false)
    (bounded : state.Bounded) :
    (transferRoutine pausable).call state.storage (hookArguments source target amount) =
      .finished (state.transfers source target amount) := by
  have body : (transferRoutine pausable).body.run state.storage
      ⟨hookLocals source target amount, []⟩ =
        taxedTransfer.run state.storage ⟨hookLocals source target amount, []⟩ := by
    cases pausable with
    | false => rfl
    | true =>
      have check := run_pauseCheck state source target amount []
      rw [Bool.true_and] at running
      rw [running, if_neg Bool.false_ne_true] at check
      exact Command.run_seq check _
  rw [call_transferRoutine, body, run_taxedTransfer state source target amount bounded]
  split <;> rfl

end Running

/-! ## Reading it from a source -/

/-- The text of the hook of a taxed token. -/
def hookText (pausable : Bool) : Text :=
  unlines ((Features.sample (.other []) false true pausable).transferHook.flatMap
    fun g => indent g.print)

theorem read?_hookText (pausable : Bool) :
    Routine.read? (hookText pausable) = some (transferRoutine pausable) := by
  cases pausable <;> decide +kernel

namespace Features

variable (f : Features)

theorem transferHook_of_taxed (taxed : f.hasTax = true) :
    f.transferHook = (sample (.other []) false true f.pausable).transferHook := by
  rw [transferHook, hookBody, taxed]
  rfl

theorem filter_ite {p : Function → Bool} {on : Bool} {functions : List Function}
    (none : functions.filter p = []) : (if on then functions else []).filter p = [] := by
  cases on with
  | false => rfl
  | true => exact none

/-- The hook is the only function of its name. -/
theorem filter_functions :
    f.functions.filter (fun g => g.name = "_update".toList) = f.transferHook := by
  have hook : f.transferHook.filter (fun g => g.name = "_update".toList) = f.transferHook := by
    unfold transferHook
    split <;> rfl
  rw [functions, List.filter_append, List.filter_append, List.filter_append, List.filter_append,
    List.filter_append, hook, mint, filter_ite rfl, pause, filter_ite rfl, taxAdmin, filter_ite rfl,
    disableMinting, filter_ite rfl, supportsInterface, filter_ite rfl]
  simp

/-- The lines of the functions are those of the hook, with some before and behind them. -/
theorem exists_functionLines : ∃ before after, f.functionLines =
    before ++ (f.transferHook.flatMap fun g => [] :: indent g.print) ++ after := by
  simp only [functionLines, functions, List.flatMap_append]
  exact ⟨_, _, rfl⟩

/-- The text of the hook stands in the source of a taxed token. -/
theorem exists_source_text (taxed : f.hasTax = true) : ∃ before after,
    f.source.text = before ++ hookText f.pausable ++ after := by
  obtain ⟨before, after, lines⟩ := f.exists_functionLines
  have hook : (f.transferHook.flatMap fun g => [] :: indent g.print) =
      [] :: f.transferHook.flatMap fun g => indent g.print := by
    rw [transferHook, taxed]
    rfl
  refine ⟨unlines (f.headLines ++ [] :: (f.documentation ++ f.contract.opening ::
      (f.stateLines ++ indent f.constructor.print ++ before ++ [[]]))),
    unlines (after ++ [closing]), ?_⟩
  rw [f.source_text, codeLines, lines, hook, hookText, ← f.transferHook_of_taxed taxed,
    ← unlines_append, ← unlines_append]
  simp only [List.append_assoc, List.cons_append, List.nil_append]

end Features

/-- The source of a taxed token has one transfer hook.  Its text is read as one of two functions,
which only the question whether the token can be paused decides.  The function rejects calls while
a contract that can be paused is paused, before it makes any transfer; otherwise it makes the
transfers that it should make, and they add up to the amount. -/
theorem generate_transferHook {r : Request} {s : Source} (generated : generate r = .ok s)
    (taxed : s.features.hasTax = true) :
    (s.features.functions.filter fun g => g.name = "_update".toList).map
        (fun g => unlines (indent g.print)) = [hookText s.features.pausable] ∧
      (∃ before after, s.text = before ++ hookText s.features.pausable ++ after) ∧
      Routine.read? (hookText s.features.pausable) =
        some (transferRoutine s.features.pausable) ∧
      ∀ {A : Type} [DecidableEq A] [Zero A] (state : TaxState A) (source target : A) (amount : Nat),
        (s.features.pausable = true → state.paused = true →
          (transferRoutine s.features.pausable).call state.storage
            (hookArguments source target amount) = .rejected []) ∧
        ((s.features.pausable && state.paused) = false → state.Bounded →
          (transferRoutine s.features.pausable).call state.storage
              (hookArguments source target amount) =
            .finished (state.transfers source target amount) ∧
          ((state.transfers source target amount).map Transfer.amount).sum = amount) := by
  refine ⟨?_, ?_, read?_hookText _, fun state source target amount => ⟨?_, ?_⟩⟩
  · rw [s.features.filter_functions, s.features.transferHook_of_taxed taxed]
    cases s.features.pausable <;> rfl
  · rw [← source_features_of_generate generated]
    exact s.features.exists_source_text taxed
  · intro pausable paused
    rw [pausable]
    exact call_of_paused state source target amount paused
  · intro running bounded
    exact ⟨call_of_running state source target amount running bounded,
      bounded.sum_transfers source target amount⟩

/-! ## A token with both taxes -/

/-- A configuration with both taxes that can be paused. -/
def taxedConfig : Config :=
  { plainConfig "Taxed" "TAX" with pausable := true, buyTax := 5, sellTax := 10 }

/-- Its contract while it is not paused: account 7 is a pair, and account 3 receives the taxes. -/
def taxedState : TaxState Nat where
  paused := false
  isDexPair account := account = 7
  isExcludedFromTax _ := false
  buyTaxPercent := 5
  sellTaxPercent := 10
  taxReceiver := 3

/-- A purchase of 1010 pays a tax of 50, which is rounded down. -/
theorem generate_transferHook_taxedConfig : ∃ s, generate taxedConfig.request = .ok s ∧
    (transferRoutine s.features.pausable).call taxedState.storage (hookArguments 7 9 1010) =
      .finished [⟨7, 3, 50⟩, ⟨7, 9, 960⟩] := by
  refine ⟨taxedConfig.features.source, taxedConfig.generate_request, ?_⟩
  have taxed : taxedConfig.features.source.features.hasTax = true := by decide
  obtain ⟨_, _, _, runs⟩ := generate_transferHook taxedConfig.generate_request taxed
  have bounded : taxedState.Bounded := ⟨by decide, by decide⟩
  exact ((runs taxedState 7 9 1010).2 (by decide) bounded).1

end Token

end TokenForge
