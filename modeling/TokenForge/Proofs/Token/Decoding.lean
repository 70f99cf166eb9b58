import TokenForge.Proofs.Token.Documentation

/-!
# Reading a configuration back from its source

`Config.ofSource?` reads a configuration from a source: the fields from the lines of the header
comment, each by its place and its label, and the tax receiver from the line of the constructor
that assigns it.  Places decide, so a name may imitate any other line.

The source of a configuration that is accepted is read as what it shows of the configuration
(`ofSource?_source`), so it determines the configuration but for a tax receiver that it has no
use for (`generate_determines`).
-/

namespace TokenForge

/-! ## Numbers -/

namespace Text

/-- Reads a number that is written without leading zeros. -/
def number? (s : Text) : Option Nat :=
  if ofNat (ofAsciiDigits s) = s then some (ofAsciiDigits s) else none

theorem number?_ofNat (n : Nat) : number? (ofNat n) = some n := by
  rw [number?, ofAsciiDigits_ofNat, if_pos rfl]

end Text

namespace Token

open Solidity
open Text (after? after?_append splitOn number? number?_ofNat dropSpaces)

/-! ## Readers of fields -/

/-- Reads what stands behind a label. -/
def labelled {α : Type} (label : Text) (read : Text → Option α) (line : Text) : Option α :=
  (after? label line).bind read

theorem labelled_append {α : Type} {label s : Text} {read : Text → Option α} {a : α}
    (h : read s = some a) : labelled label read (label ++ s) = some a := by
  rw [labelled, after?_append]
  exact h

/-- Reads a flag. -/
def flag? (s : Text) : Option Bool := [true, false].find? fun flag => Features.yesNo flag == s

/-- Reads a greatest supply. -/
def limit? (s : Text) : Option Nat := if s = "Unlimited".toList then some 0 else number? s

/-- Reads a percentage. -/
def percent? (s : Text) : Option Nat := if s.getLast? = some '%' then number? s.dropLast else none

/-- Reads the words for an access model. -/
def Access.ofLabel? (s : Text) : Option Access := Access.all.find? fun a => a.label == s

/-- What a line assigns to the tax receiver. -/
def assigned? (line : Text) : Option Text := after? "taxReceiver = " (dropSpaces line)

/-- Reads the line that assigns the tax receiver. -/
def receiver? (line : Text) : Option (Option Address) := do
  let value ← assigned? line
  if value = "msg.sender;".toList then return none
  let argument ← after? "address(" value
  let account ← Address.parse? argument.dropLast.dropLast
  return some account

theorem flag?_yesNo (flag : Bool) : flag? (Features.yesNo flag) = some flag := by
  cases flag <;> decide

theorem limit?_limitLabel (n : Nat) : limit? (limitLabel n) = some n := by
  unfold limitLabel
  split
  · have number : Text.ofNat n ≠ "Unlimited".toList := by
      intro same
      have letter : 'U' ∈ Text.ofNat n := by rw [same]; decide
      have digit := Nat.isDigit_of_mem_toDigits (by decide) (by decide) letter
      revert digit
      decide
    rw [limit?, if_neg number, number?_ofNat]
  · rename_i none
    rw [limit?, if_pos rfl, Nat.eq_zero_of_not_pos none]

theorem percent?_percentage (n : Nat) : percent? (Text.ofNat n ++ "%") = some n := by
  have last : "%".toList = ['%'] := rfl
  rw [percent?, last, List.getLast?_concat, if_pos rfl, List.dropLast_concat, number?_ofNat]

theorem Access.ofLabel?_label (a : Access) : Access.ofLabel? a.label = some a := by
  cases a <;> decide

/-! ## The decoder -/

namespace Config

/-- Reads the lines of a header comment.  They do not say who receives the taxes. -/
def ofRemarks? : List Text → Option Config
  | title :: _ :: symbol :: initialSupply :: maxSupply :: mintable :: burnable :: pausable ::
      buyTax :: sellTax :: access :: _ => do
    return {
      name := ← labelled " * @title " some title
      symbol := ← labelled " * - Symbol: " some symbol
      initialSupply := ← labelled " * - Initial Supply: " number? initialSupply
      maxSupply := ← labelled " * - Max Supply: " limit? maxSupply
      mintable := ← labelled " * - Mintable: " flag? mintable
      burnable := ← labelled " * - Burnable: " flag? burnable
      pausable := ← labelled " * - Pausable: " flag? pausable
      buyTax := ← labelled " * - Buy Tax: " percent? buyTax
      sellTax := ← labelled " * - Sell Tax: " percent? sellTax
      taxReceiver := none
      access := ← labelled " * - Access Control: " Access.ofLabel? access }
  | _ => none

/-- Whether transfers are taxed. -/
def isTaxed (c : Config) : Bool := 0 < c.buyTax || 0 < c.sellTax

/-- Reads the configuration that a source shows. -/
def ofSource? (s : Text) : Option Config := do
  let lines := (splitOn '\n' s).dropWhile (· != "/**".toList)
  let c ← ofRemarks? (lines.drop 1)
  -- The code starts behind the opening, eleven lines and the end of the comment.
  if c.isTaxed then
    let taxReceiver ← (lines.drop 13).findSome? receiver?
    return { c with taxReceiver }
  return c

variable (c : Config)

/-- What a source shows of a configuration: all fields, but the tax receiver only if there is a
tax. -/
def shown : Config := { c with taxReceiver := if c.isTaxed then c.taxReceiver else none }

theorem ofRemarks?_remarks (more : List Text) :
    ofRemarks? (c.features.remarks ++ more) = some { c with taxReceiver := none } := by
  have name : labelled " * @title " some c.titleLine = some c.name := labelled_append rfl
  have symbol : labelled " * - Symbol: " some c.symbolLine = some c.symbol := labelled_append rfl
  have tax (label : Text) (n : Nat) :
      labelled label percent? (label ++ Text.ofNat n ++ "%") = some n := by
    rw [List.append_assoc, labelled_append (percent?_percentage n)]
  rw [c.remarks_features, details]
  simp only [List.cons_append, ofRemarks?]
  rw [name, symbol, labelled_append (number?_ofNat _), labelled_append (limit?_limitLabel _),
    labelled_append (flag?_yesNo _), labelled_append (flag?_yesNo _),
    labelled_append (flag?_yesNo _), tax, tax, labelled_append (Access.ofLabel?_label _)]
  rfl

end Config

/-! ## The line of the tax receiver -/

theorem assigned?_step (line : Text) : assigned? (step ++ line) = assigned? line := by
  rw [assigned?, assigned?, dropSpaces, List.dropWhile_append_of_pos (by decide), dropSpaces]

theorem assigned?_append (value : Text) : assigned? ("taxReceiver = " ++ value) = some value := by
  have start : dropSpaces ("taxReceiver = ".toList ++ value) = "taxReceiver = ".toList ++ value :=
    rfl
  rw [assigned?, start, after?_append]

theorem receiver?_of_unassigned {line : Text} (h : assigned? line = none) :
    receiver? line = none := by
  rw [receiver?, h]
  rfl

theorem receiver?_step (line : Text) : receiver? (step ++ line) = receiver? line := by
  rw [receiver?, assigned?_step]
  rfl

theorem indents_passed : Indents fun line => receiver? line = none where
  empty := rfl
  indent h := by rw [receiver?_step, h]

theorem receiver?_sender : receiver? ("taxReceiver = " ++ "msg.sender" ++ ";") = some none := by
  rw [receiver?, List.append_assoc, assigned?_append]
  rfl

theorem receiver?_account {digits : Text} {account : Address}
    (parsed : Address.parse? digits = some account) :
    receiver? ("taxReceiver = " ++ ("address(" ++ (digits ++ [')'])) ++ ";") =
      some (some account) := by
  have value : "address(".toList ++ (digits ++ [')']) ++ ";".toList =
      "address(" ++ ((digits ++ [')']) ++ [';']) := List.append_assoc _ _ _
  have other : "address(".toList ++ ((digits ++ [')']) ++ [';']) ≠ "msg.sender;".toList := by
    intro same
    have first := congrArg List.head? same
    cases first
  rw [List.append_assoc, value, receiver?, assigned?_append]
  simp only [Option.bind_eq_bind, Option.bind_some, if_neg other, after?_append]
  rw [List.dropLast_concat, List.dropLast_concat, parsed]
  rfl

namespace Features

variable (f : Features)

/-- What the constructor does before it assigns the tax receiver. -/
def beforeReceiver : List Stmt :=
  f.grants ++
    (if f.hasMaxSupply then [.assign (.name "maxSupply") (scaled f.maxSupply)] else []) ++
    (if f.mintable then [.assign (.name "mintable") (.name "true")] else []) ++
    [.assign (.name "buyTaxPercent") (.pasted f.buyTax),
      .assign (.name "sellTaxPercent") (.pasted f.sellTax)]

theorem withGap_append_cons (before : List Stmt) (s : Stmt) (after : List Stmt) :
    withGap (before ++ s :: after) = before ++ s :: (after ++ [.gap]) := by
  cases before <;> simp [withGap]

theorem exists_constructorBody (taxed : f.hasTax = true) : ∃ rest, f.constructor.body =
    f.beforeReceiver ++ .assign (.name "taxReceiver") f.receiver :: rest := by
  have start : ∃ rest, f.setup =
      f.beforeReceiver ++ .assign (.name "taxReceiver") f.receiver :: rest := by
    refine ⟨f.taxSetup.drop 3, ?_⟩
    rw [setup, taxed, beforeReceiver, List.append_assoc _ _ (_ :: _)]
    rfl
  obtain ⟨rest, same⟩ := start
  simp only [constructor]
  split
  · rw [same, withGap_append_cons, List.append_assoc]
    exact ⟨_, rfl⟩
  · exact ⟨rest, same⟩

theorem ownLines_passed : (ownLines.all fun line => (receiver? line).isNone) = true := by
  decide +kernel

theorem beforeReceiver_passed : ∀ line ∈ printBody f.beforeReceiver, receiver? line = none := by
  have own : ∀ s ∈ ownSetup, ∀ line ∈ s.print, receiver? line = none := by
    intro s member line here
    simpa using forall_ownSetup ownLines_passed s member line here
  -- The limit and the two taxes hold texts of the features; the others are the library's own.
  refine forall_mem_printBody fun s member => ?_
  simp only [beforeReceiver, grants, List.mem_append, List.mem_ite_nil_right, List.mem_cons,
    List.not_mem_nil, or_false] at member
  rcases member with ((⟨_, (rfl | ⟨_, rfl⟩) | ⟨_, rfl⟩⟩ | ⟨_, rfl⟩) | ⟨_, rfl⟩) | rfl | rfl
  · exact own _ (by simp [ownSetup])
  · exact own _ (by simp [ownSetup])
  · exact own _ (by simp [ownSetup])
  · exact List.forall_mem_singleton.mpr (receiver?_of_unassigned rfl)
  · exact own _ (by simp [ownSetup])
  · exact List.forall_mem_singleton.mpr (receiver?_of_unassigned rfl)
  · exact List.forall_mem_singleton.mpr (receiver?_of_unassigned rfl)

/-- The line that assigns the tax receiver. -/
def receiverLine : Text := "taxReceiver = " ++ f.receiver.print ++ ";"

/-- The line that assigns the tax receiver is in the constructor, and no line before it does. -/
theorem exists_constructorLines (taxed : f.hasTax = true) : ∃ before after,
    f.constructor.print = before ++ (step ++ f.receiverLine) :: after ∧
      ∀ line ∈ before, receiver? line = none := by
  obtain ⟨rest, body⟩ := f.exists_constructorBody taxed
  have lines : f.constructor.print =
      (f.constructorOpening :: indent (printBody f.beforeReceiver)) ++
        (step ++ f.receiverLine) :: (indent (printBody rest) ++ [closing]) := by
    rw [f.constructor_print, body, printBody_append, printBody, indent, indentBy, List.map_append,
      List.map_append]
    simp only [List.cons_append, List.append_assoc]
    rfl
  exact ⟨_, _, lines, List.forall_mem_cons.mpr
    ⟨receiver?_of_unassigned rfl, indents_passed.forall_mem_indent f.beforeReceiver_passed⟩⟩

theorem stateLines_passed : ∀ line ∈ f.stateLines, receiver? line = none := by
  refine List.forall_mem_append.mpr ⟨indents_passed.forall_mem_spaced ?_,
    indents_passed.forall_mem_spaced ?_⟩
  · refine List.forall_mem_map.mpr fun d member => ?_
    simpa using f.forall_state ownLines_passed d member
  · refine List.forall_mem_map.mpr fun e member => ?_
    simpa using f.forall_events ownLines_passed e member

/-- The first line of the code that assigns the tax receiver is that of the constructor. -/
theorem findSome?_codeLines (taxed : f.hasTax = true) {receiver : Option Address}
    (read : receiver? f.receiverLine = some receiver) (more : List Text) :
    (f.codeLines ++ more).findSome? receiver? = some receiver := by
  obtain ⟨before, after, constructor, passed⟩ := f.exists_constructorLines taxed
  have lines : f.codeLines ++ more =
      (f.contract.opening :: (f.stateLines ++ indent before)) ++
        (step ++ (step ++ f.receiverLine)) ::
          (indent after ++ (f.functionLines ++ ([closing] ++ more))) := by
    rw [codeLines, constructor, indent, indentBy, List.map_append, List.map_cons]
    simp only [List.cons_append, List.append_assoc]
    rfl
  have first : (f.contract.opening :: (f.stateLines ++ indent before)).findSome? receiver? =
      none := by
    rw [List.findSome?_eq_none_iff]
    intro line member
    rcases List.mem_cons.mp member with rfl | inside
    · exact receiver?_of_unassigned rfl
    rcases List.mem_append.mp inside with state | early
    · exact f.stateLines_passed line state
    · exact indents_passed.forall_mem_indent passed line early
  rw [lines, List.findSome?_append, first, List.findSome?_cons, receiver?_step, receiver?_step,
    read]
  rfl

/-- Without a tax no part of the contract depends on the tax receiver. -/
theorem unit_of_untaxed (untaxed : f.hasTax = false) (receiver : Option Text) :
    ({ f with taxReceiver := receiver } : Features).unit = f.unit := by
  obtain ⟨_, _, _, _, _, _, _, _, hasTax, _, _, _, _, _, _, _⟩ := f
  obtain rfl : hasTax = false := untaxed
  rfl

end Features

namespace Config

variable (c : Config)

theorem print_receiver_of_none (given : c.taxReceiver = none) :
    c.features.receiver.print = "msg.sender".toList := by
  have same : c.features.taxReceiver = none := congrArg (Option.map Address.checksummed) given
  rw [Features.receiver, same]
  rfl

theorem print_receiver_of_some {account : Address} (given : c.taxReceiver = some account) :
    c.features.receiver.print = "address(" ++ (account.checksummed ++ [')']) := by
  have same : c.features.taxReceiver = some account.checksummed :=
    congrArg (Option.map Address.checksummed) given
  rw [Features.receiver, same]
  simp [Expr.print, printArguments, commaList]

theorem receiver?_receiverLine : receiver? c.features.receiverLine = some c.taxReceiver := by
  unfold Features.receiverLine
  rcases Option.eq_none_or_eq_some c.taxReceiver with given | ⟨account, given⟩
  · rw [c.print_receiver_of_none given, given, receiver?_sender]
  · rw [c.print_receiver_of_some given, given, receiver?_account account.parse?_checksummed]

theorem headLines_ne : ∀ line ∈ c.features.headLines ++ [[]], (line != "/**".toList) = true := by
  have preamble : (c.features.unit.preambleLines.all (· != "/**".toList)) = true := rfl
  refine List.forall_mem_append.mpr ⟨List.forall_mem_append.mpr ⟨?_, ?_⟩, by decide⟩
  · exact List.all_eq_true.mp preamble
  · simp only [List.forall_mem_map]
    exact fun b _ => rfl

/-- The lines of a source from those of the header comment on. -/
theorem dropWhile_source {members : List (Text × Json)} {c : Config}
    (accepted : ofMembers members = .ok c) :
    (splitOn '\n' c.features.source.text).dropWhile (· != "/**".toList) =
      "/**".toList :: (c.features.remarks ++ " */".toList :: (c.features.codeLines ++ [[]])) := by
  have lines : c.sourceLines ++ [[]] = (c.features.headLines ++ [[]]) ++
      "/**".toList :: (c.features.remarks ++ " */".toList :: (c.features.codeLines ++ [[]])) := by
    rw [sourceLines, Features.documentation_eq]
    simp only [List.append_assoc, List.cons_append, List.nil_append]
  rw [splitOn_source accepted, lines, List.dropWhile_append_of_pos c.headLines_ne]
  rfl

/-- The source of a configuration that is accepted is read as what it shows. -/
theorem ofSource?_source {members : List (Text × Json)} {c : Config}
    (accepted : ofMembers members = .ok c) : ofSource? c.features.source.text = some c.shown := by
  have code : (c.features.remarks ++ " */".toList :: (c.features.codeLines ++ [[]])).drop 12 =
      c.features.codeLines ++ [[]] := rfl
  have same : ({ c with taxReceiver := none } : Config).isTaxed = c.isTaxed := rfl
  simp only [ofSource?, dropWhile_source accepted, List.drop_succ_cons, List.drop_zero, code,
    ofRemarks?_remarks, shown, Option.bind_eq_bind, Option.bind_some, same]
  by_cases taxed : c.isTaxed = true
  · rw [if_pos taxed, if_pos taxed,
      c.features.findSome?_codeLines taxed c.receiver?_receiverLine]
    rfl
  · rw [if_neg taxed, if_neg taxed]
    rfl

/-! ## What a source determines -/

/-- Two configurations agree in all fields, in the tax receiver if there is a tax. -/
structure Agrees (c d : Config) : Prop where
  name : c.name = d.name
  symbol : c.symbol = d.symbol
  initialSupply : c.initialSupply = d.initialSupply
  maxSupply : c.maxSupply = d.maxSupply
  mintable : c.mintable = d.mintable
  burnable : c.burnable = d.burnable
  pausable : c.pausable = d.pausable
  buyTax : c.buyTax = d.buyTax
  sellTax : c.sellTax = d.sellTax
  access : c.access = d.access
  taxReceiver : 0 < c.buyTax ∨ 0 < c.sellTax → c.taxReceiver = d.taxReceiver

theorem isTaxed_iff : c.isTaxed = true ↔ 0 < c.buyTax ∨ 0 < c.sellTax := by
  simp [isTaxed]

/-- Configurations agree if and only if their sources show the same of them. -/
theorem shown_eq_iff {c d : Config} : c.shown = d.shown ↔ c.Agrees d := by
  constructor
  · intro same
    simp only [shown, Config.mk.injEq] at same
    obtain ⟨name, symbol, initialSupply, maxSupply, mintable, burnable, pausable, buyTax, sellTax,
      receiver, access⟩ := same
    have taxed : c.isTaxed = d.isTaxed := by rw [isTaxed, isTaxed, buyTax, sellTax]
    exact {
      name, symbol, initialSupply, maxSupply, mintable, burnable, pausable, buyTax, sellTax, access
      taxReceiver := fun tax => by
        rw [← isTaxed_iff] at tax
        simpa only [← taxed, if_pos tax] using receiver }
  · intro agree
    have taxed : c.isTaxed = d.isTaxed := by rw [isTaxed, isTaxed, agree.buyTax, agree.sellTax]
    have receiver : (if c.isTaxed then c.taxReceiver else none) =
        if d.isTaxed then d.taxReceiver else none := by
      rw [← taxed]
      split
      · rename_i tax
        exact agree.taxReceiver (c.isTaxed_iff.mp tax)
      · rfl
    rw [shown, shown, receiver, agree.name, agree.symbol, agree.initialSupply, agree.maxSupply,
      agree.mintable, agree.burnable, agree.pausable, agree.buyTax, agree.sellTax, agree.access]

theorem unit_shown : c.shown.features.unit = c.features.unit := by
  cases taxed : c.isTaxed with
  | true =>
    have same : c.shown = c := by rw [shown, taxed]; rfl
    rw [same]
  | false =>
    have same : c.shown.features = { c.features with taxReceiver := none } := by
      rw [shown, taxed]
      rfl
    rw [same, Features.unit_of_untaxed _ taxed]

end Config

/-- Configurations that are accepted have sources.  What the source of one shows can be read from
its text, and two sources are equal if and only if the configurations agree in all fields, in the
tax receiver if there is a tax. -/
theorem generate_determines {members more : List (Text × Json)} {c d : Config}
    (accepted : Config.ofMembers members = .ok c) (others : Config.ofMembers more = .ok d) :
    ∃ s t, generate c.request = .ok s ∧ generate d.request = .ok t ∧
      Config.ofSource? s.text = some c.shown ∧ (s.text = t.text ↔ c.Agrees d) := by
  refine ⟨c.features.source, d.features.source, c.generate_request, d.generate_request,
    Config.ofSource?_source accepted, ?_⟩
  rw [← Config.shown_eq_iff]
  constructor
  · intro same
    have read := Config.ofSource?_source accepted
    rw [same, Config.ofSource?_source others] at read
    exact (Option.some.inj read).symm
  · intro same
    have text : ∀ e : Config, e.features.source.text = e.shown.features.unit.print := fun e => by
      rw [e.unit_shown]
      rfl
    rw [text, text, same]

/-! ## A name that imitates a line -/

/-- Members that name a token after the line of a symbol. -/
def imitatingMembers : List (Text × Json) := [
  ("name", .text "* - Symbol: XYZ"), ("symbol", .text "ABC"), ("initialSupply", .int 1)]

/-- Members with the symbol that is imitated. -/
def imitatedMembers : List (Text × Json) := [
  ("name", .text "* - Symbol: ABC"), ("symbol", .text "XYZ"), ("initialSupply", .int 1)]

/-- Both are accepted, their sources are different, and the symbol is read from its own line. -/
theorem generate_determines_imitatingMembers : ∃ c d,
    Config.ofMembers imitatingMembers = .ok c ∧ Config.ofMembers imitatedMembers = .ok d ∧
      ∃ s t, generate c.request = .ok s ∧ generate d.request = .ok t ∧ s.text ≠ t.text ∧
        (Config.ofSource? s.text).map Config.symbol = some "ABC".toList := by
  have first : Config.ofMembers imitatingMembers = .ok (plainConfig "* - Symbol: XYZ" "ABC") := rfl
  have second : Config.ofMembers imitatedMembers = .ok (plainConfig "* - Symbol: ABC" "XYZ") := rfl
  obtain ⟨s, t, generated, generated', read, same⟩ := generate_determines first second
  refine ⟨_, _, first, second, s, t, generated, generated', ?_, ?_⟩
  · intro text
    have symbols := (same.mp text).symbol
    revert symbols
    decide
  · rw [read]
    rfl

end Token

end TokenForge
