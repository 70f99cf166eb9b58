import TokenForge.Assoc
import TokenForge.Solidity.Printer

/-!
# Reading the text of a function

`Routine.read?` reads a function from its text as a compiler would: the text is cut into
lexemes, and the lexemes are read with the precedence of the operators.  White space and line
breaks count only as gaps between lexemes, so nothing of how the text was printed matters.

The language is the part of Solidity that the bodies of transfer hooks are written in: calls,
declarations, assignments, branches and returns.  A text with anything else in it is not read.
-/

namespace TokenForge

namespace Solidity

/-! ## Syntax -/

mutual

/-- A term. -/
inductive Term where
  | name (name : Text)
  | number (n : Nat)
  | entry (mapping : Text) (key : Term)
  | call (function : Text) (arguments : Terms)
  | binary (operator : Operator) (left right : Term)
  deriving DecidableEq, Repr

/-- The arguments of a call. -/
inductive Terms where
  | nil
  | cons (first : Term) (rest : Terms)
  deriving DecidableEq, Repr

end

/-- A command. -/
inductive Command where
  | skip
  | seq (first rest : Command)
  /-- A call for its effect. -/
  | call (function : Text) (arguments : Terms)
  | declare (type name : Text) (value : Term)
  | assign (name : Text) (value : Term)
  /-- An assignment of what is left after subtracting. -/
  | decrease (name : Text) (value : Term)
  /-- The end of a function. -/
  | leave
  | branch (condition : Term) (body otherwise : Command)
  deriving DecidableEq, Repr

/-- Commands one after the other. -/
def Command.block (commands : List Command) : Command := commands.foldr .seq .skip

/-- A function that can be run. -/
structure Routine where
  name : Text
  parameters : List Parameter
  body : Command
  deriving DecidableEq, Repr

/-! ## Lexemes -/

/-- A word, a number or a sign. -/
inductive Lexeme where
  | word (s : Text)
  | number (n : Nat)
  | operator (operator : Operator)
  | openParen
  | closeParen
  | openBracket
  | closeBracket
  | openBrace
  | closeBrace
  | comma
  | semicolon
  | assign
  | decrease
  | function
  | branch
  | otherwise
  | leave
  deriving DecidableEq, Repr

/-- The operators that are read. -/
def readableOperators : List Operator :=
  [.equal, .unequal, .atMost, .greater, .either, .both, .plus, .times, .divided]

/-- The signs and the words that are no names. -/
def reserved : Assoc Lexeme := [
  ("(", .openParen), (")", .closeParen), ("[", .openBracket), ("]", .closeBracket),
  ("\x7b", .openBrace), ("\x7d", .closeBrace), (",", .comma), (";", .semicolon), ("=", .assign),
  ("-=", .decrease), ("function", .function), ("if", .branch), ("else", .otherwise),
  ("return", .leave)]

/-- The lexemes with a fixed text. -/
def fixedLexemes : Assoc Lexeme := reserved ++ readableOperators.map fun o => (o.sign, .operator o)

/-- What the characters of a text may be part of. -/
inductive CharKind where
  | blank
  /-- A word or a number.  The parts of a name that points join are one word. -/
  | word
  /-- A sign of one character. -/
  | bracket
  /-- A sign of one or more characters. -/
  | sign
  deriving DecidableEq, Repr

/-- The kind of a character. -/
def CharKind.of (c : Char) : CharKind :=
  if c = ' ' ∨ c = '\n' then .blank
  else if c.isAlphanum ∨ c = '_' ∨ c = '.' then .word
  else if c ∈ "()[]\x7b\x7d,;".toList then .bracket
  else .sign

/-- The texts of the lexemes: characters of a kind that stand next to each other belong together,
brackets apart. -/
def lexemeTexts : Text → List Text
  | [] => []
  | c :: s =>
    match CharKind.of c, lexemeTexts s with
    | .blank, later => later
    | .bracket, later => [c] :: later
    | _, [] => [[c]]
    | kind, next :: later =>
      if s.head?.map CharKind.of = some kind then (c :: next) :: later else [c] :: next :: later

/-- The lexeme with a text. -/
def Lexeme.ofText? (s : Text) : Option Lexeme :=
  match Assoc.get? fixedLexemes s with
  | some lexeme => some lexeme
  | none =>
    if s.all Char.isDigit then some (.number (Text.ofAsciiDigits s))
    else if s.all (CharKind.of · = .word) then some (.word s)
    else none

/-- The lexemes of a text. -/
def lexemes? (s : Text) : Option (List Lexeme) := (lexemeTexts s).mapM Lexeme.ofText?

/-! ## Terms -/

/-- The number of levels of operators. -/
def operatorLevels : Nat := 6

/-- The level of an operator.  Operators of a higher level bind more tightly. -/
def Operator.level : Operator → Nat
  | .either => 0
  | .both => 1
  | .equal | .unequal => 2
  | .atMost | .greater => 3
  | .plus => 4
  | .times | .divided => 5
  | .power => 6

mutual

/-- Reads a term in which the operators outside brackets are of a level at least. -/
def term? : Nat → Nat → List Lexeme → Option (Term × List Lexeme)
  | 0, _, _ => none
  | fuel + 1, level, ts =>
    if level = operatorLevels then atom? fuel ts
    else do
      let (first, rest) ← term? fuel (level + 1) ts
      operands? fuel level first rest

/-- Reads what follows the first operands of operators of a level, which are read from the left. -/
def operands? : Nat → Nat → Term → List Lexeme → Option (Term × List Lexeme)
  | 0, _, _, _ => none
  | fuel + 1, level, left, .operator o :: ts =>
    if o.level = level then do
      let (right, rest) ← term? fuel (level + 1) ts
      operands? fuel level (.binary o left right) rest
    else some (left, .operator o :: ts)
  | _ + 1, _, left, ts => some (left, ts)

/-- Reads a term without operators outside brackets. -/
def atom? : Nat → List Lexeme → Option (Term × List Lexeme)
  | 0, _ => none
  | _ + 1, .number n :: ts => some (.number n, ts)
  | fuel + 1, .openParen :: ts =>
    match term? fuel 0 ts with
    | some (inner, .closeParen :: rest) => some (inner, rest)
    | _ => none
  | fuel + 1, .word function :: .openParen :: ts => do
    let (arguments, rest) ← arguments? fuel ts
    return (.call function arguments, rest)
  | fuel + 1, .word mapping :: .openBracket :: ts =>
    match term? fuel 0 ts with
    | some (key, .closeBracket :: rest) => some (.entry mapping key, rest)
    | _ => none
  | _ + 1, .word name :: ts => some (.name name, ts)
  | _ + 1, _ => none

/-- Reads arguments up to the closing parenthesis. -/
def arguments? : Nat → List Lexeme → Option (Terms × List Lexeme)
  | 0, _ => none
  | _ + 1, .closeParen :: ts => some (.nil, ts)
  | fuel + 1, ts =>
    match term? fuel 0 ts with
    | some (last, .closeParen :: rest) => some (.cons last .nil, rest)
    | some (first, .comma :: rest) => do
      let (others, rest) ← arguments? fuel rest
      return (.cons first others, rest)
    | _ => none

end

/-! ## Commands -/

mutual

/-- Reads a command. -/
def command? : Nat → List Lexeme → Option (Command × List Lexeme)
  | 0, _ => none
  | fuel + 1, .branch :: .openParen :: ts =>
    match term? fuel 0 ts with
    | some (condition, .closeParen :: .openBrace :: rest) => do
      let (body, rest) ← commands? fuel rest
      let (otherwise, rest) ← otherwise? fuel rest
      return (.branch condition body otherwise, rest)
    | _ => none
  | _ + 1, .leave :: .semicolon :: ts => some (.leave, ts)
  | fuel + 1, .word type :: .word name :: .assign :: ts =>
    match term? fuel 0 ts with
    | some (value, .semicolon :: rest) => some (.declare type name value, rest)
    | _ => none
  | fuel + 1, .word name :: .assign :: ts =>
    match term? fuel 0 ts with
    | some (value, .semicolon :: rest) => some (.assign name value, rest)
    | _ => none
  | fuel + 1, .word name :: .decrease :: ts =>
    match term? fuel 0 ts with
    | some (value, .semicolon :: rest) => some (.decrease name value, rest)
    | _ => none
  | fuel + 1, ts =>
    match term? fuel 0 ts with
    | some (.call function arguments, .semicolon :: rest) => some (.call function arguments, rest)
    | _ => none

/-- Reads what is done if the condition of a branch does not hold. -/
def otherwise? : Nat → List Lexeme → Option (Command × List Lexeme)
  | 0, _ => none
  | fuel + 1, .otherwise :: .openBrace :: ts => commands? fuel ts
  | fuel + 1, .otherwise :: ts => command? fuel ts
  | _ + 1, ts => some (.skip, ts)

/-- Reads commands up to the closing brace. -/
def commands? : Nat → List Lexeme → Option (Command × List Lexeme)
  | 0, _ => none
  | _ + 1, .closeBrace :: ts => some (.skip, ts)
  | fuel + 1, ts => do
    let (first, rest) ← command? fuel ts
    let (others, rest) ← commands? fuel rest
    return (.seq first others, rest)

end

/-! ## Functions -/

/-- Reads parameters up to the closing parenthesis. -/
def parameters? : List Lexeme → Option (List Parameter × List Lexeme)
  | .closeParen :: ts => some ([], ts)
  | .word type :: .word name :: .closeParen :: ts => some ([⟨type, name⟩], ts)
  | .word type :: .word name :: .comma :: ts => do
    let (others, rest) ← parameters? ts
    return (⟨type, name⟩ :: others, rest)
  | _ => none

/-- Reads a function.  The words between its parameters and its body are passed over.  Every
step of the reader goes down a level of operators or takes a lexeme, so the fuel is enough. -/
def Routine.read? (s : Text) : Option Routine := do
  let ts ← lexemes? s
  match ts with
  | .function :: .word name :: .openParen :: ts =>
    let (parameters, rest) ← parameters? ts
    let (body, rest) ← commands? ((operatorLevels + 4) * (ts.length + 1))
      ((rest.dropWhile (· != .openBrace)).drop 1)
    if rest = [] then return ⟨name, parameters, body⟩ else none
  | _ => none

end Solidity

end TokenForge
