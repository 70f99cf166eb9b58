import TokenForge.Text.Word

/-!
# Contract names

A contract is named for the symbol of its token: the ASCII letters and digits of
the symbol, followed by `Token`.
-/

namespace TokenForge

namespace Token

/-- The end of every contract name. -/
def nameEnding : Text := "Token"

/-- The name of the contract of a token. -/
def contractName (symbol : Text) : Text := symbol.filter isAsciiAlphanumeric ++ nameEnding

end Token

end TokenForge
