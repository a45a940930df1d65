import TokenLint.Source.Grammar.Goal

/-!
# Binding targets

What a declaration or a parameter binds: a name, or a shape to take a value apart.
-/
namespace TokenLint.Source.Grammar
open Reader

variable (g : Grammar)

/-- A value for when there is none. -/
def fallback : Reader (List Node) :=
  opt (seq [token (mark "=" ['=', '>']), child .item (assignment g)])

def objectTarget : Reader Node :=
  let rest := seq [punctText "...", child .item (g .target)]
  let keyed :=
    group [child .item (memberName g), punct ':', child .item (g .target), fallback g]
  let short := group [child .item identifier, fallback g]
  group [punct '{', commaList (rest <|> child .item keyed <|> child .item short), punct '}']

def arrayTarget : Reader Node :=
  let slot := seq [opt (punctText "..."), child .item (g .target), fallback g]
  group [punct '[', many (slot <|> punct ','), punct ']']

/-- A name (`this` included, which types the receiver of a function) or a shape. -/
def target : Reader Node :=
  let receiver := node .other (keyword "this")
  objectTarget g <|> arrayTarget g <|> receiver <|> identifier

end TokenLint.Source.Grammar
