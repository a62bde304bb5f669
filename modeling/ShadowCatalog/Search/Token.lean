import ShadowCatalog.Text.Quoted

/-!
# Search tokens

What a search expression asks for, in order: terms that a value must contain or
must not contain, the wish for everything, and the words that join one wish to
the next. The term without text stands for the empty value.
-/

namespace ShadowCatalog

/-- How a wish is joined to the one before it. -/
inductive Joiner
  | and
  | or
  deriving DecidableEq, Repr

/-- The word for a joiner. -/
def Joiner.word : Joiner → String
  | .and => "AND"
  | .or => "OR"

/-- One part of a search expression. -/
inductive SearchToken
  /-- Every value will do. -/
  | all
  /-- The next wish is joined in this way. -/
  | joiner (joiner : Joiner)
  /-- The value contains the term. -/
  | contains (term : String)
  /-- The value does not contain the term. -/
  | lacks (term : String)
  deriving DecidableEq, Repr

/-- The text of a token, which reads as that token again. -/
def SearchToken.text : SearchToken → String
  | .all => "*"
  | .joiner j => j.word
  | .contains term => Text.quoted term
  | .lacks term => "!=" ++ Text.quoted term

end ShadowCatalog
