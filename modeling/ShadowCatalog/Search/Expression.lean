import ShadowCatalog.Search.Lexeme

/-!
# Search expressions

A search expression is read into tokens. A lone `*` or `%` asks for everything,
and a blank expression for the empty value. Any other expression is taken
lexeme by lexeme: a span or a run gives one term per word in it, or the empty
term if there is none; `!=` turns the next span or run, all its terms together,
into terms that must not occur, whatever joiners stand between.
-/

namespace ShadowCatalog

open Text

/-- The terms of a text: its words, or the empty term if there are none. -/
def searchTerms (text : List Char) : List String :=
  match words text with
  | [] => [""]
  | ws => ws.map String.ofList

/-- The tokens of a text whose terms are wanted or, after a negation, unwanted. -/
def termTokens (negated : Bool) (text : List Char) : List SearchToken :=
  (searchTerms text).map (if negated then .lacks else .contains)

/-- The tokens of a row of lexemes; `negated` says whether a negation is pending. -/
def tokensOfLexemes (negated : Bool) : List Lexeme → List SearchToken
  | [] => []
  | .joiner j _ :: rest => .joiner j :: tokensOfLexemes negated rest
  | .negation :: rest => tokensOfLexemes true rest
  | .span _ text :: rest => termTokens negated text ++ tokensOfLexemes false rest
  | .run text :: rest => termTokens negated text ++ tokensOfLexemes false rest

/-- The tokens of a search expression. -/
def searchTokens (expression : String) : List SearchToken :=
  match trim expression.toList with
  | [] => [.contains ""]
  | ['*'] => [.all]
  | ['%'] => [.all]
  | _ => tokensOfLexemes false (lexemes expression.toList)

end ShadowCatalog
