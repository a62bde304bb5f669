import ShadowCatalog.Search.Token
import ShadowCatalog.Sql.Fragment

/-!
# Conditions

The search tokens of one column become a *condition* on it: predicates, each
joined to the one before it. A joiner token holds for the next predicate alone;
without one, predicates are joined by `AND`. Tokens that ask for nothing give no
condition at all.

The text of a term never stands in the condition. It is bound, as a pattern, to
a parameter, and parameters are numbered in the order of their terms
(`Condition.binds`, `Condition.nextIndex`).
-/

namespace ShadowCatalog

/-- What a condition asks of a value. -/
inductive Predicate
  /-- Nothing. -/
  | always
  /-- There is no value, or it is empty. -/
  | blank
  /-- There is a value, and it is not empty. -/
  | present
  /-- The value matches the pattern bound to a parameter. -/
  | matching (index : Nat) (pattern : String)
  /-- The value does not match the pattern bound to a parameter. -/
  | differing (index : Nat) (pattern : String)
  deriving DecidableEq, Repr

/-- The pattern that any text containing the term matches; `*` in the term
    stands for any text. -/
def likePattern (term : String) : String :=
  String.ofList ('%' :: (term.toList.map fun c => if c = '*' then '%' else c) ++ ['%'])

namespace Predicate

/-- The pattern bound by a predicate, if it binds one. -/
def bind? : Predicate → Option String
  | .matching _ pattern => some pattern
  | .differing _ pattern => some pattern
  | _ => none

/-- The predicate on an expression. -/
def sql (subject : Sql) : Predicate → Sql
  | .always => [.fixed "TRUE"]
  | .blank =>
    .fixed "(" :: subject ++ .fixed " IS NULL OR " :: subject ++
      [.fixed " = ", .emptyText, .fixed ")"]
  | .present =>
    .fixed "(" :: subject ++ .fixed " IS NOT NULL AND " :: subject ++
      [.fixed " <> ", .emptyText, .fixed ")"]
  | .matching index _ => subject ++ [.fixed "::text ILIKE ", .parameter index]
  | .differing index _ => subject ++ [.fixed "::text NOT ILIKE ", .parameter index]

end Predicate

/-- A condition: a first predicate, and the others with their joiners. -/
structure Condition where
  /-- The number of the first parameter. -/
  firstIndex : Nat
  first : Predicate
  others : List (Joiner × Predicate)
  deriving DecidableEq, Repr

namespace Condition

/-- The predicates of tokens, each with its joiner. The next predicate is joined
    by `joiner`, and the next parameter has the number `index`. -/
def predicates (joiner : Joiner) (index : Nat) : List SearchToken → List (Joiner × Predicate)
  | [] => []
  | .joiner j :: tokens => predicates j index tokens
  | .all :: tokens => (joiner, .always) :: predicates .and index tokens
  | .contains term :: tokens =>
    if term = "" then (joiner, .blank) :: predicates .and index tokens
    else (joiner, .matching index (likePattern term)) :: predicates .and (index + 1) tokens
  | .lacks term :: tokens =>
    if term = "" then (joiner, .present) :: predicates .and index tokens
    else (joiner, .differing index (likePattern term)) :: predicates .and (index + 1) tokens

/-- The condition that tokens make, its parameters numbered from `index`. -/
def ofTokens? (tokens : List SearchToken) (index : Nat) : Option Condition :=
  match predicates .and index tokens with
  | [] => none
  | (_, first) :: others => some ⟨index, first, others⟩

/-- The values of the parameters, in order. -/
def binds (condition : Condition) : List String :=
  (condition.first :: condition.others.map (·.2)).filterMap Predicate.bind?

/-- The number of the first parameter that is still free. -/
def nextIndex (condition : Condition) : Nat :=
  condition.firstIndex + condition.binds.length

/-- The condition on an expression. -/
def sql (subject : Sql) (condition : Condition) : Sql :=
  .fixed "(" :: condition.first.sql subject ++
    (condition.others.flatMap fun (joiner, predicate) =>
      .fixed (" " ++ joiner.word ++ " ") :: predicate.sql subject) ++ [.fixed ")"]

end Condition

end ShadowCatalog
