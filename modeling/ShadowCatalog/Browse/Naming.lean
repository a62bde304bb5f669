import ShadowCatalog.Text.Letters

/-!
# Names for what has none

A label is shown under a name made from the name of its foreign key, and a
joined table goes by its own name. Where such a name is taken, a number is added
to it: the least one, from 2 on, that gives a free name (`freshName`).
-/

namespace ShadowCatalog

open Text

/-- The name under which the label of a foreign key is shown: `owner_id` and
    `owner_uid` are labelled by `owner_name`, as is `owner`. -/
def labelName (column : String) : String :=
  let cs := column.toList
  let stem := ((dropSuffix? ['_', 'u', 'i', 'd'] cs).or (dropSuffix? ['_', 'i', 'd'] cs)).getD cs
  String.ofList stem ++ "_name"

/-- A name with a number added to it. -/
def numberedName (base : String) (n : Nat) : String :=
  base ++ "_" ++ toString n

/-- The first free name that carries a number from `n` on, when at most `bound`
    numbers from `n` on are taken. -/
def freshNumbered (base : String) (taken : List String) : (bound n : Nat) → String
  | 0, n => numberedName base n
  | bound + 1, n =>
    if numberedName base n ∈ taken then freshNumbered base taken bound (n + 1)
    else numberedName base n

/-- The name itself if it is free, and otherwise the name with the least number,
    from 2 on, that makes it free. -/
def freshName (base : String) (taken : List String) : String :=
  if base ∈ taken then freshNumbered base taken taken.length 2 else base

end ShadowCatalog
