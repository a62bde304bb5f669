/-!
# Values by name

A finite map from names, listed by ascending name. A name that is set again
takes its new value.
-/

namespace ShadowCatalog

/-- A value for each of finitely many names. -/
abbrev NameMap (α : Type) := List (String × α)

namespace NameMap

variable {α : Type}

/-- The map with the value of `name` set. -/
def insert (name : String) (value : α) : NameMap α → NameMap α
  | [] => [(name, value)]
  | (other, old) :: rest =>
    if name < other then (name, value) :: (other, old) :: rest
    else if name = other then (name, value) :: rest
    else (other, old) :: insert name value rest

/-- The value of `name`. -/
def get? (name : String) (map : NameMap α) : Option α :=
  (map.find? (·.1 = name)).map (·.2)

/-- The map that takes the values of a list, one after the other. -/
def ofList (pairs : List (String × α)) : NameMap α :=
  pairs.foldl (fun map (name, value) => map.insert name value) []

theorem get?_insert (name other : String) (value : α) (map : NameMap α) :
    (map.insert name value).get? other = if name = other then some value else map.get? other := by
  induction map with
  | nil => by_cases h : name = other <;> simp [insert, get?, h]
  | cons first rest ih =>
    obtain ⟨key, old⟩ := first
    simp only [insert]
    split
    · by_cases h : name = other <;> simp [get?, h]
    · split
      · next h => subst h; by_cases h : name = other <;> simp [get?, h]
      · next hne =>
        have step : ∀ tail : NameMap α, get? other ((key, old) :: tail) =
            if key = other then some old else get? other tail := by
          intro tail
          by_cases h : key = other <;> simp [get?, h]
        rw [step, step, ih]
        by_cases h : key = other
        · rw [if_pos h, if_pos h, if_neg fun e => hne (e.trans h.symm)]
        · rw [if_neg h, if_neg h]

end NameMap

end ShadowCatalog
