/-!
# Sets of column ids

A finite set of ids, held as its members in ascending order, so that two sets
are equal exactly if they have the same members (`IdSet.ext`).
-/

namespace ShadowCatalog

/-- The number of a tracked column. -/
abbrev ColumnId := Int

/-- A finite set of column ids. -/
structure IdSet where
  /-- The members, in ascending order. -/
  toList : List ColumnId
  ascending : toList.Pairwise (· < ·)
  deriving DecidableEq, Repr

namespace IdSet

instance : Membership ColumnId IdSet := ⟨fun s id => id ∈ s.toList⟩

instance (id : ColumnId) (s : IdSet) : Decidable (id ∈ s) :=
  inferInstanceAs (Decidable (id ∈ s.toList))

theorem mem_toList {id : ColumnId} {s : IdSet} : id ∈ s.toList ↔ id ∈ s := Iff.rfl

/-- The set without members. -/
def empty : IdSet := ⟨[], .nil⟩

/-- An ascending list with an id put in its place. -/
def place (id : ColumnId) : List ColumnId → List ColumnId
  | [] => [id]
  | first :: rest =>
    if id < first then id :: first :: rest
    else if id = first then first :: rest
    else first :: place id rest

theorem mem_place {id other : ColumnId} {ids : List ColumnId} :
    other ∈ place id ids ↔ other = id ∨ other ∈ ids := by
  induction ids with
  | nil => simp [place]
  | cons first rest ih =>
    simp only [place]
    split
    · simp
    · split
      · next h => subst h; simp
      · simp only [List.mem_cons, ih]
        exact or_left_comm

theorem ascending_place {id : ColumnId} {ids : List ColumnId} (h : ids.Pairwise (· < ·)) :
    (place id ids).Pairwise (· < ·) := by
  induction ids with
  | nil => simp [place]
  | cons first rest ih =>
    rw [List.pairwise_cons] at h
    simp only [place]
    split
    · next hlt =>
      refine List.pairwise_cons.2 ⟨fun other ho => ?_, List.pairwise_cons.2 h⟩
      rcases List.mem_cons.1 ho with rfl | ho
      · exact hlt
      · exact Int.lt_trans hlt (h.1 other ho)
    · next hge =>
      split
      · exact List.pairwise_cons.2 h
      · next hne =>
        refine List.pairwise_cons.2 ⟨fun other ho => ?_, ih h.2⟩
        rcases mem_place.1 ho with rfl | ho
        · exact Int.lt_iff_le_and_ne.2 ⟨Int.not_lt.1 hge, Ne.symm hne⟩
        · exact h.1 other ho

/-- The set with one more member. -/
def insert (id : ColumnId) (s : IdSet) : IdSet := ⟨place id s.toList, ascending_place s.ascending⟩

/-- The set of the ids of a list. -/
def ofList (ids : List ColumnId) : IdSet := ids.foldr insert empty

/-- The number of members. -/
def size (s : IdSet) : Nat := s.toList.length

@[simp] theorem not_mem_empty {id : ColumnId} : id ∉ empty := List.not_mem_nil

@[simp] theorem mem_insert {id other : ColumnId} {s : IdSet} :
    other ∈ s.insert id ↔ other = id ∨ other ∈ s := mem_place

@[simp] theorem mem_ofList {id : ColumnId} {ids : List ColumnId} : id ∈ ofList ids ↔ id ∈ ids := by
  induction ids with
  | nil => simp [ofList]
  | cons first rest ih =>
    rw [ofList, List.foldr_cons, mem_insert, List.mem_cons]
    exact or_congr_right ih

/-- Two ascending lists with the same members are the same list. -/
theorem eq_of_ascending {a b : List ColumnId} (ha : a.Pairwise (· < ·)) (hb : b.Pairwise (· < ·))
    (h : ∀ id, id ∈ a ↔ id ∈ b) : a = b := by
  induction a generalizing b with
  | nil => exact (List.eq_nil_iff_forall_not_mem.2 fun id hid => by simpa using (h id).2 hid).symm
  | cons x xs ih =>
    cases b with
    | nil => exact absurd ((h x).1 List.mem_cons_self) List.not_mem_nil
    | cons y ys =>
      rw [List.pairwise_cons] at ha hb
      have hxy : x = y := by
        rcases List.mem_cons.1 ((h x).1 List.mem_cons_self) with hx | hx
        · exact hx
        · rcases List.mem_cons.1 ((h y).2 List.mem_cons_self) with hy | hy
          · exact hy.symm
          · exact absurd (hb.1 x hx) (Int.lt_asymm (ha.1 y hy))
      subst hxy
      congr 1
      refine ih ha.2 hb.2 fun id => ⟨fun hid => ?_, fun hid => ?_⟩
      · rcases List.mem_cons.1 ((h id).1 (List.mem_cons_of_mem _ hid)) with rfl | hid'
        · exact absurd (ha.1 _ hid) (Int.lt_irrefl _)
        · exact hid'
      · rcases List.mem_cons.1 ((h id).2 (List.mem_cons_of_mem _ hid)) with rfl | hid'
        · exact absurd (hb.1 _ hid) (Int.lt_irrefl _)
        · exact hid'

theorem ext {s t : IdSet} (h : ∀ id, id ∈ s ↔ id ∈ t) : s = t := by
  obtain ⟨a, ha⟩ := s
  obtain ⟨b, hb⟩ := t
  have : a = b := eq_of_ascending ha hb h
  subst this
  rfl

end IdSet

end ShadowCatalog
