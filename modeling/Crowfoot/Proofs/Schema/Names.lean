import Crowfoot.Schema.Table

/-!
# Distinct names

Tables and columns are found by name up to ASCII case.  Where no two names of a
list agree up to case, a lookup by the exact name of an element finds that
element and no other.  Replacing or changing a first match keeps names distinct.
-/

namespace Crowfoot

/-! ## Lookups up to case -/

section Lookup

variable {left right : String} (hsame : Text.sameName left right = true)

include hsame

theorem findTable?_congr (tables : List Table) :
    findTable? tables left = findTable? tables right := by
  simp only [findTable?, Text.sameName_congr_right hsame]

theorem column?_congr (table : Table) : table.column? left = table.column? right := by
  simp only [Table.column?, Text.sameName_congr_right hsame]

theorem modifyTable_congr (tables : List Table) (change : Table → Table) :
    modifyTable tables left change = modifyTable tables right change := by
  simp only [modifyTable, Text.sameName_congr_right hsame]

theorem modifyColumn_congr (table : Table) (change : Column → Column) :
    table.modifyColumn left change = table.modifyColumn right change := by
  simp only [Table.modifyColumn, Text.sameName_congr_right hsame]

end Lookup

/-! ## First matches -/

variable {α : Type}

/-- No two of the names agree up to ASCII case. -/
def DistinctNames (names : List String) : Prop :=
  names.Pairwise fun left right => Text.sameName left right = false

instance (names : List String) : Decidable (DistinctNames names) :=
  inferInstanceAs (Decidable (names.Pairwise fun left right => Text.sameName left right = false))

theorem mem_putFirst {test : α → Bool} {element other : α} {list : List α}
    (hmem : other ∈ putFirst test element list) : other = element ∨ other ∈ list := by
  induction list with
  | nil => simpa [putFirst] using hmem
  | cons first rest ih =>
    rw [putFirst] at hmem
    split at hmem
    · rcases List.mem_cons.1 hmem with heq | hrest
      · exact Or.inl heq
      · exact Or.inr (List.mem_cons_of_mem first hrest)
    · rcases List.mem_cons.1 hmem with heq | hrest
      · exact Or.inr (heq ▸ List.mem_cons_self)
      · exact (ih hrest).imp_right (List.mem_cons_of_mem first)

theorem mem_modifyFirst {test : α → Bool} {change : α → α} {other : α} {list : List α}
    (hmem : other ∈ modifyFirst test change list) :
    other ∈ list ∨ ∃ element ∈ list, test element = true ∧ other = change element := by
  induction list with
  | nil => simp [modifyFirst] at hmem
  | cons first rest ih =>
    rw [modifyFirst] at hmem
    split at hmem
    · rename_i htest
      rcases List.mem_cons.1 hmem with heq | hrest
      · exact Or.inr ⟨first, List.mem_cons_self, htest, heq⟩
      · exact Or.inl (List.mem_cons_of_mem first hrest)
    · rcases List.mem_cons.1 hmem with heq | hrest
      · exact Or.inl (heq ▸ List.mem_cons_self)
      · rcases ih hrest with hold | ⟨element, helement, hchanged⟩
        · exact Or.inl (List.mem_cons_of_mem first hold)
        · exact Or.inr ⟨element, List.mem_cons_of_mem first helement, hchanged⟩

/-- The element that is put is in the list afterwards. -/
theorem self_mem_putFirst (test : α → Bool) (element : α) (list : List α) :
    element ∈ putFirst test element list := by
  induction list with
  | nil => simp [putFirst]
  | cons first rest ih => rw [putFirst]; split <;> simp [ih]

/-- What does not pass the test stays. -/
theorem mem_putFirst_of_mem {test : α → Bool} {element other : α} {list : List α}
    (hmem : other ∈ list) (htest : test other = false) : other ∈ putFirst test element list := by
  induction list with
  | nil => cases hmem
  | cons first rest ih =>
    rw [putFirst]
    split
    · rename_i hfirst
      rcases List.mem_cons.1 hmem with rfl | hrest
      · simp [htest] at hfirst
      · exact List.mem_cons_of_mem element hrest
    · exact List.mem_cons.2 ((List.mem_cons.1 hmem).imp_right ih)

/-- Changing the first match twice changes it once by both changes, if the first
change does not hide it. -/
theorem modifyFirst_modifyFirst {test : α → Bool} {first second : α → α}
    (hkeep : ∀ element, test (first element) = test element) (list : List α) :
    modifyFirst test second (modifyFirst test first list) =
      modifyFirst test (second ∘ first) list := by
  induction list with
  | nil => rfl
  | cons head rest ih =>
    cases htest : test head
    · simp [modifyFirst, htest, ih]
    · simp [modifyFirst, htest, hkeep]

/-- Changes of first matches commute if they do so on the elements that both can mean. -/
theorem modifyFirst_comm {first second : α → Bool} {change other : α → α}
    (hcommute : ∀ element, first element = true → second element = true →
      other (change element) = change (other element))
    (hchange : ∀ element, second (change element) = second element)
    (hother : ∀ element, first (other element) = first element) (list : List α) :
    modifyFirst second other (modifyFirst first change list) =
      modifyFirst first change (modifyFirst second other list) := by
  induction list with
  | nil => rfl
  | cons head rest ih =>
    cases hfirst : first head with
    | true =>
      cases hsecond : second head with
      | true => simp [modifyFirst, hfirst, hsecond, hchange, hother, hcommute head hfirst hsecond]
      | false => simp [modifyFirst, hfirst, hsecond, hchange]
    | false =>
      cases hsecond : second head with
      | true => simp [modifyFirst, hfirst, hsecond, hother]
      | false => simp [modifyFirst, hfirst, hsecond, ih]

/-- An element that is put and then changed is put as it is changed. -/
theorem modifyFirst_putFirst {test : α → Bool} {element : α} (change : α → α)
    (htest : test element = true) (list : List α) :
    modifyFirst test change (putFirst test element list) =
      putFirst test (change element) list := by
  induction list with
  | nil => simp [putFirst, modifyFirst, htest]
  | cons head rest ih => cases hhead : test head <;> simp [putFirst, modifyFirst, hhead, htest, ih]

/-- Putting an element does not get in the way of a change that means other ones. -/
theorem putFirst_modifyFirst {test other : α → Bool} {change : α → α} {element : α}
    (hapart : ∀ old, test old = true → other old = false)
    (hkeep : ∀ old, other (change old) = other old) (helement : test element = false)
    (list : List α) :
    putFirst other element (modifyFirst test change list) =
      modifyFirst test change (putFirst other element list) := by
  induction list with
  | nil => simp [putFirst, modifyFirst, helement]
  | cons head rest ih =>
    cases htest : test head with
    | true => simp [putFirst, modifyFirst, htest, hkeep, hapart head htest]
    | false =>
      cases hother : other head with
      | true => simp [putFirst, modifyFirst, htest, hother, helement]
      | false => simp [putFirst, modifyFirst, htest, hother, ih]

/-- The first match is found changed. -/
theorem find?_modifyFirst {test : α → Bool} {change : α → α}
    (hkeep : ∀ element, test (change element) = test element) (list : List α) :
    (modifyFirst test change list).find? test = (list.find? test).map change := by
  induction list with
  | nil => rfl
  | cons head rest ih =>
    cases htest : test head <;> simp [modifyFirst, htest, hkeep, ih]

/-- What another test finds is found as it was, unless both can mean it. -/
theorem find?_modifyFirst_of_apart {test other : α → Bool} {change : α → α}
    (hapart : ∀ element, test element = true → other element = false)
    (hkeep : ∀ element, other (change element) = other element) (list : List α) :
    (modifyFirst test change list).find? other = list.find? other := by
  induction list with
  | nil => rfl
  | cons head rest ih =>
    cases htest : test head with
    | true => simp [modifyFirst, htest, hkeep, hapart head htest]
    | false => simp [modifyFirst, List.find?_cons, htest, ih]

/-- A change that leaves the first match as it is leaves every element as it is. -/
theorem modifyFirst_eq_self {test : α → Bool} {change : α → α} {list : List α}
    (hsame : ∀ first, list.find? test = some first → change first = first) :
    modifyFirst test change list = list := by
  induction list with
  | nil => rfl
  | cons head rest ih =>
    rw [modifyFirst]
    cases htest : test head with
    | true => rw [if_pos rfl, hsame head (by rw [List.find?_cons, htest])]
    | false =>
      rw [if_neg Bool.false_ne_true]
      rw [ih fun first hfirst => hsame first (by rw [List.find?_cons, htest, hfirst])]

theorem modifyFirst_id (test : α → Bool) (list : List α) :
    modifyFirst test (fun element => element) list = list := by
  induction list with
  | nil => rfl
  | cons head rest ih => rw [modifyFirst]; split <;> simp [ih]

section Named

variable (view : α → String)

theorem distinctNames_cons {first : α} {rest : List α} :
    DistinctNames ((first :: rest).map view) ↔
      (∀ other ∈ rest, Text.sameName (view first) (view other) = false) ∧
        DistinctNames (rest.map view) := by
  rw [DistinctNames, DistinctNames, List.map_cons, List.pairwise_cons, List.forall_mem_map]

/-- An element takes the place of one with the same name up to case, so the
names stay distinct. -/
theorem distinctNames_putFirst (element : α) {list : List α}
    (hdistinct : DistinctNames (list.map view)) :
    DistinctNames ((putFirst (fun old => Text.sameName (view old) (view element)) element
      list).map view) := by
  induction list with
  | nil => exact List.pairwise_singleton _ _
  | cons first rest ih =>
    obtain ⟨hfirst, hrest⟩ := (distinctNames_cons view).1 hdistinct
    rw [putFirst]
    split
    · rename_i hsame
      refine (distinctNames_cons view).2 ⟨?_, hrest⟩
      intro other hother
      rw [← Text.sameName_congr hsame]
      exact hfirst other hother
    · rename_i hdiffer
      refine (distinctNames_cons view).2 ⟨?_, ih hrest⟩
      intro other hother
      rcases mem_putFirst hother with rfl | hold
      · simpa using hdiffer
      · exact hfirst other hold

/-- Where names are distinct, no other element of the same name stays. -/
theorem mem_putFirst_of_distinctNames {element other : α} {list : List α}
    (hdistinct : DistinctNames (list.map view))
    (hmem : other ∈ putFirst (fun old => Text.sameName (view old) (view element)) element list) :
    other = element ∨ other ∈ list ∧ Text.sameName (view other) (view element) = false := by
  induction list with
  | nil => simpa [putFirst] using hmem
  | cons first rest ih =>
    obtain ⟨hfirst, hrest⟩ := (distinctNames_cons view).1 hdistinct
    rw [putFirst] at hmem
    split at hmem
    · rename_i hsame
      rcases List.mem_cons.1 hmem with rfl | hold
      · exact Or.inl rfl
      · refine Or.inr ⟨List.mem_cons_of_mem first hold, ?_⟩
        rw [Text.sameName_comm, ← Text.sameName_congr hsame]
        exact hfirst other hold
    · rename_i hdiffer
      rcases List.mem_cons.1 hmem with rfl | hold
      · exact Or.inr ⟨List.mem_cons_self, (Bool.not_eq_true _).mp hdiffer⟩
      · exact (ih hrest hold).imp_right fun hkept => ⟨List.mem_cons_of_mem first hkept.1, hkept.2⟩

/-- A name that is not found can be added. -/
theorem distinctNames_concat {element : α} {list : List α}
    (hdistinct : DistinctNames (list.map view))
    (hfree : list.find? (fun old => Text.sameName (view old) (view element)) = none) :
    DistinctNames ((list ++ [element]).map view) := by
  rw [DistinctNames, List.map_append]
  refine List.pairwise_append.2 ⟨hdistinct, List.pairwise_singleton _ _, ?_⟩
  intro first hfirst second hsecond
  obtain ⟨old, hold, rfl⟩ := List.mem_map.1 hfirst
  obtain rfl := List.mem_singleton.1 hsecond
  simpa using List.find?_eq_none.1 hfree old hold

/-- An element of a new name is put at the end. -/
theorem putFirst_of_distinctNames (element : α) {list : List α}
    (hdistinct : DistinctNames ((list ++ [element]).map view)) :
    putFirst (fun old => Text.sameName (view old) (view element)) element list =
      list ++ [element] := by
  apply putFirst_of_none
  rw [List.find?_eq_none]
  intro old hold
  rw [DistinctNames, List.map_append, List.pairwise_append] at hdistinct
  have hdiffer := hdistinct.2.2 (view old) (List.mem_map_of_mem hold) (view element) (by simp)
  simp [hdiffer]

/-- A lookup by the exact name of an element finds that element. -/
theorem find?_of_distinctNames {element : α} {list : List α}
    (hdistinct : DistinctNames (list.map view)) (hmem : element ∈ list) :
    list.find? (fun other => Text.sameName (view other) (view element)) = some element := by
  induction list with
  | nil => simp at hmem
  | cons first rest ih =>
    obtain ⟨hfirst, hrest⟩ := (distinctNames_cons view).1 hdistinct
    rcases List.mem_cons.1 hmem with rfl | htail
    · simp
    · rw [List.find?_cons, hfirst element htail]
      exact ih hrest htail

/-- Elements of a list of distinct names that agree in their names are the same. -/
theorem eq_of_distinctNames {left right : α} {list : List α}
    (hdistinct : DistinctNames (list.map view)) (hleft : left ∈ list) (hright : right ∈ list)
    (hsame : Text.sameName (view left) (view right) = true) : left = right := by
  have hfound := find?_of_distinctNames view hdistinct hright
  simp only [← Text.sameName_congr_right hsame] at hfound
  rw [find?_of_distinctNames view hdistinct hleft] at hfound
  exact Option.some.inj hfound

/-- Where names are distinct, changing the first element of a name changes every
element of that name. -/
theorem modifyFirst_eq_map {list : List α} (hdistinct : DistinctNames (list.map view))
    (name : String) (change : α → α) :
    modifyFirst (fun other => Text.sameName (view other) name) change list =
      list.map fun other => if Text.sameName (view other) name then change other else other := by
  induction list with
  | nil => rfl
  | cons first rest ih =>
    obtain ⟨hfirst, hrest⟩ := (distinctNames_cons view).1 hdistinct
    rw [modifyFirst]
    split
    · rename_i hsame
      rw [List.map_cons, if_pos hsame]
      congr 1
      symm
      calc
        rest.map (fun other => if Text.sameName (view other) name then change other else other) =
            rest.map id := by
          apply List.map_congr_left
          intro other hother
          have hdiffer : Text.sameName (view other) name = false := by
            rw [← Text.sameName_congr_right hsame, Text.sameName_comm]
            exact hfirst other hother
          simp [hdiffer]
        _ = rest := List.map_id rest
    · rename_i hdiffer
      rw [List.map_cons, if_neg hdiffer, ih hrest]

end Named

end Crowfoot
