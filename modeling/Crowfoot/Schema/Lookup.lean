/-!
# First matches

Tables and columns are found by name, and the first match counts. These functions change or replace
the first element of a list that passes a test.
-/

namespace Crowfoot

variable {α : Type}

/-- Changes the first element that passes the test. -/
def modifyFirst (test : α → Bool) (change : α → α) : List α → List α
  | [] => []
  | first :: rest =>
    if test first then change first :: rest else first :: modifyFirst test change rest

/-- Puts an element in the place of the first one that passes the test, or at the end. -/
def putFirst (test : α → Bool) (element : α) : List α → List α
  | [] => [element]
  | first :: rest =>
    if test first then element :: rest else first :: putFirst test element rest

@[simp] theorem length_modifyFirst (test : α → Bool) (change : α → α) (list : List α) :
    (modifyFirst test change list).length = list.length := by
  induction list with
  | nil => rfl
  | cons first rest ih => unfold modifyFirst; split <;> simp [ih]

/-- A change that keeps a view of every element keeps the views of the list. -/
theorem map_modifyFirst {β : Type} (view : α → β) {test : α → Bool} {change : α → α}
    (hkeep : ∀ element, view (change element) = view element) (list : List α) :
    (modifyFirst test change list).map view = list.map view := by
  induction list with
  | nil => rfl
  | cons first rest ih => unfold modifyFirst; split <;> simp [ih, hkeep]

/-- With no match an element goes to the end. -/
theorem putFirst_of_none {test : α → Bool} {element : α} {list : List α}
    (hnone : list.find? test = none) : putFirst test element list = list ++ [element] := by
  induction list with
  | nil => rfl
  | cons first rest ih =>
    rw [List.find?_cons] at hnone
    cases htest : test first <;> simp_all [putFirst]

end Crowfoot
