/-!
# Lines

A text is cut after every line feed; the last line may lack one.
-/

namespace Crowfoot.Text

/-- The lines of a text, each with the line feed that ends it. -/
def linesOf : List Char → List (List Char)
  | [] => []
  | c :: rest =>
    if c = '\n' then
      [c] :: linesOf rest
    else
      match linesOf rest with
      | [] => [[c]]
      | line :: lines => (c :: line) :: lines

/-- The lines make up the text. -/
theorem flatten_linesOf (text : List Char) : (linesOf text).flatten = text := by
  fun_induction linesOf text with
  | case1 => rfl
  | case2 rest ih => simp [ih]
  | case3 c rest hne hnil ih => simp_all
  | case4 c rest hne line lines hlines ih => simp_all

end Crowfoot.Text
