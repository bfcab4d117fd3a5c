import Crowfoot.Proofs.Text.Blanks
import Crowfoot.Proofs.Text.Boundary
import Crowfoot.Proofs.Text.Classes
import Crowfoot.Sql.Batch

/-!
# Separators

A line that holds the word `GO` and nothing else separates batches, and its two letters
are overwritten.  All other characters stay where they are, and the letters and what is
written over them are of the same size, so that byte offsets mean the same in the text
and in the script that is read.
-/

namespace Crowfoot.Sql

/-- The line holds the word `GO`, in any ASCII case, and nothing else but blanks. -/
def IsSeparator (line : List Char) : Prop :=
  Text.sameText (Text.trim line) ['G', 'O'] = true

/-- The word of a separator stands at the byte offset. -/
def SeparatorAt (text : List Char) (offset : Nat) : Prop :=
  ∃ before line after, Text.linesOf text = before ++ line :: after ∧ IsSeparator line ∧
    offset = Text.byteLength before.flatten + Text.byteLength (line.takeWhile Text.isBlank)

/-- One of the two letters of a separator stands at the byte offset. -/
def IsSeparatorLetter (text : List Char) (offset : Nat) : Prop :=
  ∃ word, SeparatorAt text word ∧ (offset = word ∨ offset = word + 1)

/-- Every character of the part that stands at the byte offset of the text is kept, or it
is a letter of a separator and overwritten by a character of the same size. -/
inductive Overwrites (text : List Char) : Nat → List Char → List Char → Prop
  | nil (offset : Nat) : Overwrites text offset [] []
  | cons {offset : Nat} {c written : Char} {part rest : List Char}
      (hsize : written.utf8Size = c.utf8Size)
      (hletter : written ≠ c → IsSeparatorLetter text offset)
      (hrest : Overwrites text (offset + c.utf8Size) part rest) :
      Overwrites text offset (c :: part) (written :: rest)

/-! ## One line -/

section Line

variable {line : List Char}

/-- A separator is blanks, the two letters and more blanks, and just the letters are
overwritten. -/
theorem IsSeparator.exists_letters (hline : IsSeparator line) :
    ∃ first second back, (first = 'g' ∨ first = 'G') ∧ (second = 'o' ∨ second = 'O') ∧
      line = line.takeWhile Text.isBlank ++ first :: second :: back ∧
      separateBatch line = line.takeWhile Text.isBlank ++ ';' :: ' ' :: back := by
  have hfold : (Text.trim line).map Char.toLower = ['g', 'o'] := Text.sameText_iff.1 hline
  obtain ⟨first, second', htrim, hfirst, htail⟩ := List.map_eq_cons_iff.1 hfold
  obtain ⟨second, rest, rfl, hsecond, hrest⟩ := List.map_eq_cons_iff.1 htail
  obtain rfl := List.map_eq_nil_iff.1 hrest
  obtain ⟨back, hparts, hback⟩ := Text.exists_trim_append line
  rw [htrim, List.cons_append, List.cons_append, List.nil_append] at hparts
  have hdrop : line.dropWhile Text.isBlank = first :: second :: back := by
    have happend := List.takeWhile_append_dropWhile (p := Text.isBlank) (l := line)
    exact List.append_cancel_left (happend.trans hparts)
  refine ⟨first, second, back, Text.eq_of_toLower hfirst (by decide),
    Text.eq_of_toLower hsecond (by decide), hparts, ?_⟩
  have hsame : Text.sameText [first, second] ['g', 'o'] = true := by
    rw [Text.sameText_iff, Text.foldCase, List.map_cons, List.map_singleton, hfirst, hsecond]
    rfl
  simp only [separateBatch, hdrop]
  rw [hsame, List.all_eq_true.2 hback]
  rfl

/-- All other lines are kept. -/
theorem separateBatch_of_not_isSeparator (hline : ¬ IsSeparator line) :
    separateBatch line = line := by
  rw [separateBatch]
  split
  · rename_i first second back hdrop
    refine if_neg fun hgo => hline ?_
    obtain ⟨hsame, hback⟩ := Bool.and_eq_true_iff.1 hgo
    obtain ⟨hfirst, hsecond, -⟩ : first.toLower = 'g' ∧ second.toLower = 'o' ∧ True := by
      simpa [Text.sameText_iff, Text.foldCase] using hsame
    have hstart : Text.isBlank first = false := by
      rcases Text.eq_of_toLower hfirst (by decide) with rfl | rfl <;> decide
    have hend : Text.isBlank second = false := by
      rcases Text.eq_of_toLower hsecond (by decide) with rfl | rfl <;> decide
    have hparts : line = line.takeWhile Text.isBlank ++ (first :: [second] ++ back) := by
      rw [List.cons_append, List.singleton_append, ← hdrop, List.takeWhile_append_dropWhile]
    have htrim : Text.trim line = [first, second] := by
      rw [hparts, Text.trim_append (fun c => List.mem_takeWhile_imp) (List.all_eq_true.1 hback)
        hstart]
      exact Text.trim_eq_self (by simpa using hstart) (by simpa using hend)
    rw [IsSeparator, htrim]
    exact hsame
  · rfl

/-- Whether separators are overwritten or not looks the same to a view that does not tell
the letters from what is written over them. -/
theorem map_separateBatch {α : Type} (view : Char → α)
    (hfirst : view 'g' = view ';' ∧ view 'G' = view ';')
    (hsecond : view 'o' = view ' ' ∧ view 'O' = view ' ') (line : List Char) :
    (separateBatch line).map view = line.map view := by
  by_cases hline : IsSeparator line
  · obtain ⟨first, second, back, hf, hs, hparts, hwritten⟩ := hline.exists_letters
    have hview : view first = view ';' ∧ view second = view ' ' :=
      ⟨by rcases hf with rfl | rfl; exacts [hfirst.1, hfirst.2],
        by rcases hs with rfl | rfl; exacts [hsecond.1, hsecond.2]⟩
    calc
      (separateBatch line).map view =
          (line.takeWhile Text.isBlank).map view ++ view ';' :: view ' ' :: back.map view := by
        rw [hwritten, List.map_append, List.map_cons, List.map_cons]
      _ = (line.takeWhile Text.isBlank ++ first :: second :: back).map view := by
        rw [List.map_append, List.map_cons, List.map_cons, hview.1, hview.2]
      _ = line.map view := by rw [← hparts]
  · rw [separateBatch_of_not_isSeparator hline]

theorem separateBatch_separateBatch (line : List Char) :
    separateBatch (separateBatch line) = separateBatch line := by
  by_cases hline : IsSeparator line
  · obtain ⟨first, second, back, -, -, -, hwritten⟩ := hline.exists_letters
    have hdrop : (separateBatch line).dropWhile Text.isBlank = ';' :: ' ' :: back := by
      rw [hwritten, List.dropWhile_append_of_pos fun c => List.mem_takeWhile_imp]
      rfl
    rw [separateBatch, hdrop]
    rfl
  · rw [separateBatch_of_not_isSeparator hline, separateBatch_of_not_isSeparator hline]

end Line

/-! ## Overwriting -/

section Overwrites

variable {text : List Char} {offset : Nat}

theorem overwrites_refl (part : List Char) : Overwrites text offset part part := by
  induction part generalizing offset with
  | nil => exact .nil offset
  | cons c rest ih => exact .cons rfl (fun hdiffer => absurd rfl hdiffer) ih

theorem Overwrites.append {left right first second : List Char}
    (hleft : Overwrites text offset left first)
    (hright : Overwrites text (offset + Text.byteLength left) right second) :
    Overwrites text offset (left ++ right) (first ++ second) := by
  induction hleft with
  | nil => exact hright
  | cons hsize hletter _ ih =>
    refine .cons hsize hletter (ih ?_)
    rwa [Nat.add_assoc, ← Text.byteLength_cons]

/-- What stands behind a first part of the written text is written over what stands behind
a part of the same size. -/
theorem Overwrites.exists_of_append {part front back : List Char}
    (hwhole : Overwrites text offset part (front ++ back)) :
    ∃ left right, part = left ++ right ∧ Text.byteLength left = Text.byteLength front ∧
      Overwrites text offset left front ∧
      Overwrites text (offset + Text.byteLength front) right back := by
  induction front generalizing part offset with
  | nil => exact ⟨[], part, rfl, rfl, .nil offset, hwhole⟩
  | cons written front ih =>
    cases hwhole with
    | @cons _ c _ part _ hsize hletter hrest =>
      obtain ⟨left, right, rfl, hlength, hleft, hright⟩ := ih hrest
      refine ⟨c :: left, right, rfl, ?_, .cons hsize hletter hleft, ?_⟩
      · rw [Text.byteLength_cons, Text.byteLength_cons, hlength, hsize]
      · rwa [Text.byteLength_cons, hsize, ← Nat.add_assoc]

/-- In a line just the letters of a separator are overwritten. -/
theorem overwrites_separateBatch {before after : List (List Char)} {line : List Char}
    (hlines : Text.linesOf text = before ++ line :: after) :
    Overwrites text (Text.byteLength before.flatten) line (separateBatch line) := by
  by_cases hline : IsSeparator line
  · obtain ⟨first, second, back, hfirst, hsecond, hparts, hwritten⟩ := hline.exists_letters
    have hword : SeparatorAt text
        (Text.byteLength before.flatten + Text.byteLength (line.takeWhile Text.isBlank)) :=
      ⟨before, line, after, hlines, hline, rfl⟩
    have hsizes : first.utf8Size = 1 ∧ second.utf8Size = 1 :=
      ⟨by rcases hfirst with rfl | rfl <;> rfl, by rcases hsecond with rfl | rfl <;> rfl⟩
    have hletters : Overwrites text
        (Text.byteLength before.flatten + Text.byteLength (line.takeWhile Text.isBlank))
        (first :: second :: back) (';' :: ' ' :: back) := by
      refine .cons hsizes.1.symm (fun _ => ⟨_, hword, Or.inl rfl⟩) ?_
      rw [hsizes.1]
      exact .cons hsizes.2.symm (fun _ => ⟨_, hword, Or.inr rfl⟩) (overwrites_refl back)
    have hall := (overwrites_refl (line.takeWhile Text.isBlank)).append hletters
    rwa [← hparts, ← hwritten] at hall
  · rw [separateBatch_of_not_isSeparator hline]
    exact overwrites_refl line

theorem overwrites_flatMap (before : List (List Char)) {lines : List (List Char)}
    (hlines : Text.linesOf text = before ++ lines) :
    Overwrites text (Text.byteLength before.flatten) lines.flatten
      (lines.flatMap separateBatch) := by
  induction lines generalizing before with
  | nil => exact .nil _
  | cons line rest ih =>
    rw [List.flatten_cons, List.flatMap_cons]
    refine (overwrites_separateBatch hlines).append ?_
    have hrest := ih (before ++ [line]) (by rw [hlines, List.append_assoc, List.singleton_append])
    rwa [List.flatten_append, List.flatten_singleton, Text.byteLength_append] at hrest

/-- The script that is read is the text with letters of separators overwritten. -/
theorem overwrites_separateBatches (text : List Char) :
    Overwrites text 0 text (separateBatches text) := by
  have hall : Overwrites text 0 (Text.linesOf text).flatten (separateBatches text) :=
    overwrites_flatMap [] rfl
  rwa [Text.flatten_linesOf] at hall

end Overwrites

/-! ## All lines -/

/-- Texts that break at the same places have lines of the same lengths. -/
theorem map_length_linesOf {left right : List Char}
    (hbreaks : left.map (· == '\n') = right.map (· == '\n')) :
    (Text.linesOf left).map List.length = (Text.linesOf right).map List.length := by
  induction left generalizing right with
  | nil => rw [List.map_eq_nil_iff.1 hbreaks.symm]
  | cons c rest ih =>
    obtain ⟨d, others, rfl, hbreak, hothers⟩ := List.map_eq_cons_iff.1 hbreaks.symm
    have hlengths := ih hothers.symm
    have hsame : c = '\n' ↔ d = '\n' := by
      rw [← beq_iff_eq, ← beq_iff_eq (a := d), hbreak]
    rw [Text.linesOf, Text.linesOf]
    by_cases hc : c = '\n'
    · rw [if_pos hc, if_pos (hsame.1 hc), List.map_cons, List.map_cons, hlengths]
      rfl
    · rw [if_neg hc, if_neg (mt hsame.2 hc)]
      cases hleft : Text.linesOf rest <;> cases hright : Text.linesOf others <;>
        simp_all

theorem map_separateBatches {α : Type} (view : Char → α)
    (hfirst : view 'g' = view ';' ∧ view 'G' = view ';')
    (hsecond : view 'o' = view ' ' ∧ view 'O' = view ' ') (text : List Char) :
    (separateBatches text).map view = text.map view := by
  calc
    (separateBatches text).map view =
        (Text.linesOf text).flatMap fun line => (separateBatch line).map view := by
      rw [separateBatches, List.map_flatMap]
    _ = (Text.linesOf text).flatMap fun line => line.map view := by
      simp only [map_separateBatch view hfirst hsecond]
    _ = (Text.linesOf text).flatten.map view := by
      rw [← List.flatMap_id, List.map_flatMap]
      rfl
    _ = text.map view := by rw [Text.flatten_linesOf]

/-- Overwriting separators changes the size of no character. -/
theorem map_utf8Size_separateBatches (text : List Char) :
    (separateBatches text).map Char.utf8Size = text.map Char.utf8Size :=
  map_separateBatches Char.utf8Size (by decide) (by decide) text

/-- The lines of the script that is read are those of the text, each for itself. -/
theorem linesOf_separateBatches (text : List Char) :
    Text.linesOf (separateBatches text) = (Text.linesOf text).map separateBatch := by
  rw [List.eq_iff_flatten_eq]
  refine ⟨by rw [Text.flatten_linesOf, separateBatches, List.flatMap_def], ?_⟩
  have hbreaks := map_separateBatches (· == '\n') (by decide) (by decide) text
  rw [map_length_linesOf hbreaks, List.map_map]
  refine List.map_congr_left fun line _ => ?_
  have hlength := congrArg List.length
    (map_separateBatch Char.utf8Size (by decide) (by decide) line)
  rw [List.length_map, List.length_map] at hlength
  exact hlength.symm

/-- In the script that is read no separators are left. -/
theorem separateBatches_separateBatches (text : List Char) :
    separateBatches (separateBatches text) = separateBatches text := by
  rw [separateBatches, linesOf_separateBatches, List.flatMap_map]
  simp only [separateBatch_separateBatch]
  rfl

/-- A semicolon and a space stand where a separator was. -/
theorem standsAt_of_separatorAt {text : List Char} {offset : Nat}
    (hword : SeparatorAt text offset) :
    Text.StandsAt (separateBatches text) [';', ' '] offset := by
  obtain ⟨before, line, after, hlines, hline, rfl⟩ := hword
  obtain ⟨first, second, back, -, -, -, hwritten⟩ := hline.exists_letters
  have hbefore : Text.byteLength (before.flatMap separateBatch) =
      Text.byteLength before.flatten := by
    apply Text.byteLength_eq_of_map_utf8Size
    have hline (line : List Char) := map_separateBatch Char.utf8Size (by decide) (by decide) line
    rw [List.map_flatMap, List.map_flatten, ← List.flatMap_def]
    simp only [hline]
  refine ⟨before.flatMap separateBatch ++ line.takeWhile Text.isBlank,
    back ++ after.flatMap separateBatch, ?_, ?_⟩
  · rw [separateBatches, hlines, List.flatMap_append, List.flatMap_cons, hwritten]
    simp
  · rw [Text.byteLength_append, hbefore]

end Crowfoot.Sql
