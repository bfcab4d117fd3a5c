import Crowfoot.Text.Offset
import Mathlib.Data.List.Basic

/-!
# Boundaries

A byte offset is a boundary of a text when it lies between two characters or at
an end of the text.  Boundaries are the offsets that mean something in other
units too: counted in UTF-16 code units they keep their order.
-/

namespace Crowfoot.Text

/-- The offset lies between two characters of the text or at one of its ends. -/
def IsBoundary (text : List Char) (offset : Nat) : Prop :=
  ∃ before after, text = before ++ after ∧ byteLength before = offset

theorem isBoundary_zero (text : List Char) : IsBoundary text 0 :=
  ⟨[], text, rfl, rfl⟩

theorem isBoundary_byteLength (text : List Char) : IsBoundary text (byteLength text) :=
  ⟨text, [], (List.append_nil text).symm, rfl⟩

theorem IsBoundary.le {text : List Char} {offset : Nat} (hboundary : IsBoundary text offset) :
    offset ≤ byteLength text := by
  obtain ⟨before, after, rfl, rfl⟩ := hboundary
  rw [byteLength_append]
  exact Nat.le_add_right _ _

theorem byteLength_pos {text : List Char} (hsome : text ≠ []) : 0 < byteLength text := by
  obtain ⟨c, rest, rfl⟩ := List.exists_cons_of_ne_nil hsome
  have hpos := Char.utf8Size_pos c
  rw [byteLength_cons]
  omega

theorem unitSize_pos (c : Char) : 0 < unitSize c := by
  rw [unitSize]
  split <;> omega

theorem unitLength_pos {text : List Char} (hsome : text ≠ []) : 0 < unitLength text := by
  obtain ⟨c, rest, rfl⟩ := List.exists_cons_of_ne_nil hsome
  have hpos := unitSize_pos c
  rw [unitLength_cons]
  omega

/-- The code units in front of a boundary are those of the text in front of it. -/
theorem unitOffset_append (before after : List Char) :
    unitOffset (before ++ after) (byteLength before) = unitLength before := by
  rw [unitOffset, beforeByte?_append, Option.getD_some]

theorem unitOffset_zero (text : List Char) : unitOffset text 0 = 0 :=
  unitOffset_append [] text

theorem unitOffset_byteLength (text : List Char) :
    unitOffset text (byteLength text) = unitLength text := by
  have hall := unitOffset_append text []
  rwa [List.append_nil] at hall

/-- Boundaries keep their order when code units are counted instead of bytes. -/
theorem IsBoundary.unitOffset_lt {text : List Char} {first second : Nat}
    (hfirst : IsBoundary text first) (hsecond : IsBoundary text second) (hlt : first < second) :
    unitOffset text first < unitOffset text second := by
  obtain ⟨before, after, rfl, rfl⟩ := hfirst
  obtain ⟨before', after', hsame, rfl⟩ := hsecond
  rw [unitOffset_append, hsame, unitOffset_append]
  rcases List.append_eq_append_iff.1 hsame with ⟨between, rfl, -⟩ | ⟨between, rfl, -⟩
  · have hsome : between ≠ [] := by
      rintro rfl
      simp at hlt
    have hpos := unitLength_pos hsome
    rw [unitLength_append]
    omega
  · rw [byteLength_append] at hlt
    omega

/-- The part stands in the text at the byte offset. -/
def StandsAt (text part : List Char) (offset : Nat) : Prop :=
  ∃ before after, text = before ++ (part ++ after) ∧ byteLength before = offset

section StandsAt

variable {text part : List Char} {offset : Nat}

theorem StandsAt.isBoundary_start (hstands : StandsAt text part offset) :
    IsBoundary text offset := by
  obtain ⟨before, after, rfl, rfl⟩ := hstands
  exact ⟨before, part ++ after, rfl, rfl⟩

theorem StandsAt.isBoundary_stop (hstands : StandsAt text part offset) :
    IsBoundary text (offset + byteLength part) := by
  obtain ⟨before, after, rfl, rfl⟩ := hstands
  exact ⟨before ++ part, after, (List.append_assoc before part after).symm,
    byteLength_append before part⟩

theorem StandsAt.append_left (front : List Char) (hstands : StandsAt text part offset) :
    StandsAt (front ++ text) part (byteLength front + offset) := by
  obtain ⟨before, after, rfl, rfl⟩ := hstands
  exact ⟨front ++ before, after, (List.append_assoc front before _).symm,
    byteLength_append front before⟩

theorem StandsAt.append_right (back : List Char) (hstands : StandsAt text part offset) :
    StandsAt (text ++ back) part offset := by
  obtain ⟨before, after, rfl, rfl⟩ := hstands
  exact ⟨before, after ++ back, by simp, rfl⟩

end StandsAt

theorem byteLength_eq_of_map_utf8Size {left right : List Char}
    (hsizes : left.map Char.utf8Size = right.map Char.utf8Size) :
    byteLength left = byteLength right := by
  induction left generalizing right with
  | nil => rw [List.map_eq_nil_iff.1 hsizes.symm]
  | cons c rest ih =>
    obtain ⟨d, others, rfl, hsize, hothers⟩ := List.map_eq_cons_iff.1 hsizes.symm
    rw [byteLength_cons, byteLength_cons, hsize, ih hothers.symm]

/-- Where the boundaries of a text lie depends on the sizes of its characters only. -/
theorem IsBoundary.of_map_utf8Size {left right : List Char} {offset : Nat}
    (hsizes : left.map Char.utf8Size = right.map Char.utf8Size)
    (hboundary : IsBoundary left offset) : IsBoundary right offset := by
  obtain ⟨before, after, rfl, rfl⟩ := hboundary
  rw [List.map_append] at hsizes
  obtain ⟨before', after', rfl, hbefore, -⟩ := List.map_eq_append_iff.1 hsizes.symm
  exact ⟨before', after', rfl, byteLength_eq_of_map_utf8Size hbefore⟩

end Crowfoot.Text
