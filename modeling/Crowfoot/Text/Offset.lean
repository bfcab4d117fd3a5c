/-!
# Offsets

Positions in a text are counted in UTF-8 bytes; editors that count in UTF-16 code units get them
converted.
-/

namespace Crowfoot.Text

/-- The number of bytes of a text in UTF-8. -/
def byteLength (text : List Char) : Nat :=
  text.foldr (fun c bytes => c.utf8Size + bytes) 0

/-- The number of code units of a character in UTF-16. -/
def unitSize (c : Char) : Nat :=
  if c.toNat < 0x10000 then 1 else 2

/-- The number of code units of a text in UTF-16. -/
def unitLength (text : List Char) : Nat :=
  text.foldr (fun c units => unitSize c + units) 0

/-- The part of a text in front of a byte offset, if the offset lies between two characters. -/
def beforeByte? (text : List Char) (offset : Nat) : Option (List Char) :=
  match text with
  | [] => if offset = 0 then some [] else none
  | c :: rest =>
    if offset = 0 then
      some []
    else if c.utf8Size ≤ offset then
      (beforeByte? rest (offset - c.utf8Size)).map (c :: ·)
    else
      none

/-- The UTF-16 offset of a byte offset; one that splits a character or passes the end counts as
the end. -/
def unitOffset (text : List Char) (offset : Nat) : Nat :=
  unitLength ((beforeByte? text offset).getD text)

@[simp] theorem byteLength_nil : byteLength [] = 0 := rfl

@[simp] theorem byteLength_cons (c : Char) (rest : List Char) :
    byteLength (c :: rest) = c.utf8Size + byteLength rest := rfl

@[simp] theorem byteLength_append (left right : List Char) :
    byteLength (left ++ right) = byteLength left + byteLength right := by
  induction left with
  | nil => simp
  | cons c rest ih => simp [ih, Nat.add_assoc]

@[simp] theorem unitLength_nil : unitLength [] = 0 := rfl

@[simp] theorem unitLength_cons (c : Char) (rest : List Char) :
    unitLength (c :: rest) = unitSize c + unitLength rest := rfl

@[simp] theorem unitLength_append (left right : List Char) :
    unitLength (left ++ right) = unitLength left + unitLength right := by
  induction left with
  | nil => simp
  | cons c rest ih => simp [ih, Nat.add_assoc]

/-- The offset after a first part gives that part back. -/
theorem beforeByte?_append (left right : List Char) :
    beforeByte? (left ++ right) (byteLength left) = some left := by
  induction left with
  | nil => cases right <;> simp [beforeByte?]
  | cons c rest ih =>
    have hpos := Char.utf8Size_pos c
    have hne : c.utf8Size + byteLength rest ≠ 0 := by omega
    simp only [List.cons_append, beforeByte?, byteLength_cons, if_neg hne]
    simp [ih]

end Crowfoot.Text
