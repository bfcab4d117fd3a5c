import Crowfoot.Text.ColumnTable

/-!
# Ligatures

Characters of several scripts merge with characters before them and fill fewer columns together
than apart. A ligature is found from its end: its last character starts it, and the characters in
front of that carry it on or complete it.
-/

namespace Crowfoot.Text

/-- What has been met of a ligature, by its end. -/
inductive Ligature where
  /-- An Arabic alef, which merges with a lam. -/
  | alef
  /-- A Hebrew lamed, which merges with an alef across a joiner. -/
  | lamed
  /-- A Buginese ya. -/
  | ya
  /-- The Buginese vowel sign i in front of a joined ya; it merges with the letter a. -/
  | signedYa
  /-- A Tifinagh consonant, which merges with another one across a joiner. -/
  | consonant
  /-- The consonant joiner of Tifinagh in front of a consonant. -/
  | joinedConsonant
  /-- A second tone letter of Lisu, which merges with a first one. -/
  | tone
  /-- The Old Turkic letter i, which merges with an ash across a joiner. -/
  | orkhonI
  /-- A Khmer letter that is written below the one before it after the sign coeng. -/
  | subscript
  /-- The Kirat Rai vowel sign e. -/
  | vowelE
  /-- The Kirat Rai vowel sign ai, or two vowel signs e. -/
  | vowelAi
  deriving DecidableEq, Repr

/-- The columns that a character adds to a ligature, and the ligature that goes on in front of
it. -/
structure Merge where
  columns : Int
  next : Option Ligature := none
  deriving DecidableEq, Repr

namespace Ligature

/-- The ligature that a character may be the end of. -/
def ofEnd? (codePoint : Nat) : Option Ligature :=
  if alefIntervals.has codePoint then some alef
  else if codePoint == 0x5DC then some lamed
  else if codePoint == 0x1A10 then some ya
  else if tifinaghIntervals.has codePoint then some consonant
  else if codePoint == 0xA4FC || codePoint == 0xA4FD then some tone
  else if codePoint == 0x10C03 then some orkhonI
  else if subscriptIntervals.has codePoint then some subscript
  else if codePoint == 0x16D67 then some vowelE
  else if codePoint == 0x16D68 then some vowelAi
  else none

/-- Joiners and ignorable marks may stand inside the ligature; marks of all kinds, but no joiner,
stand inside an Arabic one. -/
def admitsJoiner : Ligature → Bool
  | alef => false
  | _ => true

/-- What a character does in front of a ligature, if it belongs to it. A letter or sign that has
been counted and turns out to be drawn with others is taken off again. -/
def merge? (ligature : Ligature) (isJoined : Bool) (codePoint : Nat) : Option Merge :=
  match ligature with
  | alef => if lamIntervals.has codePoint then some ⟨0, none⟩ else none
  | lamed => if isJoined && codePoint == 0x5D0 then some ⟨0, none⟩ else none
  | ya => if isJoined && codePoint == 0x1A17 then some ⟨0, some signedYa⟩ else none
  | signedYa => if codePoint == 0x1A15 then some ⟨0, none⟩ else none
  | consonant =>
    if codePoint == 0x2D7F then some ⟨1, some joinedConsonant⟩
    else if isJoined && tifinaghIntervals.has codePoint then some ⟨0, none⟩
    else none
  | joinedConsonant => if tifinaghIntervals.has codePoint then some ⟨-1, none⟩ else none
  | tone => if 0xA4F8 ≤ codePoint && codePoint ≤ 0xA4FB then some ⟨0, none⟩ else none
  | orkhonI => if isJoined && codePoint == 0x10C32 then some ⟨0, none⟩ else none
  | subscript => if codePoint == 0x17D2 then some ⟨-1, none⟩ else none
  | vowelE =>
    if codePoint == 0x16D63 then some ⟨0, none⟩
    else if codePoint == 0x16D67 then some ⟨0, some vowelAi⟩
    else if codePoint == 0x16D68 then some ⟨1, some vowelE⟩
    else if codePoint == 0x16D69 then some ⟨0, none⟩
    else none
  | vowelAi => if codePoint == 0x16D63 then some ⟨0, none⟩ else none

end Ligature

end Crowfoot.Text
