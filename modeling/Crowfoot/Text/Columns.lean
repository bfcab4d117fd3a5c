import Crowfoot.Text.Ligature

/-!
# Display columns

How many columns a text fills in a monospaced view, and padding to a common width. East Asian wide
characters and emoji fill two columns, combining marks none, everything else one. An emoji sequence
(a base with a selector or a skin tone, a flag, or emoji joined by U+200D) fills the columns of one
emoji, and a ligature fewer than its characters. A text is measured from its end, for what a
character adds depends on what follows it.
-/

namespace Crowfoot.Text

/-- What asks for an emoji to be shown as a picture or as text. -/
inductive Selector where
  | picture
  | text
  deriving DecidableEq, Repr

/-- What stands between a joiner and the emoji sequence that it joins. -/
inductive JoinedTail where
  /-- Nothing. -/
  | start
  /-- The selector U+FE0F, perhaps with a keycap. -/
  | selected
  /-- A keycap. -/
  | keycap
  /-- Regional indicators, which form flags in pairs. -/
  | regional (isPaired : Bool)
  /-- The end of a tag sequence with some tag letters before it. -/
  | tagLetters (count : Nat)
  /-- A tag sequence with some tag digits before the letters. -/
  | tagDigits (count : Nat)
  deriving DecidableEq, Repr

/-- What the width of a character needs to know of the text after it. -/
inductive Follower where
  /-- Nothing that changes the width. -/
  | plain
  /-- A line feed, which takes a carriage return along. -/
  | lineFeed
  | selector (kind : Selector)
  /-- A skin tone. -/
  | skinTone
  /-- A regional indicator; there are several when it starts a flag. -/
  | regional (isSeveral : Bool)
  /-- A whole emoji. -/
  | emoji
  /-- The joiner U+200D in front of an emoji, and what comes before it. -/
  | joined (tail : JoinedTail)
  /-- The end of a ligature, a joiner in it, and the selector in front of it. -/
  | ligature (ligature : Ligature) (isJoined : Bool) (selector : Option Selector)
  deriving DecidableEq, Repr

/-- The columns that a character adds, and the role it plays for the one before it. -/
abbrev Measured := Int × Follower

/-- The width of a character by itself. -/
def plainWidth (codePoint : Nat) : Nat :=
  if codePoint < 0xA0 then 1
  else if codePoint == 0x17D8 then 3
  else if codePoint == 0x115F || codePoint == 0x17A4 then 2
  else if zeroColumnIntervals.has codePoint then 0
  else if twoColumnIntervals.has codePoint then 2
  else 1

/-- A skin tone for the emoji before it. -/
def isSkinTone (codePoint : Nat) : Bool :=
  0x1F3FB ≤ codePoint && codePoint ≤ 0x1F3FF

/-- A letter of a flag. -/
def isRegional (codePoint : Nat) : Bool :=
  0x1F1E6 ≤ codePoint && codePoint ≤ 0x1F1FF

/-- A letter of a tag sequence. -/
def isTagLetter (codePoint : Nat) : Bool :=
  0xE0061 ≤ codePoint && codePoint ≤ 0xE007A

/-- A digit of a tag sequence. -/
def isTagDigit (codePoint : Nat) : Bool :=
  0xE0030 ≤ codePoint && codePoint ≤ 0xE0039

/-- The role that a character by itself plays for the one before it. -/
def followerOf (codePoint : Nat) : Follower :=
  if codePoint == 0x0A then .lineFeed
  else if codePoint == 0xFE0F then .selector .picture
  else if codePoint == 0xFE0E then .selector .text
  else if isSkinTone codePoint then .skinTone
  else if isRegional codePoint then .regional false
  else if pictureIntervals.has codePoint then .emoji
  else
    match Ligature.ofEnd? codePoint with
    | some ligature => .ligature ligature false none
    | none => .plain

/-- The measure of a character to which nothing after it matters. -/
def measureAlone (codePoint : Nat) : Measured :=
  (plainWidth codePoint, followerOf codePoint)

/-- The measure of a character that is joined to an emoji. A flag of regional indicators or tags is
recognised by all its characters, so columns counted too early are taken off again. -/
def measureJoined (codePoint : Nat) (tail : JoinedTail) : Measured :=
  let alone := measureAlone codePoint
  match tail with
  | .start =>
    if codePoint == 0xFE0F then (0, .joined .selected)
    else if codePoint == 0x20E3 then (0, .joined .keycap)
    else if isRegional codePoint then (1, .joined (.regional false))
    else if isSkinTone codePoint then (0, .skinTone)
    else if codePoint == 0xE007F then (0, .joined (.tagLetters 0))
    else if pictureIntervals.has codePoint then (0, .emoji)
    else alone
  | .selected => if emojiIntervals.has codePoint then (0, .emoji) else alone
  | .keycap => if codePoint == 0xFE0F then (0, .joined .selected) else alone
  | .regional isPaired =>
    if isRegional codePoint then (if isPaired then 3 else -1, .joined (.regional (!isPaired)))
    else if isPaired && codePoint == 0x200D then (0, .joined .start)
    else alone
  | .tagLetters count =>
    if isTagLetter codePoint && count < 6 then (0, .joined (.tagLetters (count + 1)))
    else if isTagDigit codePoint && count ≤ 4 then (0, .joined (.tagDigits 1))
    else if codePoint == 0x1F3F4 && 3 ≤ count then (0, .emoji)
    else alone
  | .tagDigits count =>
    if isTagDigit codePoint && count < 3 then (0, .joined (.tagDigits (count + 1)))
    else if codePoint == 0x1F3F4 && count == 3 then (0, .emoji)
    else alone

/-- The character does not break an Arabic ligature: it fills no column and joins nothing. -/
def isTransparent (codePoint : Nat) : Bool :=
  plainWidth codePoint == 0 && !opaqueIntervals.has codePoint

/-- The measure of a character in front of a ligature that is under no selector. -/
def measureMerged (codePoint : Nat) (ligature : Ligature) (isJoined : Bool) : Measured :=
  if ligature.admitsJoiner && codePoint == 0x200D then
    (0, .ligature ligature true none)
  else if ligature.admitsJoiner && ignorableMarkIntervals.has codePoint then
    (0, .ligature ligature isJoined none)
  else if !ligature.admitsJoiner && isTransparent codePoint then
    (0, .ligature ligature isJoined none)
  else
    match ligature.merge? isJoined codePoint with
    | some merge =>
      (merge.columns,
        match merge.next with
        | some next => .ligature next false none
        | none => .plain)
    | none => measureAlone codePoint

/-- The columns that a character adds in front of a follower, and its own role. -/
def measureBefore (codePoint : Nat) (follower : Follower) : Measured :=
  let alone := measureAlone codePoint
  match follower with
  | .plain => alone
  | .lineFeed => if codePoint == 0x0D then (0, .plain) else alone
  | .selector .picture => if emojiIntervals.has codePoint then (2, .emoji) else alone
  | .selector .text => if textEmojiIntervals.has codePoint then (1, .plain) else alone
  | .skinTone =>
    if codePoint == 0x200D then (0, .joined .start)
    else if tonedEmojiIntervals.has codePoint then (0, .emoji)
    else alone
  | .regional isSeveral =>
    if isRegional codePoint then (1, .regional true)
    else if isSeveral && codePoint == 0x200D then (0, .joined .start)
    else alone
  | .emoji => if codePoint == 0x200D then (0, .joined .start) else alone
  | .joined tail => measureJoined codePoint tail
  | .ligature ligature isJoined selector =>
    if codePoint == 0xFE0F then (0, .ligature ligature isJoined (some .picture))
    else if codePoint == 0xFE0E then (0, .ligature ligature isJoined (some .text))
    else if selector == some .picture && emojiIntervals.has codePoint then (2, .emoji)
    else if selector == some .text && textEmojiIntervals.has codePoint then (1, .plain)
    else measureMerged codePoint ligature isJoined

/-- The columns of a text together with the role of its first character. -/
def measure (text : List Char) : Measured :=
  text.foldr (fun c (columns, follower) =>
    let (added, role) := measureBefore c.toNat follower
    (added + columns, role)) (0, .plain)

/-- The number of columns that a string fills. -/
def displayWidth (text : String) : Nat :=
  (measure text.toList).1.toNat

/-- The width of the widest string. -/
def widest (items : List String) : Nat :=
  (items.map displayWidth).foldl max 0

/-- The string followed by spaces up to a width; a wider one stays as it is. -/
def padTo (width : Nat) (text : String) : String :=
  text ++ String.ofList (List.replicate (width - displayWidth text) ' ')

end Crowfoot.Text
