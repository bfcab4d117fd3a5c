import Crowfoot.Json.Text

/-!
# JSON strings read back

Every character of a string is written as itself or as one escape, and is read back
as one piece: a control character without an escape of its own as its UTF-16 unit,
any other one as a character.  No such unit is half of a surrogate pair, so the
pieces make up the string again, whatever characters are in it.
-/

namespace Crowfoot.Json

theorem hexDigit?_hexChar : ∀ digit < 16, hexDigit? (hexChar digit) = some digit := by
  decide

/-- A unit below 256 is told by two digits. -/
theorem hexUnit?_hexChar {code : Nat} (hcode : code < 256) :
    hexUnit? '0' '0' (hexChar (code / 16)) (hexChar (code % 16)) = some code := by
  have hzero : hexDigit? '0' = some 0 := by decide
  have hhigh := hexDigit?_hexChar (code / 16) (by omega)
  have hlow := hexDigit?_hexChar (code % 16) (by omega)
  have hsum : (0 * 16 + 0) * 256 + code / 16 * 16 + code % 16 = code := by omega
  simp only [hexUnit?, hzero, hhigh, hlow, Option.bind_eq_bind, Option.bind_some, Option.pure_def,
    hsum]

/-- The piece that a character is read as when it is written in a string. -/
def writtenPiece (c : Char) : Piece :=
  if c.toNat < 0x20 ∧ c ∉ ['\x08', '\x0c', '\n', '\r', '\t'] then .unit c.toNat else .char c

theorem readPieces?_escapeChar (c : Char) (rest : List Char) :
    readPieces? (escapeChar c ++ rest) =
      (readPieces? rest).map fun reading => (writtenPiece c :: reading.1, reading.2) := by
  rw [Option.map_eq_bind, escapeChar.eq_def]
  split
  case h_8 hquote hbackslash hb hf hn hr ht =>
    have hnamed : c ∉ ['\x08', '\x0c', '\n', '\r', '\t'] := by simp_all
    split
    · rename_i hcontrol
      have hunit := hexUnit?_hexChar (Nat.lt_trans hcontrol (by decide : 0x20 < 256))
      have hpiece : writtenPiece c = .unit c.toNat := if_pos ⟨hcontrol, hnamed⟩
      simp only [List.cons_append, List.nil_append, readPieces?, hunit, hpiece]
      rfl
    · rename_i hplain
      have hpiece : writtenPiece c = .char c := if_neg fun hunit => hplain hunit.1
      rw [hpiece, List.singleton_append, readPieces?.eq_def]
      split
      case h_5 first tail hquote' hunit hletter heq =>
        obtain ⟨rfl, rfl⟩ := List.cons.inj heq
        rw [if_neg (not_or.2 ⟨hplain, hbackslash⟩)]
        rfl
      all_goals simp_all
  all_goals rfl

/-- A written string is read up to its closing quote. -/
theorem readPieces?_quoted (content rest : List Char) :
    readPieces? (content.flatMap escapeChar ++ '\x22' :: rest) =
      some (content.map writtenPiece, rest) := by
  induction content with
  | nil => rfl
  | cons c more ih =>
    rw [List.flatMap_cons, List.append_assoc, readPieces?_escapeChar, ih]
    rfl

/-- The unit of a control character is no surrogate. -/
theorem joinPieces?_unit {code : Nat} (hcontrol : code < 0x20) (pieces : List Piece) :
    joinPieces? (.unit code :: pieces) = (joinPieces? pieces).map (Char.ofNat code :: ·) := by
  have hleading : isLeading code = false := by
    simp only [isLeading, Bool.and_eq_false_iff, decide_eq_false_iff_not]
    omega
  have htrailing : isTrailing code = false := by
    simp only [isTrailing, Bool.and_eq_false_iff, decide_eq_false_iff_not]
    omega
  rw [joinPieces?.eq_def]
  split <;> simp_all

/-- The pieces of a written string make it up again. -/
theorem joinPieces?_map_writtenPiece (content : List Char) :
    joinPieces? (content.map writtenPiece) = some content := by
  induction content with
  | nil => rfl
  | cons c more ih =>
    rw [List.map_cons, writtenPiece]
    split
    · rename_i hcontrol
      rw [joinPieces?_unit hcontrol.1, ih, Option.map_some, Char.ofNat_toNat]
    · rw [joinPieces?, ih, Option.map_some]

end Crowfoot.Json
