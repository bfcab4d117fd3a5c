import Crowfoot.Json.Reader
import Crowfoot.Json.Writer
import Crowfoot.Proofs.Json.Strings

/-!
# JSON values read back

The compact text of a value reads as that value, in front of anything that may
follow a value: a comma, a closing bracket or brace, or the end of the text.  The
value has to be one that a text can hold: its strings and keys say something, and
its numbers are digits where digits belong.
-/

namespace Crowfoot.Json

/-- A text that may follow a value. -/
def EndsValue (rest : List Char) : Prop :=
  ∀ c ∈ rest.head?, c = ',' ∨ c = ']' ∨ c = '\x7d'

theorem endsValue_nil : EndsValue [] := by simp [EndsValue]

theorem skipSpace_cons {c : Char} (hspace : isSpace c = false) (rest : List Char) :
    skipSpace (c :: rest) = c :: rest := by
  simp [skipSpace, hspace]

/-! ## What is read and what is left -/

/-- What is read and the rest of the text, its length apart. -/
def bare {α : Type} {text : List Char} (reading : α × Shorter text) : α × List Char :=
  (reading.1, reading.2.1)

/-- Reads a value and leaves the rest. -/
def takeValue? (text : List Char) : Option (Value × List Char) :=
  (readValue? text).map bare

/-- Reads the items of an array up to its bracket and leaves the rest. -/
def takeItems? (text : List Char) : Option (List Value × List Char) :=
  (readItems? text).map bare

/-- Reads the members of an object up to its brace and leaves the rest. -/
def takeMembers? (text : List Char) : Option (List (Content × Value) × List Char) :=
  (readMembers? text).map bare

theorem map_bare_readArray? (text : List Char) :
    (readArray? text).map bare =
      match skipSpace text with
      | ']' :: rest => some ([], rest)
      | _ => takeItems? text := by
  rw [readArray?]
  split
  · rename_i rest hskip
    simp only [Option.map_some, bare, hskip]
  · rename_i hnot
    split
    · rename_i rest hskip
      exact absurd hskip (hnot rest)
    · rfl

theorem map_bare_readObject? (text : List Char) :
    (readObject? text).map bare =
      match skipSpace text with
      | '\x7d' :: rest => some ([], rest)
      | _ => takeMembers? text := by
  rw [readObject?]
  split
  · rename_i rest hskip
    simp only [Option.map_some, bare, hskip]
  · rename_i hnot
    split
    · rename_i rest hskip
      exact absurd hskip (hnot rest)
    · rfl

/-- A value is told by its first character. -/
theorem takeValue?_cons {c : Char} (hspace : isSpace c = false) (rest : List Char) :
    takeValue? (c :: rest) =
      if c = '[' then
        ((readArray? rest).map bare).map fun reading => (.array reading.1, reading.2)
      else if c = '\x7b' then
        ((readObject? rest).map bare).map fun reading => (.object reading.1, reading.2)
      else if c = '\x22' then
        (readPieces? rest).map fun reading =>
          (.string ((joinPieces? reading.1).map String.ofList), reading.2)
      else if "true".toList.isPrefixOf (c :: rest) then some (.bool true, rest.drop 3)
      else if "false".toList.isPrefixOf (c :: rest) then some (.bool false, rest.drop 4)
      else if "null".toList.isPrefixOf (c :: rest) then some (.null, rest.drop 3)
      else (readNumeral? (c :: rest)).map fun reading => (.number reading.1, reading.2) := by
  rw [takeValue?, readValue?]
  split
  · rename_i hskip
    simp [skipSpace_cons hspace] at hskip
  · rename_i first tail hskip
    obtain ⟨rfl, rfl⟩ := List.cons.inj ((skipSpace_cons hspace rest).symm.trans hskip)
    split
    · rw [Option.map_map, Option.map_map]
      rfl
    · split
      · rw [Option.map_map, Option.map_map]
        rfl
      · split
        · split <;> simp_all [bare]
        · repeat' split
          all_goals simp_all [bare]

theorem takeItems?_eq (text : List Char) :
    takeItems? text =
      (takeValue? text).bind fun reading =>
        match skipSpace reading.2 with
        | ']' :: rest => some ([reading.1], rest)
        | ',' :: rest => (takeItems? rest).map fun more => (reading.1 :: more.1, more.2)
        | _ => none := by
  rw [takeItems?, takeValue?, readItems?]
  cases readValue? text with
  | none => rfl
  | some reading =>
    obtain ⟨item, after, hafter⟩ := reading
    rw [Option.map_some, Option.bind_some, bare]
    dsimp only
    split
    · rename_i rest hskip
      simp only [Option.map_some, bare, hskip]
    · rename_i rest hskip
      simp only [hskip, takeItems?, Option.map_map]
      rfl
    · rename_i hclose hcomma
      split
      · rename_i rest hskip
        exact absurd hskip (hclose rest)
      · rename_i rest hskip
        exact absurd hskip (hcomma rest)
      · rfl

theorem takeMembers?_eq (text : List Char) :
    takeMembers? text =
      match skipSpace text with
      | '\x22' :: start =>
        (readPieces? start).bind fun key =>
          match skipSpace key.2 with
          | ':' :: afterColon =>
            (takeValue? afterColon).bind fun reading =>
              let member := ((joinPieces? key.1).map String.ofList, reading.1)
              match skipSpace reading.2 with
              | '\x7d' :: rest => some ([member], rest)
              | ',' :: rest => (takeMembers? rest).map fun more => (member :: more.1, more.2)
              | _ => none
          | _ => none
      | _ => none := by
  rw [takeMembers?, readMembers?]
  split
  · rename_i start hskip
    simp only [hskip]
    split
    · rename_i hkey
      rw [hkey]
      rfl
    · rename_i pieces afterKey hkey
      simp only [hkey, Option.bind_some]
      split
      · rename_i afterColon hcolon
        simp only [hcolon, takeValue?]
        cases readValue? afterColon with
        | none => rfl
        | some reading =>
          obtain ⟨value, after, hafter⟩ := reading
          rw [Option.map_some, Option.bind_some, bare]
          dsimp only
          split
          · rename_i rest hend
            simp only [Option.map_some, bare, hend]
          · rename_i rest hend
            simp only [hend, takeMembers?, Option.map_map]
            rfl
          · rename_i hclose hcomma
            split
            · rename_i rest hend
              exact absurd hend (hclose rest)
            · rename_i rest hend
              exact absurd hend (hcomma rest)
            · rfl
      · rename_i hcolon
        split
        · rename_i rest hend
          exact absurd hend (hcolon rest)
        · rfl
  · rename_i hquote
    split
    · rename_i rest hstart
      exact absurd hstart (hquote rest)
    · rfl

/-! ## Numerals -/

/-- One or more digits. -/
def AreDigits (digits : List Char) : Prop :=
  digits ≠ [] ∧ ∀ c ∈ digits, c.isDigit = true

theorem AreDigits.exists_cons {digits : List Char} (hdigits : AreDigits digits) :
    ∃ first more, digits = first :: more ∧ first.isDigit = true := by
  obtain ⟨first, more, rfl⟩ := List.exists_cons_of_ne_nil hdigits.1
  exact ⟨first, more, rfl, hdigits.2 first List.mem_cons_self⟩

/-- A numeral has digits wherever a numeral needs them, and no zero leads others. -/
structure Numeral.IsProper (numeral : Numeral) : Prop where
  whole : AreDigits numeral.whole
  leading : numeral.whole.length = 1 ∨ numeral.whole.head? ≠ some '0'
  fraction : ∀ digits ∈ numeral.fraction, AreDigits digits
  exponent : ∀ exponent ∈ numeral.exponent, AreDigits exponent.2

/-- A text that does not go on with a digit. -/
def EndsDigits (rest : List Char) : Prop :=
  ∀ c ∈ rest.head?, c.isDigit = false

theorem readDigits?_append {digits rest : List Char} (hdigits : AreDigits digits)
    (hrest : EndsDigits rest) : readDigits? (digits ++ rest) = some (digits, rest) := by
  obtain ⟨hsome, hall⟩ := hdigits
  have htake : rest.takeWhile Char.isDigit = [] := by
    cases rest with
    | nil => rfl
    | cons c tail => exact List.takeWhile_cons_of_neg (by simp [hrest c rfl])
  have hdrop : rest.dropWhile Char.isDigit = rest := by
    cases rest with
    | nil => rfl
    | cons c tail => exact List.dropWhile_cons_of_neg (by simp [hrest c rfl])
  rw [readDigits?, List.takeWhile_append_of_pos hall, List.dropWhile_append_of_pos hall, htake,
    hdrop, List.append_nil]
  exact if_neg (by simpa using hsome)

theorem EndsValue.endsDigits {rest : List Char} (hrest : EndsValue rest) : EndsDigits rest := by
  intro c hc
  rcases hrest c hc with rfl | rfl | rfl <;> rfl

/-- The text of an exponent. -/
def exponentText : Option (Bool × List Char) → List Char
  | none => []
  | some (isNegative, digits) => 'e' :: (if isNegative then '-' :: digits else digits)

theorem readExponent?_exponentText {exponent : Option (Bool × List Char)}
    (hproper : ∀ present ∈ exponent, AreDigits present.2) {rest : List Char}
    (hrest : EndsValue rest) :
    readExponent? (exponentText exponent ++ rest) = some (exponent, rest) := by
  rcases exponent with _ | ⟨isNegative, digits⟩
  · have hend : ∀ c ∈ rest.head?, c ≠ 'e' ∧ c ≠ 'E' := by
      intro c hc
      rcases hrest c hc with rfl | rfl | rfl <;> decide
    rw [exponentText, List.nil_append, readExponent?.eq_def]
    split
    · exact absurd rfl (hend 'e' rfl).1
    · exact absurd rfl (hend 'E' rfl).2
    · rfl
  · have hdigits := readDigits?_append (hproper _ rfl) hrest.endsDigits
    cases isNegative with
    | true => simp [exponentText, readExponent?, hdigits]
    | false =>
      obtain ⟨first, more, rfl, hdigit⟩ := (hproper _ rfl).exists_cons
      have hplus : first ≠ '+' := by rintro rfl; cases hdigit
      have hminus : first ≠ '-' := by rintro rfl; cases hdigit
      rw [List.cons_append] at hdigits
      simp [exponentText, readExponent?, hplus, hminus, hdigits]

theorem readFraction?_fractionText {fraction : Option (List Char)}
    (hproper : ∀ digits ∈ fraction, AreDigits digits) {rest : List Char}
    (hrest : EndsDigits rest) (hpoint : rest.head? ≠ some '.') :
    readFraction? ((fraction.map ('.' :: ·)).getD [] ++ rest) = some (fraction, rest) := by
  cases fraction with
  | none =>
    rw [readFraction?.eq_def]
    split
    · simp_all
    · rfl
  | some digits =>
    have hdigits := readDigits?_append (hproper digits rfl) hrest
    simp [readFraction?, hdigits]

theorem readWhole?_append {numeral : Numeral} (hproper : numeral.IsProper) {rest : List Char}
    (hrest : EndsDigits rest) : readWhole? (numeral.whole ++ rest) = some (numeral.whole, rest) := by
  rw [readWhole?, readDigits?_append hproper.whole hrest]
  exact Option.filter_some_pos (by simpa using hproper.leading)

theorem head?_exponentText_append (exponent : Option (Bool × List Char)) {rest : List Char}
    (hrest : EndsValue rest) :
    ∀ c ∈ (exponentText exponent ++ rest).head?, c.isDigit = false ∧ c ≠ '.' := by
  cases exponent with
  | none =>
    intro c hc
    rcases hrest c hc with rfl | rfl | rfl <;> decide
  | some present =>
    intro c hc
    obtain rfl : 'e' = c := Option.some.inj hc
    decide

theorem endsDigits_fractionText (fraction : Option (List Char)) {rest : List Char}
    (hrest : EndsDigits rest) : EndsDigits ((fraction.map ('.' :: ·)).getD [] ++ rest) := by
  cases fraction with
  | none => exact hrest
  | some digits =>
    intro c hc
    obtain rfl : '.' = c := Option.some.inj hc
    rfl

/-- The text of a proper numeral reads as the numeral. -/
theorem readNumeral?_text {numeral : Numeral} (hproper : numeral.IsProper) {rest : List Char}
    (hrest : EndsValue rest) : readNumeral? (numeral.text ++ rest) = some (numeral, rest) := by
  have hexponent := readExponent?_exponentText hproper.exponent hrest
  have hhead := head?_exponentText_append numeral.exponent hrest
  have hends : EndsDigits (exponentText numeral.exponent ++ rest) := fun c hc => (hhead c hc).1
  have hpoint : (exponentText numeral.exponent ++ rest).head? ≠ some '.' :=
    fun hdot => (hhead '.' hdot).2 rfl
  have hfraction := readFraction?_fractionText hproper.fraction hends hpoint
  have hwhole := readWhole?_append hproper (endsDigits_fractionText numeral.fraction hends)
  have htext : numeral.text ++ rest = (if numeral.isNegative then ['-'] else []) ++
      (numeral.whole ++ ((numeral.fraction.map ('.' :: ·)).getD [] ++
        (exponentText numeral.exponent ++ rest))) := by
    rw [Numeral.text, List.append_assoc, List.append_assoc, List.append_assoc]
    cases numeral.exponent <;> rfl
  rw [htext]
  obtain ⟨isNegative, whole, fraction, exponent⟩ := numeral
  cases isNegative with
  | true => simp [readNumeral?, hwhole, hfraction, hexponent]
  | false =>
    obtain ⟨first, more, rfl, hdigit⟩ := hproper.whole.exists_cons
    have hsign : ¬(some first = some '-') := by rintro ⟨rfl⟩; cases hdigit
    rw [List.cons_append] at hwhole
    simp only [Bool.false_eq_true, if_false, List.nil_append, List.cons_append, readNumeral?,
      List.head?_cons, hsign, hwhole, hfraction, hexponent, Option.bind_eq_bind, Option.bind_some,
      Option.pure_def, decide_false]

/-! ## Values -/

/-- A value that a text can hold: strings and keys are said in full, and numbers are
proper. -/
inductive Value.IsSound : Value → Prop where
  | null : IsSound .null
  | bool (value : Bool) : IsSound (.bool value)
  | number {numeral : Numeral} (hproper : numeral.IsProper) : IsSound (.number numeral)
  | text (content : String) : IsSound (.text content)
  | array {items : List Value} (hitems : ∀ item ∈ items, IsSound item) : IsSound (.array items)
  | record {members : List (String × Value)} (hmembers : ∀ member ∈ members, IsSound member.2) :
    IsSound (.record members)

theorem contentText_some (content : String) :
    contentText (some content) = '\x22' :: (content.toList.flatMap escapeChar ++ ['\x22']) := rfl

/-- A written string is read back. -/
theorem takeValue?_contentText (content : String) (rest : List Char) :
    takeValue? (contentText (some content) ++ rest) = some (.text content, rest) := by
  have hpieces := readPieces?_quoted content.toList rest
  rw [contentText_some, List.cons_append, List.append_assoc, takeValue?_cons rfl]
  simp [hpieces, joinPieces?_map_writtenPiece, Value.text]

theorem Numeral.IsProper.exists_text_cons {numeral : Numeral} (hproper : numeral.IsProper) :
    ∃ first tail, numeral.text = first :: tail ∧ (first = '-' ∨ first.isDigit = true) := by
  obtain ⟨isNegative, whole, fraction, exponent⟩ := numeral
  obtain ⟨first, more, rfl, hdigit⟩ := hproper.whole.exists_cons
  cases isNegative with
  | true => exact ⟨'-', _, rfl, .inl rfl⟩
  | false => exact ⟨first, _, rfl, .inr hdigit⟩

/-- Nothing else starts like a numeral. -/
theorem numeralStart_apart {first : Char} (hfirst : first = '-' ∨ first.isDigit = true) :
    isSpace first = false ∧ first ≠ '[' ∧ first ≠ '\x7b' ∧ first ≠ '\x22' ∧ first ≠ 't' ∧
      first ≠ 'f' ∧ first ≠ 'n' ∧ first ≠ ']' := by
  have hne {c : Char} (hc : c ≠ '-') (hdigit : c.isDigit = false) : first ≠ c := by
    rintro rfl
    rcases hfirst with hdash | hdigit'
    · exact hc hdash
    · rw [hdigit] at hdigit'
      cases hdigit'
  have hspace : isSpace first = false := by
    simp only [isSpace, Bool.or_eq_false_iff, beq_eq_false_iff_ne]
    exact ⟨⟨⟨hne (by decide) rfl, hne (by decide) rfl⟩, hne (by decide) rfl⟩, hne (by decide) rfl⟩
  exact ⟨hspace, hne (by decide) rfl, hne (by decide) rfl, hne (by decide) rfl,
    hne (by decide) rfl, hne (by decide) rfl, hne (by decide) rfl, hne (by decide) rfl⟩

theorem takeValue?_numeral {numeral : Numeral} (hproper : numeral.IsProper) {rest : List Char}
    (hrest : EndsValue rest) : takeValue? (numeral.text ++ rest) = some (.number numeral, rest) := by
  have hread := readNumeral?_text hproper hrest
  obtain ⟨first, tail, htext, hfirst⟩ := hproper.exists_text_cons
  obtain ⟨hspace, hbracket, hbrace, hquote, ht, hf, hn, -⟩ := numeralStart_apart hfirst
  rw [htext, List.cons_append] at hread ⊢
  rw [takeValue?_cons hspace, hread]
  simp [hbracket, hbrace, hquote, ht.symm, hf.symm, hn.symm]

/-- The compact text of a value starts with none of the characters that a reader of
items looks out for. -/
theorem exists_compactText_cons {value : Value} (hsound : value.IsSound) :
    ∃ c tail, compactText value = c :: tail ∧ isSpace c = false ∧ c ≠ ']' := by
  cases hsound with
  | null => exact ⟨'n', "ull".toList, rfl, rfl, by decide⟩
  | bool value => cases value <;> exact ⟨_, _, rfl, rfl, by decide⟩
  | @number numeral hproper =>
    obtain ⟨first, tail, htext, hfirst⟩ := hproper.exists_text_cons
    obtain ⟨hspace, -, -, -, -, -, -, hbracket⟩ := numeralStart_apart hfirst
    exact ⟨first, tail, htext, hspace, hbracket⟩
  | text content => exact ⟨_, _, rfl, rfl, by decide⟩
  | array hitems => exact ⟨_, _, rfl, rfl, by decide⟩
  | record hmembers => exact ⟨_, _, rfl, rfl, by decide⟩

theorem compactItems_cons_cons (item second : Value) (others : List Value) :
    compactItems (item :: second :: others) =
      compactText item ++ ',' :: compactItems (second :: others) := by
  rw [compactItems]
  exact List.cons_ne_nil second others

theorem compactMembers_cons_cons (key : Content) (value : Value) (second : Content × Value)
    (others : List (Content × Value)) :
    compactMembers ((key, value) :: second :: others) =
      contentText key ++ ':' :: compactText value ++ ',' :: compactMembers (second :: others) := by
  rw [compactMembers]
  exact List.cons_ne_nil second others

/-- The compact text of a value reads as the value, in front of all that may follow it. -/
def ReadsBack (value : Value) : Prop :=
  ∀ rest, EndsValue rest → takeValue? (compactText value ++ rest) = some (value, rest)

theorem takeItems?_compactItems {items : List Value} (hsome : items ≠ [])
    (hitems : ∀ item ∈ items, ReadsBack item) (rest : List Char) :
    takeItems? (compactItems items ++ ']' :: rest) = some (items, rest) := by
  induction items with
  | nil => exact absurd rfl hsome
  | cons item more ih =>
    obtain ⟨hitem, hmore⟩ := List.forall_mem_cons.1 hitems
    cases more with
    | nil =>
      rw [compactItems, takeItems?_eq, hitem _ (by simp [EndsValue])]
      rfl
    | cons second others =>
      have hread := ih (List.cons_ne_nil _ _) hmore
      rw [compactItems_cons_cons, takeItems?_eq, List.append_assoc, hitem _ (by simp [EndsValue]),
        Option.bind_some]
      simp only [List.cons_append, skipSpace_cons (c := ',') rfl, hread, Option.map_some]

/-- A key in quotes is followed by its value and what goes on behind it. -/
theorem takeMembers?_member {key : String} {value : Value} {text rest : List Char}
    (hvalue : takeValue? text = some (value, rest)) :
    takeMembers? (contentText (some key) ++ ':' :: text) =
      match skipSpace rest with
      | '\x7d' :: rest => some ([(some key, value)], rest)
      | ',' :: rest => (takeMembers? rest).map fun more => ((some key, value) :: more.1, more.2)
      | _ => none := by
  have hkey := readPieces?_quoted key.toList (':' :: text)
  rw [takeMembers?_eq, contentText_some, List.cons_append, List.append_assoc,
    skipSpace_cons (c := '\x22') rfl]
  simp only [List.singleton_append, hkey, Option.bind_some, skipSpace_cons (c := ':') rfl, hvalue,
    joinPieces?_map_writtenPiece, Option.map_some, String.ofList_toList]

theorem takeMembers?_compactMembers {members : List (String × Value)} (hsome : members ≠ [])
    (hmembers : ∀ member ∈ members, ReadsBack member.2) (rest : List Char) :
    takeMembers? (compactMembers (members.map fun member => (some member.1, member.2)) ++
        '\x7d' :: rest) =
      some (members.map fun member => (some member.1, member.2), rest) := by
  induction members with
  | nil => exact absurd rfl hsome
  | cons member more ih =>
    obtain ⟨hmember, hmore⟩ := List.forall_mem_cons.1 hmembers
    cases more with
    | nil =>
      have hvalue := hmember ('\x7d' :: rest) (by simp [EndsValue])
      rw [List.map_singleton, compactMembers, List.append_assoc, List.cons_append,
        takeMembers?_member hvalue]
      rfl
    | cons second others =>
      have hread := ih (List.cons_ne_nil _ _) hmore
      rw [List.map_cons] at hread
      have hvalue := hmember (',' :: (compactMembers ((some second.1, second.2) ::
        others.map fun member => (some member.1, member.2)) ++ '\x7d' :: rest)) (by simp [EndsValue])
      rw [List.map_cons, List.map_cons, compactMembers_cons_cons, List.append_assoc,
        List.append_assoc, List.cons_append, List.cons_append, takeMembers?_member hvalue]
      simp only [skipSpace_cons (c := ',') rfl, hread, Option.map_some]

theorem exists_compactItems_cons {item : Value} (hsound : item.IsSound) (more : List Value) :
    ∃ c tail, compactItems (item :: more) = c :: tail ∧ isSpace c = false ∧ c ≠ ']' := by
  obtain ⟨c, tail, htext, hc⟩ := exists_compactText_cons hsound
  cases more with
  | nil => exact ⟨c, tail, by rw [compactItems, htext], hc⟩
  | cons second others =>
    exact ⟨c, _, by rw [compactItems_cons_cons, htext, List.cons_append], hc⟩

theorem exists_compactMembers_cons (member : String × Value) (more : List (String × Value)) :
    ∃ tail, compactMembers ((member :: more).map fun member => (some member.1, member.2)) =
      '\x22' :: tail := by
  cases more with
  | nil => exact ⟨_, rfl⟩
  | cons second others =>
    rw [List.map_cons, List.map_cons, compactMembers_cons_cons]
    exact ⟨_, rfl⟩

/-- The inside of an array reads as its items. -/
theorem map_bare_readArray?_compactItems {items : List Value}
    (hsound : ∀ item ∈ items, item.IsSound) (hitems : ∀ item ∈ items, ReadsBack item)
    (rest : List Char) :
    (readArray? (compactItems items ++ ']' :: rest)).map bare = some (items, rest) := by
  rw [map_bare_readArray?]
  cases items with
  | nil => rfl
  | cons item more =>
    have hread := takeItems?_compactItems (List.cons_ne_nil item more) hitems rest
    obtain ⟨c, tail, htext, hspace, hbracket⟩ :=
      exists_compactItems_cons (hsound item List.mem_cons_self) more
    rw [htext, List.cons_append] at hread ⊢
    rw [skipSpace_cons hspace, hread]
    split
    · rename_i heq
      exact absurd (List.cons.inj heq).1 hbracket
    · rfl

/-- The inside of an object reads as its members. -/
theorem map_bare_readObject?_compactMembers {members : List (String × Value)}
    (hmembers : ∀ member ∈ members, ReadsBack member.2) (rest : List Char) :
    (readObject? (compactMembers (members.map fun member => (some member.1, member.2)) ++
        '\x7d' :: rest)).map bare =
      some (members.map fun member => (some member.1, member.2), rest) := by
  rw [map_bare_readObject?]
  cases members with
  | nil => rfl
  | cons member more =>
    have hread := takeMembers?_compactMembers (List.cons_ne_nil member more) hmembers rest
    obtain ⟨tail, htext⟩ := exists_compactMembers_cons member more
    rw [htext, List.cons_append] at hread ⊢
    rw [skipSpace_cons rfl, hread]
    rfl

/-- The compact text of a sound value reads as that value. -/
theorem readsBack_of_isSound {value : Value} (hsound : value.IsSound) : ReadsBack value := by
  induction hsound with
  | null => exact fun rest _ => takeValue?_cons rfl _
  | bool value => cases value <;> exact fun rest _ => takeValue?_cons rfl _
  | number hproper => exact fun rest hrest => takeValue?_numeral hproper hrest
  | text content => exact fun rest _ => takeValue?_contentText content rest
  | @array items hitems ih =>
    intro rest _
    rw [compactText, List.cons_append, List.cons_append, List.append_assoc, List.singleton_append,
      takeValue?_cons rfl, if_pos rfl, map_bare_readArray?_compactItems hitems ih]
    rfl
  | @record members hmembers ih =>
    intro rest _
    have hread := map_bare_readObject?_compactMembers ih rest
    rw [Value.record, compactText, List.cons_append, List.cons_append, List.append_assoc,
      List.singleton_append, takeValue?_cons rfl, if_neg (by decide), if_pos rfl]
    exact congrArg _ hread

theorem Value.ofText?_eq (text : String) :
    ofText? text = (takeValue? text.toList).bind fun reading =>
      if (skipSpace reading.2).isEmpty then some reading.1 else none := by
  rw [ofText?, takeValue?]
  cases readValue? text.toList <;> rfl

/-- Writing a sound value loses nothing. -/
theorem Value.ofText?_compact {value : Value} (hsound : value.IsSound) :
    ofText? value.compact = some value := by
  have hread := readsBack_of_isSound hsound [] endsValue_nil
  rw [List.append_nil] at hread
  rw [ofText?_eq, compact, String.toList_ofList, hread]
  rfl

end Crowfoot.Json
