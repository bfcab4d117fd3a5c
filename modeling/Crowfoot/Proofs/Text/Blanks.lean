import Crowfoot.Text.Blank
import Crowfoot.Text.Lines
import Mathlib.Data.List.DropRight
import Mathlib.Data.List.Induction
import Mathlib.Data.List.TakeWhile

/-!
# Blanks and lines

Blanks at the ends of a text matter neither to what trimming leaves of it nor to
the words it is made of, words with blanks between them follow each other, and a
text that starts with a whole line has this line as its first.
-/

namespace Crowfoot.Text

theorem linesOf_append {line : List Char} (hline : '\n' ∉ line) (rest : List Char) :
    linesOf (line ++ '\n' :: rest) = (line ++ ['\n']) :: linesOf rest := by
  induction line with
  | nil => rw [List.nil_append, linesOf, if_pos rfl, List.nil_append]
  | cons c tail ih =>
    obtain ⟨hc, htail⟩ := not_or.1 (mt List.mem_cons.2 hline)
    rw [List.cons_append, linesOf, if_neg (Ne.symm hc), ih htail]
    rfl

/-! ## Trimming -/

/-- Trimming the end takes blanks off it. -/
theorem exists_trimEnd_append (text : List Char) :
    ∃ back, text = trimEnd text ++ back ∧ ∀ c ∈ back, isBlank c = true := by
  refine ⟨(text.reverse.takeWhile isBlank).reverse, ?_, ?_⟩
  · rw [trimEnd, ← List.reverse_append, List.takeWhile_append_dropWhile, List.reverse_reverse]
  · intro c hmem
    exact List.mem_takeWhile_imp (List.mem_reverse.1 hmem)

/-- Trimming takes a piece off each end, and both are all blanks. -/
theorem exists_trim_append (text : List Char) :
    ∃ back, text = text.takeWhile isBlank ++ (trim text ++ back) ∧
      ∀ c ∈ back, isBlank c = true := by
  obtain ⟨back, hend, hback⟩ := exists_trimEnd_append (trimStart text)
  refine ⟨back, ?_, hback⟩
  rw [trim, ← hend, trimStart, List.takeWhile_append_dropWhile]

theorem mem_of_mem_trimEnd {text : List Char} {c : Char} (hmem : c ∈ trimEnd text) :
    c ∈ text := by
  obtain ⟨back, htext, -⟩ := exists_trimEnd_append text
  rw [htext]
  exact List.mem_append_left back hmem

/-- Trimming the end keeps a first character that is no blank. -/
theorem exists_trimEnd_cons {c : Char} (hc : isBlank c = false) (rest : List Char) :
    ∃ tail, trimEnd (c :: rest) = c :: tail := by
  obtain ⟨back, htext, hback⟩ := exists_trimEnd_append (c :: rest)
  cases hend : trimEnd (c :: rest) with
  | nil =>
    rw [hend, List.nil_append] at htext
    have hblank := hback c (htext ▸ List.mem_cons_self)
    rw [hc] at hblank
    exact Bool.noConfusion hblank
  | cons first tail =>
    rw [hend, List.cons_append] at htext
    rw [(List.cons.inj htext).1]
    exact ⟨tail, rfl⟩

theorem trimStart_append {blanks : List Char} (hblanks : ∀ c ∈ blanks, isBlank c = true)
    (text : List Char) : trimStart (blanks ++ text) = trimStart text :=
  List.dropWhile_append_of_pos hblanks

theorem trimEnd_append {blanks : List Char} (hblanks : ∀ c ∈ blanks, isBlank c = true)
    (text : List Char) : trimEnd (text ++ blanks) = trimEnd text := by
  have hreversed : ∀ c ∈ blanks.reverse, isBlank c = true := by simpa using hblanks
  rw [trimEnd, List.reverse_append, List.dropWhile_append_of_pos hreversed, trimEnd]

theorem trimEnd_trimEnd (text : List Char) : trimEnd (trimEnd text) = trimEnd text := by
  rw [trimEnd, trimEnd, List.reverse_reverse, List.dropWhile_idempotent]

/-- Blanks around a text are trimmed away. -/
theorem trim_append {front back : List Char} (hfront : ∀ c ∈ front, isBlank c = true)
    (hback : ∀ c ∈ back, isBlank c = true) {c : Char} (hc : isBlank c = false)
    (rest : List Char) : trim (front ++ (c :: rest ++ back)) = trim (c :: rest) := by
  have hstart (tail : List Char) : trimStart (c :: tail) = c :: tail := by simp [trimStart, hc]
  rw [trim, trimStart_append hfront, List.cons_append, hstart, ← List.cons_append,
    trimEnd_append hback, trim, hstart]

theorem trim_eq_nil {text : List Char} (hblanks : ∀ c ∈ text, isBlank c = true) :
    trim text = [] := by
  rw [trim, trimStart, List.dropWhile_eq_nil_iff.2 hblanks]
  rfl

theorem isBlank_of_trim_eq_nil {text : List Char} (hnil : trim text = []) :
    ∀ c ∈ text, isBlank c = true := by
  obtain ⟨back, htext, hback⟩ := exists_trim_append text
  rw [htext, hnil, List.nil_append]
  exact List.forall_mem_append.2 ⟨fun c hmem => List.mem_takeWhile_imp hmem, hback⟩

/-- One more blank at the end is trimmed away too. -/
theorem trim_concat {c : Char} (hc : isBlank c = true) (text : List Char) :
    trim (text ++ [c]) = trim text := by
  by_cases hall : ∀ d ∈ text, isBlank d = true
  · rw [trim_eq_nil hall, trim_eq_nil (List.forall_mem_append.2 ⟨hall, by simpa using hc⟩)]
  · have hstart : trimStart (text ++ [c]) = trimStart text ++ [c] := by
      rw [trimStart, trimStart, List.dropWhile_append, if_neg]
      rwa [List.isEmpty_iff, List.dropWhile_eq_nil_iff]
    rw [trim, hstart, trimEnd_append (by simpa using hc), trim]

theorem trim_trim (text : List Char) : trim (trim text) = trim text := by
  have hfirst := List.head?_dropWhile_not isBlank text
  rw [← trimStart] at hfirst
  rw [trim.eq_def text]
  cases hstart : trimStart text with
  | nil => rfl
  | cons c rest =>
    rw [hstart] at hfirst
    have hc : isBlank c = false := hfirst
    obtain ⟨tail, hend⟩ := exists_trimEnd_cons hc rest
    have hkept : trimStart (trimEnd (c :: rest)) = trimEnd (c :: rest) := by
      rw [hend]
      exact List.dropWhile_cons_of_neg (by simp [hc])
    rw [trim, hkept, trimEnd_trimEnd]

/-- Blanks in front are trimmed away too. -/
theorem trim_blanks_append {blanks : List Char} (hblanks : ∀ c ∈ blanks, isBlank c = true)
    (text : List Char) : trim (blanks ++ text) = trim text := by
  rw [trim, trimStart_append hblanks, trim]

theorem trim_eq_self {text : List Char} (hfirst : ∀ c ∈ text.head?, isBlank c = false)
    (hlast : ∀ c ∈ text.getLast?, isBlank c = false) : trim text = text := by
  have hdrop {text : List Char} (hfirst : ∀ c ∈ text.head?, isBlank c = false) :
      text.dropWhile isBlank = text := by
    cases text with
    | nil => rfl
    | cons c rest => exact List.dropWhile_cons_of_neg (by simp [hfirst c rfl])
  rw [trim, trimStart, hdrop hfirst, trimEnd, hdrop (by simpa using hlast), List.reverse_reverse]

/-- What trimming leaves of the front of a text comes first in what trimming the start leaves
of the whole. -/
theorem trim_prefix (front rest : List Char) : trim front <+: trimStart (front ++ rest) := by
  obtain ⟨back, hfront, -⟩ := exists_trimEnd_append (trimStart front)
  rw [trimStart, List.dropWhile_append]
  split
  · rename_i hnil
    rw [trim, trimStart, List.isEmpty_iff.1 hnil]
    exact List.nil_prefix
  · exact (List.prefix_iff_exists_append_eq.2 ⟨back, hfront.symm⟩).trans (List.prefix_append _ _)

/-! ## Words -/

/-- What holds of the items one by one, and of two parts with a separator between them when it
holds of the parts, holds of the items together. -/
theorem intercalate_induction {α : Type} {P : List α → Prop} {separator : List α} (hnil : P [])
    (hstep : ∀ item rest, P item → P rest → P (item ++ separator ++ rest))
    {items : List (List α)} (hitems : ∀ item ∈ items, P item) :
    P (separator.intercalate items) := by
  induction items with
  | nil => exact hnil
  | cons first more ih =>
    obtain ⟨hfirst, hmore⟩ := List.forall_mem_cons.1 hitems
    cases more with
    | nil => rwa [List.intercalate_singleton]
    | cons second others =>
      rw [List.intercalate_cons_cons]
      exact hstep first _ hfirst (ih hmore)

theorem forall_mem_intercalate {α : Type} {p : α → Prop} {separator : List α}
    {items : List (List α)}
    (hseparator : ∀ c ∈ separator, p c) (hitems : ∀ item ∈ items, ∀ c ∈ item, p c) :
    ∀ c ∈ separator.intercalate items, p c := by
  refine intercalate_induction (P := fun text => ∀ c ∈ text, p c) (List.forall_mem_nil p) ?_ hitems
  intro item rest hitem hrest
  exact List.forall_mem_append.2 ⟨List.forall_mem_append.2 ⟨hitem, hseparator⟩, hrest⟩

/-- The first item comes first. -/
theorem prefix_intercalate {α : Type} (separator item : List α) (items : List (List α)) :
    item <+: separator.intercalate (item :: items) := by
  cases items with
  | nil => simp
  | cons next rest =>
    rw [List.intercalate_cons_cons, List.append_assoc]
    exact List.prefix_append _ _

/-- Items that follow each other have the separator between them. -/
theorem infix_intercalate {α : Type} (separator left right : List α)
    (before after : List (List α)) :
    left ++ separator ++ right <:+: separator.intercalate (before ++ left :: right :: after) := by
  induction before with
  | nil =>
    rw [List.nil_append, List.intercalate_cons_cons]
    exact ((List.prefix_append_right_inj _).2 (prefix_intercalate _ _ _)).isInfix
  | cons item rest ih =>
    obtain ⟨next, others, hrest⟩ :=
      List.exists_cons_of_ne_nil (List.append_ne_nil_of_right_ne_nil rest (List.cons_ne_nil left _))
    rw [hrest] at ih
    rw [List.cons_append, hrest, List.intercalate_cons_cons]
    exact ih.trans (List.suffix_append _ _).isInfix

/-- A piece that is cut out holds characters of the text, and none to cut at. -/
theorem forall_mem_splitOnP {test : Char → Bool} {text piece : List Char}
    (hpiece : piece ∈ text.splitOnP test) : ∀ c ∈ piece, c ∈ text ∧ test c = false := by
  induction text generalizing piece with
  | nil => simp_all
  | cons first rest ih =>
    have hlater {piece : List Char} (hrest : piece ∈ rest.splitOnP test) :
        ∀ c ∈ piece, c ∈ first :: rest ∧ test c = false := fun c hc =>
      (ih hrest c hc).imp_left (List.mem_cons_of_mem first)
    rw [List.splitOnP_cons_eq_if_modifyHead] at hpiece
    split at hpiece
    · rcases List.mem_cons.1 hpiece with rfl | hrest
      · exact List.forall_mem_nil _
      · exact hlater hrest
    · rename_i hfirst
      obtain ⟨head, tail, hsplit⟩ := List.exists_cons_of_ne_nil (List.splitOnP_ne_nil test rest)
      rw [hsplit] at hpiece hlater
      rcases List.mem_cons.1 hpiece with rfl | htail
      · exact List.forall_mem_cons.2
          ⟨⟨List.mem_cons_self, (Bool.not_eq_true _).mp hfirst⟩, hlater List.mem_cons_self⟩
      · exact hlater (List.mem_cons_of_mem head htail)

theorem mem_of_mem_words {text word : List Char} (hword : word ∈ words text) :
    ∀ c ∈ word, c ∈ text :=
  fun c hc => (forall_mem_splitOnP (List.mem_filter.1 hword).1 c hc).1

theorem isBlank_of_mem_words {text word : List Char} (hword : word ∈ words text) :
    ∀ c ∈ word, isBlank c = false :=
  fun c hc => (forall_mem_splitOnP (List.mem_filter.1 hword).1 c hc).2

theorem words_append_cons {c : Char} (hc : isBlank c = true) (left right : List Char) :
    words (left ++ c :: right) = words left ++ words right := by
  rw [words, List.splitOnP_append_cons left right hc, List.filter_append, words, words]

theorem words_cons {c : Char} (hc : isBlank c = true) (text : List Char) :
    words (c :: text) = words text :=
  words_append_cons hc [] text

theorem words_blanks_append {blanks : List Char} (hblanks : ∀ c ∈ blanks, isBlank c = true)
    (text : List Char) : words (blanks ++ text) = words text := by
  induction blanks with
  | nil => rfl
  | cons c rest ih =>
    obtain ⟨hc, hrest⟩ := List.forall_mem_cons.1 hblanks
    rw [List.cons_append, words_cons hc, ih hrest]

theorem words_append_blanks {blanks : List Char} (hblanks : ∀ c ∈ blanks, isBlank c = true)
    (text : List Char) : words (text ++ blanks) = words text := by
  cases blanks with
  | nil => rw [List.append_nil]
  | cons c rest =>
    obtain ⟨hc, hrest⟩ := List.forall_mem_cons.1 hblanks
    have hnone : words rest = [] := by
      have hall := words_blanks_append hrest []
      rwa [List.append_nil] at hall
    rw [words_append_cons hc, hnone, List.append_nil]

theorem words_trimEnd (text : List Char) : words (trimEnd text) = words text := by
  obtain ⟨back, htext, hback⟩ := exists_trimEnd_append text
  calc
    words (trimEnd text) = words (trimEnd text ++ back) := (words_append_blanks hback _).symm
    _ = words text := by rw [← htext]

/-- Trimming the end of a text stops at its last word. -/
theorem trimEnd_append_of_words {back : List Char} (hsome : words back ≠ []) (front : List Char) :
    trimEnd (front ++ back) = front ++ trimEnd back := by
  have hkept : ¬ (back.reverse.dropWhile isBlank).isEmpty = true := by
    rw [List.isEmpty_iff, List.dropWhile_eq_nil_iff]
    intro hblanks
    apply hsome
    have hnone := words_append_blanks (fun c hmem => hblanks c (List.mem_reverse.2 hmem)) []
    rwa [List.nil_append] at hnone
  rw [trimEnd, List.reverse_append, List.dropWhile_append, if_neg hkept, List.reverse_append,
    List.reverse_reverse, trimEnd]

/-- A text without blanks is one word. -/
theorem words_eq_singleton {word : List Char} (hsome : word ≠ [])
    (hword : ∀ c ∈ word, isBlank c = false) : words word = [word] := by
  rw [words, List.splitOnP_eq_singleton hword]
  simp [hsome]

/-- A word with blanks behind it comes first. -/
theorem words_word_append {word gap : List Char} (hsome : word ≠ [])
    (hword : ∀ c ∈ word, isBlank c = false) (hgap : gap ≠ [])
    (hblanks : ∀ c ∈ gap, isBlank c = true) (rest : List Char) :
    words (word ++ (gap ++ rest)) = word :: words rest := by
  cases gap with
  | nil => exact absurd rfl hgap
  | cons c more =>
    obtain ⟨hc, hmore⟩ := List.forall_mem_cons.1 hblanks
    rw [List.cons_append, words_append_cons hc, words_eq_singleton hsome hword,
      words_blanks_append hmore, List.singleton_append]

/-- A word at the end of a text is the end of its last word. -/
theorem exists_words_append {word : List Char} (hsome : word ≠ [])
    (hword : ∀ c ∈ word, isBlank c = false) (text : List Char) :
    ∃ before front, words (text ++ word) = before ++ [front ++ word] := by
  induction text using List.reverseRecOn generalizing word with
  | nil => exact ⟨[], [], words_eq_singleton hsome hword⟩
  | append_singleton rest c ih =>
    rw [List.append_assoc, List.singleton_append]
    by_cases hc : isBlank c = true
    · rw [words_append_cons hc, words_eq_singleton hsome hword]
      exact ⟨words rest, [], rfl⟩
    · obtain ⟨before, front, hwords⟩ := ih (List.cons_ne_nil c word)
        (List.forall_mem_cons.2 ⟨(Bool.not_eq_true _).mp hc, hword⟩)
      exact ⟨before, front ++ [c], by simpa using hwords⟩

/-- A word at the start of a text is the start of its first word. -/
theorem exists_words_cons {word : List Char} (hsome : word ≠ [])
    (hword : ∀ c ∈ word, isBlank c = false) (text : List Char) :
    ∃ back after, words (word ++ text) = (word ++ back) :: after := by
  induction text generalizing word with
  | nil => exact ⟨[], [], by simpa using words_eq_singleton hsome hword⟩
  | cons c rest ih =>
    by_cases hc : isBlank c = true
    · rw [words_append_cons hc, words_eq_singleton hsome hword]
      exact ⟨[], words rest, by simp⟩
    · have hlonger : ∀ d ∈ word ++ [c], isBlank d = false :=
        List.forall_mem_append.2 ⟨hword, by simpa using hc⟩
      obtain ⟨back, after, hwords⟩ := ih (List.concat_ne_nil c word) hlonger
      exact ⟨c :: back, after, by simpa using hwords⟩

/-- Two words of a text that have only blanks between them still follow each other when every
run of blanks is a single space. -/
theorem infix_intercalate_words {first gap second text : List Char} (hfirst : first ≠ [])
    (hfirstWord : ∀ c ∈ first, isBlank c = false) (hgap : gap ≠ [])
    (hblanks : ∀ c ∈ gap, isBlank c = true) (hsecond : second ≠ [])
    (hsecondWord : ∀ c ∈ second, isBlank c = false) (hpart : first ++ gap ++ second <:+: text) :
    first ++ ' ' :: second <:+: [' '].intercalate (words text) := by
  obtain ⟨left, right, rfl⟩ := hpart
  obtain ⟨c, more, rfl⟩ := List.exists_cons_of_ne_nil hgap
  obtain ⟨hc, hmore⟩ := List.forall_mem_cons.1 hblanks
  obtain ⟨before, front, hbefore⟩ := exists_words_append hfirst hfirstWord left
  obtain ⟨back, after, hafter⟩ := exists_words_cons hsecond hsecondWord right
  have hwords : words (left ++ (first ++ c :: more ++ second) ++ right) =
      before ++ (front ++ first) :: (second ++ back) :: after := by
    calc
      words (left ++ (first ++ c :: more ++ second) ++ right) =
          words ((left ++ first) ++ c :: (more ++ (second ++ right))) := by simp
      _ = words (left ++ first) ++ words (second ++ right) := by
        rw [words_append_cons hc, words_blanks_append hmore]
      _ = _ := by rw [hbefore, hafter, List.append_assoc, List.singleton_append]
  have hpair := infix_intercalate [' '] (front ++ first) (second ++ back) before after
  rw [hwords]
  refine List.IsInfix.trans ⟨front, back, ?_⟩ hpair
  simp

/-! ## Parts -/

/-- A text contains what stands somewhere in it. -/
theorem contains_iff_infix {pattern text : List Char} :
    contains pattern text = true ↔ pattern <:+: text := by
  induction text with
  | nil => simp [contains]
  | cons c rest ih =>
    rw [contains, Bool.or_eq_true, List.isPrefixOf_iff_prefix, ih, List.infix_cons_iff]

/-! ## First occurrences -/

theorem splitAtFirst_append {separator : Char} {front : List Char} (hfront : separator ∉ front)
    (rest : List Char) :
    splitAtFirst separator (front ++ separator :: rest) = some (front, rest) := by
  induction front with
  | nil => rw [List.nil_append, splitAtFirst, if_pos rfl]
  | cons c tail ih =>
    obtain ⟨hc, htail⟩ := not_or.1 (mt List.mem_cons.2 hfront)
    rw [List.cons_append, splitAtFirst, if_neg (Ne.symm hc), ih htail, Option.map_some]

theorem splitAtFirst_eq_none {separator : Char} {text : List Char} (htext : separator ∉ text) :
    splitAtFirst separator text = none := by
  induction text with
  | nil => rfl
  | cons c tail ih =>
    obtain ⟨hc, htail⟩ := not_or.1 (mt List.mem_cons.2 htext)
    rw [splitAtFirst, if_neg (Ne.symm hc), ih htail, Option.map_none]

end Crowfoot.Text
