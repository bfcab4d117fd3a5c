import Crowfoot.Proofs.Schema.Names
import Mathlib.Data.List.Induction

/-!
# The last word on a name

When elements are put into a list one after the other, each in the place of the one
that has its name, every name stays where it first stood, and what stands there is
the last element of the name.
-/

namespace Crowfoot

section Latest

variable {α : Type} (view : α → String)

/-- The last element of the name of an element. -/
def lastNamed (list : List α) (element : α) : α :=
  (list.reverse.find? fun other => Text.sameName (view other) (view element)).getD element

/-- Each name once, where it stands first, with the element that has it last. -/
def latest (list : List α) : List α :=
  (list.eraseDupsBy fun left right => Text.sameName (view left) (view right)).map
    (lastNamed view list)

theorem sameName_lastNamed (list : List α) (element : α) :
    Text.sameName (view (lastNamed view list element)) (view element) = true := by
  rw [lastNamed]
  cases hfound : list.reverse.find? fun other => Text.sameName (view other) (view element) with
  | none => exact Text.sameName_refl _
  | some other => simpa using List.find?_some hfound

theorem lastNamed_concat (list : List α) (last element : α) :
    lastNamed view (list ++ [last]) element =
      if Text.sameName (view last) (view element) then last else lastNamed view list element := by
  rw [lastNamed, List.reverse_append, List.reverse_singleton, List.singleton_append,
    List.find?_cons]
  split <;> simp_all [lastNamed]

theorem eraseDupsBy_concat (same : α → α → Bool) (list : List α) (last : α) :
    (list ++ [last]).eraseDupsBy same =
      if (list.eraseDupsBy same).any (same last) then
        list.eraseDupsBy same
      else
        list.eraseDupsBy same ++ [last] := by
  have hloop (found : List α) : List.eraseDupsBy.loop same (list ++ [last]) found =
      List.eraseDupsBy.loop same [last] (List.eraseDupsBy.loop same list found).reverse := by
    induction list generalizing found with
    | nil => simp [List.eraseDupsBy.loop]
    | cons first rest ih =>
      simp only [List.cons_append, List.eraseDupsBy.loop] at ih ⊢
      split <;> exact ih _
  rw [List.eraseDupsBy, hloop, List.eraseDupsBy.loop, List.any_reverse, ← List.eraseDupsBy.eq_def]
  cases (list.eraseDupsBy same).any (same last) <;> simp [List.eraseDupsBy.loop]

/-- Puts an element in the place of the first one of its name, or at the end. -/
def putNamed (list : List α) (element : α) : List α :=
  putFirst (fun old => Text.sameName (view old) (view element)) element list

/-- With a match an element takes the place of the first one. -/
theorem putFirst_of_exists {test : α → Bool} {element : α} {list : List α}
    (hmatch : ∃ old ∈ list, test old = true) :
    putFirst test element list = modifyFirst test (fun _ => element) list := by
  induction list with
  | nil => simp at hmatch
  | cons first rest ih =>
    rw [putFirst, modifyFirst]
    split
    · rfl
    · rename_i hfirst
      rw [ih (by simpa [hfirst] using hmatch)]

theorem distinctNames_foldl_putNamed (list : List α) :
    DistinctNames ((list.foldl (putNamed view) []).map view) := by
  refine List.foldlRecOn (motive := fun found : List α => DistinctNames (found.map view)) list
    (putNamed view) ?_ ?_
  · exact List.Pairwise.nil
  · intro found hfound element _
    exact distinctNames_putFirst view element hfound

/-- Elements that are put one after the other leave each name once, with the element that
has it last. -/
theorem foldl_putNamed (list : List α) : list.foldl (putNamed view) [] = latest view list := by
  induction list using List.reverseRecOn with
  | nil => rfl
  | append_singleton list last ih =>
    have hdistinct := distinctNames_foldl_putNamed view list
    have hsame (first : α) : Text.sameName (view (lastNamed view list first)) (view last) =
        Text.sameName (view last) (view first) := by
      rw [Text.sameName_congr (sameName_lastNamed view list first), Text.sameName_comm]
    rw [List.foldl_append, List.foldl_cons, List.foldl_nil]
    rw [ih] at hdistinct ⊢
    rw [latest] at hdistinct ⊢
    rw [latest, eraseDupsBy_concat, funext (lastNamed_concat view list last)]
    split
    · rename_i hany
      obtain ⟨first, hmem, hfirst⟩ := List.any_eq_true.1 hany
      have hmatch := (hsame first).trans hfirst
      rw [putNamed, putFirst_of_exists ⟨_, List.mem_map_of_mem hmem, hmatch⟩,
        modifyFirst_eq_map view hdistinct, List.map_map]
      exact List.map_congr_left fun other _ => by simp only [Function.comp_apply, hsame]
    · rename_i hnone
      have hdiffer : ∀ first ∈ list.eraseDupsBy fun left right =>
          Text.sameName (view left) (view right),
            Text.sameName (view last) (view first) = false := by
        simpa using hnone
      rw [putNamed, putFirst_of_none, List.map_append, List.map_singleton,
        if_pos (Text.sameName_refl _)]
      · congr 1
        exact List.map_congr_left fun first hfirst => by simp [hdiffer first hfirst]
      · rw [List.find?_eq_none, List.forall_mem_map]
        intro first hfirst
        rw [hsame, hdiffer first hfirst]
        exact Bool.false_ne_true

theorem distinctNames_latest (list : List α) : DistinctNames ((latest view list).map view) :=
  foldl_putNamed view list ▸ distinctNames_foldl_putNamed view list

/-- A list of distinct names has each of them once. -/
theorem latest_eq_self {list : List α} (hdistinct : DistinctNames (list.map view)) :
    latest view list = list := by
  induction list using List.reverseRecOn with
  | nil => rfl
  | append_singleton list last ih =>
    have hearlier : DistinctNames (list.map view) :=
      List.Pairwise.sublist ((List.sublist_append_left list [last]).map view) hdistinct
    rw [← foldl_putNamed, List.foldl_append, foldl_putNamed, ih hearlier]
    exact putFirst_of_distinctNames view last hdistinct

/-- Elements are put behind a list of distinct names. -/
theorem foldl_putNamed_of_distinctNames {list : List α} (hdistinct : DistinctNames (list.map view))
    (added : List α) : added.foldl (putNamed view) list = latest view (list ++ added) := by
  rw [← foldl_putNamed, List.foldl_append, foldl_putNamed, latest_eq_self view hdistinct]

theorem latest_concat (list : List α) (last : α) :
    latest view (list ++ [last]) = putNamed view (latest view list) last := by
  rw [← foldl_putNamed, List.foldl_append, foldl_putNamed, List.foldl_cons, List.foldl_nil]

/-- An element of the latest ones is the last of its name. -/
theorem find?_of_mem_latest {list : List α} {element : α} (hmem : element ∈ latest view list) :
    list.reverse.find? (fun other => Text.sameName (view other) (view element)) =
      some element := by
  induction list using List.reverseRecOn with
  | nil => cases hmem
  | append_singleton list last ih =>
    rw [List.reverse_append, List.reverse_singleton, List.singleton_append, List.find?_cons]
    rw [latest_concat] at hmem
    rcases mem_putFirst_of_distinctNames view (distinctNames_latest view list) hmem with
      rfl | ⟨hold, hdiffer⟩
    · rw [Text.sameName_refl]
    · rw [Text.sameName_comm, hdiffer]
      exact ih hold

theorem mem_of_mem_latest {list : List α} {element : α} (hmem : element ∈ latest view list) :
    element ∈ list :=
  List.mem_reverse.1 (List.mem_of_find?_eq_some (find?_of_mem_latest view hmem))

/-- Every name is among the latest ones. -/
theorem exists_mem_latest {list : List α} {element : α} (hmem : element ∈ list) :
    ∃ found ∈ latest view list, Text.sameName (view found) (view element) = true := by
  induction list using List.reverseRecOn with
  | nil => cases hmem
  | append_singleton list last ih =>
    rw [latest_concat]
    rcases List.mem_append.1 hmem with hold | hlast
    · obtain ⟨found, hfound, hsame⟩ := ih hold
      cases htest : Text.sameName (view found) (view last) with
      | false => exact ⟨found, mem_putFirst_of_mem hfound htest, hsame⟩
      | true =>
        refine ⟨last, self_mem_putFirst _ _ _, ?_⟩
        rw [← Text.sameName_congr htest, hsame]
    · exact ⟨last, self_mem_putFirst _ _ _, by rw [List.mem_singleton.1 hlast, Text.sameName_refl]⟩

/-- Elements are put the same under another form that keeps their names. -/
theorem map_putNamed {β : Type} {other : β → String} {change : α → β}
    (hname : ∀ element, other (change element) = view element) (list : List α) (element : α) :
    (putNamed view list element).map change =
      putNamed other (list.map change) (change element) := by
  simp only [putNamed, hname]
  induction list with
  | nil => rfl
  | cons first rest ih =>
    rw [List.map_cons, putFirst, putFirst, hname]
    split
    · rfl
    · rw [List.map_cons, ih]

end Latest

end Crowfoot
