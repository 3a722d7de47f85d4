/-!
# Text

A text is the list of its characters, so a position or a length always counts characters.
Cutting at every mark and joining again are core's `List.splitOn` and `List.intercalate`.
-/

namespace LinkTemplate

abbrev Text := List Char

namespace Text

/-- Cuts at the first `mark`, which is dropped; `none` where there is no mark. -/
def cut? (mark : Char) : Text → Option (Text × Text)
  | [] => none
  | c :: rest =>
    if c = mark then some ([], rest)
    else (cut? mark rest).map fun (before, after) => (c :: before, after)

theorem eq_append_of_cut? {mark : Char} {text before after : Text}
    (h : cut? mark text = some (before, after)) :
    text = before ++ mark :: after ∧ mark ∉ before := by
  induction text generalizing before with
  | nil => simp [cut?] at h
  | cons c rest ih =>
    by_cases hc : c = mark
    · simp [cut?, hc] at h
      obtain ⟨rfl, rfl⟩ := h
      simp [hc]
    · simp only [cut?, hc, if_false, Option.map_eq_some_iff, Prod.exists, Prod.mk.injEq] at h
      obtain ⟨b, a, hb, rfl, rfl⟩ := h
      obtain ⟨hrest, hmem⟩ := ih hb
      simp [hrest, hmem, Ne.symm hc]

theorem cut?_append {mark : Char} {before after : Text} (h : mark ∉ before) :
    cut? mark (before ++ mark :: after) = some (before, after) := by
  induction before with
  | nil => simp [cut?]
  | cons c rest ih =>
    simp only [List.mem_cons, not_or] at h
    simp [cut?, Ne.symm h.1, ih h.2]

theorem cut?_eq_none_iff {mark : Char} {text : Text} : cut? mark text = none ↔ mark ∉ text := by
  induction text with
  | nil => simp [cut?]
  | cons c rest ih =>
    by_cases hc : c = mark
    · simp [cut?, hc]
    · simp [cut?, hc, ih, Ne.symm hc]

/-- Drops one `mark` from the end, and says whether there was one. -/
def dropEnd (mark : Char) (text : Text) : Text × Bool :=
  if text.getLast? = some mark then (text.dropLast, true) else (text, false)

end Text

end LinkTemplate
