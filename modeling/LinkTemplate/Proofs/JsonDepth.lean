import LinkTemplate.Proofs.JsonReader
/-!
# Texts that nest too deeply

The grammar puts no limit to the nesting of arrays and objects, the reader does. What it reads from
a JSON text is always the value of that text; it reads nothing only from a text whose value nests
deeper than it goes.
-/

namespace LinkTemplate.Json

/-! ## Depth in the grammar -/

/-- The values that stand in an array or in an object. -/
def children : Json → List Json
  | array items => items
  | object members => members.map Prod.snd
  | null | bool _ | number _ | string _ => []

theorem WellFormed.child {depth : Nat} {json child : Json} (h : json.WellFormed (depth + 1))
    (hchild : child ∈ json.children) : child.WellFormed depth := by
  cases json with
  | array items => exact h child hchild
  | object members =>
    obtain ⟨member, hmember, rfl⟩ := List.mem_map.mp hchild
    exact h member hmember
  | null | bool _ | number _ | string _ => simp [children] at hchild

theorem Series.imp_of_mem {α : Type} {entry entry' : α → Text → Prop} {as : List α} {text : Text}
    (h : Series entry as text) (himp : ∀ a ∈ as, ∀ {t}, entry a t → entry' a t) :
    Series entry' as text := by
  induction h with
  | last ha => exact .last (himp _ (by simp) ha)
  | more ha _ ih =>
    exact .more (himp _ (by simp) ha) (ih fun b hb => himp b (List.mem_cons_of_mem _ hb))

section

variable {value value' : Json → Text → Prop} {json : Json} {text : Text}

theorem Padded.imp (h : Padded value json text) (himp : ∀ {t}, value json t → value' json t) :
    Padded value' json text := by
  obtain ⟨hbefore, hvalue, hafter⟩ := h
  exact .intro hbefore (himp hvalue) hafter

theorem IsMember.imp {member : Text × Json} (h : IsMember value member text)
    (himp : ∀ {t}, value member.2 t → value' member.2 t) : IsMember value' member text := by
  obtain ⟨hbefore, hname, hafter, hvalue⟩ := h
  exact .intro hbefore hname hafter (hvalue.imp himp)

theorem IsNested.imp_of_mem (h : IsNested value json text)
    (himp : ∀ child ∈ json.children, ∀ {t}, value child t → value' child t) :
    IsNested value' json text := by
  cases h with
  | scalar hscalar => exact .scalar hscalar
  | emptyArray hblanks => exact .emptyArray hblanks
  | array hitems => exact .array (hitems.imp_of_mem fun item hitem _ ht => ht.imp (himp item hitem))
  | emptyObject hblanks => exact .emptyObject hblanks
  | object hmembers =>
    refine .object (hmembers.imp_of_mem fun member hmember _ ht => ht.imp (himp member.2 ?_))
    exact List.mem_map_of_mem hmember

end

theorem isValue_succ {depth : Nat} {json : Json} {text : Text} (h : IsValue depth json text) :
    IsValue (depth + 1) json text := by
  induction depth generalizing json text with
  | zero => exact .scalar h
  | succ depth ih => exact IsNested.imp_of_mem h fun _ _ {_} ht => ih ht

theorem isValue_of_le {depth depth' : Nat} (hle : depth ≤ depth') {json : Json} {text : Text}
    (h : IsValue depth json text) : IsValue depth' json text := by
  induction hle with
  | refl => exact h
  | step _ ih => exact isValue_succ ih

/-- How deeply a text nests is decided by its value. -/
theorem isValue_of_wellFormed {depth depth' : Nat} {json : Json} {text : Text}
    (h : IsValue depth' json text) (hwell : json.WellFormed depth) : IsValue depth json text := by
  induction depth generalizing depth' json text with
  | zero =>
    cases depth' with
    | zero => exact h
    | succ depth' =>
      cases h with
      | scalar hscalar => exact hscalar
      | emptyArray _ | array _ | emptyObject _ | object _ => exact hwell.elim
  | succ depth ih =>
    cases depth' with
    | zero => exact .scalar h
    | succ depth' => exact IsNested.imp_of_mem h fun _ hchild {_} ht => ih ht (hwell.child hchild)

/-! ## Depth in the reader -/

section

variable {read read' : Text → Option (Json × Text)}

theorem readItems_mono (h : ∀ {text r}, read text = some r → read' text = some r) {limit : Nat}
    {text : Text} {r : List Json × Text} (hread : readItems read limit text = some r) :
    readItems read' limit text = some r := by
  induction limit generalizing text r with
  | zero => cases hread
  | succ limit ih =>
    unfold readItems at hread ⊢
    obtain ⟨⟨item, rest⟩, hitem, hmore⟩ := Option.bind_eq_some_iff.mp hread
    refine Option.bind_eq_some_iff.mpr ⟨(item, rest), h hitem, ?_⟩
    revert hmore
    dsimp only
    split
    · intro hmore
      obtain ⟨found, hitems, heq⟩ := Option.bind_eq_some_iff.mp hmore
      exact Option.bind_eq_some_iff.mpr ⟨found, ih hitems, heq⟩
    · exact id
    · exact id

theorem readMembers_mono (h : ∀ {text r}, read text = some r → read' text = some r) {limit : Nat}
    {text : Text} {r : List (Text × Json) × Text} (hread : readMembers read limit text = some r) :
    readMembers read' limit text = some r := by
  induction limit generalizing text r with
  | zero => cases hread
  | succ limit ih =>
    unfold readMembers at hread ⊢
    obtain ⟨⟨name, behind⟩, hname, hnamed⟩ := Option.bind_eq_some_iff.mp hread
    obtain ⟨⟨value, rest⟩, hvalue, hmore⟩ := Option.bind_eq_some_iff.mp hnamed
    refine Option.bind_eq_some_iff.mpr ⟨(name, behind), hname, ?_⟩
    refine Option.bind_eq_some_iff.mpr ⟨(value, rest), h hvalue, ?_⟩
    revert hmore
    dsimp only
    split
    · intro hmore
      obtain ⟨found, hmembers, heq⟩ := Option.bind_eq_some_iff.mp hmore
      exact Option.bind_eq_some_iff.mpr ⟨found, ih hmembers, heq⟩
    · exact id
    · exact id

end

theorem readScalar_bracket {c : Char} (h : c ∈ ['[', '{']) (rest : Text) :
    readScalar (c :: rest) = none := by
  simp only [List.mem_cons, List.not_mem_nil, or_false] at h
  obtain rfl | rfl := h
  all_goals simp [readScalar, readNumber, takeWhole?, takeDigits?, List.span_eq_takeWhile_dropWhile]

theorem readValue_of_no_bracket {text : Text} (h : ∀ c ∈ text.head?, c ∉ ['[', '{'])
    (depth : Nat) : readValue depth text = readScalar text := by
  unfold readValue
  split
  · rfl
  · simp at h
  · simp at h
  · rfl

theorem no_bracket_or_bracket (text : Text) :
    (∀ c ∈ text.head?, c ∉ ['[', '{']) ∨ ∃ rest, text = '[' :: rest ∨ text = '{' :: rest := by
  cases text with
  | nil => simp
  | cons c rest =>
    by_cases hc : c ∈ ['[', '{']
    · simp only [List.mem_cons, List.not_mem_nil, or_false] at hc
      obtain rfl | rfl := hc <;> simp
    · left
      simpa [-List.mem_cons] using hc

/-- A reader that goes deeper reads the same wherever the other one reads anything. -/
theorem readValue_succ {depth : Nat} {text : Text} {r : Json × Text}
    (h : readValue depth text = some r) : readValue (depth + 1) text = some r := by
  induction depth generalizing text r with
  | zero =>
    have hscalar : readScalar text = some r := h
    obtain hhead | ⟨rest, rfl | rfl⟩ := no_bracket_or_bracket text
    · rwa [readValue_of_no_bracket hhead]
    · rw [readScalar_bracket (by simp)] at hscalar
      cases hscalar
    · rw [readScalar_bracket (by simp)] at hscalar
      cases hscalar
  | succ depth ih =>
    obtain hhead | ⟨rest, rfl | rfl⟩ := no_bracket_or_bracket text
    · rwa [readValue_of_no_bracket hhead] at h ⊢
    · simp only [readValue] at h ⊢
      split at h
      · exact h
      · obtain ⟨found, hitems, heq⟩ := Option.map_eq_some_iff.mp h
        exact Option.map_eq_some_iff.mpr ⟨found, readItems_mono ih hitems, heq⟩
    · simp only [readValue] at h ⊢
      split at h
      · exact h
      · obtain ⟨found, hmembers, heq⟩ := Option.map_eq_some_iff.mp h
        exact Option.map_eq_some_iff.mpr ⟨found, readMembers_mono ih hmembers, heq⟩

theorem readValue_of_le {depth depth' : Nat} (hle : depth ≤ depth') {text : Text}
    {r : Json × Text} (h : readValue depth text = some r) : readValue depth' text = some r := by
  induction hle with
  | refl => exact h
  | step _ ih => exact readValue_succ ih

/-! ## Reading a JSON text -/

/-- A JSON text is read if its value nests no deeper than the reader goes. -/
theorem read?_of_isText {json : Json} {text : Text} (h : IsText json text)
    (hwell : json.WellFormed maxDepth) : read? text = some json := by
  obtain ⟨depth, hpadded⟩ := h
  exact read?_of_padded (hpadded.imp fun hvalue => isValue_of_wellFormed hvalue hwell)

/-- Nothing else is read from a JSON text than its value. -/
theorem eq_of_read?_of_isText {json other : Json} {text : Text} (h : IsText json text)
    (hread : read? text = some other) : other = json := by
  obtain ⟨depth, hpadded⟩ := h
  -- A reader that goes deep enough for the text reads its value, and what this one reads.
  have hdeep : Padded (IsValue (max depth maxDepth)) json text :=
    hpadded.imp fun hvalue => isValue_of_le (Nat.le_max_left ..) hvalue
  obtain ⟨after, hvalue, -⟩ := (reads_value _).whole hdeep
  unfold read? at hread
  split at hread
  · rename_i found rest hfound
    have hother := readValue_of_le (Nat.le_max_right depth maxDepth) hfound
    rw [hvalue] at hother
    cases hother
    split at hread
    · exact (Option.some.inj hread).symm
    · cases hread
  · cases hread

end LinkTemplate.Json
