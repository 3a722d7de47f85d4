import LinkTemplate.Expansion
import LinkTemplate.Proofs.Bodies
import LinkTemplate.Proofs.Scan
/-!
# Prefixes of values

A term with a length expands as the term without it does for the start of the value. The length is
kept in 64 bits, which no value can tell from the length that was written.
-/

namespace LinkTemplate

/-! ## A name alone in its braces -/

/-- The name is read as it stands behind the symbol of the operator. -/
structure Operator.Admits (op : Operator) (name : Text) : Prop where
  ne_nil : name ≠ []
  plain : ∀ c ∈ name, c ∉ [',', ':', '{', '}']
  no_star : name.getLast? ≠ some '*'
  no_symbol : op = .simple → ∀ c ∈ name.head?, Operator.ofChar? c = none

namespace Operator.Admits

variable {op : Operator} {name : Text}

theorem not_mem (h : op.Admits name) {c : Char} (hc : c ∈ [',', ':', '{', '}']) : c ∉ name :=
  fun hmem => h.plain c hmem hc

theorem wellFormed (h : op.Admits name) {n : Nat} (hn : n ≤ Term.maxLength) :
    Term.WellFormed ⟨name, false, n⟩ where
  name_ne_nil := h.ne_nil
  comma := h.not_mem (by simp)
  colon := h.not_mem (by simp)
  braceFree := ⟨h.not_mem (by simp), h.not_mem (by simp)⟩
  one_modifier := by simp
  truncate_le := hn

theorem parse_bare_name (h : op.Admits name) : Term.parse name = .ok ⟨name, false, 0⟩ := by
  have hwell := h.wellFormed (Nat.zero_le Term.maxLength)
  have hread := (Term.parse_text_iff hwell).mpr fun hbare => h.no_star hbare.2.2
  simpa [Term.text, Term.modifiers] using hread

/-- The braces hold the symbol and one spec, which is read as a term of this name. -/
theorem parse_braces (h : op.Admits name) {n : Nat} (hn : n ≤ Term.maxLength) {spec : Text}
    (hread : Term.parse spec = .ok ⟨name, false, n⟩) (hcomma : ',' ∉ spec)
    (hfree : Text.BraceFree spec) :
    Template.parse ('{' :: (op.symbol ++ spec) ++ ['}']) =
      .ok ⟨[.expression ⟨op, [⟨name, false, n⟩]⟩]⟩ := by
  let e : Expression := ⟨op, [⟨name, false, n⟩]⟩
  have hwell : e.WellFormed := by
    refine ⟨List.cons_ne_nil _ _, ?_, fun hsimple => ?_⟩
    · exact List.forall_mem_singleton.mpr (h.wellFormed hn)
    · simpa [e] using h.no_symbol hsimple
  have hnames : List.Forall₂ (fun spec term => term.name <+: spec) [spec] e.terms :=
    .cons (Term.name_prefix_of_parse hread) .nil
  have hbody : Expression.parse (op.symbol ++ [','].intercalate [spec]) = .ok e :=
    (hwell.parse_body_of_specs_iff hnames (List.forall_mem_singleton.mpr hcomma)).mpr
      ⟨rfl, .cons hread .nil⟩
  have hne := hwell.body_of_specs_ne_nil hnames
  rw [List.intercalate_singleton] at hbody hne
  have hfreeBody : Text.BraceFree (op.symbol ++ spec) :=
    Text.braceFree_append.mpr ⟨op.braceFree_symbol, hfree⟩
  rw [List.cons_append, Template.parse_braces hfreeBody hne, hbody]
  rfl

theorem parse_name (h : op.Admits name) :
    Template.parse ('{' :: (op.symbol ++ name) ++ ['}']) =
      .ok ⟨[.expression ⟨op, [⟨name, false, 0⟩]⟩]⟩ := by
  have hwell := h.wellFormed (Nat.zero_le Term.maxLength)
  exact h.parse_braces (Nat.zero_le _) h.parse_bare_name hwell.comma hwell.braceFree

theorem parse_length (h : op.Admits name) {digits : Text} (hne : digits ≠ [])
    (hall : ∀ c ∈ digits, c.isDigit) :
    Template.parse ('{' :: (op.symbol ++ (name ++ ':' :: digits)) ++ ['}']) =
      .ok ⟨[.expression ⟨op, [⟨name, false, min (Decimal.value digits) Term.maxLength⟩]⟩]⟩ := by
  have hn : min (Decimal.value digits) Term.maxLength ≤ Term.maxLength := Nat.min_le_right _ _
  have hwell := h.wellFormed hn
  have hdigits : ∀ c, c.isDigit = false → c ∉ digits := by
    intro c hc hmem
    rw [hall c hmem] at hc
    cases hc
  refine h.parse_braces hn (hwell.parse_length rfl hne hall rfl) ?_ ?_
  · simp [hwell.comma, hdigits ',' rfl]
  · rw [Text.braceFree_append, Text.braceFree_cons]
    exact ⟨hwell.braceFree, by decide, hdigits '{' rfl, hdigits '}' rfl⟩

end Operator.Admits

/-! ## What a length does to a value -/

theorem Slot.cut_min_maxLength {text : Text} (h : text.length ≤ Term.maxLength) (n : Nat) :
    cut (min n Term.maxLength) text = cut n text := by
  rcases Nat.le_total n Term.maxLength with hn | hn
  · rw [Nat.min_eq_left hn]
  · have hpos : 0 < Term.maxLength := by decide
    unfold cut
    rw [Nat.min_eq_right hn, if_neg (by omega), if_neg (by omega), List.take_of_length_le h,
      List.take_of_length_le (Nat.le_trans h hn)]

/-- Only the value knows of the length: the label is written as it is without one. -/
theorem Slot.expandText_length (op : Operator) (name : Text) (n : Nat) (text : Text) :
    (Slot.ofTerm op ⟨name, false, n⟩).expandText text =
      (Slot.ofTerm op ⟨name, false, 0⟩).expandText (cut n text) := rfl

theorem Term.expand?_text {op : Operator} {bindings : Bindings} {name text : Text} {n : Nat}
    (h : bindings.get? name = some (.text text)) :
    expand? op bindings ⟨name, false, n⟩ =
      some ((Slot.ofTerm op ⟨name, false, n⟩).expandText text) :=
  expand?_of_get? op ⟨name, false, n⟩ h rfl

theorem Template.expand_term (op : Operator) {bindings : Bindings} {term : Term} {piece : Text}
    (h : term.expand? op bindings = some piece) :
    Template.expand bindings ⟨[.expression ⟨op, [term]⟩]⟩ = op.style.first ++ piece := by
  simp [Template.expand, Part.expand, Expression.expand_singleton h]

/-- A length cuts the value before anything else is done with it. It may be written with any number
of digits, and 0 stands for no length. -/
theorem length_expands_as_cut_value {op : Operator} {name digits s : Text} {V V' : Bindings}
    (hname : op.Admits name) (hdigits : digits ≠ []) (hall : ∀ c ∈ digits, c.isDigit)
    (hlength : s.length < UInt64.size) (hV : V.get? name = some (.text s))
    (hV' : V'.get? name =
      some (.text (if Decimal.value digits = 0 then s else s.take (Decimal.value digits)))) :
    ∃ template plain,
      Template.parse ('{' :: (op.symbol ++ (name ++ ':' :: digits)) ++ ['}']) = .ok template ∧
      Template.parse ('{' :: (op.symbol ++ name) ++ ['}']) = .ok plain ∧
      template.expand V = plain.expand V' := by
  refine ⟨_, _, hname.parse_length hdigits hall, hname.parse_name, ?_⟩
  rw [Template.expand_term op (Term.expand?_text hV),
    Template.expand_term op (Term.expand?_text hV'), Slot.expandText_length,
    Slot.cut_min_maxLength (Nat.le_sub_one_of_lt hlength)]
  rfl

/-- Leading zeros do not count, and a character of several bytes is one character. -/
theorem length_expands_as_cut_value_of_three :
    ∃ template plain, Template.parse "{?é:003}".toList = .ok template ∧
      Template.parse "{?é}".toList = .ok plain ∧
      template.expand (Table.ofList [(['é'], .text "日本 語".toList)]) =
        "?é=%E6%97%A5%E6%9C%AC%20".toList ∧
      template.expand (Table.ofList [(['é'], .text "日本 語".toList)]) =
        plain.expand (Table.ofList [(['é'], .text "日本 ".toList)]) := by
  have hname : Operator.query.Admits ['é'] :=
    ⟨by simp, by simp, by simp, fun hsimple => by cases hsimple⟩
  obtain ⟨template, plain, hread, hplain, hexpand⟩ := @length_expands_as_cut_value .query ['é']
    ['0', '0', '3'] "日本 語".toList (Table.ofList [(['é'], .text "日本 語".toList)])
    (Table.ofList [(['é'], .text "日本 ".toList)]) hname (by simp) (by simp)
    (by simp [UInt64.size]) rfl rfl
  refine ⟨template, plain, hread, hplain, ?_, hexpand⟩
  rw [hexpand]
  have hterm : plain = ⟨[.expression ⟨.query, [⟨['é'], false, 0⟩]⟩]⟩ := by
    rw [hname.parse_name] at hplain
    exact (Except.ok.inj hplain).symm
  rw [hterm]
  decide +kernel

end LinkTemplate
