import LinkTemplate.Proofs.FirstProblem
import LinkTemplate.Proofs.RoundTrip
/-!
# Reading one text behind another

Behind a text that can be read, reading goes on as if it started there. Only a literal at the end
of the first text and one at the start of the second are not told apart: they are one literal.
-/

namespace LinkTemplate

namespace Template

/-! ## Templates one behind the other -/

/-- The parts of one template and then those of the next, where two literals that meet are one. -/
def append (template next : Template) : Template :=
  match template.parts.getLast?, next.parts with
  | some (.literal text), .literal more :: rest =>
    ⟨template.parts.dropLast ++ .literal (text ++ more) :: rest⟩
  | _, _ => ⟨template.parts ++ next.parts⟩

theorem nil_append (next : Template) : append ⟨[]⟩ next = next := rfl

theorem append_of_no_literal (template : Template) {next : Template}
    (h : ∀ part ∈ next.parts.head?, ¬ part.IsLiteral) :
    template.append next = ⟨template.parts ++ next.parts⟩ := by
  unfold append
  split
  · rename_i hnext
    simp [hnext, Part.IsLiteral] at h
  · rfl

theorem cons_append {part : Part} {parts : List Part} (next : Template)
    (h : parts ≠ [] ∨ ¬ part.IsLiteral) :
    append ⟨part :: parts⟩ next = ⟨part :: (append ⟨parts⟩ next).parts⟩ := by
  cases parts with
  | nil =>
    cases part with
    | literal text => simp [Part.IsLiteral] at h
    | expression e => rfl
  | cons second parts =>
    simp only [append, List.getLast?_cons_cons, List.dropLast_cons_cons]
    split <;> rfl

theorem expand_append (template next : Template) (bindings : Bindings) :
    (template.append next).expand bindings =
      template.expand bindings ++ next.expand bindings := by
  unfold append expand
  split
  · rename_i hlast hnext
    obtain ⟨parts, hparts⟩ := List.getLast?_eq_some_iff.mp hlast
    simp [hparts, hnext, Part.expand]
  · simp

/-! ## Where a template starts -/

theorem head?_not_isLiteral_of_atBrace {text : Text} {template : Template}
    (h : parse text = .ok template) (hbrace : Text.AtBrace text) :
    ∀ part ∈ template.parts.head?, ¬ part.IsLiteral := by
  obtain ⟨segments, hcut, hparts⟩ := exists_isCut_of_parse h
  rw [hcut.atBrace_iff] at hbrace
  obtain ⟨parts⟩ := template
  cases hparts with
  | nil => simp
  | cons hpart _ => simpa [hpart.isLiteral_iff] using hbrace

theorem parts_ne_nil_of_parse {text : Text} {template : Template} (h : parse text = .ok template)
    (hne : text ≠ []) : template.parts ≠ [] := by
  obtain ⟨segments, hcut, hparts⟩ := exists_isCut_of_parse h
  intro hnil
  rw [hnil, List.forall₂_nil_right_iff] at hparts
  rw [hparts, isCut_nil_iff] at hcut
  exact hne hcut

/-! ## Reading -/

/-- The outcome of reading the rest of a text, as it is behind `n` characters that gave
`template`. -/
def outcomeBehind (n : Nat) (text : Text) (template : Template) :
    Except SyntaxError Template → Except SyntaxError Template
  | .error error => .error (error.rebase n text)
  | .ok next => .ok (template.append next)

theorem outcomeAfter_outcomeBehind {m n : Nat} {text rest : Text} {part : Part}
    {parts : List Part} (h : parts ≠ [] ∨ ¬ part.IsLiteral)
    (outcome : Except SyntaxError Template) :
    outcomeAfter m text [part] (outcomeBehind n rest ⟨parts⟩ outcome) =
      outcomeBehind (m + n) text ⟨part :: parts⟩ outcome := by
  cases outcome with
  | error error => simp [outcomeBehind]
  | ok next => simp [outcomeBehind, cons_append next h]

theorem parse_literal_append {text : Text} (h : Text.BraceFree text) (more : Text) :
    parse (text ++ more) =
      outcomeBehind text.length (text ++ more) ⟨literals text⟩ (parse more) := by
  -- Up to the first brace of `more` it is all one literal.
  obtain ⟨before, rest, rfl, hbefore, hrest⟩ := Text.exists_first_brace more
  rw [← List.append_assoc, parse_literal (Text.braceFree_append.mpr ⟨h, hbefore⟩) hrest,
    parse_literal hbefore hrest]
  cases hread : parse rest with
  | error error => simp [outcomeBehind]
  | ok next =>
    have hhead := head?_not_isLiteral_of_atBrace hread hrest
    by_cases htext : text = []
    · simp [outcomeBehind, htext, literals, nil_append]
    · by_cases hempty : before = []
      · simp [outcomeBehind, hempty, literals, append_of_no_literal _ hhead]
      · simp [outcomeBehind, htext, hempty, literals, append]

theorem parse_append_eq {text : Text} {template : Template} (h : parse text = .ok template)
    (more : Text) :
    parse (text ++ more) = outcomeBehind text.length (text ++ more) template (parse more) := by
  induction course text generalizing template with
  | done =>
    obtain rfl : (⟨[]⟩ : Template) = template := by simpa using h
    exact parse_literal_append Text.braceFree_nil more
  | obstacle hvalid =>
    rw [parse_obstacle hvalid] at h
    simp at h
  | @literal before rest hne hfree hrest _ ih =>
    by_cases hempty : rest = []
    · -- The literal is the end of the text, so `more` may go on with it.
      subst hempty
      rw [List.append_nil] at h ⊢
      rw [parse_braceFree hfree, Except.ok.injEq] at h
      rw [parse_literal_append hfree, h]
    · rw [parse_literal hfree hrest] at h
      obtain ⟨after, hafter, rfl⟩ := outcomeAfter_eq_ok h
      have hparts := parts_ne_nil_of_parse hafter hempty
      rw [List.append_assoc, parse_literal hfree (hrest.append_of_ne_nil hempty more), ih hafter,
        literals, if_neg hne, outcomeAfter_outcomeBehind (Or.inl hparts)]
      simp
  | @braces body rest expression hfree hne hread _ ih =>
    rw [parse_braces hfree hne, hread] at h
    obtain ⟨after, hafter, rfl⟩ := outcomeAfter_eq_ok h
    rw [List.cons_append, List.append_assoc, List.cons_append, parse_braces hfree hne, hread]
    simp only [ih hafter]
    rw [outcomeAfter_outcomeBehind (Or.inr id)]
    congr 1
    simp
    omega

end Template

/-- An error that is moved behind another text still shows the same character. -/
theorem SyntaxError.locate_append {position : Nat} (h : 0 < position) (before text : Text)
    (problem : Problem) :
    locate (before ++ text) problem (before.length + position) =
      { locate text problem position with
        position := position + before.length
        template := before ++ text } := by
  have hcharacter : (before ++ text)[before.length + position - 1]? = text[position - 1]? := by
    rw [List.getElem?_append_right (by omega)]
    congr 1
    omega
  simp only [locate, hcharacter, Nat.add_comm position]

/-- Behind a text that is a template, a second text adds its parts, where two literals that meet
are one, and expands to what it expands to alone. If the second text is no template, neither are
both together, for the same reason and at the same character. -/
theorem parse_append (text : Text) (template : Template)
    (h : Template.parse text = .ok template) (more : Text) :
    (∀ next, Template.parse more = .ok next →
      Template.parse (text ++ more) = .ok (template.append next) ∧
        ∀ bindings, (template.append next).expand bindings =
          template.expand bindings ++ next.expand bindings) ∧
    ∀ error, Template.parse more = .error error →
      Template.parse (text ++ more) = .error { error with
        position := error.position + text.length
        template := text ++ more } := by
  have hread := Template.parse_append_eq h more
  constructor
  · intro next hnext
    rw [hnext] at hread
    exact ⟨hread, Template.expand_append template next⟩
  · intro error herror
    rw [herror] at hread
    have hlocate := SyntaxError.locate_append (position_pos_of_parse herror) text more error.problem
    rw [← Template.eq_locate_of_parse herror] at hlocate
    rw [← hlocate]
    exact hread

/-- Two literals meet at the seam, and a length is malformed behind it. -/
theorem parse_append_at_literals :
    let template : Template :=
      ⟨[.expression ⟨.simple, [⟨['a'], false, 0⟩]⟩, .literal ['é', '-']]⟩
    let next : Template := ⟨[.literal ['/'], .expression ⟨.simple, [⟨['b'], false, 0⟩]⟩]⟩
    let bindings : Bindings := Table.ofList [(['b'], .text [' '])]
    (Template.parse "{a}é-".toList = .ok template ∧ Template.parse "/{b}".toList = .ok next ∧
      Template.parse ("{a}é-".toList ++ "/{b}".toList) = .ok (template.append next) ∧
      (template.append next).parts = [.expression ⟨.simple, [⟨['a'], false, 0⟩]⟩,
        .literal ['é', '-', '/'], .expression ⟨.simple, [⟨['b'], false, 0⟩]⟩] ∧
      (template.append next).expand bindings =
        template.expand bindings ++ next.expand bindings) ∧
      Template.parse "/{b:x}".toList = .error ⟨.malformedModifier, some 'x', 5, "/{b:x}".toList⟩ ∧
      Template.parse ("{a}é-".toList ++ "/{b:x}".toList) =
        .error ⟨.malformedModifier, some 'x', 10, "{a}é-/{b:x}".toList⟩ := by
  intro template next bindings
  have h : Template.parse "{a}é-".toList = .ok template := by decide +kernel
  have hnext : Template.parse "/{b}".toList = .ok next := by decide +kernel
  have herror : Template.parse "/{b:x}".toList =
      .error ⟨.malformedModifier, some 'x', 5, "/{b:x}".toList⟩ := by decide +kernel
  obtain ⟨hboth, hexpand⟩ := (parse_append _ _ h _).1 _ hnext
  exact ⟨⟨h, hnext, hboth, rfl, hexpand bindings⟩, herror, (parse_append _ _ h _).2 _ herror⟩

end LinkTemplate
