import LinkTemplate.Expansion
import LinkTemplate.Proofs.Bodies
import LinkTemplate.Proofs.Cuts
/-!
# Reading a template back from its text

The templates that can be read, and which of them are read back from the text that is written for
them. The text leaves out a length of 0, and a star at the end of a name is then taken for a
modifier; nothing else is lost.
-/

namespace LinkTemplate

/-! ## The templates that can be read -/

def Part.IsLiteral : Part → Prop
  | literal _ => True
  | expression _ => False

theorem Segment.Reads.isLiteral_iff {segment : Segment} {part : Part}
    (h : segment.Reads part) : part.IsLiteral ↔ segment.IsPlain := by
  cases segment with
  | plain text =>
    obtain rfl := h
    exact Iff.rfl
  | braces body =>
    obtain ⟨expression, -, rfl⟩ := h
    exact Iff.rfl

namespace Template

structure WellFormed (template : Template) : Prop where
  literal : ∀ text, .literal text ∈ template.parts → text ≠ [] ∧ Text.BraceFree text
  expression : ∀ e, .expression e ∈ template.parts → e.WellFormed
  not_adjacent : template.parts.IsChain fun part next => ¬ (part.IsLiteral ∧ next.IsLiteral)

theorem not_adjacent_iff_of_reads {segments : List Segment} {parts : List Part}
    (hparts : List.Forall₂ Segment.Reads segments parts) :
    (parts.IsChain fun part next => ¬ (part.IsLiteral ∧ next.IsLiteral)) ↔
      segments.IsChain fun s t => ¬ (s.IsPlain ∧ t.IsPlain) := by
  have hplain : parts.map Part.IsLiteral = segments.map Segment.IsPlain := by
    induction hparts with
    | nil => rfl
    | cons hpart _ ih => simp [ih, hpart.isLiteral_iff]
  calc
    _ ↔ (parts.map Part.IsLiteral).IsChain fun p q => ¬ (p ∧ q) :=
      (List.isChain_map Part.IsLiteral).symm
    _ ↔ _ := by rw [hplain, List.isChain_map]

theorem wellFormed_of_parse {text : Text} {template : Template}
    (h : parse text = .ok template) : template.WellFormed := by
  obtain ⟨segments, hcut, hparts⟩ := exists_isCut_of_parse h
  refine ⟨?_, ?_, (not_adjacent_iff_of_reads hparts).mpr hcut.not_adjacent⟩
  · intro before hmem
    obtain ⟨segment, hsegment, hreads⟩ := exists_mem_of_forall₂ hparts hmem
    cases segment with
    | plain text =>
      obtain rfl : before = text := by simpa [Segment.Reads] using hreads
      exact ⟨hcut.ne_nil _ hsegment, hcut.braceFree _ hsegment⟩
    | braces body => simp [Segment.Reads] at hreads
  · intro e hmem
    obtain ⟨segment, hsegment, hreads⟩ := exists_mem_of_forall₂ hparts hmem
    cases segment with
    | plain text => simp [Segment.Reads] at hreads
    | braces body =>
      obtain ⟨_, hread, heq⟩ := hreads
      cases heq
      exact Expression.wellFormed_of_parse hread
        (hcut.braceFree _ hsegment)

end Template

/-! ## The text of a template -/

def Part.segment : Part → Segment
  | literal text => .plain text
  | expression e => .braces e.body

theorem Part.text_segment (part : Part) : part.segment.text = part.text := by
  cases part <;> rfl

theorem Part.isPlain_segment (part : Part) : part.segment.IsPlain ↔ part.IsLiteral := by
  cases part <;> rfl

namespace Template

theorem WellFormed.isCut_text {template : Template} (h : template.WellFormed) :
    IsCut template.text (template.parts.map Part.segment) where
  text_eq := by simp [text, List.flatMap_map, Part.text_segment]
  ne_nil := by
    simp only [List.mem_map, forall_exists_index, and_imp, forall_apply_eq_imp_iff₂]
    rintro (text | e) hmem
    · exact (h.literal text hmem).1
    · exact (h.expression e hmem).body_ne_nil
  braceFree := by
    simp only [List.mem_map, forall_exists_index, and_imp, forall_apply_eq_imp_iff₂]
    rintro (text | e) hmem
    · exact (h.literal text hmem).2
    · exact (h.expression e hmem).braceFree_body
  not_adjacent := by
    simpa [List.isChain_map, Part.isPlain_segment] using h.not_adjacent

theorem mem_terms_iff {template : Template} {term : Term} :
    term ∈ template.terms ↔ ∃ e, .expression e ∈ template.parts ∧ term ∈ e.terms := by
  simp only [terms, List.mem_flatMap]
  constructor
  · rintro ⟨text | e, hmem, hterm⟩
    · simp [Part.terms] at hterm
    · exact ⟨e, hmem, hterm⟩
  · rintro ⟨e, hmem, hterm⟩
    exact ⟨.expression e, hmem, hterm⟩

/-- A template is read back from its text when no name in it ends in a bare star. -/
theorem WellFormed.parse_text_iff {template : Template} (h : template.WellFormed) :
    parse template.text = .ok template ↔ ∀ term ∈ template.terms, ¬ term.LooksExploded := by
  -- There is one way to cut the text, so only the bodies are left to be read back.
  have hcut : parse template.text = .ok template ↔
      ∀ part ∈ template.parts, part.segment.Reads part := by
    rw [parse_eq_ok_iff_isCut, ← List.forall₂_same, ← List.forall₂_map_left_iff]
    constructor
    · rintro ⟨segments, hsegments, hparts⟩
      rwa [isCut_unique hsegments h.isCut_text] at hparts
    · exact fun hparts => ⟨_, h.isCut_text, hparts⟩
  rw [hcut]
  constructor
  · intro hreads term hterm
    obtain ⟨e, hmem, hterm⟩ := mem_terms_iff.mp hterm
    obtain ⟨_, hread, heq⟩ := hreads _ hmem
    cases heq
    exact (Expression.parse_body_iff (h.expression e hmem)).mp
      hread term hterm
  · rintro hterms (text | e) hmem
    · rfl
    · refine ⟨e, ?_, rfl⟩
      rw [Expression.parse_body_iff (h.expression e hmem)]
      exact fun term hterm => hterms term (mem_terms_iff.mpr ⟨e, hmem, hterm⟩)

end Template

/-- A template, however it was built, is read back from its text if and only if it is well-formed
and no name in it ends in a bare star. -/
theorem reparse_iff_wellFormed (template : Template) :
    Template.parse template.text = .ok template ↔
      template.WellFormed ∧ ∀ term ∈ template.terms, ¬ term.LooksExploded := by
  constructor
  · intro h
    have hwell := Template.wellFormed_of_parse h
    exact ⟨hwell, hwell.parse_text_iff.mp h⟩
  · rintro ⟨hwell, hstars⟩
    exact hwell.parse_text_iff.mpr hstars

/-- What has been read is read back from the text that is written for it, unless a name ends in a
star and the length 0 that kept the star apart has been left out. -/
theorem reparse_iff_no_bare_star (text : Text) (template : Template)
    (h : Template.parse text = .ok template) :
    Template.parse template.text = .ok template ↔
      ∀ term ∈ template.terms, ¬ term.LooksExploded := by
  exact (Template.wellFormed_of_parse h).parse_text_iff

/-- Stars inside a name, before a length and before a modifier are all kept. -/
theorem reparse_starred_names :
    ∃ template, Template.parse "/{+a*:03,+b*}é{**c}{?e:0}".toList = .ok template ∧
      Template.parse template.text = .ok template := by
  have h : Template.parse "/{+a*:03,+b*}é{**c}{?e:0}".toList =
      .ok ⟨[.literal ['/'],
        .expression ⟨.reserved, [⟨['a', '*'], false, 3⟩, ⟨['+', 'b'], true, 0⟩]⟩,
        .literal ['é'], .expression ⟨.simple, [⟨['*', '*', 'c'], false, 0⟩]⟩,
        .expression ⟨.query, [⟨['e'], false, 0⟩]⟩]⟩ := by decide +kernel
  exact ⟨_, h, (reparse_iff_no_bare_star _ _ h).mpr (by decide)⟩

/-- Without its length the star at the end of a name is read as a modifier, and what had a value
has none. A name that is only a star cannot be read at all. -/
theorem bare_star_not_read_back :
    (∃ template again, Template.parse "{a*:0}".toList = .ok template ∧
      Template.parse template.text = .ok again ∧
      template.expand (Table.ofList [(['a', '*'], .text ['x'])]) = ['x'] ∧
      again.expand (Table.ofList [(['a', '*'], .text ['x'])]) = []) ∧
    ∃ template, Template.parse "{*:0}".toList = .ok template ∧
      Template.parse template.text = .error ⟨.emptyVariableName, some '*', 2, ['{', '*', '}']⟩ := by
  refine ⟨⟨⟨[.expression ⟨.simple, [⟨['a', '*'], false, 0⟩]⟩]⟩,
    ⟨[.expression ⟨.simple, [⟨['a'], true, 0⟩]⟩]⟩, ?_, ?_, ?_, ?_⟩,
    ⟨[.expression ⟨.simple, [⟨['*'], false, 0⟩]⟩]⟩, ?_, ?_⟩
  all_goals decide +kernel

end LinkTemplate
