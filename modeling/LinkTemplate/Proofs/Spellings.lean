import LinkTemplate.Proofs.RoundTrip
/-!
# A spelling for every template

The well-formed templates are exactly those that some text is read as. The text that is written for
a template is such a text, unless a name ends in a bare star; there a length of 0 has to be spelled
out.
-/

namespace LinkTemplate

namespace Term

/-- The length 0 changes nothing and keeps the star in the name. -/
theorem WellFormed.parse_with_length_zero {term : Term} (h : term.WellFormed)
    (hbare : term.LooksExploded) : parse (term.name ++ [':', '0']) = .ok term := by
  obtain ⟨hexplode, htruncate, -⟩ := hbare
  refine h.parse_length hexplode (List.cons_ne_nil '0' []) (List.forall_mem_singleton.mpr rfl) ?_
  have hzero : Decimal.value ['0'] = 0 := rfl
  rw [htruncate, hzero, Nat.zero_min]

theorem WellFormed.exists_spec {term : Term} (h : term.WellFormed) :
    ∃ spec, ',' ∉ spec ∧ Text.BraceFree spec ∧ parse spec = .ok term := by
  by_cases hbare : term.LooksExploded
  · refine ⟨term.name ++ [':', '0'], ?_, ?_, h.parse_with_length_zero hbare⟩
    · simp [h.comma]
    · simp [h.braceFree]
  · exact ⟨term.text, h.comma_text, h.braceFree_text, (parse_text_iff h).mpr hbare⟩

end Term

theorem Expression.WellFormed.exists_body {e : Expression} (h : e.WellFormed) :
    ∃ body, body ≠ [] ∧ Text.BraceFree body ∧ parse body = .ok e := by
  obtain ⟨specs, hspecs⟩ := exists_forall₂ fun term hterm =>
    (h.terms_wellFormed term hterm).exists_spec
  rw [List.forall₂_and_left, List.forall₂_and_left] at hspecs
  obtain ⟨hcomma, hfree, hreads⟩ := hspecs
  have hnames : List.Forall₂ (fun spec term => term.name <+: spec) specs e.terms :=
    hreads.imp fun _ _ => Term.name_prefix_of_parse
  refine ⟨e.operator.symbol ++ [','].intercalate specs, ?_, ?_, ?_⟩
  · exact h.body_of_specs_ne_nil hnames
  · exact braceFree_body_of_specs e.operator hfree
  · exact (h.parse_body_of_specs_iff hnames hcomma).mpr ⟨rfl, hreads⟩

namespace Template

theorem WellFormed.exists_segment {template : Template} (h : template.WellFormed) {part : Part}
    (hpart : part ∈ template.parts) :
    ∃ segment : Segment, segment.content ≠ [] ∧ Text.BraceFree segment.content ∧
      segment.Reads part := by
  cases part with
  | literal text =>
    obtain ⟨hne, hfree⟩ := h.literal text hpart
    exact ⟨.plain text, hne, hfree, rfl⟩
  | expression e =>
    obtain ⟨body, hne, hfree, hread⟩ := (h.expression e hpart).exists_body
    exact ⟨.braces body, hne, hfree, e, hread, rfl⟩

theorem WellFormed.exists_text {template : Template} (h : template.WellFormed) :
    ∃ text, parse text = .ok template := by
  obtain ⟨segments, hsegments⟩ := exists_forall₂ fun part hpart => h.exists_segment hpart
  rw [List.forall₂_and_left, List.forall₂_and_left] at hsegments
  obtain ⟨hne, hfree, hreads⟩ := hsegments
  have hcut : IsCut (segments.flatMap Segment.text) segments :=
    ⟨rfl, hne, hfree, (not_adjacent_iff_of_reads hreads).mp h.not_adjacent⟩
  exact ⟨_, parse_eq_ok_iff_isCut.mpr ⟨segments, hcut, hreads⟩⟩

end Template

/-- A template is read from some text if and only if it is well-formed. -/
theorem exists_parse_iff_wellFormed (template : Template) :
    (∃ text, Template.parse text = .ok template) ↔ template.WellFormed := by
  constructor
  · rintro ⟨text, h⟩
    exact Template.wellFormed_of_parse h
  · exact fun h => h.exists_text

end LinkTemplate
