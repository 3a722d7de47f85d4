import LinkTemplate.Proofs.RoundTrip
/-!
# Reading again what was written

A template that can be read need not be read back from its own text: a star at the end of a name is
taken for a modifier. But whatever is read then has the same text, so reading it again changes
nothing more.
-/

namespace LinkTemplate

theorem Term.WellFormed.text_of_parse_text {term again : Term} (h : term.WellFormed)
    (hread : parse term.text = .ok again) : again.text = term.text := by
  by_cases hstar : term.LooksExploded
  · -- The star goes from the end of the name to the modifier.
    obtain ⟨hexplode, htruncate, hlast⟩ := hstar
    obtain ⟨name, hname⟩ := List.getLast?_eq_some_iff.mp hlast
    have htext : term.text = name ++ ['*'] := by
      simp [text, modifiers, hexplode, htruncate, hname]
    obtain ⟨body, hdrop, hnamed, -⟩ := parse_eq_ok_iff.mp hread
    have hcolon : ':' ∉ name := fun hmem => h.colon (by simp [hname, hmem])
    have hbody : Text.dropEnd '*' term.text = (name, true) :=
      Text.dropEnd_eq_true_iff.mpr htext
    obtain ⟨rfl, hagain⟩ := Prod.mk.inj (hbody.symm.trans hdrop)
    obtain ⟨-, -, ⟨hsame, hzero⟩ | ⟨digits, hdigits, -⟩⟩ := readNamed_eq_ok_iff.mp hnamed
    · rw [htext, text, modifiers, ← hagain, hzero, ← hsame]
      rfl
    · exact absurd (by simp [hdigits]) hcolon
  · rw [(parse_text_iff h).mpr hstar, Except.ok.injEq] at hread
    rw [hread]

theorem Expression.WellFormed.body_of_parse_body {e again : Expression} (h : e.WellFormed)
    (hread : parse e.body = .ok again) : again.body = e.body := by
  obtain ⟨hop, hterms⟩ := h.parse_body_eq_ok_iff.mp hread
  have htexts : again.terms.map Term.text = e.terms.map Term.text :=
    map_eq_of_forall₂ hterms fun term hterm _ => (h.terms_wellFormed term hterm).text_of_parse_text
  rw [body, body, hop, htexts]

/-- What is read from the text of a template has that text, and is read back from it. -/
theorem Template.WellFormed.parse_text_settles {template again : Template}
    (h : template.WellFormed) (hread : parse template.text = .ok again) :
    again.text = template.text ∧ parse again.text = .ok again := by
  obtain ⟨segments, hcut, hparts⟩ := exists_isCut_of_parse hread
  obtain rfl := isCut_unique hcut h.isCut_text
  rw [List.forall₂_map_left_iff] at hparts
  have htexts : again.parts.map Part.text = template.parts.map Part.text := by
    refine map_eq_of_forall₂ hparts ?_
    rintro (literal | e) hmem part hreads
    · obtain rfl := hreads
      rfl
    · obtain ⟨read, hbody, rfl⟩ := hreads
      rw [Part.text, Part.text, Expression.text, Expression.text,
        (h.expression e hmem).body_of_parse_body hbody]
  have htext : again.text = template.text := by
    rw [text, text, List.flatMap_def, List.flatMap_def, htexts]
  exact ⟨htext, htext ▸ hread⟩

end LinkTemplate
