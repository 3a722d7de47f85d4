import LinkTemplate.Expression
import LinkTemplate.Proofs.Terms
/-!
# Expressions and their bodies

Which bodies are read as which expression, and which expressions are read back from the body that
is written for them. A body is an operator symbol and specs with commas between them, however the
specs spell their terms.
-/

namespace LinkTemplate

namespace Operator

theorem symbol_simple : symbol .simple = [] := rfl

theorem symbol_of_ofChar? {c : Char} {op : Operator} (h : ofChar? c = some op) :
    op.symbol = [c] := by
  rw [symbol, ofChar?_eq_some_iff.mp h]
  rfl

theorem simple_or_exists_symbol (op : Operator) :
    op = .simple ∨ ∃ c, ofChar? c = some op ∧ op.symbol = [c] := by
  cases h : op.symbol? with
  | none =>
    left
    cases op <;> first | rfl | cases h
  | some c =>
    exact Or.inr ⟨c, ofChar?_eq_some_iff.mpr h, symbol_of_ofChar? (ofChar?_eq_some_iff.mpr h)⟩

theorem braceFree_symbol (op : Operator) : Text.BraceFree op.symbol := by
  cases op <;> simp [symbol, symbol?]

end Operator

namespace Expression

/-! ## What an expression is read from -/

theorem readTerms_eq_ok_iff {body : Text} {offset : Nat} {specs : List Text}
    {terms : List Term} :
    readTerms body offset specs = .ok terms ↔
      List.Forall₂ (fun spec term => Term.parse spec = .ok term) specs terms := by
  induction specs generalizing offset terms with
  | nil =>
    simp only [readTerms, Except.ok.injEq, List.forall₂_nil_left_iff]
    exact eq_comm
  | cons spec specs ih =>
    rw [List.forall₂_cons_left_iff, readTerms_cons]
    cases hread : Term.parse spec with
    | error error => simp
    | ok term =>
      simp only [map_eq_ok, Except.ok.injEq]
      constructor
      · rintro ⟨rest, hrest, rfl⟩
        exact ⟨term, rest, rfl, ih.mp hrest, rfl⟩
      · rintro ⟨_, rest, rfl, hrest, rfl⟩
        exact ⟨rest, ih.mpr hrest, rfl⟩

/-- The simple operator is found where no symbol stands, the others behind their own. -/
theorem takeOperator_eq_iff {body list : Text} {op : Operator} :
    takeOperator body = (op, list) ↔
      body = op.symbol ++ list ∧
        (op = .simple → ∀ c ∈ list.head?, Operator.ofChar? c = none) := by
  constructor
  · intro h
    unfold takeOperator at h
    split at h
    · cases h
      exact ⟨rfl, by simp⟩
    · split at h
      · rename_i hop
        cases h
        refine ⟨by simp [Operator.symbol_of_ofChar? hop], ?_⟩
        rintro rfl
        simp [Operator.ofChar?_eq_some_iff, Operator.symbol?] at hop
      · rename_i hop
        cases h
        exact ⟨rfl, fun _ c hc => by simpa [← Option.mem_some.mp hc] using hop⟩
  · rintro ⟨rfl, hhead⟩
    rcases op.simple_or_exists_symbol with rfl | ⟨c, hop, hsymbol⟩
    · cases list with
      | nil => rfl
      | cons c list =>
        have hc : Operator.ofChar? c = none := hhead rfl c rfl
        simp [Operator.symbol_simple, takeOperator, hc]
    · simp [hsymbol, takeOperator, hop]

theorem parse_eq_ok_iff {body : Text} {e : Expression} :
    parse body = .ok e ↔
      ∃ list, takeOperator body = (e.operator, list) ∧
        List.Forall₂ (fun spec term => Term.parse spec = .ok term) (list.splitOn ',') e.terms := by
  unfold parse
  rcases takeOperator body with ⟨op, list⟩
  simp only [map_eq_ok, readTerms_eq_ok_iff, Prod.mk.injEq]
  constructor
  · rintro ⟨terms, hterms, rfl⟩
    exact ⟨list, ⟨rfl, rfl⟩, hterms⟩
  · rintro ⟨_, ⟨rfl, rfl⟩, hterms⟩
    exact ⟨e.terms, hterms, rfl⟩

/-! ## The expressions that can be read -/

structure WellFormed (e : Expression) : Prop where
  terms_ne_nil : e.terms ≠ []
  terms_wellFormed : ∀ term ∈ e.terms, term.WellFormed
  /-- No character of the first name is taken for an operator. -/
  no_symbol : e.operator = .simple →
    ∀ term ∈ e.terms.head?, ∀ c ∈ term.name.head?, Operator.ofChar? c = none

theorem wellFormed_of_parse {body : Text} {e : Expression} (h : parse body = .ok e)
    (hfree : Text.BraceFree body) : e.WellFormed := by
  obtain ⟨list, hop, hterms⟩ := parse_eq_ok_iff.mp h
  obtain ⟨rfl, hhead⟩ := takeOperator_eq_iff.mp hop
  rw [Text.braceFree_append] at hfree
  have hwell : ∀ term ∈ e.terms, term.WellFormed := by
    intro term hterm
    obtain ⟨spec, hspec, hread⟩ := exists_mem_of_forall₂ hterms hterm
    obtain ⟨hcomma, hsub⟩ := Text.mem_splitOn hspec
    exact Term.wellFormed_of_parse hread hcomma (hfree.2.of_subset hsub)
  obtain ⟨first, more, hsplit⟩ := List.exists_cons_of_ne_nil (List.splitOn_ne_nil ',' list)
  rw [hsplit, List.forall₂_cons_left_iff] at hterms
  obtain ⟨term, terms, hread, -, heq⟩ := hterms
  refine ⟨by simp [heq], hwell, ?_⟩
  intro hsimple term' hterm' c hc
  obtain rfl : term = term' := by simpa [heq] using hterm'
  -- The name starts where the list of terms does.
  have hprefix : term.name <+: list :=
    (Term.name_prefix_of_parse hread).trans (Text.prefix_of_splitOn hsplit)
  exact hhead hsimple c (Text.head?_of_prefix hprefix hc)

/-! ## Bodies made of specs -/

section Specs

variable {e : Expression} {specs : List Text}

/-- The body goes on behind the symbol with the first character of the first name. -/
theorem WellFormed.head?_specs (h : e.WellFormed)
    (hnames : List.Forall₂ (fun spec term => term.name <+: spec) specs e.terms) :
    ∃ c, ([','].intercalate specs).head? = some c ∧
      (e.operator = .simple → Operator.ofChar? c = none) := by
  obtain ⟨term, terms, hterms⟩ := List.exists_cons_of_ne_nil h.terms_ne_nil
  obtain ⟨c, name, hname⟩ :=
    List.exists_cons_of_ne_nil (h.terms_wellFormed term (by simp [hterms])).name_ne_nil
  rw [hterms, List.forall₂_cons_right_iff] at hnames
  obtain ⟨spec, specs, hprefix, -, rfl⟩ := hnames
  have hlist : term.name <+: [','].intercalate (spec :: specs) := by
    rw [Text.intercalate_cons]
    exact hprefix.trans (List.prefix_append _ _)
  refine ⟨c, Text.head?_of_prefix hlist (by simp [hname]), fun hsimple => ?_⟩
  exact h.no_symbol hsimple term (by simp [hterms]) c (by simp [hname])

theorem WellFormed.body_of_specs_ne_nil (h : e.WellFormed)
    (hnames : List.Forall₂ (fun spec term => term.name <+: spec) specs e.terms) :
    e.operator.symbol ++ [','].intercalate specs ≠ [] := by
  obtain ⟨c, hhead, -⟩ := h.head?_specs hnames
  intro hnil
  simp [(List.append_eq_nil_iff.mp hnil).2] at hhead

theorem braceFree_body_of_specs (op : Operator) (hfree : ∀ spec ∈ specs, Text.BraceFree spec) :
    Text.BraceFree (op.symbol ++ [','].intercalate specs) :=
  Text.braceFree_append.mpr ⟨op.braceFree_symbol, Text.braceFree_intercalate hfree⟩

/-- The symbol and the specs are found again, whatever the specs are read as. -/
theorem WellFormed.parse_body_of_specs_iff (h : e.WellFormed)
    (hnames : List.Forall₂ (fun spec term => term.name <+: spec) specs e.terms)
    (hcomma : ∀ spec ∈ specs, ',' ∉ spec) {read : Expression} :
    parse (e.operator.symbol ++ [','].intercalate specs) = .ok read ↔
      read.operator = e.operator ∧
        List.Forall₂ (fun spec term => Term.parse spec = .ok term) specs read.terms := by
  obtain ⟨c, hhead, hc⟩ := h.head?_specs hnames
  have hop : takeOperator (e.operator.symbol ++ [','].intercalate specs) =
      (e.operator, [','].intercalate specs) :=
    takeOperator_eq_iff.mpr ⟨rfl, fun hsimple => by simpa [hhead] using hc hsimple⟩
  have hne : specs ≠ [] := by
    rintro rfl
    simp at hhead
  rw [parse_eq_ok_iff, hop]
  simp only [Prod.mk.injEq]
  constructor
  · rintro ⟨_, ⟨hsame, rfl⟩, hterms⟩
    rw [List.splitOn_intercalate ',' hcomma hne] at hterms
    exact ⟨hsame.symm, hterms⟩
  · rintro ⟨hsame, hterms⟩
    refine ⟨_, ⟨hsame.symm, rfl⟩, ?_⟩
    rwa [List.splitOn_intercalate ',' hcomma hne]

end Specs

/-! ## The body that is written -/

/-- The terms as they are written, with commas between them. -/
def list (e : Expression) : Text := [','].intercalate (e.terms.map Term.text)

theorem body_eq (e : Expression) : e.body = e.operator.symbol ++ e.list := rfl

theorem names_of_text (e : Expression) :
    List.Forall₂ (fun spec term => term.name <+: spec) (e.terms.map Term.text) e.terms := by
  rw [List.forall₂_map_left_iff, List.forall₂_same]
  exact fun term _ => List.prefix_append term.name term.modifiers

theorem WellFormed.body_ne_nil {e : Expression} (h : e.WellFormed) : e.body ≠ [] := by
  rw [body_eq]
  exact h.body_of_specs_ne_nil e.names_of_text

theorem WellFormed.braceFree_body {e : Expression} (h : e.WellFormed) :
    Text.BraceFree e.body := by
  rw [body_eq]
  refine braceFree_body_of_specs e.operator ?_
  rw [List.forall_mem_map]
  exact fun term hterm => (h.terms_wellFormed term hterm).braceFree_text

theorem WellFormed.parse_body_eq_ok_iff {e read : Expression} (h : e.WellFormed) :
    parse e.body = .ok read ↔ read.operator = e.operator ∧
      List.Forall₂ (fun term again => Term.parse term.text = .ok again) e.terms read.terms := by
  have hcomma : ∀ spec ∈ e.terms.map Term.text, ',' ∉ spec := by
    rw [List.forall_mem_map]
    exact fun term hterm => (h.terms_wellFormed term hterm).comma_text
  rw [body_eq, list, h.parse_body_of_specs_iff e.names_of_text hcomma, List.forall₂_map_left_iff]

theorem parse_body_iff {e : Expression} (h : e.WellFormed) :
    parse e.body = .ok e ↔ ∀ term ∈ e.terms, ¬ term.LooksExploded := by
  rw [h.parse_body_eq_ok_iff, List.forall₂_same]
  simp only [true_and]
  exact forall₂_congr fun term hterm => Term.parse_text_iff (h.terms_wellFormed term hterm)

end Expression

end LinkTemplate
