import LinkTemplate.Proofs.Scan
/-!
# Ordinary characters

Reading tells braces, commas, colons, stars, operator symbols and digits apart, and nothing else.
All other characters may be exchanged for one another, wide ones for narrow ones as well: the same
template is read with the exchange in its literals and names, or the same problem is found at the
same position.
-/

namespace LinkTemplate

namespace Text

/-- The characters that reading looks at. -/
def IsMark (c : Char) : Prop :=
  c ∈ ['{', '}', ',', ':', '*', '+', '#', '.', '/', ';', '?', '&'] ∨ c.isDigit

instance : DecidablePred IsMark := fun _ => inferInstanceAs (Decidable (_ ∨ _))

/-- Leaves every mark as it is and makes no other character a mark. -/
structure KeepsMarks (f : Char → Char) : Prop where
  fixes : ∀ c, IsMark c → f c = c
  makes_none : ∀ c, ¬ IsMark c → ¬ IsMark (f c)

end Text

open Text

/-! ## Exchanging characters -/

def Term.respell (f : Char → Char) (term : Term) : Term := { term with name := term.name.map f }

def Expression.respell (f : Char → Char) (e : Expression) : Expression :=
  { e with terms := e.terms.map (Term.respell f) }

def Part.respell (f : Char → Char) : Part → Part
  | literal text => literal (text.map f)
  | expression e => expression (e.respell f)

def Template.respell (f : Char → Char) (template : Template) : Template :=
  ⟨template.parts.map (Part.respell f)⟩

def SyntaxError.respell (f : Char → Char) (error : SyntaxError) : SyntaxError :=
  { error with character := error.character.map f, template := error.template.map f }

theorem SyntaxError.locate_map (f : Char → Char) (template : Text) (problem : Problem)
    (position : Nat) :
    locate (template.map f) problem position = (locate template problem position).respell f := by
  simp [locate, respell]

theorem SyntaxError.rebase_respell (f : Char → Char) (offset : Nat) (template : Text)
    (error : SyntaxError) :
    (error.respell f).rebase offset (template.map f) = (error.rebase offset template).respell f :=
  locate_map f template error.problem (offset + error.position)

/-- The exchange in an outcome, where `respell` says what it is in what was read. -/
def respelled {α : Type} (f : Char → Char) (respell : α → α) :
    Except SyntaxError α → Except SyntaxError α
  | .error error => .error (error.respell f)
  | .ok a => .ok (respell a)

def Template.Run.respell (f : Char → Char) (run : Run) : Run := { run with text := run.text.map f }

section

variable {f : Char → Char} (hf : KeepsMarks f)

include hf

/-! ## Single characters -/

namespace Text

/-- A test that gives all ordinary characters one answer cannot see the exchange. -/
theorem KeepsMarks.same_answer {α : Type} {test : Char → α} {answer : α}
    (h : ∀ c, ¬ IsMark c → test c = answer) (c : Char) : test (f c) = test c := by
  by_cases hc : IsMark c
  · rw [hf.fixes c hc]
  · rw [h _ (hf.makes_none c hc), h c hc]

theorem KeepsMarks.eq_iff {mark : Char} (hmark : IsMark mark) (c : Char) :
    f c = mark ↔ c = mark := by
  have hanswer : ∀ d, ¬ IsMark d → decide (d = mark) = false := by
    intro d hd
    simp only [decide_eq_false_iff_not]
    rintro rfl
    exact hd hmark
  simpa using hf.same_answer hanswer c

theorem KeepsMarks.isDigit (c : Char) : (f c).isDigit = c.isDigit := by
  have hanswer : ∀ d, ¬ IsMark d → d.isDigit = false := by
    intro d hd
    simp only [IsMark, not_or, Bool.not_eq_true] at hd
    exact hd.2
  exact hf.same_answer hanswer c

theorem KeepsMarks.ofChar? (c : Char) : Operator.ofChar? (f c) = Operator.ofChar? c := by
  have hanswer : ∀ d, ¬ IsMark d → Operator.ofChar? d = none := by
    intro d hd
    unfold Operator.ofChar?
    split <;> first | rfl | exact absurd (by decide) hd
  exact hf.same_answer hanswer c

theorem KeepsMarks.brace (c : Char) :
    Template.Brace.ofChar? (f c) = Template.Brace.ofChar? c := by
  have hanswer : ∀ d, ¬ IsMark d → Template.Brace.ofChar? d = none := by
    intro d hd
    unfold Template.Brace.ofChar?
    split <;> first | rfl | exact absurd (by decide) hd
  exact hf.same_answer hanswer c

/-! ## Cutting -/

theorem KeepsMarks.cut? {mark : Char} (hmark : IsMark mark) (text : Text) :
    Text.cut? mark (text.map f) =
      (Text.cut? mark text).map fun (before, after) => (before.map f, after.map f) := by
  induction text with
  | nil => rfl
  | cons c text ih =>
    by_cases hc : c = mark
    · simp [Text.cut?, hf.eq_iff hmark, hc]
    · simp [Text.cut?, hf.eq_iff hmark, hc, ih, Function.comp_def]

theorem KeepsMarks.dropEnd {mark : Char} (hmark : IsMark mark) (text : Text) :
    Text.dropEnd mark (text.map f) =
      ((Text.dropEnd mark text).1.map f, (Text.dropEnd mark text).2) := by
  have hlast : (text.map f).getLast? = some mark ↔ text.getLast? = some mark := by
    simp [List.getLast?_map, hf.eq_iff hmark]
  unfold Text.dropEnd
  by_cases h : text.getLast? = some mark
  · rw [if_pos (hlast.mpr h), if_pos h]
    simp [List.map_dropLast]
  · rw [if_neg (mt hlast.mp h), if_neg h]

theorem KeepsMarks.splitOn {mark : Char} (hmark : IsMark mark) (text : Text) :
    (text.map f).splitOn mark = (text.splitOn mark).map (List.map f) := by
  induction text with
  | nil => simp
  | cons c text ih =>
    rw [List.map_cons, List.splitOn_cons_eq_if_modifyHead, List.splitOn_cons_eq_if_modifyHead, ih]
    by_cases hc : c = mark
    · simp [hf.eq_iff hmark, hc]
    · obtain ⟨first, more, hsplit⟩ :=
        List.exists_cons_of_ne_nil (List.splitOn_ne_nil mark text)
      simp [hf.eq_iff hmark, hc, hsplit]

end Text

/-! ## Terms -/

namespace Term

theorem readLength_map (spec : Text) (colon : Nat) (length : Text) :
    readLength (spec.map f) colon (length.map f) =
      respelled f id (readLength spec colon length) := by
  have hdigits : (length.map f).findIdx? (! ·.isDigit) = length.findIdx? (! ·.isDigit) := by
    simp [List.findIdx?_map, Function.comp_def, hf.isDigit]
  unfold readLength
  by_cases hlength : length = []
  · simp [hlength, respelled, SyntaxError.locate_map]
  · rw [if_neg (mt List.map_eq_nil_iff.mp hlength), if_neg hlength, hdigits]
    cases hfind : length.findIdx? (! ·.isDigit) with
    | some i => simp [respelled, SyntaxError.locate_map]
    | none =>
      -- All of them are digits, and digits stay as they are.
      have hsame : length.map f = length := by
        rw [List.findIdx?_eq_none_iff] at hfind
        simp only [Bool.not_eq_false'] at hfind
        rw [List.map_congr_left fun c hc => hf.fixes c (Or.inr (hfind c hc))]
        simp
      rw [hsame]
      rfl

theorem readNamed_map (spec body : Text) :
    readNamed (spec.map f) (body.map f) =
      respelled f (fun (name, n) => (name.map f, n)) (readNamed spec body) := by
  unfold readNamed
  rw [hf.cut? (by decide)]
  cases Text.cut? ':' body with
  | none =>
    by_cases hbody : body = []
    · simp [hbody, respelled, SyntaxError.respell, List.head?_map]
    · simp [hbody, respelled]
  | some found =>
    obtain ⟨name, length⟩ := found
    simp only [Option.map_some]
    rw [hf.cut? (by decide)]
    cases Text.cut? ':' length with
    | some found => simp [respelled, SyntaxError.locate_map]
    | none =>
      by_cases hname : name = []
      · simp [hname, respelled, SyntaxError.respell, List.head?_map]
      · simp only [Option.map_none, List.map_eq_nil_iff, if_neg hname, List.length_map,
          readLength_map hf]
        cases readLength spec (name.length + 1) length <;> rfl

theorem parse_map (spec : Text) :
    parse (spec.map f) = respelled f (Term.respell f) (parse spec) := by
  have hstar : f '*' = '*' := hf.fixes '*' (by decide)
  unfold parse
  rw [hf.dropEnd (by decide)]
  rcases Text.dropEnd '*' spec with ⟨body, explode⟩
  simp only [readNamed_map hf]
  cases readNamed spec body with
  | error error => rfl
  | ok found =>
    obtain ⟨name, n⟩ := found
    simp only [respelled, List.length_map]
    split
    · simp [SyntaxError.respell, hstar]
    · rfl

end Term

/-! ## Expressions -/

namespace Expression

theorem readTerms_map (body : Text) (offset : Nat) (specs : List Text) :
    readTerms (body.map f) offset (specs.map (List.map f)) =
      respelled f (List.map (Term.respell f)) (readTerms body offset specs) := by
  induction specs generalizing offset with
  | nil => rfl
  | cons spec specs ih =>
    simp only [List.map_cons, readTerms_cons, Term.parse_map hf]
    cases Term.parse spec with
    | error error => simp [respelled, SyntaxError.rebase_respell]
    | ok term =>
      simp only [respelled, List.length_map, ih]
      cases readTerms body (offset + spec.length + 1) specs <;> rfl

theorem takeOperator_map (body : Text) :
    takeOperator (body.map f) = ((takeOperator body).1, (takeOperator body).2.map f) := by
  cases body with
  | nil => rfl
  | cons c body =>
    simp only [List.map_cons, takeOperator, hf.ofChar?]
    cases Operator.ofChar? c <;> rfl

theorem parse_map (body : Text) :
    parse (body.map f) = respelled f (Expression.respell f) (parse body) := by
  unfold parse
  rw [takeOperator_map hf]
  rcases takeOperator body with ⟨op, list⟩
  have hcomma : IsMark ',' := by decide
  simp only [hf.splitOn hcomma, readTerms_map hf]
  cases readTerms body op.symbol.length (list.splitOn ',') <;> rfl

end Expression

/-! ## Templates -/

namespace Template

theorem runs_map (text : Text) :
    runs (text.map f) = ((runs text).1.map (Run.respell f), (runs text).2.map f) := by
  induction text with
  | nil => rfl
  | cons c text ih =>
    simp only [List.map_cons, runs, ih, hf.brace]
    cases Brace.ofChar? c with
    | some brace => rfl
    | none =>
      rcases runs text with ⟨_ | ⟨run, more⟩, last⟩
      · rfl
      · rfl

omit hf in
theorem literals_map (text : Text) :
    literals (text.map f) = (literals text).map (Part.respell f) := by
  by_cases h : text = []
  · simp [literals, h]
  · simp [literals, h, Part.respell]

theorem readRuns_map (template : Text) (offset : Nat) (ended : List Run) (last : Text) :
    readRuns (template.map f) offset (ended.map (Run.respell f)) (last.map f) =
      respelled f (List.map (Part.respell f)) (readRuns template offset ended last) := by
  have hopening : f '{' = '{' := hf.fixes '{' (by decide)
  have hclosing : f '}' = '}' := hf.fixes '}' (by decide)
  induction offset, ended, last using readRuns.induct template with
  | case1 => simp [readRuns, respelled, literals_map]
  | case2 => simp [readRuns, respelled, Run.respell, SyntaxError.respell, hclosing]
  | case3 => simp [readRuns, respelled, Run.respell, SyntaxError.respell, List.getLast?_map]
  | case4 => simp [readRuns, respelled, Run.respell, SyntaxError.respell, hopening]
  | case5 => simp [readRuns, respelled, Run.respell, SyntaxError.respell, hclosing]
  | case6 offset text body more last hbody error hread =>
    simp [readRuns, respelled, Run.respell, hbody, hread, Expression.parse_map hf,
      SyntaxError.rebase_respell]
  | case7 offset text body more last hbody e hread error hmore ih =>
    rw [hmore] at ih
    simp [readRuns, respelled, Run.respell, hbody, hread, hmore, ih, Expression.parse_map hf]
  | case8 offset text body more last hbody e hread parts hmore ih =>
    rw [hmore] at ih
    simp [readRuns, respelled, Run.respell, Part.respell, hbody, hread, hmore, ih,
      Expression.parse_map hf, literals_map]

theorem parse_map (text : Text) :
    parse (text.map f) = respelled f (Template.respell f) (parse text) := by
  unfold parse
  rw [runs_map hf]
  simp only [readRuns_map hf]
  cases readRuns text 0 (runs text).1 (runs text).2 <;> rfl

end Template

end

/-- Where ordinary characters are exchanged throughout a text, they are exchanged in the literals
and names of the template that is read, and nothing else is different. Where no template is read,
the problem and its position stay, and the character at that position is exchanged. -/
theorem parse_ordinary_characters (f : Char → Char) (hf : KeepsMarks f) (text : Text) :
    (∀ template, Template.parse text = .ok template →
      Template.parse (text.map f) = .ok (template.respell f)) ∧
    ∀ error, Template.parse text = .error error →
      Template.parse (text.map f) = .error { error with
        character := error.character.map f
        template := text.map f } := by
  have hparse := Template.parse_map hf text
  constructor
  · intro template h
    rw [h] at hparse
    exact hparse
  · intro error h
    rw [h] at hparse
    have htemplate : error.template = text :=
      congrArg SyntaxError.template (Template.eq_locate_of_parse h)
    rwa [respelled, SyntaxError.respell, htemplate] at hparse

/-- Narrow letters become wide ones, a wide one becomes narrow, and two become the same. -/
theorem parse_widened_letters :
    let f : Char → Char := fun c =>
      if c = 'a' then '😀' else if c = 'é' then 'z' else if c = 'x' then 'z' else c
    let template : Template :=
      ⟨[.literal ['é', '/'], .expression ⟨.query, [⟨['a', 'b'], false, 3⟩, ⟨['x'], true, 0⟩]⟩]⟩
    let error : SyntaxError := ⟨.malformedModifier, some 'x', 6, "é{?a:x}".toList⟩
    KeepsMarks f ∧
      (Template.parse "é/{?ab:3,x*}".toList = .ok template ∧
        Template.parse ("é/{?ab:3,x*}".toList.map f) = .ok (template.respell f) ∧
        "é/{?ab:3,x*}".toList.map f = "z/{?😀b:3,z*}".toList) ∧
      Template.parse "é{?a:x}".toList = .error error ∧
      Template.parse ("é{?a:x}".toList.map f) =
        .error ⟨.malformedModifier, some 'z', 6, "z{?😀:z}".toList⟩ := by
  intro f template error
  have hf : KeepsMarks f := by
    constructor
    · intro c hc
      have ha : c ≠ 'a' := by rintro rfl; revert hc; decide
      have he : c ≠ 'é' := by rintro rfl; revert hc; decide
      have hx : c ≠ 'x' := by rintro rfl; revert hc; decide
      simp [f, ha, he, hx]
    · intro c hc
      simp only [f]
      split
      · decide
      · split
        · decide
        · split
          · decide
          · exact hc
  have h : Template.parse "é/{?ab:3,x*}".toList = .ok template := by decide +kernel
  have herror : Template.parse "é{?a:x}".toList = .error error := by decide +kernel
  obtain ⟨htemplate, -⟩ := parse_ordinary_characters f hf "é/{?ab:3,x*}".toList
  obtain ⟨-, hproblem⟩ := parse_ordinary_characters f hf "é{?a:x}".toList
  exact ⟨hf, ⟨h, htemplate template h, by decide +kernel⟩, herror, hproblem error herror⟩

end LinkTemplate
