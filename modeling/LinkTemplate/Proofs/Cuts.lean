import Mathlib.Data.List.Chain
import Mathlib.Data.List.Forall2
import LinkTemplate.Proofs.Scan
/-!
# Cutting a template into its parts

A text is a template when it can be cut into literals and readable expressions. There is at most
one way to cut it, and the parts of the template are the pieces of that cut.
-/

namespace LinkTemplate

inductive Segment
  | plain (text : Text)
  | braces (body : Text)

namespace Segment

def text : Segment → Text
  | plain text => text
  | braces body => '{' :: (body ++ ['}'])

/-- The text without the braces that may be around it. -/
def content : Segment → Text
  | plain text => text
  | braces body => body

def IsPlain : Segment → Prop
  | plain _ => True
  | braces _ => False

/-- The part that a segment is read as. -/
def Reads : Segment → Part → Prop
  | plain text, part => part = .literal text
  | braces body, part =>
    ∃ expression, Expression.parse body = .ok expression ∧ part = .expression expression

@[simp] theorem content_plain (before : Text) : (plain before).content = before := rfl

@[simp] theorem content_braces (body : Text) : (braces body).content = body := rfl

@[simp] theorem text_plain_append (before rest : Text) :
    (plain before).text ++ rest = before ++ rest := rfl

@[simp] theorem text_braces_append (body rest : Text) :
    (braces body).text ++ rest = '{' :: (body ++ '}' :: rest) := by
  simp [text]

end Segment

structure IsCut (text : Text) (segments : List Segment) : Prop where
  text_eq : text = segments.flatMap Segment.text
  ne_nil : ∀ segment ∈ segments, segment.content ≠ []
  braceFree : ∀ segment ∈ segments, Text.BraceFree segment.content
  not_adjacent : segments.IsChain fun s t => ¬ (s.IsPlain ∧ t.IsPlain)

/-! ## Segment by segment -/

theorem isCut_nil_iff {text : Text} : IsCut text [] ↔ text = [] :=
  ⟨fun h => by simpa using h.text_eq, fun h => ⟨by simpa using h, by simp, by simp, by simp⟩⟩

theorem IsCut.tail {text : Text} {segment : Segment} {segments : List Segment}
    (h : IsCut text (segment :: segments)) :
    IsCut (segments.flatMap Segment.text) segments where
  text_eq := rfl
  ne_nil s hs := h.ne_nil s (List.mem_cons_of_mem _ hs)
  braceFree s hs := h.braceFree s (List.mem_cons_of_mem _ hs)
  not_adjacent := (List.isChain_cons.mp h.not_adjacent).2

/-- A text is at a brace when its cut does not start with a literal. -/
theorem IsCut.atBrace_iff {text : Text} {segments : List Segment} (h : IsCut text segments) :
    Text.AtBrace text ↔ ∀ segment ∈ segments.head?, ¬ segment.IsPlain := by
  obtain rfl := h.text_eq
  rcases segments with _ | ⟨before | body, segments⟩
  · simp [Text.atBrace_nil]
  · have hfree : Text.BraceFree before := h.braceFree _ List.mem_cons_self
    have hne : before ≠ [] := h.ne_nil _ List.mem_cons_self
    simpa [Segment.IsPlain] using hfree.not_atBrace hne _
  · simpa [Segment.IsPlain] using Text.atBrace_opening _

theorem isCut_cons_iff {text : Text} {segment : Segment} {segments : List Segment} :
    IsCut text (segment :: segments) ↔
      ∃ rest, text = segment.text ++ rest ∧ segment.content ≠ [] ∧
        Text.BraceFree segment.content ∧ (segment.IsPlain → Text.AtBrace rest) ∧
        IsCut rest segments := by
  constructor
  · intro h
    refine ⟨segments.flatMap Segment.text, by simp [h.text_eq], h.ne_nil _ List.mem_cons_self,
      h.braceFree _ List.mem_cons_self, ?_, h.tail⟩
    intro hplain
    rw [h.tail.atBrace_iff]
    intro next hnext hnextPlain
    exact (List.isChain_cons.mp h.not_adjacent).1 next hnext ⟨hplain, hnextPlain⟩
  · rintro ⟨rest, rfl, hne, hfree, hrest, h⟩
    refine ⟨by simp [h.text_eq], ?_, ?_, ?_⟩
    · exact List.forall_mem_cons.mpr ⟨hne, h.ne_nil⟩
    · exact List.forall_mem_cons.mpr ⟨hfree, h.braceFree⟩
    · refine List.isChain_cons.mpr ⟨?_, h.not_adjacent⟩
      rintro next hnext ⟨hplain, hnextPlain⟩
      exact h.atBrace_iff.mp (hrest hplain) next hnext hnextPlain

theorem segment_unique {s t : Segment} {u v : Text} (hs : Text.BraceFree s.content)
    (hsne : s.content ≠ []) (ht : Text.BraceFree t.content) (htne : t.content ≠ [])
    (hu : s.IsPlain → Text.AtBrace u) (hv : t.IsPlain → Text.AtBrace v)
    (h : s.text ++ u = t.text ++ v) : s = t ∧ u = v := by
  cases s with
  | plain before =>
    cases t with
    | plain before' =>
      obtain ⟨rfl, rfl⟩ := Text.braceFree_append_unique hs ht (hu trivial) (hv trivial) h
      exact ⟨rfl, rfl⟩
    | braces body =>
      rw [Segment.text_plain_append, Segment.text_braces_append] at h
      exact absurd (h ▸ Text.atBrace_opening _) (hs.not_atBrace hsne u)
  | braces body =>
    rw [Segment.text_braces_append] at h
    cases t with
    | plain before =>
      rw [Segment.text_plain_append] at h
      exact absurd (h ▸ Text.atBrace_opening _) (ht.not_atBrace htne v)
    | braces body' =>
      rw [Segment.text_braces_append, List.cons.injEq] at h
      obtain ⟨rfl, -, rfl⟩ := Text.first_brace_unique hs ht (by simp) (by simp) h.2
      exact ⟨rfl, rfl⟩

theorem isCut_unique {text : Text} {segments segments' : List Segment} (h : IsCut text segments)
    (h' : IsCut text segments') : segments = segments' := by
  -- A segment is not empty, so both cuts end together.
  have text_ne_nil : ∀ {segment : Segment} {rest : Text}, segment.content ≠ [] →
      segment.text ++ rest ≠ [] := by
    rintro (before | body) rest hne
    · rw [Segment.content_plain] at hne
      simp [hne]
    · simp
  induction segments generalizing text segments' with
  | nil =>
    obtain rfl := isCut_nil_iff.mp h
    cases segments' with
    | nil => rfl
    | cons segment' segments' =>
      obtain ⟨rest, htext, hne, -⟩ := isCut_cons_iff.mp h'
      exact absurd htext.symm (text_ne_nil hne)
  | cons segment segments ih =>
    obtain ⟨rest, rfl, hne, hfree, hrest, h⟩ := isCut_cons_iff.mp h
    cases segments' with
    | nil => exact absurd (isCut_nil_iff.mp h') (text_ne_nil hne)
    | cons segment' segments' =>
      obtain ⟨rest', htext, hne', hfree', hrest', h'⟩ := isCut_cons_iff.mp h'
      obtain ⟨rfl, rfl⟩ := segment_unique hfree hne hfree' hne' hrest hrest' htext
      rw [ih h h']

/-! ## Reading a cut -/

/-- Segments that can be read are read one after another, up to a brace or the end. -/
theorem parse_of_isCut {text rest : Text} {segments : List Segment} {parts : List Part}
    (h : IsCut text segments) (hparts : List.Forall₂ Segment.Reads segments parts)
    (hrest : Text.AtBrace rest) :
    Template.parse (text ++ rest) =
      Template.outcomeAfter text.length (text ++ rest) parts (Template.parse rest) := by
  induction hparts generalizing text with
  | nil =>
    obtain rfl := isCut_nil_iff.mp h
    simp
  | @cons segment part segments parts hpart _ ih =>
    obtain ⟨after, rfl, hne, hfree, hafter, htail⟩ := isCut_cons_iff.mp h
    rw [List.append_assoc]
    cases segment with
    | plain before =>
      obtain rfl := hpart
      rw [Segment.content_plain] at hne hfree
      rw [Segment.text_plain_append, Template.parse_literal hfree ((hafter trivial).append hrest),
        ih htail, Template.literals, if_neg hne]
      simp [Segment.text]
    | braces body =>
      obtain ⟨expression, hread, rfl⟩ := hpart
      rw [Segment.content_braces] at hne hfree
      rw [Segment.text_braces_append, Template.parse_braces hfree hne, hread]
      simp only [ih htail, Template.outcomeAfter_outcomeAfter]
      congr 1
      simp [Segment.text]
      omega

theorem exists_isCut_of_parse {text : Text} {template : Template}
    (h : Template.parse text = .ok template) :
    ∃ segments, IsCut text segments ∧ List.Forall₂ Segment.Reads segments template.parts := by
  induction course text generalizing template with
  | done =>
    obtain rfl : (⟨[]⟩ : Template) = template := by simpa using h
    exact ⟨[], isCut_nil_iff.mpr rfl, .nil⟩
  | obstacle hvalid =>
    rw [Template.parse_obstacle hvalid] at h
    simp at h
  | @literal before rest hne hfree hrest _ ih =>
    rw [Template.parse_literal hfree hrest] at h
    obtain ⟨after, hafter, rfl⟩ := Template.outcomeAfter_eq_ok h
    obtain ⟨segments, hcut, hparts⟩ := ih hafter
    refine ⟨.plain before :: segments, ?_, ?_⟩
    · exact isCut_cons_iff.mpr ⟨rest, rfl, hne, hfree, fun _ => hrest, hcut⟩
    · simp only [Template.literals, if_neg hne]
      exact .cons rfl hparts
  | @braces body rest expression hfree hne hread _ ih =>
    rw [Template.parse_braces hfree hne, hread] at h
    obtain ⟨after, hafter, rfl⟩ := Template.outcomeAfter_eq_ok h
    obtain ⟨segments, hcut, hparts⟩ := ih hafter
    refine ⟨.braces body :: segments, ?_, ?_⟩
    · exact isCut_cons_iff.mpr
        ⟨rest, (Segment.text_braces_append _ _).symm, hne, hfree, False.elim, hcut⟩
    · exact .cons ⟨expression, hread, rfl⟩ hparts

theorem exists_parts_iff {segments : List Segment} :
    (∃ parts, List.Forall₂ Segment.Reads segments parts) ↔
      ∀ body, .braces body ∈ segments → ∃ expression, Expression.parse body = .ok expression := by
  induction segments with
  | nil => simp
  | cons segment segments ih =>
    constructor
    · rintro ⟨_, _ | ⟨hpart, hparts⟩⟩ body hmem
      rcases List.mem_cons.mp hmem with rfl | hmem
      · obtain ⟨expression, hread, -⟩ := hpart
        exact ⟨expression, hread⟩
      · exact ih.mp ⟨_, hparts⟩ body hmem
    · intro h
      obtain ⟨parts, hparts⟩ := ih.mpr fun body hmem => h body (List.mem_cons_of_mem _ hmem)
      cases segment with
      | plain before => exact ⟨.literal before :: parts, .cons rfl hparts⟩
      | braces body =>
        obtain ⟨expression, hread⟩ := h body List.mem_cons_self
        exact ⟨.expression expression :: parts, .cons ⟨expression, hread, rfl⟩ hparts⟩

theorem parse_eq_ok_iff_isCut {text : Text} {template : Template} :
    Template.parse text = .ok template ↔
      ∃ segments, IsCut text segments ∧ List.Forall₂ Segment.Reads segments template.parts := by
  refine ⟨exists_isCut_of_parse, fun ⟨segments, hcut, hparts⟩ => ?_⟩
  have h := parse_of_isCut hcut hparts Text.atBrace_nil
  simpa using h

/-- Behind a text that can be read, reading goes on at a brace as if it started there. -/
theorem parse_append_of_atBrace {text rest : Text} {template : Template}
    (h : Template.parse text = .ok template) (hrest : Text.AtBrace rest) :
    Template.parse (text ++ rest) =
      Template.outcomeAfter text.length (text ++ rest) template.parts (Template.parse rest) := by
  obtain ⟨segments, hcut, hparts⟩ := exists_isCut_of_parse h
  exact parse_of_isCut hcut hparts hrest

/-- A text is a template when it can be cut into literals and readable expressions. The cut is
the only one, and the parts of the template are its segments, each read on its own. -/
theorem parse_reads_only_cut (text : Text) :
    ((∃ template, Template.parse text = .ok template) ↔
      ∃ segments, IsCut text segments ∧
        ∀ body, .braces body ∈ segments →
          ∃ expression, Expression.parse body = .ok expression) ∧
    (∀ segments segments', IsCut text segments → IsCut text segments' → segments = segments') ∧
    ∀ template, Template.parse text = .ok template →
      ∃ segments, IsCut text segments ∧
        List.Forall₂ Segment.Reads segments template.parts := by
  refine ⟨⟨?_, ?_⟩, fun _ _ => isCut_unique, ?_⟩
  · rintro ⟨template, h⟩
    obtain ⟨segments, hcut, hparts⟩ := exists_isCut_of_parse h
    exact ⟨segments, hcut, exists_parts_iff.mp ⟨_, hparts⟩⟩
  · rintro ⟨segments, hcut, hreads⟩
    obtain ⟨parts, hparts⟩ := exists_parts_iff.mpr hreads
    exact ⟨⟨parts⟩, parse_eq_ok_iff_isCut.mpr ⟨segments, hcut, hparts⟩⟩
  · intro template h
    exact exists_isCut_of_parse h

end LinkTemplate
