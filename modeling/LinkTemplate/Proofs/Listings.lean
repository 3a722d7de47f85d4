import LinkTemplate.Action
import LinkTemplate.Proofs.Basics
/-!
# What a listing shows

A listing has one line for each part of a template, and the template is known from it. Every text in
a listing is quoted so that it ends by itself, whatever follows, and the same is true of what is
built from quoted texts. None of this depends on the characters that are hidden in quotes.
-/

namespace LinkTemplate

/-! ## Texts that end by themselves -/

namespace Listing

variable {α : Type} {write : α → Text} {back : Text}

/-- Whatever follows what is written, it is known what was written and where it ends. -/
def Delimited (write : α → Text) : Prop :=
  ∀ ⦃a b : α⦄ ⦃rest more : Text⦄, write a ++ rest = write b ++ more → a = b ∧ rest = more

/-- The same, but only where `back` stands behind what is written. -/
def DelimitedBy (back : Text) (write : α → Text) : Prop :=
  ∀ ⦃a b : α⦄ ⦃rest more : Text⦄, write a ++ (back ++ rest) = write b ++ (back ++ more) →
    a = b ∧ rest = more

theorem delimited_of_read {read : Text → Option (α × Text)}
    (h : ∀ a rest, read (write a ++ rest) = some (a, rest)) : Delimited write := by
  intro a b rest more heq
  have hread := h a rest
  rw [heq, h b more, Option.some.injEq, Prod.mk.injEq] at hread
  exact ⟨hread.1.symm, hread.2.symm⟩

/-- A text ends before a mark that does not occur in it. -/
theorem delimitedBy_of_not_mem {mark : Char} (hback : back.head? = some mark)
    (hmark : ∀ a, mark ∉ write a) (hinj : Function.Injective write) : DelimitedBy back write := by
  obtain ⟨behind, rfl⟩ := List.head?_eq_some_iff.mp hback
  intro a b rest more h
  have hcut := congrArg (Text.cut? mark) h
  simp only [List.cons_append] at hcut
  rw [Text.cut?_append (hmark a), Text.cut?_append (hmark b), Option.some.injEq,
    Prod.mk.injEq] at hcut
  exact ⟨hinj hcut.1, List.append_cancel_left hcut.2⟩

section

variable {close : Char} (hback : back.head? = some close)
  (hclose : ∀ a, (write a).head?.any (· ≠ close))

include hback hclose

theorem ne_of_close (a : α) (rest more : Text) : write a ++ rest ≠ back ++ more := by
  intro h
  have hhead := congrArg List.head? h
  have ha := hclose a
  cases hwrite : write a with
  | nil => simp [hwrite] at ha
  | cons c text =>
    rw [List.head?_append, List.head?_append, hwrite, hback] at hhead
    simp_all

/-- A series goes on up to the first place where a closing mark stands. -/
theorem Delimited.series (h : Delimited write) :
    DelimitedBy back fun as : List α => as.flatMap write := by
  intro as
  induction as with
  | nil =>
    intro bs rest more heq
    cases bs with
    | nil => exact ⟨rfl, List.append_cancel_left heq⟩
    | cons b bs =>
      simp only [List.flatMap_cons, List.append_assoc] at heq
      exact absurd heq.symm (ne_of_close hback hclose b _ rest)
  | cons a as ih =>
    intro bs rest more heq
    simp only [List.flatMap_cons, List.append_assoc] at heq
    cases bs with
    | nil => exact absurd heq (ne_of_close hback hclose a _ more)
    | cons b bs =>
      simp only [List.flatMap_cons, List.append_assoc] at heq
      obtain ⟨rfl, htail⟩ := h heq
      obtain ⟨rfl, hrest⟩ := ih htail
      exact ⟨rfl, hrest⟩

end

/-! ## Entries with commas between them -/

theorem items_cons (entry : Text) (entries : List Text) :
    items (entry :: entries) = entry ++ entries.flatMap (", ".toList ++ ·) := by
  induction entries generalizing entry with
  | nil => simp [items]
  | cons next entries ih =>
    unfold items at ih ⊢
    rw [List.intercalate_cons_cons, ih, List.flatMap_cons, List.append_assoc, List.append_assoc]

theorem not_mem_items {c : Char} {entries : List Text} (hc : c ∉ ", ".toList)
    (h : ∀ entry ∈ entries, c ∉ entry) : c ∉ items entries := by
  cases entries with
  | nil => simp [items]
  | cons entry entries =>
    rw [List.forall_mem_cons] at h
    rw [items_cons, List.mem_append, List.mem_flatMap]
    rintro (hmem | ⟨other, hother, hmem⟩)
    · exact h.1 hmem
    · exact (List.mem_append.mp hmem).elim hc (h.2 other hother)

theorem Delimited.items (h : Delimited write) {close : Char} (hback : back.head? = some close)
    (hclose : ∀ a, (write a).head?.any (· ≠ close)) (hcomma : close ≠ ',') :
    DelimitedBy back fun as : List α => items (as.map write) := by
  have hnext : Delimited fun a => ", ".toList ++ write a := by
    intro a b rest more heq
    rw [List.append_assoc, List.append_assoc] at heq
    exact h (List.append_cancel_left heq)
  have hmore := hnext.series hback fun a => by simpa using hcomma.symm
  intro as bs rest more heq
  cases as with
  | nil =>
    cases bs with
    | nil => exact ⟨rfl, List.append_cancel_left heq⟩
    | cons b bs =>
      simp only [List.map_cons, items_cons, List.append_assoc] at heq
      exact absurd heq.symm (ne_of_close hback hclose b _ rest)
  | cons a as =>
    simp only [List.map_cons, items_cons, List.flatMap_map, List.append_assoc] at heq
    cases bs with
    | nil => exact absurd heq (ne_of_close hback hclose a _ more)
    | cons b bs =>
      simp only [List.map_cons, items_cons, List.flatMap_map, List.append_assoc] at heq
      obtain ⟨rfl, htail⟩ := h heq
      obtain ⟨rfl, hrest⟩ := hmore htail
      exact ⟨rfl, hrest⟩

end Listing

open Listing

/-! ## Quoted texts -/

namespace Text

def hexLetters : Text := "0123456789abcdef".toList

def hexValue (digits : Text) : Nat := digits.foldl (fun n c => 16 * n + hexLetters.idxOf c) 0

theorem digitChar_mem_hexLetters {n : Nat} (h : n < 16) :
    n.digitChar ∈ hexLetters ∧ hexLetters.idxOf n.digitChar = n := by
  have hall : ∀ n < 16, n.digitChar ∈ hexLetters ∧ hexLetters.idxOf n.digitChar = n := by decide
  exact hall n h

theorem mem_hexLetters_of_mem_hexDigits {n : Nat} {c : Char} (h : c ∈ hexDigits n) :
    c ∈ hexLetters := by
  induction n using Nat.strongRecOn with
  | _ n ih =>
    unfold hexDigits at ih h
    rw [Nat.toDigits_eq_if (by decide)] at h
    split at h
    · rename_i hn
      rw [List.mem_singleton.mp h]
      exact (digitChar_mem_hexLetters hn).1
    · rename_i hn
      rcases List.mem_append.mp h with h | h
      · exact ih (n / 16) (by omega) h
      · rw [List.mem_singleton.mp h]
        exact (digitChar_mem_hexLetters (Nat.mod_lt n (by decide))).1

theorem not_mem_hexDigits {c : Char} (hc : c ∉ hexLetters) (n : Nat) : c ∉ hexDigits n :=
  mt mem_hexLetters_of_mem_hexDigits hc

theorem hexValue_hexDigits (n : Nat) : hexValue (hexDigits n) = n := by
  induction n using Nat.strongRecOn with
  | _ n ih =>
    unfold hexDigits at ih ⊢
    rw [Nat.toDigits_eq_if (by decide)]
    split
    · rename_i hn
      simp [hexValue, (digitChar_mem_hexLetters hn).2]
    · rename_i hn
      have hlow := (digitChar_mem_hexLetters (Nat.mod_lt n (show 0 < 16 by decide))).2
      have hhigh := ih (n / 16) (by omega)
      unfold hexValue at hhigh ⊢
      rw [List.foldl_append, hhigh, List.foldl_cons, List.foldl_nil, hlow]
      omega

/-- The character that has this letter behind its backslash. -/
def escaped? : Char → Option Char
  | '0' => some '\x00'
  | 't' => some '\t'
  | 'r' => some '\r'
  | 'n' => some '\n'
  | '"' => some '"'
  | '\\' => some '\\'
  | _ => none

/-- Takes one character off the head of what stands in quotes. -/
def unquoteChar? : Text → Option (Char × Text)
  | '\\' :: 'u' :: '{' :: text =>
    (cut? '}' text).map fun (digits, rest) => (Char.ofNat (hexValue digits), rest)
  | '\\' :: letter :: rest => (escaped? letter).map (·, rest)
  | c :: rest => some (c, rest)
  | [] => none

variable (hidden : Char → Bool)

theorem unquoteChar?_append (c : Char) (rest : Text) :
    unquoteChar? (quoteChar hidden c ++ rest) = some (c, rest) := by
  unfold quoteChar
  split
  · rename_i letter h
    unfold shortEscape? at h
    split at h <;> cases h <;> rfl
  · rename_i h
    split
    · have hbrace : '}' ∉ hexDigits c.toNat := not_mem_hexDigits (by decide) _
      have hcut := @cut?_append '}' (hexDigits c.toNat) rest hbrace
      simp [unquoteChar?, hcut, hexValue_hexDigits]
    · have hbackslash : c ≠ '\\' := by
        rintro rfl
        cases h
      simp [unquoteChar?, hbackslash]

theorem delimited_quoteChar : Delimited (quoteChar hidden) :=
  delimited_of_read (unquoteChar?_append hidden)

theorem quoteChar_head (c : Char) : (quoteChar hidden c).head?.any (· ≠ '"') := by
  unfold quoteChar
  split
  · rfl
  · rename_i h
    split
    · rfl
    · have hquote : c ≠ '"' := by
        rintro rfl
        cases h
      simp [hquote]

theorem delimited_quotedBy : Delimited (quotedBy hidden) := by
  have hchars : DelimitedBy ['"'] fun text : Text => text.flatMap (quoteChar hidden) :=
    (delimited_quoteChar hidden).series rfl (quoteChar_head hidden)
  intro a b rest more h
  unfold quotedBy at h
  simp only [List.cons_append, List.append_assoc] at h
  exact hchars (List.cons.inj h).2

theorem newline_not_mem_quoteChar (c : Char) : '\n' ∉ quoteChar hidden c := by
  unfold quoteChar
  split
  · rename_i letter h
    unfold shortEscape? at h
    split at h <;> cases h <;> decide
  · rename_i h
    split
    · have hdigits : '\n' ∉ hexDigits c.toNat := not_mem_hexDigits (by decide) _
      simp [hdigits]
    · rw [List.mem_singleton]
      rintro rfl
      cases h

theorem newline_not_mem_quotedBy (text : Text) : '\n' ∉ quotedBy hidden text := by
  simp [quotedBy, newline_not_mem_quoteChar]

end Text

/-! ## Parts -/

section

variable (hidden : Char → Bool)

theorem Listing.delimited_bool : Delimited bool := by
  intro a b rest more h
  have hhead := congrArg List.head? h
  cases a with
  | true =>
    cases b with
    | true => exact ⟨rfl, List.append_cancel_left h⟩
    | false => exact absurd hhead (show some 't' ≠ some 'f' by decide)
  | false =>
    cases b with
    | true => exact absurd hhead (show some 'f' ≠ some 't' by decide)
    | false => exact ⟨rfl, List.append_cancel_left h⟩

theorem Operator.delimitedBy_listing : DelimitedBy ", terms: [".toList Operator.listing := by
  have hcomma : ∀ op : Operator, ',' ∉ op.listing := fun op => by cases op <;> decide
  have hinj : Function.Injective Operator.listing := by
    intro a b h
    revert h
    cases a <;> cases b <;> decide
  exact delimitedBy_of_not_mem (by decide) hcomma hinj

theorem Decimal.delimitedBy_text : DelimitedBy " \x7d".toList Decimal.text := by
  have hblank : ∀ n, ' ' ∉ Decimal.text n := Decimal.not_mem_text (by decide)
  have hinj : Function.Injective Decimal.text := Function.LeftInverse.injective Decimal.value_text
  exact delimitedBy_of_not_mem (by decide) hblank hinj

theorem Term.delimited_listing : Delimited (Term.listing hidden) := by
  intro a b rest more h
  unfold listing at h
  simp only [List.append_assoc] at h
  obtain ⟨hname, h⟩ := Text.delimited_quotedBy hidden (List.append_cancel_left h)
  obtain ⟨hexplode, h⟩ := Listing.delimited_bool (List.append_cancel_left h)
  obtain ⟨htruncate, hrest⟩ := Decimal.delimitedBy_text (List.append_cancel_left h)
  cases a
  cases b
  exact ⟨by rw [Term.mk.injEq]; exact ⟨hname, hexplode, htruncate⟩, hrest⟩

theorem Expression.delimited_listing : Delimited (Expression.listing hidden) := by
  have hlist : DelimitedBy "] \x7d".toList fun terms : List Term =>
      items (terms.map (Term.listing hidden)) :=
    (Term.delimited_listing hidden).items (show _ = some ']' from rfl) (fun _ => rfl) (by decide)
  intro a b rest more h
  unfold listing at h
  simp only [List.append_assoc] at h
  obtain ⟨hoperator, h⟩ := Operator.delimitedBy_listing (List.append_cancel_left h)
  obtain ⟨hterms, hrest⟩ := hlist h
  cases a
  cases b
  exact ⟨by rw [Expression.mk.injEq]; exact ⟨hoperator, hterms⟩, hrest⟩

theorem Part.listing_literal_ne (text : Text) (e : Expression) :
    listing hidden (literal text) ≠ listing hidden (expression e) := by
  intro h
  have hhead : some 'L' = some 'V' := congrArg List.head? h
  cases hhead

theorem Part.listing_injective : Function.Injective (Part.listing hidden) := by
  intro a b h
  cases a with
  | literal text =>
    cases b with
    | literal other =>
      unfold listing at h
      simp only [List.append_assoc] at h
      obtain ⟨rfl, -⟩ := Text.delimited_quotedBy hidden (List.append_cancel_left h)
      rfl
    | expression e => exact absurd h (listing_literal_ne hidden text e)
  | expression e =>
    cases b with
    | literal text => exact absurd h.symm (listing_literal_ne hidden text e)
    | expression other =>
      unfold listing at h
      simp only [List.append_assoc] at h
      obtain ⟨rfl, -⟩ := Expression.delimited_listing hidden (List.append_cancel_left h)
      rfl

/-! ## Lines -/

theorem Term.newline_not_mem_listing (term : Term) : '\n' ∉ term.listing hidden := by
  have hname := Text.newline_not_mem_quotedBy hidden term.name
  have hexplode : '\n' ∉ bool term.explode := by cases term.explode <;> decide
  have htruncate : '\n' ∉ Decimal.text term.truncate := Decimal.not_mem_text (by decide) _
  unfold listing
  simp only [List.mem_append, hname, hexplode, htruncate, or_false]
  decide

theorem Expression.newline_not_mem_listing (e : Expression) : '\n' ∉ e.listing hidden := by
  have hoperator : '\n' ∉ e.operator.listing := by cases e.operator <;> decide
  have hterms : '\n' ∉ items (e.terms.map (Term.listing hidden)) := by
    refine not_mem_items (by decide) fun entry hentry => ?_
    obtain ⟨term, -, rfl⟩ := List.mem_map.mp hentry
    exact term.newline_not_mem_listing hidden
  unfold listing
  simp only [List.mem_append, hoperator, hterms, or_false]
  decide

theorem Part.newline_not_mem_listing (part : Part) : '\n' ∉ part.listing hidden := by
  cases part with
  | literal text =>
    have htext := Text.newline_not_mem_quotedBy hidden text
    unfold listing
    simp only [List.mem_append, htext, or_false]
    decide
  | expression e =>
    have he := e.newline_not_mem_listing hidden
    unfold listing
    simp only [List.mem_append, he, or_false]
    decide

theorem Part.listing_ne_nil (part : Part) : part.listing hidden ≠ [] := by
  cases part with
  | literal text => exact List.cons_ne_nil 'L' _
  | expression e => exact List.cons_ne_nil 'V' _

end

/-- The lines of a text; an empty text has none. -/
def Text.lines (text : Text) : List Text := if text = [] then [] else text.splitOn '\n'

theorem Text.lines_intercalate {pieces : List Text}
    (h : ∀ piece ∈ pieces, '\n' ∉ piece ∧ piece ≠ []) :
    lines (['\n'].intercalate pieces) = pieces := by
  unfold lines
  cases pieces with
  | nil => rfl
  | cons piece pieces =>
    have hne : ['\n'].intercalate (piece :: pieces) ≠ [] := by
      rw [intercalate_cons]
      exact List.append_ne_nil_of_left_ne_nil (h piece List.mem_cons_self).2 _
    rw [if_neg hne]
    exact List.splitOn_intercalate '\n' (fun piece hpiece => (h piece hpiece).1)
      (List.cons_ne_nil piece pieces)

theorem Template.lines_listing (hidden : Char → Bool) (template : Template) :
    (template.listing hidden).lines = template.parts.map (Part.listing hidden) := by
  refine Text.lines_intercalate fun piece hpiece => ?_
  obtain ⟨part, -, rfl⟩ := List.mem_map.mp hpiece
  exact ⟨part.newline_not_mem_listing hidden, part.listing_ne_nil hidden⟩

theorem Template.count_listing (hidden : Char → Bool) (template : Template) :
    (template.listing hidden).count '\n' = template.parts.length - 1 := by
  by_cases hparts : template.parts = []
  · simp [listing, hparts]
  · have hflat : '\n' ∉ (template.parts.map (Part.listing hidden)).flatten := by
      rw [List.mem_flatten]
      rintro ⟨line, hline, hmem⟩
      obtain ⟨part, -, rfl⟩ := List.mem_map.mp hline
      exact part.newline_not_mem_listing hidden hmem
    have hcount := @Text.count_intercalate '\n' (template.parts.map (Part.listing hidden))
      (mt List.map_eq_nil_iff.mp hparts)
    rw [List.count_eq_zero.mpr hflat, List.length_map] at hcount
    exact Nat.eq_sub_of_add_eq hcount

theorem Template.listing_inj {hidden : Char → Bool} {template other : Template} :
    other.listing hidden = template.listing hidden ↔ other = template := by
  constructor
  · intro h
    have hlines := congrArg Text.lines h
    rw [lines_listing, lines_listing] at hlines
    have hparts := (List.map_injective_iff.mpr (Part.listing_injective hidden)) hlines
    cases template
    cases other
    exact congrArg Template.mk hparts
  · rintro rfl
    rfl

/-- Whichever characters are hidden in quotes, a listing has one line for each part of the template,
with a line break between two of them, and no other template has the same listing. So the command
prints it for the texts of this template and for no other text. -/
theorem listing_determines_template [YamlReader] (hidden : Char → Bool) (template : Template) :
    (template.listing hidden).count '\n' = template.parts.length - 1 ∧
    (template.listing hidden).lines = template.parts.map (Part.listing hidden) ∧
    (∀ other : Template, other.listing hidden = template.listing hidden ↔ other = template) ∧
    ∀ files text,
      Action.run files (.parse text false) = .ok (template.listing Text.isUnprintable) ↔
        Template.parse text = .ok template := by
  refine ⟨template.count_listing hidden, template.lines_listing hidden,
    fun other => Template.listing_inj, fun files text => ?_⟩
  have hrun : Action.run files (.parse text false) =
      (Action.readTemplate text).map (Template.listing Text.isUnprintable) := by
    cases h : Action.readTemplate text <;> simp [Action.run, h, Except.map]
  rw [hrun, map_eq_ok]
  simp only [Action.readTemplate, mapError_eq_ok, Template.listing_inj]
  simp

/-- A literal that holds a quote and a line break is shown on a line of its own. -/
example :
    Template.listing Text.isUnprintable
      ⟨[.literal "a\")\n".toList, .expression ⟨.query, [⟨['é'], true, 0⟩]⟩]⟩ =
      "Literal(\"a\\\")\\n\")\n".toList ++
        "Variable(VariableExpression \x7b operator: Query, terms: [".toList ++
        "Term \x7b name: \"é\", explode: true, truncate: 0 \x7d] \x7d)".toList := by
  decide +kernel

end LinkTemplate
