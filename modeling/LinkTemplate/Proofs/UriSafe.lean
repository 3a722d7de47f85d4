import LinkTemplate.Proofs.Decoding
import LinkTemplate.Proofs.Names
/-!
# Expansions that may stand in a URI

A text may stand in a URI if it is a sequence of characters that stand for themselves there and of
percent signs with two hexadecimal digits each. An expansion is such a text if what it takes over
as it is, the literals, the names and the keys of tables, is made of such texts. Values may be any
texts: they are cut before they are encoded, so no encoded character is ever cut in two.
-/

namespace LinkTemplate

namespace Percent

/-! ## Sequences of safe units -/

def isHexDigit (c : Char) : Bool := (Hexadecimal.value? c).isSome

/-- A character that stands for itself, or an encoded byte. -/
def isUnit : Text → Bool
  | [c] => isUnreserved c || isReserved c
  | ['%', high, low] => isHexDigit high && isHexDigit low
  | _ => false

def UriSafe (text : Text) : Prop :=
  ∃ units : List Text, text = units.flatten ∧ ∀ unit ∈ units, isUnit unit

theorem UriSafe.of_isUnit {text : Text} (h : isUnit text) : UriSafe text :=
  ⟨[text], by simp, by simpa using h⟩

theorem UriSafe.nil : UriSafe [] := ⟨[], rfl, by simp⟩

theorem UriSafe.append {s t : Text} (hs : UriSafe s) (ht : UriSafe t) : UriSafe (s ++ t) := by
  obtain ⟨units, rfl, hunits⟩ := hs
  obtain ⟨more, rfl, hmore⟩ := ht
  refine ⟨units ++ more, by simp, ?_⟩
  intro unit hunit
  rcases List.mem_append.mp hunit with hunit | hunit
  · exact hunits unit hunit
  · exact hmore unit hunit

theorem UriSafe.cons {c : Char} {text : Text} (hc : isUnit [c]) (h : UriSafe text) :
    UriSafe (c :: text) :=
  (UriSafe.of_isUnit hc).append h

theorem UriSafe.of_all {text : Text} (h : text.all fun c => isUnit [c]) : UriSafe text := by
  induction text with
  | nil => exact .nil
  | cons c text ih =>
    rw [List.all_cons, Bool.and_eq_true] at h
    exact .cons h.1 (ih h.2)

theorem UriSafe.flatMap {α : Type} {f : α → Text} {as : List α}
    (h : ∀ a ∈ as, UriSafe (f a)) : UriSafe (as.flatMap f) := by
  induction as with
  | nil => exact .nil
  | cons a as ih =>
    rw [List.flatMap_cons]
    exact (h a List.mem_cons_self).append (ih fun b hb => h b (List.mem_cons_of_mem a hb))

theorem UriSafe.intercalate {mark : Char} {pieces : List Text} (hmark : isUnit [mark])
    (h : ∀ piece ∈ pieces, UriSafe piece) : UriSafe ([mark].intercalate pieces) := by
  cases pieces with
  | nil => exact .nil
  | cons piece pieces =>
    rw [Text.intercalate_cons]
    refine (h piece List.mem_cons_self).append (UriSafe.flatMap fun next hnext => ?_)
    exact .cons hmark (h next (List.mem_cons_of_mem piece hnext))

/-! ## Encoded texts -/

theorem isUnit_encodeByte (byte : UInt8) : isUnit (encodeByte byte) := by
  have hlt : byte.toNat < 256 := byte.toNat_lt
  have hhigh := value?_hexDigit (byte.toNat / 16) (by omega)
  have hlow := value?_hexDigit (byte.toNat % 16) (by omega)
  simp [encodeByte, isUnit, isHexDigit, hhigh, hlow]

theorem isUnit_of_isKept {allowReserved : Bool} {c : Char} (h : isKept allowReserved c) :
    isUnit [c] := by
  simp only [isKept, isUnit, Bool.or_eq_true, Bool.and_eq_true] at h ⊢
  exact h.imp_right And.right

theorem uriSafe_encode (allowReserved : Bool) (text : Text) :
    UriSafe (encode allowReserved text) := by
  rw [encode_eq_flatMap_chars]
  refine UriSafe.flatMap fun c _ => ?_
  split
  · rename_i hkept
    exact .of_isUnit (isUnit_of_isKept hkept)
  · exact UriSafe.flatMap fun byte _ => .of_isUnit (isUnit_encodeByte byte)

end Percent

open Percent (UriSafe isUnit)

/-! ## What an operator writes -/

structure Style.Safe (style : Style) : Prop where
  first : UriSafe style.first
  ifEmpty : UriSafe style.ifEmpty
  separator : isUnit [style.separator]

theorem Operator.safe_style (op : Operator) : op.style.Safe := by
  cases op
  all_goals exact ⟨.of_all (by decide), .of_all (by decide), by decide⟩

/-! ## Expansions of values -/

namespace Slot

/-- What is written besides the value may stand in a URI. -/
structure Safe (slot : Slot) : Prop where
  style : slot.style.Safe
  name : UriSafe slot.name

theorem Safe.forKey {slot : Slot} {key : Text} (h : slot.Safe) (hkey : UriSafe key) :
    (slot.forKey key).Safe := ⟨h.style, hkey⟩

theorem Safe.label {slot : Slot} {encoded : Text} (h : slot.Safe) (hencoded : UriSafe encoded) :
    UriSafe (slot.label encoded) := by
  unfold Slot.label
  split
  · exact hencoded
  · split
    · exact h.name.append h.style.ifEmpty
    · exact h.name.append (.cons (by decide) hencoded)

theorem Safe.expandText {slot : Slot} (h : slot.Safe) (text : Text) :
    UriSafe (slot.expandText text) :=
  h.label (Percent.uriSafe_encode _ _)

theorem uriSafe_joinMore (slot : Slot) (written : Nat) (items : List Text) :
    UriSafe (slot.joinMore written items) := by
  induction items generalizing written with
  | nil => exact .nil
  | cons item items ih =>
    -- Whether the item is cut or not, what is written is an encoded text.
    exact .cons (by decide) ((Percent.uriSafe_encode _ _).append (ih _))

theorem uriSafe_joinItems (slot : Slot) (items : List Text) : UriSafe (slot.joinItems items) := by
  cases items with
  | nil => exact .nil
  | cons item items => exact (Percent.uriSafe_encode _ _).append (slot.uriSafe_joinMore _ items)

theorem Safe.expandList {slot : Slot} (h : slot.Safe) (items : List Text) :
    UriSafe (slot.expandList items) := by
  unfold Slot.expandList
  split
  · refine UriSafe.intercalate h.style.separator ?_
    rw [List.forall_mem_map]
    exact fun item _ => h.expandText item
  · exact h.label (slot.uriSafe_joinItems items)

theorem Safe.expandTable {slot : Slot} (h : slot.Safe) {entries : Table Text}
    (hkeys : ∀ key ∈ entries.keys, UriSafe key) : UriSafe (slot.expandTable entries) := by
  have hkey : ∀ entry ∈ entries.entries, UriSafe entry.1 := by
    intro entry hentry
    exact hkeys entry.1 (List.mem_map_of_mem hentry)
  unfold Slot.expandTable
  split
  · refine UriSafe.intercalate h.style.separator ?_
    rw [List.forall_mem_map]
    exact fun entry hentry => (h.forKey (hkey entry hentry)).expandText entry.2
  · refine h.label (UriSafe.intercalate (by decide) ?_)
    rw [List.forall_mem_map]
    intro entry hentry
    exact (hkey entry hentry).append (.cons (by decide) (Percent.uriSafe_encode _ entry.2))

theorem Safe.expand? {slot : Slot} (h : slot.Safe) {value : Value} {text : Text}
    (hkeys : ∀ entries, value = .table entries → ∀ key ∈ entries.keys, UriSafe key)
    (htext : slot.expand? value = some text) : UriSafe text := by
  cases value with
  | undefined => cases htext
  | text value =>
    cases htext
    exact h.expandText value
  | list items =>
    cases htext
    exact h.expandList items
  | table entries =>
    cases htext
    exact h.expandTable (hkeys entries rfl)

end Slot

/-! ## Expansions of templates -/

def Bindings.SafeKeys (bindings : Bindings) (name : Text) : Prop :=
  ∀ entries, bindings.get? name = some (.table entries) → ∀ key ∈ entries.keys, UriSafe key

theorem Expression.uriSafe_expand {e : Expression} {bindings : Bindings}
    (hnames : ∀ term ∈ e.terms, UriSafe term.name)
    (hkeys : ∀ term ∈ e.terms, bindings.SafeKeys term.name) : UriSafe (e.expand bindings) := by
  have hpieces : ∀ piece ∈ e.terms.filterMap (Term.expand? e.operator bindings),
      UriSafe piece := by
    intro piece hpiece
    obtain ⟨term, hterm, hexpand⟩ := List.mem_filterMap.mp hpiece
    obtain ⟨value, hvalue, htext⟩ := Option.bind_eq_some_iff.mp hexpand
    have hslot : (Slot.ofTerm e.operator term).Safe := ⟨e.operator.safe_style, hnames term hterm⟩
    refine hslot.expand? ?_ htext
    rintro entries rfl
    exact hkeys term hterm entries (Option.filter_eq_some_iff.mp hvalue).1
  unfold expand
  split
  · exact .nil
  · exact e.operator.safe_style.first.append
      (UriSafe.intercalate e.operator.safe_style.separator hpieces)

/-- If the literals and the names of a template and the keys of the tables under its names may
stand in a URI, so may its expansion, whatever texts the values hold and however they are cut. -/
theorem expand_uriSafe (template : Template) (bindings : Bindings)
    (hliterals : ∀ text, .literal text ∈ template.parts → UriSafe text)
    (hnames : ∀ name ∈ template.names, UriSafe name)
    (hkeys : ∀ name ∈ template.names, ∀ entries, bindings.get? name = some (.table entries) →
      ∀ key ∈ entries.keys, UriSafe key) :
    UriSafe (template.expand bindings) := by
  refine UriSafe.flatMap fun part hpart => ?_
  cases part with
  | literal text => exact hliterals text hpart
  | expression e =>
    have hname : ∀ term ∈ e.terms, term.name ∈ template.names := by
      intro term hterm
      have hmem : term ∈ template.terms := List.mem_flatMap.mpr ⟨.expression e, hpart, hterm⟩
      exact Template.mem_firstUses.mpr (List.mem_map_of_mem hmem)
    exact Expression.uriSafe_expand (fun term hterm => hnames _ (hname term hterm))
      fun term hterm => hkeys _ (hname term hterm)

/-- A literal, a name and a key with encoded bytes in them, a text that is cut between two wide
letters and a list whose second item is cut. -/
theorem expand_uriSafe_of_wide_letters :
    let template : Template := ⟨[.literal "/%c3".toList, .expression ⟨.pathParameter,
      [⟨"a%20".toList, true, 0⟩, ⟨['t'], false, 1⟩, ⟨['l'], false, 1⟩]⟩]⟩
    let table : Table Text := Table.ofList [("k%3D".toList, "é%;".toList)]
    let bindings : Bindings := Table.ofList [("a%20".toList, .table table),
      (['t'], .text "€€".toList), (['l'], .list ["é".toList, "€€".toList])]
    template.expand bindings =
        "/%c3;k%3D=%C3%A9%25%3B;t=%E2%82%AC;l=%C3%A9,%E2%82%AC".toList ∧
      UriSafe (template.expand bindings) := by
  intro template table bindings
  have hnames : template.names = ["a%20".toList, ['t'], ['l']] := by decide
  have htable : bindings.get? "a%20".toList = some (.table table) := by decide
  have htext : bindings.get? ['t'] = some (.text "€€".toList) := by decide
  have hlist : bindings.get? ['l'] = some (.list ["é".toList, "€€".toList]) := by decide
  refine ⟨by decide +kernel, expand_uriSafe template bindings ?_ ?_ ?_⟩
  · intro text hliteral
    obtain rfl : text = "/%c3".toList := by simpa [template] using hliteral
    exact ⟨[['/'], ['%', 'c', '3']], by decide⟩
  · simp only [hnames, List.forall_mem_cons]
    refine ⟨⟨[['a'], ['%', '2', '0']], by decide⟩, ?_, ?_, by simp⟩
    · exact .of_all (by decide)
    · exact .of_all (by decide)
  · simp only [hnames, List.forall_mem_cons, htable, htext, hlist]
    refine ⟨?_, by simp, by simp, by simp⟩
    have hkeys : table.keys = ["k%3D".toList] := by decide
    rintro entries ⟨⟩ key hkey
    obtain rfl : key = "k%3D".toList := by simpa [hkeys] using hkey
    exact ⟨[['k'], ['%', '3', 'D']], by decide⟩

end LinkTemplate
