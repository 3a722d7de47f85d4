import LinkTemplate.Proofs.ReadBack
/-!
# Reading a table back from a query

An exploded table is written as a query: pairs with ampersands between them, each a key, an equals
sign and a value. The value is encoded and the key is not, so the pairs are found again exactly
when no key holds a character that such a query gives a meaning to.
-/

namespace LinkTemplate

/-! ## Pairs -/

/-- Cuts a piece at its first equals sign and decodes both halves. -/
def readPair? (piece : Text) : Option (Text × Text) :=
  (Text.cut? '=' piece).bind fun (key, value) =>
    (Percent.decode? key).bind fun key => (Percent.decode? value).map (key, ·)

def readPairs? (query : Text) : Option (List (Text × Text)) := (query.splitOn '&').mapM readPair?

def pairText (pair : Text × Text) : Text := pair.1 ++ '=' :: Percent.encode false pair.2

theorem readPair?_eq_some_iff {piece : Text} {pair : Text × Text} :
    readPair? piece = some pair ↔
      ∃ key value, Text.cut? '=' piece = some (key, value) ∧
        Percent.decode? key = some pair.1 ∧ Percent.decode? value = some pair.2 := by
  obtain ⟨key, value⟩ := pair
  simp [readPair?, Option.bind_eq_some_iff]

theorem readPair?_pairText_iff {pair : Text × Text} :
    readPair? (pairText pair) = some pair ↔ '=' ∉ pair.1 ∧ '%' ∉ pair.1 := by
  obtain ⟨key, value⟩ := pair
  rw [readPair?_eq_some_iff]
  constructor
  · rintro ⟨before, after, hcut, hkey, -⟩
    -- What stands before the cut starts the key, and is no shorter if it decodes to the key.
    have hstart : before <+: key := Text.prefix_of_cut? hcut
    obtain ⟨rfl, hpercent⟩ := Percent.eq_of_decode?_of_isPrefix hstart hkey
    exact ⟨(Text.eq_append_of_cut? hcut).2, hpercent⟩
  · rintro ⟨hequals, hpercent⟩
    exact ⟨key, _, Text.cut?_append hequals, Percent.decode?_eq_self_iff.mpr hpercent,
      Percent.decode?_encode false value⟩

theorem ampersand_mem_pairText_iff {pair : Text × Text} :
    '&' ∈ pairText pair ↔ '&' ∈ pair.1 := by
  have hvalue : '&' ∉ Percent.encode false pair.2 := by
    intro hmem
    have hkept := Percent.mem_encode hmem
    revert hkept
    decide
  simp [pairText, hvalue]

theorem readPairs?_intercalate_iff_of_no_ampersand {pairs : List (Text × Text)}
    (hne : pairs ≠ []) (hmark : ∀ piece ∈ pairs.map pairText, '&' ∉ piece) :
    readPairs? (['&'].intercalate (pairs.map pairText)) = some pairs ↔
      ∀ pair ∈ pairs, '=' ∉ pair.1 ∧ '%' ∉ pair.1 := by
  have hpieces : pairs.map pairText ≠ [] := by simpa using hne
  rw [readPairs?, mapM_eq_some_iff, List.splitOn_intercalate _ hmark hpieces,
    List.forall₂_map_left_iff, List.forall₂_same]
  exact forall₂_congr fun pair _ => readPair?_pairText_iff

theorem readPairs?_intercalate_iff {pairs : List (Text × Text)} (hne : pairs ≠ []) :
    readPairs? (['&'].intercalate (pairs.map pairText)) = some pairs ↔
      ∀ pair ∈ pairs, '&' ∉ pair.1 ∧ '=' ∉ pair.1 ∧ '%' ∉ pair.1 := by
  constructor
  · intro h
    -- There are as many pieces as pairs, so no key has an ampersand in it.
    have hlength := (mapM_eq_some_iff.mp h).length_eq
    have hmark : ∀ piece ∈ pairs.map pairText, '&' ∉ piece :=
      Text.not_mem_of_length_splitOn (by simpa using hne) (by simpa using hlength)
    intro pair hpair
    refine ⟨?_, (readPairs?_intercalate_iff_of_no_ampersand hne hmark).mp h pair hpair⟩
    rw [← ampersand_mem_pairText_iff]
    exact hmark _ (List.mem_map_of_mem hpair)
  · intro h
    have hmark : ∀ piece ∈ pairs.map pairText, '&' ∉ piece := by
      simp only [List.forall_mem_map, ampersand_mem_pairText_iff]
      exact fun pair hpair => (h pair hpair).1
    exact (readPairs?_intercalate_iff_of_no_ampersand hne hmark).mpr fun pair hpair =>
      (h pair hpair).2

/-! ## Exploded tables -/

/-- An exploded table is written entry by entry, each under its key. -/
theorem Expression.expand_exploded_table {op : Operator} {name : Text} {bindings : Bindings}
    {entries : Table Text} (hbound : bindings.get? name = some (.table entries))
    (hne : entries.entries ≠ []) :
    Expression.expand bindings ⟨op, [⟨name, true, 0⟩]⟩ =
      op.style.first ++ [op.style.separator].intercalate (entries.entries.map fun (key, value) =>
        ((Slot.ofTerm op ⟨name, true, 0⟩).forKey key).expandText value) := by
  exact Expression.expand_singleton
    (Term.expand?_of_get? op ⟨name, true, 0⟩ hbound (Value.isDefined_table_iff.mpr hne))

/-- A query writes the equals sign before an empty value too. -/
theorem Slot.expandText_forKey {op : Operator} (hop : op = .query ∨ op = .queryContinuation)
    (name key value : Text) :
    ((Slot.ofTerm op ⟨name, true, 0⟩).forKey key).expandText value = pairText (key, value) := by
  rcases hop with rfl | rfl
  all_goals
    simp only [Slot.expandText, Slot.label, Slot.forKey, Slot.ofTerm, Slot.cut, Slot.encode,
      Operator.style, pairText]
    split <;> simp_all

/-- The pairs of a table are read back from the query it is exploded into if and only if no key
has an ampersand, an equals sign or a percent sign in it. The values may be any texts. -/
theorem pairs_read_back_iff (op : Operator) (name : Text) (bindings : Bindings)
    (entries : Table Text) (hop : op = .query ∨ op = .queryContinuation)
    (hbound : bindings.get? name = some (.table entries)) (hne : entries.entries ≠ []) :
    readPairs? ((Expression.expand bindings ⟨op, [⟨name, true, 0⟩]⟩).drop 1) =
        some entries.entries ↔
      ∀ key ∈ entries.keys, '&' ∉ key ∧ '=' ∉ key ∧ '%' ∉ key := by
  have hstyle : ∃ c, op.style.first = [c] ∧ op.style.separator = '&' := by
    rcases hop with rfl | rfl <;> exact ⟨_, rfl, rfl⟩
  obtain ⟨c, hfirst, hseparator⟩ := hstyle
  have hquery : (Expression.expand bindings ⟨op, [⟨name, true, 0⟩]⟩).drop 1 =
      ['&'].intercalate (entries.entries.map pairText) := by
    rw [Expression.expand_exploded_table hbound hne, hfirst, hseparator]
    simp [Slot.expandText_forKey hop]
  rw [hquery, readPairs?_intercalate_iff hne, Table.keys, List.forall_mem_map]

/-- Keys with blanks and accents, an empty key, an empty value and values full of marks. -/
theorem marked_values_read_back :
    let entries : Table Text :=
      Table.ofList [("é b".toList, "&=%é".toList), ([], "x".toList), ("+".toList, [])]
    let bindings : Bindings := Table.ofList [(['m'], .table entries)]
    let e : Expression := ⟨.queryContinuation, [⟨['m'], true, 0⟩]⟩
    e.expand bindings = "&é b=%26%3D%25%C3%A9&=x&+=".toList ∧
      readPairs? ((e.expand bindings).drop 1) = some entries.entries := by
  intro entries bindings e
  refine ⟨by decide +kernel, (pairs_read_back_iff _ _ _ _ (Or.inr rfl) ?_ ?_).mpr ?_⟩
  all_goals decide +kernel

/-- A key that is not encoded forges a parameter. -/
theorem raw_key_forges_parameter :
    let entries : Table Text := Table.ofList [("x=1&admin".toList, "yes".toList)]
    let bindings : Bindings := Table.ofList [(['m'], .table entries)]
    let e : Expression := ⟨.query, [⟨['m'], true, 0⟩]⟩
    e.expand bindings = "?x=1&admin=yes".toList ∧
      readPairs? ((e.expand bindings).drop 1) =
        some [(['x'], ['1']), ("admin".toList, "yes".toList)] ∧
      readPairs? ((e.expand bindings).drop 1) ≠ some entries.entries := by
  intro entries bindings e
  refine ⟨?_, ?_, ?_⟩
  all_goals decide +kernel

end LinkTemplate
