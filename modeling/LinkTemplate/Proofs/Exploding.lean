import LinkTemplate.Proofs.TermLists
/-!
# Values expanded entry by entry

An exploded table is expanded as if each of its keys were a variable of its own, in the place of
the table and bound to the text under the key. An exploded list is expanded as if its variable were
bound to each of its items in turn.
-/

namespace LinkTemplate

/-! ## Bindings for the entries of a table -/

namespace Bindings

/-- The bindings with every key bound to its text. -/
def bindAll (V : Bindings) (entries : List (Text × Text)) : Bindings :=
  entries.foldl (fun V (key, text) => V.insert key (.text text)) V

variable {V : Bindings} {entries : List (Text × Text)} {name : Text}

theorem get?_bindAll_of_not_mem (h : name ∉ entries.map Prod.fst) :
    (V.bindAll entries).get? name = V.get? name := by
  unfold bindAll
  induction entries generalizing V with
  | nil => rfl
  | cons entry entries ih =>
    rw [List.map_cons, List.mem_cons, not_or] at h
    rw [List.foldl_cons, ih h.2, Table.get?_insert, if_neg h.1]

theorem get?_bindAll_of_mem {text : Text} (hnodup : (entries.map Prod.fst).Nodup)
    (h : (name, text) ∈ entries) : (V.bindAll entries).get? name = some (.text text) := by
  induction entries generalizing V with
  | nil => cases h
  | cons entry entries ih =>
    rw [List.map_cons, List.nodup_cons] at hnodup
    have hcons : V.bindAll (entry :: entries) =
        Bindings.bindAll (V.insert entry.1 (.text entry.2)) entries := rfl
    rw [hcons]
    rcases List.mem_cons.mp h with rfl | h
    · rw [get?_bindAll_of_not_mem hnodup.1, Table.get?_insert, if_pos rfl]
    · exact ih hnodup.2 h

end Bindings

/-- The term of a name without modifiers. -/
def Term.plain (name : Text) : Term := ⟨name, false, 0⟩

namespace Expression

variable {op : Operator} {V W : Bindings}

/-! ## Tables -/

/-- What the entries of an exploded table are expanded to. -/
def entryTexts (op : Operator) (name : Text) (entries : List (Text × Text)) : List Text :=
  entries.map fun (key, text) => ((Slot.ofTerm op ⟨name, true, 0⟩).forKey key).expandText text

theorem fragments_table {name : Text} {entries : Table Text}
    (hbound : V.get? name = some (.table entries)) (hne : entries.entries ≠ []) :
    fragments op V [⟨name, true, 0⟩] =
      [[op.style.separator].intercalate (entryTexts op name entries.entries)] := by
  have hterm := Term.expand?_of_get? op ⟨name, true, 0⟩ hbound
    (Value.isDefined_table_iff.mpr hne)
  unfold fragments
  rw [List.filterMap_cons, hterm]
  rfl

/-- A named operator writes a key as it writes the name of a variable. -/
theorem expandText_plain (hnamed : op.style.named) (name key text : Text) :
    (Slot.ofTerm op (.plain key)).expandText text =
      ((Slot.ofTerm op ⟨name, true, 0⟩).forKey key).expandText text := by
  unfold Slot.expandText Slot.label
  simp only [Slot.ofTerm, Slot.forKey, Term.plain, hnamed]
  rfl

theorem fragments_keys (hnamed : op.style.named) (name : Text) {entries : List (Text × Text)}
    (h : ∀ entry ∈ entries, W.get? entry.1 = some (.text entry.2)) :
    fragments op W ((entries.map Prod.fst).map Term.plain) = entryTexts op name entries := by
  unfold fragments entryTexts
  rw [List.map_map, List.filterMap_map, ← List.filterMap_eq_map]
  refine List.filterMap_congr fun entry hentry => ?_
  have hterm := Term.expand?_of_get? op (.plain entry.1) (h entry hentry) rfl
  simp only [Function.comp_apply, hterm, Slot.expand?, expandText_plain hnamed name]

theorem expand_table_as_keys {xs ys : List Term} {name : Text} {entries : Table Text}
    (hnamed : op.style.named) (hbound : V.get? name = some (.table entries))
    (hne : entries.entries ≠ []) (hkeys : ∀ key ∈ entries.keys, key ∉ (xs ++ ys).map Term.name) :
    expand V ⟨op, xs ++ ⟨name, true, 0⟩ :: ys⟩ =
      expand (V.bindAll entries.entries) ⟨op, xs ++ (entries.keys.map Term.plain ++ ys)⟩ := by
  have hothers : ∀ term ∈ xs ++ ys,
      Bindings.defined? (V.bindAll entries.entries) term.name =
        Bindings.defined? V term.name := by
    intro term hterm
    unfold Bindings.defined?
    rw [Bindings.get?_bindAll_of_not_mem]
    exact fun hkey => hkeys term.name hkey (List.mem_map_of_mem hterm)
  have htexts : ∀ entry ∈ entries.entries,
      (V.bindAll entries.entries).get? entry.1 = some (.text entry.2) := by
    intro entry hentry
    exact Bindings.get?_bindAll_of_mem entries.keys_nodup hentry
  have htable : fragments op V (xs ++ ⟨name, true, 0⟩ :: ys) = fragments op V xs ++
      [op.style.separator].intercalate (entryTexts op name entries.entries) ::
        fragments op V ys := by
    rw [List.append_cons, fragments_append, fragments_append, fragments_table hbound hne,
      List.append_assoc, List.singleton_append]
  have hentries : fragments op (V.bindAll entries.entries)
      (xs ++ (entries.keys.map Term.plain ++ ys)) =
      fragments op V xs ++ (entryTexts op name entries.entries ++ fragments op V ys) := by
    rw [fragments_append, fragments_append, Table.keys, fragments_keys hnamed name htexts,
      fragments_congr fun term hterm => hothers term (List.mem_append_left ys hterm),
      fragments_congr fun term hterm => hothers term (List.mem_append_right xs hterm)]
  have hgroup : entryTexts op name entries.entries ≠ [] := by
    simpa [entryTexts] using hne
  rw [expand_eq (by simp [htable]), htable,
    expand_eq (by simp [hentries, hgroup]), hentries,
    Text.intercalate_joined hgroup]

/-! ## Lists -/

theorem expand_text {term : Term} {text : Text} (h : V.get? term.name = some (.text text)) :
    expand V ⟨op, [term]⟩ = op.style.first ++ (Slot.ofTerm op term).expandText text :=
  expand_singleton (Term.expand?_of_get? op term h rfl)

theorem expand_insert_text (V : Bindings) (term : Term) (text : Text) :
    expand (V.insert term.name (.text text)) ⟨op, [term]⟩ =
      op.style.first ++ (Slot.ofTerm op term).expandText text := by
  apply expand_text
  rw [Table.get?_insert, if_pos rfl]

theorem expand_list {term : Term} {items : List Text} (hexplode : term.explode)
    (hbound : V.get? term.name = some (.list items)) (hne : items ≠ []) :
    expand V ⟨op, [term]⟩ = op.style.first ++
      [op.style.separator].intercalate (items.map (Slot.ofTerm op term).expandText) := by
  rw [expand_singleton (Term.expand?_of_get? op term hbound (Value.isDefined_list_iff.mpr hne))]
  unfold Slot.expandList
  rw [if_pos (show (Slot.ofTerm op term).explode from hexplode)]
  rfl

end Expression

/-- An exploded table between other terms is expanded like its keys in its place, each bound to the
text under it, if none of the other terms has a key for its name. An exploded list is expanded,
behind what comes first, like its items one by one in the place of the list, with separators
between them. -/
theorem explode_entry_by_entry (op : Operator) (V : Bindings) :
    (∀ (xs ys : List Term) (name : Text) (entries : Table Text),
      op ∈ [Operator.pathParameter, .query, .queryContinuation] →
      V.get? name = some (.table entries) → entries.entries ≠ [] →
      (∀ key ∈ entries.keys, key ∉ (xs ++ ys).map Term.name) →
      Expression.expand V ⟨op, xs ++ ⟨name, true, 0⟩ :: ys⟩ =
        Expression.expand (V.bindAll entries.entries)
          ⟨op, xs ++ (entries.keys.map Term.plain ++ ys)⟩) ∧
    ∀ (term : Term) (items : List Text), term.explode = true →
      V.get? term.name = some (.list items) → items ≠ [] →
      op.style.first <+: Expression.expand V ⟨op, [term]⟩ ∧
      (∀ item ∈ items,
        op.style.first <+: Expression.expand (V.insert term.name (.text item)) ⟨op, [term]⟩) ∧
      (Expression.expand V ⟨op, [term]⟩).drop op.style.first.length =
        [op.style.separator].intercalate (items.map fun item =>
          (Expression.expand (V.insert term.name (.text item)) ⟨op, [term]⟩).drop
            op.style.first.length) := by
  refine ⟨?_, ?_⟩
  · intro xs ys name entries hop hbound hne hkeys
    have hnamed : op.style.named := by
      simp only [List.mem_cons, List.not_mem_nil, or_false] at hop
      rcases hop with rfl | rfl | rfl <;> rfl
    exact Expression.expand_table_as_keys hnamed hbound hne hkeys
  · intro term items hexplode hbound hne
    simp only [Expression.expand_insert_text, Expression.expand_list hexplode hbound hne,
      List.drop_left, List.prefix_append, implies_true, true_and]

/-- One key is the name of the table itself, one is empty and one has an empty text. The items of
the list are cut, and one of them is empty. -/
theorem explode_entry_by_entry_of_three :
    let xs : List Term := [⟨['u'], false, 0⟩, ⟨['l'], true, 2⟩]
    let ys : List Term := [⟨['t'], false, 0⟩]
    let entries : Table Text := Table.ofList [(['m'], ['é']), ([], ['&']), (['k'], [])]
    let V : Bindings := Table.ofList [(['m'], .table entries), (['l'], .list [['a', 'b', 'c'], []]),
      (['t'], .text ['1'])]
    let list : Expression := ⟨.label, [⟨['l'], true, 2⟩]⟩
    Expression.expand V ⟨.pathParameter, xs ++ ⟨['m'], true, 0⟩ :: ys⟩ =
        ";l=ab;l;m=%C3%A9;=%26;k;t=1".toList ∧
      Expression.expand V ⟨.pathParameter, xs ++ ⟨['m'], true, 0⟩ :: ys⟩ =
        Expression.expand (V.bindAll entries.entries)
          ⟨.pathParameter, xs ++ ([.plain ['m'], .plain [], .plain ['k']] ++ ys)⟩ ∧
      list.expand V = ".ab.".toList ∧
      (list.expand V).drop 1 = ['.'].intercalate
        [(list.expand (V.insert ['l'] (.text ['a', 'b', 'c']))).drop 1,
          (list.expand (V.insert ['l'] (.text []))).drop 1] := by
  intro xs ys entries V list
  have htable := (explode_entry_by_entry .pathParameter V).1 xs ys ['m'] entries (by decide)
    (by decide +kernel) (by decide +kernel) (by decide +kernel)
  obtain ⟨-, -, hlist⟩ := (explode_entry_by_entry .label V).2 ⟨['l'], true, 2⟩
    [['a', 'b', 'c'], []] rfl (by decide +kernel) (by decide)
  exact ⟨by decide +kernel, htable, by decide +kernel, hlist⟩

end LinkTemplate
