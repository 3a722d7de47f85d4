import Mathlib.Data.List.Induction
import LinkTemplate.Table
import LinkTemplate.Proofs.Names
/-!
# Tables gathered from entries

Entries put into a table one after another: the keys stand in the order in which they first came,
and each has the value that came last.
-/

namespace LinkTemplate

theorem Template.firstUses_concat (names : List Text) (name : Text) :
    firstUses (names ++ [name]) =
      if name ∈ names then firstUses names else firstUses names ++ [name] := by
  induction names with
  | nil => rfl
  | cons first names ih =>
    rw [List.cons_append, firstUses, ih, firstUses]
    by_cases hfirst : name = first
    · subst hfirst
      rw [if_pos List.mem_cons_self]
      split <;> simp
    · by_cases hmem : name ∈ names
      · rw [if_pos hmem, if_pos (List.mem_cons_of_mem _ hmem)]
      · rw [if_neg hmem, if_neg (by simp [hfirst, hmem])]
        simp [hfirst]

theorem Template.firstUses_of_nodup {names : List Text} (h : names.Nodup) :
    firstUses names = names := by
  induction names with
  | nil => rfl
  | cons first names ih =>
    rw [List.nodup_cons] at h
    rw [firstUses, ih h.2, List.filter_eq_self.mpr]
    intro name hname
    have hne : name ≠ first := by
      rintro rfl
      exact h.1 hname
    simpa using hne

namespace Table

variable {α : Type} {key : Text} {entries others : List (Text × α)}

/-! ## Looking up -/

theorem lookup_eq_none_iff : lookup key entries = none ↔ key ∉ entries.map Prod.fst := by
  induction entries with
  | nil => simp [lookup]
  | cons entry entries ih =>
    obtain ⟨k, value⟩ := entry
    by_cases hk : k = key
    · simp [lookup, hk]
    · simp [lookup, hk, ih, Ne.symm hk]

theorem lookup_append (more : List (Text × α)) :
    lookup key (entries ++ more) = (lookup key entries).or (lookup key more) := by
  induction entries with
  | nil => simp [lookup]
  | cons entry entries ih =>
    obtain ⟨k, value⟩ := entry
    by_cases hk : k = key <;> simp [lookup, hk, ih]

theorem lookup_reverse_of_nodup (h : (entries.map Prod.fst).Nodup) :
    lookup key entries.reverse = lookup key entries := by
  induction entries with
  | nil => rfl
  | cons entry entries ih =>
    obtain ⟨k, value⟩ := entry
    rw [List.map_cons, List.nodup_cons] at h
    rw [List.reverse_cons, lookup_append, ih h.2]
    by_cases hk : k = key
    · subst hk
      rw [lookup_eq_none_iff.mpr h.1]
      simp [lookup]
    · simp [lookup, hk]

theorem entries_eq_of_lookup (hnodup : (entries.map Prod.fst).Nodup)
    (hkeys : entries.map Prod.fst = others.map Prod.fst)
    (hlookup : ∀ key, lookup key entries = lookup key others) : entries = others := by
  induction entries generalizing others with
  | nil =>
    have hnil : others.map Prod.fst = [] := hkeys.symm
    exact (List.map_eq_nil_iff.mp hnil).symm
  | cons entry entries ih =>
    obtain ⟨k, value⟩ := entry
    cases others with
    | nil => simp at hkeys
    | cons other others =>
      obtain ⟨k', value'⟩ := other
      simp only [List.map_cons, List.cons.injEq] at hkeys
      obtain ⟨rfl, hkeys⟩ := hkeys
      rw [List.map_cons, List.nodup_cons] at hnodup
      have hvalue := hlookup k
      simp only [lookup, if_true, Option.some.injEq] at hvalue
      rw [hvalue, ih hnodup.2 hkeys]
      intro key
      by_cases hk : k = key
      · subst hk
        rw [lookup_eq_none_iff.mpr hnodup.1, lookup_eq_none_iff.mpr (hkeys ▸ hnodup.1)]
      · simpa [lookup, hk] using hlookup key

/-- Values looked up in lists that agree in their keys. -/
theorem rel_lookup {β : Type} {R : α → β → Prop} {bs : List (Text × β)}
    (h : List.Forall₂ (fun a b => a.1 = b.1 ∧ R a.2 b.2) entries bs) (key : Text) :
    Option.Rel R (lookup key entries) (lookup key bs) := by
  induction h with
  | nil => exact .none
  | @cons a b _ _ hab _ ih =>
    obtain ⟨k, value⟩ := a
    obtain ⟨k', value'⟩ := b
    obtain ⟨rfl, hvalue⟩ := hab
    by_cases hk : k = key
    · simpa [lookup, hk] using Option.Rel.some hvalue
    · simpa [lookup, hk] using ih

/-! ## Gathering -/

/-- The keys stand in the order in which they first came, each with the value that came last. -/
structure GatheredFrom (table : Table α) (entries : List (Text × α)) : Prop where
  keys_eq : table.keys = Template.firstUses (entries.map Prod.fst)
  get?_eq : ∀ key, table.get? key = lookup key entries.reverse

theorem map_fst_put (key : Text) (value : α) (entries : List (Text × α)) :
    (put key value entries).map Prod.fst =
      if key ∈ entries.map Prod.fst then entries.map Prod.fst
      else entries.map Prod.fst ++ [key] := by
  induction entries with
  | nil => rfl
  | cons entry entries ih =>
    obtain ⟨k, v⟩ := entry
    by_cases hk : k = key
    · simp [put, hk]
    · rw [put, if_neg hk, List.map_cons, ih]
      split <;> simp_all [Ne.symm hk]

theorem keys_insert (table : Table α) (key : Text) (value : α) :
    (table.insert key value).keys =
      if key ∈ table.keys then table.keys else table.keys ++ [key] :=
  map_fst_put key value table.entries

theorem gatheredFrom_ofList (entries : List (Text × α)) :
    (ofList entries).GatheredFrom entries := by
  induction entries using List.reverseRecOn with
  | nil => exact ⟨rfl, fun _ => rfl⟩
  | append_singleton entries entry ih =>
    obtain ⟨k, value⟩ := entry
    have hinsert : ofList (entries ++ [(k, value)]) = (ofList entries).insert k value := by
      simp [ofList]
    rw [hinsert]
    constructor
    · simp only [keys_insert, ih.keys_eq, Template.mem_firstUses, List.map_append,
        List.map_singleton, Template.firstUses_concat]
    · intro key
      rw [get?_insert, ih.get?_eq, List.reverse_append]
      by_cases hk : key = k
      · simp [lookup, hk]
      · simp [lookup, hk, Ne.symm hk]

/-- There is one table for the entries. -/
theorem gatheredFrom_iff {table : Table α} :
    table.GatheredFrom entries ↔ table = ofList entries := by
  have hof := gatheredFrom_ofList entries
  constructor
  · intro h
    have hentries : table.entries = (ofList entries).entries :=
      entries_eq_of_lookup table.keys_nodup (h.keys_eq.trans hof.keys_eq.symm)
        fun key => (h.get?_eq key).trans (hof.get?_eq key).symm
    cases table
    cases hlist : ofList entries
    simp_all
  · rintro rfl
    exact hof

theorem gatheredFrom_entries (table : Table α) : table.GatheredFrom table.entries where
  keys_eq := (Template.firstUses_of_nodup table.keys_nodup).symm
  get?_eq _ := (lookup_reverse_of_nodup table.keys_nodup).symm

end Table

end LinkTemplate
