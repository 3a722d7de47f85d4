import LinkTemplate.Bindings.PlainYaml
import LinkTemplate.Proofs.JsonDepth
import LinkTemplate.Proofs.Tables
/-!
# Bindings read from JSON

Four shapes of JSON can be bound to a name, and each stands for one value. A text that is a JSON
object is read wholly or not at all: one member of another shape is enough to refuse it.
-/

namespace LinkTemplate

/-! ## The shapes of values -/

namespace Json

/-- Null, a string, an array of strings or an object of strings. -/
def IsBindable : Json → Prop
  | null | string _ => True
  | bool _ | number _ => False
  | array items => ∀ item ∈ items, ∃ text, item = string text
  | object members => ∀ member ∈ members, ∃ text, member.2 = string text

inductive StandsFor : Json → Value → Prop
  | null : StandsFor null .undefined
  | string (text : Text) : StandsFor (string text) (.text text)
  | array (items : List Text) : StandsFor (array (items.map string)) (.list items)
  | object {members : List (Text × Text)} {table : Table Text} : table.GatheredFrom members →
      StandsFor (object (members.map fun (key, text) => (key, string text))) (.table table)

theorem text?_eq_some_iff {json : Json} {text : Text} :
    json.text? = some text ↔ json = string text := by
  cases json <;> simp [text?]

theorem IsBindable.wellFormed {json : Json} (h : json.IsBindable) (depth : Nat) :
    json.WellFormed (depth + 1) := by
  cases json with
  | null | string _ => trivial
  | bool _ | number _ => exact h.elim
  | array items =>
    intro item hitem
    obtain ⟨text, rfl⟩ := h item hitem
    cases depth <;> trivial
  | object members =>
    intro member hmember
    obtain ⟨text, htext⟩ := h member hmember
    rw [htext]
    cases depth <;> trivial

theorem StandsFor.isBindable {json : Json} {value : Value} (h : json.StandsFor value) :
    json.IsBindable := by
  cases h with
  | null | string _ => trivial
  | array items =>
    rw [IsBindable, List.forall_mem_map]
    exact fun text _ => ⟨text, rfl⟩
  | object _ =>
    rw [IsBindable, List.forall_mem_map]
    exact fun entry _ => ⟨entry.2, rfl⟩

end Json

/-! ## Reading values -/

namespace Value

theorem textMember?_eq_some_iff {member : Text × Json} {entry : Text × Text} :
    textMember? member = some entry ↔ member = (entry.1, .string entry.2) := by
  obtain ⟨key, json⟩ := member
  obtain ⟨k, text⟩ := entry
  simp only [textMember?, Option.map_eq_some_iff, Json.text?_eq_some_iff]
  constructor
  · rintro ⟨t, rfl, heq⟩
    cases heq
    rfl
  · intro heq
    cases heq
    exact ⟨text, rfl, rfl⟩

theorem ofJson?_eq_some_iff {json : Json} {value : Value} :
    ofJson? json = some value ↔ json.StandsFor value := by
  constructor
  · intro h
    cases json with
    | null =>
      cases h
      exact .null
    | string text =>
      cases h
      exact .string text
    | bool _ => cases h
    | number _ => cases h
    | array items =>
      obtain ⟨texts, htexts, rfl⟩ := Option.map_eq_some_iff.mp h
      rw [mapM_eq_some_iff_eq_map fun _ _ => Json.text?_eq_some_iff] at htexts
      subst htexts
      exact .array texts
    | object members =>
      obtain ⟨entries, hentries, rfl⟩ := Option.map_eq_some_iff.mp h
      rw [mapM_eq_some_iff_eq_map fun _ _ => textMember?_eq_some_iff] at hentries
      subst hentries
      exact .object (Table.gatheredFrom_ofList entries)
  · intro h
    cases h with
    | null => rfl
    | string text => rfl
    | array items =>
      refine Option.map_eq_some_iff.mpr ⟨items, ?_, rfl⟩
      rw [mapM_eq_some_iff_eq_map fun _ _ => Json.text?_eq_some_iff]
    | @object entries table htable =>
      obtain rfl := Table.gatheredFrom_iff.mp htable
      refine Option.map_eq_some_iff.mpr ⟨entries, ?_, rfl⟩
      rw [mapM_eq_some_iff_eq_map fun _ _ => textMember?_eq_some_iff]

theorem standsFor_toJson (value : Value) : value.toJson.StandsFor value := by
  cases value with
  | undefined => exact .null
  | text t => exact .string t
  | list items => exact .array items
  | table entries => exact .object entries.gatheredFrom_entries

/-- What is written for a value is read as that value. -/
theorem read?_print (value : Value) (layout : Json.Layout) :
    (Json.read? (value.toJson.print layout)).bind ofJson? = some value := by
  have hstands := value.standsFor_toJson
  have hwell : value.toJson.WellFormed Json.maxDepth := hstands.isBindable.wellFormed 126
  rw [Json.read?_print layout hwell, Option.bind_some]
  exact ofJson?_eq_some_iff.mpr hstands

theorem exists_standsFor_iff {json : Json} :
    (∃ value, json.StandsFor value) ↔ json.IsBindable := by
  constructor
  · rintro ⟨value, h⟩
    exact h.isBindable
  · intro h
    cases json with
    | null => exact ⟨_, .null⟩
    | string text => exact ⟨_, .string text⟩
    | bool _ | number _ => exact h.elim
    | array items =>
      obtain ⟨texts, rfl⟩ := exists_eq_map h
      exact ⟨_, .array texts⟩
    | object members =>
      have hentry : ∀ member ∈ members, ∃ entry : Text × Text,
          member = (entry.1, .string entry.2) := by
        rintro ⟨key, json⟩ hmember
        obtain ⟨text, rfl⟩ := h _ hmember
        exact ⟨(key, text), rfl⟩
      obtain ⟨entries, rfl⟩ := exists_eq_map hentry
      exact ⟨_, .object (Table.gatheredFrom_ofList entries)⟩

end Value

/-! ## Reading bindings -/

namespace Bindings

/-- What a member binds to its name. -/
def Binds (member : Text × Json) (named : Text × Value) : Prop :=
  member.1 = named.1 ∧ member.2.StandsFor named.2

section

variable {members : List (Text × Json)}

theorem valueMember?_eq_some_iff {member : Text × Json} {named : Text × Value} :
    valueMember? member = some named ↔ Binds member named := by
  obtain ⟨name, value⟩ := named
  rw [valueMember?, Option.map_eq_some_iff, Binds, ← Value.ofJson?_eq_some_iff]
  constructor
  · rintro ⟨found, hfound, heq⟩
    cases heq
    exact ⟨rfl, hfound⟩
  · rintro ⟨hname, hvalue⟩
    exact ⟨value, hvalue, by rw [hname]⟩

theorem ofJson?_object_eq_some_iff {bindings : Bindings} :
    ofJson? (.object members) = some bindings ↔
      ∃ values, List.Forall₂ Binds members values ∧ bindings.GatheredFrom values := by
  rw [ofJson?, Option.map_eq_some_iff]
  simp only [mapM_eq_some_iff, valueMember?_eq_some_iff, Table.gatheredFrom_iff,
    eq_comm (a := bindings)]

/-- The value under a name is that of its last member. -/
theorem rel_get?_of_gatheredFrom {values : List (Text × Value)} {bindings : Bindings}
    (hvalues : List.Forall₂ Binds members values) (hbindings : bindings.GatheredFrom values)
    (name : Text) :
    Option.Rel Json.StandsFor (Table.lookup name members.reverse) (bindings.get? name) := by
  rw [hbindings.get?_eq]
  exact Table.rel_lookup (List.rel_reverse hvalues) name

theorem exists_ofJson?_object (h : ∀ member ∈ members, member.2.IsBindable) :
    ∃ bindings, ofJson? (.object members) = some bindings ∧ ∀ name,
      Option.Rel Json.StandsFor (Table.lookup name members.reverse) (bindings.get? name) := by
  have hbinds : ∀ member ∈ members, ∃ named, Binds member named := by
    intro member hmember
    obtain ⟨value, hvalue⟩ := Value.exists_standsFor_iff.mpr (h member hmember)
    exact ⟨(member.1, value), rfl, hvalue⟩
  obtain ⟨values, hvalues⟩ := exists_forall₂ (R := flip Binds) hbinds
  have hgathered := Table.gatheredFrom_ofList values
  refine ⟨Table.ofList values, ?_, rel_get?_of_gatheredFrom hvalues.flip hgathered⟩
  exact ofJson?_object_eq_some_iff.mpr ⟨values, hvalues.flip, hgathered⟩

/-- An object with a member for each name. -/
def toJson (bindings : Bindings) : Json :=
  .object (bindings.entries.map fun (name, value) => (name, value.toJson))

theorem ofJson?_toJson (bindings : Bindings) : ofJson? bindings.toJson = some bindings := by
  refine ofJson?_object_eq_some_iff.mpr ⟨bindings.entries, ?_, bindings.gatheredFrom_entries⟩
  rw [List.forall₂_map_left_iff, List.forall₂_same]
  exact fun entry _ => ⟨rfl, entry.2.standsFor_toJson⟩

/-- What is written for bindings is read as those bindings. -/
theorem read?_print (bindings : Bindings) (layout : Json.Layout) :
    (Json.read? (bindings.toJson.print layout)).bind ofJson? = some bindings := by
  have hwell : bindings.toJson.WellFormed Json.maxDepth := by
    rintro ⟨name, json⟩ hmember
    obtain ⟨entry, -, heq⟩ := List.mem_map.mp hmember
    cases heq
    exact entry.2.standsFor_toJson.isBindable.wellFormed 125
  rw [Json.read?_print layout hwell, Option.bind_some, ofJson?_toJson]

theorem ofJson?_object_eq_none {member : Text × Json} (hmember : member ∈ members)
    (h : ¬ member.2.IsBindable) : ofJson? (.object members) = none := by
  rw [Option.eq_none_iff_forall_ne_some]
  intro bindings hbindings
  obtain ⟨values, hvalues, -⟩ := ofJson?_object_eq_some_iff.mp hbindings
  obtain ⟨named, -, -, hstands⟩ := exists_mem_of_forall₂ hvalues.flip hmember
  exact h hstands.isBindable

end

end Bindings

/-- A JSON object, however it is spelled, is read as bindings if each of its members has a value
that can be bound. Each name is then bound to what its last member stands for. If one member has a
value of another shape, nothing is read, also if the name of that member comes again. What is
written for a value is read as that value. -/
theorem json_bindings_read_wholly_or_not [YamlReader] (members : List (Text × Json)) (text : Text)
    (h : Json.IsText (.object members) text) :
    ((∀ member ∈ members, member.2.IsBindable) →
      ∃ bindings, Bindings.read? .json text = some bindings ∧ ∀ name,
        Option.Rel Json.StandsFor (Table.lookup name members.reverse) (bindings.get? name)) ∧
    ((∃ member ∈ members, ¬ member.2.IsBindable) → Bindings.read? .json text = none) ∧
    ∀ (value : Value) (layout : Json.Layout),
      (Json.read? (value.toJson.print layout)).bind Value.ofJson? = some value := by
  refine ⟨fun hall => ?_, ?_, Value.read?_print⟩
  · have hwell : (Json.object members).WellFormed Json.maxDepth :=
      fun member hmember => (hall member hmember).wellFormed 125
    rw [Bindings.read?, Json.read?_of_isText h hwell, Option.bind_some]
    exact Bindings.exists_ofJson?_object hall
  · rintro ⟨member, hmember, hshape⟩
    unfold Bindings.read?
    -- The value of the member may nest too deeply to be read at all.
    cases hread : Json.read? text with
    | none => rfl
    | some json =>
      obtain rfl := Json.eq_of_read?_of_isText h hread
      exact Bindings.ofJson?_object_eq_none hmember hshape

/-- A name spelled once as it is and once by two surrogates, and a key that comes twice. -/
theorem json_bindings_read_repeated_names :
    let last : Json := .object [(['k'], .string ['1']), (['j'], .string []), (['k'], .string ['2'])]
    let members : List (Text × Json) := [(['😀'], .null), (['😀'], last)]
    let text := "\x7b\"😀\":null, \"\\ud83d\\uDE00\" :".toList ++
      "\x7b\"k\":\"1\",\"j\":\"\",\"k\":\"2\"\x7d\x7d\n".toList
    Json.IsText (.object members) text ∧
      ∃ bindings, Bindings.read? .json text = some bindings ∧
        bindings.get? ['😀'] = some (.table (Table.ofList [(['k'], ['2']), (['j'], [])])) := by
  intro last members text
  have hsmile : Json.Letters ['😀'] ['😀'] := .plain (by decide) (by decide) (by decide) .nil
  have hhigh : Json.IsUnit 'd' '8' '3' 'd' (0xD800 + 0x3D) := by
    unfold Json.IsUnit Json.IsHex
    exact ⟨13, 8, 3, 13, by decide⟩
  have hlow : Json.IsUnit 'D' 'E' '0' '0' (0xDC00 + 0x200) := by
    unfold Json.IsUnit Json.IsHex
    exact ⟨13, 14, 0, 0, by decide⟩
  have hpair : Json.Letters ['😀'] "\\ud83d\\uDE00".toList :=
    .pair hhigh hlow (by decide) (by decide) (by decide) .nil
  have hbindable : last.IsBindable := by simp [last, Json.IsBindable]
  have hlast : Json.IsValue 1 last
      "\x7b\"k\":\"1\",\"j\":\"\",\"k\":\"2\"\x7d".toList :=
    Json.isValue_write .compact (hbindable.wellFormed 0) 0
  have hspace : Json.Blanks [' '] := by simp [Json.Blanks]
  have hline : Json.Blanks ['\n'] := by simp [Json.Blanks]
  have hfirst : Json.IsMember (Json.IsValue 1) (['😀'], .null) "\"😀\":null".toList :=
    .intro Json.blanks_nil hsmile Json.blanks_nil
      (.intro Json.blanks_nil (Json.IsNested.scalar .null) Json.blanks_nil)
  have hsecond := Json.IsMember.intro hspace hpair hspace
    (.intro Json.blanks_nil hlast Json.blanks_nil)
  have hobject : Json.IsValue 2 (.object members) _ := .object (.more hfirst (.last hsecond))
  have htext : Json.IsText (.object members) text :=
    ⟨2, by simpa [text] using Json.Padded.intro Json.blanks_nil hobject hline⟩
  refine ⟨htext, ?_⟩
  obtain ⟨hread, -, -⟩ := json_bindings_read_wholly_or_not members text htext
  have hall : ∀ member ∈ members, member.2.IsBindable := by
    simp only [members, List.forall_mem_cons]
    exact ⟨trivial, hbindable, by simp⟩
  obtain ⟨bindings, hbindings, hlookup⟩ := hread hall
  refine ⟨bindings, hbindings, ?_⟩
  have hrel : Option.Rel Json.StandsFor (some last) (bindings.get? ['😀']) := hlookup ['😀']
  cases hget : bindings.get? ['😀'] with
  | none =>
    rw [hget] at hrel
    cases hrel
  | some value =>
    rw [hget] at hrel
    cases hrel with
    | some hstands => exact (Value.ofJson?_eq_some_iff.mpr hstands).symm

end LinkTemplate
