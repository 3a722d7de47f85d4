import LinkTemplate.Bindings.PlainYaml
import LinkTemplate.Proofs.BindingsAsJson
import LinkTemplate.Proofs.Sessions
import LinkTemplate.Proofs.YamlOfJson
/-!
# Bindings read from JSON as YAML

JSON on one line is YAML, so what is written for bindings can be read in either format. This is the
one law that is asked of a reader of YAML, and the reader of plain YAML has it.
-/

namespace LinkTemplate

/-- YAML carries every text of the value. -/
def Value.IsCarried : Value → Prop
  | undefined => True
  | text t => ∀ c ∈ t, Yaml.isCarried c
  | list items => ∀ item ∈ items, ∀ c ∈ item, Yaml.isCarried c
  | table entries => ∀ entry ∈ entries.entries,
      Yaml.IsKey entry.1 ∧ ∀ c ∈ entry.2, Yaml.isCarried c

def Bindings.IsCarried (bindings : Bindings) : Prop :=
  ∀ entry ∈ bindings.entries, Yaml.IsKey entry.1 ∧ entry.2.IsCarried

/-- Bindings that are written as JSON on one line are read back. -/
class YamlReader.ReadsJson [YamlReader] : Prop where
  read?_print {bindings : Bindings} : bindings.IsCarried →
    YamlReader.read? (bindings.toJson.print .compact) = some bindings

/-! ## The law for plain YAML -/

namespace Yaml

theorem ofItems_eq_map (items : List Json) : ofItems items = items.map ofJson := by
  induction items with
  | nil => rfl
  | cons item items ih => rw [ofItems, ih, List.map_cons]

theorem ofMembers_eq_map (members : List (Text × Json)) :
    ofMembers members = members.map fun (name, value) => (quoted name, ofJson value) := by
  induction members with
  | nil => rfl
  | cons member members ih => rw [ofMembers, ih, List.map_cons]

end Yaml

theorem Yaml.carries_string {text : Text} (h : ∀ c ∈ text, isCarried c) (depth : Nat) :
    Carries depth (.string text) := by
  cases depth <;> exact h

theorem Value.IsCarried.carries {value : Value} (h : value.IsCarried) (depth : Nat) :
    Yaml.Carries (depth + 1) value.toJson := by
  cases value with
  | undefined => trivial
  | text t => exact h
  | list items =>
    intro item hitem
    obtain ⟨text, htext, rfl⟩ := List.mem_map.mp hitem
    exact Yaml.carries_string (h text htext) depth
  | table entries =>
    intro member hmember
    obtain ⟨entry, hentry, rfl⟩ := List.mem_map.mp hmember
    exact ⟨(h entry hentry).1, Yaml.carries_string (h entry hentry).2 depth⟩

theorem Bindings.IsCarried.carries {bindings : Bindings} (h : bindings.IsCarried) (depth : Nat) :
    Yaml.Carries (depth + 2) bindings.toJson := by
  intro member hmember
  obtain ⟨entry, hentry, rfl⟩ := List.mem_map.mp hmember
  exact ⟨(h entry hentry).1, (h entry hentry).2.carries depth⟩

theorem Value.textEntry?_quoted (entry : Text × Text) :
    textEntry? (Yaml.quoted entry.1, Yaml.quoted entry.2) = some entry := rfl

theorem Value.ofYaml?_ofJson (value : Value) : ofYaml? (Yaml.ofJson value.toJson) = some value := by
  cases value with
  | undefined => rfl
  | text t => rfl
  | list items =>
    have hitem : ∀ item, Yaml.text? (Yaml.quoted item) = some item := fun _ => rfl
    have hitems := mapM_map_eq_some hitem items
    simp [toJson, Yaml.ofJson, Yaml.ofItems_eq_map, ofYaml?, Function.comp_def, hitems]
  | table entries =>
    have hentries := mapM_map_eq_some textEntry?_quoted entries.entries
    have htable := Table.gatheredFrom_iff.mp entries.gatheredFrom_entries
    simp [toJson, Yaml.ofJson, Yaml.ofMembers_eq_map, ofYaml?, Function.comp_def, hentries,
      ← htable]

namespace Bindings

theorem valueEntry?_ofJson (entry : Text × Value) :
    valueEntry? (Yaml.quoted entry.1, Yaml.ofJson entry.2.toJson) = some entry := by
  simp [Yaml.scalar?, valueEntry?, Value.ofYaml?_ofJson]

theorem ofYaml?_ofJson (bindings : Bindings) :
    ofYaml? (Yaml.ofJson bindings.toJson) = some bindings := by
  have hentries := mapM_map_eq_some valueEntry?_ofJson bindings.entries
  have htable := Table.gatheredFrom_iff.mp bindings.gatheredFrom_entries
  simp [toJson, Yaml.ofJson, Yaml.ofMembers_eq_map, ofYaml?, Function.comp_def, hentries, ← htable]

theorem head?_print_toJson (bindings : Bindings) :
    (bindings.toJson.print .compact).head? = some '{' := by
  unfold toJson
  cases bindings.entries <;> rfl

end Bindings

instance plainYaml_readsJson : YamlReader.ReadsJson where
  read?_print {bindings} h := by
    have hopens : ∃ c ∈ ['[', '{'], (bindings.toJson.print .compact).head? = some c :=
      ⟨'{', by simp, bindings.head?_print_toJson⟩
    have hread := Yaml.read?_print (h.carries 126) hopens
    change (Yaml.read? _).bind Bindings.ofYaml? = _
    rw [hread, Option.bind_some, Bindings.ofYaml?_ofJson]

/-! ## Either format -/

section

variable [YamlReader] [YamlReader.ReadsJson] {bindings : Bindings}

theorem Bindings.IsCarried.read?_print (h : bindings.IsCarried) (format : Format) :
    Bindings.read? format (bindings.toJson.print .compact) = some bindings := by
  cases format with
  | json => exact Bindings.read?_print bindings .compact
  | yaml => exact YamlReader.ReadsJson.read?_print h

/-- A request does not depend on the name of the file that its bindings are written to. -/
theorem Bindings.IsCarried.run_expand_eq (h : bindings.IsCarried) {files others : Action.Files}
    {path other : Text} (hfile : files path = some (bindings.toJson.print .compact))
    (hother : others other = some (bindings.toJson.print .compact)) (text : Text)
    (raws : List Text) :
    Action.run files (.expand text (some path) raws) =
      Action.run others (.expand text (some other) raws) := by
  have hloads := Action.Loads.file hfile (h.read?_print _)
  have hloads' := Action.Loads.file hother (h.read?_print _)
  rw [Action.run_expand_of_loads hloads, Action.run_expand_of_loads hloads']

/-- A session takes up the bindings that another one has written. -/
theorem Session.step_load_print (h : bindings.IsCarried) (session : Session)
    (format : Bindings.Format) :
    session.step (.load format (bindings.toJson.print .compact)) =
      ({ session with bindings }, .done) := by
  rw [step, h.read?_print format]

/-- Loading what has been written earlier undoes every step on the bindings since then. -/
theorem Session.after_load_print {session : Session} (h : session.bindings.IsCarried)
    {steps : List Step} (hsteps : ∀ step ∈ steps, step.changesTemplate = false)
    (format : Bindings.Format) :
    session.after (steps ++ [.load format (session.bindings.toJson.print .compact)]) = session := by
  rw [after_append, after_cons, after_nil, step_load_print h,
    template_after_of_not_changes _ hsteps]

end

end LinkTemplate
