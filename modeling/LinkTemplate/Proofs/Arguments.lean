import LinkTemplate.CommandLine
/-!
# The words of a request to expand

The words that ask for one expansion can be spelled in many ways and stand in many orders. They are
described from left to right, each option with its value in one of five spellings, and what has been
asked for so far is what the reader holds, once it settles the option that may be pending.
-/

namespace LinkTemplate.CommandLine

/-! ## What the words ask for -/

namespace Setting

def letter : Setting → Char
  | file => 'f'
  | assignment => 'v'

def name : Setting → Text
  | file => "vars".toList
  | assignment => "var".toList

/-- The value stands behind the letter or the name of the option, as a word of its own or not. -/
inductive Spelled (setting : Setting) : Text → List Text → Prop
  | letterApart {value : Text} : value.head? ≠ some '-' →
      Spelled setting value [['-', setting.letter], value]
  | letterAttached {value : Text} : value ≠ [] → value.head? ≠ some '=' →
      Spelled setting value ['-' :: setting.letter :: value]
  | letterEquals {value : Text} : Spelled setting value ['-' :: setting.letter :: '=' :: value]
  | nameApart {value : Text} : value.head? ≠ some '-' →
      Spelled setting value ['-' :: '-' :: setting.name, value]
  | nameEquals {value : Text} :
      Spelled setting value ['-' :: '-' :: (setting.name ++ '=' :: value)]

end Setting

/-- The words give a template and a file, each at most once, and assignments in this order. -/
inductive Asks : Option Text → Option Text → List Text → List Text → Prop
  | nothing : Asks none none [] []
  | template {file : Option Text} {assignments words : List Text} {text : Text} :
      Asks none file assignments words → text = ['-'] ∨ text.head? ≠ some '-' →
      Asks (some text) file assignments (words ++ [text])
  | file {template : Option Text} {assignments words spelled : List Text} {path : Text} :
      Asks template none assignments words → Setting.file.Spelled path spelled →
      Asks template (some path) assignments (words ++ spelled)
  | assignment {template file : Option Text} {assignments words spelled : List Text} {raw : Text} :
      Asks template file assignments words → Setting.assignment.Spelled raw spelled →
      Asks template file (assignments ++ [raw]) (words ++ spelled)

/-! ## One word -/

namespace State

/-- The state in which this has been read and no option is pending. -/
def settled (template file : Option Text) (assignments : List Text) : State :=
  ⟨template, file, assignments, false, none, false⟩

/-- This has been read, where the last value may still have to be stored. -/
def Holds (state : State) (template file : Option Text) (assignments : List Text) : Prop :=
  state.settle = .ok (settled template file assignments)

section

variable {state : State} {template file : Option Text} {assignments : List Text}

theorem store_frame {value : Text} {setting : Setting} {next : State}
    (h : state.store value setting = .ok next) :
    next.template = state.template ∧ next.ended = state.ended := by
  cases setting with
  | file =>
    by_cases hfile : state.file.isSome
    · simp [store, hfile, misuse] at h
    · obtain rfl : { state with file := some value } = next := by simpa [store, hfile] using h
      exact ⟨rfl, rfl⟩
  | assignment =>
    cases h
    exact ⟨rfl, rfl⟩

theorem Holds.template_eq (h : state.Holds template file assignments) :
    state.template = template ∧ state.ended = false := by
  unfold Holds settle at h
  split at h
  · cases h
    exact ⟨rfl, rfl⟩
  · cases h
  · obtain ⟨htemplate, hended⟩ := store_frame h
    exact ⟨htemplate.symm, hended.symm⟩

theorem take_of_plain {command : Command} {word : Text} (hended : state.ended = false)
    (hword : word = ['-'] ∨ word.head? ≠ some '-') :
    state.take command word = state.takeWord word := by
  unfold take
  rw [hended]
  rcases hword with rfl | hword
  · rfl
  · cases word with
    | nil => rfl
    | cons c word =>
      have hc : c ≠ '-' := by simpa using hword
      simp only [Bool.false_eq_true, if_false]
      split <;> simp_all

/-- An option in front of its value is taken with what is attached to it. -/
theorem take_letter (hended : state.ended = false) (setting : Setting) (rest : Text) :
    state.take .expand ('-' :: setting.letter :: rest) =
      state.takeSetting setting (match rest with
        | [] => none
        | '=' :: value => some value
        | value => some value) := by
  unfold take
  rw [hended]
  cases setting <;> rfl

theorem take_name (hended : state.ended = false) (setting : Setting) :
    state.take .expand ('-' :: '-' :: setting.name) = state.takeSetting setting none := by
  unfold take
  rw [hended]
  cases setting <;> rfl

theorem take_name_equals (hended : state.ended = false) (setting : Setting) (value : Text) :
    state.take .expand ('-' :: '-' :: (setting.name ++ '=' :: value)) =
      state.takeSetting setting (some value) := by
  unfold take
  rw [hended]
  cases setting <;> rfl

/-! ## One argument -/

section

variable {setting : Setting} {value word : Text} {file' : Option Text} {assignments' : List Text}
  (h : state.Holds template file assignments)
  (hstore : (settled template file assignments).store value setting =
    .ok (settled template file' assignments'))

include h hstore

theorem Holds.foldlM_attached
    (hword : state.take .expand word = state.takeSetting setting (some value)) :
    ∃ next, [word].foldlM (take .expand) state = .ok next ∧
      next.Holds template file' assignments' := by
  refine ⟨settled template file' assignments', ?_, rfl⟩
  rw [List.foldlM_cons, hword]
  unfold takeSetting
  rw [h]
  simp only [bind, Except.bind, hstore]
  rfl

theorem Holds.foldlM_apart
    (hword : state.take .expand word = state.takeSetting setting none)
    (hplain : value.head? ≠ some '-') :
    ∃ next, [word, value].foldlM (take .expand) state = .ok next ∧
      next.Holds template file' assignments' := by
  -- The value is only stored when the option is settled, so until then the option is pending.
  refine ⟨{ settled template file assignments with pending := some ⟨setting, some value⟩ },
    ?_, hstore⟩
  rw [List.foldlM_cons, hword]
  unfold takeSetting
  rw [h]
  simp only [bind, Except.bind, List.foldlM_cons]
  rw [take_of_plain rfl (Or.inr hplain)]
  rfl

theorem Holds.foldlM_spelled {words : List Text} (hspelled : setting.Spelled value words) :
    ∃ next, words.foldlM (take .expand) state = .ok next ∧
      next.Holds template file' assignments' := by
  have hended := h.template_eq.2
  cases hspelled with
  | letterApart hplain => exact h.foldlM_apart hstore (take_letter hended setting []) hplain
  | nameApart hplain => exact h.foldlM_apart hstore (take_name hended setting) hplain
  | letterEquals => exact h.foldlM_attached hstore (take_letter hended setting ('=' :: value))
  | nameEquals => exact h.foldlM_attached hstore (take_name_equals hended setting value)
  | letterAttached hne hequals =>
    refine h.foldlM_attached hstore ?_
    rw [take_letter hended]
    cases value with
    | nil => exact absurd rfl hne
    | cons c value =>
      have hc : c ≠ '=' := by simpa using hequals
      congr 1
      split <;> simp_all

end

theorem Holds.take_template {text : Text} (h : state.Holds none file assignments)
    (htext : text = ['-'] ∨ text.head? ≠ some '-') :
    ∃ next, state.take .expand text = .ok next ∧ next.Holds (some text) file assignments := by
  refine ⟨settled (some text) file assignments, ?_, rfl⟩
  obtain ⟨htemplate, hended⟩ := h.template_eq
  rw [take_of_plain hended htext]
  unfold takeWord
  split
  · rename_i setting hpending _
    simp [Holds, settle, hpending, misuse] at h
  · rw [htemplate, h]
    rfl

end

/-! ## All words -/

theorem exists_foldlM_of_asks {template file : Option Text} {assignments words : List Text}
    (h : Asks template file assignments words) :
    ∃ state, words.foldlM (take .expand) initial = .ok state ∧
      state.Holds template file assignments := by
  induction h with
  | nothing => exact ⟨initial, rfl, rfl⟩
  | template _ htext ih =>
    obtain ⟨state, hstate, hholds⟩ := ih
    obtain ⟨next, hnext, hnextHolds⟩ := hholds.take_template htext
    refine ⟨next, ?_, hnextHolds⟩
    rw [List.foldlM_append, hstate]
    simp [bind, Except.bind, hnext]
    rfl
  | file _ hspelled ih =>
    obtain ⟨state, hstate, hholds⟩ := ih
    obtain ⟨next, hnext, hnextHolds⟩ := hholds.foldlM_spelled rfl hspelled
    refine ⟨next, ?_, hnextHolds⟩
    rw [List.foldlM_append, hstate]
    exact hnext
  | assignment _ hspelled ih =>
    obtain ⟨state, hstate, hholds⟩ := ih
    obtain ⟨next, hnext, hnextHolds⟩ := hholds.foldlM_spelled rfl hspelled
    refine ⟨next, ?_, hnextHolds⟩
    rw [List.foldlM_append, hstate]
    exact hnext

theorem Holds.finish_expand {state : State} {template : Text} {file : Option Text}
    {assignments : List Text} (h : state.Holds (some template) file assignments) :
    state.finish .expand = .ok (.expand template file assignments) := by
  unfold finish
  rw [h]
  rfl

end State

/-- Words that give a template, perhaps a file, and assignments ask to expand just that, in whatever
order they stand and however the options are spelled. -/
theorem expand_words_in_any_order {template : Text} {file : Option Text}
    {assignments words : List Text} (h : Asks (some template) file assignments words) :
    read ("expand".toList :: words) = .ok (.expand template file assignments) := by
  obtain ⟨state, hstate, hholds⟩ := State.exists_foldlM_of_asks h
  show readCommand .expand words = _
  unfold readCommand
  rw [hstate]
  exact hholds.finish_expand

/-- A dash that is the template behind a value of its own word, a value that begins with a dash, and
one that begins with an equals sign behind the one that is dropped. -/
theorem expand_words_in_any_order_around_dash :
    let words : List Text := ["-v=x==1".toList, "--var".toList, "a=1".toList, "-".toList,
      "--vars=f.json".toList, "-v-b=2".toList]
    let assignments : List Text := ["x==1".toList, "a=1".toList, "-b=2".toList]
    Asks (some ['-']) (some "f.json".toList) assignments words ∧
      read ("expand".toList :: words) = .ok (.expand ['-'] (some "f.json".toList) assignments) := by
  intro words assignments
  have hfirst := Asks.nothing.assignment (@Setting.Spelled.letterEquals _ "x==1".toList)
  have hsecond := hfirst.assignment (@Setting.Spelled.nameApart _ "a=1".toList (by decide))
  have hfile := (hsecond.template (Or.inl rfl)).file
    (@Setting.Spelled.nameEquals _ "f.json".toList)
  have h : Asks (some ['-']) (some "f.json".toList) assignments words :=
    hfile.assignment (@Setting.Spelled.letterAttached _ "-b=2".toList (by decide) (by decide))
  exact ⟨h, expand_words_in_any_order h⟩

end LinkTemplate.CommandLine
