import LinkTemplate.Action
import LinkTemplate.Bindings.PlainYaml
import LinkTemplate.Proofs.Assignments
import LinkTemplate.Proofs.Names
/-!
# Requests to expand

A request names a template, perhaps a file of bindings, and assignments. What comes of it is said
here without an order of steps: the failure to load the file, the first text that is no assignment,
the error of the template, or the expansion under the loaded bindings with the last assignment to
each name in place of what was loaded.
-/

namespace LinkTemplate

theorem Template.expand_eq_of_get? {a b : Bindings} {template : Template}
    (h : ∀ name ∈ template.names, a.get? name = b.get? name) :
    template.expand a = template.expand b := by
  refine expand_congr fun term hterm => ?_
  have hname : term.name ∈ template.names := mem_firstUses.mpr (List.mem_map_of_mem hterm)
  simp [Bindings.defined?, h term.name hname]

theorem Report.status_eq_two_iff {outcome : Except Failure Text} :
    (ofResult outcome).status = 2 ↔ ∃ error, outcome = .error (.syntaxError error) := by
  rcases outcome with (_ | _ | _ | _ | _) | _ <;> simp [ofResult, Failure.exitStatus]

/-! ## What comes of a request -/

namespace Action

variable [YamlReader]

/-- No file has no bindings, and a file those that its text is read as. -/
inductive Loads (files : Files) : Option Text → Bindings → Prop
  | nothing : Loads files none Table.empty
  | file {path content : Text} {bindings : Bindings} : files path = some content →
      Bindings.read? (.ofPath path) content = some bindings → Loads files (some path) bindings

inductive FailsToLoad (files : Files) : Option Text → Failure → Prop
  | noText {path : Text} : files path = none → FailsToLoad files (some path) (.file path)
  | noBindings {path content : Text} : files path = some content →
      Bindings.read? (.ofPath path) content = none →
      FailsToLoad files (some path) (.fileBindings path (.ofPath path))

theorem loadFile?_eq_ok_iff {files : Files} {file : Option Text} {bindings : Bindings} :
    loadFile? files file = .ok bindings ↔ Loads files file bindings := by
  constructor
  · intro h
    cases file with
    | none =>
      cases h
      exact .nothing
    | some path =>
      unfold loadFile? loadFile at h
      cases hcontent : files path with
      | none => simp [hcontent] at h
      | some content =>
        cases hread : Bindings.read? (.ofPath path) content with
        | none => simp [hcontent, hread] at h
        | some found =>
          obtain rfl : found = bindings := by simpa [hcontent, hread] using h
          exact .file hcontent hread
  · rintro (_ | ⟨hcontent, hread⟩)
    · rfl
    · simp [loadFile?, loadFile, hcontent, hread]

theorem loadFile?_eq_error_iff {files : Files} {file : Option Text} {failure : Failure} :
    loadFile? files file = .error failure ↔ FailsToLoad files file failure := by
  constructor
  · intro h
    cases file with
    | none => cases h
    | some path =>
      unfold loadFile? loadFile at h
      cases hcontent : files path with
      | none =>
        obtain rfl : Failure.file path = failure := by simpa [hcontent] using h
        exact .noText hcontent
      | some content =>
        cases hread : Bindings.read? (.ofPath path) content with
        | none =>
          obtain rfl : Failure.fileBindings path (.ofPath path) = failure := by
            simpa [hcontent, hread] using h
          exact .noBindings hcontent hread
        | some found => simp [hcontent, hread] at h
  · rintro (hcontent | ⟨hcontent, hread⟩)
    · simp [loadFile?, loadFile, hcontent]
    · simp [loadFile?, loadFile, hcontent, hread]

/-- What a request to expand ends with. -/
inductive Expands (files : Files) (text : Text) (file : Option Text) (raws : List Text) :
    Except Failure Text → Prop
  | notLoaded {failure : Failure} : FailsToLoad files file failure →
      Expands files text file raws (.error failure)
  | notAssigned {loaded : Bindings} {assignments : List Assignment} {good rest : List Text}
      {bad : Text} {problem : Assignment.Problem} : Loads files file loaded →
      raws = good ++ bad :: rest → List.Forall₂ Assignment.SpelledBy assignments good →
      problem.Of bad → Expands files text file raws (.error (.assignment ⟨bad, problem⟩))
  | notParsed {loaded : Bindings} {assignments : List Assignment} {error : SyntaxError} :
      Loads files file loaded → List.Forall₂ Assignment.SpelledBy assignments raws →
      Template.parse text = .error error →
      Expands files text file raws (.error (.syntaxError error))
  | expanded {loaded bindings : Bindings} {assignments : List Assignment} {template : Template} :
      Loads files file loaded → List.Forall₂ Assignment.SpelledBy assignments raws →
      Template.parse text = .ok template → loaded.Overridden assignments bindings →
      Expands files text file raws (.ok (template.expand bindings))

theorem run_expand_of_loads {files : Files} {file : Option Text} {loaded : Bindings}
    (h : Loads files file loaded) (text : Text) (raws : List Text) :
    run files (.expand text file raws) =
      match loaded.assignAll raws with
      | (_, some error) => .error (.assignment error)
      | (bindings, none) => (readTemplate text).map (Template.expand bindings) := by
  simp only [run, loadFile?_eq_ok_iff.mpr h, bind, Except.bind]
  rcases loaded.assignAll raws with ⟨bindings, _ | error⟩
  · cases readTemplate text <;> rfl
  · rfl

theorem run_eq_of_expands {files : Files} {text : Text} {file : Option Text} {raws : List Text}
    {outcome : Except Failure Text} (h : Expands files text file raws outcome) :
    run files (.expand text file raws) = outcome := by
  cases h with
  | notLoaded hfails =>
    simp only [run, loadFile?_eq_error_iff.mpr hfails]
    rfl
  | notAssigned hloads hraws hgood hbad =>
    rw [run_expand_of_loads hloads, hraws, Bindings.assignAll_first_problem _ hgood hbad]
  | notParsed hloads hall herror =>
    rw [run_expand_of_loads hloads, Bindings.assignAll_of_spelledBy _ hall]
    simp only [readTemplate, herror]
    rfl
  | @expanded loaded bindings assignments template hloads hall htemplate hover =>
    rw [run_expand_of_loads hloads, Bindings.assignAll_of_spelledBy _ hall]
    simp only [readTemplate, htemplate]
    have hsame : ∀ name ∈ template.names,
        (assignments.foldl Bindings.assign loaded).get? name = bindings.get? name := by
      intro name _
      rw [Bindings.overridden_foldl loaded assignments name, hover name]
    exact congrArg Except.ok (Template.expand_eq_of_get? hsame)

theorem exists_expands (files : Files) (text : Text) (file : Option Text) (raws : List Text) :
    ∃ outcome, Expands files text file raws outcome := by
  cases hload : loadFile? files file with
  | error failure => exact ⟨_, .notLoaded (loadFile?_eq_error_iff.mp hload)⟩
  | ok loaded =>
    have hloads := loadFile?_eq_ok_iff.mp hload
    obtain ⟨assignments, hall⟩ | ⟨good, bad, rest, problem, hraws, ⟨assignments, hgood⟩, hbad⟩ :=
      Assignment.all_spelledBy_or_first_problem raws
    · cases hparse : Template.parse text with
      | error error => exact ⟨_, .notParsed hloads hall hparse⟩
      | ok template =>
        exact ⟨_, .expanded hloads hall hparse (loaded.overridden_foldl assignments)⟩
    · exact ⟨_, .notAssigned hloads hraws hgood hbad⟩

theorem FailsToLoad.exitStatus_eq {files : Files} {file : Option Text} {failure : Failure}
    (h : FailsToLoad files file failure) : failure.exitStatus = 1 := by
  cases h <;> rfl

theorem Expands.unique {files : Files} {text : Text} {file : Option Text} {raws : List Text}
    {a b : Except Failure Text} (ha : Expands files text file raws a)
    (hb : Expands files text file raws b) : a = b :=
  (run_eq_of_expands ha).symm.trans (run_eq_of_expands hb)

section

variable {files : Files} {text : Text} {file : Option Text} {raws : List Text}
  {outcome : Except Failure Text}

theorem Expands.status_eq_two_iff (h : Expands files text file raws outcome) :
    (Report.ofResult outcome).status = 2 ↔
      (∃ loaded, Loads files file loaded) ∧
        (∃ assignments, List.Forall₂ Assignment.SpelledBy assignments raws) ∧
        ∃ error, Template.parse text = .error error := by
  constructor
  · intro hstatus
    obtain ⟨error, rfl⟩ := Report.status_eq_two_iff.mp hstatus
    cases h with
    | notLoaded hfails => cases hfails
    | notParsed hloads hall herror => exact ⟨⟨_, hloads⟩, ⟨_, hall⟩, error, herror⟩
  · rintro ⟨⟨loaded, hloads⟩, ⟨assignments, hall⟩, error, herror⟩
    rw [h.unique (.notParsed hloads hall herror)]
    rfl

theorem Expands.status_eq_one_iff (h : Expands files text file raws outcome) :
    (Report.ofResult outcome).status = 1 ↔
      (∃ failure, FailsToLoad files file failure) ∨
        ∃ raw ∈ raws, ∃ problem : Assignment.Problem, problem.Of raw := by
  constructor
  · intro hstatus
    cases h with
    | notLoaded hfails => exact Or.inl ⟨_, hfails⟩
    | notAssigned _ hraws _ hbad => exact Or.inr ⟨_, by simp [hraws], _, hbad⟩
    | notParsed => cases hstatus
    | expanded => cases hstatus
  · rintro (⟨failure, hfails⟩ | ⟨raw, hraw, problem, hproblem⟩)
    · rw [h.unique (.notLoaded hfails)]
      exact hfails.exitStatus_eq
    · -- A bad assignment is met unless loading has failed before.
      cases h with
      | notLoaded hfails => exact hfails.exitStatus_eq
      | notAssigned => rfl
      | notParsed _ hall =>
        exact absurd hproblem (Assignment.not_problem_of_spelledBy hall raw hraw problem)
      | expanded _ hall =>
        exact absurd hproblem (Assignment.not_problem_of_spelledBy hall raw hraw problem)

end

end Action

/-- A request to expand ends with the failure to load its file, else with the first text that is no
assignment, else with the error of its template, else with the expansion under the loaded bindings
overridden by the assignments; and the exit status tells which. Of the assignments only the last
one to each name of the template matters. -/
theorem expand_request_reports_first_failure [YamlReader] (files : Action.Files) (text : Text)
    (file : Option Text) (raws : List Text) :
    (∀ outcome, Action.run files (.expand text file raws) = outcome ↔
      Action.Expands files text file raws outcome) ∧
    ((Report.ofResult (Action.run files (.expand text file raws))).status = 2 ↔
      ∃ error, Action.run files (.expand text file raws) = .error (.syntaxError error)) ∧
    ((Report.ofResult (Action.run files (.expand text file raws))).status = 2 ↔
      (∃ loaded, Action.Loads files file loaded) ∧
        (∃ assignments, List.Forall₂ Assignment.SpelledBy assignments raws) ∧
        ∃ error, Template.parse text = .error error) ∧
    ((Report.ofResult (Action.run files (.expand text file raws))).status = 1 ↔
      (∃ failure, Action.FailsToLoad files file failure) ∨
        ∃ raw ∈ raws, ∃ problem : Assignment.Problem, problem.Of raw) ∧
    ∀ template assignments others otherRaws, Template.parse text = .ok template →
      List.Forall₂ Assignment.SpelledBy assignments raws →
      List.Forall₂ Assignment.SpelledBy others otherRaws →
      (∀ name ∈ template.names,
        Assignment.lastValue? name assignments = Assignment.lastValue? name others) →
      Action.run files (.expand text file otherRaws) =
        Action.run files (.expand text file raws) := by
  obtain ⟨outcome, h⟩ := Action.exists_expands files text file raws
  have hrun := Action.run_eq_of_expands h
  rw [hrun]
  refine ⟨?_, Report.status_eq_two_iff, h.status_eq_two_iff, h.status_eq_one_iff, ?_⟩
  · intro other
    constructor
    · rintro rfl
      exact h
    · intro hother
      rw [← hrun, Action.run_eq_of_expands hother]
  · intro template assignments others otherRaws htemplate hall hothers hsame
    rw [← hrun]
    cases hload : Action.loadFile? files file with
    | error failure =>
      have hfails := Action.loadFile?_eq_error_iff.mp hload
      rw [Action.run_eq_of_expands (.notLoaded hfails),
        Action.run_eq_of_expands (.notLoaded hfails)]
    | ok loaded =>
      have hloads := Action.loadFile?_eq_ok_iff.mp hload
      have hover := loaded.overridden_foldl assignments
      have hover' := loaded.overridden_foldl others
      have hexpand : template.expand (others.foldl Bindings.assign loaded) =
          template.expand (assignments.foldl Bindings.assign loaded) := by
        refine Template.expand_eq_of_get? fun name hname => ?_
        rw [hover name, hover' name, hsame name hname]
      rw [Action.run_eq_of_expands (.expanded hloads hothers htemplate hover'),
        Action.run_eq_of_expands (.expanded hloads hall htemplate hover), hexpand]

/-- The assignments override a list of a YAML file in one order and in another, with a value that
has an equals sign in it; with a text in front that is no assignment the template is never read. -/
theorem expand_request_overrides_file :
    let content : Text := "x: ['1', \"2\"]\ny:\n- é\n- b # two items\n".toList
    let files : Action.Files := fun path => if path = "vars.yml".toList then some content else none
    let file : Option Text := some "vars.yml".toList
    let raws : List Text := ["q=1".toList, "x=a=b".toList, "q=2".toList]
    let others : List Text := ["x=0".toList, "q=2".toList, "z=".toList, "x=a=b".toList]
    let assignments : List Assignment :=
      [⟨['q'], ['1']⟩, ⟨['x'], ['a', '=', 'b']⟩, ⟨['q'], ['2']⟩]
    let otherAssignments : List Assignment :=
      [⟨['x'], ['0']⟩, ⟨['q'], ['2']⟩, ⟨['z'], []⟩, ⟨['x'], ['a', '=', 'b']⟩]
    let bad : List Text := ["x=1".toList, "=".toList, "x".toList]
    (List.Forall₂ Assignment.SpelledBy assignments raws ∧
      List.Forall₂ Assignment.SpelledBy otherAssignments others ∧
      Action.run files (.expand "{?x,q}{/y*}".toList file others) =
        Action.run files (.expand "{?x,q}{/y*}".toList file raws) ∧
      Action.run files (.expand "{?x,q}{/y*}".toList file raws) =
        .ok "?x=a%3Db&q=2/%C3%A9/b".toList) ∧
    Action.run files (.expand ['{'] file bad) = .error (.assignment ⟨['='], .emptyName⟩) ∧
      (Report.ofResult (Action.run files (.expand ['{'] file bad))).status = 1 := by
  intro content files file raws others assignments otherAssignments bad
  have hall : List.Forall₂ Assignment.SpelledBy assignments raws :=
    .cons ⟨by decide, by decide, by decide⟩ <| .cons ⟨by decide, by decide, by decide⟩ <|
      .cons ⟨by decide, by decide, by decide⟩ .nil
  have hothers : List.Forall₂ Assignment.SpelledBy otherAssignments others :=
    .cons ⟨by decide, by decide, by decide⟩ <| .cons ⟨by decide, by decide, by decide⟩ <|
      .cons ⟨by decide, by decide, by decide⟩ <| .cons ⟨by decide, by decide, by decide⟩ .nil
  have hparse : Template.parse "{?x,q}{/y*}".toList =
      .ok ⟨[.expression ⟨.query, [⟨['x'], false, 0⟩, ⟨['q'], false, 0⟩]⟩,
        .expression ⟨.pathSegment, [⟨['y'], true, 0⟩]⟩]⟩ := by decide +kernel
  obtain ⟨-, -, -, -, hsame⟩ :=
    expand_request_reports_first_failure files "{?x,q}{/y*}".toList file raws
  obtain ⟨-, -, -, hearlier, -⟩ := expand_request_reports_first_failure files ['{'] file bad
  refine ⟨⟨hall, hothers, ?_, by decide +kernel⟩, by decide +kernel, ?_⟩
  · exact hsame _ _ _ _ hparse hall hothers (by decide +kernel)
  · exact hearlier.mpr (Or.inr ⟨['='], by decide, .emptyName, rfl⟩)

end LinkTemplate
