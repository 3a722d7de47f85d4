import LinkTemplate.Session
import LinkTemplate.Proofs.Reparsing
import LinkTemplate.Proofs.Requests
/-!
# Sessions step by step

A session has two halves, and no step that changes one of them looks at the other: bindings are
loaded, assigned, inserted and removed, a template is read, pushed to and read again, and expanding
changes nothing. So each half is run by its own steps, whatever stands between them.
-/

namespace LinkTemplate

namespace Session

variable [YamlReader]

/-! ## The two halves -/

namespace Step

/-- The bindings after a step. A content that cannot be read leaves them as they are. -/
def bindingsAfter (bindings : Bindings) : Step → Bindings
  | load format content => (Bindings.read? format content).getD bindings
  | assign assignments => (bindings.assignAll assignments).1
  | insert name value => bindings.insert name value
  | remove name => bindings.erase name
  | setTemplate _ | push _ | expand | names | reparse => bindings

/-- The template after a step. A text that cannot be read leaves it as it is. -/
def templateAfter (template : Option Template) : Step → Option Template
  | setTemplate text => (Template.parse text).toOption.or template
  | push part => some ⟨template.elim [] Template.parts ++ [part]⟩
  | reparse => (template.bind fun old => (Template.parse old.text).toOption).or template
  | load _ _ | assign _ | insert _ _ | remove _ | expand | names => template

def changesBindings : Step → Bool
  | load _ _ | assign _ | insert _ _ | remove _ => true
  | _ => false

def changesTemplate : Step → Bool
  | setTemplate _ | push _ | reparse => true
  | _ => false

theorem bindingsAfter_of_not_changes {step : Step} (h : step.changesBindings = false)
    (bindings : Bindings) : step.bindingsAfter bindings = bindings := by
  cases step <;> first | rfl | cases h

omit [YamlReader] in
theorem templateAfter_of_not_changes {step : Step} (h : step.changesTemplate = false)
    (template : Option Template) : step.templateAfter template = template := by
  cases step <;> first | rfl | cases h

end Step

theorem step_state (session : Session) (step : Step) :
    (session.step step).1 =
      ⟨step.bindingsAfter session.bindings, step.templateAfter session.template⟩ := by
  cases step with
  | load format content =>
    cases h : Bindings.read? format content <;>
      simp [Session.step, Step.bindingsAfter, Step.templateAfter, h]
  | setTemplate text =>
    cases h : Template.parse text <;>
      simp [Session.step, Step.bindingsAfter, Step.templateAfter, h, Except.toOption]
  | reparse =>
    obtain ⟨bindings, _ | old⟩ := session
    · rfl
    · cases h : Template.parse old.text <;>
        simp [Session.step, Step.bindingsAfter, Step.templateAfter, h, Except.toOption]
  | _ => rfl

/-! ## Runs -/

/-- The session after some steps. -/
def after (session : Session) (steps : List Step) : Session :=
  steps.foldl (fun session step => (session.step step).1) session

@[simp] theorem after_nil (session : Session) : session.after [] = session := rfl

@[simp] theorem after_cons (session : Session) (step : Step) (steps : List Step) :
    session.after (step :: steps) = (session.step step).1.after steps := rfl

theorem after_append (session : Session) (steps more : List Step) :
    session.after (steps ++ more) = (session.after steps).after more :=
  List.foldl_append

theorem run_append (session : Session) (steps more : List Step) :
    session.run (steps ++ more) = session.run steps ++ (session.after steps).run more := by
  induction steps generalizing session with
  | nil => rfl
  | cons step steps ih => simp [run, ih]

/-- Each step of a run is taken in the session that the steps before it have left. -/
theorem getElem?_run (session : Session) (steps : List Step) (i : Nat) :
    (session.run steps)[i]? =
      steps[i]?.map fun step => ((session.after (steps.take i)).step step).swap := by
  induction steps generalizing session i with
  | nil => simp [run]
  | cons step steps ih =>
    cases i with
    | zero => rfl
    | succ i => simp [run, ih]

/-- Each half is run by itself. -/
theorem after_eq (session : Session) (steps : List Step) :
    session.after steps =
      ⟨steps.foldl Step.bindingsAfter session.bindings,
        steps.foldl Step.templateAfter session.template⟩ := by
  induction steps generalizing session with
  | nil => rfl
  | cons step steps ih => rw [after_cons, ih, step_state, List.foldl_cons, List.foldl_cons]

/-! ## The order of steps -/

theorem foldl_bindingsAfter_filter (steps : List Step) (bindings : Bindings) :
    (steps.filter Step.changesBindings).foldl Step.bindingsAfter bindings =
      steps.foldl Step.bindingsAfter bindings := by
  induction steps generalizing bindings with
  | nil => rfl
  | cons step steps ih =>
    cases h : step.changesBindings with
    | true => simp [h, ih]
    | false => simp [h, ih, Step.bindingsAfter_of_not_changes h]

omit [YamlReader] in
theorem foldl_templateAfter_filter (steps : List Step) (template : Option Template) :
    (steps.filter Step.changesTemplate).foldl Step.templateAfter template =
      steps.foldl Step.templateAfter template := by
  induction steps generalizing template with
  | nil => rfl
  | cons step steps ih =>
    cases h : step.changesTemplate with
    | true => simp [h, ih]
    | false => simp [h, ih, Step.templateAfter_of_not_changes h]

/-- Two runs end alike if they have the same steps on the bindings and the same on the template,
each in the same order, however the two are mixed and whatever is expanded in between. -/
theorem after_eq_of_filter_eq (session : Session) {steps others : List Step}
    (hbindings : steps.filter Step.changesBindings = others.filter Step.changesBindings)
    (htemplate : steps.filter Step.changesTemplate = others.filter Step.changesTemplate) :
    session.after steps = session.after others := by
  simp only [after_eq]
  rw [← foldl_bindingsAfter_filter steps, ← foldl_templateAfter_filter steps, hbindings, htemplate,
    foldl_bindingsAfter_filter, foldl_templateAfter_filter]

theorem template_after_of_not_changes (session : Session) {steps : List Step}
    (h : ∀ step ∈ steps, step.changesTemplate = false) :
    (session.after steps).template = session.template := by
  have hnone : steps.filter Step.changesTemplate = [] := by simpa using h
  rw [after_eq, ← foldl_templateAfter_filter steps, hnone, List.foldl_nil]

/-! ## Steps that fail -/

/-- A step that fails leaves the session as it was, but for the assignments before a bad one. -/
theorem step_of_failed {session : Session} {step : Step} {failure : Failure}
    (h : (session.step step).2 = .failed failure) :
    (session.step step).1 = session ∨
      ∃ good bad rest problem assignments, step = .assign (good ++ bad :: rest) ∧
        List.Forall₂ Assignment.SpelledBy assignments good ∧
        Assignment.Problem.Of bad problem ∧ failure = .assignment ⟨bad, problem⟩ ∧
        (session.step step).1 =
          { session with bindings := assignments.foldl Bindings.assign session.bindings } := by
  cases step with
  | load format content =>
    cases hread : Bindings.read? format content with
    | none => exact Or.inl (by simp [Session.step, hread])
    | some bindings => simp [Session.step, hread] at h
  | assign raws =>
    obtain ⟨assignments, hall⟩ | ⟨good, bad, rest, problem, rfl, ⟨assignments, hgood⟩, hbad⟩ :=
      Assignment.all_spelledBy_or_first_problem raws
    · simp [Session.step, Bindings.assignAll_of_spelledBy _ hall] at h
    · have hassign := Bindings.assignAll_first_problem session.bindings hgood hbad rest
      simp only [Session.step, hassign, Option.elim, Outcome.failed.injEq] at h
      refine Or.inr ⟨good, bad, rest, problem, assignments, rfl, hgood, hbad, h.symm, ?_⟩
      simp [Session.step, hassign]
  | insert name value =>
    cases hget : session.bindings.get? name <;> simp [Session.step, hget] at h
  | remove name =>
    cases hget : session.bindings.get? name <;> simp [Session.step, hget] at h
  | setTemplate text =>
    cases hparse : Template.parse text with
    | error error => exact Or.inl (by simp [Session.step, hparse])
    | ok template => simp [Session.step, hparse] at h
  | push part => simp [Session.step] at h
  | expand => exact Or.inl rfl
  | names => exact Or.inl rfl
  | reparse =>
    obtain ⟨bindings, _ | old⟩ := session
    · exact Or.inl rfl
    · cases hparse : Template.parse old.text with
      | error error => exact Or.inl (by simp [Session.step, hparse])
      | ok template => simp [Session.step, hparse] at h

/-- A run in which every step fails ends where it has started, if it assigns nothing. -/
theorem after_of_all_failed {session : Session} {steps : List Step}
    (hassign : ∀ raws, .assign raws ∉ steps)
    (h : ∀ entry ∈ session.run steps, ∃ failure, entry.1 = .failed failure) :
    session.after steps = session := by
  induction steps with
  | nil => rfl
  | cons step steps ih =>
    rw [run, List.forall_mem_cons] at h
    obtain ⟨⟨failure, hfailed⟩, hmore⟩ := h
    obtain hsame | ⟨_, _, _, _, _, rfl, -⟩ := step_of_failed hfailed
    · rw [hsame] at hmore
      rw [after_cons, hsame]
      exact ih (fun raws hmem => hassign raws (List.mem_cons_of_mem _ hmem)) hmore
    · exact absurd List.mem_cons_self (hassign _)

/-! ## One name -/

/-- The step does not touch what is bound to the name. -/
def Step.Leaves (name : Text) : Step → Prop
  | load format content => Bindings.read? format content = none
  | assign raws => ∀ raw ∈ raws, ∀ assignment : Assignment, assignment.SpelledBy raw →
      assignment.name ≠ name
  | insert other _ | remove other => name ≠ other
  | setTemplate _ | push _ | expand | names | reparse => True

omit [YamlReader] in
theorem get?_assignAll_of_leaves {name : Text} {raws : List Text}
    (h : ∀ raw ∈ raws, ∀ assignment : Assignment, assignment.SpelledBy raw →
      assignment.name ≠ name) (bindings : Bindings) :
    (bindings.assignAll raws).1.get? name = bindings.get? name := by
  induction raws generalizing bindings with
  | nil => rfl
  | cons raw raws ih =>
    rw [List.forall_mem_cons] at h
    obtain ⟨assignment, hraw⟩ | ⟨problem, hraw⟩ := Assignment.spelledBy_or_problem raw
    · rw [Bindings.assignAll, Assignment.read_of_spelledBy hraw]
      simp only
      rw [ih h.2, Bindings.get?_assign, if_neg (h.1 assignment hraw)]
    · rw [Bindings.assignAll, Assignment.read_of_problem hraw]

theorem get?_bindingsAfter_of_leaves {name : Text} {step : Step} (h : step.Leaves name)
    (bindings : Bindings) : (step.bindingsAfter bindings).get? name = bindings.get? name := by
  cases step with
  | load format content =>
    have hnone : Bindings.read? format content = none := h
    simp [Step.bindingsAfter, hnone]
  | assign raws => exact get?_assignAll_of_leaves h bindings
  | insert other value => exact (Table.get?_insert bindings other name value).trans (if_neg h)
  | remove other => exact (Table.get?_erase bindings other name).trans (if_neg h)
  | _ => rfl

theorem get?_after_of_leaves {name : Text} {steps : List Step}
    (h : ∀ step ∈ steps, step.Leaves name) (session : Session) :
    (session.after steps).bindings.get? name = session.bindings.get? name := by
  induction steps generalizing session with
  | nil => rfl
  | cons step steps ih =>
    rw [List.forall_mem_cons] at h
    rw [after_cons, ih h.2, step_state]
    exact get?_bindingsAfter_of_leaves h.1 session.bindings

/-- The last step that touches a name decides what is bound to it. -/
theorem get?_after_last {name : Text} {later : List Step} (h : ∀ step ∈ later, step.Leaves name)
    (session : Session) (earlier : List Step) (value : Value) :
    (session.after (earlier ++ .insert name value :: later)).bindings.get? name = some value ∧
      (session.after (earlier ++ .remove name :: later)).bindings.get? name = none := by
  simp only [after_append, after_cons, get?_after_of_leaves h, step_state, Step.bindingsAfter]
  rw [Table.get?_insert, Table.get?_erase]
  simp

/-! ## Templates that have been read -/

/-- The template of the session can be read from some text. -/
def Readable (session : Session) : Prop := ∀ template ∈ session.template, template.WellFormed

omit [YamlReader] in
theorem readable_start (bindings : Bindings) : (start bindings).Readable := by
  simp [Readable, start]

omit [YamlReader] in
theorem wellFormed_or_mem {text : Text} {old : Option Template} {template : Template}
    (h : template ∈ (Template.parse text).toOption.or old) :
    template.WellFormed ∨ template ∈ old := by
  cases hparse : Template.parse text with
  | error error => exact Or.inr (by simpa [hparse, Except.toOption] using h)
  | ok read =>
    obtain rfl : read = template := by simpa [hparse, Except.toOption] using h
    exact Or.inl (Template.wellFormed_of_parse hparse)

theorem Readable.step {session : Session} (h : session.Readable) {step : Step}
    (hpush : ∀ part, step ≠ .push part) : (session.step step).1.Readable := by
  rw [step_state]
  intro template htemplate
  cases step with
  | setTemplate text => exact (wellFormed_or_mem htemplate).elim id (h template)
  | push part => exact absurd rfl (hpush part)
  | reparse =>
    obtain ⟨bindings, _ | old⟩ := session
    · cases htemplate
    · exact (wellFormed_or_mem htemplate).elim id (h template)
  | _ => exact h template htemplate

theorem Readable.after {session : Session} (h : session.Readable) {steps : List Step}
    (hpush : ∀ part, .push part ∉ steps) : (session.after steps).Readable := by
  induction steps generalizing session with
  | nil => exact h
  | cons step steps ih =>
    refine ih (h.step fun part hstep => ?_) fun part hmem => ?_
    · exact hpush part (hstep ▸ List.mem_cons_self)
    · exact hpush part (List.mem_cons_of_mem _ hmem)

theorem step_reparse {session : Session} {old again : Template}
    (h : session.template = some old) (hparse : Template.parse old.text = .ok again) :
    session.step .reparse = ({ session with template := some again }, .reparsed (again = old)) := by
  simp [Session.step, h, hparse]

/-- A template that has been read is read back as it is, unless a name in it ends in a bare star. -/
theorem Readable.reparse_iff {session : Session} (h : session.Readable) :
    (session.step .reparse).2 = .reparsed true ↔
      ∃ template ∈ session.template, ∀ term ∈ template.terms, ¬ term.LooksExploded := by
  obtain ⟨bindings, _ | old⟩ := session
  · simp [Session.step]
  · have hwell : old.WellFormed := h old rfl
    simp only [Option.mem_def, Option.some.injEq, exists_eq_left', ← hwell.parse_text_iff]
    cases hparse : Template.parse old.text <;> simp [Session.step, hparse]

/-- What has been read again once is the same whenever it is read again, whatever is done to the
bindings in between. -/
theorem Readable.reparse_settles {session : Session} (h : session.Readable) {same : Bool}
    (hfirst : (session.step .reparse).2 = .reparsed same) {later : List Step}
    (hlater : ∀ step ∈ later, step.changesTemplate = false) :
    ((session.after (.reparse :: later)).step .reparse).2 = .reparsed true := by
  obtain ⟨bindings, _ | old⟩ := session
  · simp [Session.step] at hfirst
  · have hwell : old.WellFormed := h old rfl
    cases hparse : Template.parse old.text with
    | error error => simp [Session.step, hparse] at hfirst
    | ok again =>
      have htemplate : (Session.after ⟨bindings, some old⟩ (.reparse :: later)).template =
          some again := by
        rw [after_cons, template_after_of_not_changes _ hlater, step_reparse rfl hparse]
      obtain ⟨-, hagain⟩ := hwell.parse_text_settles hparse
      rw [step_reparse htemplate hagain]
      simp

/-! ## Requests as sessions -/

/-- A request to expand is a session that loads, assigns, reads the template and expands. It gives a
text if and only if no step of the session fails, and then the text is what is expanded last. -/
theorem run_expand_eq_ok_iff {files : Action.Files} {path content : Text}
    (h : files path = some content) (text : Text) (raws : List Text) (output : Text) :
    Action.run files (.expand text (some path) raws) = .ok output ↔
      ((start Table.empty).run
        [.load (.ofPath path) content, .assign raws, .setTemplate text, .expand]).map Prod.fst =
        [.done, .done, .done, .expanded output] := by
  simp only [Action.run, Action.loadFile?, Action.loadFile, h, run, step, List.map_cons]
  cases hread : Bindings.read? (.ofPath path) content with
  | none => simp [bind, Except.bind]
  | some loaded =>
    rcases hassign : loaded.assignAll raws with ⟨bindings, _ | error⟩
    · cases hparse : Template.parse text with
      | error error =>
        simp [bind, Except.bind, hassign, Action.readTemplate, hparse, Except.mapError]
      | ok template =>
        simp [bind, Except.bind, hassign, Action.readTemplate, hparse, Except.mapError, pure,
          Except.pure]
    · simp [bind, Except.bind, hassign]

end Session

end LinkTemplate
