import LinkTemplate.Expansion
import LinkTemplate.Failure
/-!
# Sessions

A session holds bindings and, once there is one, a current template. A step that fails leaves the
session as it was, except that assignments before a bad one are kept.
-/

namespace LinkTemplate

structure Session where
  bindings : Bindings
  template : Option Template
  deriving DecidableEq

namespace Session

inductive Step
  | load (format : Bindings.Format) (content : Text)
  | assign (assignments : List Text)
  | insert (name : Text) (value : Value)
  | remove (name : Text)
  | setTemplate (text : Text)
  | push (part : Part)
  | expand
  | names
  /-- Writes the current template and reads it again. -/
  | reparse

inductive Outcome
  | done
  | replaced (old : Value)
  | removed (old : Value)
  | expanded (text : Text)
  | named (names : List Text)
  /-- Whether the template read is the one written. -/
  | reparsed (same : Bool)
  | failed (failure : Failure)
  deriving DecidableEq

/-- A session without a template. -/
def start (bindings : Bindings) : Session := ⟨bindings, none⟩

variable [YamlReader]

def step (session : Session) : Step → Session × Outcome
  | .load format content =>
    match Bindings.read? format content with
    | some bindings => ({ session with bindings }, .done)
    | none => (session, .failed (.bindings format))
  | .assign assignments =>
    let (bindings, error?) := session.bindings.assignAll assignments
    ({ session with bindings }, error?.elim .done fun error => .failed (.assignment error))
  | .insert name value =>
    ({ session with bindings := session.bindings.insert name value },
      (session.bindings.get? name).elim .done .replaced)
  | .remove name =>
    ({ session with bindings := session.bindings.erase name },
      (session.bindings.get? name).elim .done .removed)
  | .setTemplate text =>
    match Template.parse text with
    | .ok template => ({ session with template := some template }, .done)
    | .error error => (session, .failed (.syntaxError error))
  | .push part =>
    let parts := session.template.elim [] Template.parts
    ({ session with template := some ⟨parts ++ [part]⟩ }, .done)
  | .expand =>
    (session, session.template.elim .done fun template =>
      .expanded (template.expand session.bindings))
  | .names => (session, session.template.elim .done fun template => .named template.names)
  | .reparse =>
    match session.template with
    | none => (session, .done)
    | some old =>
      match Template.parse old.text with
      | .ok template => ({ session with template := some template }, .reparsed (template = old))
      | .error error => (session, .failed (.syntaxError error))

/-- The outcome of every step with the session after it. -/
def run (session : Session) : List Step → List (Outcome × Session)
  | [] => []
  | step :: steps =>
    let (after, outcome) := session.step step
    (outcome, after) :: after.run steps

end Session

end LinkTemplate
