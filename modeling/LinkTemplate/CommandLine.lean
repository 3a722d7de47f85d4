import LinkTemplate.Action
import LinkTemplate.Bindings.PlainYaml
/-!
# Reading the command line

The words are read from left to right. An option whose value is a word of its own is only settled by
the next option or positional word, or at the end; until then an option that does not exist is the
error that is reported.
-/

namespace LinkTemplate.CommandLine

/-! ## What can be asked for -/

inductive Misuse
  | noArguments
  | unknownCommand
  | unknownArgument
  | missingValue
  | unexpectedValue
  | repeatedOption
  | missingTemplate
  deriving DecidableEq

/-- Why no action comes out of the words. -/
inductive Stop
  | help
  | misuse (misuse : Misuse)
  deriving DecidableEq

def Stop.exitStatus : Stop → Nat
  | help => 0
  | misuse _ => 2

inductive Command
  | expand
  | parse
  deriving DecidableEq

/-- An option that takes a value. -/
inductive Setting
  | file
  | assignment
  deriving DecidableEq

inductive Switch
  | help
  | json
  | setting (setting : Setting)
  deriving DecidableEq

namespace Command

def ofWord? (word : Text) : Option Command :=
  if word = "expand".toList then some expand
  else if word = "parse".toList then some parse
  else none

/-- The option with a name after two dashes. -/
def long? (command : Command) (name : Text) : Option Switch :=
  if name = "help".toList then some .help
  else match command with
    | expand =>
      if name = "vars".toList then some (.setting .file)
      else if name = "var".toList then some (.setting .assignment)
      else none
    | parse => if name = "json".toList then some .json else none

/-- The option with a letter after one dash. -/
def short? : Command → Char → Option Switch
  | _, 'h' => some .help
  | expand, 'f' => some (.setting .file)
  | expand, 'v' => some (.setting .assignment)
  | _, _ => none

end Command

/-! ## The words read so far -/

/-- An option whose value is a word of its own, once that is read. -/
structure Pending where
  setting : Setting
  value : Option Text
  deriving DecidableEq

structure State where
  template : Option Text
  file : Option Text
  assignments : List Text
  json : Bool
  pending : Option Pending
  /-- Two dashes were read: only positional words follow. -/
  ended : Bool
  deriving DecidableEq

namespace State

def initial : State := ⟨none, none, [], false, none, false⟩

def misuse {α : Type} (m : Misuse) : Except Stop α := .error (.misuse m)

def store (state : State) (value : Text) : Setting → Except Stop State
  | .file =>
    if state.file.isSome then misuse .repeatedOption else .ok { state with file := some value }
  | .assignment => .ok { state with assignments := state.assignments ++ [value] }

/-- Stores the value of a pending option. -/
def settle (state : State) : Except Stop State :=
  match state.pending with
  | none => .ok state
  | some ⟨_, none⟩ => misuse .missingValue
  | some ⟨setting, some value⟩ => { state with pending := none }.store value setting

/-- Takes an option that has no value. -/
def takeFlag (state : State) (isHelp : Bool) : Except Stop State := do
  let state ← state.settle
  if isHelp then .error .help
  else if state.json then misuse .repeatedOption
  else .ok { state with json := true }

/-- Takes an option with the value that is attached to it, if there is one. -/
def takeSetting (state : State) (setting : Setting) (attached : Option Text) :
    Except Stop State := do
  let state ← state.settle
  match attached with
  | some value => state.store value setting
  | none => .ok { state with pending := some ⟨setting, none⟩ }

/-- Takes the value of a pending option, or else the template. -/
def takeWord (state : State) (word : Text) : Except Stop State :=
  match state.pending, state.ended with
  | some ⟨setting, none⟩, false => .ok { state with pending := some ⟨setting, some word⟩ }
  | _, _ =>
    if state.template.isSome then misuse .unknownArgument
    else do
      let state ← state.settle
      return { state with template := some word }

/-- Takes an option by its name, and what follows the first equals sign as its value. -/
def takeLong (command : Command) (state : State) (word : Text) : Except Stop State :=
  let (name, attached) := match Text.cut? '=' word with
    | none => (word, none)
    | some (name, value) => (name, some value)
  match command.long? name, attached with
  | none, _ => misuse .unknownArgument
  | some (.setting setting), attached => state.takeSetting setting attached
  | some _, some _ => misuse .unexpectedValue
  | some flag, none => state.takeFlag (flag = .help)

/-- Takes an option by its letter. What follows the letter is the value, less one equals sign. -/
def takeShort (command : Command) (state : State) (letter : Char) (rest : Text) :
    Except Stop State :=
  match command.short? letter with
  | none => misuse .unknownArgument
  | some (.setting setting) =>
    state.takeSetting setting <| match rest with
      | [] => none
      | '=' :: value => some value
      | value => some value
  | some flag => state.takeFlag (flag = .help)

def take (command : Command) (state : State) (word : Text) : Except Stop State :=
  if state.ended then state.takeWord word
  else match word with
    | ['-', '-'] => .ok { state with ended := true }
    | '-' :: '-' :: name => state.takeLong command name
    | '-' :: letter :: rest => state.takeShort command letter rest
    | _ => state.takeWord word

/-- The action that the words of a command ask for. -/
def finish (command : Command) (state : State) : Except Stop Action := do
  let state ← state.settle
  match state.template with
  | none => misuse .missingTemplate
  | some template =>
    return match command with
      | .expand => .expand template state.file state.assignments
      | .parse => .parse template state.json

end State

/-! ## The whole command line -/

def readCommand (command : Command) (words : List Text) : Except Stop Action := do
  let state ← words.foldlM (State.take command) State.initial
  state.finish command

def isCommandOrHelp (word : Text) : Bool :=
  (Command.ofWord? word).isSome || word = "help".toList

/-- Help may be asked for one command, or for `help` itself. -/
def readHelp (words : List Text) : Stop :=
  match words with
  | [] => .help
  | [word] => if isCommandOrHelp word then .help else .misuse .unknownCommand
  | _ => .misuse .unknownCommand

/-- What the words ask for where the first one is no command. -/
def readOption : List Text → Stop
  | [] => .misuse .noArguments
  | word :: words =>
    if word = "help".toList then readHelp words
    else match word with
      | ['-', '-'] =>
        match words with
        | [] => .misuse .noArguments
        | word :: _ => .misuse (if isCommandOrHelp word then .unknownArgument else .unknownCommand)
      | '-' :: '-' :: name =>
        match Text.cut? '=' name with
        | none => if name = "help".toList then .help else .misuse .unknownArgument
        | some (name, _) =>
          .misuse (if name = "help".toList then .unexpectedValue else .unknownArgument)
      | '-' :: letter :: _ => if letter = 'h' then .help else .misuse .unknownArgument
      | _ => .misuse .unknownCommand

/-- Reads the words after the program's name. -/
def read (words : List Text) : Except Stop Action :=
  match words with
  | [] => .error (readOption [])
  | word :: rest =>
    match Command.ofWord? word with
    | some command => readCommand command rest
    | none => .error (readOption words)

end LinkTemplate.CommandLine
