import LinkTemplate.Yaml.Text
/-!
# Reading YAML

A document holds one node. In block style the column of the first key or dash is the column of all
of them; what stands further right belongs to the entry before it. Keys are scalars on one line, and
none is left out.
Anchors, aliases, tags, block scalars, directives and marked keys are refused.
-/

namespace LinkTemplate.Yaml

def takeScalar (place : Place) (source : Source) : Option (Yaml × Source) :=
  match source with
  | [] => none
  | c :: rest =>
    if c.char = '\'' then
      (takeSingle (rest.length + 1) rest).map fun (text, rest) => (quoted text, rest)
    else if c.char = '"' then
      (takeDouble (rest.length + 1) rest).map fun (text, rest) => (quoted text, rest)
    else (takePlain place source).map fun (text, rest) => (plain text, rest)

/-! ## Flow style -/

/-- How many bytes a key and the blanks after it may take. -/
def maxKeyLength : Nat := 1024

/-- Takes the colon after a key that started in cell `start`, on the same line and not too far. -/
def takeColon (flow : Bool) (start : Cell) (source : Source) : Option Source :=
  match skipBlanks source with
  | c :: rest =>
    if c.char = ':' ∧ c.line = start.line ∧ c.offset ≤ start.offset + maxKeyLength ∧
        (flow ∨ blankNext rest) then some rest
    else none
  | [] => none

/-- Whether a mark comes next. -/
def markNext (mark : Char) (source : Source) : Bool := source.head?.any (·.char = mark)

/-- Takes a comma or the closing mark, which may follow the comma, and says whether it was there. -/
def takeFlowEnd (close : Char) (source : Source) : Option (Bool × Source) :=
  match skipFlow source with
  | [] => none
  | c :: rest =>
    if c.char = close then some (true, rest)
    else if c.char = ',' then
      let rest := skipFlow rest
      if markNext close rest then some (true, rest.drop 1) else some (false, rest)
    else none

def readFlowItems (node : Source → Option (Yaml × Source)) :
    Nat → Source → Option (List Yaml × Source)
  | 0, _ => none
  | limit + 1, source => do
    let (item, rest) ← node source
    let (closed, rest) ← takeFlowEnd ']' rest
    if closed then return ([item], rest)
    let (items, rest) ← readFlowItems node limit rest
    return (item :: items, rest)

/-- Reads the value after the key that started in cell `start`; it may be left out. -/
def readFlowValue (node : Source → Option (Yaml × Source)) (start : Cell) (source : Source) :
    Option (Yaml × Source) :=
  match takeColon true start source with
  | none => some (absent, source)
  | some rest =>
    let rest := skipFlow rest
    if markNext ',' rest || markNext '}' rest then some (absent, rest) else node rest

def readFlowEntries (node : Source → Option (Yaml × Source)) :
    Nat → Source → Option (List (Yaml × Yaml) × Source)
  | 0, _ | _, [] => none
  | limit + 1, start :: source => do
    let (key, rest) ← node (start :: source)
    let (value, rest) ← readFlowValue node start rest
    let (closed, rest) ← takeFlowEnd '}' rest
    if closed then return ([(key, value)], rest)
    let (entries, rest) ← readFlowEntries node limit rest
    return ((key, value) :: entries, rest)

/-- Reads a scalar, or a collection that nests others at most `depth` deep. -/
def readFlow (indent : Nat) : Nat → Source → Option (Yaml × Source)
  | _, [] => none
  | 0, source => takeScalar ⟨true, indent⟩ source
  | depth + 1, c :: rest =>
    if c.char = '[' then
      let rest := skipFlow rest
      if markNext ']' rest then some (sequence [], rest.drop 1)
      else (readFlowItems (readFlow indent depth) rest.length rest).map fun (items, rest) =>
        (sequence items, rest)
    else if c.char = '{' then
      let rest := skipFlow rest
      if markNext '}' rest then some (mapping [], rest.drop 1)
      else (readFlowEntries (readFlow indent depth) rest.length rest).map fun (entries, rest) =>
        (mapping entries, rest)
    else takeScalar ⟨true, indent⟩ (c :: rest)

/-! ## Block style -/

def isDash : Source → Bool
  | [] => false
  | c :: rest => c.char = '-' && blankNext rest

/-- Reads a node in a block. `fresh` says that a mapping or a sequence may start here; `indent` is
the least column of what belongs to the node on later lines. The rest is at its next token. -/
abbrev BlockReader := (fresh : Bool) → (indent : Nat) → Source → Option (Yaml × Source)

/-- Reads a key and its colon. -/
def readKey (indent : Nat) : Source → Option (Yaml × Source)
  | [] => none
  | c :: rest => do
    let (key, after) ← takeScalar ⟨false, indent⟩ (c :: rest)
    return (key, ← takeColon false c after)

/-- Reads the value after a colon in line `line` of a mapping in `column`. It may be left out. A
sequence may stand in the column of its key. -/
def readBlockValue (node : BlockReader) (line column : Nat) (source : Source) :
    Option (Yaml × Source) :=
  match skipOn source with
  | [] => some (absent, [])
  | c :: rest =>
    if c.line = line then node false (column + 1) (c :: rest)
    else if column < c.column ∨ (c.column = column ∧ isDash (c :: rest)) then
      node true (column + 1) (c :: rest)
    else some (absent, c :: rest)

/-- Reads the entries of a mapping in `column`. -/
def readBlockEntries (node : BlockReader) (column : Nat) :
    Nat → Source → Option (List (Yaml × Yaml) × Source)
  | 0, _ | _, [] => none
  | limit + 1, start :: source => do
    let (key, rest) ← readKey (column + 1) (start :: source)
    let (value, rest) ← readBlockValue node start.line column rest
    match rest with
    | [] => return ([(key, value)], [])
    | next :: _ =>
      if next.column < column then return ([(key, value)], rest)
      else if next.column = column then
        let (entries, rest) ← readBlockEntries node column limit rest
        return ((key, value) :: entries, rest)
      else none

/-- Reads the items of a sequence whose dashes stand in `column`. -/
def readBlockItems (node : BlockReader) (column : Nat) :
    Nat → Source → Option (List Yaml × Source)
  | 0, _ | _, [] => none
  | limit + 1, dash :: source => do
    let (item, rest) ← match skipToNode source with
      | [] => some (absent, [])
      | c :: rest =>
        if c.line = dash.line ∨ column < c.column then node true (column + 1) (c :: rest)
        else some (absent, c :: rest)
    match rest with
    | [] => return ([item], [])
    | next :: _ =>
      if next.column = column ∧ isDash rest then
        let (items, rest) ← readBlockItems node column limit rest
        return (item :: items, rest)
      else if next.column ≤ column then return ([item], rest)
      else none

/-- Reads a node that nests collections at most `depth` deep. -/
def readBlock : Nat → BlockReader
  | _, _, _, [] => none
  | 0, _, indent, source => do
    let (scalar, rest) ← takeScalar ⟨false, indent⟩ source
    return (scalar, ← endLine? rest)
  | depth + 1, fresh, indent, c :: rest =>
    let source := c :: rest
    if fresh ∧ isDash source then
      (readBlockItems (readBlock depth) c.column source.length source).map fun (items, rest) =>
        (sequence items, rest)
    else if fresh ∧ (readKey indent source).isSome then
      (readBlockEntries (readBlock depth) c.column source.length source).map
        fun (entries, rest) => (mapping entries, rest)
    else if c.char = '[' ∨ c.char = '{' then do
      let (node, rest) ← readFlow indent (depth + 1) source
      return (node, ← endLine? rest)
    else do
      let (scalar, rest) ← takeScalar ⟨false, indent⟩ source
      return (scalar, ← endLine? rest)

/-! ## Documents -/

/-- How deeply collections may be nested. -/
def maxDepth : Nat := 128

/-- Reads a text that holds one document. A document without a node is an absent node. -/
def read? (text : Text) : Option Yaml := do
  let source ← source? text
  let (fresh, body) ← document? source
  match if fresh then skipToNode body else skipOn body with
  | [] => return absent
  | c :: rest =>
    let fresh := fresh || body.head?.any (·.line ≠ c.line)
    let (node, rest) ← readBlock maxDepth fresh 0 (c :: rest)
    if rest.isEmpty then return node else none

end LinkTemplate.Yaml
