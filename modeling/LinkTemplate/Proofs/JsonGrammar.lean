import LinkTemplate.Json.Printer
import LinkTemplate.Text.Decimal
/-!
# The texts of JSON values

The grammar of JSON, with the value that each text stands for: blanks between any two tokens,
strings in which a character stands for itself or is escaped, numbers as they are written, and
arrays and objects nested to some depth. What is printed is such a text, in either layout.
-/

namespace LinkTemplate.Json

/-! ## Tokens -/

def Blanks (text : Text) : Prop := ∀ c ∈ text, c ∈ [' ', '\t', '\n', '\r']

/-- A hexadecimal digit, in letters of either case. -/
def IsHex (c : Char) (n : Nat) : Prop := n < 16 ∧ (c = n.digitChar ∨ c = n.digitChar.toUpper)

/-- Four hexadecimal digits. -/
def IsUnit (a b c d : Char) (n : Nat) : Prop :=
  ∃ i j k l, IsHex a i ∧ IsHex b j ∧ IsHex c k ∧ IsHex d l ∧
    n = i * 4096 + j * 256 + k * 16 + l

/-- The letters that may follow a backslash, and the characters they stand for. -/
def escapes : List (Char × Char) :=
  [('"', '"'), ('\\', '\\'), ('/', '/'), ('b', '\x08'), ('f', '\x0c'), ('n', '\n'), ('r', '\r'),
    ('t', '\t')]

/-- The second text may stand between quotes for the first. -/
inductive Letters : Text → Text → Prop
  | nil : Letters [] []
  | plain {x : Char} {text spelled : Text} : x ≠ '"' → x ≠ '\\' → 0x20 ≤ x.toNat →
      Letters text spelled → Letters (x :: text) (x :: spelled)
  | short {letter x : Char} {text spelled : Text} : (letter, x) ∈ escapes →
      Letters text spelled → Letters (x :: text) ('\\' :: letter :: spelled)
  | unit {a b c d x : Char} {text spelled : Text} : IsUnit a b c d x.toNat →
      Letters text spelled → Letters (x :: text) ('\\' :: 'u' :: a :: b :: c :: d :: spelled)
  /-- A character beyond the reach of four digits is escaped by two surrogates. -/
  | pair {a b c d e f g h x : Char} {high low : Nat} {text spelled : Text} :
      IsUnit a b c d (0xD800 + high) → IsUnit e f g h (0xDC00 + low) →
      high < 0x400 → low < 0x400 → x.toNat = 0x10000 + high * 0x400 + low →
      Letters text spelled →
      Letters (x :: text)
        ('\\' :: 'u' :: a :: b :: c :: d :: '\\' :: 'u' :: e :: f :: g :: h :: spelled)

def Digits (text : Text) : Prop := text ≠ [] ∧ ∀ c ∈ text, c.isDigit

def IsWhole (text : Text) : Prop := text = ['0'] ∨ Digits text ∧ text.head? ≠ some '0'

def IsFraction (text : Text) : Prop := text = [] ∨ ∃ digits, Digits digits ∧ text = '.' :: digits

def IsExponent (text : Text) : Prop :=
  text = [] ∨ ∃ letter sign digits, letter ∈ ['e', 'E'] ∧ sign ∈ [[], ['+'], ['-']] ∧
    Digits digits ∧ text = letter :: (sign ++ digits)

def IsNumber (text : Text) : Prop :=
  ∃ sign whole fraction exponent, sign ∈ [[], ['-']] ∧ IsWhole whole ∧ IsFraction fraction ∧
    IsExponent exponent ∧ text = sign ++ whole ++ fraction ++ exponent

inductive IsScalar : Json → Text → Prop
  | null : IsScalar null "null".toList
  | true : IsScalar (bool true) "true".toList
  | false : IsScalar (bool false) "false".toList
  | string {text spelled : Text} : Letters text spelled →
      IsScalar (string text) ('"' :: (spelled ++ ['"']))
  | number {digits : Text} : IsNumber digits → IsScalar (number digits) digits

/-! ## Arrays and objects -/

/-- One or more entries with commas between them. -/
inductive Series {α : Type} (entry : α → Text → Prop) : List α → Text → Prop
  | last {a : α} {text : Text} : entry a text → Series entry [a] text
  | more {a : α} {as : List α} {text rest : Text} : entry a text → Series entry as rest →
      Series entry (a :: as) (text ++ ',' :: rest)

section

variable (value : Json → Text → Prop)

/-- A value with blanks around it. -/
inductive Padded : Json → Text → Prop
  | intro {json : Json} {before text after : Text} : Blanks before → value json text →
      Blanks after → Padded json (before ++ (text ++ after))

inductive IsMember : Text × Json → Text → Prop
  | intro {name : Text} {json : Json} {before spelled after text : Text} : Blanks before →
      Letters name spelled → Blanks after → Padded value json text →
      IsMember (name, json) (before ++ '"' :: (spelled ++ '"' :: (after ++ ':' :: text)))

inductive IsNested : Json → Text → Prop
  | scalar {json : Json} {text : Text} : IsScalar json text → IsNested json text
  | emptyArray {blanks : Text} : Blanks blanks → IsNested (array []) ('[' :: (blanks ++ [']']))
  | array {items : List Json} {text : Text} : Series (Padded value) items text →
      IsNested (array items) ('[' :: (text ++ [']']))
  | emptyObject {blanks : Text} : Blanks blanks → IsNested (object []) ('{' :: (blanks ++ ['}']))
  | object {members : List (Text × Json)} {text : Text} : Series (IsMember value) members text →
      IsNested (object members) ('{' :: (text ++ ['}']))

end

/-- The text of a value in which arrays and objects are nested at most `depth` deep. -/
def IsValue : Nat → Json → Text → Prop
  | 0 => IsScalar
  | depth + 1 => IsNested (IsValue depth)

def IsText (json : Json) (text : Text) : Prop := ∃ depth, Padded (IsValue depth) json text

/-! ## What is printed -/

/-- Arrays and objects are nested at most `depth` deep, and numbers are written as numbers. -/
def WellFormed : Nat → Json → Prop
  | _, null | _, bool _ | _, string _ => True
  | _, number digits => IsNumber digits
  | 0, array _ | 0, object _ => False
  | depth + 1, array items => ∀ item ∈ items, item.WellFormed depth
  | depth + 1, object members => ∀ member ∈ members, member.2.WellFormed depth

theorem blanks_nil : Blanks [] := by simp [Blanks]

theorem Layout.blanks_lineBreak (layout : Layout) (level : Nat) :
    Blanks (layout.lineBreak level) := by
  intro c hc
  cases layout with
  | compact => simp [lineBreak] at hc
  | indented =>
    simp [lineBreak] at hc
    rcases hc with rfl | ⟨-, rfl⟩
    · simp
    · simp

theorem isHex_digitChar {n : Nat} (h : n < 16) : IsHex n.digitChar n := ⟨h, Or.inl rfl⟩

theorem letters_quoteChar (c : Char) {text spelled : Text} (h : Letters text spelled) :
    Letters (c :: text) (quoteChar c ++ spelled) := by
  unfold quoteChar
  split
  · rename_i letter hshort
    refine .short ?_ h
    unfold shortEscape? at hshort
    split at hshort <;> cases hshort <;> simp [escapes]
  · rename_i hnone
    split
    · rename_i hcontrol
      have hhigh : IsHex (c.toNat / 16).digitChar (c.toNat / 16) := isHex_digitChar (by omega)
      have hlow : IsHex (c.toNat % 16).digitChar (c.toNat % 16) := isHex_digitChar (by omega)
      have hzero : IsHex '0' 0 := isHex_digitChar (by decide)
      exact .unit ⟨0, 0, _, _, hzero, hzero, hhigh, hlow, by omega⟩ h
    · rename_i hvisible
      have hquote : c ≠ '"' := by
        rintro rfl
        simp [shortEscape?] at hnone
      have hbackslash : c ≠ '\\' := by
        rintro rfl
        simp [shortEscape?] at hnone
      exact .plain hquote hbackslash (by omega) h

theorem letters_flatMap (text : Text) : Letters text (text.flatMap quoteChar) := by
  induction text with
  | nil => exact .nil
  | cons c text ih => exact letters_quoteChar c ih

section

variable {value : Json → Text → Prop} {layout : Layout} {level : Nat} {after : Text}

theorem series_writeItems {item : Json} {items : List Json} (hafter : Blanks after)
    (h : ∀ i ∈ item :: items, value i (write layout level i)) :
    Series (Padded value) (item :: items)
      (layout.lineBreak level ++ (write layout level item ++
        (writeItems layout level items ++ after))) := by
  have hbreak := layout.blanks_lineBreak level
  induction items generalizing item with
  | nil => exact .last (.intro hbreak (h item (by simp)) hafter)
  | cons next items ih =>
    have hfirst : Padded value item (layout.lineBreak level ++ (write layout level item ++ [])) :=
      .intro hbreak (h item (by simp)) blanks_nil
    have hrest : ∀ i ∈ next :: items, value i (write layout level i) :=
      fun i hi => h i (List.mem_cons_of_mem _ hi)
    simpa [writeItems] using Series.more hfirst (ih hrest)

theorem series_writeMembers {member : Text × Json} {members : List (Text × Json)}
    (hafter : Blanks after) (h : ∀ m ∈ member :: members, value m.2 (write layout level m.2)) :
    Series (IsMember value) (member :: members)
      (layout.lineBreak level ++ (quoted member.1 ++ (layout.colon ++
        (write layout level member.2 ++ (writeMembers layout level members ++ after))))) := by
  have hbreak := layout.blanks_lineBreak level
  -- The colon with the value behind it is the same for every member.
  have hmember : ∀ m : Text × Json, value m.2 (write layout level m.2) → ∀ {rest}, Blanks rest →
      IsMember value m (layout.lineBreak level ++ (quoted m.1 ++ (layout.colon ++
        (write layout level m.2 ++ rest)))) := by
    rintro ⟨name, json⟩ hvalue rest hrest
    have hspace : Blanks (layout.colon.drop 1) := by cases layout <;> simp [Layout.colon, Blanks]
    have htext := IsMember.intro hbreak (letters_flatMap name) blanks_nil
      (.intro hspace hvalue hrest)
    cases layout <;> simpa [quoted, Layout.colon] using htext
  induction members generalizing member with
  | nil => exact .last (hmember member (h member (by simp)) hafter)
  | cons next members ih =>
    have hfirst := hmember member (h member (by simp)) blanks_nil
    have hrest : ∀ m ∈ next :: members, value m.2 (write layout level m.2) :=
      fun m hm => h m (List.mem_cons_of_mem _ hm)
    simpa [writeMembers] using Series.more hfirst (ih hrest)

end

theorem isScalar_write (layout : Layout) {json : Json} (h : json.WellFormed 0) (level : Nat) :
    IsScalar json (write layout level json) := by
  cases json with
  | null => exact .null
  | bool value =>
    cases value with
    | false => exact .false
    | true => exact .true
  | number digits => exact .number h
  | string text => exact .string (letters_flatMap text)
  | array items => exact h.elim
  | object members => exact h.elim

theorem isValue_write (layout : Layout) {depth : Nat} {json : Json} (h : json.WellFormed depth)
    (level : Nat) : IsValue depth json (write layout level json) := by
  induction depth generalizing json level with
  | zero => exact isScalar_write layout h level
  | succ depth ih =>
    cases json with
    | array items =>
      cases items with
      | nil => exact .emptyArray blanks_nil
      | cons item items =>
        have hitems : ∀ i ∈ item :: items, IsValue depth i (write layout (level + 1) i) :=
          fun i hi => ih (h i hi) (level + 1)
        have hseries := series_writeItems (layout.blanks_lineBreak level) hitems
        simpa [write, IsValue] using IsNested.array hseries
    | object members =>
      cases members with
      | nil => exact .emptyObject blanks_nil
      | cons member members =>
        have hmembers : ∀ m ∈ member :: members,
            IsValue depth m.2 (write layout (level + 1) m.2) :=
          fun m hm => ih (h m hm) (level + 1)
        have hseries := series_writeMembers (layout.blanks_lineBreak level) hmembers
        simpa [write, IsValue] using IsNested.object hseries
    | _ =>
      refine .scalar (isScalar_write layout ?_ level)
      exact h

theorem padded_print (layout : Layout) {depth : Nat} {json : Json} (h : json.WellFormed depth) :
    Padded (IsValue depth) json (json.print layout) := by
  simpa [print] using Padded.intro blanks_nil (isValue_write layout h 0) blanks_nil

end LinkTemplate.Json
