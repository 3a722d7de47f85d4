import Mathlib.Data.List.Chain
import Mathlib.Data.List.TakeWhile
import LinkTemplate.Json.Printer
import LinkTemplate.Yaml.Reader
import LinkTemplate.Proofs.Basics
/-!
# YAML on one line

A text without a line end is laid out on one line, where columns and offsets only count. What is
read there is read from the characters alone, up to the place of a key and its colon: scalars
between double quotes, as they are escaped in JSON, and plain words in flow style.
-/

namespace LinkTemplate.Yaml

/-! ## Lines -/

/-- The characters of a line end, and those that are brought to its form. -/
def isLineEnd (c : Char) : Bool := isBreak c || c = '\r' || c = '\u0085'

/-- A character that can stand in a line of a document. -/
def isLineChar (c : Char) : Bool := isAllowed c && !isLineEnd c

theorem isLineChar_iff {c : Char} : isLineChar c ↔ isAllowed c ∧ isLineEnd c = false := by
  simp [isLineChar]

/-- Each cell stands right behind the one before it on the same line. -/
def InLine (source : Source) : Prop :=
  source.IsChain fun a b => b.line = a.line ∧ b.column = a.column + 1 ∧
    b.offset = a.offset + a.char.utf8Size

def chars (source : Source) : Text := source.map Cell.char

theorem layOut_cons {c : Char} (h : isLineEnd c = false) (line column offset : Nat) (text : Text) :
    layOut line column offset (c :: text) =
      ⟨c, line, column, offset⟩ :: layOut line (column + 1) (offset + c.utf8Size) text := by
  simp only [isLineEnd, Bool.or_eq_false_iff, decide_eq_false_iff_not] at h
  obtain ⟨⟨hbreak, hreturn⟩, hnext⟩ := h
  cases text with
  | nil => simp [layOut, hreturn, hnext, hbreak]
  | cons d text => simp [layOut, hreturn, hnext, hbreak]

theorem chars_layOut {text : Text} (h : ∀ c ∈ text, isLineEnd c = false)
    (line column offset : Nat) : chars (layOut line column offset text) = text := by
  induction text generalizing column offset with
  | nil => rfl
  | cons c text ih =>
    rw [List.forall_mem_cons] at h
    rw [layOut_cons h.1, chars, List.map_cons]
    exact congrArg (c :: ·) (ih h.2 _ _)

theorem inLine_layOut {text : Text} (h : ∀ c ∈ text, isLineEnd c = false)
    (line column offset : Nat) : InLine (layOut line column offset text) := by
  induction text generalizing column offset with
  | nil => exact .nil
  | cons c text ih =>
    rw [List.forall_mem_cons] at h
    rw [layOut_cons h.1]
    have hmore := ih h.2 (column + 1) (offset + c.utf8Size)
    cases text with
    | nil => exact .singleton _
    | cons d text =>
      rw [List.forall_mem_cons] at h
      rw [layOut_cons h.2.1] at hmore ⊢
      exact .cons_cons ⟨rfl, rfl, rfl⟩ hmore

theorem InLine.of_append {before source : Source} (h : InLine (before ++ source)) :
    InLine source :=
  (List.isChain_append.mp h).2.1

theorem InLine.of_cons {cell : Cell} {source : Source} (h : InLine (cell :: source)) :
    InLine source :=
  h.tail

/-- The bytes of UTF-8 that a text takes. -/
def byteLength : Text → Nat
  | [] => 0
  | c :: text => c.utf8Size + byteLength text

/-- How far a cell is from one before it. -/
theorem InLine.distance {start cell : Cell} {between rest : Source}
    (h : InLine (start :: (between ++ cell :: rest))) :
    cell.line = start.line ∧
      cell.offset = start.offset + byteLength (chars (start :: between)) ∧
      start.column < cell.column := by
  induction between generalizing start with
  | nil =>
    obtain ⟨⟨hline, hcolumn, hoffset⟩, -⟩ := List.isChain_cons_cons.mp h
    simp [chars, byteLength, hline, hoffset, hcolumn]
  | cons next between ih =>
    obtain ⟨⟨hline, hcolumn, hoffset⟩, hmore⟩ := List.isChain_cons_cons.mp h
    obtain ⟨hline', hoffset', hcolumn'⟩ := ih hmore
    refine ⟨hline'.trans hline, ?_, by omega⟩
    rw [hoffset', hoffset]
    simp [chars, byteLength, Nat.add_assoc]

/-! ## Scalars in double quotes -/

/-- A character that comes through YAML as JSON writes it between quotes, escaped or as it is. -/
def isCarried (c : Char) : Bool := c.toNat < 0x20 || isLineChar c

theorem takeGap_blanks {indent : Nat} {later : Bool} {blanks rest : Source} {cell : Cell}
    (hblanks : ∀ c ∈ chars blanks, c = ' ') (hbreak : isBreak cell.char = false)
    (hblank : isBlank cell.char = false) :
    takeGap indent later (blanks ++ cell :: rest) =
      some ⟨chars blanks, [], cell :: rest, cell :: rest⟩ := by
  induction blanks with
  | nil => simp [takeGap, chars, hbreak, hblank]
  | cons blank blanks ih =>
    simp only [chars, List.map_cons, List.forall_mem_cons] at hblanks
    have hspace : isBreak ' ' = false ∧ isBlank ' ' = true := by decide
    simp [takeGap, hblanks.1, hspace, ih hblanks.2, chars]

theorem codePoint?_control : ∀ n < 0x20,
    codePoint? ['0', '0', (n / 16).digitChar, (n % 16).digitChar] = some (Char.ofNat n) := by
  decide

/-- A letter behind a backslash in JSON means the same in YAML. -/
theorem unescape?_of_shortEscape? {c letter : Char} (h : Json.shortEscape? c = some letter) :
    isBreak letter = false ∧ codeLength? letter = none ∧ unescape? letter = some c := by
  unfold Json.shortEscape? at h
  split at h <;> cases h <;> decide

theorem takeDouble_escape {backslash : Cell} (h : backslash.char = '\\') {escape rest : Source}
    {c : Char} (hescape : takeEscape (escape ++ rest) = some ([c], rest)) (limit : Nat) :
    takeDouble (limit + 1) (backslash :: (escape ++ rest)) =
      (takeDouble limit rest).map fun (text, rest) => (c :: text, rest) := by
  have hmark : isBlank '\\' = false ∧ isBreak '\\' = false := by decide
  simp [takeDouble, h, hmark, hescape]

theorem not_blank_of_isCarried {c : Char} (h : isCarried c) (hspace : c ≠ ' ')
    (hvisible : ¬ c.toNat < 0x20) : isBlank c = false ∧ isBreak c = false := by
  have htab : c ≠ '\t' := by
    rintro rfl
    exact hvisible (by decide)
  simp_all [isCarried, isLineChar, isLineEnd, isBlank]

theorem quoteChar_head {c : Char} (h : isCarried c) (hspace : c ≠ ' ') :
    ∃ d rest, Json.quoteChar c = d :: rest ∧ isBlank d = false ∧ isBreak d = false := by
  have hbackslash : isBlank '\\' = false ∧ isBreak '\\' = false := by decide
  unfold Json.quoteChar
  split
  · exact ⟨_, _, rfl, hbackslash⟩
  · split
    · exact ⟨_, _, rfl, hbackslash⟩
    · rename_i hvisible
      exact ⟨_, _, rfl, not_blank_of_isCarried h hspace hvisible⟩

/-- One character, as JSON writes it between quotes. Blanks are taken together. -/
theorem takeDouble_quoteChar {c : Char} (h : isCarried c) (hspace : c ≠ ' ') {cells : Source}
    (hcells : chars cells = Json.quoteChar c) (limit : Nat) (rest : Source) :
    takeDouble (limit + 1) (cells ++ rest) =
      (takeDouble limit rest).map fun (text, rest) => (c :: text, rest) := by
  unfold Json.quoteChar at hcells
  split at hcells
  · rename_i letter hshort
    obtain ⟨backslash, _, rfl, hbackslash, hcells⟩ := List.map_eq_cons_iff.mp hcells
    obtain ⟨cell, rfl, rfl⟩ := List.map_eq_singleton_iff.mp hcells
    obtain ⟨hbreak, hlength, hunescape⟩ := unescape?_of_shortEscape? hshort
    exact takeDouble_escape hbackslash (by simp [takeEscape, hbreak, hlength, hunescape]) limit
  · rename_i hnone
    split at hcells
    · rename_i hcontrol
      obtain ⟨backslash, cells, rfl, hbackslash, hcells⟩ := List.map_eq_cons_iff.mp hcells
      obtain ⟨mark, digits, rfl, hmark, hdigits⟩ := List.map_eq_cons_iff.mp hcells
      have hlength : digits.length = 4 := by simpa using congrArg List.length hdigits
      have hcode := codePoint?_control c.toNat hcontrol
      rw [Char.ofNat_toNat, ← hdigits] at hcode
      refine takeDouble_escape hbackslash ?_ limit
      have hu : isBreak 'u' = false ∧ codeLength? 'u' = some 4 := by decide
      simp [takeEscape, hmark, hu, hlength, hcode]
    · rename_i hvisible
      obtain ⟨cell, rfl, rfl⟩ := List.map_eq_singleton_iff.mp hcells
      obtain ⟨hblank, hbreak⟩ := not_blank_of_isCarried h hspace hvisible
      have hquote : cell.char ≠ '"' := by
        intro hquote
        simp [hquote, Json.shortEscape?] at hnone
      have hbackslash : cell.char ≠ '\\' := by
        intro hbackslash
        simp [hbackslash, Json.shortEscape?] at hnone
      simp [takeDouble, hblank, hbreak, hquote, hbackslash]

theorem exists_blanks (text : Text) :
    ∃ blanks more, text = blanks ++ more ∧ (∀ c ∈ blanks, c = ' ') ∧ more.head? ≠ some ' ' := by
  refine ⟨text.takeWhile (· = ' '), text.dropWhile (· = ' '),
    List.takeWhile_append_dropWhile.symm, fun c hc => ?_, fun hhead => ?_⟩
  · simpa using List.mem_takeWhile_imp hc
  · simpa [hhead] using List.head?_dropWhile_not (· = ' ') text

theorem flatMap_quoteChar_blanks {blanks : Text} (h : ∀ c ∈ blanks, c = ' ') :
    blanks.flatMap Json.quoteChar = blanks := by
  induction blanks with
  | nil => rfl
  | cons c blanks ih =>
    rw [List.forall_mem_cons] at h
    obtain ⟨rfl, hmore⟩ := h
    rw [List.flatMap_cons, ih hmore]
    rfl

theorem exists_cell_of_quoted {text : Text} (h : ∀ c ∈ text, isCarried c)
    (hhead : text.head? ≠ some ' ') {cells : Source}
    (hcells : chars cells = text.flatMap Json.quoteChar) {quote : Cell} (hquote : quote.char = '"')
    (rest : Source) :
    ∃ cell more, cells ++ quote :: rest = cell :: more ∧ isBlank cell.char = false ∧
      isBreak cell.char = false := by
  cases text with
  | nil =>
    obtain rfl : cells = [] := by simpa [chars] using hcells
    exact ⟨quote, rest, rfl, by rw [hquote]; decide⟩
  | cons c text =>
    rw [List.forall_mem_cons] at h
    obtain ⟨d, more, hd, hblank⟩ := quoteChar_head h.1 (by simpa using hhead)
    rw [List.flatMap_cons, hd] at hcells
    obtain ⟨cell, cells, rfl, rfl, -⟩ := List.map_eq_cons_iff.mp hcells
    exact ⟨cell, cells ++ quote :: rest, rfl, hblank⟩

/-- A text that JSON writes between quotes is read from there. -/
theorem takeDouble_text {text : Text} (h : ∀ c ∈ text, isCarried c) {cells : Source}
    (hcells : chars cells = text.flatMap Json.quoteChar) {quote : Cell} (hquote : quote.char = '"')
    {limit : Nat} (hlimit : text.length < limit) (rest : Source) :
    takeDouble limit (cells ++ quote :: rest) = some (text, rest) := by
  induction hn : text.length using Nat.strongRecOn generalizing text cells limit with
  | ind n ih =>
  obtain ⟨limit, rfl⟩ : ∃ k, limit = k + 1 := ⟨limit - 1, by omega⟩
  obtain ⟨blanks, text, rfl, hblanks, hhead⟩ := exists_blanks text
  rw [List.flatMap_append, flatMap_quoteChar_blanks hblanks] at hcells
  obtain ⟨gap, quoted, rfl, rfl, hquoted⟩ := List.map_eq_append_iff.mp hcells
  rw [List.forall_mem_append] at h
  rw [List.length_append] at hlimit hn
  cases gap with
  | nil =>
    cases text with
    | nil =>
      obtain rfl : quoted = [] := by simpa using hquoted
      have hend : isBlank '"' = false ∧ isBreak '"' = false := by decide
      simp [takeDouble, hquote, hend]
    | cons c text =>
      rw [List.flatMap_cons] at hquoted
      obtain ⟨first, more, rfl, hfirst, hmore⟩ := List.map_eq_append_iff.mp hquoted
      rw [List.forall_mem_cons] at h
      simp only [List.map_nil, List.length_nil, List.length_cons] at hlimit hn
      rw [List.nil_append, List.append_assoc,
        takeDouble_quoteChar h.2.1 (by simpa using hhead) hfirst,
        ih text.length (by omega) h.2.2 hmore (by omega) rfl]
      rfl
  | cons blank gap =>
    -- The blanks are taken as a gap, and what stands behind them is shorter.
    obtain ⟨cell, more, hnext, hblank, hbreak⟩ :=
      exists_cell_of_quoted h.2 hhead hquoted hquote rest
    have hgap := @takeGap_blanks 0 false _ more _ hblanks hbreak hblank
    simp only [List.map_cons, List.length_cons] at hlimit hn
    have htext := @ih text.length (by omega) _ h.2 _ hquoted limit (by omega) rfl
    have hspace : isBlank blank.char = true := by
      rw [hblanks blank.char (by simp)]
      decide
    rw [List.append_assoc, hnext, List.cons_append, takeDouble, if_pos (Or.inl hspace)]
    rw [List.cons_append] at hgap
    rw [hgap, ← hnext]
    simp only [htext]
    rfl

theorem isLineChar_quoteChar {c : Char} (h : isCarried c) :
    ∀ d ∈ Json.quoteChar c, isLineChar d := by
  unfold Json.quoteChar
  split
  · rename_i letter hshort
    unfold Json.shortEscape? at hshort
    split at hshort <;> cases hshort <;> exact List.all_eq_true.mp (by decide)
  · split
    · rename_i hcontrol
      have hhigh : ∀ n < 2, isLineChar n.digitChar := by decide
      have hlow : ∀ n < 16, isLineChar n.digitChar := by decide
      obtain ⟨hbackslash, hu, hzero⟩ : isLineChar '\\' ∧ isLineChar 'u' ∧ isLineChar '0' := by
        decide
      simp only [List.forall_mem_cons, List.not_mem_nil]
      exact ⟨hbackslash, hu, hzero, hzero, hhigh _ (by omega), hlow _ (by omega), nofun⟩
    · rename_i hvisible
      simpa [isCarried, hvisible] using h

theorem isLineChar_quoted {text : Text} (h : ∀ c ∈ text, isCarried c) :
    ∀ c ∈ Json.quoted text, isLineChar c := by
  have hquote : isLineChar '"' := by decide
  rw [Json.quoted, List.forall_mem_append, List.forall_mem_cons, List.forall_mem_singleton]
  refine ⟨⟨hquote, ?_⟩, hquote⟩
  intro d hd
  obtain ⟨c, hc, hdc⟩ := List.mem_flatMap.mp hd
  exact isLineChar_quoteChar (h c hc) d hdc

theorem length_le_flatMap_quoteChar (text : Text) :
    text.length ≤ (text.flatMap Json.quoteChar).length := by
  have hpos : ∀ c, 0 < (Json.quoteChar c).length := by
    intro c
    unfold Json.quoteChar
    split
    · simp
    · split <;> simp
  induction text with
  | nil => simp
  | cons c text ih =>
    rw [List.flatMap_cons, List.length_append, List.length_cons]
    have := hpos c
    omega

theorem takeScalar_quoted {text : Text} (h : ∀ c ∈ text, isCarried c) {cells : Source}
    (hcells : chars cells = Json.quoted text) (place : Place) (rest : Source) :
    takeScalar place (cells ++ rest) = some (quoted text, rest) := by
  obtain ⟨start, cells, rfl, hstart, hinner⟩ := List.map_eq_cons_iff.mp hcells
  obtain ⟨inner, last, rfl, hletters, hlast⟩ := List.map_eq_append_iff.mp hinner
  obtain ⟨quote, rfl, hquote⟩ := List.map_eq_singleton_iff.mp hlast
  have hlength : text.length ≤ inner.length := by
    have hsame := congrArg List.length hletters
    rw [List.length_map] at hsame
    exact hsame ▸ length_le_flatMap_quoteChar text
  have hlimit : text.length < (inner ++ quote :: rest).length + 1 := by
    rw [List.length_append]
    omega
  have hsource : inner ++ [quote] ++ rest = inner ++ quote :: rest := by simp
  rw [List.cons_append, hsource, takeScalar, hstart, if_neg (by decide), if_pos rfl,
    takeDouble_text h hletters hquote hlimit]
  rfl

/-! ## Plain words -/

/-- A character of what JSON writes without quotes. -/
def isWordChar (c : Char) : Bool := c.isAlphanum || c = '+' || c = '-' || c = '.'

structure IsWord (word : Text) : Prop where
  all : ∀ c ∈ word, isWordChar c
  ne_nil : word ≠ []
  ne_dash : word ≠ ['-']

theorem isWord_of_all {word : Text} (h : word.all isWordChar) (hdash : word.head?.any (· ≠ '-')) :
    IsWord word := by
  refine ⟨List.all_eq_true.mp h, ?_, ?_⟩ <;>
  · rintro rfl
    simp at hdash

/-- What can stand behind a word between brackets or braces, on the same line. -/
def Ends (source : Source) : Prop := ∀ cell ∈ source.head?, cell.char ∈ [',', ']', '}']

theorem ne_of_isWordChar {c d : Char} (h : isWordChar c) (hd : isWordChar d = false) : c ≠ d := by
  rintro rfl
  simp [h] at hd

theorem plain_of_isWordChar {c : Char} (h : isWordChar c) :
    isBlank c = false ∧ isBreak c = false ∧ isIndicator c = false ∧ c ≠ ':' ∧ c ≠ '?' := by
  have hne : ∀ d, isWordChar d = false → c ≠ d := fun _ => ne_of_isWordChar h
  refine ⟨?_, ?_, ?_, hne ':' (by decide), hne '?' (by decide)⟩
  · simp [isBlank, hne ' ' (by decide), hne '\t' (by decide)]
  · simp [isBreak, hne '\n' (by decide), hne '\u2028' (by decide), hne '\u2029' (by decide)]
  · rw [Bool.eq_false_iff]
    intro hmark
    simp only [isIndicator, isFlowMark, Bool.or_eq_true, decide_eq_true_eq, or_assoc] at hmark
    repeat' first
      | exact hne _ (by decide) hmark
      | rcases hmark with hmark | hmark

theorem isLineChar_of_isWordChar {c : Char} (h : isWordChar c) : isLineChar c := by
  have hreturn : c ≠ '\r' := ne_of_isWordChar h (by decide)
  have hnext : c ≠ '\u0085' := ne_of_isWordChar h (by decide)
  obtain ⟨-, hbreak, -⟩ := plain_of_isWordChar h
  have hvisible : 0x20 ≤ c.toNat ∧ c.toNat ≤ 0x7E := by
    simp only [isWordChar, Bool.or_eq_true, decide_eq_true_eq, or_assoc] at h
    rcases h with h | rfl | rfl | rfl
    · delta Char.isAlphanum Char.isAlpha Char.isUpper Char.isLower Char.isDigit at h
      simp only [Bool.or_eq_true, Bool.and_eq_true, decide_eq_true_eq, ge_iff_le,
        UInt32.le_iff_toNat_le, Char.toNat_val, Char.reduceToNat] at h
      omega
    · decide
    · decide
    · decide
  simp [isLineChar, isAllowed, isLineEnd, hvisible, hbreak, hreturn, hnext]

theorem takeWord_word {word : Text} (h : ∀ c ∈ word, isWordChar c) {cells rest : Source}
    (hcells : chars cells = word) (hrest : Ends rest) :
    takeWord true (cells ++ rest) = some (word, rest) := by
  subst hcells
  induction cells with
  | nil =>
    cases rest with
    | nil => rfl
    | cons cell rest =>
      have hend : ∀ c ∈ [',', ']', '}'], isBlank c = false ∧ isBreak c = false ∧ c ≠ ':' ∧
          isFlowMark c = true := by
        simp [isBlank, isBreak, isFlowMark]
      obtain ⟨hblank, hbreak, hcolon, hmark⟩ := hend cell.char (hrest cell rfl)
      simp [takeWord, chars, hblank, hbreak, hcolon, hmark]
  | cons cell cells ih =>
    rw [chars, List.map_cons, List.forall_mem_cons] at h
    obtain ⟨hblank, hbreak, hmark, hcolon, -⟩ := plain_of_isWordChar h.1
    have hflow : isFlowMark cell.char = false := by
      simp only [isIndicator, Bool.or_eq_false_iff] at hmark
      simp [hmark]
    simp [takeWord, chars, hblank, hbreak, hcolon, hflow, ih h.2]

theorem takeWords_ends {rest : Source} (hrest : Ends rest) (indent limit : Nat) :
    takeWords ⟨true, indent⟩ limit rest = some ([], rest) := by
  cases limit with
  | zero => rfl
  | succ limit =>
    cases rest with
    | nil => rfl
    | cons cell rest =>
      have hend : ∀ c ∈ [',', ']', '}'], isBlank c = false ∧ isBreak c = false := by
        simp [isBlank, isBreak]
      obtain ⟨hblank, hbreak⟩ := hend cell.char (hrest cell rfl)
      simp [takeWords, takeGap, goesOn, hblank, hbreak]

theorem IsWord.startsPlain {word : Text} (h : IsWord word) {cells : Source}
    (hcells : chars cells = word) (rest : Source) : startsPlain true (cells ++ rest) = true := by
  subst hcells
  cases cells with
  | nil => exact absurd rfl h.ne_nil
  | cons cell cells =>
    obtain ⟨hblank, hbreak, hmark, hcolon, hquestion⟩ :=
      plain_of_isWordChar (h.all cell.char (by simp [chars]))
    by_cases hdash : cell.char = '-'
    · -- A dash alone would be no word, so another character of it follows.
      cases cells with
      | nil => exact absurd (by simp [chars, hdash]) h.ne_dash
      | cons next cells =>
        obtain ⟨hblank, hbreak, -⟩ := plain_of_isWordChar (h.all next.char (by simp [chars]))
        simp [Yaml.startsPlain, blankNext, hdash, hblank, hbreak]
    · simp [Yaml.startsPlain, hdash, hcolon, hquestion, hmark, hblank, hbreak]

theorem IsWord.takeScalar_append {word : Text} (h : IsWord word) {cells rest : Source}
    (hcells : chars cells = word) (hrest : Ends rest) (indent : Nat) :
    takeScalar ⟨true, indent⟩ (cells ++ rest) = some (plain word, rest) := by
  have hstarts := h.startsPlain hcells rest
  have hword := takeWord_word h.all hcells hrest
  have hmore := takeWords_ends hrest indent rest.length
  obtain ⟨c, tail, rfl⟩ := List.exists_cons_of_ne_nil h.ne_nil
  obtain ⟨cell, cells, rfl, rfl, -⟩ := List.map_eq_cons_iff.mp hcells
  have hquote : cell.char ≠ '\'' ∧ cell.char ≠ '"' := by
    obtain ⟨-, -, hmark, -⟩ := plain_of_isWordChar (h.all cell.char List.mem_cons_self)
    constructor <;> intro hquote <;> rw [hquote] at hmark <;> exact absurd hmark (by decide)
  rw [List.cons_append] at hstarts hword ⊢
  rw [takeScalar, if_neg hquote.1, if_neg hquote.2, takePlain, if_pos hstarts, hword]
  simp [hmore]

end LinkTemplate.Yaml
