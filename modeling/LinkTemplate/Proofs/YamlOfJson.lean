import LinkTemplate.Proofs.JsonReader
import LinkTemplate.Proofs.YamlLines
/-!
# JSON read as YAML

JSON on one line is YAML in flow style. The reader of plain YAML reads what is printed for a JSON
value as the same shape: strings as quoted scalars, everything else that is no array and no object
as a plain one.
-/

namespace LinkTemplate.Yaml

/-! ## What is read -/

mutual

def ofJson : Json → Yaml
  | .null => plain "null".toList
  | .bool true => plain "true".toList
  | .bool false => plain "false".toList
  | .number digits => plain digits
  | .string text => quoted text
  | .array items => sequence (ofItems items)
  | .object members => mapping (ofMembers members)

def ofItems : List Json → List Yaml
  | [] => []
  | item :: items => ofJson item :: ofItems items

def ofMembers : List (Text × Json) → List (Yaml × Yaml)
  | [] => []
  | (name, value) :: members => (quoted name, ofJson value) :: ofMembers members

end

/-- A name that comes through YAML and is short enough for a key. -/
def IsKey (name : Text) : Prop :=
  (∀ c ∈ name, isCarried c) ∧ byteLength (Json.quoted name) ≤ maxKeyLength

/-- Every text comes through YAML, names are keys, and arrays and objects are nested at most `depth`
deep. -/
def Carries : Nat → Json → Prop
  | _, .null | _, .bool _ => True
  | _, .number digits => Json.IsNumber digits
  | _, .string text => ∀ c ∈ text, isCarried c
  | 0, .array _ | 0, .object _ => False
  | depth + 1, .array items => ∀ item ∈ items, Carries depth item
  | depth + 1, .object members => ∀ member ∈ members, IsKey member.1 ∧ Carries depth member.2

/-! ## Scalars -/

theorem isWordChar_of_digits {digits : Text} (h : Json.Digits digits) :
    ∀ c ∈ digits, isWordChar c := by
  intro c hc
  have halphanum : c.isAlphanum := Bool.or_eq_true_iff.mpr (Or.inr (h.2 c hc))
  simp [isWordChar, halphanum]

theorem isWordChar_of_isWhole {whole : Text} (h : Json.IsWhole whole) :
    ∀ c ∈ whole, isWordChar c := by
  obtain rfl | ⟨hdigits, -⟩ := h
  · exact List.all_eq_true.mp (by decide)
  · exact isWordChar_of_digits hdigits

theorem isWordChar_of_isFraction {fraction : Text} (h : Json.IsFraction fraction) :
    ∀ c ∈ fraction, isWordChar c := by
  obtain rfl | ⟨digits, hdigits, rfl⟩ := h
  · simp
  · rw [List.forall_mem_cons]
    exact ⟨by decide, isWordChar_of_digits hdigits⟩

theorem isWordChar_of_isExponent {exponent : Text} (h : Json.IsExponent exponent) :
    ∀ c ∈ exponent, isWordChar c := by
  have hletters : ∀ c ∈ ['e', 'E'], isWordChar c := List.all_eq_true.mp (by decide)
  have hsigns : ∀ sign ∈ [[], ['+'], ['-']], ∀ c ∈ sign, isWordChar c := by simp [isWordChar]
  obtain rfl | ⟨letter, sign, digits, hletter, hsign, hdigits, rfl⟩ := h
  · simp
  · rw [List.forall_mem_cons, List.forall_mem_append]
    exact ⟨hletters letter hletter, hsigns sign hsign, isWordChar_of_digits hdigits⟩

theorem isWord_of_isNumber {digits : Text} (h : Json.IsNumber digits) : IsWord digits := by
  obtain ⟨sign, whole, fraction, exponent, hsign, hwhole, hfraction, hexponent, rfl⟩ := h
  have hsigns : ∀ sign ∈ [[], ['-']], ∀ c ∈ sign, isWordChar c := by simp [isWordChar]
  obtain ⟨c, rest, rfl, hc⟩ := Json.whole_head hwhole
  refine ⟨?_, by simp, ?_⟩
  · simp only [List.forall_mem_append]
    exact ⟨⟨⟨hsigns sign hsign, isWordChar_of_isWhole hwhole⟩, isWordChar_of_isFraction hfraction⟩,
      isWordChar_of_isExponent hexponent⟩
  · intro hdash
    have hmem : c ∈ ['-'] := hdash ▸ by simp
    obtain rfl := List.mem_singleton.mp hmem
    exact absurd hc (by decide)

/-! ## Tokens between brackets and braces -/

/-- The first character of a value. -/
def opensNode (c : Char) : Bool := isWordChar c || c = '"' || c = '[' || c = '{'

theorem opensNode_write {depth : Nat} {json : Json} (h : Carries depth json) (level : Nat) :
    ∃ c rest, json.write .compact level = c :: rest ∧ opensNode c := by
  cases json with
  | null => exact ⟨'n', _, rfl, by decide⟩
  | bool value => cases value <;> exact ⟨_, _, rfl, by decide⟩
  | number digits =>
    have hnumber : Json.IsNumber digits := by cases depth <;> exact h
    have hword := isWord_of_isNumber hnumber
    obtain ⟨c, rest, rfl⟩ := List.exists_cons_of_ne_nil hword.ne_nil
    exact ⟨c, rest, rfl, by simp [opensNode, hword.all c List.mem_cons_self]⟩
  | string text => exact ⟨'"', _, rfl, by decide⟩
  | array items => cases items <;> exact ⟨'[', _, rfl, by decide⟩
  | object members => cases members <;> exact ⟨'{', _, rfl, by decide⟩

theorem skip_cons {cell : Cell} (h : opensNode cell.char ∨ cell.char ∈ [',', ':', ']', '}'])
    (flow tabs : Bool) (rest : Source) :
    skip flow tabs false (cell :: rest) = cell :: rest := by
  have hne : ∀ d, opensNode d = false → d ∉ [',', ':', ']', '}'] → cell.char ≠ d := by
    rintro d hopens hmark rfl
    exact h.elim (by simp [hopens]) hmark
  have hbreak : isBreak cell.char = false := by
    simp [isBreak, hne '\n' (by decide) (by decide), hne '\u2028' (by decide) (by decide),
      hne '\u2029' (by decide) (by decide)]
  have horder : cell.isOrderMark = false := by
    simp [Cell.isOrderMark, hne '\uFEFF' (by decide) (by decide)]
  simp [skip, hbreak, horder, hne ' ' (by decide) (by decide), hne '\t' (by decide) (by decide),
    hne '#' (by decide) (by decide)]

theorem skipFlow_cons {cell : Cell} (h : opensNode cell.char ∨ cell.char ∈ [',', ':', ']', '}'])
    (rest : Source) : skipFlow (cell :: rest) = cell :: rest :=
  skip_cons h true true rest

theorem markNext_of_opensNode {mark : Char} (hmark : opensNode mark = false) {cell : Cell}
    (hcell : opensNode cell.char) (rest : Source) : markNext mark (cell :: rest) = false := by
  simp only [markNext, List.head?_cons, Option.any_some, decide_eq_false_iff_not]
  rintro rfl
  simp [hcell] at hmark

theorem takeFlowEnd_close {close : Char} (h : close ∈ [']', '}']) {cell : Cell}
    (hcell : cell.char = close) (rest : Source) :
    takeFlowEnd close (cell :: rest) = some (true, rest) := by
  have hmark : cell.char ∈ [',', ':', ']', '}'] := by
    rw [hcell]
    exact List.mem_cons_of_mem _ (List.mem_cons_of_mem _ h)
  rw [takeFlowEnd, skipFlow_cons (Or.inr hmark)]
  exact if_pos hcell

theorem takeFlowEnd_comma {close : Char} (h : close ∈ [']', '}']) {comma cell : Cell}
    (hcomma : comma.char = ',') (hcell : opensNode cell.char) (rest : Source) :
    takeFlowEnd close (comma :: cell :: rest) = some (false, cell :: rest) := by
  have hmark : comma.char ∈ [',', ':', ']', '}'] := by simp [hcomma]
  have hmarks : ∀ c ∈ [']', '}'], opensNode c = false := by simp [opensNode, isWordChar]
  have hnext := markNext_of_opensNode (hmarks close h) hcell rest
  have hclose : ',' ≠ close := by
    rintro rfl
    simp at h
  rw [takeFlowEnd, skipFlow_cons (Or.inr hmark)]
  simp [hcomma, hclose, skipFlow_cons (Or.inl hcell), hnext]

/-! ## Values between brackets and braces -/

theorem writeItems_cons (level : Nat) (item : Json) (items : List Json) :
    Json.writeItems .compact level (item :: items) =
      ',' :: (item.write .compact level ++ Json.writeItems .compact level items) := by
  simp [Json.writeItems, Json.Layout.lineBreak]

theorem writeMembers_cons (level : Nat) (name : Text) (value : Json)
    (members : List (Text × Json)) :
    Json.writeMembers .compact level ((name, value) :: members) =
      ',' :: (Json.quoted name ++ ':' :: (value.write .compact level ++
        Json.writeMembers .compact level members)) := by
  simp [Json.writeMembers, Json.Layout.lineBreak, Json.Layout.colon]

theorem write_array (level : Nat) (item : Json) (items : List Json) :
    Json.write .compact level (.array (item :: items)) =
      '[' :: (item.write .compact (level + 1) ++
        (Json.writeItems .compact (level + 1) items ++ [']'])) := by
  simp [Json.write, Json.Layout.lineBreak]

theorem write_object (level : Nat) (name : Text) (value : Json) (members : List (Text × Json)) :
    Json.write .compact level (.object ((name, value) :: members)) =
      '{' :: (Json.quoted name ++ ':' :: (value.write .compact (level + 1) ++
        (Json.writeMembers .compact (level + 1) members ++ ['}']))) := by
  simp [Json.write, Json.Layout.lineBreak, Json.Layout.colon]

/-- The reader reads what is written for the value, in front of what may follow it. -/
def NodeReads (node : Source → Option (Yaml × Source)) (json : Json) : Prop :=
  ∀ (level : Nat) (cells rest : Source), chars cells = json.write .compact level →
    InLine (cells ++ rest) → Ends rest → node (cells ++ rest) = some (ofJson json, rest)

section

variable {node : Source → Option (Yaml × Source)} {level limit : Nat} {cells rest : Source}

theorem readFlowItems_write {item : Json} {items : List Json} {depth : Nat}
    (hcarries : ∀ i ∈ item :: items, Carries depth i)
    (h : ∀ i ∈ item :: items, NodeReads node i)
    (hcells : chars cells = item.write .compact level ++
      (Json.writeItems .compact level items ++ [']']))
    (hline : InLine (cells ++ rest)) (hlimit : items.length < limit) :
    readFlowItems node limit (cells ++ rest) = some (ofItems (item :: items), rest) := by
  induction items generalizing item cells limit with
  | nil =>
    obtain ⟨limit, rfl⟩ : ∃ k, limit = k + 1 := ⟨limit - 1, by omega⟩
    obtain ⟨first, last, rfl, hfirst, hlast⟩ := List.map_eq_append_iff.mp hcells
    obtain ⟨close, rfl, hclose⟩ := List.map_eq_singleton_iff.mp hlast
    rw [List.append_assoc] at hline ⊢
    have hread := h item List.mem_cons_self _ _ _ hfirst hline (by simp [Ends, hclose])
    have hend := takeFlowEnd_close List.mem_cons_self hclose rest
    simp only [readFlowItems, hread]
    simp [hend, ofItems]
  | cons next items ih =>
    obtain ⟨limit, rfl⟩ : ∃ k, limit = k + 1 := ⟨limit - 1, by omega⟩
    obtain ⟨first, more, rfl, hfirst, hmore⟩ := List.map_eq_append_iff.mp hcells
    rw [writeItems_cons, List.cons_append, List.append_assoc] at hmore
    obtain ⟨comma, others, rfl, hcomma, hothers⟩ := List.map_eq_cons_iff.mp hmore
    obtain ⟨c, tail, hhead, hopens⟩ := opensNode_write (hcarries next (by simp)) level
    obtain ⟨cell, others, rfl, hcell, -⟩ := List.map_eq_cons_iff.mp (hhead ▸ hothers)
    rw [List.append_assoc] at hline ⊢
    have hread := h item List.mem_cons_self _ _ _ hfirst hline (by simp [Ends, hcomma])
    have hend : takeFlowEnd ']' (comma :: cell :: (others ++ rest)) =
        some (false, cell :: (others ++ rest)) :=
      takeFlowEnd_comma (by simp) hcomma (hcell ▸ hopens) _
    have hrest := ih (fun i hi => hcarries i (List.mem_cons_of_mem _ hi))
      (fun i hi => h i (List.mem_cons_of_mem _ hi)) hothers hline.of_append.of_cons
      (Nat.lt_of_succ_lt_succ hlimit)
    simp only [readFlowItems, hread]
    simp only [List.cons_append] at hrest ⊢
    simp [hend, hrest, ofItems]

theorem readFlowValue_colon {start colon cell : Cell} (hcolon : colon.char = ':')
    (hline : colon.line = start.line) (hoffset : colon.offset ≤ start.offset + maxKeyLength)
    (hcell : opensNode cell.char) (rest : Source) :
    readFlowValue node start (colon :: cell :: rest) = node (cell :: rest) := by
  have hblank : isBlank ':' = false := by decide
  have htake : takeColon true start (colon :: cell :: rest) = some (cell :: rest) := by
    simp [takeColon, skipBlanks, hcolon, hblank, hline, hoffset]
  have hcomma : markNext ',' (cell :: rest) = false := markNext_of_opensNode (by decide) hcell rest
  have hclose : markNext '}' (cell :: rest) = false := markNext_of_opensNode (by decide) hcell rest
  rw [readFlowValue, htake]
  simp [skipFlow_cons (Or.inl hcell), hcomma, hclose]

/-- The reader reads a quoted name, whatever follows it. -/
def KeyReads (node : Source → Option (Yaml × Source)) : Prop :=
  ∀ (name : Text) (cells rest : Source), (∀ c ∈ name, isCarried c) →
    chars cells = Json.quoted name → node (cells ++ rest) = some (quoted name, rest)

/-- A key and its colon, and the value in front of what may follow it. -/
theorem KeyReads.readFlowValue {name : Text} {value : Json} {depth : Nat} (hkey : KeyReads node)
    (hname : IsKey name) (hcarries : Carries depth value) (hvalue : NodeReads node value)
    (hcells : chars cells = Json.quoted name ++ ':' :: value.write .compact level)
    (hline : InLine (cells ++ rest)) (hrest : Ends rest) :
    ∃ start source after, cells ++ rest = start :: source ∧
      node (start :: source) = some (quoted name, after) ∧
      Yaml.readFlowValue node start after = some (ofJson value, rest) := by
  obtain ⟨key, more, rfl, hquoted, hmore⟩ := List.map_eq_append_iff.mp hcells
  obtain ⟨colon, more, rfl, hcolon, hwritten⟩ := List.map_eq_cons_iff.mp hmore
  obtain ⟨c, tail, hhead, hopens⟩ := opensNode_write hcarries level
  obtain ⟨cell, more, rfl, hcell, -⟩ := List.map_eq_cons_iff.mp (hhead ▸ hwritten)
  obtain ⟨start, letters, rfl, -⟩ := List.map_eq_cons_iff.mp hquoted
  have hread := hkey name _ (colon :: cell :: more ++ rest) hname.1 hquoted
  have hsource : start :: letters ++ colon :: cell :: more ++ rest =
      start :: (letters ++ colon :: (cell :: more ++ rest)) := by simp
  rw [hsource] at hline ⊢
  obtain ⟨hsame, hoffset, -⟩ := hline.distance
  rw [chars, hquoted] at hoffset
  have hlength := hname.2
  refine ⟨start, _, _, rfl, hread, ?_⟩
  rw [List.cons_append, List.cons_append, readFlowValue_colon hcolon hsame (by omega)
    (hcell ▸ hopens)]
  exact hvalue _ _ _ hwritten hline.of_cons.of_append.of_cons hrest

theorem readFlowEntries_write {name : Text} {value : Json} {members : List (Text × Json)}
    {depth : Nat} (hkey : KeyReads node)
    (hcarries : ∀ m ∈ (name, value) :: members, IsKey m.1 ∧ Carries depth m.2)
    (h : ∀ m ∈ (name, value) :: members, NodeReads node m.2)
    (hcells : chars cells = Json.quoted name ++ ':' :: (value.write .compact level ++
      (Json.writeMembers .compact level members ++ ['}'])))
    (hline : InLine (cells ++ rest)) (hlimit : members.length < limit) :
    readFlowEntries node limit (cells ++ rest) =
      some (ofMembers ((name, value) :: members), rest) := by
  induction members generalizing name value cells limit with
  | nil =>
    obtain ⟨limit, rfl⟩ : ∃ k, limit = k + 1 := ⟨limit - 1, by omega⟩
    rw [← List.cons_append, ← List.append_assoc] at hcells
    obtain ⟨first, last, rfl, hfirst, hlast⟩ := List.map_eq_append_iff.mp hcells
    obtain ⟨close, rfl, hclose⟩ := List.map_eq_singleton_iff.mp hlast
    rw [List.append_assoc] at hline ⊢
    obtain ⟨hname, hvalue⟩ := hcarries (name, value) List.mem_cons_self
    obtain ⟨start, source, after, hsource, hnode, hread⟩ :=
      hkey.readFlowValue hname hvalue (h _ List.mem_cons_self) hfirst hline
        (by simp [Ends, hclose])
    have hend := takeFlowEnd_close (List.mem_cons_of_mem _ List.mem_cons_self) hclose rest
    rw [hsource]
    simp only [readFlowEntries, hnode]
    simp [hread, hend, ofMembers]
  | cons next members ih =>
    obtain ⟨limit, rfl⟩ : ∃ k, limit = k + 1 := ⟨limit - 1, by omega⟩
    obtain ⟨name', value'⟩ := next
    rw [writeMembers_cons, ← List.cons_append, ← List.append_assoc] at hcells
    obtain ⟨first, more, rfl, hfirst, hmore⟩ := List.map_eq_append_iff.mp hcells
    obtain ⟨comma, others, rfl, hcomma, hothers⟩ := List.map_eq_cons_iff.mp hmore
    obtain ⟨cell, tail, rfl, hcell, -⟩ := List.map_eq_cons_iff.mp hothers
    rw [List.append_assoc] at hline ⊢
    obtain ⟨hname, hvalue⟩ := hcarries (name, value) List.mem_cons_self
    obtain ⟨start, source, after, hsource, hnode, hread⟩ :=
      hkey.readFlowValue hname hvalue (h _ List.mem_cons_self) hfirst hline
        (by simp [Ends, hcomma])
    have hend : takeFlowEnd '}' (comma :: cell :: (tail ++ rest)) =
        some (false, cell :: (tail ++ rest)) :=
      takeFlowEnd_comma (by simp) hcomma (by rw [hcell]; decide) _
    have hrest := ih (fun m hm => hcarries m (List.mem_cons_of_mem _ hm))
      (fun m hm => h m (List.mem_cons_of_mem _ hm)) (hothers.trans (by simp))
      hline.of_append.of_cons (Nat.lt_of_succ_lt_succ hlimit)
    rw [hsource]
    simp only [readFlowEntries, hnode]
    simp only [List.cons_append] at hread hrest ⊢
    simp [hread, hend, hrest, ofMembers]

end

/-! ## Values -/

theorem readFlow_scalar {cell : Cell} (harray : cell.char ≠ '[') (hobject : cell.char ≠ '{')
    (indent depth : Nat) (source : Source) :
    readFlow indent depth (cell :: source) = takeScalar ⟨true, indent⟩ (cell :: source) := by
  cases depth with
  | zero => rfl
  | succ depth => simp [readFlow, harray, hobject]

theorem keyReads_readFlow (indent depth : Nat) : KeyReads (readFlow indent depth) := by
  intro name cells rest h hcells
  have hread := takeScalar_quoted h hcells ⟨true, indent⟩ rest
  obtain ⟨start, letters, rfl, hstart, -⟩ := List.map_eq_cons_iff.mp hcells
  rw [List.cons_append] at hread ⊢
  rw [readFlow_scalar (by simp [hstart]) (by simp [hstart]), hread]

theorem IsWord.readFlow_append {word : Text} (h : IsWord word) {cells rest : Source}
    (hcells : chars cells = word) (hrest : Ends rest) (indent depth : Nat) :
    readFlow indent depth (cells ++ rest) = some (plain word, rest) := by
  have hread := h.takeScalar_append hcells hrest indent
  obtain ⟨c, tail, rfl⟩ := List.exists_cons_of_ne_nil h.ne_nil
  obtain ⟨cell, cells, rfl, rfl, -⟩ := List.map_eq_cons_iff.mp hcells
  have hword := h.all cell.char List.mem_cons_self
  have harray : cell.char ≠ '[' := ne_of_isWordChar hword (by decide)
  have hobject : cell.char ≠ '{' := ne_of_isWordChar hword (by decide)
  rw [List.cons_append] at hread ⊢
  rw [readFlow_scalar harray hobject, hread]

theorem length_le_writeItems (level : Nat) (items : List Json) :
    items.length ≤ (Json.writeItems .compact level items).length := by
  induction items with
  | nil => simp
  | cons item items ih =>
    rw [writeItems_cons, List.length_cons, List.length_cons, List.length_append]
    omega

theorem length_le_writeMembers (level : Nat) (members : List (Text × Json)) :
    members.length ≤ (Json.writeMembers .compact level members).length := by
  induction members with
  | nil => simp
  | cons member members ih =>
    rw [writeMembers_cons]
    simp only [List.length_cons, List.length_append]
    omega

theorem readFlow_array {indent depth : Nat} {items : List Json}
    (hcarries : ∀ i ∈ items, Carries depth i)
    (h : ∀ i ∈ items, NodeReads (readFlow indent depth) i) :
    NodeReads (readFlow indent (depth + 1)) (.array items) := by
  intro level cells rest hcells hline hrest
  cases items with
  | nil =>
    obtain ⟨start, more, rfl, hstart, hmore⟩ := List.map_eq_cons_iff.mp hcells
    obtain ⟨close, rfl, hclose⟩ := List.map_eq_singleton_iff.mp hmore
    have hskip : skipFlow (close :: rest) = close :: rest :=
      skipFlow_cons (Or.inr (by simp [hclose])) rest
    simp [readFlow, hstart, hskip, markNext, hclose, ofJson, ofItems]
  | cons item items =>
    rw [write_array] at hcells
    obtain ⟨start, more, rfl, hstart, hmore⟩ := List.map_eq_cons_iff.mp hcells
    have hlimit : items.length < (more ++ rest).length := by
      have hlength := congrArg List.length hmore
      have hitems := length_le_writeItems (level + 1) items
      simp only [List.length_map, List.length_append, List.length_singleton] at hlength ⊢
      omega
    have hread := readFlowItems_write hcarries h hmore hline.of_cons hlimit
    obtain ⟨c, tail, hhead, hopens⟩ :=
      opensNode_write (hcarries item List.mem_cons_self) (level + 1)
    obtain ⟨cell, more, rfl, rfl, -⟩ := List.map_eq_cons_iff.mp (hhead ▸ hmore)
    simp only [List.cons_append] at hread ⊢
    have hnext : markNext ']' (cell :: (more ++ rest)) = false :=
      markNext_of_opensNode (by decide) hopens _
    rw [readFlow, if_pos hstart, skipFlow_cons (Or.inl hopens)]
    simp only [hnext, hread]
    rfl

theorem readFlow_object {indent depth : Nat} {members : List (Text × Json)}
    (hcarries : ∀ m ∈ members, IsKey m.1 ∧ Carries depth m.2)
    (h : ∀ m ∈ members, NodeReads (readFlow indent depth) m.2) :
    NodeReads (readFlow indent (depth + 1)) (.object members) := by
  intro level cells rest hcells hline hrest
  cases members with
  | nil =>
    obtain ⟨start, more, rfl, hstart, hmore⟩ := List.map_eq_cons_iff.mp hcells
    obtain ⟨close, rfl, hclose⟩ := List.map_eq_singleton_iff.mp hmore
    have hskip : skipFlow (close :: rest) = close :: rest :=
      skipFlow_cons (Or.inr (by simp [hclose])) rest
    simp [readFlow, hstart, hskip, markNext, hclose, ofJson, ofMembers]
  | cons member members =>
    obtain ⟨name, value⟩ := member
    rw [write_object] at hcells
    obtain ⟨start, more, rfl, hstart, hmore⟩ := List.map_eq_cons_iff.mp hcells
    have hlimit : members.length < (more ++ rest).length := by
      have hlength := congrArg List.length hmore
      have hmembers := length_le_writeMembers (level + 1) members
      simp only [List.length_map, List.length_append, List.length_cons] at hlength ⊢
      omega
    have hread := readFlowEntries_write (keyReads_readFlow indent depth) hcarries h hmore
      hline.of_cons hlimit
    obtain ⟨cell, more, rfl, hcell, -⟩ := List.map_eq_cons_iff.mp hmore
    have hopens : opensNode cell.char := by
      rw [hcell]
      decide
    simp only [List.cons_append] at hread ⊢
    have hnext : markNext '}' (cell :: (more ++ rest)) = false :=
      markNext_of_opensNode (by decide) hopens _
    rw [readFlow, if_neg (by simp [hstart]), if_pos hstart, skipFlow_cons (Or.inl hopens)]
    simp only [hnext, hread]
    rfl

theorem readFlow_leaf {json : Json} (h : Carries 0 json) (indent depth : Nat) :
    NodeReads (readFlow indent depth) json := by
  intro level cells rest hcells _ hrest
  cases json with
  | null =>
    have hword : IsWord "null".toList := isWord_of_all (by decide) (by decide)
    exact hword.readFlow_append hcells hrest indent depth
  | bool value =>
    have hwords : IsWord "true".toList ∧ IsWord "false".toList :=
      ⟨isWord_of_all (by decide) (by decide), isWord_of_all (by decide) (by decide)⟩
    cases value with
    | true => exact hwords.1.readFlow_append hcells hrest indent depth
    | false => exact hwords.2.readFlow_append hcells hrest indent depth
  | number digits => exact (isWord_of_isNumber h).readFlow_append hcells hrest indent depth
  | string text => exact keyReads_readFlow indent depth text cells rest h hcells
  | array items => exact h.elim
  | object members => exact h.elim

/-- What is written for a value is read as the same shape. -/
theorem nodeReads_readFlow (indent : Nat) {depth : Nat} {json : Json} (h : Carries depth json) :
    NodeReads (readFlow indent depth) json := by
  induction depth generalizing json with
  | zero => exact readFlow_leaf h indent 0
  | succ depth ih =>
    cases json with
    | array items => exact readFlow_array h fun i hi => ih (h i hi)
    | object members => exact readFlow_object h fun m hm => ih (h m hm).2
    | _ =>
      refine readFlow_leaf ?_ indent (depth + 1)
      exact h

/-! ## Documents -/

theorem isLineChar_writeItems {level : Nat} {items : List Json}
    (h : ∀ i ∈ items, ∀ c ∈ i.write .compact level, isLineChar c) :
    ∀ c ∈ Json.writeItems .compact level items, isLineChar c := by
  induction items with
  | nil => simp [Json.writeItems]
  | cons item items ih =>
    rw [List.forall_mem_cons] at h
    rw [writeItems_cons, List.forall_mem_cons, List.forall_mem_append]
    exact ⟨by decide, h.1, ih h.2⟩

theorem isLineChar_writeMembers {level : Nat} {members : List (Text × Json)}
    (h : ∀ m ∈ members, (∀ c ∈ m.1, isCarried c) ∧
      ∀ c ∈ m.2.write .compact level, isLineChar c) :
    ∀ c ∈ Json.writeMembers .compact level members, isLineChar c := by
  induction members with
  | nil => simp [Json.writeMembers]
  | cons member members ih =>
    rw [List.forall_mem_cons] at h
    rw [writeMembers_cons, List.forall_mem_cons, List.forall_mem_append, List.forall_mem_cons,
      List.forall_mem_append]
    exact ⟨by decide, isLineChar_quoted h.1.1, by decide, h.1.2, ih h.2⟩

theorem isLineChar_write_leaf {json : Json} (h : Carries 0 json) (level : Nat) :
    ∀ c ∈ json.write .compact level, isLineChar c := by
  cases json with
  | null => exact List.all_eq_true.mp (by decide : "null".toList.all isLineChar)
  | bool value =>
    cases value with
    | true => exact List.all_eq_true.mp (by decide : "true".toList.all isLineChar)
    | false => exact List.all_eq_true.mp (by decide : "false".toList.all isLineChar)
  | number digits => exact fun c hc => isLineChar_of_isWordChar ((isWord_of_isNumber h).all c hc)
  | string text => exact isLineChar_quoted h
  | array items => exact h.elim
  | object members => exact h.elim

theorem isLineChar_write {depth : Nat} {json : Json} (h : Carries depth json) (level : Nat) :
    ∀ c ∈ json.write .compact level, isLineChar c := by
  induction depth generalizing json level with
  | zero => exact isLineChar_write_leaf h level
  | succ depth ih =>
    have hmarks : ∀ c ∈ ['[', ']', '{', '}', ':'], isLineChar c :=
      List.all_eq_true.mp (by decide)
    cases json with
    | array items =>
      cases items with
      | nil => exact List.all_eq_true.mp (by decide : ['[', ']'].all isLineChar)
      | cons item items =>
        have hall := fun i hi => ih (h i hi) (level + 1)
        rw [write_array, List.forall_mem_cons, List.forall_mem_append, List.forall_mem_append,
          List.forall_mem_singleton]
        rw [List.forall_mem_cons] at hall
        exact ⟨hmarks '[' (by simp), hall.1, isLineChar_writeItems hall.2, hmarks ']' (by simp)⟩
    | object members =>
      cases members with
      | nil => exact List.all_eq_true.mp (by decide : ['{', '}'].all isLineChar)
      | cons member members =>
        have hall : ∀ m ∈ member :: members, (∀ c ∈ m.1, isCarried c) ∧
            ∀ c ∈ m.2.write .compact (level + 1), isLineChar c :=
          fun m hm => ⟨(h m hm).1.1, ih (h m hm).2 (level + 1)⟩
        rw [write_object, List.forall_mem_cons, List.forall_mem_append, List.forall_mem_cons,
          List.forall_mem_append, List.forall_mem_append, List.forall_mem_singleton]
        rw [List.forall_mem_cons] at hall
        exact ⟨hmarks '{' (by simp), isLineChar_quoted hall.1.1, hmarks ':' (by simp), hall.1.2,
          isLineChar_writeMembers hall.2, hmarks '}' (by simp)⟩
    | _ =>
      refine isLineChar_write_leaf ?_ level
      exact h

theorem cutAtMarker_of_later {source : Source} (h : ∀ cell ∈ source, 0 < cell.column) :
    cutAtMarker source = (source, []) := by
  induction source with
  | nil => rfl
  | cons cell source ih =>
    rw [List.forall_mem_cons] at h
    have hnone : marker? (cell :: source) = none := by
      unfold marker?
      split
      · rename_i a b c rest heq
        cases heq
        exact if_neg fun hmark => absurd hmark.1 h.1.ne'
      · rfl
    simp [cutAtMarker, hnone, ih h.2]

theorem InLine.column_pos {start : Cell} {source : Source} (h : InLine (start :: source)) :
    ∀ cell ∈ source, 0 < cell.column := by
  intro cell hcell
  obtain ⟨between, rest, rfl⟩ := List.append_of_mem hcell
  have := h.distance.2.2
  omega

theorem skipToNode_of_opens {start : Cell} (hstart : start.char ∈ ['[', '{']) (source : Source) :
    skipToNode (start :: source) = start :: source := by
  have hopens : ∀ c ∈ ['[', '{'], opensNode c := List.all_eq_true.mp (by decide)
  exact skip_cons (Or.inl (hopens start.char hstart)) false false source

/-- A bracket or brace at the start of a text opens its only document. -/
theorem document?_of_opens {start : Cell} {source : Source} (hstart : start.char ∈ ['[', '{'])
    (hline : InLine (start :: source)) :
    document? (start :: source) = some (true, start :: source) := by
  have hskip := skipToNode_of_opens hstart source
  have hnone : marker? (start :: source) = none := by
    unfold marker?
    split
    · rename_i a b c rest heq
      cases heq
      have hdash : start.char ≠ '-' ∧ start.char ≠ '.' := by
        constructor <;> intro hmark <;> simp [hmark] at hstart
      simp [hdash]
    · rfl
  have hcut : cutAtMarker (start :: source) = (start :: source, []) := by
    simp [cutAtMarker, hnone, cutAtMarker_of_later hline.column_pos]
  have hend : onlyStops 1 [] = true := by decide
  simp [document?, hskip, hnone, hcut, hend]

theorem readBlock_flow {start : Cell} (hstart : start.char ∈ ['[', '{']) {source : Source}
    {depth : Nat} {node : Yaml}
    (hread : readFlow 0 (depth + 1) (start :: source) = some (node, [])) :
    readBlock (depth + 1) true 0 (start :: source) = some (node, []) := by
  simp only [List.mem_cons, List.not_mem_nil, or_false] at hstart
  have hdash : isDash (start :: source) = false := by
    rcases hstart with h | h <;> simp [isDash, h]
  have hkey : readKey 0 (start :: source) = none := by
    rcases hstart with h | h <;>
      simp [readKey, takeScalar, takePlain, startsPlain, isIndicator, isFlowMark, h]
  simp [readBlock, hdash, hkey, hstart, hread, endLine?, skipOn, skip]

/-- An array or an object of JSON, written on one line, is read as the document of that shape. -/
theorem read?_print {json : Json} (h : Carries maxDepth json)
    (hopens : ∃ c ∈ ['[', '{'], (json.print .compact).head? = some c) :
    read? (json.print .compact) = some (ofJson json) := by
  have hchars := isLineChar_write h 0
  have hallowed : (json.print .compact).all isAllowed :=
    List.all_eq_true.mpr fun c hc => (isLineChar_iff.mp (hchars c hc)).1
  have hlines : ∀ c ∈ json.print .compact, isLineEnd c = false :=
    fun c hc => (isLineChar_iff.mp (hchars c hc)).2
  have hsame := chars_layOut hlines 0 0 0
  have hline := inLine_layOut hlines 0 0 0
  have hread := nodeReads_readFlow 0 h 0 (layOut 0 0 0 (json.print .compact)) [] hsame
    (by rwa [List.append_nil]) (by simp [Ends])
  rw [List.append_nil] at hread
  obtain ⟨c, hc, hhead⟩ := hopens
  rw [read?, source?, if_pos hallowed]
  generalize layOut 0 0 0 (json.print .compact) = cells at hsame hline hread
  rw [← hsame, chars, List.head?_map] at hhead
  obtain ⟨start, hstart, rfl⟩ := Option.map_eq_some_iff.mp hhead
  obtain ⟨source, rfl⟩ := List.head?_eq_some_iff.mp hstart
  simp [document?_of_opens hc hline, skipToNode_of_opens hc source, readBlock_flow hc hread,
    maxDepth]

end LinkTemplate.Yaml
