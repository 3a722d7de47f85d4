import Mathlib.Data.List.Forall2
import Mathlib.Tactic.Tauto
import LinkTemplate.Text
/-!
# Outcomes and texts

What the proofs need to know of outcomes and of texts in general: texts without braces, a mark at
the end of a text, and pieces with marks between them.
-/

namespace LinkTemplate

/-! ## Outcomes -/

theorem mapError_eq_ok {α ε ε' : Type} {f : ε → ε'} {outcome : Except ε α} {a : α} :
    outcome.mapError f = .ok a ↔ outcome = .ok a := by
  cases outcome <;> simp [Except.mapError]

theorem map_eq_ok {α β ε : Type} {f : α → β} {outcome : Except ε α} {b : β} :
    outcome.map f = .ok b ↔ ∃ a, outcome = .ok a ∧ f a = b := by
  cases outcome <;> simp [Except.map]

theorem map_eq_error {α β ε : Type} {f : α → β} {outcome : Except ε α} {e : ε} :
    outcome.map f = .error e ↔ outcome = .error e := by
  cases outcome <;> simp [Except.map]

theorem mapM_eq_some_iff {α β : Type} {f : α → Option β} {as : List α} {bs : List β} :
    as.mapM f = some bs ↔ List.Forall₂ (fun a b => f a = some b) as bs := by
  induction as generalizing bs with
  | nil => simp [eq_comm]
  | cons a as ih =>
    rw [List.forall₂_cons_left_iff, List.mapM_cons]
    simp [Option.bind_eq_some_iff, ih, eq_comm (b := bs)]

/-! ## Lists side by side -/

theorem exists_forall₂ {α β : Type} {R : β → α → Prop} {as : List α}
    (h : ∀ a ∈ as, ∃ b, R b a) : ∃ bs, List.Forall₂ R bs as := by
  induction as with
  | nil => exact ⟨[], .nil⟩
  | cons a as ih =>
    obtain ⟨b, hb⟩ := h a List.mem_cons_self
    obtain ⟨bs, hbs⟩ := ih fun c hc => h c (List.mem_cons_of_mem _ hc)
    exact ⟨b :: bs, .cons hb hbs⟩

theorem exists_mem_of_forall₂ {α β : Type} {R : α → β → Prop} {as : List α} {bs : List β}
    (h : List.Forall₂ R as bs) {b : β} (hb : b ∈ bs) : ∃ a ∈ as, R a b := by
  induction h with
  | nil => simp at hb
  | cons hR _ ih =>
    rcases List.mem_cons.mp hb with rfl | hb
    · exact ⟨_, List.mem_cons_self, hR⟩
    · obtain ⟨a, ha, hab⟩ := ih hb
      exact ⟨a, List.mem_cons_of_mem _ ha, hab⟩

theorem forall₂_eq_map_iff {α β : Type} {write : β → α} {as : List α} {bs : List β} :
    List.Forall₂ (fun a b => a = write b) as bs ↔ as = bs.map write := by
  rw [← List.forall₂_map_right_iff, List.forall₂_eq_eq_eq]

theorem exists_eq_map {α β : Type} {write : β → α} {as : List α}
    (h : ∀ a ∈ as, ∃ b, a = write b) : ∃ bs : List β, as = bs.map write := by
  obtain ⟨bs, hbs⟩ := exists_forall₂ h
  exact ⟨bs, forall₂_eq_map_iff.mp hbs.flip⟩

theorem map_eq_of_forall₂ {α β γ : Type} {r : α → β → Prop} {f : α → γ} {g : β → γ} {as : List α}
    {bs : List β} (h : List.Forall₂ r as bs) (hsame : ∀ a ∈ as, ∀ b, r a b → g b = f a) :
    bs.map g = as.map f := by
  induction h with
  | nil => rfl
  | cons hab _ ih =>
    rw [List.forall_mem_cons] at hsame
    rw [List.map_cons, List.map_cons, hsame.1 _ hab, ih hsame.2]

theorem mapM_eq_some_iff_eq_map {α β : Type} {read : α → Option β} {write : β → α}
    (h : ∀ a b, read a = some b ↔ a = write b) {as : List α} {bs : List β} :
    as.mapM read = some bs ↔ as = bs.map write := by
  rw [mapM_eq_some_iff, ← forall₂_eq_map_iff]
  simp only [h]

/-- What is written item by item is read item by item. -/
theorem mapM_map_eq_some {α β : Type} {read : α → Option β} {write : β → α}
    (h : ∀ b, read (write b) = some b) (bs : List β) : (bs.map write).mapM read = some bs := by
  rw [mapM_eq_some_iff, List.forall₂_map_left_iff, List.forall₂_same]
  exact fun b _ => h b

/-! ## Texts without braces -/

namespace Text

def BraceFree (text : Text) : Prop := '{' ∉ text ∧ '}' ∉ text

/-- The text is over or goes on with a brace. -/
def AtBrace (text : Text) : Prop :=
  text = [] ∨ ∃ rest, text = '{' :: rest ∨ text = '}' :: rest

@[simp] theorem braceFree_nil : BraceFree [] := by simp [BraceFree]

@[simp] theorem braceFree_cons {c : Char} {text : Text} :
    BraceFree (c :: text) ↔ (c ≠ '{' ∧ c ≠ '}') ∧ BraceFree text := by
  simp only [BraceFree, List.mem_cons, not_or, ne_comm (a := c)]
  tauto

@[simp] theorem braceFree_append {s t : Text} :
    BraceFree (s ++ t) ↔ BraceFree s ∧ BraceFree t := by
  simp only [BraceFree, List.mem_append, not_or]
  tauto

theorem BraceFree.of_subset {s t : Text} (h : BraceFree t) (hs : s ⊆ t) : BraceFree s :=
  ⟨fun hmem => h.1 (hs hmem), fun hmem => h.2 (hs hmem)⟩

theorem atBrace_nil : AtBrace [] := Or.inl rfl

theorem atBrace_opening (rest : Text) : AtBrace ('{' :: rest) := Or.inr ⟨rest, Or.inl rfl⟩

theorem atBrace_closing (rest : Text) : AtBrace ('}' :: rest) := Or.inr ⟨rest, Or.inr rfl⟩

theorem first_brace_unique {s t u v : Text} {c d : Char} (hs : BraceFree s) (ht : BraceFree t)
    (hc : c = '{' ∨ c = '}') (hd : d = '{' ∨ d = '}') (h : s ++ c :: u = t ++ d :: v) :
    s = t ∧ c = d ∧ u = v := by
  induction s generalizing t with
  | nil =>
    cases t with
    | nil => simpa using h
    | cons x t =>
      simp only [List.nil_append, List.cons_append, List.cons.injEq] at h
      obtain ⟨rfl, -⟩ := h
      rw [braceFree_cons] at ht
      rcases hc with rfl | rfl
      · exact absurd rfl ht.1.1
      · exact absurd rfl ht.1.2
  | cons x s ih =>
    rw [braceFree_cons] at hs
    cases t with
    | nil =>
      simp only [List.nil_append, List.cons_append, List.cons.injEq] at h
      obtain ⟨rfl, -⟩ := h
      rcases hd with rfl | rfl
      · exact absurd rfl hs.1.1
      · exact absurd rfl hs.1.2
    | cons y t =>
      rw [braceFree_cons] at ht
      simp only [List.cons_append, List.cons.injEq] at h
      obtain ⟨rfl, h⟩ := h
      obtain ⟨rfl, rfl, rfl⟩ := ih hs.2 ht.2 h
      exact ⟨rfl, rfl, rfl⟩

theorem AtBrace.of_append {s t : Text} (h : AtBrace (s ++ t)) : AtBrace s := by
  cases s with
  | nil => exact atBrace_nil
  | cons c s =>
    obtain h | ⟨rest, h | h⟩ := h
    · simp at h
    all_goals
      simp only [List.cons_append, List.cons.injEq] at h
      obtain ⟨rfl, -⟩ := h
      exact Or.inr ⟨s, by simp⟩

theorem BraceFree.not_atBrace {s : Text} (h : BraceFree s) (hne : s ≠ []) (t : Text) :
    ¬ AtBrace (s ++ t) := by
  intro hbrace
  rcases hbrace.of_append with rfl | ⟨rest, rfl | rfl⟩
  · exact hne rfl
  all_goals simp at h

theorem AtBrace.append {s t : Text} (hs : AtBrace s) (ht : AtBrace t) : AtBrace (s ++ t) := by
  rcases hs with rfl | ⟨rest, rfl | rfl⟩
  · exact ht
  · exact atBrace_opening _
  · exact atBrace_closing _

theorem AtBrace.append_of_ne_nil {s : Text} (hs : AtBrace s) (hne : s ≠ []) (t : Text) :
    AtBrace (s ++ t) := by
  rcases hs with rfl | ⟨rest, rfl | rfl⟩
  · exact absurd rfl hne
  · exact atBrace_opening _
  · exact atBrace_closing _

theorem exists_first_brace (text : Text) :
    ∃ before rest, text = before ++ rest ∧ BraceFree before ∧ AtBrace rest := by
  induction text with
  | nil => exact ⟨[], [], rfl, braceFree_nil, atBrace_nil⟩
  | cons c text ih =>
    by_cases h : c ≠ '{' ∧ c ≠ '}'
    · obtain ⟨before, rest, rfl, hbefore, hrest⟩ := ih
      exact ⟨c :: before, rest, rfl, braceFree_cons.mpr ⟨h, hbefore⟩, hrest⟩
    · refine ⟨[], c :: text, rfl, braceFree_nil, Or.inr ⟨text, ?_⟩⟩
      simp only [List.cons.injEq, and_true]
      tauto

/-- A text without braces, up to the end or to a brace, is as long as it can be. -/
theorem braceFree_append_unique {s t u v : Text} (hs : BraceFree s) (ht : BraceFree t)
    (hu : AtBrace u) (hv : AtBrace v) (h : s ++ u = t ++ v) : s = t ∧ u = v := by
  -- A text with nothing after it has no brace, so the other one has nothing after it either.
  have nothing : ∀ {s t v : Text}, BraceFree s → AtBrace v → s = t ++ v → v = [] := by
    rintro s t v hs (rfl | ⟨rest, rfl | rfl⟩) rfl
    · rfl
    all_goals simp at hs
  rcases hu with rfl | ⟨u, rfl | rfl⟩
  · rw [List.append_nil] at h
    obtain rfl := nothing hs hv h
    simpa using h
  all_goals
    rcases hv with rfl | ⟨v, rfl | rfl⟩
    · rw [List.append_nil] at h
      simp [← h] at ht
    all_goals
      obtain ⟨rfl, hc, rfl⟩ := first_brace_unique hs ht (by simp) (by simp) h
      simp_all

theorem head?_of_prefix {s t : Text} {c : Char} (h : s <+: t) (hc : s.head? = some c) :
    t.head? = some c := by
  obtain ⟨rest, rfl⟩ := h
  simp [hc]

/-! ## A mark at its first place and at the end -/

/-- A text up to a mark is cut there or before. -/
theorem prefix_of_cut? {mark : Char} {text rest before after : Text}
    (h : cut? mark (text ++ mark :: rest) = some (before, after)) : before <+: text := by
  obtain ⟨htext, hmark⟩ := eq_append_of_cut? h
  rcases List.append_eq_append_iff.mp htext with ⟨more, rfl, hmore⟩ | ⟨more, rfl, -⟩
  · cases more with
    | nil => simp
    | cons c more =>
      obtain ⟨rfl, -⟩ := List.cons_eq_cons.mp hmore
      simp at hmark
  · exact List.prefix_append before more

theorem dropEnd_eq_true_iff {mark : Char} {text body : Text} :
    dropEnd mark text = (body, true) ↔ text = body ++ [mark] := by
  unfold dropEnd
  split
  · rename_i h
    obtain ⟨start, rfl⟩ := List.getLast?_eq_some_iff.mp h
    simp
  · rename_i h
    simp only [Prod.mk.injEq, Bool.false_eq_true, and_false, false_iff]
    rintro rfl
    simp at h

theorem dropEnd_eq_false_iff {mark : Char} {text body : Text} :
    dropEnd mark text = (body, false) ↔ text = body ∧ text.getLast? ≠ some mark := by
  unfold dropEnd
  split <;> simp_all

theorem prefix_of_dropEnd {mark : Char} {text body : Text} {found : Bool}
    (h : dropEnd mark text = (body, found)) : body <+: text := by
  cases found with
  | true =>
    obtain rfl := dropEnd_eq_true_iff.mp h
    exact List.prefix_append body [mark]
  | false =>
    obtain ⟨rfl, -⟩ := dropEnd_eq_false_iff.mp h
    exact List.prefix_rfl

/-! ## Pieces with marks between them -/

theorem mem_splitOn {mark : Char} {text piece : Text} (h : piece ∈ text.splitOn mark) :
    mark ∉ piece ∧ piece ⊆ text := by
  induction text generalizing piece with
  | nil =>
    obtain rfl : piece = [] := by simpa using h
    simp
  | cons c text ih =>
    rw [List.splitOn_cons_eq_if_modifyHead] at h
    split at h
    · rcases List.mem_cons.mp h with rfl | h
      · simp
      · exact ⟨(ih h).1, List.subset_cons_of_subset _ (ih h).2⟩
    · rename_i hc
      obtain ⟨first, more, hsplit⟩ :=
        List.exists_cons_of_ne_nil (List.splitOn_ne_nil mark text)
      simp only [hsplit] at ih h
      rcases List.mem_cons.mp h with rfl | h
      · obtain ⟨hmark, hsub⟩ := ih List.mem_cons_self
        refine ⟨?_, List.cons_subset_cons c hsub⟩
        simp only [List.mem_cons, not_or]
        exact ⟨fun h => hc (by simp [h]), hmark⟩
      · obtain ⟨hmark, hsub⟩ := ih (List.mem_cons_of_mem _ h)
        exact ⟨hmark, List.subset_cons_of_subset _ hsub⟩

theorem prefix_of_splitOn {mark : Char} {text first : Text} {more : List Text}
    (h : text.splitOn mark = first :: more) : first <+: text := by
  have hjoin : [mark].intercalate (text.splitOn mark) = text := List.intercalate_splitOn mark
  rw [← hjoin, h]
  cases more with
  | nil => simp
  | cons second more =>
    rw [List.intercalate_cons_cons, List.append_assoc]
    exact List.prefix_append first _

theorem intercalate_cons {mark : Char} {piece : Text} {pieces : List Text} :
    [mark].intercalate (piece :: pieces) = piece ++ pieces.flatMap (mark :: ·) := by
  induction pieces generalizing piece with
  | nil => simp
  | cons next pieces ih => simp [ih]

theorem intercalate_append_cons {mark : Char} {before after : List Text} {piece : Text} :
    [mark].intercalate (before ++ piece :: after) =
      before.flatMap (· ++ [mark]) ++ (piece ++ after.flatMap (mark :: ·)) := by
  induction before with
  | nil => simp [intercalate_cons]
  | cons first before ih =>
    rw [List.cons_append, List.intercalate_cons_of_ne_nil (by simp), ih]
    simp

theorem mem_intercalate {mark c : Char} {pieces : List Text}
    (h : c ∈ [mark].intercalate pieces) : c = mark ∨ ∃ piece ∈ pieces, c ∈ piece := by
  induction pieces with
  | nil => simp at h
  | cons piece pieces ih =>
    cases pieces with
    | nil =>
      rw [List.intercalate_singleton] at h
      exact Or.inr ⟨piece, List.mem_cons_self, h⟩
    | cons next pieces =>
      rw [List.intercalate_cons_cons, List.mem_append, List.mem_append, List.mem_singleton] at h
      rcases h with (h | h) | h
      · exact Or.inr ⟨piece, List.mem_cons_self, h⟩
      · exact Or.inl h
      · obtain hmark | ⟨piece', hmem, hc⟩ := ih h
        · exact Or.inl hmark
        · exact Or.inr ⟨piece', List.mem_cons_of_mem _ hmem, hc⟩

theorem mem_intercalate_of_mem {mark c : Char} {pieces : List Text} {piece : Text}
    (h : piece ∈ pieces) (hc : c ∈ piece) : c ∈ [mark].intercalate pieces := by
  induction pieces with
  | nil => simp at h
  | cons first pieces ih =>
    rcases List.mem_cons.mp h with rfl | h
    · simp [intercalate_cons, hc]
    · have hmore := ih h
      rw [List.intercalate_cons_of_ne_nil (List.ne_nil_of_mem h)]
      exact List.mem_append_right _ hmore

theorem braceFree_intercalate {pieces : List Text} (h : ∀ piece ∈ pieces, BraceFree piece) :
    BraceFree ([','].intercalate pieces) := by
  refine ⟨fun hmem => ?_, fun hmem => ?_⟩
  · obtain hcomma | ⟨piece, hpiece, hmem⟩ := mem_intercalate hmem
    · cases hcomma
    · exact (h piece hpiece).1 hmem
  · obtain hcomma | ⟨piece, hpiece, hmem⟩ := mem_intercalate hmem
    · cases hcomma
    · exact (h piece hpiece).2 hmem

theorem intercalate_append {mark : Char} {pieces more : List Text} (h : pieces ≠ [])
    (h' : more ≠ []) :
    [mark].intercalate (pieces ++ more) =
      [mark].intercalate pieces ++ mark :: [mark].intercalate more := by
  obtain ⟨piece, pieces, rfl⟩ := List.exists_cons_of_ne_nil h
  obtain ⟨next, more, rfl⟩ := List.exists_cons_of_ne_nil h'
  simp [intercalate_cons]

/-- Joined pieces that stand among others may as well be joined with them. -/
theorem intercalate_joined {mark : Char} {before group after : List Text} (h : group ≠ []) :
    [mark].intercalate (before ++ [mark].intercalate group :: after) =
      [mark].intercalate (before ++ (group ++ after)) := by
  have hgroup : [mark].intercalate ([mark].intercalate group :: after) =
      [mark].intercalate (group ++ after) := by
    obtain ⟨piece, group, rfl⟩ := List.exists_cons_of_ne_nil h
    simp [intercalate_cons]
  by_cases hbefore : before = []
  · rw [hbefore, List.nil_append, List.nil_append, hgroup]
  · rw [intercalate_append hbefore (List.cons_ne_nil _ _), hgroup,
      intercalate_append hbefore (List.append_ne_nil_of_left_ne_nil h after)]

theorem length_splitOn {mark : Char} {text : Text} :
    (text.splitOn mark).length = text.count mark + 1 := by
  induction text with
  | nil => simp
  | cons c text ih =>
    rw [List.splitOn_cons_eq_if_modifyHead, List.count_cons]
    split <;> simp_all

theorem count_intercalate {mark : Char} {pieces : List Text} (h : pieces ≠ []) :
    ([mark].intercalate pieces).count mark + 1 = pieces.length + pieces.flatten.count mark := by
  obtain ⟨piece, pieces, rfl⟩ := List.exists_cons_of_ne_nil h
  rw [intercalate_cons, List.count_append]
  induction pieces with
  | nil =>
    simp
    omega
  | cons next pieces ih =>
    simp at ih ⊢
    omega

/-- A mark inside a piece is one place more to split at. -/
theorem not_mem_of_length_splitOn {mark : Char} {pieces : List Text} (h : pieces ≠ [])
    (hlength : (([mark].intercalate pieces).splitOn mark).length = pieces.length) :
    ∀ piece ∈ pieces, mark ∉ piece := by
  rw [length_splitOn, count_intercalate h] at hlength
  have hcount : pieces.flatten.count mark = 0 := by omega
  rw [List.count_eq_zero] at hcount
  exact fun piece hpiece hmark => hcount (List.mem_flatten_of_mem hpiece hmark)

/-- Joining the joined groups is joining all of them, where an empty group is left out. -/
theorem intercalate_flatMap {α : Type} {mark : Char} {joined : α → Option Text}
    {group : α → List Text} {as : List α}
    (h : ∀ a ∈ as, joined a = if group a = [] then none else some ([mark].intercalate (group a))) :
    (as.filterMap joined = [] ↔ as.flatMap group = []) ∧
      [mark].intercalate (as.filterMap joined) = [mark].intercalate (as.flatMap group) := by
  induction as with
  | nil => simp
  | cons a as ih =>
    obtain ⟨hnil, hjoin⟩ := ih fun b hb => h b (List.mem_cons_of_mem _ hb)
    have ha := h a List.mem_cons_self
    by_cases hgroup : group a = []
    · rw [if_pos hgroup] at ha
      simpa [ha, hgroup] using And.intro hnil hjoin
    · rw [if_neg hgroup] at ha
      simp only [List.filterMap_cons, ha, List.flatMap_cons]
      refine ⟨by simp [hgroup], ?_⟩
      by_cases hmore : as.flatMap group = []
      · simp [hnil.mpr hmore, hmore]
      · rw [intercalate_append hgroup hmore, ← hjoin,
          List.intercalate_cons_of_ne_nil (mt hnil.mp hmore)]
        simp

end Text

end LinkTemplate
