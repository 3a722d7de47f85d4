import LinkTemplate.Expansion
import LinkTemplate.Proofs.Basics
/-!
# Items that are cut

A list in one piece is written item by item, and each item is measured against a limit together
with all that stands before it, be it cut or not. Which items are cut can be told from the uncut
ones alone: up to the limit the two are the same, and past it nothing is undone.
-/

namespace LinkTemplate.Slot

/-- The items with commas between them, none of them cut. -/
def joined (slot : Slot) (items : List Text) : Text := [','].intercalate (items.map slot.encode)

/-- How many items are written whole: as many as it takes to get past the limit. -/
def uncut (slot : Slot) (items : List Text) : Nat :=
  (List.range items.length).findIdx fun i => slot.truncate < (slot.joined (items.take i)).length

/-- The items encoded, the first `count` of them whole and the others cut. -/
def cutAfter (slot : Slot) (count : Nat) (items : List Text) : List Text :=
  (items.take count).map slot.encode ++
    (items.drop count).map fun item => slot.encode (item.take slot.truncate)

@[simp] theorem cutAfter_zero_cons (slot : Slot) (item : Text) (items : List Text) :
    slot.cutAfter 0 (item :: items) =
      slot.encode (item.take slot.truncate) :: slot.cutAfter 0 items := rfl

@[simp] theorem cutAfter_succ_cons (slot : Slot) (count : Nat) (item : Text) (items : List Text) :
    slot.cutAfter (count + 1) (item :: items) =
      slot.encode item :: slot.cutAfter count items := rfl

/-! ## How the joined text grows -/

theorem joined_singleton (slot : Slot) (item : Text) : slot.joined [item] = slot.encode item := by
  simp [joined]

theorem joined_append {slot : Slot} {before more : List Text} (h : before ≠ []) (h' : more ≠ []) :
    slot.joined (before ++ more) = slot.joined before ++ ',' :: slot.joined more := by
  unfold joined
  rw [List.map_append]
  exact Text.intercalate_append (by simpa using h) (by simpa using h')

theorem length_joined_concat {slot : Slot} {before : List Text} (h : before ≠ []) (item : Text) :
    (slot.joined (before ++ [item])).length =
      (slot.joined before).length + 1 + (slot.encode item).length := by
  rw [joined_append h (List.cons_ne_nil item []), joined_singleton, List.length_append,
    List.length_cons]
  omega

theorem length_joined_append_le (slot : Slot) (before more : List Text) :
    (slot.joined before).length ≤ (slot.joined (before ++ more)).length := by
  by_cases h : before = []
  · simp [h, joined]
  by_cases h' : more = []
  · simp [h']
  rw [joined_append h h', List.length_append]
  omega

theorem length_joined_take_le (slot : Slot) (items : List Text) {i j : Nat} (h : i ≤ j) :
    (slot.joined (items.take i)).length ≤ (slot.joined (items.take j)).length := by
  obtain ⟨more, hmore⟩ := List.take_prefix_take_left h (l := items)
  rw [← hmore]
  exact slot.length_joined_append_le _ more

/-! ## Which items are whole -/

theorem uncut_le (slot : Slot) (items : List Text) : slot.uncut items ≤ items.length := by
  have hle : slot.uncut items ≤ (List.range items.length).length := List.findIdx_le_length
  rwa [List.length_range] at hle

theorem lt_uncut_iff (slot : Slot) {items : List Text} {i : Nat} (hi : i < items.length) :
    i < slot.uncut items ↔ (slot.joined (items.take i)).length ≤ slot.truncate := by
  unfold uncut
  rw [List.lt_findIdx_iff]
  simp only [List.length_range, List.getElem_range, decide_eq_false_iff_not, Nat.not_lt]
  constructor
  · rintro ⟨-, h⟩
    exact h i (Nat.le_refl i)
  · exact fun h => ⟨hi, fun j hj => Nat.le_trans (slot.length_joined_take_le items hj) h⟩

theorem uncut_pos (slot : Slot) {items : List Text} (h : items ≠ []) : 0 < slot.uncut items := by
  rw [slot.lt_uncut_iff (List.length_pos_iff.mpr h)]
  simp [joined]

/-! ## The items as they are written -/

variable {slot : Slot}

theorem joinMore_past (hlimit : 0 < slot.truncate) {written : Nat} (h : slot.truncate < written)
    (items : List Text) :
    slot.joinMore written items = (slot.cutAfter 0 items).flatMap (',' :: ·) := by
  induction items generalizing written with
  | nil => rfl
  | cons item items ih =>
    have hcut : cut slot.truncate item = item.take slot.truncate := by
      unfold cut
      rw [if_neg (by omega)]
    simp only [joinMore, if_pos h]
    rw [hcut, ih (by omega), cutAfter_zero_cons, List.flatMap_cons]

/-- What is written after `before` is cut where the uncut items are past the limit. -/
theorem joinMore_eq (hlimit : 0 < slot.truncate) {before items : List Text} {k : Nat}
    (hbefore : before ≠ [])
    (hk : ∀ i < items.length,
      i < k ↔ (slot.joined (before ++ items.take i)).length ≤ slot.truncate) :
    slot.joinMore (slot.joined before).length items =
      (slot.cutAfter k items).flatMap (',' :: ·) := by
  induction items generalizing before k with
  | nil => simp [joinMore, cutAfter]
  | cons item items ih =>
    have hfirst := hk 0 (by simp)
    rw [List.take_zero, List.append_nil] at hfirst
    cases k with
    | zero => exact joinMore_past hlimit (by omega) _
    | succ k =>
      have hwithin : ¬ slot.truncate < (slot.joined before).length := by omega
      have hmore := @ih (before ++ [item]) k (by simp) fun i hi => by
        have hnext := hk (i + 1) (by simpa using hi)
        rw [List.take_succ_cons, List.append_cons] at hnext
        rw [← hnext]
        omega
      rw [length_joined_concat hbefore] at hmore
      simp only [joinMore, if_neg hwithin]
      rw [hmore, cutAfter_succ_cons, List.flatMap_cons]

theorem joinItems_eq_cutAfter (hlimit : 0 < slot.truncate) (items : List Text) :
    slot.joinItems items = [','].intercalate (slot.cutAfter (slot.uncut items) items) := by
  cases items with
  | nil => simp [joinItems, cutAfter]
  | cons item items =>
    obtain ⟨k, hk⟩ := Nat.exists_eq_add_of_lt (slot.uncut_pos (List.cons_ne_nil item items))
    rw [Nat.zero_add] at hk
    have hnext : ∀ i < items.length,
        i < k ↔ (slot.joined ([item] ++ items.take i)).length ≤ slot.truncate := fun i hi => by
      have hi : i + 1 < (item :: items).length := by simpa using hi
      rw [List.singleton_append, ← List.take_succ_cons, ← slot.lt_uncut_iff hi, hk]
      omega
    have hmore := joinMore_eq hlimit (List.cons_ne_nil item []) hnext
    rw [joined_singleton] at hmore
    rw [joinItems, hmore, hk, cutAfter_succ_cons, Text.intercalate_cons]

/-- The items up to the limit are whole and the others are cut, so the first one is never cut, and
after a cut one there is no whole one. -/
theorem items_cut_past_limit (slot : Slot) (items : List Text) (hexplode : slot.explode = false)
    (hlimit : 0 < slot.truncate) :
    let k := slot.uncut items
    k ≤ items.length ∧
      (∀ i < items.length, i < k ↔ (slot.joined (items.take i)).length ≤ slot.truncate) ∧
      (items ≠ [] → 0 < k) ∧
      slot.expandList items =
        slot.label ([','].intercalate ((items.take k).map slot.encode ++
          (items.drop k).map fun item => slot.encode (item.take slot.truncate))) := by
  refine ⟨slot.uncut_le items, fun i hi => slot.lt_uncut_iff hi, slot.uncut_pos, ?_⟩
  unfold expandList
  rw [hexplode, if_neg Bool.false_ne_true, joinItems_eq_cutAfter hlimit]
  rfl

theorem items_cut_past_limit_of_four :
    let slot := Slot.ofTerm .query ⟨['l'], false, 4⟩
    let items : List Text :=
      ["ab".toList, ['c'], "éxyzw".toList, [], "fghij".toList]
    slot.explode = false ∧ 0 < slot.truncate ∧ slot.uncut items = 3 ∧
      slot.expandList items = "l=ab,c,%C3%A9xyzw,,fghi".toList ∧
      slot.expandList items =
        slot.label ([','].intercalate ((items.take 3).map slot.encode ++
          (items.drop 3).map fun item => slot.encode (item.take slot.truncate))) := by
  intro slot items
  have hlimit : 0 < slot.truncate := by decide
  have huncut : slot.uncut items = 3 := by decide +kernel
  obtain ⟨-, -, -, hlist⟩ := items_cut_past_limit slot items rfl hlimit
  rw [huncut] at hlist
  refine ⟨rfl, hlimit, huncut, ?_, hlist⟩
  rw [hlist]
  decide +kernel

end LinkTemplate.Slot
