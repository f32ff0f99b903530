import DetSim.ToMathlib.TreeMapSum

/-! # Secondary indexes of an ordered map

A secondary index files each key of a map under a slot computed from its value; a tally counts the
values per slot and has no entry for an empty slot. Both are maintained incrementally: before a value
changes its old slot is vacated, afterwards its new slot is entered. The rules below say that these
two half-steps keep an index or a tally exact, so a rewritten entry needs no separate argument.
-/

namespace Std.ExtTreeMap

variable {Slot Key Value : Type*} {slotCmp : Slot → Slot → Ordering} {keyCmp : Key → Key → Ordering}

section Lookup
variable [TransCmp keyCmp] [LawfulEqCmp keyCmp]

theorem getElem?_insertIfNew_eq [DecidableEq Key] (map : ExtTreeMap Key Value keyCmp) (key other : Key)
    (value : Value) : (map.insertIfNew key value)[other]? =
      if key = other ∧ map[key]? = none then some value else map[other]? := by
  rw [getElem?_insertIfNew]
  simp only [LawfulEqCmp.compare_eq_iff_eq, mem_iff_isSome_getElem?, Bool.not_eq_true,
    Option.isSome_eq_false_iff, Option.isNone_iff_eq_none]

theorem insert_erase_self (map : ExtTreeMap Key Value keyCmp) (key : Key) (value : Value) :
    (map.erase key).insert key value = map.insert key value := by
  classical
  apply ext_getElem?
  intro other
  simp only [getElem?_insert_eq, getElem?_erase_eq]
  split_ifs <;> rfl

theorem countValues_of_read (holds : Value → Bool) {map : ExtTreeMap Key Value keyCmp} {key : Key}
    {value : Value} (read : map[key]? = some value) :
    map.countValues holds = (holds value).toNat + (map.erase key).countValues holds :=
  sumBy_of_read _ read

end Lookup

section Index
variable [TransCmp keyCmp] [TransCmp slotCmp]

/-- The index files exactly the keys whose value has a slot, each under its slot. -/
def IsIndex (slot : Value → Option Slot) (map : ExtTreeMap Key Value keyCmp)
    (index : ExtTreeMap Slot Key slotCmp) : Prop :=
  ∀ (place : Slot) (key : Key), index[place]? = some key ↔
    ∃ value, map[key]? = some value ∧ slot value = some place

/-- Take the entry of a vacated slot out of an index. -/
def vacate (index : ExtTreeMap Slot Key slotCmp) : Option Slot → ExtTreeMap Slot Key slotCmp
  | none => index
  | some place => index.erase place

/-- File a key under the slot of its value. -/
def enter (index : ExtTreeMap Slot Key slotCmp) (key : Key) : Option Slot → ExtTreeMap Slot Key slotCmp
  | none => index
  | some place => index.insertIfNew place key

variable [LawfulEqCmp keyCmp] [LawfulEqCmp slotCmp] {slot : Value → Option Slot}
  {map : ExtTreeMap Key Value keyCmp} {index : ExtTreeMap Slot Key slotCmp} {key : Key} {value : Value}

theorem IsIndex.vacate (exact : IsIndex slot map index) (read : map[key]? = some value) :
    IsIndex slot (map.erase key) (index.vacate (slot value)) := by
  classical
  intro place other
  rw [getElem?_erase_eq]
  cases filed : slot value with
  | none =>
    by_cases same : key = other
    · subst same
      simp only [ExtTreeMap.vacate, if_true, reduceCtorEq, false_and, exists_false, iff_false]
      rw [exact]
      rintro ⟨stored, present, placed⟩
      rw [read, Option.some.injEq] at present
      rw [← present, filed] at placed
      contradiction
    · simpa only [ExtTreeMap.vacate, if_neg same] using exact place other
  | some old =>
    simp only [ExtTreeMap.vacate, getElem?_erase_eq]
    have entry := (exact old key).mpr ⟨value, read, filed⟩
    by_cases vacated : old = place
    · subst vacated
      simp only [if_true, reduceCtorEq, false_iff]
      rintro ⟨stored, present, placed⟩
      split at present
      · contradiction
      · next different =>
        have again := (exact old other).mpr ⟨stored, present, placed⟩
        exact different (Option.some.inj (entry.symm.trans again))
    · rw [if_neg vacated, exact]
      by_cases same : key = other
      · subst same
        simp [read, filed, vacated]
      · simp [same]

theorem IsIndex.enter (exact : IsIndex slot map index) (absent : map[key]? = none)
    (fresh : ∀ (other : Key) stored, map[other]? = some stored → slot stored = slot value → slot value = none) :
    IsIndex slot (map.insert key value) (index.enter key (slot value)) := by
  classical
  intro place other
  rw [getElem?_insert_eq]
  cases filed : slot value with
  | none =>
    by_cases same : key = other
    · subst same
      simp only [ExtTreeMap.enter, if_true, Option.some.injEq, exists_eq_left', filed, reduceCtorEq, iff_false]
      rw [exact, absent]
      simp
    · simpa only [ExtTreeMap.enter, if_neg same] using exact place other
  | some new =>
    have empty : index[new]? = none := by
      cases taken : index[new]? with
      | none => rfl
      | some holder =>
        obtain ⟨stored, present, placed⟩ := (exact new holder).mp taken
        have := fresh holder stored present (placed.trans filed.symm)
        simp [filed] at this
    simp only [ExtTreeMap.enter, getElem?_insertIfNew_eq, empty, and_true]
    by_cases entered : new = place
    · subst entered
      by_cases same : key = other
      · simp [same, filed]
      · simp only [if_true, Option.some.injEq, same, if_false, false_iff]
        rw [← exact, empty]
        simp
    · by_cases same : key = other
      · subst same
        simp only [if_true, Option.some.injEq, exists_eq_left', filed, entered, if_false, iff_false]
        rw [exact, absent]
        simp
      · simp only [if_neg entered, if_neg same]
        exact exact place other

end Index

section Tally
variable [TransCmp keyCmp] [TransCmp slotCmp] [DecidableEq Slot]

/-- The tally holds the number of values per slot and omits empty slots. -/
def IsTally (slot : Value → Option Slot) (map : ExtTreeMap Key Value keyCmp)
    (tally : ExtTreeMap Slot ℕ slotCmp) : Prop :=
  ∀ place : Slot, tally[place]? =
    if map.countValues (fun value => decide (slot value = some place)) = 0 then none
    else some (map.countValues fun value => decide (slot value = some place))

/-- Count one value less in a slot, dropping the entry that reaches zero. -/
def uncount (tally : ExtTreeMap Slot ℕ slotCmp) : Option Slot → ExtTreeMap Slot ℕ slotCmp
  | none => tally
  | some place =>
    match tally[place]? with
    | none => tally
    | some count => if count - 1 = 0 then tally.erase place else tally.insert place (count - 1)

/-- Count one value more in a slot. -/
def recount (tally : ExtTreeMap Slot ℕ slotCmp) : Option Slot → ExtTreeMap Slot ℕ slotCmp
  | none => tally
  | some place => tally.insert place (tally.getD place 0 + 1)

variable [LawfulEqCmp keyCmp] [LawfulEqCmp slotCmp] {slot : Value → Option Slot}
  {map : ExtTreeMap Key Value keyCmp} {tally : ExtTreeMap Slot ℕ slotCmp} {key : Key} {value : Value}

theorem IsTally.uncount (exact : IsTally slot map tally) (read : map[key]? = some value) :
    IsTally slot (map.erase key) (tally.uncount (slot value)) := by
  intro place
  have here := exact place
  rw [countValues_of_read _ read] at here
  cases filed : slot value with
  | none => simpa [ExtTreeMap.uncount, filed] using here
  | some old =>
    have there := exact old
    rw [countValues_of_read _ read] at there
    simp only [filed, decide_true, Bool.toNat_true, Nat.add_eq_zero_iff, one_ne_zero, false_and,
      if_false] at there
    simp only [ExtTreeMap.uncount, there, Nat.add_sub_cancel_left]
    by_cases vacated : old = place
    · subst vacated
      split_ifs with empty
      · simp
      · simp
    · have other : ¬some old = some place := by simpa using vacated
      simp only [filed, decide_eq_false other, Bool.toNat_false, Nat.zero_add] at here
      split_ifs at here ⊢ <;> simp [getElem?_erase_eq, getElem?_insert_eq, vacated, here]

theorem IsTally.recount (exact : IsTally slot map tally) (absent : map[key]? = none) :
    IsTally slot (map.insert key value) (tally.recount (slot value)) := by
  intro place
  have here := exact place
  simp only [countValues_insert_of_absent _ absent]
  cases filed : slot value with
  | none => simpa [ExtTreeMap.recount] using here
  | some new =>
    simp only [ExtTreeMap.recount, getElem?_insert_eq]
    by_cases entered : new = place
    · subst entered
      simp only [getD_eq_getD_getElem?, here, if_true, decide_true, Bool.toNat_true]
      split_ifs <;> simp_all
    · have other : ¬some new = some place := by simpa using entered
      simp only [if_neg entered, decide_eq_false other, Bool.toNat_false, Nat.add_zero, here]

end Tally

end Std.ExtTreeMap
