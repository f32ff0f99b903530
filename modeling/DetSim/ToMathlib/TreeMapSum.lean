import Mathlib

/-! # Sums over the values of an ordered map

The standard library describes insertion and deletion of an extensional tree map through lookups
and keys, but not through an aggregate of the stored values. A weighted sum changes by exactly the
difference of the two values at the written key. Counting the values that satisfy a predicate is the
special case of an indicator weight, and is what an incrementally maintained counter has to equal.
-/

namespace Std.ExtTreeMap

variable {α β : Type*} {cmp : α → α → Ordering} [TransCmp cmp] [LawfulEqCmp cmp]

/-- Lookups after an insertion, with the comparison stated as equality of keys. -/
theorem getElem?_insert_eq [DecidableEq α] (map : ExtTreeMap α β cmp) (key other : α) (value : β) :
    (map.insert key value)[other]? = if key = other then some value else map[other]? := by
  rw [getElem?_insert]
  simp only [LawfulEqCmp.compare_eq_iff_eq]

theorem getElem?_erase_eq [DecidableEq α] (map : ExtTreeMap α β cmp) (key other : α) :
    (map.erase key)[other]? = if key = other then none else map[other]? := by
  rw [getElem?_erase]
  simp only [LawfulEqCmp.compare_eq_iff_eq]

theorem insertIfNew_eq_insert {map : ExtTreeMap α β cmp} {key : α} (absent : key ∉ map) (value : β) :
    map.insertIfNew key value = map.insert key value := by
  classical
  refine ext_getElem? fun other => ?_
  rw [getElem?_insertIfNew, getElem?_insert]
  simp [absent]

omit [LawfulEqCmp cmp] in
theorem nodup_toList (map : ExtTreeMap α β cmp) : map.toList.Nodup :=
  (distinct_keys_toList (t := map)).imp fun {first second} different equal =>
    different (by rw [equal]; exact ReflCmp.compare_self)

/-- Up to order, a written map is the new entry followed by the entries at other keys. -/
theorem toList_insert_perm (map : ExtTreeMap α β cmp) (key : α) (value : β) :
    (map.insert key value).toList.Perm ((key, value) :: (map.erase key).toList) := by
  classical
  have absent : (key, value) ∉ (map.erase key).toList := by
    simp [mem_toList_iff_getElem?_eq_some]
  rw [List.perm_ext_iff_of_nodup (nodup_toList _) (List.nodup_cons.mpr ⟨absent, nodup_toList _⟩)]
  rintro ⟨other, read⟩
  simp only [List.mem_cons, mem_toList_iff_getElem?_eq_some, getElem?_insert_eq, getElem?_erase_eq,
    Prod.mk.injEq]
  by_cases same : key = other
  · subst same
    simp [eq_comm]
  · simp [same, Ne.symm same]

/-- The sum of a weight over the values of a map. -/
def sumBy (weight : β → ℕ) (map : ExtTreeMap α β cmp) : ℕ :=
  (map.toList.map fun entry => weight entry.2).sum

theorem sumBy_insert_erase (weight : β → ℕ) (map : ExtTreeMap α β cmp) (key : α) (value : β) :
    (map.insert key value).sumBy weight = weight value + (map.erase key).sumBy weight := by
  rw [sumBy, ((toList_insert_perm map key value).map _).sum_eq]
  rfl

/-- Reading an entry splits its weight off the sum. -/
theorem sumBy_of_read (weight : β → ℕ) {map : ExtTreeMap α β cmp} {key : α} {value : β}
    (read : map[key]? = some value) :
    map.sumBy weight = weight value + (map.erase key).sumBy weight := by
  classical
  have unchanged : map.insert key value = map := by
    apply ext_getElem?
    intro other
    rw [getElem?_insert_eq]
    split_ifs with same
    · rw [← same, read]
    · rfl
  calc map.sumBy weight = (map.insert key value).sumBy weight := by rw [unchanged]
    _ = weight value + (map.erase key).sumBy weight := sumBy_insert_erase ..

theorem sumBy_insert_of_absent (weight : β → ℕ) {map : ExtTreeMap α β cmp} {key : α}
    (absent : map[key]? = none) (value : β) :
    (map.insert key value).sumBy weight = map.sumBy weight + weight value := by
  classical
  have unchanged : map.erase key = map := by
    apply ext_getElem?
    intro other
    rw [getElem?_erase_eq]
    split_ifs with same
    · rw [← same, absent]
    · rfl
  rw [sumBy_insert_erase, unchanged, Nat.add_comm]

/-- Overwriting an entry exchanges its weight for the new one. -/
theorem sumBy_insert_of_read (weight : β → ℕ) {map : ExtTreeMap α β cmp} {key : α} {value : β}
    (read : map[key]? = some value) (next : β) :
    (map.insert key next).sumBy weight + weight value = map.sumBy weight + weight next := by
  rw [sumBy_insert_erase, sumBy_of_read weight read]
  omega

theorem weight_le_sumBy (weight : β → ℕ) {map : ExtTreeMap α β cmp} {key : α} {value : β}
    (read : map[key]? = some value) : weight value ≤ map.sumBy weight := by
  rw [sumBy_of_read weight read]
  omega

omit [LawfulEqCmp cmp] in
@[simp] theorem sumBy_empty (weight : β → ℕ) : (∅ : ExtTreeMap α β cmp).sumBy weight = 0 := by
  rw [sumBy, toList_eq_nil_iff.mpr rfl]
  rfl

/-- How many values of a map satisfy a predicate. -/
def countValues (holds : β → Bool) (map : ExtTreeMap α β cmp) : ℕ :=
  map.sumBy fun value => (holds value).toNat

theorem countValues_insert_of_absent (holds : β → Bool) {map : ExtTreeMap α β cmp} {key : α}
    (absent : map[key]? = none) (value : β) :
    (map.insert key value).countValues holds = map.countValues holds + (holds value).toNat :=
  sumBy_insert_of_absent _ absent value

theorem countValues_insert_of_read (holds : β → Bool) {map : ExtTreeMap α β cmp} {key : α}
    {value : β} (read : map[key]? = some value) (next : β) :
    (map.insert key next).countValues holds + (holds value).toNat =
      map.countValues holds + (holds next).toNat :=
  sumBy_insert_of_read _ read next

/-- A count is zero exactly when no stored value satisfies the predicate. -/
theorem countValues_eq_zero_iff (holds : β → Bool) (map : ExtTreeMap α β cmp) :
    map.countValues holds = 0 ↔ ∀ (key : α) value, map[key]? = some value → holds value = false := by
  simp only [countValues, sumBy, List.sum_eq_zero_iff, List.mem_map, Prod.exists,
    mem_toList_iff_getElem?_eq_some]
  constructor
  · intro zero key value read
    simpa using zero _ ⟨key, value, read, rfl⟩
  · rintro none weight ⟨key, value, read, rfl⟩
    simp [none key value read]

omit [LawfulEqCmp cmp] in
@[simp] theorem countValues_empty (holds : β → Bool) :
    (∅ : ExtTreeMap α β cmp).countValues holds = 0 := sumBy_empty _

end Std.ExtTreeMap
