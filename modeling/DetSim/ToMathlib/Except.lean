import Mathlib

/-! # Computations that may fail

What a computation in `Except` that returned says about its parts, and the rule of invariants for a fold.
-/

namespace Except

universe u

variable {ε ι : Type*} {α β : Type u}

theorem bind_eq_ok {first : Except ε α} {next : α → Except ε β} {result : β} :
    (first >>= next) = .ok result ↔ ∃ value, first = .ok value ∧ next value = .ok result := by
  cases first <;> simp [bind, Except.bind]

theorem map_eq_ok {γ : Type*} {f : ι → γ} {first : Except ε ι} {result : γ} :
    first.map f = .ok result ↔ ∃ value, first = .ok value ∧ f value = result := by
  cases first <;> simp [Except.map]

/-- A computation whose result passes a check has returned. -/
theorem ok_of_any {check : ι → Bool} {first : Except ε ι} (computed : first.toOption.any check = true) :
    ∃ value, first = .ok value ∧ check value = true := by
  cases first with
  | error message => contradiction
  | ok value => exact ⟨value, rfl, computed⟩

/-- A list of computations returned when each of them did. -/
theorem mapM_eq_ok {f : ι → Except ε β} {items : List ι} {results : List β} (returned : items.mapM f = .ok results) :
    List.Forall₂ (fun item result => f item = .ok result) items results := by
  induction items generalizing results with
  | nil =>
    cases returned
    exact .nil
  | cons item rest ih =>
    rw [List.mapM_cons] at returned
    obtain ⟨result, first, others⟩ := bind_eq_ok.mp returned
    obtain ⟨later, mapped, last⟩ := bind_eq_ok.mp others
    cases last
    exact .cons first (ih mapped)

theorem mapM_getElem? {f : ι → Except ε β} {items : List ι} {results : List β}
    (returned : items.mapM f = .ok results) {index : ℕ} {item : ι} (read : items[index]? = some item) :
    ∃ result, results[index]? = some result ∧ f item = .ok result := by
  have pairs := mapM_eq_ok returned
  obtain ⟨inside, rfl⟩ := List.getElem?_eq_some_iff.mp read
  have also : index < results.length := pairs.length_eq ▸ inside
  exact ⟨results[index], List.getElem?_eq_getElem also, pairs.get inside also⟩

/-- What each step of a fold preserves, the fold preserves. -/
theorem foldlM_invariant {step : β → ι → Except ε β} (invariant : β → Prop) {items : List ι}
    (preserves : ∀ state item next, item ∈ items → invariant state → step state item = .ok next → invariant next)
    {first last : β} (initial : invariant first) (returned : items.foldlM step first = .ok last) : invariant last := by
  induction items generalizing first with
  | nil =>
    cases returned
    exact initial
  | cons item rest ih =>
    rw [List.foldlM_cons] at returned
    obtain ⟨middle, stepped, continued⟩ := bind_eq_ok.mp returned
    exact ih (fun state other next member => preserves state other next (List.mem_cons_of_mem _ member))
      (preserves first item middle List.mem_cons_self initial stepped) continued

/-- A fold over the first numbers, with what holds after each of them. -/
theorem foldlM_range {step : β → ℕ → Except ε β} (reached : ℕ → β → Prop) {count : ℕ} {first last : β}
    (initial : reached 0 first)
    (advances : ∀ index < count, ∀ state next, reached index state → step state index = .ok next → reached (index + 1) next)
    (returned : (List.range count).foldlM step first = .ok last) : reached count last := by
  induction count generalizing last with
  | zero =>
    cases returned
    exact initial
  | succ count ih =>
    rw [List.range_succ, List.foldlM_append] at returned
    obtain ⟨middle, before, stepped⟩ := bind_eq_ok.mp returned
    rw [List.foldlM_cons] at stepped
    obtain ⟨_, stepped, same⟩ := bind_eq_ok.mp stepped
    cases same
    exact advances count (Nat.lt_succ_self count) middle _
      (ih (fun index below => advances index (Nat.lt_succ_of_lt below)) before) stepped

end Except
