import Mathlib

/-! # Distances from weighted roots

Mathlib has reflexive-transitive closures and graph distances from one vertex, but no distance from a
set of roots that already carry a depth. `Reached` collects the depths at which an element is reached.
A labelling that is attained, covers the roots and is relaxed along every step below a bound is
exactly the truncated distance. This is the certificate label-correcting searches end with.
-/

namespace Relation

variable {α : Type*}

/-- `a` is reached at depth `n`: a root of some depth, then one unit per step. -/
inductive Reached (step : α → α → Prop) (roots : Set (α × ℕ)) : α → ℕ → Prop
  | root {a : α} {n : ℕ} (member : (a, n) ∈ roots) : Reached step roots a n
  | next {a b : α} {n : ℕ} (prior : Reached step roots a n) (edge : step a b) : Reached step roots b (n + 1)

variable {step : α → α → Prop} {roots : Set (α × ℕ)}

theorem Reached.mono {more : Set (α × ℕ)} (subset : roots ⊆ more) {a : α} {n : ℕ}
    (reached : Reached step roots a n) : Reached step more a n := by
  induction reached with
  | root member => exact .root (subset member)
  | next _ edge ih => exact .next ih edge

/-- `n` is the least depth at which `a` is reached. -/
def IsDistance (step : α → α → Prop) (roots : Set (α × ℕ)) (a : α) (n : ℕ) : Prop :=
  IsLeast {depth | Reached step roots a depth} n

theorem exists_isDistance {a : α} {n : ℕ} (reached : Reached step roots a n) :
    ∃ least ≤ n, IsDistance step roots a least := by
  classical
  refine ⟨Nat.find ⟨n, reached⟩, Nat.find_min' _ reached, Nat.find_spec ⟨n, reached⟩, ?_⟩
  exact fun depth other => Nat.find_min' _ other

variable (label : α → Option ℕ) {limit : ℕ}

/-- A rooted and relaxed labelling covers everything reached within the bound. -/
theorem label_le_of_reached (rooted : ∀ root ∈ roots, ∃ n ≤ root.2, label root.1 = some n)
    (relaxed : ∀ a n b, label a = some n → n < limit → step a b → ∃ m ≤ n + 1, label b = some m)
    {a : α} {n : ℕ} (reached : Reached step roots a n) (bound : n ≤ limit) :
    ∃ m ≤ n, label a = some m := by
  induction reached with
  | root member => exact rooted _ member
  | @next a b n _ edge ih =>
    obtain ⟨m, below, labelled⟩ := ih (by omega)
    obtain ⟨k, within, next⟩ := relaxed a m b labelled (by omega) edge
    exact ⟨k, by omega, next⟩

/-- Such a labelling, if all its labels are attained within the bound, is the truncated distance. -/
theorem label_eq_some_iff (attained : ∀ a n, label a = some n → Reached step roots a n ∧ n ≤ limit)
    (rooted : ∀ root ∈ roots, ∃ n ≤ root.2, label root.1 = some n)
    (relaxed : ∀ a n b, label a = some n → n < limit → step a b → ∃ m ≤ n + 1, label b = some m)
    (a : α) (n : ℕ) : label a = some n ↔ IsDistance step roots a n ∧ n ≤ limit := by
  constructor
  · intro labelled
    obtain ⟨reached, bound⟩ := attained a n labelled
    refine ⟨⟨reached, fun depth other => ?_⟩, bound⟩
    by_contra less
    obtain ⟨m, below, again⟩ := label_le_of_reached label rooted relaxed other (by omega)
    have : n = m := Option.some.inj (labelled.symm.trans again)
    omega
  · rintro ⟨least, bound⟩
    obtain ⟨m, below, labelled⟩ := label_le_of_reached label rooted relaxed least.1 bound
    have := least.2 (attained a m labelled).1
    rw [labelled, Nat.le_antisymm below this]

end Relation
