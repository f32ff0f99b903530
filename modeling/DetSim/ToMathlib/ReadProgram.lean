import Mathlib

/-! # Programs that read

A reading program asks its source for a number of symbols and goes on with what it gets. What it does
does not depend on where the symbols come from: it can be run on a word that is there as a whole, or on
a source that delivers the same word piece by piece.
-/

/-- A program that ends with a value or an error, or reads some symbols and goes on. -/
inductive ReadProgram (σ ε α : Type)
  | done (value : α)
  | fail (error : ε)
  | read (count : ℕ) (next : List σ → ReadProgram σ ε α)

namespace ReadProgram

variable {σ ε α β : Type}

def bind : ReadProgram σ ε α → (α → ReadProgram σ ε β) → ReadProgram σ ε β
  | done value, continuation => continuation value
  | fail error, _ => fail error
  | read count next, continuation => read count fun word => (next word).bind continuation

instance : Monad (ReadProgram σ ε) where
  pure := done
  bind := bind

/-- Run a program on a word. It fails when the word is too short. -/
def run (truncated : ε) : ReadProgram σ ε α → List σ → Except ε (α × List σ)
  | done value, word => .ok (value, word)
  | fail error, _ => .error error
  | read count next, word =>
    if count ≤ word.length then run truncated (next (word.take count)) (word.drop count) else .error truncated

theorem run_bind (truncated : ε) (program : ReadProgram σ ε α) (continuation : α → ReadProgram σ ε β)
    (word : List σ) :
    (program >>= continuation).run truncated word =
      program.run truncated word >>= fun result => (continuation result.1).run truncated result.2 := by
  induction program generalizing word with
  | done value => rfl
  | fail error => rfl
  | read count next ih =>
    change (read count fun piece => (next piece).bind continuation).run truncated word = _
    simp only [run]
    split
    · exact ih _ _
    · rfl

theorem run_suffix {truncated : ε} {program : ReadProgram σ ε α} {word rest : List σ} {value : α}
    (succeeds : program.run truncated word = .ok (value, rest)) : rest <:+ word := by
  induction program generalizing word with
  | done returned =>
    cases succeeds
    exact List.suffix_refl _
  | fail error => cases succeeds
  | read count next ih =>
    simp only [run] at succeeds
    split at succeeds
    · exact (ih _ succeeds).trans (List.drop_suffix _ _)
    · cases succeeds

/-- A program that needs a whole word fails on every shorter part of it. -/
theorem run_take {truncated : ε} {program : ReadProgram σ ε α} {word rest : List σ} {value : α}
    (succeeds : program.run truncated (word ++ rest) = .ok (value, rest)) {count : ℕ} (shorter : count < word.length) :
    program.run truncated (word.take count) = .error truncated := by
  induction program generalizing word count with
  | done returned =>
    have consumed : word ++ rest = rest := (Prod.mk.inj (Except.ok.inj succeeds)).2
    have := congrArg List.length consumed
    rw [List.length_append] at this
    omega
  | fail error => cases succeeds
  | read needed next ih =>
    simp only [run] at succeeds ⊢
    split at succeeds
    · next available =>
      have consumed := (run_suffix succeeds).length_le
      rw [List.length_append] at available
      rw [List.length_drop, List.length_append] at consumed
      have inside : needed ≤ word.length := by omega
      rw [List.take_append_of_le_length inside, List.drop_append_of_le_length inside] at succeeds
      rw [List.length_take, Nat.min_eq_left shorter.le]
      split
      · next enough =>
        rw [List.take_take, Nat.min_eq_left enough, List.drop_take]
        refine ih _ succeeds ?_
        rw [List.length_drop]
        omega
      · rfl
    · cases succeeds

/-! ## Other sources -/

/-- How far a computation that depends on its environment gets. -/
inductive Outcome (ε α : Type)
  | returned (value : α)
  | failed (error : ε)
  | blocked
deriving DecidableEq, Repr

/-- Run a program on a source from which symbols are pulled. -/
def runOn {τ : Type} (pull : τ → ℕ → Outcome ε (List σ) × τ) : ReadProgram σ ε α → τ → Outcome ε α × τ
  | done value, source => (.returned value, source)
  | fail error, source => (.failed error, source)
  | read count next, source =>
    match pull source count with
    | (.returned word, source) => runOn pull (next word) source
    | (.failed error, source) => (.failed error, source)
    | (.blocked, source) => (.blocked, source)

/-- The source delivers a word that it holds, unless it blocks. A ready source does not block when it holds
enough, or when its word has ended. -/
structure Delivers {τ : Type} (pull : τ → ℕ → Outcome ε (List σ) × τ) (truncated : ε) (word : τ → List σ)
    (valid ready : τ → Prop) (ended : Prop) : Prop where
  enough : ∀ source count, valid source → count ≤ (word source).length →
    ((pull source count).1 = .blocked ∧ ¬ready source) ∨
      ∃ next, pull source count = (.returned ((word source).take count), next) ∧ valid next ∧
        word next = (word source).drop count ∧ (ready source → ready next)
  short : ∀ source count, valid source → (word source).length < count →
    ((pull source count).1 = .blocked ∧ (ready source → ¬ended)) ∨ (pull source count).1 = .failed truncated

section Sources

variable {τ : Type} {pull : τ → ℕ → Outcome ε (List σ) × τ} {truncated : ε} {word : τ → List σ}
variable {valid ready : τ → Prop} {ended : Prop}

theorem runOn_of_not_returned {next : List σ → ReadProgram σ ε α} {source : τ} {count : ℕ} {outcome : Outcome ε α}
    (pulled : (pull source count).1 = .blocked ∧ outcome = .blocked ∨
      ∃ error, (pull source count).1 = .failed error ∧ outcome = .failed error) :
    ((read count next).runOn pull source).1 = outcome := by
  rw [runOn]
  rcases pulled with ⟨blocked, rfl⟩ | ⟨error, failed, rfl⟩ <;> split <;> simp_all

/-- A program does the same on the source as on the word it holds. On a ready source it blocks only if it
needs more than a word that has not ended. -/
theorem runOn_eq (delivers : Delivers pull truncated word valid ready ended) (program : ReadProgram σ ε α) (source : τ)
    (start : valid source) :
    ((program.runOn pull source).1 = .blocked ∧
      (ready source → ¬ended ∧ ∀ result, program.run truncated (word source) ≠ .ok result)) ∨
      (∃ value next, program.runOn pull source = (.returned value, next) ∧ valid next ∧
        program.run truncated (word source) = .ok (value, word next) ∧ (ready source → ready next)) ∨
      ∃ error, (program.runOn pull source).1 = .failed error ∧ program.run truncated (word source) = .error error := by
  induction program generalizing source with
  | done value => exact .inr (.inl ⟨value, source, rfl, start, rfl, id⟩)
  | fail error => exact .inr (.inr ⟨error, rfl, rfl⟩)
  | read count next ih =>
    by_cases available : count ≤ (word source).length
    · rw [run, if_pos available]
      rcases delivers.enough source count start available with ⟨blocked, stuck⟩ | ⟨after, pulled, kept, rest, again⟩
      · exact .inl ⟨runOn_of_not_returned (.inl ⟨blocked, rfl⟩), fun isReady => absurd isReady stuck⟩
      · rw [runOn, pulled, ← rest]
        rcases ih _ after kept with ⟨blocked, stuck⟩ | ⟨value, last, ran, valid, same, ready⟩ | failed
        · exact .inl ⟨blocked, fun isReady => stuck (again isReady)⟩
        · exact .inr (.inl ⟨value, last, ran, valid, same, fun isReady => ready (again isReady)⟩)
        · exact .inr (.inr failed)
    · rw [run, if_neg available]
      rcases delivers.short source count start (Nat.lt_of_not_le available) with ⟨blocked, stuck⟩ | failed
      · exact .inl ⟨runOn_of_not_returned (.inl ⟨blocked, rfl⟩), fun isReady => ⟨stuck isReady, by simp⟩⟩
      · exact .inr (.inr ⟨truncated, runOn_of_not_returned (.inr ⟨truncated, failed, rfl⟩), rfl⟩)

end Sources

end ReadProgram
