import Mathlib

/-! # Paths with a separator

The components of a list are the pieces between its separators that are not empty. An absolute path is written from its
components with one separator in front of each.
-/

namespace SeparatedPaths

variable {α : Type*} [DecidableEq α] (sep : α)

def components (path : List α) : List (List α) := (path.splitOn sep).filter (!·.isEmpty)

def absolute (parts : List (List α)) : List α := sep :: [sep].intercalate parts

omit [DecidableEq α] in
@[simp] theorem absolute_nil : absolute sep [] = [sep] := rfl

omit [DecidableEq α] in
/-- The last component, after what is in front of it. -/
theorem absolute_append (parts : List (List α)) (part : List α) :
    absolute sep (parts ++ [part]) = (if parts = [] then [] else absolute sep parts) ++ sep :: part := by
  induction parts with
  | nil => simp [absolute]
  | cons first rest ih =>
    unfold absolute at ih ⊢
    cases rest with
    | nil => simp [List.intercalate_cons_cons]
    | cons second rest =>
      simp only [List.cons_append, List.intercalate_cons_cons, reduceCtorEq, if_false, List.cons.injEq, true_and,
        List.append_assoc] at ih ⊢
      rw [ih]

theorem components_append_cons (front back : List α) :
    components sep (front ++ sep :: back) = components sep front ++ components sep back := by
  unfold components List.splitOn
  rw [List.splitOnP_append_cons _ _ (by simp), List.filter_append]

theorem components_of_notMem {part : List α} (free : sep ∉ part) (some : part ≠ []) : components sep part = [part] := by
  have single : ([sep].intercalate [part]).splitOn sep = [part] :=
    List.splitOn_intercalate sep (by simpa using free) (by simp)
  rw [List.intercalate_singleton] at single
  simp [components, single, some]

@[simp] theorem components_nil : components sep ([] : List α) = [] := by simp [components]

theorem notMem_of_mem_components {path part : List α} (member : part ∈ components sep path) : sep ∉ part := by
  have pieces : ∀ part ∈ path.splitOn sep, sep ∉ part := by
    clear member part
    induction path with
    | nil => simp
    | cons first rest ih =>
      intro part
      unfold List.splitOn at ih ⊢
      rw [List.splitOnP_cons_eq_if_modifyHead]
      split
      next => exact fun member => (List.mem_cons.mp member).elim (by rintro rfl; simp) (ih part)
      next other =>
        cases split : rest.splitOnP (· == sep) with
        | nil => simp
        | cons piece pieces =>
          rw [split] at ih
          rw [List.modifyHead_cons, List.mem_cons]
          rintro (rfl | member)
          · rw [List.mem_cons, not_or]
            exact ⟨fun same => other (by simp [same]), ih piece List.mem_cons_self⟩
          · exact ih part (List.mem_cons_of_mem _ member)
  exact pieces part (List.mem_of_mem_filter member)

/-- Writing components and reading them again. -/
theorem components_absolute {parts : List (List α)} (free : ∀ part ∈ parts, sep ∉ part ∧ part ≠ []) :
    components sep (absolute sep parts) = parts := by
  induction parts using List.reverseRecOn with
  | nil => simpa using components_append_cons sep [] []
  | append_singleton parts part ih =>
    have before := ih fun other member => free other (List.mem_append_left _ member)
    have last := components_of_notMem sep (free part (by simp)).1 (free part (by simp)).2
    rw [absolute_append, components_append_cons, last]
    split
    next none => simp [none]
    next => rw [before]

end SeparatedPaths
