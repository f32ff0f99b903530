import Mathlib.Data.List.Chain
import Mathlib.Logic.Function.Basic

/-! # Chains of recorded parents

A table records for some keys the edge they were reached by. Following the edges back from a key either ends at
a key without an edge, its origin, or never ends. A new edge for a key without one redirects exactly the chains
that ended there; if the source of the new edge is among these, they never end any more.
-/

namespace ParentChains

variable {Key Edge : Type*} (source : Edge → Key) {key origin : Key} {chain : List (Edge × Key)}

/-- The chain of a key: the edges from its origin to the key, each with the key it leads to. -/
inductive Leads (parent : Key → Option Edge) : Key → Key → List (Edge × Key) → Prop
  | root {key : Key} (none : parent key = none) : Leads parent key key []
  | step {key origin : Key} {edge : Edge} {chain : List (Edge × Key)} (recorded : parent key = some edge)
      (rest : Leads parent (source edge) origin chain) : Leads parent key origin (chain ++ [(edge, key)])

variable {source} {parent : Key → Option Edge}

theorem Leads.origin_none (leads : Leads source parent key origin chain) :
    parent origin = none := by
  induction leads with
  | root none => exact none
  | step _ _ ih => exact ih

/-- A key has one origin. -/
theorem Leads.origin_unique {other : Key} {others : List (Edge × Key)} (leads : Leads source parent key origin chain)
    (again : Leads source parent key other others) : origin = other := by
  induction leads generalizing others with
  | root none =>
    cases again with
    | root => rfl
    | step recorded => cases none.symm.trans recorded
  | step recorded _ ih =>
    cases again with
    | root none => cases none.symm.trans recorded
    | step same rest =>
      obtain rfl := Option.some.inj (recorded.symm.trans same)
      exact ih rest

theorem Leads.recorded (leads : Leads source parent key origin chain) :
    ∀ entry ∈ chain, parent entry.2 = some entry.1 := by
  induction leads with
  | root none => simp
  | step recorded _ ih =>
    intro entry member
    rcases List.mem_append.mp member with earlier | last
    · exact ih entry earlier
    · cases List.mem_singleton.mp last
      exact recorded

/-- The edges of a chain follow each other from the origin to the key. -/
theorem Leads.linked (leads : Leads source parent key origin chain) :
    chain.IsChain (fun first second => first.2 = source second.1) ∧
      (∀ entry ∈ chain.head?, source entry.1 = origin) ∧ (∀ entry ∈ chain.getLast?, entry.2 = key) ∧
        (chain = [] → key = origin) := by
  induction leads with
  | root none => simp
  | @step key origin edge chain recorded rest ih =>
    obtain ⟨linked, first, last, empty⟩ := ih
    refine ⟨?_, ?_, by simp, by simp⟩
    · refine List.isChain_append.mpr ⟨linked, by simp, fun entry isLast other isOther => ?_⟩
      cases isOther
      exact last entry isLast
    · cases chain with
      | nil =>
        rintro entry ⟨⟩
        exact empty rfl
      | cons head tail => exact first

section Insert

variable [DecidableEq Key] {target : Key} (edge : Edge)

/-- A chain that ends elsewhere is not changed by a new edge. -/
theorem Leads.insert_of_ne (leads : Leads source parent key origin chain)
    (absent : parent target = none) (elsewhere : origin ≠ target) :
    Leads source (Function.update parent target (some edge)) key origin chain := by
  induction leads with
  | root none => exact .root (by rw [Function.update_of_ne elsewhere, none])
  | @step key origin found chain recorded _ ih =>
    refine .step ?_ (ih elsewhere)
    rw [Function.update_of_ne, recorded]
    rintro rfl
    simp [absent] at recorded

/-- A chain that ended at the target goes on with the chain of the new edge. -/
theorem Leads.insert_of_eq {before : List (Edge × Key)}
    (leads : Leads source parent key target chain) (absent : parent target = none)
    (further : Leads source (Function.update parent target (some edge)) (source edge) origin before) :
    Leads source (Function.update parent target (some edge)) key origin (before ++ [(edge, target)] ++ chain) := by
  induction leads with
  | root none => exact List.append_nil _ ▸ .step (Function.update_self ..) further
  | @step key target found chain recorded _ ih =>
    rw [← List.append_assoc]
    refine .step ?_ (ih absent further)
    rw [Function.update_of_ne, recorded]
    rintro rfl
    simp [absent] at recorded

/-- A chain after the insertion passes through the target, if it ended there before. -/
theorem Leads.passes {after : List (Edge × Key)} (leads : Leads source parent key target chain)
    (absent : parent target = none)
    (longer : Leads source (Function.update parent target (some edge)) key origin after) :
    ∃ before, Leads source (Function.update parent target (some edge)) target origin before ∧
      before.length ≤ after.length := by
  induction leads generalizing after with
  | root none => exact ⟨after, longer, Nat.le_refl _⟩
  | @step key target found chain recorded _ ih =>
    have other : key ≠ target := by
      rintro rfl
      simp [absent] at recorded
    cases longer with
    | root none => simp [Function.update_of_ne other, recorded] at none
    | step again rest =>
      rw [Function.update_of_ne other, recorded] at again
      cases again
      obtain ⟨before, passes, shorter⟩ := ih absent rest
      exact ⟨before, passes, by simpa using Nat.le_succ_of_le shorter⟩

/-- An edge from a key whose chain ends at the target closes a cycle. -/
theorem Leads.cyclic (leads : Leads source parent (source edge) target chain) (origin : Key)
    (after : List (Edge × Key)) : ¬Leads source (Function.update parent target (some edge)) target origin after := by
  -- each round of the cycle is a proper part of the chain before it
  induction bound : after.length using Nat.strongRecOn generalizing after with
  | ind length ih =>
    intro round
    cases round with
    | root none => simp at none
    | step recorded rest =>
      rw [Function.update_self] at recorded
      cases recorded
      obtain ⟨before, again, shorter⟩ := leads.passes edge leads.origin_none rest
      rw [List.length_append, List.length_singleton] at bound
      exact ih before.length (by omega) before rfl again

end Insert

end ParentChains
