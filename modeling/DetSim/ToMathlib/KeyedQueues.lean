import Mathlib.Data.List.Nodup
import Mathlib.Data.List.Perm.Basic
import Mathlib.Logic.Function.Basic

/-! # Queues with an index

Entries stand in queues, one queue a place, and an index gives the place of each entry by its name. Names are
never used twice. Queues change in two ways: some entries leave a queue, or entries with unused names join one.
Both keep the index exact, and a move between queues is the one after the other.
-/

namespace KeyedQueues

/-- The first entries of a kind are taken out of a queue, up to a limit: they all stand in a part of the queue that was
scanned, the others of that part stay, and so does everything behind it. -/
structure TakesFirst {Entry : Type*} (kind : Entry → Bool) (limit : ℕ) (queue taken remaining : List Entry) :
    Prop where
  scanned : ∃ before behind, queue = before ++ behind ∧ taken = before.filter kind ∧
    remaining = before.filter (fun entry => !kind entry) ++ behind
  number : taken.length = min limit (queue.countP kind)
  conserved : (taken ++ remaining).Perm queue
  ordered : remaining.Sublist queue

variable {Place Name Entry : Type*} (name : Entry → Name)

/-- The index files exactly the names in the queues, each under its place, and no queue holds a name twice. -/
structure Indexed (queue : Place → List Entry) (index : Name → Option Place) : Prop where
  filed : ∀ id place, index id = some place ↔ ∃ entry ∈ queue place, name entry = id
  distinct : ∀ place, ((queue place).map name).Nodup

variable {name} {queue : Place → List Entry} {index : Name → Option Place}

namespace Indexed

theorem empty : Indexed name (fun _ : Place => []) fun _ => none where
  filed := by simp
  distinct := by simp

/-- A name stands in one queue only. -/
theorem place_unique (indexed : Indexed name queue index) {first second : Place} {left right : Entry}
    (here : left ∈ queue first) (there : right ∈ queue second) (same : name left = name right) : first = second := by
  have filedLeft := (indexed.filed _ _).mpr ⟨left, here, rfl⟩
  have filedRight := (indexed.filed _ _).mpr ⟨right, there, rfl⟩
  rw [same, filedRight] at filedLeft
  exact (Option.some.inj filedLeft).symm

variable [DecidableEq Place] [DecidableEq Name]

/-- Some entries leave a queue. -/
theorem leave (indexed : Indexed name queue index) {place : Place} {left kept : List Entry}
    (split : (left ++ kept).Perm (queue place)) :
    Indexed name (Function.update queue place kept) fun id => if id ∈ left.map name then none else index id where
  filed := by
    have names : ((left ++ kept).map name).Nodup := (split.map name).nodup_iff.mpr (indexed.distinct place)
    rw [List.map_append, List.nodup_append] at names
    intro id other
    by_cases gone : id ∈ left.map name
    · rw [if_pos gone]
      obtain ⟨entry, member, rfl⟩ := List.mem_map.mp gone
      have here : entry ∈ queue place := split.mem_iff.mp (List.mem_append_left _ member)
      simp only [reduceCtorEq, false_iff]
      rintro ⟨again, remains, same⟩
      by_cases different : other = place
      · subst different
        rw [Function.update_self] at remains
        exact names.2.2 _ gone _ (List.mem_map_of_mem remains) same.symm
      · rw [Function.update_of_ne different] at remains
        exact different (indexed.place_unique remains here same)
    · rw [if_neg gone, indexed.filed]
      by_cases different : other = place
      · subst different
        rw [Function.update_self]
        refine exists_congr fun entry => and_congr_left fun same => ?_
        rw [← split.mem_iff, List.mem_append, or_iff_right]
        intro member
        exact gone (same ▸ List.mem_map_of_mem member)
      · rw [Function.update_of_ne different]
  distinct := by
    have names : ((left ++ kept).map name).Nodup := (split.map name).nodup_iff.mpr (indexed.distinct place)
    rw [List.map_append, List.nodup_append] at names
    intro other
    by_cases same : other = place
    · subst same
      rw [Function.update_self]
      exact names.2.1
    · rw [Function.update_of_ne same]
      exact indexed.distinct other

/-- Entries with unused names join a queue. -/
theorem join (indexed : Indexed name queue index) {place : Place} {added : List Entry}
    (unused : ∀ entry ∈ added, index (name entry) = none) (names : (added.map name).Nodup) :
    Indexed name (Function.update queue place (queue place ++ added))
      fun id => if id ∈ added.map name then some place else index id where
  filed := by
    have absent : ∀ entry ∈ added, ∀ other, ∀ present ∈ queue other, name present ≠ name entry := by
      intro entry member other present here same
      have filed := (indexed.filed _ _).mpr ⟨present, here, same⟩
      rw [unused entry member] at filed
      contradiction
    intro id other
    by_cases new : id ∈ added.map name
    · rw [if_pos new]
      obtain ⟨entry, member, rfl⟩ := List.mem_map.mp new
      by_cases different : other = place
      · subst different
        rw [Function.update_self]
        exact iff_of_true rfl ⟨entry, List.mem_append_right _ member, rfl⟩
      · rw [Function.update_of_ne different]
        refine iff_of_false (fun same => different (Option.some.inj same).symm) ?_
        rintro ⟨present, here, same⟩
        exact absent entry member other present here same
    · rw [if_neg new, indexed.filed]
      by_cases different : other = place
      · subst different
        rw [Function.update_self]
        refine exists_congr fun entry => and_congr_left fun same => ?_
        rw [List.mem_append, or_iff_left]
        intro member
        exact new (same ▸ List.mem_map_of_mem member)
      · rw [Function.update_of_ne different]
  distinct := by
    intro other
    by_cases same : other = place
    · subst same
      rw [Function.update_self, List.map_append, List.nodup_append]
      refine ⟨indexed.distinct other, names, ?_⟩
      rintro _ present _ member rfl
      obtain ⟨entry, here, rfl⟩ := List.mem_map.mp present
      obtain ⟨again, there, same⟩ := List.mem_map.mp member
      have filed := (indexed.filed _ _).mpr ⟨entry, here, rfl⟩
      rw [← same, unused again there] at filed
      contradiction
    · rw [Function.update_of_ne same]
      exact indexed.distinct other

end Indexed

end KeyedQueues
