import DetSim.ToMathlib.TreeMapIndex
import DetSim.Model.Frontier

/-! # The frontier's indexes follow its node table

The four indexes are functions of the node table: two file the pending nodes, one counts the open
nodes per layer, one counts all nodes per phase. Taking a node out and entering a node are the only
ways the source touches them, so exactness of all four is proved once for each of these half-steps
and carried over to a rewritten node and to a new one.
-/

namespace DetSim.Search

open Std ExtTreeMap

abbrev NodeTable := ExtTreeMap StateKey Node

/-- Where `pending_` files a node. -/
def Node.pendingSlot (node : Node) : Option UInt64 :=
  if node.phase = .pending then some node.sequence else none

/-- Where `bfs_pending_` files a node. -/
def Node.bfsSlot (node : Node) : Option (UInt64 × UInt64) :=
  if node.phase = .pending then some (node.depth, node.sequence) else none

/-- The layer a node holds open. -/
def Node.layerSlot (node : Node) : Option UInt64 :=
  if node.phase.active then some node.depth else none

def Node.hasPhase (phase : NodePhase) (node : Node) : Bool := decide (node.phase = phase)

/-- Every index states exactly what the node table holds; the layer indexes exist under `bfs` only. -/
structure Indexed (policy : Policy) (nodes : NodeTable) (indexes : Indexes) : Prop where
  pending : IsIndex Node.pendingSlot nodes indexes.pending
  bfsPending : policy = .bfs → IsIndex Node.bfsSlot nodes indexes.bfsPending
  activeLayers : policy = .bfs → IsTally Node.layerSlot nodes indexes.activeLayers
  phaseCounts : ∀ phase, indexes.phaseCounts phase = nodes.countValues (Node.hasPhase phase)

theorem indexed_empty (policy : Policy) : Indexed policy ∅ ⟨∅, ∅, ∅, fun _ => 0⟩ where
  pending _ _ := by simp
  bfsPending _ _ _ := by simp
  activeLayers _ _ := by simp
  phaseCounts _ := by simp

section HalfSteps

variable (indexes : Indexes) (policy : Policy) (key : StateKey) (node : Node)

theorem indexRemove_pending :
    (indexes.indexRemove policy node).pending = indexes.pending.vacate node.pendingSlot := by
  by_cases pending : node.phase = .pending <;>
    simp [Indexes.indexRemove, Node.pendingSlot, pending, vacate]

theorem indexAdd_pending :
    (indexes.indexAdd policy key node).pending = indexes.pending.enter key node.pendingSlot := by
  by_cases pending : node.phase = .pending <;>
    simp [Indexes.indexAdd, Node.pendingSlot, pending, enter]

theorem indexRemove_bfsPending :
    (indexes.indexRemove .bfs node).bfsPending = indexes.bfsPending.vacate node.bfsSlot := by
  by_cases pending : node.phase = .pending <;>
    simp [Indexes.indexRemove, Node.bfsSlot, pending, vacate]

theorem indexAdd_bfsPending :
    (indexes.indexAdd .bfs key node).bfsPending = indexes.bfsPending.enter key node.bfsSlot := by
  by_cases pending : node.phase = .pending <;>
    simp [Indexes.indexAdd, Node.bfsSlot, pending, enter]

theorem indexRemove_activeLayers :
    (indexes.indexRemove .bfs node).activeLayers = indexes.activeLayers.uncount node.layerSlot := by
  by_cases active : node.phase.active
  · have slot : node.layerSlot = some node.depth := by simp [Node.layerSlot, active]
    rw [slot]
    simp only [Indexes.indexRemove, active, and_self, if_true]
    rfl
  · simp [Indexes.indexRemove, Node.layerSlot, active, uncount]

theorem indexAdd_activeLayers :
    (indexes.indexAdd .bfs key node).activeLayers = indexes.activeLayers.recount node.layerSlot := by
  by_cases active : node.phase.active <;>
    simp [Indexes.indexAdd, Node.layerSlot, active, recount]

end HalfSteps

variable {policy : Policy} {nodes : NodeTable} {indexes : Indexes} {key : StateKey} {node : Node}

/-- Taking a stored node out of the indexes describes the table without it. -/
theorem Indexed.remove (exact : Indexed policy nodes indexes) (read : nodes[key]? = some node) :
    Indexed policy (nodes.erase key) (indexes.indexRemove policy node) where
  pending := by
    rw [indexRemove_pending]
    exact exact.pending.vacate read
  bfsPending := by
    rintro rfl
    rw [indexRemove_bfsPending]
    exact (exact.bfsPending rfl).vacate read
  activeLayers := by
    rintro rfl
    rw [indexRemove_activeLayers]
    exact (exact.activeLayers rfl).uncount read
  phaseCounts phase := by
    have count := exact.phaseCounts phase
    rw [countValues_of_read _ read] at count
    by_cases same : phase = node.phase
    · subst same
      simp only [Indexes.indexRemove, Function.update_self, count, Node.hasPhase, decide_true,
        Bool.toNat_true]
      omega
    · simp [Indexes.indexRemove, Function.update_of_ne same, count, Node.hasPhase, Ne.symm same]

/-- Entering a node under an unused key and sequence number describes the table with it. -/
theorem Indexed.add (exact : Indexed policy nodes indexes) (absent : nodes[key]? = none)
    (fresh : ∀ (other : StateKey) stored, nodes[other]? = some stored → stored.sequence ≠ node.sequence) :
    Indexed policy (nodes.insert key node) (indexes.indexAdd policy key node) where
  pending := by
    rw [indexAdd_pending]
    refine exact.pending.enter absent fun other stored read same => ?_
    have different := fresh other stored read
    unfold Node.pendingSlot at same ⊢
    split_ifs at same ⊢ <;> simp_all
  bfsPending := by
    rintro rfl
    rw [indexAdd_bfsPending]
    refine (exact.bfsPending rfl).enter absent fun other stored read same => ?_
    have different := fresh other stored read
    unfold Node.bfsSlot at same ⊢
    split_ifs at same ⊢ <;> simp_all
  activeLayers := by
    rintro rfl
    rw [indexAdd_activeLayers]
    exact (exact.activeLayers rfl).recount absent
  phaseCounts phase := by
    rw [countValues_insert_of_absent _ absent, ← exact.phaseCounts phase]
    by_cases same : phase = node.phase
    · subst same
      simp [Indexes.indexAdd, Node.hasPhase]
    · simp [Indexes.indexAdd, Function.update_of_ne same, Node.hasPhase, Ne.symm same]

/-- What the coordinator stores besides tickets: exact indexes, distinct sequence numbers below the
next one, and a table within its capacity whose size is the number of admissions. -/
structure Stored (f : Frontier) : Prop where
  indexed : Indexed f.policy f.nodes f.indexes
  below : ∀ (key : StateKey) node, f.nodes[key]? = some node → node.sequence < f.nextSequence
  distinct : ∀ (key other : StateKey) node stored, f.nodes[key]? = some node →
    f.nodes[other]? = some stored → node.sequence = stored.sequence → key = other
  admitted : f.nodes.size = f.counters.admitted
  sequenced : f.nodes.size = f.nextSequence.toNat
  capacity : f.nodes.size ≤ f.maxStates.toNat

theorem contains_iff_read {nodes : NodeTable} {key : StateKey} :
    nodes.contains key ↔ ∃ node, nodes[key]? = some node := by
  rw [contains_eq_isSome_getElem?, Option.isSome_iff_exists]

theorem size_insert_of_read {nodes : NodeTable} {key : StateKey} {node : Node}
    (read : nodes[key]? = some node) (next : Node) : (nodes.insert key next).size = nodes.size := by
  rw [size_insert, if_pos (contains_iff_read.mpr ⟨node, read⟩)]

theorem size_insert_of_absent {nodes : NodeTable} {key : StateKey} (absent : nodes[key]? = none)
    (next : Node) : (nodes.insert key next).size = nodes.size + 1 := by
  rw [size_insert, if_neg]
  rintro present
  obtain ⟨node, read⟩ := contains_iff_read.mp present
  simp [read] at absent

/-- Rewriting a node under its own sequence number keeps the table coherent. -/
theorem Stored.replace {f : Frontier} {key : StateKey} {node next : Node} (stored : Stored f)
    (read : f.nodes[key]? = some node) (sequence : next.sequence = node.sequence) :
    Stored (f.replace key node next) where
  indexed := by
    have removed := stored.indexed.remove read
    have added : Indexed f.policy ((f.nodes.erase key).insert key next)
        ((f.indexes.indexRemove f.policy node).indexAdd f.policy key next) := removed.add (by simp) (by
      intro other entry present same
      rw [getElem?_erase_eq] at present
      split at present
      · contradiction
      · next different =>
        exact different (stored.distinct key other node entry read present (sequence ▸ same.symm)))
    rwa [insert_erase_self] at added
  below := by
    intro other entry present
    simp only [Frontier.replace, getElem?_insert_eq] at present ⊢
    split at present
    · cases present
      rw [sequence]
      exact stored.below key node read
    · exact stored.below other entry present
  distinct := by
    intro first second left right leftRead rightRead same
    simp only [Frontier.replace, getElem?_insert_eq] at leftRead rightRead
    split at leftRead <;> split at rightRead
    · simp_all
    · next isKey _ =>
      cases leftRead
      exact isKey ▸ stored.distinct key second node right read rightRead (sequence ▸ same)
    · next _ isKey =>
      cases rightRead
      exact isKey ▸ stored.distinct first key left node leftRead read (same.trans sequence)
    · exact stored.distinct first second left right leftRead rightRead same
  admitted := (size_insert_of_read read next).trans stored.admitted
  sequenced := (size_insert_of_read read next).trans stored.sequenced
  capacity := (size_insert_of_read read next).trans_le stored.capacity

/-- A first arrival keeps the table coherent. -/
theorem Stored.insertPending {f : Frontier} {key : StateKey} (stored : Stored f) (distance : UInt64)
    (absent : f.nodes[key]? = none) (room : f.nodes.size ≠ f.maxStates.toNat)
    (available : f.nextSequence ≠ uint64Max) : Stored (f.insertPending key distance) where
  indexed := stored.indexed.add absent fun other entry present same => by
    have := stored.below other entry present
    simp_all
  below := by
    intro other entry present
    have next : f.nextSequence < f.nextSequence + 1 := by
      unfold uint64Max at available
      lia
    simp only [Frontier.insertPending, getElem?_insert_eq] at present ⊢
    split at present
    · cases present
      exact next
    · have := stored.below other entry present
      lia
  distinct := by
    intro first second left right leftRead rightRead same
    simp only [Frontier.insertPending, getElem?_insert_eq] at leftRead rightRead
    split at leftRead <;> split at rightRead
    · simp_all
    · cases leftRead
      have := stored.below second right rightRead
      simp_all
    · cases rightRead
      have := stored.below first left leftRead
      simp_all
    · exact stored.distinct first second left right leftRead rightRead same
  admitted := (size_insert_of_absent absent _).trans (congrArg (· + 1) stored.admitted)
  sequenced := by
    have next := toNat_add_one_of_ne_max available
    have size := stored.sequenced
    have grown := size_insert_of_absent absent ⟨distance, .pending, f.nextSequence, none, [], ""⟩
    simp only [Frontier.insertPending, next, grown, size]
  capacity := by
    have grown := size_insert_of_absent absent ⟨distance, .pending, f.nextSequence, none, [], ""⟩
    have := stored.capacity
    simp only [Frontier.insertPending, grown]
    omega

end DetSim.Search
