import Mathlib
import DetSim.Model.Files
import DetSim.ToMathlib.Except
import DetSim.ToMathlib.TreeMapSum

/-! # Pipes are bounded streams of bytes

Each pipe has one descriptor for each end that is not closed, named by the identifier with a sign. Along a run of calls
the bytes taken from a pipe and the bytes in its buffer are the bytes written to it since it was made. An identifier is
used again only when no descriptor is left that names it.
-/

namespace DetSim.Kernel

open Std.ExtTreeMap

/-! ## Free descriptors -/

theorem toInt_succ {number : Int32} (room : number.toInt < 2 ^ 31 - 1) : (number + 1).toInt = number.toInt + 1 := by
  have low := number.le_toInt
  rw [Int32.toInt_add, show Int32.toInt 1 = 1 from rfl]
  exact Int.bmod_eq_of_le (by omega) (by omega)

theorem toInt_succ_of_ne {number : Int32} (room : number ≠ Int32.maxValue) : (number + 1).toInt = number.toInt + 1 := by
  have bound := number.toInt_lt
  have apart : number.toInt ≠ Int32.maxValue.toInt := fun same => room (Int32.toInt_inj.mp same)
  rw [show Int32.maxValue.toInt = 2 ^ 31 - 1 from rfl] at apart
  exact toInt_succ (by omega)

namespace FdManager

variable {manager : FdManager} {fd : Int32}

theorem scanFds_ge {candidate : Int32} {fds : List Int32} (found : scanFds candidate fds = some fd) :
    candidate ≤ fd := by
  induction fds generalizing candidate with
  | nil =>
    cases found
    exact Int32.le_refl _
  | cons first rest ih =>
    unfold scanFds at found
    split at found
    · cases found
      exact Int32.le_refl _
    split at found
    · cases found
    next room =>
      have successor := toInt_succ_of_ne room
      have higher := ih found
      rw [Int32.le_iff_toInt_le] at higher ⊢
      omega

theorem scanFds_free {candidate : Int32} {fds : List Int32} (ascending : fds.Pairwise (· < ·))
    (above : ∀ other ∈ fds, candidate ≤ other) (found : scanFds candidate fds = some fd) : fd ∉ fds := by
  induction fds generalizing candidate with
  | nil => exact List.not_mem_nil
  | cons first rest ih =>
    obtain ⟨later, ascending⟩ := List.pairwise_cons.mp ascending
    have least := above first List.mem_cons_self
    simp only [Int32.le_iff_toInt_le, Int32.lt_iff_toInt_lt] at later least
    unfold scanFds at found
    split at found
    next free =>
      cases found
      intro member
      rw [Int32.lt_iff_toInt_lt] at free
      rcases List.mem_cons.mp member with rfl | member
      · omega
      · have := later _ member
        omega
    next used =>
      rw [Int32.lt_iff_toInt_lt] at used
      split at found
      · cases found
      next room =>
        have successor := toInt_succ_of_ne room
        have higher : ∀ other ∈ rest, candidate + 1 ≤ other := by
          intro other member
          have := later other member
          rw [Int32.le_iff_toInt_le]
          omega
        have bound := Int32.le_iff_toInt_le.mp (scanFds_ge found)
        refine List.not_mem_cons_of_ne_of_not_mem ?_ (ih ascending higher found)
        rintro rfl
        omega

theorem getNextFd_fresh (numbers : ∀ fd ∈ manager, 0 ≤ fd) (found : manager.getNextFd = some fd) :
    0 ≤ fd ∧ fd ∉ manager := by
  refine ⟨scanFds_ge found, ?_⟩
  rw [← mem_keys]
  exact scanFds_free (ordered_keys.imp Std.compare_eq_lt.mp)
    (fun other member => numbers other (mem_keys.mp member)) found

theorem allocateFd_ok {after : FdManager} {kind : FdType} {status flags : Int32}
    (allocated : manager.allocateFd kind status flags = .ok (some fd, after)) :
    manager.getNextFd = some fd ∧ after = manager.insertIfNew fd ⟨kind, status, flags⟩ := by
  unfold allocateFd at allocated
  split at allocated
  · cases allocated
  split at allocated
  · cases allocated
  next found =>
    cases allocated
    exact ⟨found, rfl⟩

/-- A descriptor that was allocated is new. -/
theorem allocateFd_fresh {after : FdManager} {kind : FdType} {status flags : Int32} (numbers : ∀ fd ∈ manager, 0 ≤ fd)
    (allocated : manager.allocateFd kind status flags = .ok (some fd, after)) :
    0 ≤ fd ∧ fd ∉ manager ∧ after = manager.insert fd ⟨kind, status, flags⟩ ∧ ∀ fd ∈ after, 0 ≤ fd := by
  obtain ⟨found, rfl⟩ := allocateFd_ok allocated
  obtain ⟨bound, free⟩ := getNextFd_fresh numbers found
  refine ⟨bound, free, insertIfNew_eq_insert free _, fun other member => ?_⟩
  rw [mem_insertIfNew, Std.compare_eq_iff_eq] at member
  rcases member with rfl | member
  · exact bound
  · exact numbers other member

end FdManager

/-- A read of memory transfers all that was asked for. -/
def GuestMemory.Exact {G : Type} (guest : GuestMemory G) : Prop :=
  ∀ memory address size data, guest.read memory address size = some data → data.length = size

theorem GuestMemory.Exact.length_readExact {G : Type} {guest : GuestMemory G} (exact : guest.Exact) {memory : G}
    {address : UInt64} {size : ℕ} {data : Bytes} (read : guest.readExact memory address size = some data) :
    data.length = size := by
  unfold readExact at read
  split at read
  next zero =>
    cases read
    exact zero.symm
  next => exact exact _ _ _ _ (Option.ite_none_right_eq_some.mp read).2

/-! ## Ends of pipes -/

/-- The name of an end. -/
def signedEnd (id : Int32) (reading : Bool) : Int32 := if reading then id else -id

def Pipe.closed (pipe : Pipe) (reading : Bool) : Bool := if reading then pipe.readClosed else pipe.writeClosed

theorem neg_lt_zero_of_pos {id : Int32} (positive : 0 < id) : -id < 0 := by
  rw [Int32.lt_iff_toInt_lt] at positive ⊢
  have bound := id.toInt_lt
  rw [show Int32.toInt 0 = 0 from rfl] at positive ⊢
  rw [Int32.toInt_neg, Int.bmod_eq_of_le (by omega) (by omega)]
  omega

theorem signedEnd_pos_iff {id : Int32} {reading : Bool} (positive : 0 < id) : 0 < signedEnd id reading ↔ reading := by
  cases reading with
  | true => simpa [signedEnd] using positive
  | false => simpa [signedEnd, Int32.not_lt] using Int32.le_of_lt (neg_lt_zero_of_pos positive)

theorem signedEnd_inj {id other : Int32} {reading side : Bool} (positive : 0 < id) (also : 0 < other)
    (same : signedEnd id reading = signedEnd other side) : id = other ∧ reading = side := by
  have sides : reading = side := by
    rw [Bool.eq_iff_iff, ← signedEnd_pos_iff positive, same, signedEnd_pos_iff also]
  subst sides
  cases reading with
  | true => exact ⟨same, rfl⟩
  | false => exact ⟨by simpa [signedEnd] using same, rfl⟩

theorem pipeId_signedEnd {id : Int32} {reading : Bool} (positive : 0 < id) :
    (if 0 < signedEnd id reading then signedEnd id reading else -signedEnd id reading) = id := by
  rw [if_congr (signedEnd_pos_iff positive) rfl rfl]
  cases reading <;> simp [signedEnd]

/-- Which ends of each pipe are closed. -/
def closedEnds (pipes : Map Int32 Pipe) (id : Int32) : Option (Bool → Bool) := pipes[id]?.map Pipe.closed

/-- The ends of the pipes and their descriptors fit together. -/
structure Piped (manager : FdManager) (closing : Int32 → Option (Bool → Bool)) (pipeFds : Map Int32 Int32) : Prop where
  numbers : ∀ fd ∈ manager, 0 ≤ fd
  kind : ∀ fd ∈ pipeFds, manager.getFdType fd = some .pipe
  wired : ∀ (fd name : Int32), pipeFds[fd]? = some name →
    ∃ id closed reading, closing id = some closed ∧ closed reading = false ∧ name = signedEnd id reading
  single : ∀ (fd other name : Int32), pipeFds[fd]? = some name → pipeFds[other]? = some name → fd = other
  positive : ∀ id closed, closing id = some closed → 0 < id
  named : ∀ id closed reading, closing id = some closed → closed reading = false →
    ∃ fd : Int32, pipeFds[fd]? = some (signedEnd id reading)
  held : ∀ id closed, closing id = some closed → ∃ reading, closed reading = false

section

variable {G : Type} {guest : GuestMemory G} {node next : NodeIo G} {fd id : Int32} {pipe : Pipe} {result : Int}
  {manager : FdManager} {closing : Int32 → Option (Bool → Bool)} {pipeFds : Map Int32 Int32} {reading : Bool}

abbrev NodeIo.Piped (node : NodeIo G) : Prop :=
  DetSim.Kernel.Piped node.fdManager (closedEnds node.fsState.pipes) node.fsState.pipeFds

/-- A descriptor of an end of a pipe. -/
structure NodeIo.EndOf (node : NodeIo G) (fd id : Int32) (reading : Bool) (pipe : Pipe) : Prop where
  name : node.fsState.pipeFds[fd]? = some (signedEnd id reading)
  payload : node.fsState.pipes[id]? = some pipe

/-- The descriptor is an end of a pipe whose other end is closed. -/
def NodeIo.Abandoned (node : NodeIo G) (fd : Int32) (reading : Bool) (pipe : Pipe) : Prop :=
  ∃ id, node.EndOf fd id reading pipe ∧ ∀ other : Int32, node.fsState.pipeFds[other]? ≠ some (signedEnd id (!reading))

theorem Piped.positive_of_payload (piped : node.Piped) (payload : node.fsState.pipes[id]? = some pipe) : 0 < id :=
  piped.positive id pipe.closed (by rw [closedEnds, payload, Option.map_some])

/-- What a call finds is an end of a pipe. -/
theorem Piped.pipeEnd_iff (piped : node.Piped) {name : Int32} :
    node.pipeEnd fd = some (name, pipe) ↔
      ∃ id reading, node.EndOf fd id reading pipe ∧ name = signedEnd id reading := by
  constructor
  · intro found
    obtain ⟨-, found⟩ := Option.ite_none_right_eq_some.mp found
    obtain ⟨name, opened, read⟩ := Option.bind_eq_some_iff.mp found
    obtain ⟨other, payload, same⟩ := Option.map_eq_some_iff.mp read
    cases same
    obtain ⟨id, closed, reading, there, -, rfl⟩ := piped.wired fd name opened
    rw [pipeId_signedEnd (piped.positive id closed there)] at payload
    exact ⟨id, reading, ⟨opened, payload⟩, rfl⟩
  · rintro ⟨id, reading, ⟨opened, payload⟩, rfl⟩
    have member : fd ∈ node.fsState.pipeFds := mem_iff_isSome_getElem?.mpr (by simp [opened])
    unfold NodeIo.pipeEnd
    rw [if_pos (piped.kind fd member), opened, Option.bind_some,
      pipeId_signedEnd (piped.positive_of_payload payload), payload]
    rfl

theorem Piped.not_abandoned_of_none (piped : node.Piped) (none : node.pipeEnd fd = none) :
    ¬ node.Abandoned fd reading pipe := by
  rintro ⟨id, isEnd, -⟩
  rw [piped.pipeEnd_iff.mpr ⟨id, reading, isEnd, rfl⟩] at none
  cases none

/-- The flags of a pipe tell which of its ends have a descriptor. -/
theorem Piped.abandoned_iff (piped : node.Piped) (isEnd : node.EndOf fd id reading pipe) {side : Bool}
    {payload : Pipe} :
    node.Abandoned fd side payload ↔ reading = side ∧ pipe = payload ∧ pipe.closed (!reading) = true := by
  have found : closedEnds node.fsState.pipes id = some pipe.closed := by
    rw [closedEnds, isEnd.payload, Option.map_some]
  have positive := piped.positive _ _ found
  constructor
  · rintro ⟨other, also, alone⟩
    obtain ⟨rfl, rfl⟩ := signedEnd_inj positive (piped.positive_of_payload also.payload)
      (Option.some.inj (isEnd.name.symm.trans also.name))
    refine ⟨rfl, Option.some.inj (isEnd.payload.symm.trans also.payload), ?_⟩
    by_contra unclosed
    obtain ⟨last, opened⟩ := piped.named id _ (!reading) found (Bool.eq_false_of_not_eq_true unclosed)
    exact alone last opened
  · rintro ⟨rfl, rfl, closed⟩
    refine ⟨id, isEnd, fun other opened => ?_⟩
    obtain ⟨id', closed', side', found', unclosed, same⟩ := piped.wired other _ opened
    obtain ⟨rfl, rfl⟩ := signedEnd_inj positive (piped.positive _ _ found') same
    obtain rfl := Option.some.inj (found.symm.trans found')
    exact absurd (closed.symm.trans unclosed) (by decide)

theorem setPipe_signedEnd (positive : 0 < id) :
    node.setPipe (signedEnd id reading) pipe = { node.fsState with pipes := node.fsState.pipes.insert id pipe } := by
  rw [NodeIo.setPipe, pipeId_signedEnd positive]

theorem closedEnds_insert (pipes : Map Int32 Pipe) :
    closedEnds (pipes.insert id pipe) = Function.update (closedEnds pipes) id (some pipe.closed) := by
  funext other
  unfold closedEnds
  rw [getElem?_insert_eq, Function.update_apply]
  simp only [eq_comm]
  split <;> rfl

theorem closedEnds_erase (pipes : Map Int32 Pipe) :
    closedEnds (pipes.erase id) = Function.update (closedEnds pipes) id none := by
  funext other
  unfold closedEnds
  rw [getElem?_erase_eq, Function.update_apply]
  simp only [eq_comm]
  split <;> rfl

/-- No descriptor names a pipe that is not there. -/
theorem Piped.unnamed (piped : node.Piped) (positive : 0 < id) (absent : id ∉ node.fsState.pipes) (fd : Int32)
    (reading : Bool) : node.fsState.pipeFds[fd]? ≠ some (signedEnd id reading) := by
  intro opened
  obtain ⟨other, closed, side, found, -, same⟩ := piped.wired fd _ opened
  obtain ⟨rfl, -⟩ := signedEnd_inj positive (piped.positive _ _ found) same
  rw [closedEnds, getElem?_eq_none absent] at found
  cases found

/-- Filling or draining a buffer changes no end. -/
theorem Piped.setBuffer (piped : node.Piped) (payload : node.fsState.pipes[id]? = some pipe) (buffer : Bytes)
    (memory : G) :
    NodeIo.Piped { node with
      memory, fsState := { node.fsState with pipes := node.fsState.pipes.insert id { pipe with buffer } } } := by
  have same : closedEnds (node.fsState.pipes.insert id { pipe with buffer }) = closedEnds node.fsState.pipes := by
    rw [closedEnds_insert, Function.update_eq_self_iff, closedEnds, payload]
    rfl
  change DetSim.Kernel.Piped node.fdManager (closedEnds _) node.fsState.pipeFds
  rw [same]
  exact piped

/-! ## Making and closing pipes -/

theorem FileSystemState.freePipeId_spec {state : FileSystemState} {rounds : ℕ} {start : Int32}
    (found : state.freePipeId rounds start = some id) (bounded : start.toInt + rounds ≤ 2 ^ 31) :
    start ≤ id ∧ id ∉ state.pipes := by
  induction rounds generalizing start with
  | zero => cases found
  | succ rounds ih =>
    unfold freePipeId at found
    split at found
    · obtain ⟨rounds, rfl⟩ : ∃ before, rounds = before + 1 := by
        cases rounds with
        | zero => cases found
        | succ rounds => exact ⟨rounds, rfl⟩
      have successor := toInt_succ (show start.toInt < 2 ^ 31 - 1 by push_cast at bounded; omega)
      obtain ⟨least, free⟩ := ih found (by push_cast at bounded ⊢; omega)
      rw [Int32.le_iff_toInt_le] at least ⊢
      exact ⟨by omega, free⟩
    next free =>
      cases found
      exact ⟨Int32.le_refl _, by simpa using free⟩

/-- There are fewer pipes than descriptors, and two of those are left. -/
theorem Piped.size_lt (piped : node.Piped) {first second : Int32} (apart : first ≠ second)
    (free : first ∉ node.fdManager) (also : second ∉ node.fdManager) (bound : 0 ≤ first) (bound' : 0 ≤ second) :
    node.fsState.pipes.size + 2 ≤ 2 ^ 31 := by
  have ends : node.fsState.pipes.size ≤ node.fsState.pipeFds.size := by
    have covered : node.fsState.pipes.keys ⊆
        node.fsState.pipeFds.toList.map fun entry => if 0 < entry.2 then entry.2 else -entry.2 := by
      intro id member
      obtain ⟨pipe, payload⟩ := Option.isSome_iff_exists.mp (mem_iff_isSome_getElem?.mp (mem_keys.mp member))
      have found : closedEnds node.fsState.pipes id = some pipe.closed := by rw [closedEnds, payload, Option.map_some]
      obtain ⟨reading, opened⟩ := piped.held id _ found
      obtain ⟨fd, name⟩ := piped.named id _ reading found opened
      exact List.mem_map.mpr ⟨(fd, _), mem_toList_iff_getElem?_eq_some.mpr name,
        pipeId_signedEnd (piped.positive id _ found)⟩
    simpa [length_keys, length_toList] using (nodup_keys.subperm covered).length_le
  have kinds : node.fsState.pipeFds.size ≤ node.fdManager.size := by
    have covered : node.fsState.pipeFds.keys ⊆ node.fdManager.keys := by
      intro fd member
      have kind := piped.kind fd (mem_keys.mp member)
      rw [mem_keys, mem_iff_isSome_getElem?]
      unfold FdManager.getFdType at kind
      cases read : node.fdManager[fd]? with
      | none => simp [read] at kind
      | some => rfl
    simpa [length_keys] using (nodup_keys.subperm covered).length_le
  have distinct : (first :: second :: node.fdManager.keys).Nodup := by
    simp [apart, free, also, nodup_keys]
  have numbers : ∀ fd ∈ first :: second :: node.fdManager.keys, 0 ≤ fd.toInt := by
    have zero : Int32.toInt 0 = 0 := rfl
    intro fd member
    rw [← zero, ← Int32.le_iff_toInt_le]
    rcases List.mem_cons.mp member with rfl | member
    · exact bound
    rcases List.mem_cons.mp member with rfl | member
    · exact bound'
    · exact piped.numbers fd (mem_keys.mp member)
  have images : ((first :: second :: node.fdManager.keys).map fun fd => fd.toInt.toNat).Nodup := by
    refine distinct.map_on fun fd member other member' same => Int32.toInt_inj.mp ?_
    have := numbers fd member
    have := numbers other member'
    omega
  have inside : ((first :: second :: node.fdManager.keys).map fun fd => fd.toInt.toNat) ⊆ List.range (2 ^ 31) := by
    intro number member
    obtain ⟨fd, -, rfl⟩ := List.mem_map.mp member
    have := fd.toInt_lt
    exact List.mem_range.mpr (by omega)
  have few := (images.subperm inside).length_le
  rw [List.length_map, List.length_range, List.length_cons, List.length_cons, length_keys] at few
  omega

theorem Piped.create (piped : Piped manager closing pipeFds) (fresh : closing id = none) (positive : 0 < id)
    {readFd writeFd status status' flags : Int32} (apart : readFd ≠ writeFd) (free : readFd ∉ manager)
    (also : writeFd ∉ manager) (bound : 0 ≤ readFd) (bound' : 0 ≤ writeFd) :
    Piped ((manager.insert readFd ⟨.pipe, status, flags⟩).insert writeFd ⟨.pipe, status', flags⟩)
      (Function.update closing id (some fun _ => false)) ((pipeFds.insert readFd id).insert writeFd (-id)) := by
  have unused : ∀ fd ∉ manager, pipeFds[fd]? = none := by
    intro fd absent
    rw [getElem?_eq_none_iff]
    intro member
    have kind := piped.kind fd member
    rw [FdManager.getFdType, getElem?_eq_none absent] at kind
    cases kind
  have looked : ∀ other name : Int32, ((pipeFds.insert readFd id).insert writeFd (-id))[other]? = some name ↔
      (∃ reading, other = (bif reading then readFd else writeFd) ∧ name = signedEnd id reading) ∨
        pipeFds[other]? = some name := by
    intro other name
    have names : (∃ reading, other = (bif reading then readFd else writeFd) ∧ name = signedEnd id reading) ↔
        writeFd = other ∧ -id = name ∨ readFd = other ∧ id = name := by
      simp [signedEnd, eq_comm]
    rw [names, getElem?_insert_eq, getElem?_insert_eq]
    split
    next here => subst here; simp [unused _ also, apart]
    next different =>
      split
      next here => subst here; simp [unused _ free, apart.symm]
      next here => simp [different, here]
  have elsewhere : ∀ {other closed}, closing other = some closed → other ≠ id := by
    rintro other closed found rfl
    exact absurd (fresh.symm.trans found) (by simp)
  refine ⟨?_, ?_, ?_, ?_, ?_, ?_, ?_⟩
  · intro fd member
    rw [mem_insert, mem_insert, Std.compare_eq_iff_eq, Std.compare_eq_iff_eq] at member
    rcases member with rfl | rfl | member
    · exact bound'
    · exact bound
    · exact piped.numbers fd member
  · intro fd member
    rw [mem_insert, mem_insert, Std.compare_eq_iff_eq, Std.compare_eq_iff_eq] at member
    rw [FdManager.getFdType, getElem?_insert_eq, getElem?_insert_eq]
    split_ifs with second first
    · rfl
    · rfl
    · exact piped.kind fd ((member.resolve_left second).resolve_left first)
  · intro fd name read
    rcases (looked fd name).mp read with ⟨reading, -, rfl⟩ | read
    · exact ⟨id, _, reading, Function.update_self .., rfl, rfl⟩
    · obtain ⟨other, closed, reading, found, opened⟩ := piped.wired fd name read
      exact ⟨other, closed, reading, by rw [Function.update_of_ne (elsewhere found), found], opened⟩
  · intro fd other name read read'
    have old : ∀ {fd : Int32} {side : Bool}, pipeFds[fd]? = some (signedEnd id side) → False := by
      intro fd side read
      obtain ⟨other, closed, reading, found, -, same⟩ := piped.wired fd _ read
      exact elsewhere found (signedEnd_inj positive (piped.positive _ _ found) same).1.symm
    rcases (looked fd name).mp read with ⟨reading, rfl, rfl⟩ | read <;>
      rcases (looked other _).mp read' with ⟨side, rfl, same⟩ | read'
    · rw [(signedEnd_inj positive positive same).2]
    · exact (old read').elim
    · exact (old (same ▸ read)).elim
    · exact piped.single fd other name read read'
  · intro other closed found
    rcases eq_or_ne other id with rfl | apart
    · exact positive
    · rw [Function.update_of_ne apart] at found
      exact piped.positive other closed found
  · intro other closed reading found opened
    rcases eq_or_ne other id with rfl | apart
    · exact ⟨_, (looked _ _).mpr (.inl ⟨reading, rfl, rfl⟩)⟩
    · rw [Function.update_of_ne apart] at found
      obtain ⟨fd, read⟩ := piped.named other closed reading found opened
      exact ⟨fd, (looked _ _).mpr (.inr read)⟩
  · intro other closed found
    rcases eq_or_ne other id with rfl | apart
    · rw [Function.update_self] at found
      exact ⟨true, by rw [← Option.some.inj found]⟩
    · rw [Function.update_of_ne apart] at found
      exact piped.held other closed found

theorem Piped.close (piped : Piped manager closing pipeFds) {closed : Bool → Bool} (found : closing id = some closed)
    (opened : pipeFds[fd]? = some (signedEnd id reading)) :
    Piped (manager.erase fd)
      (Function.update closing id (if closed (!reading) then none else some fun side => side == reading || closed side))
      (pipeFds.erase fd) := by
  have positive := piped.positive id closed found
  have apart : ∀ {other name}, (pipeFds.erase fd)[other]? = some name → fd ≠ other ∧ pipeFds[other]? = some name := by
    intro other name read
    rw [getElem?_erase_eq] at read
    split at read
    · cases read
    · exact ⟨‹_›, read⟩
  -- The descriptor that is left of the pipe is that of the other end.
  have remains : ∀ {other side}, fd ≠ other → pipeFds[other]? = some (signedEnd id side) →
      closed (!reading) = false ∧ side = !reading := by
    intro other side different read
    obtain ⟨id', closed', side', found', unclosed, same⟩ := piped.wired other _ read
    obtain ⟨rfl, rfl⟩ := signedEnd_inj positive (piped.positive _ _ found') same
    obtain rfl := Option.some.inj (found.symm.trans found')
    have sides : side = !reading := by
      rw [Bool.eq_not_iff]
      rintro rfl
      exact different (piped.single fd other _ opened read)
    exact ⟨sides ▸ unclosed, sides⟩
  have after : ∀ {other now}, Function.update closing id
      (if closed (!reading) then none else some fun side => side == reading || closed side) other = some now →
      other = id ∧ closed (!reading) = false ∧ now = (fun side => side == reading || closed side) ∨
        other ≠ id ∧ closing other = some now := by
    intro other now read
    rcases eq_or_ne other id with rfl | apart
    · rw [Function.update_self] at read
      split at read
      · cases read
      · exact .inl ⟨rfl, Bool.eq_false_of_not_eq_true ‹_›, (Option.some.inj read).symm⟩
    · rw [Function.update_of_ne apart] at read
      exact .inr ⟨apart, read⟩
  refine ⟨?_, ?_, ?_, ?_, ?_, ?_, ?_⟩
  · exact fun other member => piped.numbers other (mem_of_mem_erase member)
  · intro other member
    rw [mem_erase, ne_eq, Std.compare_eq_iff_eq] at member
    rw [FdManager.getFdType, getElem?_erase_eq, if_neg member.1]
    exact piped.kind other member.2
  · intro other name read
    obtain ⟨different, read⟩ := apart read
    obtain ⟨id', closed', side, found', unclosed, rfl⟩ := piped.wired other name read
    rcases eq_or_ne id' id with rfl | elsewhere
    · obtain ⟨left, rfl⟩ := remains different read
      exact ⟨id', _, !reading, by rw [Function.update_self, if_neg (by simp [left])], by simp [left], rfl⟩
    · exact ⟨id', closed', side, by rw [Function.update_of_ne elsewhere, found'], unclosed, rfl⟩
  · exact fun first second name read read' => piped.single first second name (apart read).2 (apart read').2
  · intro other now read
    obtain ⟨rfl, -⟩ | ⟨-, read⟩ := after read
    · exact positive
    · exact piped.positive other now read
  · intro other now side read unclosed
    have kept : ∀ {fd'}, fd ≠ fd' → pipeFds[fd']? = some (signedEnd other side) →
        ∃ fd', (pipeFds.erase fd)[fd']? = some (signedEnd other side) := fun different read =>
      ⟨_, by rw [getElem?_erase_eq, if_neg different, read]⟩
    obtain ⟨rfl, -, rfl⟩ | ⟨elsewhere, read⟩ := after read
    · rw [Bool.or_eq_false_iff, beq_eq_false_iff_ne] at unclosed
      obtain ⟨fd', name⟩ := piped.named other closed side found unclosed.2
      refine kept ?_ name
      rintro rfl
      exact unclosed.1 (signedEnd_inj positive positive (Option.some.inj (name.symm.trans opened))).2
    · obtain ⟨fd', name⟩ := piped.named other now side read unclosed
      refine kept ?_ name
      rintro rfl
      exact elsewhere (signedEnd_inj (piped.positive _ _ read) positive (Option.some.inj (name.symm.trans opened))).1
  · intro other now read
    obtain ⟨rfl, left, rfl⟩ | ⟨-, read⟩ := after read
    · exact ⟨!reading, by simp [left]⟩
    · exact piped.held other now read

/-! ## Calls -/

/-- A call on pipes. -/
inductive PipeCall
  | create (flags : Int32)
  | read (fd : Int32) (buf count : UInt64)
  | write (fd : Int32) (buf count : UInt64)
  | close (fd : Int32)

/-- What was written to a pipe and what was taken from it since it was made. -/
structure PipeStream where
  written : Bytes := []
  taken : Bytes := []

namespace PipeCall

def issue (guest : GuestMemory G) (node : NodeIo G) : PipeCall → Except String (Int × NodeIo G)
  | create flags => (node.doPipe flags).map fun outcome => (outcome.1.1, outcome.2)
  | read fd buf count => node.doPipeRead guest fd buf count
  | write fd buf count => node.doPipeWrite guest fd buf count
  | close fd => node.doPipeClose fd

/-- The streams after a call that returned. A pipe that is made starts a new one. -/
def record (guest : GuestMemory G) (node : NodeIo G) (result : Int) (streams : Int32 → PipeStream) :
    PipeCall → Int32 → PipeStream
  | create _, id => if id ∈ node.fsState.pipes then streams id else {}
  | read fd _ _, id =>
    match node.pipeEnd fd with
    | some (name, pipe) =>
      if name = id ∧ 0 < result then
        { streams id with taken := (streams id).taken ++ pipe.buffer.take result.toNat }
      else streams id
    | none => streams id
  | write fd buf _, id =>
    match node.pipeEnd fd, guest.readExact node.memory buf result.toNat with
    | some (name, _), some data =>
      if name = -id ∧ 0 < result then { streams id with written := (streams id).written ++ data } else streams id
    | _, _ => streams id
  | close _, id => streams id

/-- What is asked of a call that returned. -/
def Meets (guest : GuestMemory G) (node next : NodeIo G) (result : Int) : PipeCall → Prop
  | create _ => result = 0 → ∃ id, id ∉ node.fsState.pipes ∧
      (∀ (fd : Int32) reading, node.fsState.pipeFds[fd]? ≠ some (signedEnd id reading)) ∧
      next.fsState.pipes = node.fsState.pipes.insert id ⟨[], false, false⟩
  | read fd buf count => count ≠ 0 →
      (result = 0 ↔ ∃ pipe, node.Abandoned fd true pipe ∧ pipe.buffer = []) ∧
      (0 < result → ∃ id pipe, node.EndOf fd id true pipe ∧
        guest.writeExact node.memory buf (pipe.buffer.take result.toNat) = (next.memory, true))
  | write fd _ count => count ≠ 0 →
      (result = ePipe ↔ ∃ pipe, node.Abandoned fd false pipe) ∧
      (count.toNat ≤ pipeAtomicLimit → 0 ≤ result → result = count.toNat)
  | close _ => ∀ id ∈ node.fsState.pipes, id ∉ next.fsState.pipes →
      ∀ (other : Int32) reading, next.fsState.pipeFds[other]? ≠ some (signedEnd id reading)

end PipeCall

/-- The buffers hold what was written and not yet taken. -/
def Buffered (pipes : Map Int32 Pipe) (streams : Int32 → PipeStream) : Prop :=
  ∀ id pipe, pipes[id]? = some pipe →
    (streams id).written = (streams id).taken ++ pipe.buffer ∧ pipe.buffer.length ≤ pipeCapacity

theorem Buffered.insert {pipes : Map Int32 Pipe} {streams after : Int32 → PipeStream}
    (buffered : Buffered pipes streams)
    {now : Pipe} (here : (after id).written = (after id).taken ++ now.buffer ∧ now.buffer.length ≤ pipeCapacity)
    (elsewhere : ∀ other ∈ pipes, other ≠ id → after other = streams other) : Buffered (pipes.insert id now) after := by
  intro other found read
  rw [getElem?_insert_eq] at read
  split at read
  next same =>
    cases read
    exact same ▸ here
  next apart =>
    rw [elsewhere other (mem_iff_isSome_getElem?.mpr (by simp [read])) (Ne.symm apart)]
    exact buffered other found read

/-- One call keeps the pipes in order. -/
structure PipeStep (guest : GuestMemory G) (call : PipeCall) (node next : NodeIo G) (result : Int)
    (streams : Int32 → PipeStream) : Prop where
  piped : next.Piped
  buffered : Buffered next.fsState.pipes (call.record guest node result streams)
  meets : call.Meets guest node next result
  unchanged : result < 0 → next.fsState = node.fsState ∧ next.fdManager = node.fdManager

variable {streams : Int32 → PipeStream} {buf count : UInt64}

theorem record_read_of_nonpos (nothing : result ≤ 0) :
    (PipeCall.read fd buf count).record guest node result streams = streams := by
  funext id
  simp only [PipeCall.record, not_lt.mpr nothing, and_false, if_false]
  split <;> rfl

theorem record_write_of_nonpos (nothing : result ≤ 0) :
    (PipeCall.write fd buf count).record guest node result streams = streams := by
  funext id
  simp only [PipeCall.record, not_lt.mpr nothing, and_false, if_false]
  split <;> rfl

theorem doPipeRead_step (piped : node.Piped) (buffered : Buffered node.fsState.pipes streams)
    (returned : node.doPipeRead guest fd buf count = .ok (result, next)) :
    PipeStep guest (.read fd buf count) node next result streams := by
  -- A call that takes nothing, with what makes it return zero.
  have idle : ∀ {outcome : Int} {memory : G}, outcome ≤ 0 →
      (count ≠ 0 → (outcome = 0 ↔ ∃ pipe, node.Abandoned fd true pipe ∧ pipe.buffer = [])) →
      PipeStep guest (.read fd buf count) node { node with memory } outcome streams := fun nothing ends =>
    ⟨piped, by rw [record_read_of_nonpos nothing]; exact buffered,
      fun some => ⟨ends some, fun positive => absurd nothing (not_le.mpr positive)⟩, fun _ => ⟨rfl, rfl⟩⟩
  unfold NodeIo.doPipeRead at returned
  cases found : node.pipeEnd fd with
  | none =>
    rw [found] at returned
    cases returned
    refine idle (by decide) fun _ => iff_of_false (by decide) ?_
    rintro ⟨_, alone, -⟩
    exact piped.not_abandoned_of_none found alone
  | some entry =>
    obtain ⟨name, pipe⟩ := entry
    obtain ⟨id, reading, isEnd, rfl⟩ := piped.pipeEnd_iff.mp found
    have positive := piped.positive_of_payload isEnd.payload
    simp only [found] at returned
    have ends : (∃ pipe, node.Abandoned fd true pipe ∧ pipe.buffer = []) ↔
        reading = true ∧ pipe.closed (!reading) = true ∧ pipe.buffer = [] := by
      simp [piped.abandoned_iff isEnd, and_assoc]
    cases reading with
    | false =>
      rw [if_pos (show signedEnd id false < 0 from neg_lt_zero_of_pos positive)] at returned
      cases returned
      exact idle (by decide) fun _ => iff_of_false (by decide) (by simp [ends])
    | true =>
      rw [if_neg (show ¬ signedEnd id true < 0 from Int32.not_lt.mpr (Int32.le_of_lt positive))] at returned
      split at returned
      next zero =>
        cases returned
        exact idle le_rfl fun some => absurd zero some
      next some =>
        split at returned
        next empty =>
          cases returned
          refine idle (by split <;> decide) fun _ => ?_
          rw [ends, show pipe.closed (!true) = pipe.writeClosed from rfl]
          cases pipe.writeClosed <;> simp [empty, eAgain]
        next waiting =>
          split at returned
          next memory _ =>
            cases returned
            exact idle (by decide) fun _ => iff_of_false (by decide) (by simp [ends, waiting])
          next memory copied =>
            cases returned
            have length : 0 < (pipe.buffer.take count.toNat).length := by
              have : count.toNat ≠ 0 := fun zero => some (UInt64.toNat_inj.mp zero)
              have := List.length_pos_iff.mpr waiting
              rw [List.length_take]
              omega
            have same : pipe.buffer.take ((pipe.buffer.take count.toNat).length : Int).toNat =
                pipe.buffer.take count.toNat := by
              rw [Int.toNat_natCast, List.length_take, ← List.take_eq_take_min]
            rw [setPipe_signedEnd positive]
            refine ⟨?_, buffered.insert ?_ ?_, fun _ => ⟨iff_of_false (by omega) ?_, fun _ => ⟨id, pipe, isEnd, ?_⟩⟩,
              fun negative => absurd negative (by omega)⟩
            · exact piped.setBuffer isEnd.payload _ _
            · have before := buffered id pipe isEnd.payload
              simp only [PipeCall.record, found, show signedEnd id true = id from rfl, true_and, Nat.cast_pos, length,
                if_true, same, List.append_assoc, List.take_append_drop, List.length_drop]
              exact ⟨before.1, by omega⟩
            · intro other _ apart
              simp only [PipeCall.record, found, show signedEnd id true = id from rfl, Ne.symm apart, false_and,
                if_false]
            · simp [ends, waiting]
            · rw [same]
              exact copied

theorem doPipeWrite_step (exact : guest.Exact) (piped : node.Piped) (buffered : Buffered node.fsState.pipes streams)
    (returned : node.doPipeWrite guest fd buf count = .ok (result, next)) :
    PipeStep guest (.write fd buf count) node next result streams := by
  -- A call that writes nothing, with what makes it find a broken pipe.
  have idle : ∀ {outcome : Int}, (outcome < 0 ∨ outcome = 0 ∧ count = 0) →
      (count ≠ 0 → (outcome = ePipe ↔ ∃ pipe, node.Abandoned fd false pipe)) →
      PipeStep guest (.write fd buf count) node node outcome streams := fun nothing broken =>
    ⟨piped, by rw [record_write_of_nonpos (by omega)]; exact buffered,
      fun some => ⟨broken some, fun _ bound => nothing.elim (fun negative => absurd bound (by omega))
        fun zero => absurd zero.2 some⟩, fun _ => ⟨rfl, rfl⟩⟩
  unfold NodeIo.doPipeWrite at returned
  cases found : node.pipeEnd fd with
  | none =>
    rw [found] at returned
    cases returned
    refine idle (.inl (by decide)) fun _ => iff_of_false (by decide) ?_
    rintro ⟨_, alone⟩
    exact piped.not_abandoned_of_none found alone
  | some entry =>
    obtain ⟨name, pipe⟩ := entry
    obtain ⟨id, reading, isEnd, rfl⟩ := piped.pipeEnd_iff.mp found
    have positive := piped.positive_of_payload isEnd.payload
    simp only [found] at returned
    have broken : (∃ pipe, node.Abandoned fd false pipe) ↔ reading = false ∧ pipe.closed (!reading) = true := by
      simp [piped.abandoned_iff isEnd]
    cases reading with
    | true =>
      rw [if_pos (show 0 < signedEnd id true from positive)] at returned
      cases returned
      exact idle (.inl (by decide)) fun _ => iff_of_false (by decide) (by simp [broken])
    | false =>
      rw [if_neg (show ¬ 0 < signedEnd id false from
        Int32.not_lt.mpr (Int32.le_of_lt (neg_lt_zero_of_pos positive)))] at returned
      split at returned
      next zero =>
        cases returned
        exact idle (.inr ⟨rfl, zero⟩) fun some => absurd zero some
      next some =>
        split at returned
        next closed =>
          cases returned
          exact idle (.inl (by decide)) fun _ => iff_of_true rfl (broken.mpr ⟨rfl, closed⟩)
        next opened =>
          have unbroken := broken.not.mpr fun both => opened both.2
          split at returned
          · cases returned
            exact idle (.inl (by decide)) fun _ => iff_of_false (by decide) unbroken
          split at returned
          · cases returned
          split at returned
          · cases returned
            exact idle (.inl (by decide)) fun _ => iff_of_false (by decide) unbroken
          next room =>
            split at returned
            · cases returned
              exact idle (.inl (by decide)) fun _ => iff_of_false (by decide) unbroken
            next data copied =>
              cases returned
              have length := exact.length_readExact copied
              have value : (min (count.toNat : Int) (pipeCapacity - pipe.buffer.length : ℕ)).toNat =
                  min count.toNat (pipeCapacity - pipe.buffer.length) := by omega
              have some_ : count.toNat ≠ 0 := fun zero => some (UInt64.toNat_inj.mp zero)
              have before := buffered id pipe isEnd.payload
              rw [setPipe_signedEnd positive]
              refine ⟨?_, buffered.insert ?_ ?_, fun _ => ⟨iff_of_false ?_ unbroken, fun atomic _ => ?_⟩,
                fun negative => absurd negative (by omega)⟩
              · exact piped.setBuffer isEnd.payload _ _
              · simp only [PipeCall.record, found, value, copied]
                rw [if_pos ⟨rfl, by omega⟩, List.length_append, length]
                exact ⟨by rw [before.1, List.append_assoc], by omega⟩
              · intro other _ apart
                simp only [PipeCall.record, found, value, copied]
                rw [if_neg fun both => apart (by simpa [signedEnd] using both.1.symm)]
              · rw [show ePipe = -32 from rfl]
                omega
              · omega

theorem doPipeClose_step (piped : node.Piped) (buffered : Buffered node.fsState.pipes streams)
    (returned : node.doPipeClose fd = .ok (result, next)) : PipeStep guest (.close fd) node next result streams := by
  have idle : PipeStep guest (.close fd) node node eBadf streams :=
    ⟨piped, buffered, fun _ member absent => absurd member absent, fun _ => ⟨rfl, rfl⟩⟩
  unfold NodeIo.doPipeClose at returned
  split at returned
  · cases returned
    exact idle
  cases opened : node.fsState.pipeFds[fd]? with
  | none =>
    rw [opened] at returned
    cases returned
    exact idle
  | some name =>
    obtain ⟨id, closed, reading, found, unclosed, rfl⟩ := piped.wired fd name opened
    have positive := piped.positive id closed found
    obtain ⟨pipe, payload, rfl⟩ := Option.map_eq_some_iff.mp found
    simp only [opened, pipeId_signedEnd positive, payload] at returned
    simp only [signedEnd_pos_iff positive] at returned
    generalize shape :
      (if reading = true then { pipe with readClosed := true } else { pipe with writeClosed := true }) = now at returned
    have closes : now.closed = fun side => side == reading || pipe.closed side := by
      subst shape
      funext side
      cases reading <;> cases side <;> simp [Pipe.closed]
    have both : (now.readClosed && now.writeClosed) = pipe.closed (!reading) := by
      subst shape
      cases reading <;> simp [Pipe.closed]
    have buffer : now.buffer = pipe.buffer := by
      subst shape
      cases reading <;> rfl
    cases returned
    have after := piped.close found opened
    have stays : Buffered (if (now.readClosed && now.writeClosed) = true then node.fsState.pipes.erase id
        else node.fsState.pipes.insert id now) streams := by
      split
      · intro other found read
        rw [getElem?_erase_eq] at read
        exact buffered other found (Option.ite_none_left_eq_some.mp read).2
      · exact buffered.insert (by rw [buffer]; exact buffered id pipe payload) fun _ _ _ => rfl
    have ends : closedEnds (if (now.readClosed && now.writeClosed) = true then node.fsState.pipes.erase id
        else node.fsState.pipes.insert id now) = Function.update (closedEnds node.fsState.pipes) id
          (if pipe.closed (!reading) then none else some fun side => side == reading || pipe.closed side) := by
      rw [both, ← closes]
      split
      · exact closedEnds_erase _
      · exact closedEnds_insert _
    rw [← ends] at after
    refine ⟨after, stays, fun other member absent => ?_, fun negative => absurd negative (by decide)⟩
    obtain ⟨found, read⟩ := Option.isSome_iff_exists.mp (mem_iff_isSome_getElem?.mp member)
    exact Piped.unnamed after (piped.positive_of_payload read) absent

theorem doPipe_step (piped : node.Piped) (buffered : Buffered node.fsState.pipes streams) {flags : Int32}
    {ends : Option (Int32 × Int32)} (returned : node.doPipe flags = .ok ((result, ends), next)) :
    PipeStep guest (.create flags) node next result streams := by
  have idle : ∀ {outcome : Int}, outcome < 0 → PipeStep guest (.create flags) node node outcome streams := by
    intro outcome negative
    refine ⟨piped, fun id pipe payload => ?_, fun zero => absurd negative (by omega), fun _ => ⟨rfl, rfl⟩⟩
    rw [PipeCall.record, if_pos (mem_iff_isSome_getElem?.mpr (by simp [payload]))]
    exact buffered id pipe payload
  unfold NodeIo.doPipe at returned
  split at returned
  · cases returned
    exact idle (by decide)
  split at returned
  · cases returned
  next id chosen =>
    obtain ⟨⟨readFd, middle⟩, first, returned⟩ := Except.bind_eq_ok.mp returned
    obtain ⟨⟨writeFd, after⟩, second, returned⟩ := Except.bind_eq_ok.mp returned
    dsimp only at second returned
    split at returned
    next readFd writeFd =>
      cases returned
      obtain ⟨bound, free, rfl, numbers⟩ := FdManager.allocateFd_fresh piped.numbers first
      obtain ⟨bound', free', rfl, -⟩ := FdManager.allocateFd_fresh numbers second
      rw [mem_insert, Std.compare_eq_iff_eq, not_or] at free'
      have few := piped.size_lt free'.1 free free'.2 bound bound'
      obtain ⟨positive, absent⟩ := FileSystemState.freePipeId_spec chosen
        (by rw [show Int32.toInt 1 = 1 from rfl]; push_cast; omega)
      have positive : 0 < id := Int32.lt_of_lt_of_le (by decide) positive
      have fresh : closedEnds node.fsState.pipes id = none := by rw [closedEnds, getElem?_eq_none absent]; rfl
      have opened : Pipe.closed ⟨[], false, false⟩ = fun _ => false := by
        funext side
        cases side <;> rfl
      refine ⟨?_, buffered.insert ?_ ?_, fun _ => ⟨id, absent, piped.unnamed positive absent, rfl⟩,
        fun negative => absurd negative (by decide)⟩
      · change Piped _ (closedEnds _) _
        rw [closedEnds_insert, opened]
        exact piped.create fresh positive free'.1 free free'.2 bound bound'
      · rw [PipeCall.record, if_neg absent]
        exact ⟨rfl, by decide⟩
      · exact fun other member _ => if_pos member
    next =>
      cases returned
      exact idle (by decide)

/-! ## Runs -/

/-- The runs of calls of a process on its pipes, with the streams of the pipes. What a pipe holds at the start counts as
written. Between the calls the process may do anything else: its memory and its other descriptors may change, and the
flags of those of pipes. -/
inductive PipeRun (guest : GuestMemory G) : NodeIo G → (Int32 → PipeStream) → Prop
  | start {node : NodeIo G} (piped : node.Piped)
      (bounded : ∀ (id : Int32) (pipe : Pipe), node.fsState.pipes[id]? = some pipe → pipe.buffer.length ≤ pipeCapacity) :
      PipeRun guest node fun id => { written := (node.fsState.pipes[id]?.map Pipe.buffer).getD [] }
  | other {node next : NodeIo G} {streams : Int32 → PipeStream} (run : PipeRun guest node streams)
      (pipes : next.fsState.pipes = node.fsState.pipes) (pipeFds : next.fsState.pipeFds = node.fsState.pipeFds)
      (kinds : ∀ fd, node.fdManager.getFdType fd = some .pipe → next.fdManager.getFdType fd = some .pipe)
      (numbers : ∀ fd ∈ next.fdManager, 0 ≤ fd) : PipeRun guest next streams
  | call {node next : NodeIo G} {streams : Int32 → PipeStream} {call : PipeCall} {result : Int}
      (run : PipeRun guest node streams) (returned : call.issue guest node = .ok (result, next)) :
      PipeRun guest next (call.record guest node result streams)

theorem PipeCall.issue_step (exact : guest.Exact) (piped : node.Piped) (buffered : Buffered node.fsState.pipes streams)
    {call : PipeCall} (returned : call.issue guest node = .ok (result, next)) :
    PipeStep guest call node next result streams := by
  cases call with
  | create flags =>
    obtain ⟨⟨⟨value, ends⟩, after⟩, made, same⟩ := Except.map_eq_ok.mp returned
    cases same
    exact doPipe_step piped buffered made
  | read => exact doPipeRead_step piped buffered returned
  | write => exact doPipeWrite_step exact piped buffered returned
  | close => exact doPipeClose_step piped buffered returned

theorem PipeRun.invariant (exact : guest.Exact) (run : PipeRun guest node streams) :
    node.Piped ∧ Buffered node.fsState.pipes streams := by
  induction run with
  | start piped bounded =>
    refine ⟨piped, fun id pipe payload => ⟨?_, bounded id pipe payload⟩⟩
    simp [payload]
  | other run pipes pipeFds kinds numbers ih =>
    obtain ⟨⟨_, kind, wired, single, positive, named, held⟩, buffered⟩ := ih
    unfold NodeIo.Piped
    rw [pipes, pipeFds]
    exact ⟨⟨numbers, fun fd member => kinds fd (kind fd member), wired, single, positive, named, held⟩, buffered⟩
  | call run returned ih =>
    have step := PipeCall.issue_step exact ih.1 ih.2 returned
    exact ⟨step.piped, step.buffered⟩

end

section FirstPipe

end FirstPipe

end DetSim.Kernel
