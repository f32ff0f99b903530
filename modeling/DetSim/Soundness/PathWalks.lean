import DetSim.Model.Files
import DetSim.ToMathlib.SeparatedPaths
import Mathlib

/-! # Resolved paths

A walk over the files keeps a canonical path whose directories exist. It ends because each link uses up one of the
forty that may be followed. The path that it finds is found again from the root without following its last component,
and a walk that follows no link only collapses the text of its path.
-/

namespace DetSim.Kernel

open SeparatedPaths

/-- A name in a directory. -/
def Plain (part : Bytes) : Prop := part ≠ [] ∧ slash ∉ part ∧ part ≠ [46] ∧ part ≠ [46, 46]

def CanonicalPath (path : Bytes) : Prop := ∃ parts, path = absolute slash parts ∧ ∀ part ∈ parts, Plain part

section

variable (view : FileView)

def IsDirectory (path : Bytes) : Prop := ∃ kind bytes, view path = some (kind, bytes) ∧ sIsDir kind

def IsLink (path : Bytes) : Prop := ∃ kind bytes, view path = some (kind, bytes) ∧ sIsLnk kind

/-- There is a root, and each file with a path has a name that is not too long, in a directory. -/
structure WellFormed : Prop where
  root : IsDirectory view [slash]
  inside : ∀ parts part, (∀ name ∈ parts ++ [part], Plain name) → view (absolute slash (parts ++ [part])) ≠ none →
    part.length ≤ 255 ∧ IsDirectory view (absolute slash parts)

/-- A canonical path, all of whose directories exist. -/
structure Located (parts : List Bytes) : Prop where
  plain : ∀ part ∈ parts, Plain part
  short : ∀ part ∈ parts, part.length ≤ 255
  above : ∀ number < parts.length, IsDirectory view (absolute slash (parts.take number))

/-- The walks over pending components, with the number of links that they follow. -/
inductive Walk (mode : WalkMode) : Bytes → List Bytes → ℕ → Bytes → Prop
  | done (current : Bytes) : Walk mode current [] 0 current
  | stay {current part result : Bytes} {pending : List Bytes} {links : ℕ} (directory : IsDirectory view current)
      (still : part = [] ∨ part = [46]) (rest : Walk mode current pending links result) :
      Walk mode current (part :: pending) links result
  | up {current result : Bytes} {pending : List Bytes} {links : ℕ} (directory : IsDirectory view current)
      (rest : Walk mode (parentPath current) pending links result) :
      Walk mode current ([46, 46] :: pending) links result
  | enter {current part result : Bytes} {pending : List Bytes} {links : ℕ} (directory : IsDirectory view current)
      (named : part ≠ [] ∧ part ≠ [46] ∧ part ≠ [46, 46]) (short : part.length ≤ 255)
      (kept : IsLink view (joinPaths current part) → pending = [] ∧ mode.followFinal = false)
      (rest : Walk mode (joinPaths current part) pending links result) :
      Walk mode current (part :: pending) links result
  | follow {current part target result : Bytes} {pending : List Bytes} {links : ℕ} {kind : UInt32}
      (directory : IsDirectory view current) (read : view (joinPaths current part) = some (kind, target))
      (link : sIsLnk kind)
      (rest : Walk mode (if target.head? == some slash then [slash] else current) (prependPath target pending) links
        result) : Walk mode current (part :: pending) (links + 1) result

end

variable {view : FileView} {mode : WalkMode} {current result part : Bytes} {pending parts : List Bytes} {links : ℕ}

theorem not_isLink_of_isDirectory {path : Bytes} (directory : IsDirectory view path) : ¬ IsLink view path := by
  rintro ⟨kind, bytes, read, link⟩
  obtain ⟨kind', bytes', read', isDirectory⟩ := directory
  obtain rfl : kind = kind' := by simpa using congrArg (Option.map Prod.fst) (read.symm.trans read')
  simp only [sIsDir, sIsLnk, sIsType, beq_iff_eq] at link isDirectory
  rw [link] at isDirectory
  exact absurd isDirectory (by decide)

/-! ## Walks -/

/-- A walk of the code is a walk that follows at most forty links. -/
theorem walk_of_walkPath {before : ℕ} (walked : walkPath view mode before current pending = .ok result) :
    ∃ links, links ≤ 40 - before ∧ Walk view mode current pending links result := by
  fun_induction walkPath view mode before current pending
  all_goals try cases walked
  case case1 => exact ⟨0, Nat.zero_le _, .done _⟩
  -- A component that stays in the directory.
  case case7 read directory _ _ _ still ih =>
    obtain ⟨links, bound, walk⟩ := ih walked
    exact ⟨links, bound, .stay ⟨_, _, read, by simpa using directory⟩ (by simpa using still) walk⟩
  case case8 read directory _ _ _ _ above ih =>
    obtain ⟨links, bound, walk⟩ := ih walked
    obtain rfl := beq_iff_eq.mp above
    exact ⟨links, bound, .up ⟨_, _, read, by simpa using directory⟩ walk⟩
  case case11 read directory _ _ _ _ _ _ _ _ found link fewer _ _ ih =>
    obtain ⟨links, bound, walk⟩ := ih walked
    rw [Bool.and_eq_true] at link
    exact ⟨links + 1, by omega, .follow ⟨_, _, read, by simpa using directory⟩ found link.1 walk⟩
  -- A component that is entered, whether there is a file or not.
  case case13 read directory _ _ short still above next kind target found kept ih =>
    obtain ⟨links, bound, walk⟩ := ih walked
    refine ⟨links, bound, .enter ⟨_, _, read, by simpa using directory⟩ (by simp_all) (not_lt.mp short) ?_ walk⟩
    rintro ⟨kind', bytes, read', link⟩
    obtain ⟨rfl, rfl⟩ : kind = kind' ∧ target = bytes := by simpa using found.symm.trans read'
    simpa [link] using kept
  case case14 read directory _ _ short still above next missing ih =>
    obtain ⟨links, bound, walk⟩ := ih walked
    refine ⟨links, bound, .enter ⟨_, _, read, by simpa using directory⟩ (by simp_all) (not_lt.mp short) ?_ walk⟩
    rintro ⟨_, _, read', _⟩
    exact absurd (missing.symm.trans read') (by simp)

/-! ## Canonical paths -/

theorem Plain.free (plain : Plain part) : slash ∉ part ∧ part ≠ [] := ⟨plain.2.1, plain.1⟩

theorem absolute_eq_root_iff (plain : ∀ part ∈ parts, Plain part) : absolute slash parts = [slash] ↔ parts = [] := by
  refine ⟨fun root => ?_, by rintro rfl; rfl⟩
  rw [← components_absolute slash fun part member => (plain part member).free, root]
  decide

theorem getLast?_absolute (plain : ∀ part ∈ parts, Plain part) :
    (absolute slash parts).getLast? = some slash ↔ parts = [] := by
  induction parts using List.reverseRecOn with
  | nil => simp
  | append_singleton parts part =>
    have named := plain part (by simp)
    rw [absolute_append, List.append_cons, List.getLast?_append_of_ne_nil _ named.1]
    simpa using fun ends => named.2.1 (List.mem_of_getLast? ends)

/-- Entering a directory adds its name. -/
theorem joinPaths_absolute (plain : ∀ other ∈ parts, Plain other) (some : part ≠ []) (free : slash ∉ part) :
    joinPaths (absolute slash parts) part = absolute slash (parts ++ [part]) := by
  have relative : part.head? ≠ Option.some slash := fun first => free (List.mem_of_head? first)
  unfold joinPaths
  rcases eq_or_ne parts [] with rfl | nonempty
  · simp [some, relative, absolute]
  · have root := (absolute_eq_root_iff plain).not.mpr nonempty
    have last := (getLast?_absolute plain).not.mpr nonempty
    have front : absolute slash parts ≠ [] := List.cons_ne_nil _ _
    rw [absolute_append, if_neg nonempty]
    simp [some, relative, root, last, front]

theorem parentPath_absolute (plain : ∀ other ∈ parts, Plain other) :
    parentPath (absolute slash parts) = absolute slash parts.dropLast := by
  induction parts using List.reverseRecOn with
  | nil => rfl
  | append_singleton parts part =>
    have passes : ∀ letter ∈ part.reverse, (letter != slash) = true := by
      intro letter member
      rw [bne_iff_ne]
      rintro rfl
      exact (plain part (by simp)).2.1 (List.mem_reverse.mp member)
    unfold parentPath
    rw [absolute_append, List.dropLast_concat, List.reverse_append, List.reverse_cons, List.append_assoc,
      List.dropWhile_append_of_pos passes]
    split
    next none => simp [none]
    next => simp [absolute]

namespace Located

theorem nil : Located view [] := ⟨by simp, by simp, by simp⟩

theorem dropLast (located : Located view parts) : Located view parts.dropLast where
  plain := fun part member => located.plain part (List.mem_of_mem_dropLast member)
  short := fun part member => located.short part (List.mem_of_mem_dropLast member)
  above := by
    intro number inside
    rw [List.length_dropLast] at inside
    rw [List.dropLast_eq_take, List.take_take, min_eq_left (by omega)]
    exact located.above number (by omega)

theorem append (located : Located view parts) (directory : IsDirectory view (absolute slash parts)) (plain : Plain part)
    (short : part.length ≤ 255) : Located view (parts ++ [part]) where
  plain := by simpa [or_imp, forall_and] using ⟨located.plain, plain⟩
  short := by simpa [or_imp, forall_and] using ⟨located.short, short⟩
  above := by
    intro number inside
    rw [List.length_append, List.length_singleton, Nat.lt_succ_iff] at inside
    rw [List.take_append_of_le_length inside]
    rcases inside.eq_or_lt with rfl | fewer
    · rwa [List.take_length]
    · exact located.above number fewer

/-- The directory above a located path exists. -/
theorem isDirectory_dropLast (located : Located view parts) (root : IsDirectory view [slash]) :
    IsDirectory view (absolute slash parts.dropLast) := by
  rcases eq_or_ne parts [] with rfl | some
  · exact root
  · rw [List.dropLast_eq_take]
    exact located.above _ (Nat.sub_one_lt (by simpa using some))

/-- In a well-formed file system a canonical path of a file is located. -/
theorem of_exists (wellFormed : WellFormed view) (plain : ∀ part ∈ parts, Plain part)
    (found : view (absolute slash parts) ≠ none) : Located view parts := by
  induction parts using List.reverseRecOn with
  | nil => exact nil
  | append_singleton parts part ih =>
    obtain ⟨short, directory⟩ := wellFormed.inside parts part plain found
    have before := ih (fun other member => plain other (by simp [member])) (by
      obtain ⟨_, _, read, _⟩ := directory
      simp [read])
    exact before.append directory (plain part (by simp)) short

end Located

theorem notMem_of_mem_prependPath {value part : Bytes} (free : ∀ other ∈ pending, slash ∉ other)
    (member : part ∈ prependPath value pending) : slash ∉ part := by
  unfold prependPath at member
  rw [List.mem_append, List.mem_append] at member
  rcases member with (member | member) | member
  · exact notMem_of_mem_components slash member
  · split at member
    · obtain rfl := List.mem_singleton.mp member
      exact List.not_mem_nil
    · cases member
  · exact free part member

theorem filter_prependPath (path : Bytes) : (prependPath path []).filter (!·.isEmpty) = components slash path := by
  unfold prependPath components
  split <;> simp

/-- A walk ends at a located path, which is not a link if final links are followed. -/
theorem Walk.located (walk : Walk view mode current pending links result) (root : IsDirectory view [slash])
    (start : current = absolute slash parts) (located : Located view parts) (free : ∀ part ∈ pending, slash ∉ part)
    (unlinked : mode.followFinal → ¬ IsLink view current) :
    (∃ parts, result = absolute slash parts ∧ Located view parts) ∧ (mode.followFinal → ¬ IsLink view result) := by
  induction walk generalizing parts with
  | done => exact ⟨⟨parts, start, located⟩, unlinked⟩
  | stay _ _ _ ih => exact ih start located (fun part member => free part (List.mem_cons_of_mem _ member)) unlinked
  | up _ _ ih =>
    subst start
    rw [parentPath_absolute located.plain] at ih
    exact ih rfl located.dropLast (fun part member => free part (List.mem_cons_of_mem _ member))
      fun _ => not_isLink_of_isDirectory (located.isDirectory_dropLast root)
  | @enter _ part _ _ _ directory named short kept _ ih =>
    subst start
    have separate := free part List.mem_cons_self
    refine ih (joinPaths_absolute located.plain named.1 separate)
      (located.append directory ⟨named.1, separate, named.2⟩ short)
      (fun part member => free part (List.mem_cons_of_mem _ member)) fun follows link => ?_
    rw [(kept link).2] at follows
    cases follows
  | @follow _ _ target _ pending _ _ directory _ _ _ ih =>
    have pieces : ∀ part ∈ prependPath target pending, slash ∉ part := fun part =>
      notMem_of_mem_prependPath fun other member => free other (List.mem_cons_of_mem _ member)
    cases absolute : target.head? == some slash with
    | true =>
      simp only [absolute, if_true] at ih
      exact ih (absolute_nil slash).symm .nil pieces fun _ => not_isLink_of_isDirectory root
    | false =>
      simp only [absolute] at ih
      exact ih start located pieces unlinked

/-- A walk without links collapses the text of its components. -/
theorem Walk.collapses (walk : Walk view mode current pending links result) (none : links = 0)
    (start : current = absolute slash parts) (plain : ∀ part ∈ parts, Plain part)
    (free : ∀ part ∈ pending, slash ∉ part) :
    result = absolute slash ((pending.filter (!·.isEmpty)).foldl FileSystemState.collapse parts) := by
  induction walk generalizing parts with
  | done => exact start
  | stay _ still _ ih =>
    rw [ih none start plain fun part member => free part (List.mem_cons_of_mem _ member)]
    rcases still with rfl | rfl <;> rfl
  | up _ _ ih =>
    subst start
    rw [parentPath_absolute plain] at ih
    exact ih none rfl (fun part member => plain part (List.mem_of_mem_dropLast member))
      fun part member => free part (List.mem_cons_of_mem _ member)
  | @enter _ part _ pending _ _ named _ _ _ ih =>
    subst start
    have separate := free part List.mem_cons_self
    rw [ih none (joinPaths_absolute plain named.1 separate)
      (by simpa [or_imp, forall_and] using ⟨plain, named.1, separate, named.2⟩)
      fun part member => free part (List.mem_cons_of_mem _ member)]
    simp [named, FileSystemState.collapse]
  | follow => cases none

/-- A located path is found from each of its directories. -/
theorem walkPath_located {rest : List Bytes} (located : Located view (parts ++ rest))
    (searched : mode.checkSearch = false) (found : mode.creating = false)
    (kept : mode.followFinal → ¬ IsLink view (absolute slash (parts ++ rest))) :
    walkPath view mode links (absolute slash parts) rest = .ok (absolute slash (parts ++ rest)) := by
  induction rest generalizing parts with
  | nil => rw [walkPath, List.append_nil]
  | cons part rest ih =>
    have named := located.plain part (by simp)
    obtain ⟨kind, bytes, read, directory⟩ := located.above parts.length (by simp)
    rw [List.take_left] at read
    have plain : ∀ other ∈ parts, Plain other := fun other member => located.plain other (by simp [member])
    have joined := joinPaths_absolute plain named.1 named.2.1
    have next : walkPath view mode links (absolute slash (parts ++ [part])) rest =
        .ok (absolute slash (parts ++ [part] ++ rest)) := ih (by simpa using located) (by simpa using kept)
    have unfollowed : ∀ kind target, view (absolute slash (parts ++ [part])) = some (kind, target) →
        (sIsLnk kind && (!rest.isEmpty || mode.followFinal)) = false := by
      intro kind target read
      rw [Bool.and_eq_false_imp]
      intro link
      cases rest with
      | nil => simpa [IsLink, read, link] using kept
      | cons second rest =>
        have above := located.above (parts.length + 1) (by simp)
        rw [List.take_length_add_append] at above
        exact absurd ⟨kind, target, read, link⟩ (not_isLink_of_isDirectory above)
    rw [walkPath, read]
    simp only [directory, searched, found, joined, named.2.2, not_lt.mpr (located.short part (by simp)),
      List.isEmpty_eq_false_iff.mpr named.1, Bool.not_true, Bool.false_and, Bool.false_eq_true, if_false, beq_iff_eq,
      Bool.or_eq_true, or_self]
    rw [List.append_assoc] at next
    split
    next kind target read => rw [unfollowed kind target read, if_neg Bool.false_ne_true, next]; rfl
    next => exact next

/-! ## Calls -/

namespace FileSystemState

variable {state : FileSystemState} {fdManager : FdManager} {dirfd : Int32} {path : Bytes}

/-- Where the walk of a path starts. -/
def walkStart (state : FileSystemState) (dirfd : Int32) (path : Bytes) : Bytes :=
  if path.head? == some slash then [slash]
  else if dirfd == atFdcwd then if state.cwd.isEmpty then [slash] else state.cwd
  else match state.openFiles[dirfd]? with
    | some description => description.path
    | none => [slash]

/-- The working directory and the directory of a descriptor have canonical paths. -/
structure Anchored (state : FileSystemState) (dirfd : Int32) : Prop where
  cwd : state.cwd = [] ∨ CanonicalPath state.cwd ∧ IsDirectory state.view state.cwd
  descriptor : ∀ description, state.openFiles[dirfd]? = some description → IsDirectory state.view description.path →
    CanonicalPath description.path

theorem resolveAt_walk (anchored : state.Anchored dirfd) (root : IsDirectory state.view [slash])
    (resolved : state.resolveAt fdManager mode dirfd path = .ok result) :
    walkPath state.view mode 0 (state.walkStart dirfd path) (prependPath path []) = .ok result ∧
      CanonicalPath (state.walkStart dirfd path) ∧ IsDirectory state.view (state.walkStart dirfd path) := by
  have rooted : CanonicalPath [slash] := ⟨[], rfl, by simp⟩
  unfold resolveAt resolvePathChecked at resolved
  unfold walkStart
  split at resolved
  · cases resolved
  cases absolute : path.head? == some slash with
  | true =>
    simp only [absolute, Bool.true_or, if_true] at resolved ⊢
    exact ⟨resolved, rooted, root⟩
  | false =>
    cases working : dirfd == atFdcwd with
    | true =>
      simp only [absolute, working, Bool.false_or, Bool.or_true, if_true] at resolved ⊢
      rcases anchored.cwd with none | ⟨canonical, directory⟩
      · simp only [none] at resolved ⊢
        exact ⟨resolved, rooted, root⟩
      · have some : state.cwd.isEmpty = false := by
          obtain ⟨parts, shape, -⟩ := canonical
          simp [shape, SeparatedPaths.absolute]
        simp only [some] at resolved ⊢
        exact ⟨resolved, canonical, directory⟩
    | false =>
      simp only [absolute, working, Bool.false_or, Bool.false_eq_true, if_false] at resolved ⊢
      split at resolved
      · cases resolved
      cases opened : state.openFiles[dirfd]? with
      | none =>
        simp only [opened] at resolved
        cases resolved
      | some description =>
        simp only [opened] at resolved ⊢
        split at resolved
        · cases resolved
        next node found =>
          split at resolved
          · cases resolved
          next directory =>
            have isDirectory : IsDirectory state.view description.path :=
              ⟨node.metadata.stMode, node.content.bytes, by simp [view, found], by simpa using directory⟩
            have canonical := anchored.descriptor description opened isDirectory
            have some : description.path.isEmpty = false := by
              obtain ⟨parts, shape, -⟩ := canonical
              simp [shape, SeparatedPaths.absolute]
            simp only [some] at resolved
            exact ⟨resolved, canonical, isDirectory⟩

theorem foldl_collapse (plain : ∀ part ∈ parts, Plain part) (before : List Bytes) :
    parts.foldl collapse before = before ++ parts := by
  induction parts generalizing before with
  | nil => simp
  | cons part parts ih =>
    have named := plain part List.mem_cons_self
    rw [List.foldl_cons, ih fun other member => plain other (List.mem_cons_of_mem _ member)]
    simp [collapse, named.2.2]

theorem components_joinPaths (plain : ∀ part ∈ parts, Plain part) (some : path ≠ [])
    (relative : path.head? ≠ Option.some slash) :
    components slash (joinPaths (absolute slash parts) path) = parts ++ components slash path := by
  have before := components_absolute slash fun part member => (plain part member).free
  have front : absolute slash parts ≠ [] := List.cons_ne_nil _ _
  rcases eq_or_ne parts [] with rfl | nonempty
  · simpa [joinPaths, some, relative] using components_append_cons slash [] path
  · have root := (absolute_eq_root_iff plain).not.mpr nonempty
    have last := (getLast?_absolute plain).not.mpr nonempty
    simp [joinPaths, some, relative, front, root, last, components_append_cons, before]

/-- The text of a path is resolved as a walk without links would resolve it. -/
theorem resolvePath_eq (some : path ≠ []) (resolved : state.resolveAt fdManager mode dirfd path = .ok result)
    (start : state.walkStart dirfd path = absolute slash parts) (plain : ∀ part ∈ parts, Plain part) :
    state.resolvePath dirfd path = .ok (absolute slash ((components slash path).foldl collapse parts)) := by
  have collapsed : (parts ++ components slash path).foldl collapse [] =
      (components slash path).foldl collapse parts := by
    rw [List.foldl_append, foldl_collapse plain, List.nil_append]
  unfold walkStart at start
  unfold resolvePath
  cases first : path.head? == Option.some slash with
  | true =>
    simp only [first, if_true] at start ⊢
    obtain rfl := (absolute_eq_root_iff plain).mp start.symm
    have same : joinPaths [] path = path := by simp [joinPaths, some, first]
    rw [← collapsed, List.nil_append]
    nth_rewrite 2 [← same]
    rfl
  | false =>
    have relative : path.head? ≠ Option.some slash := by simpa using first
    rw [← collapsed, ← components_joinPaths plain some relative, ← start]
    cases working : dirfd == atFdcwd with
    | true =>
      simp only [first, Bool.false_eq_true, if_false, if_true]
      rfl
    | false =>
      simp only [resolveAt, first, working, Bool.false_or, Bool.false_eq_true, if_false] at resolved ⊢
      cases opened : state.openFiles[dirfd]? with
      | some => rfl
      | none =>
        simp only [opened] at resolved
        split_ifs at resolved

/-- What a path resolves to is canonical, its directories exist, and it is not a link if those are followed. Resolving
it again gives it back, and if no link was followed it is the collapsed text of the path. -/
theorem resolveAt_canonical (wellFormed : WellFormed state.view) (anchored : state.Anchored dirfd)
    (resolved : state.resolveAt fdManager mode dirfd path = .ok result) :
    (∃ parts, result = absolute slash parts ∧ Located state.view parts) ∧
      (mode.followFinal → ¬ IsLink state.view result) ∧
      (∀ again : WalkMode, again.checkSearch = false → again.creating = false →
        (again.followFinal → mode.followFinal) → ∀ other,
          state.resolveAt fdManager again other result = .ok result) ∧
      ∃ links ≤ 40, Walk state.view mode (state.walkStart dirfd path) (prependPath path []) links result ∧
        (links = 0 → state.resolvePath dirfd path = .ok result) := by
  obtain ⟨walked, ⟨start, shape, plain⟩, directory⟩ := resolveAt_walk anchored wellFormed.root resolved
  obtain ⟨links, bound, walk⟩ := walk_of_walkPath walked
  have pieces : ∀ part ∈ prependPath path [], slash ∉ part := fun part => notMem_of_mem_prependPath (by simp)
  have located : Located state.view start := .of_exists wellFormed plain (by
    obtain ⟨_, _, read, _⟩ := directory
    simp [← shape, read])
  obtain ⟨⟨parts, rfl, ends⟩, unlinked⟩ :=
    walk.located wellFormed.root shape located pieces fun _ => not_isLink_of_isDirectory directory
  refine ⟨⟨parts, rfl, ends⟩, unlinked, ?_, links, bound, walk, ?_⟩
  · intro again searched found follows other
    have kept : again.followFinal → ¬ IsLink state.view (absolute slash ([] ++ parts)) :=
      fun final => unlinked (follows final)
    have first : (absolute slash parts).head? == some slash := by simp [absolute]
    have pending : prependPath (absolute slash parts) [] = parts ++ if parts = [] then [[]] else [] := by
      change components slash _ ++ _ ++ [] = _
      rw [components_absolute slash fun part member => (ends.plain part member).free, List.append_nil]
      simp [getLast?_absolute ends.plain]
    have walked : walkPath state.view again 0 [slash] (prependPath (absolute slash parts) []) =
        .ok (absolute slash parts) := by
      rw [pending]
      split
      next none =>
        obtain ⟨kind, bytes, read, directory⟩ := wellFormed.root
        subst none
        rw [List.nil_append, walkPath, read]
        simp [directory, searched, found, walkPath]
      next =>
        rw [List.append_nil]
        have ends : Located state.view ([] ++ parts) := ends
        exact walkPath_located ends searched found kept
    simpa [resolveAt, resolvePathChecked, first, absolute] using walked
  · rintro rfl
    have some : path ≠ [] := by
      rintro rfl
      cases resolved
    rw [resolvePath_eq some resolved shape plain, walk.collapses rfl shape plain pieces, filter_prependPath]

/-- A root with a link to itself. -/
def linkedRoot : FileSystemState where
  filesystem := ((∅ : Map Bytes VFSNode).insert [slash] ⟨{}, 0, 0o40755, 0, 0, 0⟩)
    |>.insert (asciiBytes "/l") ⟨{ bytes := [slash] }, 1, 0o120777, 0, 0, 0⟩

theorem linkedRoot_wellFormed : WellFormed linkedRoot.view where
  root := ⟨0o40755, [], rfl, rfl⟩
  inside := by
    intro parts part plain found
    have key : absolute slash (parts ++ [part]) = asciiBytes "/l" := by
      by_contra other
      refine found ?_
      have root := (absolute_eq_root_iff plain).not.mpr (by simp)
      simp [view, linkedRoot, Ne.symm other, Ne.symm root]
    have named := components_absolute slash fun name member => (plain name member).free
    rw [key] at named
    obtain ⟨rfl, rfl⟩ : parts = [] ∧ part = asciiBytes "l" := by
      have shape : [] ++ [asciiBytes "l"] = parts ++ [part] := by rw [← named]; decide
      exact ⟨(List.append_inj_left' shape rfl).symm, (List.singleton_injective (List.append_inj_right' shape rfl)).symm⟩
    exact ⟨by decide, 0o40755, [], rfl, rfl⟩

theorem resolveAt_canonical_link : linkedRoot.resolveAt ∅ {} atFdcwd (asciiBytes "l") = .ok [slash] ∧
    ¬ IsLink linkedRoot.view [slash] := by
  have resolved : linkedRoot.resolveAt ∅ {} atFdcwd (asciiBytes "l") = .ok [slash] :=
    calc
      _ = walkPath linkedRoot.view {} 0 [slash] [asciiBytes "l"] := rfl
      _ = walkPath linkedRoot.view {} 1 [slash] [[]] := walkPath.eq_2 ..
      _ = walkPath linkedRoot.view {} 1 [slash] [] := walkPath.eq_2 ..
      _ = .ok [slash] := walkPath.eq_1 ..
  have anchored : linkedRoot.Anchored atFdcwd := ⟨.inl rfl, by simp [linkedRoot]⟩
  exact ⟨resolved, (resolveAt_canonical linkedRoot_wellFormed anchored resolved).2.1 rfl⟩

end FileSystemState

end DetSim.Kernel
