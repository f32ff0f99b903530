import Mathlib

/-! # Scanning a list that changes with an index

A scan visits a list several times and keeps the index of the next entry between its visits. The list may change
between two visits, which can move an entry over the cursor in both directions: an entry that slips back is visited
again, one that jumps ahead is skipped. An entry that is there all the time is visited once in a complete scan, plus the
number of its slips, minus the number of its jumps.
-/

namespace CursorScans

variable {Entry : Type*} [DecidableEq Entry]

/-- One if an entry is before an index. -/
def passed (entry : Entry) (entries : List Entry) (cursor : ℕ) : ℕ := if entries.idxOf entry < cursor then 1 else 0

/-- A scan so far: the list and the cursor, what was returned, how often each entry slipped back behind the cursor or
jumped ahead of it, and which entries were always there. -/
structure Scan (Entry : Type*) where
  entries : List Entry
  cursor : ℕ := 0
  returned : List Entry := []
  slips : Entry → ℕ := fun _ => 0
  jumps : Entry → ℕ := fun _ => 0
  always : Entry → Prop

/-- The list changes. An entry moves by at most one step over the cursor. -/
def Scan.change (scan : Scan Entry) (next : List Entry) : Scan Entry :=
  { scan with
    entries := next
    slips := fun entry => scan.slips entry + (passed entry scan.entries scan.cursor - passed entry next scan.cursor)
    jumps := fun entry => scan.jumps entry + (passed entry next scan.cursor - passed entry scan.entries scan.cursor)
    always := fun entry => scan.always entry ∧ entry ∈ next }

/-- The entries up to a later index are returned. -/
def Scan.visit (scan : Scan Entry) (stop : ℕ) : Scan Entry :=
  { scan with
    cursor := stop
    returned := scan.returned ++ (scan.entries.drop scan.cursor).take (stop - scan.cursor) }

/-- The scans of lists without repeated entries. -/
inductive Reached : Scan Entry → Prop
  | start {entries : List Entry} (distinct : entries.Nodup) : Reached { entries, always := (· ∈ entries) }
  | change {scan : Scan Entry} (reached : Reached scan) {next : List Entry} (distinct : next.Nodup) :
      Reached (scan.change next)
  | visit {scan : Scan Entry} (reached : Reached scan) {stop : ℕ} (forwards : scan.cursor ≤ stop) :
      Reached (scan.visit stop)

theorem Reached.present {scan : Scan Entry} (reached : Reached scan) :
    scan.entries.Nodup ∧ ∀ entry, scan.always entry → entry ∈ scan.entries := by
  induction reached with
  | start distinct => exact ⟨distinct, fun _ member => member⟩
  | change _ distinct _ => exact ⟨distinct, fun _ there => there.2⟩
  | visit _ _ ih => exact ih

theorem count_between {entries : List Entry} {entry : Entry} {start stop : ℕ} (distinct : entries.Nodup)
    (forwards : start ≤ stop) (present : entry ∈ entries) :
    ((entries.drop start).take (stop - start)).count entry + passed entry entries start =
      passed entry entries stop := by
  have parts : ∀ cursor, (entries.take cursor).count entry = passed entry entries cursor := by
    intro cursor
    rw [List.Nodup.count (distinct.sublist (List.take_sublist ..)), passed]
    congr 1
    rw [eq_iff_iff, List.mem_take_iff_idxOf_lt present]
  have divided : entries.take stop = entries.take start ++ (entries.drop start).take (stop - start) := by
    rw [← List.take_add, Nat.add_sub_of_le forwards]
  rw [← parts, ← parts, divided, List.count_append, Nat.add_comm]

/-- The returns of an entry balance its moves over the cursor. -/
theorem Reached.balance {scan : Scan Entry} (reached : Reached scan) {entry : Entry} (always : scan.always entry) :
    scan.returned.count entry + scan.jumps entry = scan.slips entry + passed entry scan.entries scan.cursor := by
  induction reached with
  | start => simp [passed]
  | @change scan _ next _ ih =>
    have before := ih always.1
    dsimp only [Scan.change]
    unfold passed at before ⊢
    split_ifs at before ⊢ <;> omega
  | @visit scan reached stop forwards ih =>
    have before := ih always
    have between := count_between reached.present.1 forwards (reached.present.2 entry always)
    dsimp only [Scan.visit]
    rw [List.count_append]
    omega

/-- A complete scan has returned an entry that was always there once, up to its slips and jumps. -/
theorem Reached.count_complete {scan : Scan Entry} (reached : Reached scan) (ends : scan.entries.length ≤ scan.cursor)
    {entry : Entry} (always : scan.always entry) :
    scan.returned.count entry + scan.jumps entry = scan.slips entry + 1 := by
  have inside := List.idxOf_lt_length_iff.mpr (reached.present.2 entry always)
  rw [reached.balance always, passed, if_pos (inside.trans_le ends)]

end CursorScans
