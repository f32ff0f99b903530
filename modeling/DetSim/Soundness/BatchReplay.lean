import DetSim.Model.BatchReplay

/-! # What the script for a printed history replays

The script of `trace2batch` has no command that selects a thread and none that fires a timeout, and the line of
a timeout does not match the pattern at all. So a history is replayed exactly when it has no timeout and each
of its steps was made by the thread that the debugger has selected for the process at that point; the processes
and the choices then come back from the text.
-/

namespace DetSim.Scheduler

open DetSim.Session (cmdSi cmdSw isSpace parseArgument trim)

variable {char : Char} {p : Char → Bool} {text : List Char} {actions : List ReplayAction} {edge : TreeEdge}

/-! ## Decimals -/

theorem isDigit_of_mem_decimal {number : ℕ} (mem : char ∈ decimal number) : char.isDigit = true :=
  Nat.isDigit_of_mem_toDigits (by decide) (by decide) mem

theorem decimal_ne_nil (number : ℕ) : decimal number ≠ [] := Nat.toDigits_ne_nil

theorem ascii_of_isDigit (digit : char.isDigit = true) : 48 ≤ char.toNat ∧ char.toNat ≤ 57 := by
  have bounds := Char.isDigit_iff_toNat.mp digit
  simpa using bounds

theorem not_isSpace_of_isDigit (digit : char.isDigit = true) : isSpace char = false := by
  obtain ⟨low, high⟩ := ascii_of_isDigit digit
  have other : char ≠ ' ' := by
    rintro rfl
    simp at low
  simp [isSpace, other]
  omega

theorem dropWhile_of_none (none : ∀ char ∈ text, p char = false) :
    text.dropWhile p = text := by
  cases text with
  | nil => rfl
  | cons char rest => simp [none char (by simp)]

theorem rdropWhile_of_none (none : ∀ char ∈ text, p char = false) :
    text.rdropWhile p = text := by
  rw [List.rdropWhile_eq_self_iff]
  intro nonempty
  simp [none _ (List.getLast_mem nonempty)]

theorem takeWhile_decimal (number : ℕ) : (decimal number).takeWhile Char.isDigit = decimal number :=
  List.takeWhile_eq_self_iff.mpr fun _ => isDigit_of_mem_decimal

theorem unsignedValue_decimal (number : ℕ) : unsignedValue (decimal number) = number := by
  rw [unsignedValue, takeWhile_decimal, decimal, Nat.ofDigitChars_ten_toDigits]

theorem atoi_decimal {number : ℕ} (int : number < 2 ^ 31) : atoi (decimal number) = number := by
  have unsigned : atoi (decimal number) = (min (unsignedValue (decimal number) : ℤ) (2 ^ 63 - 1)).bmod (2 ^ 32) := by
    unfold atoi
    split
    · rename_i rest written
      have sign : '-' ∈ decimal number := by simp [written]
      exact absurd (isDigit_of_mem_decimal sign) (by decide)
    · rename_i rest written
      have sign : '+' ∈ decimal number := by simp [written]
      exact absurd (isDigit_of_mem_decimal sign) (by decide)
    · rfl
  rw [unsigned, unsignedValue_decimal, min_eq_left (by omega), Int.bmod_eq_of_le (by omega) (by omega)]

/-- A number is a choice if it is an int, and never `timeout`. -/
theorem parseArgument_decimal (number : ℕ) :
    parseArgument (decimal number) = if number < 2 ^ 31 then .choice number else .usage := by
  have notSpace : ∀ char ∈ decimal number, isSpace char = false :=
    fun _ mem => not_isSpace_of_isDigit (isDigit_of_mem_decimal mem)
  have trimmed : trim (decimal number) = decimal number :=
    (congrArg _ (dropWhile_of_none notSpace)).trans (rdropWhile_of_none notSpace)
  have notTimeout : decimal number ≠ "timeout".toList := by
    intro same
    have letter : 't' ∈ decimal number := by simp [same]
    exact absurd (isDigit_of_mem_decimal letter) (by decide)
  have digits : (decimal number).all Char.isDigit = true := List.all_eq_true.mpr fun _ => isDigit_of_mem_decimal
  have value : Nat.ofDigitChars 10 (decimal number) 0 = number := Nat.ofDigitChars_ten_toDigits
  simp only [parseArgument, trimmed, decimal_ne_nil, notTimeout, ↓reduceIte, digits, value, Bool.true_and,
    decide_eq_true_eq]

/-! ## The commands of a script -/

section
variable {processes : ℕ} {selected : List ReplayAction → ℕ → ℕ}

/-- What the lines for an entry do. -/
def Replay.entry (processes : ℕ) (selected : List ReplayAction → ℕ → ℕ) (replay : Replay) (entry : TraceEntry) :
    Replay :=
  (replay.sw processes (decimal entry.nodeId)).si processes selected (entry.choice.elim [] decimal)

theorem batchLine_comment (replay : Replay) (text : List Char) :
    batchLine processes selected replay ('#' :: text) = replay := by
  simp [batchLine, isSpace]

theorem dropWhile_isSpace_decimal (number : ℕ) : (decimal number).dropWhile isSpace = decimal number :=
  dropWhile_of_none fun _ mem => not_isSpace_of_isDigit (isDigit_of_mem_decimal mem)

theorem batchLine_sw (replay : Replay) (number : ℕ) :
    batchLine processes selected replay ("sw ".toList ++ decimal number) = replay.sw processes (decimal number) := by
  simp [batchLine, executeCommandLine, isSpace, isDelimiter, dropWhile_isSpace_decimal]

theorem batchLine_si (replay : Replay) (choice : Option ℕ) :
    batchLine processes selected replay (choice.elim "si".toList fun number => "si ".toList ++ decimal number) =
      replay.si processes selected (choice.elim [] decimal) := by
  cases choice with
  | none => simp [batchLine, executeCommandLine, isSpace, isDelimiter]
  | some number => simp [batchLine, executeCommandLine, isSpace, isDelimiter, dropWhile_isSpace_decimal]

theorem batchLine_info (replay : Replay) : batchLine processes selected replay "info sock".toList = replay := by
  simp [batchLine, executeCommandLine, isSpace, isDelimiter]

theorem entryScript_replayed (includeComments : Bool) (replay : Replay) (entry : TraceEntry) (number : ℕ) :
    (entryScript includeComments entry number).foldl (batchLine processes selected) replay =
      replay.entry processes selected entry := by
  have comment (text : List Char) : batchLine processes selected replay ("# ".toList ++ text) = replay :=
    batchLine_comment replay _
  have heading (text : List Char) : batchLine processes selected replay ("# Step ".toList ++ text) = replay :=
    batchLine_comment replay _
  have blank (replay : Replay) : batchLine processes selected replay [] = replay := rfl
  cases includeComments with
  | false =>
    simp only [entryScript, Bool.false_eq_true, ↓reduceIte, List.nil_append, List.append_nil, List.foldl_cons,
      List.foldl_nil, batchLine_sw, batchLine_si, batchLine_info, Replay.entry]
  | true =>
    simp only [entryScript, ↓reduceIte, List.cons_append, List.nil_append, List.foldl_cons, List.foldl_nil,
      List.append_assoc, heading, comment, blank, batchLine_sw, batchLine_si, batchLine_info, Replay.entry]

/-- A script does what its entries say, one after the other. -/
theorem cmdBatch_script (includeComments : Bool) (replay : Replay) (entries : List TraceEntry) :
    cmdBatch processes selected replay (generateBatchScript includeComments entries) =
      entries.foldl (Replay.entry processes selected) replay := by
  have header : (if includeComments then
      ["# Auto-generated batch script from trace".toList, "# Total steps: ".toList ++ decimal entries.length, []]
      else []).foldl (batchLine processes selected) replay = replay := by
    cases includeComments with
    | false => rfl
    | true => rfl
  rw [cmdBatch, generateBatchScript, List.foldl_append, header, List.foldl_flatMap]
  simp only [entryScript_replayed]
  conv_rhs => rw [← List.zipIdx_map_fst 0 entries, List.foldl_map]

/-! ## Which steps a script can denote -/

/-- The process and the choice of a step: what a script can name. -/
def ReplayAction.request (action : ReplayAction) : ℕ × Option ℕ := (action.process, action.choice)

/-- Every step is made by the thread selected for its process after the steps before it. -/
def ThreadsSelected (selected : List ReplayAction → ℕ → ℕ) (actions : List ReplayAction) : Prop :=
  ∀ before action after, actions = before ++ action :: after → action.thread = selected before action.process

/-- The sequences a script can denote: the selected threads, and no timeout. -/
def Scripted (selected : List ReplayAction → ℕ → ℕ) (actions : List ReplayAction) : Prop :=
  ThreadsSelected selected actions ∧ ∀ action ∈ actions, action.timeout = false

theorem Scripted.init {action : ReplayAction}
    (scripted : Scripted selected (actions ++ [action])) : Scripted selected actions := by
  refine ⟨fun before other after split => ?_, fun other mem => scripted.2 other (by simp [mem])⟩
  exact scripted.1 before other (after ++ [action]) (by simp [split])

theorem Scripted.concat (scripted : Scripted selected actions) (process : ℕ)
    (choice : Option ℕ) : Scripted selected (actions ++ [⟨process, selected actions process, choice, false⟩]) := by
  refine ⟨fun before action after split => ?_, fun action mem => ?_⟩
  · obtain rfl | ⟨inner, last, rfl⟩ := after.eq_nil_or_concat'
    · obtain ⟨rfl, same⟩ := List.append_inj' split rfl
      simp only [List.cons.injEq, and_true] at same
      rw [← same]
    · have same : actions = before ++ action :: inner := by
        rw [← List.cons_append, ← List.append_assoc] at split
        exact (List.append_inj' split rfl).1
      exact scripted.1 before action inner same
  · obtain mem | mem := List.mem_append.mp mem
    · exact scripted.2 action mem
    · rw [List.mem_singleton.mp mem]

/-- Such a sequence is determined by its processes and choices. -/
theorem Scripted.ext {others : List ReplayAction} (scripted : Scripted selected actions)
    (scripted' : Scripted selected others)
    (same : actions.map ReplayAction.request = others.map ReplayAction.request) : actions = others := by
  induction actions using List.reverseRecOn generalizing others with
  | nil => simpa using same.symm
  | append_singleton actions action ih =>
    obtain rfl | ⟨init, other, rfl⟩ := others.eq_nil_or_concat'
    · simp at same
    · rw [List.map_append, List.map_append] at same
      obtain ⟨initial, final⟩ := List.append_inj' same rfl
      obtain rfl := ih scripted.init scripted'.init initial
      have thread := scripted.1 actions action [] rfl
      have thread' := scripted'.1 actions other [] rfl
      have timeout := scripted.2 action (by simp)
      have timeout' := scripted'.2 other (by simp)
      obtain ⟨process, thread, choice, timeout⟩ := action
      obtain ⟨process', thread', choice', timeout'⟩ := other
      simp_all [ReplayAction.request]

theorem Replay.sw_performed (replay : Replay) (args : List Char) :
    (replay.sw processes args).performed = replay.performed := by
  unfold Replay.sw
  split_ifs <;> rfl

/-- The argument of a script's `si` is no choice or a number. -/
theorem Replay.si_choice (replay : Replay) (choice : Option ℕ) :
    replay.si processes selected (choice.elim [] decimal) =
      if (0 ≤ replay.cursor ∧ replay.cursor < processes) ∧ ∀ number ∈ choice, number < 2 ^ 31 then
        replay.loadExecStore selected choice false
      else replay := by
  unfold Replay.si cmdSi
  by_cases focus : 0 ≤ replay.cursor ∧ replay.cursor < processes
  · rw [if_neg (by omega)]
    cases choice with
    | none =>
      have bare : parseArgument [] = .normal := rfl
      simp [bare, focus]
    | some number =>
      rw [Option.elim_some, parseArgument_decimal]
      by_cases range : number < 2 ^ 31
      · simp only [range, ↓reduceIte, focus, and_self, Option.mem_def, Option.some.injEq, forall_eq']
      · simp only [range, ↓reduceIte, and_false, Option.mem_def, Option.some.injEq, forall_eq']
  · rw [if_pos (by omega), if_neg (fun both => focus both.1)]

/-- An entry makes at most one step, and this one is no timeout. -/
theorem Replay.entry_performed (replay : Replay) (entry : TraceEntry) :
    (replay.entry processes selected entry).performed = replay.performed ∨
      ∃ process, (replay.entry processes selected entry).performed =
        replay.performed ++ [⟨process, selected replay.performed process, entry.choice, false⟩] := by
  rw [Replay.entry, Replay.si_choice, ← replay.sw_performed (decimal entry.nodeId)]
  split_ifs
  · exact .inr ⟨_, rfl⟩
  · exact .inl rfl

theorem scripted_entries (entries : List TraceEntry) (replay : Replay) (scripted : Scripted selected replay.performed) :
    Scripted selected (entries.foldl (Replay.entry processes selected) replay).performed := by
  induction entries generalizing replay with
  | nil => exact scripted
  | cons entry entries ih =>
    refine ih _ ?_
    obtain same | ⟨process, stepped⟩ := replay.entry_performed entry
    · rwa [same]
    · rw [stepped]
      exact scripted.concat process entry.choice

/-- The entries of existing processes with choices in range are made one by one. -/
theorem requests_entries (int : processes ≤ 2 ^ 31) (entries : List TraceEntry) (replay : Replay)
    (valid : ∀ entry ∈ entries, entry.nodeId < processes ∧ ∀ choice ∈ entry.choice, choice < 2 ^ 31) :
    (entries.foldl (Replay.entry processes selected) replay).performed.map ReplayAction.request =
      replay.performed.map ReplayAction.request ++ entries.map fun entry => (entry.nodeId, entry.choice) := by
  induction entries generalizing replay with
  | nil => simp
  | cons entry entries ih =>
    obtain ⟨node, choices⟩ := valid entry (by simp)
    have focused : replay.sw processes (decimal entry.nodeId) = { replay with cursor := entry.nodeId } := by
      have value := atoi_decimal (node.trans_le int)
      have inside : ¬ ((entry.nodeId : ℤ) < 0 ∨ (processes : ℤ) ≤ entry.nodeId) := by omega
      rw [Replay.sw, if_neg (decimal_ne_nil _), value, cmdSw, if_neg inside]
    have stepped : replay.entry processes selected entry =
        Replay.loadExecStore selected { replay with cursor := entry.nodeId } entry.choice false := by
      rw [Replay.entry, focused, Replay.si_choice, if_pos ⟨⟨Int.natCast_nonneg _, Int.ofNat_lt.mpr node⟩, choices⟩]
    rw [List.foldl_cons, ih _ fun other mem => valid other (by simp [mem]), stepped]
    simp [Replay.loadExecStore, ReplayAction.request]

end

/-! ## Reading the printed lines -/

/-- A text within one line. -/
def OneLine (text : List Char) : Prop := '\n' ∉ text ∧ '\r' ∉ text

theorem fileLines_cons (noFeed : char ≠ '\n') (noReturn : char ≠ '\r') (rest : List Char) :
    fileLines (char :: rest) = (char :: (fileLines rest).headD []) :: (fileLines rest).tail := by
  cases written : fileLines rest with
  | nil => simp [fileLines, noReturn, written]
  | cons line lines => simp [fileLines, noReturn, written]

/-- A piece of a line stands before the first line of what follows. -/
theorem fileLines_append_left {piece : List Char} (inside : OneLine piece) (line : List Char)
    (lines : List (List Char)) {rest : List Char} (written : fileLines rest = line :: lines) :
    fileLines (piece ++ rest) = (piece ++ line) :: lines := by
  induction piece with
  | nil => exact written
  | cons char piece ih =>
    obtain ⟨noFeed, noReturn⟩ := inside
    rw [List.mem_cons, not_or] at noFeed noReturn
    rw [List.cons_append, fileLines_cons (Ne.symm noFeed.1) (Ne.symm noReturn.1), ih ⟨noFeed.2, noReturn.2⟩]
    rfl

/-- The lines of a text that ends its line do not depend on what follows. -/
theorem fileLines_break (text : List Char) :
    ∃ line lines, ∀ rest, fileLines (text ++ '\n' :: rest) = line :: (lines ++ fileLines rest) := by
  fun_induction fileLines text with
  | case1 => exact ⟨[], [], by simp [fileLines]⟩
  | case2 text ih =>
    obtain ⟨line, lines, broken⟩ := ih
    exact ⟨[], line :: lines, by simp [fileLines, broken]⟩
  | case3 text other ih =>
    obtain ⟨line, lines, broken⟩ := ih
    cases text with
    | nil => exact ⟨[], [], by simp [fileLines]⟩
    | cons char text =>
      have apart : char ≠ '\n' := fun equal => other text (by rw [equal])
      simp only [List.cons_append] at broken
      exact ⟨[], line :: lines, by simp [fileLines, broken, apart]⟩
  | case4 text ih =>
    obtain ⟨line, lines, broken⟩ := ih
    exact ⟨[], line :: lines, by simp [fileLines, broken]⟩
  | case5 char text _ noReturn noFeed _ ih =>
    obtain ⟨line, lines, broken⟩ := ih
    exact ⟨char :: line, lines, fun rest => by rw [List.cons_append, fileLines_cons noFeed noReturn, broken]; rfl⟩
  | case6 char text _ noReturn noFeed _ _ _ ih =>
    obtain ⟨line, lines, broken⟩ := ih
    exact ⟨char :: line, lines, fun rest => by rw [List.cons_append, fileLines_cons noFeed noReturn, broken]; rfl⟩

theorem fileLines_line {line : List Char} (inside : OneLine line) (rest : List Char) :
    fileLines (line ++ '\n' :: rest) = line :: fileLines rest := by
  have feed : fileLines ('\n' :: rest) = [] :: fileLines rest := by simp [fileLines]
  rw [fileLines_append_left inside [] _ feed, List.append_nil]

section
variable {classes : CharClasses}

theorem parseTraceFile_line {line : List Char} (inside : OneLine line) (rest : List Char) :
    parseTraceFile classes (line ++ '\n' :: rest) =
      (parseTraceLine classes line).toList ++ parseTraceFile classes rest := by
  rw [parseTraceFile, fileLines_line inside, List.filterMap_cons]
  cases parseTraceLine classes line <;> rfl

/-- A text that ends its line is read by itself. -/
theorem parseTraceFile_append (text rest : List Char) :
    parseTraceFile classes (text ++ '\n' :: rest) =
      parseTraceFile classes (text ++ ['\n']) ++ parseTraceFile classes rest := by
  have blank : parseTraceLine classes [] = none := by
    simp [parseTraceLine, stripText]
  obtain ⟨line, lines, broken⟩ := fileLines_break text
  simp only [parseTraceFile, broken, ← List.cons_append, List.filterMap_append, fileLines]
  simp [blank]

theorem CharClasses.digit_of_isDigit (digit : char.isDigit = true) :
    classes.digit char = some (char.toNat - '0'.toNat) := by
  rw [classes.digit_ascii char (by have := ascii_of_isDigit digit; omega), if_pos digit]

theorem CharClasses.not_space_of_isDigit (digit : char.isDigit = true) : classes.space char = false := by
  obtain ⟨low, high⟩ := ascii_of_isDigit digit
  have other : char ≠ ' ' := by
    rintro rfl
    simp at low
  rw [classes.space_ascii char (by omega)]
  simp [other]
  omega

theorem matchNumber_decimal (number : ℕ) (other : classes.digit char = none) (rest : List Char) :
    matchNumber classes (decimal number ++ char :: rest) = some (number, char :: rest) := by
  have digits : ∀ char ∈ decimal number, (classes.digit char).isSome = true := fun char mem => by
    simp [classes.digit_of_isDigit (isDigit_of_mem_decimal mem)]
  have value : (decimal number).foldl (fun value char => 10 * value + (classes.digit char).getD 0) 0 = number := by
    rw [List.foldl_ext _ (fun value char => 10 * value + (char.toNat - '0'.toNat)) 0]
    · exact Nat.ofDigitChars_ten_toDigits
    · intro value char mem
      simp [classes.digit_of_isDigit (isDigit_of_mem_decimal mem)]
  simp only [matchNumber, List.takeWhile_append_of_pos digits, List.dropWhile_append_of_pos digits, other,
    List.takeWhile_cons, List.dropWhile_cons, Option.isSome_none, Bool.false_eq_true, ↓reduceIte, List.append_nil,
    decimal_ne_nil, value]

theorem matchSpaces_decimal (number : ℕ) (rest : List Char) :
    matchSpaces classes (' ' :: (decimal number ++ rest)) = some (decimal number ++ rest) := by
  have space : classes.space ' ' = true := by simp [classes.space_ascii]
  obtain ⟨char, digits, written⟩ := List.exists_cons_of_ne_nil (decimal_ne_nil number)
  have digit : classes.space char = false :=
    classes.not_space_of_isDigit (isDigit_of_mem_decimal (by rw [written]; exact List.mem_cons_self))
  simp [matchSpaces, space, written, digit]

theorem matchWord_append (word rest : List Char) : matchWord word (word ++ rest) = some rest := by
  simp [matchWord]

theorem matchChoose_label (choice : ℕ) (rest : List Char) :
    matchChoose classes (" (choose ".toList ++ decimal choice ++ ")".toList ++ rest) = some (choice, rest) := by
  have space : classes.space ' ' = true := by simp [classes.space_ascii]
  have bracket : classes.space '(' = false := by simp [classes.space_ascii]
  have closing : classes.digit ')' = none := by simp [classes.digit_ascii]
  have opened : matchSpaces classes (" (choose ".toList ++ decimal choice ++ ")".toList ++ rest) =
      some ("(choose".toList ++ ' ' :: (decimal choice ++ ')' :: rest)) := by
    simp [matchSpaces, space, bracket]
  have closed : matchWord ")".toList (')' :: rest) = some rest := matchWord_append [')'] rest
  rw [matchChoose, opened]
  simp only [Option.bind_eq_bind, Option.bind_some, matchWord_append, matchSpaces_decimal,
    matchNumber_decimal choice closing, closed]

theorem matchSyscall_label (call : List Char) :
    matchSyscall classes (": ".toList ++ call) = some (stripText classes (' ' :: call)) := by
  have colon : matchWord ":".toList (": ".toList ++ call) = some (' ' :: call) := matchWord_append [':'] (' ' :: call)
  simp only [matchSyscall, colon, Option.bind_eq_bind, Option.bind_some, List.cons_ne_nil, ↓reduceIte]

/-- The entry that is read for a step with this call. -/
def TreeEdge.traceEntry (classes : CharClasses) (edge : TreeEdge) (call : List Char) : TraceEntry where
  nodeId := edge.which
  syscall := stripText classes (' ' :: call)
  choice := edge.action.choice

/-- The pattern finds the process and the choice of every step that is not a timeout. -/
theorem matchTracee_call (step : edge.choose ≠ detsimChoiceTimeout) (call : List Char) :
    matchTracee classes ("Tracee ".toList ++ decimal edge.which ++ choiceLabel edge.choose ++ call) =
      some (edge.traceEntry classes call) := by
  have colonSpace : classes.space ':' = false := by simp [classes.space_ascii]
  have word : matchWord "Tracee".toList
      ("Tracee ".toList ++ decimal edge.which ++ choiceLabel edge.choose ++ call) =
        some (' ' :: (decimal edge.which ++ (choiceLabel edge.choose ++ call))) := by
    rw [List.append_assoc, List.append_assoc]
    exact matchWord_append "Tracee".toList _
  have number : ∀ {char : Char} {rest : List Char}, classes.digit char = none →
      choiceLabel edge.choose ++ call = char :: rest →
      matchNumber classes (decimal edge.which ++ (choiceLabel edge.choose ++ call)) =
        some (edge.which, choiceLabel edge.choose ++ call) := by
    intro char rest other label
    rw [label]
    exact matchNumber_decimal edge.which other rest
  rw [matchTracee, word]
  by_cases chosen : 0 ≤ edge.choose
  · have label : choiceLabel edge.choose ++ call =
        " (choose ".toList ++ decimal edge.choose.toNat ++ ")".toList ++ (": ".toList ++ call) := by
      simp [choiceLabel, step, chosen]
    have start : classes.digit ' ' = none := by simp [classes.digit_ascii]
    simp only [Option.bind_eq_bind, Option.bind_some, matchSpaces_decimal, number start label]
    simp only [label, matchChoose_label, matchSyscall_label, Option.map_some, TreeEdge.traceEntry, TreeEdge.action,
      chosen, ↓reduceIte]
  · have label : choiceLabel edge.choose ++ call = ": ".toList ++ call := by
      simp [choiceLabel, step, chosen]
    have start : classes.digit ':' = none := by simp [classes.digit_ascii]
    have noChoice : matchChoose classes (": ".toList ++ call) = none := by
      simp [matchChoose, matchSpaces, colonSpace]
    simp only [Option.bind_eq_bind, Option.bind_some, matchSpaces_decimal, number start label]
    simp only [label, noChoice, matchSyscall_label, Option.map_some, TreeEdge.traceEntry, TreeEdge.action, chosen,
      ↓reduceIte]

theorem mem_of_mem_stripText (mem : char ∈ stripText classes text) : char ∈ text :=
  (List.dropWhile_suffix _).subset ((List.rdropWhile_prefix _ _).subset mem)

/-- Stripping keeps a word at the front. -/
theorem prefix_rdropWhile {word : List Char} (solid : ∀ char ∈ word, p char = false)
    (front : word <+: text) : word <+: text.rdropWhile p := by
  induction text using List.reverseRecOn with
  | nil => simpa using front
  | append_singleton text char ih =>
    rw [List.rdropWhile_concat]
    split_ifs with space
    · obtain rfl | front := List.prefix_concat_iff.mp front
      · exact absurd (solid char (by simp)) (by simp [space])
      · exact ih front
    · exact front

/-- A step that is not a timeout is read from its line, unless the line is taken for the last one of a history. -/
theorem parseTraceLine_call (step : edge.choose ≠ detsimChoiceTimeout) (call : List Char) :
    parseTraceLine classes (callLine edge call) =
      if "steps in total".toList <:+: callLine edge call then none else some (edge.traceEntry classes call) := by
  have space : classes.space ' ' = true := by simp [classes.space_ascii]
  have solid : ∀ char ∈ "Tracee".toList, classes.space char = false := by
    simp [classes.space_ascii]
  have line : callLine edge call =
      ' ' :: ("Tracee ".toList ++ decimal edge.which ++ choiceLabel edge.choose ++ call) := by
    have word : " Tracee ".toList = ' ' :: "Tracee ".toList := rfl
    unfold callLine
    simp only [word, List.cons_append]
  have dropped : (callLine edge call).dropWhile classes.space =
      "Tracee ".toList ++ decimal edge.which ++ choiceLabel edge.choose ++ call := by
    simp [line, space, solid 'T' (by decide)]
  have front : "Tracee".toList <+: stripText classes (callLine edge call) := by
    refine prefix_rdropWhile solid ?_
    rw [dropped]
    exact ⟨' ' :: (decimal edge.which ++ (choiceLabel edge.choose ++ call)), by simp⟩
  have nonempty : stripText classes (callLine edge call) ≠ [] := by
    intro empty
    rw [empty] at front
    exact absurd (List.prefix_nil.mp front) (by decide)
  rw [parseTraceLine, if_neg (fun skip => skip.2 front), if_neg nonempty, dropped, matchTracee_call step,
    Option.some_or]

theorem oneLine_label (edge : TreeEdge) :
    OneLine (" Tracee ".toList ++ decimal edge.which ++ choiceLabel edge.choose) := by
  have digits (number : ℕ) : OneLine (decimal number) :=
    ⟨fun mem => absurd (isDigit_of_mem_decimal mem) (by decide),
      fun mem => absurd (isDigit_of_mem_decimal mem) (by decide)⟩
  unfold OneLine choiceLabel
  split_ifs <;> simp [(digits _).1, (digits _).2]

theorem not_mem_stateLine (edge : TreeEdge) (ss : HashType)
    (other : ∀ digit < 16, Nat.digitChar digit ≠ char) (sign : char ∉ " => ".toList) : char ∉ stateLine edge ss := by
  have digits (hash : HashType) : char ∉ hashText hash := by
    intro mem
    obtain ⟨place, -, written⟩ := List.mem_map.mp mem
    exact other _ (Nat.mod_lt _ (by decide)) written
  simp only [stateLine, List.mem_append, not_or]
  exact ⟨⟨digits _, sign⟩, digits _⟩

theorem oneLine_stateLine (edge : TreeEdge) (ss : HashType) : OneLine (stateLine edge ss) :=
  ⟨not_mem_stateLine edge ss (by decide) (by decide), not_mem_stateLine edge ss (by decide) (by decide)⟩

theorem parseTraceLine_state (edge : TreeEdge) (ss : HashType) : parseTraceLine classes (stateLine edge ss) = none := by
  have arrow : "=>".toList <:+: stateLine edge ss :=
    ⟨hashText edge.predecessor ++ [' '], ' ' :: hashText ss, by simp [stateLine]⟩
  have noLetter : 'T' ∉ stateLine edge ss := not_mem_stateLine edge ss (by decide) (by decide)
  have notTracee : ¬"Tracee".toList <+: stripText classes (stateLine edge ss) := by
    intro front
    exact noLetter (mem_of_mem_stripText (front.subset (by decide)))
  rw [parseTraceLine, if_pos ⟨arrow, notTracee⟩]

theorem parseTraceFile_total (number : ℕ) :
    parseTraceFile classes (decimal number ++ " steps in total.\n".toList) = [] := by
  have inside : OneLine (decimal number ++ " steps in total.".toList) := by
    constructor
    · intro mem
      obtain mem | mem := List.mem_append.mp mem
      · exact absurd (isDigit_of_mem_decimal mem) (by decide)
      · exact absurd mem (by decide)
    · intro mem
      obtain mem | mem := List.mem_append.mp mem
      · exact absurd (isDigit_of_mem_decimal mem) (by decide)
      · exact absurd mem (by decide)
  have total : "steps in total".toList <:+: decimal number ++ " steps in total.".toList :=
    ⟨decimal number ++ [' '], ['.'], by simp⟩
  have skipped : parseTraceLine classes (decimal number ++ " steps in total.".toList) = none := by
    rw [parseTraceLine, if_pos total, ite_self]
  have split : decimal number ++ " steps in total.\n".toList =
      (decimal number ++ " steps in total.".toList) ++ '\n' :: [] := by
    simp
  rw [split, parseTraceFile_line inside, skipped]
  rfl

variable (format : HashType → ℕ → List Char)

/-- The lines that are printed for the call of a step. -/
def callLines (step : TreeEdge × HashType) : List (List Char) :=
  fileLines (callLine step.1 (format step.2 step.1.which) ++ ['\n'])

/-- The first of them is not taken for the last line of a history. -/
def Readable (step : TreeEdge × HashType) : Prop := ¬"steps in total".toList <:+: (callLines format step).headD []

instance decidableReadable (step : TreeEdge × HashType) : Decidable (Readable format step) :=
  inferInstanceAs (Decidable (¬_))

/-- A history is read step by step. -/
theorem parseTraceFile_history (history : List (TreeEdge × HashType)) :
    parseTraceFile classes (printHistory format history) =
      history.flatMap fun step => (callLines format step).filterMap (parseTraceLine classes) := by
  have steps (rest : List Char) : parseTraceFile classes (history.flatMap (printStep format) ++ rest) =
      (history.flatMap fun step => (callLines format step).filterMap (parseTraceLine classes)) ++
        parseTraceFile classes rest := by
    induction history with
    | nil => rfl
    | cons step history ih =>
      rw [List.flatMap_cons, printStep, List.append_assoc, List.append_assoc, List.cons_append,
        parseTraceFile_line (oneLine_stateLine _ _), parseTraceLine_state, List.append_assoc, List.singleton_append,
        parseTraceFile_append, ih, List.flatMap_cons, List.append_assoc]
      rfl
  rw [printHistory, steps, parseTraceFile_total, List.append_nil]

theorem callLines_eq (step : TreeEdge × HashType) :
    ∃ call, callLines format step = callLine step.1 call :: (callLines format step).tail := by
  have inside := oneLine_label step.1
  obtain ⟨call, lines, broken⟩ := fileLines_break (format step.2 step.1.which)
  refine ⟨call, ?_⟩
  unfold callLines callLine
  generalize " Tracee ".toList ++ decimal step.1.which ++ choiceLabel step.1.choose = label at inside ⊢
  rw [List.append_assoc, fileLines_append_left inside _ _ (broken []), List.tail_cons]

/-- Without timeouts, and when only first lines are read, the steps whose first line is readable are read. -/
theorem parseTraceFile_readable {history : List (TreeEdge × HashType)}
    (step : ∀ entry ∈ history, entry.1.choose ≠ detsimChoiceTimeout)
    (alone : ∀ entry ∈ history, ∀ line ∈ (callLines format entry).tail, parseTraceLine classes line = none) :
    (parseTraceFile classes (printHistory format history)).map (fun entry => (entry.nodeId, entry.choice)) =
      (history.filter (Readable format ·)).map (·.1.action.request) := by
  rw [parseTraceFile_history]
  induction history with
  | nil => rfl
  | cons entry history ih =>
    obtain ⟨notTimeout, others⟩ := List.forall_mem_cons.mp step
    obtain ⟨first, rest⟩ := List.forall_mem_cons.mp alone
    obtain ⟨call, lines⟩ := callLines_eq format entry
    have readable : Readable format entry ↔ ¬"steps in total".toList <:+: callLine entry.1 call := by
      rw [Readable, lines, List.headD_cons]
    have read : (callLines format entry).filterMap (parseTraceLine classes) =
        (parseTraceLine classes (callLine entry.1 call)).toList := by
      rw [congrArg (List.filterMap _) lines, List.filterMap_cons, List.filterMap_eq_nil_iff.mpr first]
      cases parseTraceLine classes (callLine entry.1 call) <;> rfl
    rw [List.flatMap_cons, List.map_append, ih others rest, read, parseTraceLine_call notTimeout]
    by_cases total : Readable format entry
    · rw [if_neg (readable.mp total), List.filter_cons, if_pos (decide_eq_true total)]
      rfl
    · rw [if_pos (not_not.mp (mt readable.mpr total)), List.filter_cons, if_neg (by simpa using total)]
      rfl

end

/-! ## Replaying -/

/-- A history that its script replays exactly has no timeout, and every step was made by the thread selected at that
point. When no later line of a printed call looks like a step, the history is replayed exactly if moreover no first line
is taken for the last line of a history, and only then. -/
theorem replayHistory_exact (classes : CharClasses) (format : HashType → ℕ → List Char) (includeComments : Bool)
    (processes : ℕ) (selected : List ReplayAction → ℕ → ℕ) (cursor : ℤ) (history : List (TreeEdge × HashType))
    (int : processes ≤ 2 ^ 31)
    (valid : ∀ entry ∈ history, entry.1.which < processes ∧ entry.1.choose < 2 ^ 31) :
    (replayHistory processes selected classes format includeComments cursor history = history.map (·.1.action) →
      (∀ entry ∈ history, entry.1.choose ≠ detsimChoiceTimeout) ∧
        ThreadsSelected selected (history.map (·.1.action))) ∧
    ((∀ entry ∈ history, ∀ line ∈ (callLines format entry).tail, parseTraceLine classes line = none) →
      (replayHistory processes selected classes format includeComments cursor history = history.map (·.1.action) ↔
        (∀ entry ∈ history, entry.1.choose ≠ detsimChoiceTimeout ∧ Readable format entry) ∧
          ThreadsSelected selected (history.map (·.1.action)))) := by
  have denoted :
      Scripted selected (replayHistory processes selected classes format includeComments cursor history) := by
    rw [replayHistory, cmdBatch_script]
    exact scripted_entries _ _ ⟨by simp [ThreadsSelected], by simp⟩
  have timeouts : (∀ action ∈ history.map (·.1.action), action.timeout = false) ↔
      ∀ entry ∈ history, entry.1.choose ≠ detsimChoiceTimeout := by
    rw [List.forall_mem_map]
    simp [TreeEdge.action]
  have necessary (same : replayHistory processes selected classes format includeComments cursor history =
      history.map (·.1.action)) : (∀ entry ∈ history, entry.1.choose ≠ detsimChoiceTimeout) ∧
        ThreadsSelected selected (history.map (·.1.action)) := by
    rw [same] at denoted
    exact ⟨timeouts.mp denoted.2, denoted.1⟩
  refine ⟨necessary, fun alone => ?_⟩
  have requests (step : ∀ entry ∈ history, entry.1.choose ≠ detsimChoiceTimeout) :
      (replayHistory processes selected classes format includeComments cursor history).map ReplayAction.request =
        (history.filter (Readable format ·)).map (·.1.action.request) := by
    have read := parseTraceFile_readable format step alone
    rw [replayHistory, cmdBatch_script, requests_entries int, ← read]
    · rfl
    · intro entry mem
      have listed : (entry.nodeId, entry.choice) ∈ (history.filter (Readable format ·)).map (·.1.action.request) :=
        read ▸ List.mem_map_of_mem mem
      obtain ⟨step, member, request⟩ := List.mem_map.mp listed
      obtain ⟨which, choose⟩ := valid step (List.mem_of_mem_filter member)
      obtain ⟨atNode, atChoice⟩ := Prod.mk.inj request
      refine ⟨atNode ▸ which, fun choice written => ?_⟩
      rw [← atChoice, TreeEdge.action, Option.mem_def] at written
      split_ifs at written
      rw [Option.some.injEq] at written
      omega
  constructor
  · intro same
    obtain ⟨step, threads⟩ := necessary same
    -- nothing is left out, because the script has as many steps as the history
    have all := congrArg List.length (requests step)
    rw [same, List.length_map, List.length_map, List.length_map] at all
    have readable := List.length_filter_eq_length_iff.mp all.symm
    exact ⟨fun entry mem => ⟨step entry mem, by simpa using readable entry mem⟩, threads⟩
  · rintro ⟨printed, threads⟩
    have step := fun entry mem => (printed entry mem).1
    refine denoted.ext ⟨threads, timeouts.mpr step⟩ ?_
    rw [requests step, List.filter_eq_self.mpr (by simpa using fun _ _ mem => (printed _ mem).2), List.map_map]
    rfl

/-- Character classes without digits and spaces beyond ASCII. -/
def asciiClasses : CharClasses where
  digit char := if char.isDigit then some (char.toNat - '0'.toNat) else none
  space char := char == ' ' || 9 ≤ char.toNat && char.toNat ≤ 13 || 28 ≤ char.toNat && char.toNat ≤ 31
  digit_ascii _ _ := rfl
  space_ascii _ _ := rfl

/-- A timeout of the only thread of the only process, in a `futex` call. -/
def timeoutHistory : List (TreeEdge × HashType) := [(⟨1, 0, detsimChoiceTimeout, 0⟩, 2)]

/-- Its script has no step at all. -/
theorem timeout_not_replayed :
    replayHistory 1 (fun _ _ => 0) asciiClasses (fun _ _ => "futex(0x8) = -110".toList) true 0 timeoutHistory = [] ∧
      timeoutHistory.map (·.1.action) = [⟨0, 0, none, true⟩] := by
  decide +kernel

/-- A choice by the selected thread is replayed, and by another thread it is not. -/
theorem replayHistory_exact_thread :
    replayHistory 1 (fun _ _ => 0) asciiClasses (fun _ _ => "write(1) = 1".toList) true 0 [(⟨1, 0, 3, 0⟩, 2)] =
        [⟨0, 0, some 3, false⟩] ∧
      replayHistory 1 (fun _ _ => 0) asciiClasses (fun _ _ => "write(1) = 1".toList) true 0 [(⟨1, 0, 3, 1⟩, 2)] ≠
        [⟨0, 1, some 3, false⟩] := by
  constructor
  · refine ((replayHistory_exact asciiClasses (fun _ _ => "write(1) = 1".toList) true 1 (fun _ _ => 0) 0
      [(⟨1, 0, 3, 0⟩, 2)] (by decide) (by decide)).2 (by decide +kernel)).mpr ⟨by decide +kernel, ?_⟩
    intro before action after split
    cases before with
    | nil =>
      cases split
      rfl
    | cons first before => simp at split
  · intro same
    have threads := ((replayHistory_exact asciiClasses (fun _ _ => "write(1) = 1".toList) true 1 (fun _ _ => 0) 0
      [(⟨1, 0, 3, 1⟩, 2)] (by decide) (by decide)).1 same).2
    exact absurd (threads [] ⟨0, 1, some 3, false⟩ [] rfl) (by decide)

end DetSim.Scheduler
