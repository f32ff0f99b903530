import DetSim.Model.Session

/-! # Choices of interactive steps

A choice given to a step stays in its cell until some choice point takes it. So a step takes its own choice unless it
has none and comes to a choice point that an earlier step's argument still fits.
-/

namespace DetSim.Session

variable {State : Type*} (system : System State) {args : List Char} {ptmc : PtmcState State} {value : ℕ}

/-- The process of a step is one of the system. -/
def PtmcState.Selected (ptmc : PtmcState State) : Prop := 0 ≤ ptmc.cursor ∧ ptmc.cursor < system.processes

instance decidableSelected (ptmc : PtmcState State) : Decidable (ptmc.Selected system) :=
  inferInstanceAs (Decidable (_ ∧ _))

/-- The choice points a command comes to, by the number of choices. -/
def choices (ptmc : PtmcState State) : ℕ := (system.normal ptmc.runningState ptmc.cursor.toNat).nChoose

/-- What an argument, or else the user, chooses. -/
def ownChoice (argument : SiArgument) (nChoose : ℕ) (answers : List (Option ℤ)) : ℤ :=
  match argument with
  | .choice value => if value < nChoose then value else promptInt nChoose answers
  | _ => promptInt nChoose answers

/-- The choice of a command by its own argument and prompt. -/
def own (ptmc : PtmcState State) : Command → Option ℤ
  | .si args answers =>
    if ptmc.Selected system ∧ parseArgument args ≠ .usage ∧ parseArgument args ≠ .timeout ∧ choices system ptmc ≠ 0 then
      some (ownChoice (parseArgument args) (choices system ptmc) answers)
    else none
  | _ => none

/-- A command gives a choice. -/
def Gives (ptmc : PtmcState State) (command : Command) (value : ℕ) : Prop :=
  ∃ args answers, command = .si args answers ∧ ptmc.Selected system ∧ parseArgument args = .choice value

/-- A step without an argument comes to a choice point that the preset fits. -/
def Open (ptmc : PtmcState State) (command : Command) (value : ℕ) (answers : List (Option ℤ)) : Prop :=
  ptmc.Selected system ∧ (∃ args, command = .si args answers ∧ parseArgument args = .normal) ∧
    ptmc.batchChoicePreset = value ∧ value < choices system ptmc

variable {system}

/-! ## One command -/

theorem handleUserChoice_of_lt {nChoose : ℕ} (fits : value < nChoose) (answers : List (Option ℤ)) :
    handleUserChoice value nChoose answers = ((value : ℤ), -1) := by
  rw [handleUserChoice, if_pos ⟨Int.natCast_nonneg value, by exact_mod_cast fits⟩]

theorem handleUserChoice_of_not {preset : ℤ} {nChoose : ℕ} (misfit : ¬(0 ≤ preset ∧ preset < nChoose))
    (answers : List (Option ℤ)) : handleUserChoice preset nChoose answers = (promptInt nChoose answers, preset) := by
  rw [handleUserChoice, if_neg misfit]

theorem si_of_unselected (outside : ¬ptmc.Selected system) (args : List Char)
    (answers : List (Option ℤ)) : ptmc.si system args answers = (some ptmc, none) := by
  have : ptmc.cursor < 0 ∨ (system.processes : ℤ) ≤ ptmc.cursor := by
    unfold PtmcState.Selected at outside
    omega
  rw [PtmcState.si, cmdSi, if_pos this]

section Selected

variable {ptmc : PtmcState State} (selected : ptmc.Selected system) {args : List Char} (answers : List (Option ℤ))

include selected

theorem si_normal (argument : parseArgument args = .normal) :
    ptmc.si system args answers = loadExecStore system ptmc answers := by
  rw [PtmcState.si, cmdSi, if_neg (by unfold PtmcState.Selected at selected; omega), argument]
  rfl

theorem si_choice (argument : parseArgument args = .choice value) :
    ptmc.si system args answers = loadExecStore system { ptmc with batchChoicePreset := value } answers := by
  rw [PtmcState.si, cmdSi, if_neg (by unfold PtmcState.Selected at selected; omega), argument]
  rfl

theorem si_timeout (argument : parseArgument args = .timeout) : ptmc.si system args answers =
    ((system.timeout ptmc.runningState ptmc.cursor.toNat).map fun next => { ptmc with runningState := next }, none) := by
  rw [PtmcState.si, cmdSi, if_neg (by unfold PtmcState.Selected at selected; omega), argument]

theorem si_usage (argument : parseArgument args = .usage) : ptmc.si system args answers = (some ptmc, none) := by
  rw [PtmcState.si, cmdSi, if_neg (by unfold PtmcState.Selected at selected; omega), argument]

end Selected

theorem loadExecStore_chosen (ptmc : PtmcState State) (answers : List (Option ℤ)) :
    (loadExecStore system ptmc answers).2 = if choices system ptmc = 0 then none
      else some (handleUserChoice ptmc.batchChoicePreset (choices system ptmc) answers).1 := by
  unfold loadExecStore choices
  dsimp only
  split <;> rfl

/-- A step takes the preset, or leaves it when it has too few choices for it. -/
theorem loadExecStore_preset {next : PtmcState State} {answers : List (Option ℤ)}
    (ran : (loadExecStore system ptmc answers).1 = some next) :
    next.batchChoicePreset = -1 ∨ next.batchChoicePreset = ptmc.batchChoicePreset ∧
      (0 ≤ ptmc.batchChoicePreset → choices system ptmc ≤ ptmc.batchChoicePreset) := by
  unfold loadExecStore at ran
  dsimp only at ran
  split at ran
  next none =>
    obtain ⟨_, _, rfl⟩ := Option.map_eq_some_iff.mp ran
    have zero : choices system ptmc = 0 := none
    exact .inr ⟨rfl, fun nonneg => by rw [zero]; exact nonneg⟩
  next some =>
    obtain ⟨_, _, rfl⟩ := Option.map_eq_some_iff.mp ran
    by_cases fits : 0 ≤ ptmc.batchChoicePreset ∧ ptmc.batchChoicePreset < choices system ptmc
    · left
      change (handleUserChoice _ (choices system ptmc) answers).2 = -1
      rw [handleUserChoice, if_pos fits]
    · right
      refine ⟨?_, fun nonneg => le_of_not_gt fun below => fits ⟨nonneg, below⟩⟩
      change (handleUserChoice _ (choices system ptmc) answers).2 = _
      rw [handleUserChoice_of_not fits]

/-- What a step chooses by its argument alone. -/
theorem own_si (selected : ptmc.Selected system)
    (steps : parseArgument args ≠ .usage ∧ parseArgument args ≠ .timeout) (answers : List (Option ℤ)) :
    own system ptmc (.si args answers) = if choices system ptmc = 0 then none
      else some (ownChoice (parseArgument args) (choices system ptmc) answers) := by
  change (if _ ∧ _ then _ else _) = _
  by_cases none : choices system ptmc = 0
  · rw [if_pos none, if_neg fun all => all.2.2.2 none]
  · rw [if_neg none, if_pos ⟨selected, steps.1, steps.2, none⟩]

/-- A choice point of a step whose argument fits takes the argument. -/
theorem chosen_of_choice (selected : ptmc.Selected system)
    (given : parseArgument args = .choice value) (answers : List (Option ℤ)) :
    (ptmc.si system args answers).2 = own system ptmc (.si args answers) := by
  rw [own_si selected (by simp [given]), si_choice selected answers given, loadExecStore_chosen, given]
  change (if choices system ptmc = 0 then none else some (handleUserChoice value (choices system ptmc) answers).1) =
    if choices system ptmc = 0 then none
    else some (if value < choices system ptmc then (value : ℤ) else promptInt (choices system ptmc) answers)
  by_cases fits : value < choices system ptmc
  · rw [handleUserChoice_of_lt fits, if_pos fits]
  · rw [handleUserChoice_of_not (by omega), if_neg fits]

/-- A choice point of a step without an argument takes the preset if it fits. -/
theorem chosen_of_normal_iff (selected : ptmc.Selected system)
    (bare : parseArgument args = .normal) (answers : List (Option ℤ)) :
    (ptmc.si system args answers).2 = own system ptmc (.si args answers) ↔
      ∀ value : ℕ, ptmc.batchChoicePreset = value → value < choices system ptmc →
        promptInt (choices system ptmc) answers = value := by
  rw [own_si selected (by simp [bare]), si_normal selected answers bare, loadExecStore_chosen, bare]
  by_cases none : choices system ptmc = 0
  · simp [none]
  rw [if_neg none, if_neg none, Option.some.injEq]
  change _ = promptInt (choices system ptmc) answers ↔ _
  by_cases fits : 0 ≤ ptmc.batchChoicePreset ∧ ptmc.batchChoicePreset < choices system ptmc
  · obtain ⟨value, preset⟩ := Int.eq_ofNat_of_zero_le fits.1
    rw [preset] at fits ⊢
    have below : value < choices system ptmc := by exact_mod_cast fits.2
    rw [handleUserChoice_of_lt below]
    refine ⟨fun same other equal _ => same.symm.trans equal, fun all => (all value rfl below).symm⟩
  · rw [handleUserChoice_of_not fits]
    refine iff_of_true rfl fun value equal below => absurd ⟨?_, ?_⟩ fits
    · omega
    · omega

/-- A command takes its own choice unless it has none and the preset of an earlier one fits. -/
theorem chosen_eq_own_iff (ptmc : PtmcState State) (command : Command) :
    (executeCommandLine system ptmc command).2 = own system ptmc command ↔
      ∀ (value : ℕ) answers, Open system ptmc command value answers → promptInt (choices system ptmc) answers = value := by
  cases command with
  | sw process =>
    refine iff_of_true rfl fun value answers waits => ?_
    obtain ⟨-, ⟨args, same, -⟩, -⟩ := waits
    cases same
  | load hash =>
    refine iff_of_true rfl fun value answers waits => ?_
    obtain ⟨-, ⟨args, same, -⟩, -⟩ := waits
    cases same
  | si args answers =>
    have only : (∀ (value : ℕ) others, Open system ptmc (.si args answers) value others →
        promptInt (choices system ptmc) others = value) ↔ (ptmc.Selected system → parseArgument args = .normal →
          ∀ value : ℕ, ptmc.batchChoicePreset = value → value < choices system ptmc →
            promptInt (choices system ptmc) answers = value) := by
      constructor
      · intro all selected bare value preset fits
        exact all value answers ⟨selected, ⟨args, rfl, bare⟩, preset, fits⟩
      · rintro all value _ ⟨selected, ⟨_, same, bare⟩, preset, fits⟩
        cases same
        exact all selected bare value preset fits
    rw [only]
    change (ptmc.si system args answers).2 = _ ↔ _
    by_cases selected : ptmc.Selected system
    · rcases argument : parseArgument args with _ | _ | value | _
      · simpa [selected] using chosen_of_normal_iff selected argument answers
      · rw [si_timeout selected answers argument]
        simp [own, argument]
      · simpa using chosen_of_choice selected argument answers
      · rw [si_usage selected answers argument]
        simp [own, argument]
    · rw [si_of_unselected selected]
      simp [own, selected]

/-- A preset after a command is the one before, or was given by a step that had too few choices for it. -/
theorem preset_of_execute {next : PtmcState State} {command : Command}
    (ran : (executeCommandLine system ptmc command).1 = some next)
    (preset : next.batchChoicePreset = value) : ptmc.batchChoicePreset = value ∨
      Gives system ptmc command value ∧ choices system ptmc ≤ value := by
  cases command with
  | sw process =>
    obtain rfl := Option.some.inj ran
    exact .inl preset
  | load hash =>
    obtain rfl := Option.some.inj ran
    exact .inl preset
  | si args answers =>
    change (ptmc.si system args answers).1 = some next at ran
    by_cases selected : ptmc.Selected system
    · rcases argument : parseArgument args with _ | _ | given | _
      · rw [si_normal selected answers argument] at ran
        rcases loadExecStore_preset ran with cleared | ⟨kept, -⟩
        · omega
        · exact .inl (kept.symm.trans preset)
      · rw [si_timeout selected answers argument] at ran
        obtain ⟨_, _, rfl⟩ := Option.map_eq_some_iff.mp ran
        exact .inl preset
      · rw [si_choice selected answers argument] at ran
        rcases loadExecStore_preset ran with cleared | ⟨kept, few⟩
        · omega
        · right
          obtain rfl : given = value := Int.ofNat.inj (kept.symm.trans preset)
          exact ⟨⟨args, answers, rfl, selected, argument⟩, Int.ofNat_le.mp (few (Int.natCast_nonneg given))⟩
      · rw [si_usage selected answers argument] at ran
        obtain rfl := Option.some.inj ran
        exact .inl preset
    · rw [si_of_unselected selected] at ran
      obtain rfl := Option.some.inj ran
      exact .inl preset

/-! ## Sessions -/

theorem chosen_of_mem {commands : List Command} {entry : Entry State}
    (member : entry ∈ session system ptmc commands) :
    entry.chosen = (executeCommandLine system entry.ptmc entry.command).2 := by
  induction commands generalizing ptmc with
  | nil => cases member
  | cons command rest ih =>
    rcases List.mem_cons.mp member with rfl | later
    · rfl
    · rcases ran : (executeCommandLine system ptmc command).1 with _ | next <;> rw [ran] at later
      · cases later
      · exact ih later

/-- A preset of a session was there at its start, or was given by an earlier step with too few choices for it. -/
theorem preset_origin {commands : List Command} {earlier later : List (Entry State)}
    {entry : Entry State} (split : session system ptmc commands = earlier ++ entry :: later)
    (preset : entry.ptmc.batchChoicePreset = value) : ptmc.batchChoicePreset = value ∨
      ∃ giver ∈ earlier, Gives system giver.ptmc giver.command value ∧ choices system giver.ptmc ≤ value := by
  induction commands generalizing ptmc earlier with
  | nil => cases earlier <;> cases split
  | cons command rest ih =>
    unfold session at split
    cases earlier with
    | nil =>
      obtain ⟨rfl, -⟩ := List.cons.inj split
      exact .inl preset
    | cons first others =>
      obtain ⟨rfl, tail⟩ := List.cons.inj split
      rcases ran : (executeCommandLine system ptmc command).1 with _ | next
      · rw [ran] at tail
        cases others <;> cases tail
      · rw [ran] at tail
        rcases ih tail with here | ⟨giver, member, gives⟩
        · rcases preset_of_execute ran here with before | gives
          · exact .inl before
          · exact .inr ⟨_, List.mem_cons_self, gives⟩
        · exact .inr ⟨giver, List.mem_cons_of_mem _ member, gives⟩

/-- From the start of the checker every step takes its own choice exactly if no step without an argument comes to a
choice point that a waiting argument fits, or its user would choose the same. A waiting argument was given by an earlier
step that had too few choices for it, or none. -/
theorem choices_own_iff (start : State) (cursor : ℤ) (commands : List Command) :
    ((∀ entry ∈ session system ⟨start, cursor, -1⟩ commands, entry.chosen = own system entry.ptmc entry.command) ↔
      ∀ entry ∈ session system ⟨start, cursor, -1⟩ commands, ∀ (value : ℕ) answers,
        Open system entry.ptmc entry.command value answers →
          promptInt (choices system entry.ptmc) answers = value) ∧
    ∀ earlier (entry : Entry State) later, session system ⟨start, cursor, -1⟩ commands = earlier ++ entry :: later →
      ∀ value : ℕ, entry.ptmc.batchChoicePreset = value →
        ∃ giver ∈ earlier, Gives system giver.ptmc giver.command value ∧ choices system giver.ptmc ≤ value := by
  constructor
  · refine forall₂_congr fun entry member => ?_
    rw [chosen_of_mem member]
    exact chosen_eq_own_iff entry.ptmc entry.command
  · intro earlier entry later split value preset
    refine (preset_origin split preset).resolve_left fun initial => ?_
    have : (-1 : ℤ) = value := initial
    omega

/-! ## A preset that waits -/

/-- A first step without a choice, then one with two. -/
def oneThenTwo : System ℕ where
  processes := 1
  normal state _ := ⟨if state = 0 then 0 else 2, fun _ => some (state + 1)⟩
  timeout _ _ := none
  load state _ := state

/-- The argument of the first step decides the second, whose user chooses 0. -/
theorem preset_waits :
    (session oneThenTwo ⟨0, 0, -1⟩ [.si ['1'] [], .si [] [some 0]]).map Entry.chosen = [none, some 1] ∧
    own oneThenTwo ⟨1, 0, 1⟩ (.si [] [some 0]) = some 0 := by
  decide

end DetSim.Session
