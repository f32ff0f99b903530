import DetSim.Model.Futex
import DetSim.ToMathlib.KeyedQueues
import DetSim.ToMathlib.TreeMapSum

/-! # The queues of a process and their index

Every operation on the futex queues lets waiters leave a queue or join one, so the index of the waiting threads
stays exact, by the rules for keyed queues. Address zero is the exception the operations do not make: a thread
that is queued there counts as not waiting, and may be queued a second time. Hence the rules ask for queues
without that address.
-/

namespace DetSim.Kernel

open KeyedQueues Std ExtTreeMap

/-! ## Dividing a queue -/

theorem takeWaiters_zero (kind : FutexWaiter → Bool) (queue : List FutexWaiter) :
    takeWaiters kind 0 queue = ([], queue) := by
  induction queue with
  | nil => rfl
  | cons waiter rest ih => simp [takeWaiters, ih]

/-- Exactly the first waiters of the kind are taken. -/
theorem takeWaiters_takesFirst (kind : FutexWaiter → Bool) (limit : ℕ) (queue : List FutexWaiter) :
    TakesFirst kind limit queue (takeWaiters kind limit queue).1 (takeWaiters kind limit queue).2 := by
  induction queue generalizing limit with
  | nil => exact ⟨⟨[], [], rfl, rfl, rfl⟩, (Nat.min_zero _).symm, .refl _, .refl _⟩
  | cons waiter rest ih =>
    cases fits : kind waiter with
    | false =>
      obtain ⟨⟨before, behind, whole, taken, kept⟩, number, conserved, ordered⟩ := ih limit
      have passed : takeWaiters kind limit (waiter :: rest) =
          ((takeWaiters kind limit rest).1, waiter :: (takeWaiters kind limit rest).2) := by simp [takeWaiters, fits]
      rw [passed]
      refine ⟨⟨waiter :: before, behind, ?_, ?_, ?_⟩, ?_, ?_, ordered.cons_cons waiter⟩
      · rw [whole, List.cons_append]
      · rw [List.filter_cons_of_neg (by simp [fits]), taken]
      · rw [List.filter_cons_of_pos (by simp [fits]), kept, List.cons_append]
      · rw [List.countP_cons_of_neg (by simp [fits]), number]
      · exact List.perm_middle.trans (conserved.cons waiter)
    | true =>
      cases limit with
      | zero =>
        rw [takeWaiters_zero]
        exact ⟨⟨[], _, rfl, rfl, rfl⟩, (Nat.zero_min _).symm, .refl _, .refl _⟩
      | succ limit =>
        obtain ⟨⟨before, behind, whole, taken, kept⟩, number, conserved, ordered⟩ := ih limit
        have took : takeWaiters kind (limit + 1) (waiter :: rest) =
            (waiter :: (takeWaiters kind limit rest).1, (takeWaiters kind limit rest).2) := by simp [takeWaiters, fits]
        rw [took]
        refine ⟨⟨waiter :: before, behind, ?_, ?_, ?_⟩, ?_, conserved.cons waiter, ordered.cons waiter⟩
        · rw [whole, List.cons_append]
        · rw [List.filter_cons_of_pos fits, taken]
        · rw [List.filter_cons_of_neg (by simp [fits]), kept]
        · rw [List.countP_cons_of_pos fits, List.length_cons, number, Nat.succ_min_succ]

theorem takeWaiters_perm (kind : FutexWaiter → Bool) (limit : ℕ) (queue : List FutexWaiter) :
    ((takeWaiters kind limit queue).1 ++ (takeWaiters kind limit queue).2).Perm queue :=
  (takeWaiters_takesFirst kind limit queue).conserved

namespace FutexState

variable {state after : FutexState} {uaddr uaddr2 : UInt64} {tid : Int32} {call : Call} {result : Int}
  {gone : Int32 → Prop} {added left remaining : List FutexWaiter}

/-- The queue at an address. -/
def queueAt (state : FutexState) (uaddr : UInt64) : List FutexWaiter := state.waiters[uaddr]?.getD []

/-- The thread stands in some queue. -/
def Queued (state : FutexState) (tid : Int32) : Prop := ∃ uaddr, ∃ waiter ∈ state.queueAt uaddr, waiter.tid = tid

/-- Queues and index agree, no queue is empty, and waiters know their address. -/
structure Kept (state : FutexState) : Prop where
  indexed : Indexed FutexWaiter.tid state.queueAt fun tid => state.waiterMap[tid]?
  nonempty : ∀ uaddr : UInt64, state.waiters[uaddr]? ≠ some []
  placed : ∀ uaddr, ∀ waiter ∈ state.queueAt uaddr, waiter.uaddr = uaddr

/-- Nobody waits at address zero. -/
def NoZero (state : FutexState) : Prop := state.queueAt 0 = []

theorem kept_empty : Kept {} := by
  refine ⟨?_, ?_, ?_⟩
  · exact Indexed.empty
  · intro uaddr
    simp
  · intro uaddr waiter member
    simp [queueAt] at member

/-! ## Setting a queue and forgetting waiters -/

theorem getElem?_setQueue (waiters : Map UInt64 (List FutexWaiter)) (uaddr other : UInt64)
    (queue : List FutexWaiter) : (setQueue waiters uaddr queue)[other]? =
      if uaddr = other then (if queue = [] then none else some queue) else waiters[other]? := by
  unfold setQueue
  split
  · rw [getElem?_erase_eq]
  · rw [getElem?_insert_eq]

theorem queueAt_setQueue (waiters : Map UInt64 (List FutexWaiter)) (waiterMap : Map Int32 UInt64) (uaddr : UInt64)
    (queue : List FutexWaiter) : queueAt ⟨setQueue waiters uaddr queue, waiterMap⟩ =
      Function.update (queueAt ⟨waiters, waiterMap⟩) uaddr queue := by
  funext other
  rw [queueAt, getElem?_setQueue]
  by_cases same : uaddr = other
  · subst same
    rw [if_pos rfl, Function.update_self]
    by_cases empty : queue = []
    · rw [if_pos empty, empty]
      rfl
    · rw [if_neg empty]
      rfl
  · rw [if_neg same, Function.update_of_ne (Ne.symm same)]
    rfl

theorem setQueue_nonempty {waiters : Map UInt64 (List FutexWaiter)}
    (nonempty : ∀ uaddr : UInt64, waiters[uaddr]? ≠ some []) (uaddr : UInt64) (queue : List FutexWaiter) :
    ∀ other : UInt64, (setQueue waiters uaddr queue)[other]? ≠ some [] := by
  intro other
  rw [getElem?_setQueue]
  split
  · split
    · exact Option.some_ne_none [] ∘ Eq.symm
    · next full => exact fun same => full (Option.some.inj same)
  · exact nonempty other

theorem getElem?_eraseTids (waiterMap : Map Int32 UInt64) (waiters : List FutexWaiter) (tid : Int32) :
    (eraseTids waiterMap waiters)[tid]? = if tid ∈ waiters.map FutexWaiter.tid then none else waiterMap[tid]? := by
  induction waiters generalizing waiterMap with
  | nil => simp [eraseTids]
  | cons waiter rest ih =>
    have unfolded : eraseTids waiterMap (waiter :: rest) = eraseTids (waiterMap.erase waiter.tid) rest := rfl
    rw [unfolded, ih, getElem?_erase_eq]
    by_cases now : tid = waiter.tid
    · simp [now]
    · simp [now, Ne.symm now]

theorem getElem?_fileTids (waiterMap : Map Int32 UInt64) (waiters : List FutexWaiter) (uaddr : UInt64) (tid : Int32) :
    (waiters.foldl (fun waiterMap waiter => waiterMap.insert waiter.tid uaddr) waiterMap)[tid]? =
      if tid ∈ waiters.map FutexWaiter.tid then some uaddr else waiterMap[tid]? := by
  induction waiters generalizing waiterMap with
  | nil => simp
  | cons waiter rest ih =>
    rw [List.foldl_cons, ih, getElem?_insert_eq]
    by_cases now : tid = waiter.tid
    · simp [now]
    · simp [now, Ne.symm now]

/-! ## The two half-steps -/

/-- The queues after some waiters left one of them. -/
def drop (state : FutexState) (uaddr : UInt64) (left kept : List FutexWaiter) : FutexState :=
  ⟨setQueue state.waiters uaddr kept, eraseTids state.waiterMap left⟩

theorem Kept.drop (kept : Kept state)
    (split : (left ++ remaining).Perm (state.queueAt uaddr)) : Kept (state.drop uaddr left remaining) where
  indexed := by
    have left := kept.indexed.leave split
    simp only [FutexState.drop, queueAt_setQueue, getElem?_eraseTids]
    exact left
  nonempty := setQueue_nonempty kept.nonempty uaddr remaining
  placed := by
    intro other waiter member
    rw [FutexState.drop, queueAt_setQueue] at member
    by_cases same : other = uaddr
    · subst same
      rw [Function.update_self] at member
      exact kept.placed other waiter (split.mem_iff.mp (List.mem_append_right _ member))
    · rw [Function.update_of_ne same] at member
      exact kept.placed other waiter member

/-- The queues after some waiters joined one of them. -/
def add (state : FutexState) (uaddr : UInt64) (added : List FutexWaiter) : FutexState :=
  ⟨setQueue state.waiters uaddr (state.queueAt uaddr ++ added),
    added.foldl (fun waiterMap waiter => waiterMap.insert waiter.tid uaddr) state.waiterMap⟩

theorem Kept.add (kept : Kept state)
    (unused : ∀ waiter ∈ added, state.waiterMap[waiter.tid]? = none) (names : (added.map FutexWaiter.tid).Nodup)
    (addressed : ∀ waiter ∈ added, waiter.uaddr = uaddr) : Kept (state.add uaddr added) where
  indexed := by
    have joined : Indexed FutexWaiter.tid (Function.update state.queueAt uaddr (state.queueAt uaddr ++ added)) _ :=
      kept.indexed.join unused names
    simp only [FutexState.add, queueAt_setQueue, getElem?_fileTids]
    exact joined
  nonempty := setQueue_nonempty kept.nonempty uaddr _
  placed := by
    intro other waiter member
    rw [FutexState.add, queueAt_setQueue] at member
    by_cases same : other = uaddr
    · subst same
      rw [Function.update_self, List.mem_append] at member
      exact member.elim (kept.placed other waiter) (addressed waiter)
    · rw [Function.update_of_ne same] at member
      exact kept.placed other waiter member

theorem queueAt_drop (left remaining : List FutexWaiter) :
    (state.drop uaddr left remaining).queueAt = Function.update state.queueAt uaddr remaining :=
  queueAt_setQueue state.waiters _ uaddr remaining

theorem queueAt_add (added : List FutexWaiter) :
    (state.add uaddr added).queueAt = Function.update state.queueAt uaddr (state.queueAt uaddr ++ added) :=
  queueAt_setQueue state.waiters _ uaddr _

theorem waiterMap_drop (left remaining : List FutexWaiter) (tid : Int32) :
    (state.drop uaddr left remaining).waiterMap[tid]? =
      if tid ∈ left.map FutexWaiter.tid then none else state.waiterMap[tid]? :=
  getElem?_eraseTids state.waiterMap left tid

theorem waiterMap_add (added : List FutexWaiter) (tid : Int32) :
    (state.add uaddr added).waiterMap[tid]? =
      if tid ∈ added.map FutexWaiter.tid then some uaddr else state.waiterMap[tid]? :=
  getElem?_fileTids state.waiterMap added uaddr tid

/-- A thread that stays in its queue when others leave is queued still. -/
theorem Queued.drop (split : (left ++ remaining).Perm (state.queueAt uaddr))
    (queued : state.Queued tid) (stays : tid ∉ left.map FutexWaiter.tid) :
    (state.drop uaddr left remaining).Queued tid := by
  obtain ⟨other, waiter, member, rfl⟩ := queued
  refine ⟨other, waiter, ?_, rfl⟩
  rw [queueAt_drop]
  by_cases same : other = uaddr
  · subst same
    rw [Function.update_self]
    rw [← split.mem_iff, List.mem_append] at member
    exact member.resolve_left fun gone => stays (List.mem_map_of_mem gone)
  · rwa [Function.update_of_ne same]

theorem Queued.add (queued : state.Queued tid) : (state.add uaddr added).Queued tid := by
  obtain ⟨other, waiter, member, rfl⟩ := queued
  refine ⟨other, waiter, ?_, rfl⟩
  rw [queueAt_add]
  by_cases same : other = uaddr
  · subst same
    rw [Function.update_self]
    exact List.mem_append_left _ member
  · rwa [Function.update_of_ne same]

theorem queued_add (joins : tid ∈ added.map FutexWaiter.tid) :
    (state.add uaddr added).Queued tid := by
  obtain ⟨waiter, member, rfl⟩ := List.mem_map.mp joins
  refine ⟨uaddr, waiter, ?_, rfl⟩
  rw [queueAt_add, Function.update_self]
  exact List.mem_append_right _ member

/-! ## Who waits -/

theorem isThreadWaiting_iff : state.isThreadWaiting tid = true ↔
    ∃ uaddr : UInt64, state.waiterMap[tid]? = some uaddr ∧ uaddr ≠ 0 := by
  rw [isThreadWaiting, Option.any_eq_true]
  simp

/-- An address in the index is not zero when nobody waits there. -/
theorem Kept.ne_zero (kept : Kept state) (clear : NoZero state) (filed : state.waiterMap[tid]? = some uaddr) :
    uaddr ≠ 0 := by
  rintro rfl
  obtain ⟨waiter, member, -⟩ := (kept.indexed.filed _ _).mp filed
  rw [clear] at member
  contradiction

theorem Kept.waitingIff (kept : Kept state) (clear : NoZero state) :
    state.isThreadWaiting tid = true ↔ state.Queued tid := by
  rw [isThreadWaiting_iff]
  constructor
  · rintro ⟨uaddr, filed, -⟩
    exact ⟨uaddr, (kept.indexed.filed _ _).mp filed⟩
  · rintro ⟨uaddr, queued⟩
    have filed := (kept.indexed.filed tid uaddr).mpr queued
    exact ⟨uaddr, filed, kept.ne_zero clear filed⟩

theorem Kept.unfiled (kept : Kept state) (clear : NoZero state) (idle : state.isThreadWaiting tid = false) :
    state.waiterMap[tid]? = none := by
  cases filed : state.waiterMap[tid]? with
  | none => rfl
  | some uaddr =>
    have waiting := isThreadWaiting_iff.mpr ⟨uaddr, filed, kept.ne_zero clear filed⟩
    rw [idle] at waiting
    contradiction

/-- Threads only stop waiting. -/
def Shrinks (before after : FutexState) : Prop :=
  ∀ tid, after.isThreadWaiting tid = true → before.isThreadWaiting tid = true

theorem Shrinks.refl (state : FutexState) : Shrinks state state := fun _ waiting => waiting

theorem Shrinks.trans {first second third : FutexState} (left : Shrinks first second) (right : Shrinks second third) :
    Shrinks first third := fun tid waiting => left tid (right tid waiting)

theorem shrinks_drop (left remaining : List FutexWaiter) : Shrinks state (state.drop uaddr left remaining) := by
  intro tid waiting
  obtain ⟨other, filed, positive⟩ := isThreadWaiting_iff.mp waiting
  rw [waiterMap_drop] at filed
  split at filed
  · contradiction
  · exact isThreadWaiting_iff.mpr ⟨other, filed, positive⟩

theorem NoZero.drop (clear : NoZero state)
    (split : (left ++ remaining).Perm (state.queueAt uaddr)) : NoZero (state.drop uaddr left remaining) := by
  rw [NoZero, queueAt_drop]
  by_cases zero : (0 : UInt64) = uaddr
  · subst zero
    rw [clear, List.perm_nil] at split
    rw [Function.update_self]
    exact (List.append_eq_nil_iff.mp split).2
  · rwa [Function.update_of_ne zero]

/-! ## The operations -/

/-- An operation that takes nobody into a queue: only some threads leave their queues. -/
structure Released (before after : FutexState) (gone : Int32 → Prop) : Prop where
  kept : Kept after
  shrinks : Shrinks before after
  stays : ∀ tid, before.Queued tid → ¬gone tid → after.Queued tid

theorem Released.refl (kept : Kept state) : Released state state gone :=
  ⟨kept, Shrinks.refl state, fun _ queued _ => queued⟩

theorem Released.trans {first second third : FutexState} {later : Int32 → Prop}
    (left : Released first second gone) (right : Released second third later) :
    Released first third fun tid => gone tid ∨ later tid :=
  ⟨right.kept, left.shrinks.trans right.shrinks,
    fun tid queued stays => right.stays tid (left.stays tid queued (stays ∘ Or.inl)) (stays ∘ Or.inr)⟩

theorem Released.mono {more : Int32 → Prop} (released : Released state after gone)
    (implies : ∀ tid, gone tid → more tid) : Released state after more :=
  ⟨released.kept, released.shrinks, fun tid queued stays => released.stays tid queued (stays ∘ implies tid)⟩

theorem Kept.released_drop (kept : Kept state)
    (split : (left ++ remaining).Perm (state.queueAt uaddr)) :
    Released state (state.drop uaddr left remaining) (· ∈ left.map FutexWaiter.tid) :=
  ⟨kept.drop split, shrinks_drop left remaining, fun _ queued stays => queued.drop split stays⟩

theorem drop_nil (absent : state.waiters[uaddr]? = none) : state.drop uaddr [] [] = state := by
  have erased : state.waiters.erase uaddr = state.waiters := by
    apply ext_getElem?
    intro other
    rw [getElem?_erase_eq]
    split
    · next same => rw [← same, absent]
    · rfl
  simp [FutexState.drop, setQueue, eraseTids, erased]

/-- The threads that a wake takes out of a queue: the first fitting ones. -/
def woken (state : FutexState) (uaddr : UInt64) (nrWake : Int) (bitset : UInt32) (privateWait : Bool) : List Int32 :=
  (takeWaiters (wakeable bitset privateWait) nrWake.toNat (state.queueAt uaddr)).1.map FutexWaiter.tid

theorem wake_eq_drop (kept : Kept state) (uaddr : UInt64) (nrWake : Int) (bitset : UInt32) (privateWait : Bool) :
    (state.wake uaddr nrWake bitset privateWait).2 = state.drop uaddr
      (takeWaiters (wakeable bitset privateWait) nrWake.toNat (state.queueAt uaddr)).1
      (takeWaiters (wakeable bitset privateWait) nrWake.toNat (state.queueAt uaddr)).2 := by
  rw [wake, queueAt]
  cases read : state.waiters[uaddr]? with
  | none => exact (drop_nil read).symm
  | some queue =>
    by_cases empty : queue = []
    · exact absurd (empty ▸ read) (kept.nonempty uaddr)
    · simp only [Option.getD_some, if_neg empty]
      rfl

theorem Kept.wake (kept : Kept state) (uaddr : UInt64) (nrWake : Int) (bitset : UInt32) (privateWait : Bool) :
    Released state (state.wake uaddr nrWake bitset privateWait).2
      (· ∈ state.woken uaddr nrWake bitset privateWait) := by
  rw [wake_eq_drop kept]
  exact kept.released_drop (takeWaiters_perm _ _ _)

theorem NoZero.wake (clear : NoZero state) (kept : Kept state) (uaddr : UInt64) (nrWake : Int) (bitset : UInt32)
    (privateWait : Bool) : NoZero (state.wake uaddr nrWake bitset privateWait).2 := by
  rw [wake_eq_drop kept]
  exact clear.drop (takeWaiters_perm _ _ _)

/-- A move is a departure from one queue and an arrival at the other. -/
theorem moveWaiters_eq {uaddr1 : UInt64} (different : uaddr1 ≠ uaddr2) (moved remaining : List FutexWaiter) :
    state.moveWaiters uaddr1 uaddr2 moved remaining = (state.drop uaddr1 moved remaining).add uaddr2
      (moved.map fun waiter => { waiter with uaddr := uaddr2 }) := by
  have target : (state.drop uaddr1 moved remaining).queueAt uaddr2 = state.queueAt uaddr2 := by
    rw [queueAt_drop, Function.update_of_ne (Ne.symm different)]
  have index : moved.foldl (fun waiterMap waiter => waiterMap.insert waiter.tid uaddr2) state.waiterMap =
      (moved.map fun waiter => { waiter with uaddr := uaddr2 }).foldl
        (fun waiterMap waiter => waiterMap.insert waiter.tid uaddr2) (eraseTids state.waiterMap moved) := by
    apply ext_getElem?
    intro tid
    rw [getElem?_fileTids, getElem?_fileTids, getElem?_eraseTids, List.map_map]
    have names : moved.map (FutexWaiter.tid ∘ fun waiter => { waiter with uaddr := uaddr2 }) =
        moved.map FutexWaiter.tid := rfl
    rw [names]
    split <;> rfl
  rw [moveWaiters, FutexState.add, target, index]
  rfl

theorem Kept.moveWaiters (kept : Kept state) (clear : NoZero state) {uaddr1 : UInt64}
    (different : uaddr1 ≠ uaddr2) {moved : List FutexWaiter}
    (split : (moved ++ remaining).Perm (state.queueAt uaddr1)) :
    Released state (state.moveWaiters uaddr1 uaddr2 moved remaining) fun _ => False := by
  have names : (moved.map fun waiter => { waiter with uaddr := uaddr2 }).map FutexWaiter.tid =
      moved.map FutexWaiter.tid := List.map_map
  have member : ∀ {tid}, tid ∈ moved.map FutexWaiter.tid → state.waiterMap[tid]? = some uaddr1 := by
    intro tid moves
    obtain ⟨waiter, there, rfl⟩ := List.mem_map.mp moves
    exact (kept.indexed.filed _ _).mpr ⟨waiter, split.mem_iff.mp (List.mem_append_left _ there), rfl⟩
  rw [moveWaiters_eq different]
  refine ⟨(kept.drop split).add ?_ ?_ ?_, ?_, ?_⟩
  · intro waiter joins
    rw [waiterMap_drop, if_pos]
    rw [← names]
    exact List.mem_map_of_mem joins
  · rw [names]
    have all := (split.map FutexWaiter.tid).nodup_iff.mpr (kept.indexed.distinct uaddr1)
    rw [List.map_append, List.nodup_append] at all
    exact all.1
  · intro waiter joins
    obtain ⟨_, -, rfl⟩ := List.mem_map.mp joins
    rfl
  · intro tid waiting
    obtain ⟨other, filed, positive⟩ := isThreadWaiting_iff.mp waiting
    rw [waiterMap_add, names] at filed
    split at filed
    · next moves => exact isThreadWaiting_iff.mpr ⟨uaddr1, member moves, kept.ne_zero clear (member moves)⟩
    · exact shrinks_drop moved remaining tid (isThreadWaiting_iff.mpr ⟨other, filed, positive⟩)
  · intro tid queued _
    by_cases moves : tid ∈ moved.map FutexWaiter.tid
    · exact queued_add (names ▸ moves)
    · exact (queued.drop split moves).add

theorem Kept.requeue (kept : Kept state) (clear : NoZero state) (uaddr1 uaddr2 : UInt64) (nrWake nrRequeue : Int)
    (privateWait : Bool) : Released state (state.requeue uaddr1 uaddr2 nrWake nrRequeue privateWait).2
      (· ∈ state.woken uaddr1 nrWake 0xffffffff privateWait) := by
  have wakes := kept.wake uaddr1 nrWake 0xffffffff privateWait
  have still := clear.wake kept uaddr1 nrWake 0xffffffff privateWait
  rw [FutexState.requeue]
  split
  · exact Released.refl kept
  · dsimp only
    split
    · exact wakes
    · next queue read =>
      split
      · exact wakes
      · next different =>
        have queued : (state.wake uaddr1 nrWake 0xffffffff privateWait).2.queueAt uaddr1 = queue := by
          rw [queueAt, read, Option.getD_some]
        have split := takeWaiters_perm (fun waiter => waiter.privateWait == privateWait) nrRequeue.toNat queue
        exact (wakes.trans (wakes.kept.moveWaiters still different (queued ▸ split))).mono
          fun tid gone => gone.resolve_right id

/-! ## One thread leaves or joins -/

theorem removeWaiter_eq_drop (kept : Kept state) (waiting : state.isThreadWaiting tid = true) :
    ∃ uaddr waiter, waiter.tid = tid ∧ ∃ remaining, ([waiter] ++ remaining).Perm (state.queueAt uaddr) ∧
      (state.removeWaiter tid).2 = state.drop uaddr [waiter] remaining := by
  obtain ⟨uaddr, filed, positive⟩ := isThreadWaiting_iff.mp waiting
  obtain ⟨waiter, member, named⟩ := (kept.indexed.filed _ _).mp filed
  have present : (state.queueAt uaddr).any (·.tid == tid) := List.any_eq_true.mpr ⟨waiter, member, by simp [named]⟩
  obtain ⟨found, before, after, -, named, queue, erased⟩ :=
    List.exists_of_eraseP member (p := (·.tid == tid)) (by simp [named])
  have named : found.tid = tid := by simpa using named
  refine ⟨uaddr, found, named, (state.queueAt uaddr).eraseP (·.tid == tid), ?_, ?_⟩
  · rw [erased, queue, List.singleton_append]
    exact List.perm_middle.symm
  · rw [queueAt] at present
    simp only [removeWaiter, filed, if_neg positive, present, if_true, FutexState.drop, eraseTids, List.foldl_cons,
      List.foldl_nil, named, queueAt]

theorem removeWaiter_idle (idle : state.isThreadWaiting tid = false) : (state.removeWaiter tid).2 = state := by
  rw [removeWaiter]
  split
  · rfl
  · next uaddr filed =>
    split
    · rfl
    · next positive =>
      rw [isThreadWaiting_iff.mpr ⟨uaddr, filed, positive⟩] at idle
      contradiction

theorem Kept.removeWaiter (kept : Kept state) (tid : Int32) :
    Released state (state.removeWaiter tid).2 (· = tid) := by
  cases waiting : state.isThreadWaiting tid with
  | false =>
    rw [removeWaiter_idle waiting]
    exact Released.refl kept
  | true =>
    obtain ⟨uaddr, waiter, named, remaining, split, removed⟩ := removeWaiter_eq_drop kept waiting
    rw [removed]
    refine (kept.released_drop split).mono fun other gone => ?_
    rw [List.map_singleton, List.mem_singleton] at gone
    rw [gone, named]

theorem Kept.removeWaiter_idle (kept : Kept state) (tid : Int32) :
    (state.removeWaiter tid).2.isThreadWaiting tid = false := by
  cases waiting : state.isThreadWaiting tid with
  | false => rwa [FutexState.removeWaiter_idle waiting]
  | true =>
    obtain ⟨uaddr, waiter, named, remaining, split, removed⟩ := removeWaiter_eq_drop kept waiting
    rw [removed, isThreadWaiting, waiterMap_drop, if_pos]
    · rfl
    · simp [named]

theorem NoZero.removeWaiter (clear : NoZero state) (kept : Kept state) (tid : Int32) :
    NoZero (state.removeWaiter tid).2 := by
  cases waiting : state.isThreadWaiting tid with
  | false => rwa [removeWaiter_idle waiting]
  | true =>
    obtain ⟨uaddr, waiter, named, remaining, split, removed⟩ := removeWaiter_eq_drop kept waiting
    rw [removed]
    exact clear.drop split

/-- Who was not released waits still, unless at address zero. -/
theorem Released.waiting (released : Released state after gone)
    (kept : Kept state) (clear : NoZero state) (stillClear : NoZero after) (stays : ¬gone tid) :
    after.isThreadWaiting tid = state.isThreadWaiting tid := by
  rw [Bool.eq_iff_iff]
  refine ⟨released.shrinks tid, fun waiting => ?_⟩
  exact (released.kept.waitingIff stillClear).mpr (released.stays tid ((kept.waitingIff clear).mp waiting) stays)

theorem addWaiter_eq_add (waiter : FutexWaiter) : state.addWaiter waiter = state.add waiter.uaddr [waiter] := by
  rw [addWaiter, FutexState.add, setQueue, if_neg (by simp)]
  rfl

theorem Kept.addWaiter (kept : Kept state) (clear : NoZero state) {waiter : FutexWaiter}
    (idle : state.isThreadWaiting waiter.tid = false) : Kept (state.addWaiter waiter) := by
  rw [addWaiter_eq_add]
  refine kept.add ?_ (List.nodup_singleton _) ?_
  · intro other joins
    rw [List.mem_singleton.mp joins]
    exact kept.unfiled clear idle
  · intro other joins
    rw [List.mem_singleton.mp joins]

theorem isThreadWaiting_addWaiter (waiter : FutexWaiter) (tid : Int32) :
    (state.addWaiter waiter).isThreadWaiting tid =
      if tid = waiter.tid then waiter.uaddr != 0 else state.isThreadWaiting tid := by
  rw [isThreadWaiting, addWaiter_eq_add, waiterMap_add]
  by_cases same : tid = waiter.tid
  · simp [same]
  · simp [same, isThreadWaiting]

theorem Queued.addWaiter (queued : state.Queued tid) (waiter : FutexWaiter) : (state.addWaiter waiter).Queued tid := by
  rw [addWaiter_eq_add]
  exact queued.add

/-! ## A whole range is woken -/

theorem getElem?_eraseEntries (waiters : Map UInt64 (List FutexWaiter)) (entries : List (UInt64 × List FutexWaiter))
    (uaddr : UInt64) : (entries.foldl (fun waiters entry => waiters.erase entry.1) waiters)[uaddr]? =
      if uaddr ∈ entries.map Prod.fst then none else waiters[uaddr]? := by
  induction entries generalizing waiters with
  | nil => simp
  | cons entry rest ih =>
    rw [List.foldl_cons, ih, getElem?_erase_eq]
    by_cases now : uaddr = entry.1
    · simp [now]
    · simp only [List.map_cons, List.mem_cons, now, Ne.symm now, false_or, if_false]

/-- The addresses of a range. -/
def inRange (start stop uaddr : UInt64) : Prop := start ≤ uaddr ∧ uaddr < stop

instance (start stop uaddr : UInt64) : Decidable (inRange start stop uaddr) := inferInstanceAs (Decidable (_ ∧ _))

theorem queueAt_wakeWaitersInRange (start stop uaddr : UInt64) :
    (state.wakeWaitersInRange start stop).2.queueAt uaddr =
      if inRange start stop uaddr then [] else state.queueAt uaddr := by
  rw [queueAt, wakeWaitersInRange, getElem?_eraseEntries]
  by_cases inside : inRange start stop uaddr
  · rw [if_pos inside]
    cases read : state.waiters[uaddr]? with
    | none => simp
    | some queue =>
      rw [if_pos]
      · rfl
      · refine List.mem_map.mpr ⟨(uaddr, queue), List.mem_filter.mpr ⟨?_, ?_⟩, rfl⟩
        · exact mem_toList_iff_getElem?_eq_some.mpr read
        · simpa [inRange] using inside
  · rw [if_neg inside, if_neg]
    · rfl
    · intro erased
      obtain ⟨entry, member, rfl⟩ := List.mem_map.mp erased
      have within := (List.mem_filter.mp member).2
      rw [Bool.and_eq_true, decide_eq_true_eq, decide_eq_true_eq] at within
      exact inside within

theorem waiterMap_wakeWaitersInRange (kept : Kept state) (start stop : UInt64) (tid : Int32) :
    (state.wakeWaitersInRange start stop).2.waiterMap[tid]? =
      state.waiterMap[tid]?.filter fun uaddr => ¬inRange start stop uaddr := by
  have flat : ∀ (entries : List (UInt64 × List FutexWaiter)) (waiterMap : Map Int32 UInt64),
      entries.foldl (fun waiterMap entry => eraseTids waiterMap entry.2) waiterMap =
        eraseTids waiterMap (entries.flatMap Prod.snd) := by
    intro entries waiterMap
    rw [eraseTids, List.foldl_flatMap]
    rfl
  rw [wakeWaitersInRange, flat, getElem?_eraseTids]
  have discarded : tid ∈ ((state.waiters.toList.filter fun entry => start ≤ entry.1 && entry.1 < stop).flatMap
      Prod.snd).map FutexWaiter.tid ↔ ∃ uaddr, state.waiterMap[tid]? = some uaddr ∧ inRange start stop uaddr := by
    simp only [List.mem_map, List.mem_flatMap, List.mem_filter, Bool.and_eq_true, decide_eq_true_eq]
    constructor
    · rintro ⟨waiter, ⟨⟨uaddr, queue⟩, ⟨listed, within⟩, member⟩, rfl⟩
      have read := mem_toList_iff_getElem?_eq_some.mp listed
      refine ⟨uaddr, (kept.indexed.filed _ _).mpr ⟨waiter, ?_, rfl⟩, within⟩
      rw [queueAt, read]
      exact member
    · rintro ⟨uaddr, filed, within⟩
      obtain ⟨waiter, member, named⟩ := (kept.indexed.filed _ _).mp filed
      cases read : state.waiters[uaddr]? with
      | none => simp [queueAt, read] at member
      | some queue =>
        rw [queueAt, read] at member
        exact ⟨waiter, ⟨(uaddr, queue), ⟨mem_toList_iff_getElem?_eq_some.mpr read, within⟩, member⟩, named⟩
  cases filed : state.waiterMap[tid]? with
  | none => simp
  | some uaddr =>
    rw [filed] at discarded
    by_cases inside : inRange start stop uaddr
    · rw [if_pos (discarded.mpr ⟨uaddr, rfl, inside⟩), Option.filter_some, if_neg (by simpa using inside)]
    · rw [if_neg, Option.filter_some, if_pos (by simpa using inside)]
      intro member
      obtain ⟨other, same, within⟩ := discarded.mp member
      exact inside (Option.some.inj same ▸ within)

theorem Kept.wakeWaitersInRange (kept : Kept state) (start stop : UInt64) :
    Released state (state.wakeWaitersInRange start stop).2
      fun tid => ∃ uaddr, state.waiterMap[tid]? = some uaddr ∧ inRange start stop uaddr where
  kept := by
    refine ⟨⟨?_, ?_⟩, ?_, ?_⟩
    · intro tid uaddr
      rw [waiterMap_wakeWaitersInRange kept, queueAt_wakeWaitersInRange, Option.filter_eq_some_iff,
        kept.indexed.filed]
      by_cases inside : inRange start stop uaddr <;> simp [inside]
    · intro uaddr
      rw [queueAt_wakeWaitersInRange]
      split
      · exact List.nodup_nil
      · exact kept.indexed.distinct uaddr
    · intro uaddr
      rw [FutexState.wakeWaitersInRange, getElem?_eraseEntries]
      split
      · exact Option.some_ne_none [] ∘ Eq.symm
      · exact kept.nonempty uaddr
    · intro uaddr waiter member
      rw [queueAt_wakeWaitersInRange] at member
      split at member
      · contradiction
      · exact kept.placed uaddr waiter member
  shrinks := by
    intro tid waiting
    obtain ⟨uaddr, filed, positive⟩ := isThreadWaiting_iff.mp waiting
    rw [waiterMap_wakeWaitersInRange kept, Option.filter_eq_some_iff] at filed
    exact isThreadWaiting_iff.mpr ⟨uaddr, filed.1, positive⟩
  stays := by
    rintro _ ⟨uaddr, waiter, member, rfl⟩ stays
    refine ⟨uaddr, waiter, ?_, rfl⟩
    rw [queueAt_wakeWaitersInRange, if_neg]
    · exact member
    · exact fun inside => stays ⟨uaddr, (kept.indexed.filed _ _).mpr ⟨waiter, member, rfl⟩, inside⟩

/-! ## A whole call -/

/-- The operation is one that waits. -/
def Call.waits (call : Call) : Prop :=
  futexCommand call.futexOp = futexWait ∨ futexCommand call.futexOp = futexWaitBitset

/-- The threads that a call takes out of the queues. A refused call takes none of them. -/
def wokenBy (state : FutexState) (call : Call) : List Int32 :=
  if futexCommand call.futexOp = futexWake then
    state.woken call.uaddr (max 1 call.val.toInt) 0xffffffff (futexPrivate call.futexOp)
  else if futexCommand call.futexOp = futexWakeBitset then
    state.woken call.uaddr (max 1 call.val.toInt) call.val3.toUInt32 (futexPrivate call.futexOp)
  else if futexCommand call.futexOp = futexRequeue ∨ futexCommand call.futexOp = futexCmpRequeue then
    state.woken call.uaddr call.val.toInt 0xffffffff (futexPrivate call.futexOp)
  else []

theorem waitCall_cases
    (returned : state.waitCall tid call = .ok (result, after)) : (result ≠ 0 ∧ after = state) ∨
      (result = 0 ∧ state.isThreadWaiting tid = false ∧ ∃ waiter, waiter.tid = tid ∧ waiter.uaddr = call.uaddr ∧
        after = state.addWaiter waiter) := by
  unfold waitCall at returned
  split at returned
  · contradiction
  · split at returned
    · cases returned
      exact .inl ⟨by decide, rfl⟩
    · split at returned
      · cases returned
        exact .inl ⟨by decide, rfl⟩
      · split at returned
        · contradiction
        · next idle =>
          cases returned
          exact .inr ⟨rfl, by simpa using idle, _, rfl, rfl, rfl⟩

theorem Kept.wakeCall (kept : Kept state)
    (wakes : futexCommand call.futexOp = futexWake ∨ futexCommand call.futexOp = futexWakeBitset)
    (returned : state.wakeCall call = .ok (result, after)) : Released state after (· ∈ state.wokenBy call) := by
  rw [FutexState.wakeCall] at returned
  have done := congrArg Prod.snd (Except.ok.inj returned)
  dsimp only at done
  subst done
  rcases wakes with one | bits
  · have other : futexWake ≠ futexWakeBitset := by decide
    simp only [one, other, if_false, wokenBy, if_true]
    exact kept.wake ..
  · have other : futexWakeBitset ≠ futexWake := by decide
    simp only [bits, other, if_false, wokenBy, if_true]
    exact kept.wake ..

theorem Kept.requeueCall (kept : Kept state) (clear : NoZero state)
    (requeues : futexCommand call.futexOp = futexRequeue ∨ futexCommand call.futexOp = futexCmpRequeue)
    (returned : state.requeueCall call = .ok (result, after)) : Released state after (· ∈ state.wokenBy call) := by
  have moved := kept.requeue clear call.uaddr call.uaddr2 call.val.toInt (toInt call.timeoutAddr).toInt
    (futexPrivate call.futexOp)
  have woken : state.wokenBy call = state.woken call.uaddr call.val.toInt 0xffffffff (futexPrivate call.futexOp) := by
    rcases requeues with plain | compared
    · simp [wokenBy, plain, futexRequeue, futexWake, futexWakeBitset]
    · simp [wokenBy, compared, futexCmpRequeue, futexWake, futexWakeBitset]
  rw [← woken] at moved
  unfold FutexState.requeueCall at returned
  dsimp only at returned
  split at returned
  · cases returned
    exact Released.refl kept
  · split at returned
    · split at returned
      · cases returned
        exact Released.refl kept
      · split at returned
        · cases returned
          exact Released.refl kept
        · rw [Except.ok.inj returned] at moved
          exact moved
    · rw [Except.ok.inj returned] at moved
      exact moved

/-- What a call can do: let threads go, or queue its own thread when it answers a wait with zero. -/
theorem handleFutex_cases (kept : Kept state) (clear : NoZero state)
    (returned : state.handleFutex tid call = .ok (result, after)) :
    (¬(call.waits ∧ result = 0) ∧ Released state after (· ∈ state.wokenBy call)) ∨
      (call.waits ∧ result = 0 ∧ state.isThreadWaiting tid = false ∧ ∃ waiter, waiter.tid = tid ∧
        waiter.uaddr = call.uaddr ∧ after = state.addWaiter waiter) := by
  unfold handleFutex at returned
  dsimp only at returned
  split at returned
  · contradiction
  · next known =>
    split at returned
    · next errno refused =>
      cases returned
      refine .inl ⟨?_, Released.refl kept⟩
      rintro ⟨-, rfl⟩
      unfold Call.refused at refused
      dsimp only at refused
      split_ifs at refused <;> exact absurd (Option.some.inj refused) (by decide)
    · split at returned
      · next waits =>
        obtain ⟨failed, rfl⟩ | ⟨done, idle, added⟩ := waitCall_cases returned
        · exact .inl ⟨fun both => failed both.2, Released.refl kept⟩
        · exact .inr ⟨waits, done, idle, added⟩
      · next no =>
        refine .inl ⟨fun both => no both.1, ?_⟩
        split at returned
        · next wakes => exact kept.wakeCall wakes returned
        · next other =>
          have requeues := ((not_not.mp known).resolve_left no).resolve_left other
          exact kept.requeueCall clear requeues returned

/-! ## Address zero -/

/-- A wait at address zero that finds its word. -/
def Call.waitsAtZero (call : Call) : Prop :=
  call.waits ∧ call.uaddr = 0 ∧ call.stackval = some call.val.toUInt32

/-- A requeue to address zero. -/
def Call.requeuesToZero (call : Call) : Prop :=
  (futexCommand call.futexOp = futexRequeue ∨ futexCommand call.futexOp = futexCmpRequeue) ∧ call.uaddr2 = 0

/-- The waiters that a requeue moves, behind those that it wakes. -/
def requeued (state : FutexState) (call : Call) : List FutexWaiter :=
  (takeWaiters (fun waiter => waiter.privateWait == futexPrivate call.futexOp) (toInt call.timeoutAddr).toInt.toNat
    ((state.wake call.uaddr call.val.toInt 0xffffffff (futexPrivate call.futexOp)).2.queueAt call.uaddr)).1

/-- A call that queues a thread at address zero: its own in a wait that finds its word, or others in a requeue from
another address whose comparison succeeds. -/
def queuesAtZero (state : FutexState) (call : Call) : Prop :=
  call.refused = none ∧ (call.waitsAtZero ∨ (call.requeuesToZero ∧ call.uaddr ≠ 0 ∧ 0 ≤ call.val ∧
    (futexCommand call.futexOp = futexCmpRequeue → call.stackval = some call.val3.toUInt32) ∧ state.requeued call ≠ []))

theorem noZero_add_iff (clear : NoZero state) (added : List FutexWaiter) :
    NoZero (state.add uaddr added) ↔ ¬(uaddr = 0 ∧ added ≠ []) := by
  rw [NoZero, queueAt_add]
  by_cases zero : uaddr = 0
  · subst zero
    rw [Function.update_self, clear, List.nil_append]
    simp
  · rw [Function.update_of_ne (Ne.symm zero)]
    exact iff_of_true clear fun both => zero both.1

theorem noZero_requeue_iff (clear : NoZero state) (kept : Kept state) (aligned : call.uaddr % 4 = 0)
    (even : ¬(call.uaddr2 % 4 ≠ 0 ∨ call.val < 0 ∨ toInt call.timeoutAddr < 0)) :
    NoZero (state.requeue call.uaddr call.uaddr2 call.val.toInt (toInt call.timeoutAddr).toInt
      (futexPrivate call.futexOp)).2 ↔ ¬(call.uaddr2 = 0 ∧ call.uaddr ≠ 0 ∧ state.requeued call ≠ []) := by
  have awake := clear.wake kept call.uaddr call.val.toInt 0xffffffff (futexPrivate call.futexOp)
  have admitted : ¬(call.uaddr % 4 ≠ 0 ∨ call.uaddr2 % 4 ≠ 0 ∨ call.val.toInt < 0 ∨ (toInt call.timeoutAddr).toInt < 0) := by
    simp only [Int32.lt_iff_toInt_lt] at even
    exact not_or.mpr ⟨not_not.mpr aligned, even⟩
  rw [FutexState.requeue, if_neg admitted]
  dsimp only
  unfold requeued queueAt
  split
  next missing =>
    rw [missing]
    simpa [takeWaiters] using awake
  next queue read =>
    rw [read, Option.getD_some]
    have queued : (state.wake call.uaddr call.val.toInt 0xffffffff (futexPrivate call.futexOp)).2.queueAt call.uaddr =
        queue := by rw [queueAt, read, Option.getD_some]
    have split := takeWaiters_perm (fun waiter => waiter.privateWait == futexPrivate call.futexOp)
      (toInt call.timeoutAddr).toInt.toNat queue
    split
    next same =>
      refine iff_of_true awake ?_
      rintro ⟨zero, positive, -⟩
      exact positive (same.trans zero)
    next different =>
      rw [moveWaiters_eq different, noZero_add_iff (awake.drop (queued ▸ split)), ne_eq, List.map_eq_nil_iff]
      refine not_congr (and_congr_right fun zero => ?_)
      rw [zero] at different
      exact (and_iff_right different).symm

theorem noZero_waitCall_iff (clear : NoZero state) (waits : call.waits)
    (returned : state.waitCall tid call = .ok (result, after)) : NoZero after ↔ ¬call.waitsAtZero := by
  unfold waitCall at returned
  split at returned
  · contradiction
  split at returned
  next unread =>
    cases returned
    exact iff_of_true clear fun zero => Option.some_ne_none _ (zero.2.2.symm.trans unread)
  next word found =>
    split at returned
    next other =>
      cases returned
      refine iff_of_true clear fun zero => other ?_
      exact Option.some.inj (found.symm.trans zero.2.2)
    next same =>
      split at returned
      · contradiction
      · cases returned
        rw [addWaiter_eq_add, noZero_add_iff clear]
        refine not_congr ⟨fun zero => ⟨waits, zero.1, ?_⟩, fun zero => ⟨zero.2.1, List.cons_ne_nil _ _⟩⟩
        rw [found, not_not.mp same]

theorem noZero_requeueCall_iff (clear : NoZero state) (kept : Kept state) (aligned : call.uaddr % 4 = 0)
    (requeues : futexCommand call.futexOp = futexRequeue ∨ futexCommand call.futexOp = futexCmpRequeue)
    (returned : state.requeueCall call = .ok (result, after)) :
    NoZero after ↔ ¬(call.requeuesToZero ∧ call.uaddr ≠ 0 ∧ 0 ≤ call.val ∧
      (futexCommand call.futexOp = futexCmpRequeue → call.stackval = some call.val3.toUInt32) ∧
      state.requeued call ≠ []) := by
  unfold FutexState.requeueCall at returned
  dsimp only at returned
  split at returned
  next refused =>
    cases returned
    refine iff_of_true clear ?_
    rintro ⟨⟨-, zero⟩, -, positive, -, moved⟩
    rw [zero] at refused
    rcases refused with odd | negative | negative
    · exact odd rfl
    · exact absurd positive (Int32.not_le.mpr negative)
    · rw [requeued, Int.toNat_of_nonpos (Int.le_of_lt (Int32.lt_iff_toInt_lt.mp negative)), takeWaiters_zero] at moved
      exact moved rfl
  next even =>
    have exact := noZero_requeue_iff clear kept aligned even
    have positive : 0 ≤ call.val := Int32.not_lt.mp fun negative => even (.inr (.inl negative))
    have done : state.requeue call.uaddr call.uaddr2 call.val.toInt (toInt call.timeoutAddr).toInt
        (futexPrivate call.futexOp) = (result, after) →
        (futexCommand call.futexOp = futexCmpRequeue → call.stackval = some call.val3.toUInt32) →
        (NoZero after ↔ ¬(call.requeuesToZero ∧ call.uaddr ≠ 0 ∧ 0 ≤ call.val ∧
          (futexCommand call.futexOp = futexCmpRequeue → call.stackval = some call.val3.toUInt32) ∧
          state.requeued call ≠ [])) := by
      intro same compared
      rw [same] at exact
      rw [exact, Call.requeuesToZero, and_iff_right requeues, and_iff_right positive, and_iff_right compared]
    split at returned
    next compares =>
      split at returned
      next unread =>
        cases returned
        refine iff_of_true clear fun zero => ?_
        exact Option.some_ne_none _ ((zero.2.2.2.1 compares).symm.trans unread)
      next word found =>
        split at returned
        next other =>
          cases returned
          refine iff_of_true clear fun zero => other ?_
          exact Option.some.inj (found.symm.trans (zero.2.2.2.1 compares))
        next same => exact done (Except.ok.inj returned) fun _ => by rw [found, not_not.mp same]
    next plain => exact done (Except.ok.inj returned) fun compares => absurd compares plain

/-- Nobody is queued at address zero by any other call. -/
theorem noZero_handleFutex_iff (clear : NoZero state) (kept : Kept state)
    (returned : state.handleFutex tid call = .ok (result, after)) : NoZero after ↔ ¬state.queuesAtZero call := by
  unfold FutexState.handleFutex at returned
  dsimp only at returned
  split at returned
  · contradiction
  next known =>
    unfold queuesAtZero
    split at returned
    next errno refused =>
      cases returned
      exact iff_of_true clear fun zero => Option.some_ne_none _ (refused.symm.trans zero.1)
    next admitted =>
      have aligned : call.uaddr % 4 = 0 := by
        unfold Call.refused at admitted
        dsimp only at admitted
        split_ifs at admitted with _ odd
        exact not_not.mp odd
      rw [and_iff_right admitted]
      have apart : ∀ waits : call.waits, ¬call.requeuesToZero := by
        rintro (plain | bits) ⟨moves | moves, -⟩
        · exact absurd (plain.symm.trans moves) (by decide)
        · exact absurd (plain.symm.trans moves) (by decide)
        · exact absurd (bits.symm.trans moves) (by decide)
        · exact absurd (bits.symm.trans moves) (by decide)
      split at returned
      next waits =>
        rw [noZero_waitCall_iff clear waits returned]
        simp [apart waits]
      next idle =>
        have others : ¬call.waitsAtZero := fun zero => idle zero.1
        split at returned
        next wakes =>
          have done := congrArg Prod.snd (Except.ok.inj returned)
          dsimp only at done
          rw [← done]
          refine iff_of_true (clear.wake kept ..) ?_
          rintro (zero | ⟨⟨moves, -⟩, -⟩)
          · exact others zero
          · rcases wakes with wake | wake <;> rcases moves with move | move <;>
              exact absurd (wake.symm.trans move) (by decide)
        next other =>
          have requeues := ((not_not.mp known).resolve_left idle).resolve_left other
          rw [noZero_requeueCall_iff clear kept aligned requeues returned]
          simp [others]

/-! ## Exact wakes -/

/-- A wake takes waiters of one queue. -/
theorem wake_exact (state : FutexState) (uaddr : UInt64) (nrWake : Int) (bitset : UInt32) (privateWait : Bool) :
    ∃ woken remaining, TakesFirst (wakeable bitset privateWait) nrWake.toNat (state.queueAt uaddr) woken remaining ∧
      (state.wake uaddr nrWake bitset privateWait).1 = woken.length ∧
      (state.wake uaddr nrWake bitset privateWait).2.queueAt = Function.update state.queueAt uaddr remaining := by
  have takes := takeWaiters_takesFirst (wakeable bitset privateWait) nrWake.toNat (state.queueAt uaddr)
  have nobody : state.queueAt uaddr = [] → ∃ woken remaining, TakesFirst (wakeable bitset privateWait) nrWake.toNat
      (state.queueAt uaddr) woken remaining ∧ 0 = woken.length ∧
        state.queueAt = Function.update state.queueAt uaddr remaining := by
    intro empty
    rw [empty] at takes ⊢
    exact ⟨[], [], takes, rfl, (Function.update_eq_self_iff.mpr empty.symm).symm⟩
  rw [wake]
  split
  · next absent => exact nobody (by rw [queueAt, absent, Option.getD_none])
  · next queue read =>
    have queued : state.queueAt uaddr = queue := by rw [queueAt, read, Option.getD_some]
    split
    · next empty => exact nobody (queued.trans empty)
    · rw [queued] at takes ⊢
      exact ⟨_, _, takes, rfl, queueAt_setQueue ..⟩

/-- Wakes and requeues are exact and in order, in all queues and for all arguments. A wake takes the first waiters with
the private flag and a common bit, as many as it was asked for and there are, and returns their number. A requeue
wakes so, and appends the first of the remaining waiters with the private flag to the target queue. A wake of a range
empties exactly the queues in the range. -/
theorem futex_wakes_exact (state : FutexState) (privateWait : Bool) :
    (∀ uaddr nrWake bitset, ∃ woken remaining,
      TakesFirst (fun waiter => waiter.privateWait == privateWait && waiter.bitset &&& bitset != 0) nrWake.toNat
        (state.queueAt uaddr) woken remaining ∧
      (state.wake uaddr nrWake bitset privateWait).1 = woken.length ∧
      (state.wake uaddr nrWake bitset privateWait).2.queueAt = Function.update state.queueAt uaddr remaining) ∧
    (∀ (uaddr1 uaddr2 : UInt64) (nrWake nrRequeue : Int),
      if uaddr1 % 4 ≠ 0 ∨ uaddr2 % 4 ≠ 0 ∨ nrWake < 0 ∨ nrRequeue < 0 then
        state.requeue uaddr1 uaddr2 nrWake nrRequeue privateWait = (eInval, state)
      else ∃ woken queue moved remaining,
        TakesFirst (fun waiter => waiter.privateWait == privateWait && waiter.bitset &&& 0xffffffff != 0) nrWake.toNat
          (state.queueAt uaddr1) woken queue ∧
        TakesFirst (fun waiter => waiter.privateWait == privateWait) nrRequeue.toNat queue moved remaining ∧
        (state.requeue uaddr1 uaddr2 nrWake nrRequeue privateWait).1 = woken.length + moved.length ∧
        (state.requeue uaddr1 uaddr2 nrWake nrRequeue privateWait).2.queueAt =
          if uaddr1 = uaddr2 then Function.update state.queueAt uaddr1 queue
          else Function.update (Function.update state.queueAt uaddr1 remaining) uaddr2
            (state.queueAt uaddr2 ++ moved.map fun waiter => { waiter with uaddr := uaddr2 })) ∧
    ∀ start stop uaddr, (state.wakeWaitersInRange start stop).2.queueAt uaddr =
      if start ≤ uaddr ∧ uaddr < stop then [] else state.queueAt uaddr := by
  refine ⟨fun uaddr nrWake bitset => wake_exact state uaddr nrWake bitset privateWait,
    fun uaddr1 uaddr2 nrWake nrRequeue => ?_, fun start stop uaddr => queueAt_wakeWaitersInRange start stop uaddr⟩
  split
  · next refused => rw [requeue, if_pos refused]
  · next accepted =>
    obtain ⟨woken, queue, wakes, number, queues⟩ := wake_exact state uaddr1 nrWake 0xffffffff privateWait
    have moves := takeWaiters_takesFirst (fun waiter => waiter.privateWait == privateWait) nrRequeue.toNat queue
    refine ⟨woken, queue, _, _, wakes, moves, ?_⟩
    rw [requeue, if_neg accepted]
    generalize state.wake uaddr1 nrWake 0xffffffff privateWait = awake at number queues
    obtain ⟨count, after⟩ := awake
    dsimp only at number queues ⊢
    have own : after.queueAt uaddr1 = queue := by rw [queues, Function.update_self]
    have target : uaddr1 ≠ uaddr2 → after.queueAt uaddr2 = state.queueAt uaddr2 := fun different => by
      rw [queues, Function.update_of_ne different.symm]
    rw [queueAt] at own
    split
    · next absent =>
      rw [absent, Option.getD_none] at own
      subst own
      refine ⟨by rw [number]; rfl, ?_⟩
      dsimp only [takeWaiters]
      rw [List.map_nil, List.append_nil]
      split
      · exact queues
      · next different => rw [← queues, ← target different, Function.update_eq_self]
    · next found read =>
      rw [read, Option.getD_some] at own
      subst own
      split
      · exact ⟨by rw [number], queues⟩
      · next different =>
        refine ⟨by rw [number], ?_⟩
        dsimp only
        rw [moveWaiters_eq different, queueAt_add, queueAt_drop, Function.update_of_ne (Ne.symm different),
          target different, queues, Function.update_idem]

end FutexState

end DetSim.Kernel
