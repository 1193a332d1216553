import Datapath.Lib.Run
import Datapath.Windows.Socket.Write

/-!
# Tasks that are written again

A task has one buffer and one overlapped object.  `write` puts both in place before it
calls `WriteFileEx`, so that a write that fails has already changed the task
(`leavesTask_iff`), and it does so without asking whether the task is in use.  The
operating system may not have read the buffer of an earlier write yet, and it has not
written into the `OVERLAPPED` of that write yet.  `_assign` lays the new frame over the old
one, and releases the old overlapped object, which cancels nothing, since those of writes
have no file handle (`Datapath.Windows.Overlapped`).  When the earlier write completes, the
system writes into memory that may have become the buffer of another task by then
(`framesSafe_iff`).

Tasks are kept here until their writes have completed, and the payload of a write is not the
buffer of its own task.
-/

namespace Datapath.Windows

open Datapath.Lib

/-! ## Writes that fail -/

section Failure

variable {O : Type*}

/-- `task::get_waitable`, where `event` is the event of an overlapped object. -/
def Task.getWaitable (event : O → HANDLE) (t : Task O) : HANDLE := t.overlapped.elim 0 event

/-- If it has failed, a write has left the pointer, and the task it points to, as they
were. -/
def LeavesTask (event : O → HANDLE) (task : Option (Task O))
    (result : Option (error × Task O × WriteFileEx O)) : Prop :=
  ∀ obj call, result = some (.failure, obj, call) → ∃ t, task = some t ∧ obj.buffer = t.buffer ∧
    obj.overlapped = t.overlapped ∧ obj.getWaitable event = t.getWaitable event

/-- **A write leaves the task as it was** only if it does not return `Failure`. -/
theorem leavesTask_iff (event : O → HANDLE) (socketHandle : HANDLE) {task : Option (Task O)}
    (data : List UInt8) {ov : O} (hfresh : ∀ t, task = some t → t.overlapped ≠ some ov)
    (resized suc : Bool) :
    LeavesTask event task (write socketHandle task data ov resized suc) ↔
      resized = false ∨ suc = true := by
  unfold LeavesTask write
  cases resized with
  | false => exact iff_of_true nofun (.inl rfl)
  | true =>
      cases suc with
      | true => exact iff_of_true nofun (.inr rfl)
      | false =>
          refine iff_of_false (fun h ↦ ?_) nofun
          obtain ⟨t, ht, -, hov, -⟩ := h _ _ rfl
          exact hfresh t ht hov.symm

/-- A task whose first write has completed is written again. -/
theorem leavesTask_again :
    LeavesTask (id : HANDLE → HANDLE) (some ⟨some 8, [1, 0, 0, 0, 7]⟩)
      (write 4 (some ⟨some 8, [1, 0, 0, 0, 7]⟩) [9] 12 true true) :=
  (leavesTask_iff id 4 [9] (fun t ht ↦ by cases ht; decide) true true).2 (.inr rfl)

/-- A write that fails makes a task where there was none, and gives one that is in use
another overlapped object. -/
theorem failed_write_changes :
    ¬ LeavesTask (id : HANDLE → HANDLE) none (write 4 none [9] 12 true false) ∧
      ¬ LeavesTask (id : HANDLE → HANDLE) (some ⟨some 8, [1, 0, 0, 0, 7]⟩)
        (write 4 (some ⟨some 8, [1, 0, 0, 0, 7]⟩) [9] 12 true false) := by
  constructor
  · intro h
    obtain ⟨t, ht, -⟩ := h _ _ rfl
    cases ht
  · intro h
    obtain ⟨t, ht, hbuffer, -⟩ := h _ _ rfl
    cases ht
    exact absurd hbuffer (by decide)

end Failure

/-! ## Writes in flight -/

/-- A write that has been started and has not completed. -/
structure Outgoing where
  ov : ℕ
  task : ℕ
  /-- Where the buffer of the task was when the write was started. -/
  place : ℕ
  nNumberOfBytesToWrite : ℕ
  payload : List UInt8
deriving DecidableEq, Repr

/-- Tasks, and the writes that are in flight.  Overlapped objects are numbered in the order
in which they are made, one for each write that lays out its frame; these writes are counted
from one. -/
structure Sender where
  tasks : ℕ → Task ℕ
  /-- What is in the memory of the buffer of a task, from its beginning. -/
  storage : ℕ → List UInt8
  /-- The write for which this memory was obtained. -/
  place : ℕ → ℕ
  outstanding : List Outgoing
  made : ℕ
  /-- The write that has released an overlapped object. -/
  released : ℕ → Option ℕ

/-- How a write completes: what the system stores in its `OVERLAPPED`, and, if the memory of
that is a part of the buffer of a task by then, of which one, and where. -/
structure Completion where
  internal : ℕ := 0
  internalHigh : ℕ := 0
  strays : Option (ℕ × ℕ) := none
deriving DecidableEq, Repr

/-- `Internal` and `InternalHigh` in memory. -/
def Completion.block (c : Completion) : List UInt8 := toLE 8 c.internal ++ toLE 8 c.internalHigh

namespace Sender

/-- No task has been written. -/
def start : Sender := ⟨fun _ ↦ {}, fun _ ↦ [], fun _ ↦ 0, [], 0, fun _ ↦ none⟩

/-- A call of `write`, with a task that may have been written before, or, for a null pointer,
one that has not; and the completion of a write.  `moved` tells whether `resize` had to
exchange the memory of the buffer. -/
inductive Label where
  | write (socketHandle : HANDLE) (task : ℕ) (data : List UInt8) (resized moved suc : Bool)
  | complete (ov : ℕ) (c : Completion := {})
deriving DecidableEq, Repr

/-- A write replaces the overlapped object of a task, if there is one. -/
def release (s : Sender) : Option ℕ → ℕ → Option ℕ
  | some ov => Function.update s.released ov (some (s.made + 1))
  | none => s.released

/-- The buffer of a task has got new content, and the task another overlapped object.  What
is behind the end of the buffer stays there. -/
def store (s : Sender) (task : ℕ) (obj : Task ℕ) (moved : Bool) : Sender :=
  { s with
    tasks := Function.update s.tasks task obj
    storage := Function.update s.storage task
      (if moved then obj.buffer else obj.buffer ++ (s.storage task).drop obj.buffer.length)
    place := if moved then Function.update s.place task (s.made + 1) else s.place
    made := s.made + 1
    released := s.release (s.tasks task).overlapped }

/-- `socket::write`. -/
def write (s : Sender) (socketHandle : HANDLE) (task : ℕ) (data : List UInt8)
    (resized moved suc : Bool) : Sender :=
  match Windows.write socketHandle (some (s.tasks task)) data s.made resized suc with
  | none => s
  | some (ec, obj, call) =>
      let s' := s.store task obj moved
      if ec = .success then { s' with
        outstanding := s.outstanding ++
          [⟨call.lpOverlapped, task, s'.place task, call.nNumberOfBytesToWrite, data⟩] }
      else s'

/-- The `OVERLAPPED` can be in the buffer of the task, from this place on: it has been
released, and the memory of the buffer has been obtained after that. -/
def CanStray (s : Sender) (ov task off : ℕ) : Prop :=
  -- `Internal` and `InternalHigh` take 16 bytes.
  (∃ n ∈ s.released ov, n < s.place task) ∧ off + 16 ≤ (s.storage task).length

instance (s : Sender) (ov task off : ℕ) : Decidable (s.CanStray ov task off) :=
  inferInstanceAs (Decidable (_ ∧ _))

/-- A write completes. -/
def complete (s : Sender) (ov : ℕ) (c : Completion) : Sender :=
  { s with
    outstanding := s.outstanding.filter (·.ov ≠ ov)
    storage := match c.strays with
      | some (task, off) => Function.update s.storage task (blit off c.block (s.storage task))
      | none => s.storage }

/-- One step.  The memory is exchanged only if the buffer grows. -/
def step (s : Sender) : Label → Option Sender
  | .write socketHandle task data resized moved suc =>
      if moved = true → (s.tasks task).buffer.length < data.length + sizeElement then
        some (s.write socketHandle task data resized moved suc)
      else none
  | .complete ov c =>
      if ov ∈ s.outstanding.map Outgoing.ov ∧ ∀ e ∈ c.strays, s.CanStray ov e.1 e.2 then
        some (s.complete ov c)
      else none

/-- The operating system can find this byte where it reads the `i`-th byte of a write.  In
memory that has been given back, it can find anything. -/
def Reads (s : Sender) (op : Outgoing) (i : ℕ) (b : UInt8) : Prop :=
  s.place op.task = op.place → (s.storage op.task)[i]? = some b

/-- In a run, these bytes can be transmitted for a write: each of them can be read at some
time while the write is in flight. -/
def Transmits (ts : List (Transition Sender Label)) (op : Outgoing) (bytes : List UInt8) : Prop :=
  bytes.length = op.nNumberOfBytesToWrite ∧ ∀ i b, bytes[i]? = some b →
    ∃ t ∈ ts, op ∈ t.dst.outstanding ∧ t.dst.Reads op i b

/-- For every write that has been started the frame of its payload is transmitted. -/
def FramesSent (ts : List (Transition Sender Label)) : Prop :=
  ∀ t ∈ ts, ∀ op ∈ t.dst.outstanding, ∀ bytes, Transmits ts op bytes →
    bytes = frame sizeElement op.payload

/-- What `_assign` puts into the buffer. -/
def laidOut (data : List UInt8) : List UInt8 := toLE sizeElement (data.length % 2 ^ 32) ++ data

/-- A write whose payload can be counted if it is started, and whose task, if it gets as far
as to lay out the frame, has no write in flight. -/
def Careful (t : Transition Sender Label) : Prop :=
  match t.label with
  | .write _ task data resized _ suc => resized = true →
      (suc = true → data.length < 2 ^ 32 - 4) ∧ ∀ op ∈ t.src.outstanding, op.task ≠ task
  | .complete .. => True

instance : DecidablePred Careful
  | ⟨s, .write _ task data resized _ suc, _⟩ => inferInstanceAs (Decidable (resized = true →
      (suc = true → data.length < 2 ^ 32 - 4) ∧ ∀ op ∈ s.outstanding, op.task ≠ task))
  | ⟨_, .complete .., _⟩ => .isTrue trivial

/-- The frames of a run are transmitted, and no part of the run has left one in danger: they
are transmitted whatever comes after it, if only careful writes do. -/
structure FramesSafe (ts : List (Transition Sender Label)) : Prop where
  sent : FramesSent ts
  later : ∀ ts₁ us s', ts₁ <+: ts → Run step start (ts₁ ++ us) s' → (∀ u ∈ us, Careful u) →
    FramesSent (ts₁ ++ us)

/-! ### What the operating system reads -/

variable {s : Sender} {op : Outgoing}

/-- Memory that a write uses has been obtained before, and none is given back because a
buffer shrinks. -/
structure Counted (s : Sender) (op : Outgoing) : Prop where
  bound : op.place ≤ s.made
  held : s.place op.task = op.place → op.nNumberOfBytesToWrite ≤ (s.storage op.task).length

/-- The frame of a write is where the operating system reads it. -/
structure Exact (s : Sender) (op : Outgoing) : Prop where
  place : s.place op.task = op.place
  bytes : (s.storage op.task).take op.nNumberOfBytesToWrite = frame sizeElement op.payload

theorem Exact.length (h : s.Exact op) (hc : s.Counted op) :
    (frame sizeElement op.payload).length = op.nNumberOfBytesToWrite := by
  rw [← h.bytes, List.length_take]
  exact Nat.min_eq_left (hc.held h.place)

theorem length_frame (data : List UInt8) : (frame sizeElement data).length = data.length + 4 := by
  rw [frame, List.length_append, length_toLE, sizeElement, Nat.add_comm]

/-- What is read at one time is the frame exactly if the frame is there. -/
theorem exact_iff (hc : s.Counted op) :
    s.Exact op ↔ ∀ bytes : List UInt8, bytes.length = op.nNumberOfBytesToWrite →
      (∀ i b, bytes[i]? = some b → s.Reads op i b) → bytes = frame sizeElement op.payload := by
  constructor
  · intro h bytes hlength hreads
    rw [← h.bytes]
    apply List.ext_getElem?
    intro i
    by_cases hi : i < bytes.length
    · rw [List.getElem?_eq_getElem hi, List.getElem?_take_of_lt (hlength ▸ hi),
        hreads i _ (List.getElem?_eq_getElem hi) h.place]
    · have hout : ((s.storage op.task).take op.nNumberOfBytesToWrite).length ≤ i :=
        Nat.le_trans (List.length_take_le _ _) (hlength ▸ Nat.le_of_not_lt hi)
      rw [List.getElem?_eq_none (Nat.le_of_not_lt hi), List.getElem?_eq_none hout]
  · intro hall
    by_cases hplace : s.place op.task = op.place
    · refine ⟨hplace, hall _ ?_ ?_⟩
      · rw [List.length_take, Nat.min_eq_left (hc.held hplace)]
      · intro i b hib _
        rw [List.getElem?_take] at hib
        exact (Option.ite_none_right_eq_some.1 hib).2
    · -- Two different things can be read.
      have hany : ∀ b : UInt8, List.replicate op.nNumberOfBytesToWrite b = frame sizeElement op.payload :=
        fun b ↦ hall _ List.length_replicate fun _ _ _ hp ↦ absurd hp hplace
      have hzero := congrArg List.length (hany 0)
      rw [List.length_replicate, length_frame] at hzero
      have hne : (0 : UInt8) = 1 := by
        have heq := (hany 0).trans (hany 1).symm
        rw [hzero] at heq
        exact (List.cons_eq_cons.1 heq).1
      exact absurd hne (by decide)

/-! ### One step -/

/-- The write that has just been started. -/
def started (s : Sender) (task : ℕ) (data : List UInt8) (moved : Bool) : Outgoing where
  ov := s.made
  task := task
  place := if moved then s.made + 1 else s.place task
  nNumberOfBytesToWrite := (data.length + 4) % 2 ^ 32
  payload := data

theorem length_laidOut (data : List UInt8) : (laidOut data).length = data.length + 4 := by
  rw [laidOut, List.length_append, length_toLE, sizeElement, Nat.add_comm]

theorem assign_laidOut (t : Task ℕ) (data : List UInt8) (ov : ℕ) :
    (t.assign data ov).buffer = laidOut data :=
  t.assign_buffer data ov

/-- What a write leaves that has laid out its frame. -/
def wrote (s : Sender) (task : ℕ) (data : List UInt8) (moved suc : Bool) : Sender :=
  { s.store task ((s.tasks task).assign data s.made) moved with
    outstanding := s.outstanding ++ if suc then [s.started task data moved] else [] }

theorem write_eq (s : Sender) (socketHandle : HANDLE) (task : ℕ) (data : List UInt8)
    (moved suc : Bool) :
    s.write socketHandle task data true moved suc = s.wrote task data moved suc := by
  have hplace : (if moved then Function.update s.place task (s.made + 1) else s.place) task =
      if moved then s.made + 1 else s.place task := by
    cases moved with
    | true => simp
    | false => rfl
  cases suc with
  | false => simp [Sender.write, Windows.write, wrote, store]
  | true =>
      simp [Sender.write, Windows.write, wrote, store, started, dword, assign_laidOut, length_laidOut,
        hplace]

variable {task : ℕ} {data : List UInt8} {moved suc : Bool} {socketHandle : HANDLE}

theorem started_place (s : Sender) (task : ℕ) (data : List UInt8) (moved : Bool) (obj : Task ℕ) :
    (s.store task obj moved).place task = (s.started task data moved).place := by
  cases moved with
  | true => simp [store, started]
  | false => rfl

/-- The memory after a write: the frame, and what was behind it. -/
theorem store_storage (s : Sender) (task : ℕ) (data : List UInt8) (moved : Bool) (ov : ℕ) :
    ((s.store task ((s.tasks task).assign data ov) moved).storage task) =
      if moved then laidOut data else laidOut data ++ (s.storage task).drop (data.length + 4) := by
  simp [store, assign_laidOut, length_laidOut]

theorem store_of_ne (s : Sender) (moved : Bool) (obj : Task ℕ) {task' : ℕ} (h : task' ≠ task) :
    (s.store task obj moved).place task' = s.place task' ∧
      (s.store task obj moved).storage task' = s.storage task' := by
  cases moved with
  | true => simp [store, h]
  | false => simp [store, h]

/-- The writes of other tasks are not touched. -/
theorem exact_of_ne (obj : Task ℕ) (h : op.task ≠ task) (l : List Outgoing) :
    Exact { s.store task obj moved with outstanding := l } op ↔ s.Exact op := by
  obtain ⟨hplace, hstorage⟩ := s.store_of_ne moved obj h
  constructor
  · rintro ⟨hp, hb⟩
    exact ⟨hplace.symm.trans hp, hstorage ▸ hb⟩
  · rintro ⟨hp, hb⟩
    exact ⟨hplace.trans hp, hstorage.symm ▸ hb⟩

/-- A write that has been started has its frame in the memory exactly if a `DWORD` can count
it. -/
theorem exact_started (s : Sender) (ov : ℕ) (l : List Outgoing) :
    Exact { s.store task ((s.tasks task).assign data ov) moved with outstanding := l }
        (s.started task data moved) ↔ data.length < 2 ^ 32 - 4 := by
  have hplace := s.started_place task data moved ((s.tasks task).assign data ov)
  have hstorage := s.store_storage task data moved ov
  constructor
  · intro he
    have hlength : (((s.store task ((s.tasks task).assign data ov) moved).storage task).take
        ((data.length + 4) % 2 ^ 32)).length = data.length + 4 :=
      (congrArg List.length he.bytes).trans (length_frame data)
    have hle := List.length_take_le ((data.length + 4) % 2 ^ 32)
      ((s.store task ((s.tasks task).assign data ov) moved).storage task)
    have hlt : (data.length + 4) % 2 ^ 32 < 2 ^ 32 := Nat.mod_lt _ (by decide)
    rw [hlength] at hle
    omega
  · intro hlt
    refine ⟨hplace, ?_⟩
    show List.take ((data.length + 4) % 2 ^ 32) ((s.store task _ moved).storage task) =
      frame sizeElement data
    have hframe : laidOut data = frame sizeElement data := by
      rw [laidOut, frame, Nat.mod_eq_of_lt (by omega)]
    rw [hstorage, Nat.mod_eq_of_lt (by omega), ← length_laidOut, ← hframe]
    cases moved with
    | true => exact List.take_length
    | false => exact List.take_left' rfl

theorem counted_of_ne (obj : Task ℕ) (h : op.task ≠ task) (l : List Outgoing) (hc : s.Counted op) :
    Counted { s.store task obj moved with outstanding := l } op := by
  obtain ⟨hplace, hstorage⟩ := s.store_of_ne moved obj h
  exact ⟨Nat.le_succ_of_le hc.bound, fun hp ↦ hstorage.symm ▸ hc.held (hplace.symm.trans hp)⟩

theorem counted_again (hop : op.task = task) (ov : ℕ) (l : List Outgoing) (hc : s.Counted op) :
    Counted { s.store task ((s.tasks task).assign data ov) moved with outstanding := l } op := by
  subst hop
  have hstorage := s.store_storage op.task data moved ov
  have hbound := hc.bound
  refine ⟨Nat.le_succ_of_le hbound, fun hp ↦ ?_⟩
  cases moved with
  | true =>
      have hplace : s.made + 1 = op.place := (Function.update_self op.task _ s.place).symm.trans hp
      omega
  | false =>
      show _ ≤ ((s.store op.task _ false).storage op.task).length
      have hheld := hc.held hp
      rw [hstorage, if_neg Bool.false_ne_true, List.length_append, length_laidOut, List.length_drop]
      omega

theorem counted_started (s : Sender) (ov : ℕ) (l : List Outgoing) (hbound : s.place task ≤ s.made) :
    Counted { s.store task ((s.tasks task).assign data ov) moved with outstanding := l }
      (s.started task data moved) := by
  have hstorage := s.store_storage task data moved ov
  refine ⟨?_, fun _ ↦ ?_⟩
  · cases moved with
    | true => exact Nat.le_refl _
    | false => exact Nat.le_succ_of_le hbound
  · show (data.length + 4) % 2 ^ 32 ≤ ((s.store task _ moved).storage task).length
    have hmod : (data.length + 4) % 2 ^ 32 ≤ data.length + 4 := Nat.mod_le _ _
    rw [hstorage]
    split
    · rw [length_laidOut]
      exact hmod
    · rw [List.length_append, length_laidOut]
      omega

/-- What a completion stores leaves all memory as long as it was. -/
theorem length_complete {ov : ℕ} {c : Completion} (hstrays : ∀ e ∈ c.strays, s.CanStray ov e.1 e.2)
    (k : ℕ) : ((s.complete ov c).storage k).length = (s.storage k).length := by
  unfold complete
  cases hc : c.strays with
  | none => rfl
  | some e =>
      dsimp only
      by_cases hk : k = e.1
      · subst hk
        have hblock : c.block.length = 16 := by
          rw [Completion.block, List.length_append, length_toLE, length_toLE]
        rw [Function.update_self, length_blit (hblock ▸ (hstrays e hc).2)]
      · rw [Function.update_of_ne hk]

/-! ### Runs -/

/-- A write is in flight after a write that has laid out its frame exactly if it was before,
or has just been started. -/
theorem mem_outstanding_write (l : List Outgoing) :
    op ∈ l ++ (if suc then [s.started task data moved] else []) ↔
      op ∈ l ∨ (suc = true ∧ op = s.started task data moved) := by
  cases suc with
  | true => simp
  | false => simp

/-- **What a step can do.** -/
theorem step_cases {l : Label} {s' : Sender} (hs : s.step l = some s') :
    (∃ socketHandle task data moved suc, l = .write socketHandle task data false moved suc ∧
        s' = s) ∨
      (∃ socketHandle task data moved suc, l = .write socketHandle task data true moved suc ∧
        s' = s.wrote task data moved suc) ∨
      ∃ ov c, l = .complete ov c ∧ ov ∈ s.outstanding.map Outgoing.ov ∧
        (∀ e ∈ c.strays, s.CanStray ov e.1 e.2) ∧ s' = s.complete ov c := by
  cases l with
  | write socketHandle task data resized moved suc =>
      obtain ⟨-, heq⟩ := Option.ite_none_right_eq_some.1 hs
      cases heq
      cases resized with
      | false => exact .inl ⟨socketHandle, task, data, moved, suc, rfl, rfl⟩
      | true =>
          exact .inr (.inl ⟨socketHandle, task, data, moved, suc, rfl, s.write_eq _ _ _ _ _⟩)
  | complete ov c =>
      obtain ⟨⟨hov, hstrays⟩, heq⟩ := Option.ite_none_right_eq_some.1 hs
      cases heq
      exact .inr (.inr ⟨ov, c, rfl, hov, hstrays, rfl⟩)

/-- What holds in every run. -/
structure Sound (s : Sender) : Prop where
  counted : ∀ op ∈ s.outstanding, s.Counted op
  place : ∀ task, s.place task ≤ s.made

theorem Sound.start : start.Sound := ⟨List.forall_mem_nil _, fun _ ↦ Nat.le_refl _⟩

theorem Sound.step {l : Label} {s' : Sender} (h : s.Sound) (hs : s.step l = some s') :
    s'.Sound := by
  rcases step_cases hs with ⟨_, _, _, _, _, rfl, rfl⟩ | ⟨_, task, data, moved, suc, rfl, rfl⟩ |
    ⟨ov, c, rfl, -, hstrays, rfl⟩
  · exact h
  · constructor
    · intro op hop
      rcases (mem_outstanding_write _).1 hop with hold | ⟨-, rfl⟩
      · by_cases htask : op.task = task
        · exact counted_again htask s.made _ (h.counted op hold)
        · exact counted_of_ne _ htask _ (h.counted op hold)
      · exact counted_started s s.made _ (h.place task)
    · intro k
      show (s.store task ((s.tasks task).assign data s.made) moved).place k ≤ s.made + 1
      by_cases hk : k = task
      · subst hk
        rw [s.started_place k data moved]
        cases moved with
        | true => exact Nat.le_refl _
        | false => exact Nat.le_succ_of_le (h.place k)
      · rw [(s.store_of_ne moved _ hk).1]
        exact Nat.le_succ_of_le (h.place k)
  · refine ⟨fun op hop ↦ ?_, h.place⟩
    have hc := h.counted op (List.mem_filter.1 hop).1
    exact ⟨hc.bound, fun hp ↦ (length_complete hstrays op.task).symm ▸ hc.held hp⟩

/-- What holds as long as all writes are careful: the frames are in place, and the
overlapped objects of the writes that are in flight are those of their tasks. -/
structure Inv (s : Sender) : Prop where
  sound : s.Sound
  exact : ∀ op ∈ s.outstanding, s.Exact op
  kept : ∀ op ∈ s.outstanding, (s.tasks op.task).overlapped = some op.ov ∧ s.released op.ov = none
  numbered : ∀ task ov, (s.tasks task).overlapped = some ov → ov < s.made
  single : ∀ task task' ov, (s.tasks task).overlapped = some ov →
    (s.tasks task').overlapped = some ov → task = task'
  unmade : ∀ ov, s.made ≤ ov → s.released ov = none
  untouched : ∃ n, ∀ task, n ≤ task → s.tasks task = {}

theorem Inv.start : start.Inv where
  sound := .start
  exact := List.forall_mem_nil _
  kept := List.forall_mem_nil _
  numbered _ _ := nofun
  single _ _ _ := nofun
  unmade _ _ := rfl
  untouched := ⟨0, fun _ _ ↦ rfl⟩

/-- Only the overlapped object that a task had before is released. -/
theorem release_of_ne (s : Sender) {old : Option ℕ} {ov : ℕ} (h : old ≠ some ov) :
    s.release old ov = s.released ov := by
  cases old with
  | some old => exact Function.update_of_ne (fun heq ↦ h (congrArg some heq.symm)) _ _
  | none => rfl

theorem store_tasks (s : Sender) (task : ℕ) (moved : Bool) (obj : Task ℕ) :
    (s.store task obj moved).tasks = Function.update s.tasks task obj := rfl

/-- After a write the overlapped object of a task is the new one, or the one it had. -/
theorem overlapped_store (s : Sender) (task : ℕ) (data : List UInt8) (moved : Bool) {k ov : ℕ}
    (h : ((s.store task ((s.tasks task).assign data s.made) moved).tasks k).overlapped = some ov) :
    (k = task ∧ ov = s.made) ∨ (k ≠ task ∧ (s.tasks k).overlapped = some ov) := by
  rw [store_tasks] at h
  by_cases hk : k = task
  · subst hk
    rw [Function.update_self] at h
    exact .inl ⟨rfl, (Option.some.inj h).symm⟩
  · rw [Function.update_of_ne hk] at h
    exact .inr ⟨hk, h⟩

/-- A careful write keeps the invariant. -/
theorem Inv.write (h : s.Inv) {s' : Sender}
    (hs : s.step (.write socketHandle task data true moved suc) = some s')
    (hsize : suc = true → data.length < 2 ^ 32 - 4) (hidle : ∀ op ∈ s.outstanding, op.task ≠ task) :
    s'.Inv := by
  have hsound := h.sound.step hs
  obtain ⟨-, heq⟩ := Option.ite_none_right_eq_some.1 hs
  rw [write_eq] at heq
  cases heq
  have hnew : (s.tasks task).overlapped ≠ some s.made := fun hov ↦
    Nat.lt_irrefl _ (h.numbered task s.made hov)
  refine ⟨hsound, fun op hop ↦ ?_, fun op hop ↦ ?_, fun k ov hov ↦ ?_, fun k k' ov hov hov' ↦ ?_,
    fun ov hov ↦ ?_, ?_⟩
  · rcases (mem_outstanding_write _).1 hop with hold | ⟨hsuc, rfl⟩
    · exact (exact_of_ne _ (hidle op hold) _).2 (h.exact op hold)
    · exact (exact_started s s.made _).2 (hsize hsuc)
  · rcases (mem_outstanding_write _).1 hop with hold | ⟨hsuc, rfl⟩
    · obtain ⟨hov, hnone⟩ := h.kept op hold
      have hne := hidle op hold
      refine ⟨(congrArg Task.overlapped (Function.update_of_ne hne _ s.tasks)).trans hov, ?_⟩
      refine (s.release_of_ne fun hsame ↦ hne ?_).trans hnone
      exact h.single _ _ _ hov hsame
    · refine ⟨congrArg Task.overlapped (Function.update_self task _ s.tasks), ?_⟩
      exact (s.release_of_ne hnew).trans (h.unmade _ (Nat.le_refl _))
  · rcases s.overlapped_store task data moved hov with ⟨-, rfl⟩ | ⟨-, hold⟩
    · exact Nat.lt_succ_self _
    · exact Nat.lt_succ_of_lt (h.numbered k ov hold)
  · rcases s.overlapped_store task data moved hov with ⟨rfl, rfl⟩ | ⟨-, hold⟩
    · rcases s.overlapped_store k data moved hov' with ⟨rfl, -⟩ | ⟨-, hold'⟩
      · rfl
      · exact absurd (h.numbered k' _ hold') (Nat.lt_irrefl _)
    · rcases s.overlapped_store task data moved hov' with ⟨-, rfl⟩ | ⟨-, hold'⟩
      · exact absurd (h.numbered k _ hold) (Nat.lt_irrefl _)
      · exact h.single k k' ov hold hold'
  · have hle : s.made ≤ ov := Nat.le_of_succ_le hov
    refine (s.release_of_ne fun hold ↦ ?_).trans (h.unmade ov hle)
    exact absurd (h.numbered task ov hold) (Nat.not_lt.2 hle)
  · obtain ⟨n, hn⟩ := h.untouched
    refine ⟨max n (task + 1), fun k hk ↦ ?_⟩
    obtain ⟨hnk, htask⟩ := Nat.max_le.1 hk
    exact (Function.update_of_ne (Nat.ne_of_gt htask) _ _).trans (hn k hnk)

/-- As long as all writes are careful, no completion strays. -/
theorem Inv.complete (h : s.Inv) {s' : Sender} {ov : ℕ} {c : Completion}
    (hs : s.step (.complete ov c) = some s') : s'.Inv := by
  have hsound := h.sound.step hs
  obtain ⟨⟨hov, hstrays⟩, heq⟩ := Option.ite_none_right_eq_some.1 hs
  cases heq
  have hnone : c.strays = none := by
    apply Option.eq_none_iff_forall_ne_some.2
    intro e he
    obtain ⟨⟨n, hn, -⟩, -⟩ := hstrays e he
    obtain ⟨op, hop, rfl⟩ := List.mem_map.1 hov
    cases (h.kept op hop).2.symm.trans hn
  have hstorage : (s.complete ov c).storage = s.storage := by
    rw [Sender.complete, hnone]
  refine ⟨hsound, fun op hop ↦ ?_, fun op hop ↦ h.kept op (List.mem_filter.1 hop).1, h.numbered,
    h.single, h.unmade, h.untouched⟩
  have he := h.exact op (List.mem_filter.1 hop).1
  exact ⟨he.place, hstorage.symm ▸ he.bytes⟩

/-- **One step.**  Careful writes and completions keep the invariant. -/
theorem Inv.step {t : Transition Sender Label} (hs : t.src.step t.label = some t.dst)
    (hcareful : Careful t) (h : t.src.Inv) : t.dst.Inv := by
  obtain ⟨s, l, s'⟩ := t
  cases l with
  | complete ov c => exact h.complete hs
  | write socketHandle task data resized moved suc =>
      cases resized with
      | true => exact h.write hs (hcareful rfl).1 (hcareful rfl).2
      | false =>
          obtain ⟨-, heq⟩ := Option.ite_none_right_eq_some.1 hs
          cases heq
          exact h

/-- In a run, the frames are transmitted exactly if all of them are in place whenever they
can be read. -/
theorem framesSent_iff_exact {ts : List (Transition Sender Label)}
    (hc : ∀ t ∈ ts, ∀ op ∈ t.dst.outstanding, t.dst.Counted op) :
    FramesSent ts ↔ ∀ t ∈ ts, ∀ op ∈ t.dst.outstanding, t.dst.Exact op := by
  constructor
  · intro h t ht op hop
    refine (exact_iff (hc t ht op hop)).2 fun bytes hlength hreads ↦ ?_
    exact h t ht op hop bytes ⟨hlength, fun i b hib ↦ ⟨t, ht, hop, hreads i b hib⟩⟩
  · rintro h t ht op hop bytes ⟨hlength, hreads⟩
    have hframe := (h t ht op hop).length (hc t ht op hop)
    apply List.ext_getElem?
    intro i
    by_cases hi : i < bytes.length
    · obtain ⟨t', ht', hop', hread⟩ := hreads i bytes[i] (List.getElem?_eq_getElem hi)
      have he := h t' ht' op hop'
      rw [List.getElem?_eq_getElem hi, ← he.bytes, List.getElem?_take_of_lt (hlength ▸ hi), hread he.place]
    · rw [List.getElem?_eq_none (Nat.le_of_not_lt hi),
        List.getElem?_eq_none (hframe.trans hlength.symm ▸ Nat.le_of_not_lt hi)]

/-- The writes of a run are counted, whatever they are. -/
theorem run_counted {ts : List (Transition Sender Label)} (hrun : Run step start ts s) :
    ∀ t ∈ ts, ∀ op ∈ t.dst.outstanding, t.dst.Counted op := by
  obtain ⟨-, hsound⟩ := hrun.invariant (I := Sound) (C := fun _ ↦ True)
    (fun _ hs _ h ↦ h.step hs) Sound.start fun _ _ ↦ trivial
  exact fun t ht ↦ (hsound t ht).2.counted

/-- In a run of careful writes all frames are transmitted. -/
theorem sent_of_careful {ts : List (Transition Sender Label)} (hrun : Run step start ts s)
    (hcareful : ∀ t ∈ ts, Careful t) : FramesSent ts := by
  obtain ⟨-, hinv⟩ := hrun.invariant (I := Inv) (C := Careful)
    (fun _ hs hc h ↦ h.step hs hc) Inv.start hcareful
  exact (framesSent_iff_exact (run_counted hrun)).2 fun t ht ↦ (hinv t ht).2.exact

/-- The payload of a write whose buffer is of the size of an overlapped object. -/
def large : List UInt8 := List.replicate 36 0

/-- Once the overlapped object of a write that is in flight has been released, the next write
of a task that has not been used may get its memory, and when the first write completes, the
system writes over the header of the second one. -/
theorem overwrites (hop : op ∈ s.outstanding) (hlt : op.ov < s.made)
    (hreleased : s.released op.ov = some s.made) {k : ℕ} (hk : s.tasks k = {})
    (hidle : ∀ op' ∈ s.outstanding, op'.task ≠ k) :
    ∃ us s', Run step s us s' ∧ (∀ u ∈ us, Careful u) ∧
      ∃ u ∈ us, ∃ op' ∈ u.dst.outstanding, ¬ u.dst.Exact op' := by
  have hwrite : s.step (.write 4 k large true true true) = some (s.wrote k large true true) := by
    have hgrows : true = true → (s.tasks k).buffer.length < large.length + sizeElement := by
      rw [hk]
      exact fun _ ↦ by decide
    exact (if_pos hgrows).trans (congrArg some (s.write_eq 4 k large true true))
  generalize hs₁ : s.wrote k large true true = s₁ at hwrite
  have hout : s₁.outstanding = s.outstanding ++ [s.started k large true] := hs₁ ▸ rfl
  have hstorage : s₁.storage k = laidOut large := hs₁ ▸ s.store_storage k large true s.made
  have hplace : s₁.place k = s.made + 1 := hs₁ ▸ Function.update_self _ _ _
  have hfreed : s₁.released op.ov = some s.made := by
    rw [← hs₁]
    exact (s.release_of_ne (by rw [hk]; nofun)).trans hreleased
  -- The first write completes, with all its bytes.
  have hcomplete : s₁.step (.complete op.ov ⟨0, op.nNumberOfBytesToWrite, some (k, 0)⟩) =
      some (s₁.complete op.ov ⟨0, op.nNumberOfBytesToWrite, some (k, 0)⟩) := by
    refine if_pos ⟨List.mem_map_of_mem (hout ▸ List.mem_append_left _ hop), ?_⟩
    rintro e he
    cases he
    refine ⟨⟨s.made, hfreed, hplace ▸ Nat.lt_succ_self _⟩, ?_⟩
    rw [hstorage, length_laidOut]
    exact (by decide : 0 + 16 ≤ large.length + 4)
  refine ⟨_, _, .cons hwrite (.cons hcomplete (.nil _)), ?_, _,
    List.mem_cons_of_mem _ List.mem_cons_self, s.started k large true, ?_, fun hexact ↦ ?_⟩
  · refine List.forall_mem_cons.2 ⟨fun _ ↦ ⟨fun _ ↦ by decide, hidle⟩, ?_⟩
    exact List.forall_mem_singleton.2 trivial
  · refine List.mem_filter.2 ⟨hout ▸ List.mem_append_right _ List.mem_cons_self, ?_⟩
    exact decide_eq_true (Nat.ne_of_gt hlt)
  · have hbytes : List.take ((large.length + 4) % 2 ^ 32)
        (blit 0 (Completion.block ⟨0, op.nNumberOfBytesToWrite, some (k, 0)⟩) (laidOut large)) =
          frame sizeElement large := by
      rw [← hstorage]
      exact (congrArg (List.take _) (Function.update_self k _ s₁.storage)).symm.trans hexact.bytes
    have hfirst : (0 : UInt8) = 36 := Option.some.inj (congrArg List.head? hbytes)
    exact absurd hfirst (by decide)

/-- **A careless step** changes a frame that is in flight, or leaves one in danger. -/
theorem careful_of_exact (h : s.Inv) {l : Label} {s' : Sender} (hs : s.step l = some s')
    (hexact : ∀ us s'', Run step s' us s'' → (∀ u ∈ us, Careful u) →
      ∀ t ∈ ⟨s, l, s'⟩ :: us, ∀ op ∈ t.dst.outstanding, t.dst.Exact op) : Careful ⟨s, l, s'⟩ := by
  rcases step_cases hs with ⟨_, _, _, _, _, rfl, rfl⟩ | ⟨_, task, data, moved, suc, rfl, rfl⟩ |
    ⟨_, _, rfl, -, -, rfl⟩
  · exact nofun
  · refine fun _ ↦ ⟨fun hsuc ↦ ?_, fun op hop htask ↦ ?_⟩
    · have hstarted := hexact [] _ (.nil _) (List.forall_mem_nil _) _ List.mem_cons_self
      exact (exact_started s s.made _).1 (hstarted _ ((mem_outstanding_write _).2 (.inr ⟨hsuc, rfl⟩)))
    · obtain ⟨hov, -⟩ := h.kept op hop
      have hlt := h.numbered _ _ hov
      obtain ⟨n, hn⟩ := h.untouched
      -- A task that has not been used.
      have hnone : s.tasks (max n (task + 1)) = {} := hn _ (Nat.le_max_left _ _)
      have hne : max n (task + 1) ≠ task := Nat.ne_of_gt (Nat.le_max_right n (task + 1))
      have hreleased : (s.wrote task data moved suc).released op.ov = some (s.made + 1) := by
        show s.release (s.tasks task).overlapped op.ov = some (s.made + 1)
        rw [← htask, hov]
        exact Function.update_self _ _ _
      have hidle : ∀ op' ∈ (s.wrote task data moved suc).outstanding, op'.task ≠ max n (task + 1) := by
        intro op' hop' heq
        rcases (mem_outstanding_write _).1 hop' with hold | ⟨-, rfl⟩
        · obtain ⟨hsome, -⟩ := h.kept op' hold
          rw [heq, hnone] at hsome
          cases hsome
        · exact hne heq.symm
      obtain ⟨us, s'', hrun, hcareful, u, hu, op', hop', hnot⟩ :=
        overwrites ((mem_outstanding_write _).2 (.inl hop)) (Nat.lt_succ_of_lt hlt) hreleased
          ((Function.update_of_ne hne _ s.tasks).trans hnone) hidle
      exact hnot (hexact us s'' hrun hcareful u (List.mem_cons_of_mem _ hu) op' hop')
  · trivial

/-- **Frames in flight are not changed**, whenever the operating system reads them and
whatever careful writes come later, exactly if all writes are careful. -/
theorem framesSafe_iff {ts : List (Transition Sender Label)} (hrun : Run step start ts s) :
    FramesSafe ts ↔ ∀ t ∈ ts, Careful t := by
  constructor
  · intro hsafe
    refine hrun.forall_of_before (fun _ hs hc h ↦ Inv.step hs hc h) Inv.start
      fun ts₁ t hpart hbefore hinv ↦ ?_
    have hs : t.src.step t.label = some t.dst :=
      hrun.step_of_mem (hpart.subset (List.mem_append_right _ List.mem_cons_self))
    refine careful_of_exact hinv hs fun us s'' hrun'' hlater u hu ↦ ?_
    have hwhole : Run step start (ts₁ ++ [t] ++ us) s'' :=
      (hbefore.append (.cons hs (.nil _))).append hrun''
    have hsent := hsafe.later _ us s'' hpart hwhole hlater
    have hexact := (framesSent_iff_exact (run_counted hwhole)).1 hsent
    refine hexact u ?_
    rw [List.append_assoc]
    exact List.mem_append_right _ hu
  · intro hcareful
    refine ⟨sent_of_careful hrun hcareful, fun ts₁ us s' hpart hrun' hlater ↦ ?_⟩
    refine sent_of_careful hrun' (List.forall_mem_append.2 ⟨fun t ht ↦ ?_, hlater⟩)
    exact hcareful t (hpart.subset ht)

/-- A task is written again after its write has completed, while another one is in flight. -/
theorem framesSafe_two : ∃ ts s, Run step start ts s ∧ s.outstanding.map Outgoing.payload = [[8], [9, 9]] ∧
    FramesSafe ts := by
  obtain ⟨ts, s, hrun, hpayloads, hcareful⟩ := Run.exists_of_trace step start
    [.write 4 0 [7] true true true, .write 4 1 [8] true true true, .complete 0,
      .write 4 0 [9, 9] true true true]
    (fun ts s ↦ s.outstanding.map Outgoing.payload = [[8], [9, 9]] ∧ ∀ t ∈ ts, Careful t)
    ⟨_, rfl, by decide⟩
  exact ⟨ts, s, hrun, hpayloads, (framesSafe_iff hrun).2 hcareful⟩

/-- A task is written again before its write has completed, and the operating system reads
the first frame only then. -/
theorem frame_overwritten : ∃ ts s, Run step start ts s ∧ ¬ FramesSent ts := by
  obtain ⟨ts, s, hrun, t, ht, op, hop, hpayload, hcount, hstorage⟩ := Run.exists_of_trace step start
    [.write 4 0 [7] true true true, .write 4 0 [8] true false true]
    (fun ts _ ↦ ∃ t ∈ ts, ∃ op ∈ t.dst.outstanding, op.payload = [7] ∧ op.nNumberOfBytesToWrite = 5 ∧
      t.dst.storage op.task = frame sizeElement [8]) ⟨_, rfl, by decide⟩
  refine ⟨ts, s, hrun, fun hsent ↦ ?_⟩
  have hframe : frame sizeElement [8] = frame sizeElement op.payload :=
    hsent t ht op hop _ ⟨hcount.symm, fun i b hib ↦ ⟨t, ht, hop, fun _ ↦ hstorage ▸ hib⟩⟩
  rw [hpayload] at hframe
  exact absurd hframe (by decide)

end Sender

end Datapath.Windows
