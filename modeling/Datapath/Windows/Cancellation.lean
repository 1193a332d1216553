import Datapath.Windows.Overlapped
import Mathlib.Logic.Function.Basic

/-!
# Cancelling an operation

`overlapped::cancel` calls `CancelIoEx` with the handle that is stored in the object, and
reaches the operation if that is the handle on which the operation was started.  The two
reads of a socket's watcher and `ConnectNamedPipe` store the handle first; `socket::write`
does not, so that the object of a write has `INVALID_HANDLE_VALUE` in it.

The model has all sockets, tasks and servers of a process.  An overlapped object belongs to
the watcher of a socket, to a task, or to the watcher of a server, and is destroyed when
its owner lets go of it.  A watcher takes the handle that it stores and the handle that it
reads from out of `socket_handle` in one step; `_connect` on a socket whose watcher is
running ends the process, and is not a step.
-/

namespace Datapath.Windows

open Datapath.Lib

/-- The memory of an overlapped object. -/
structure Slot where
  ov : OverlappedObject
  /-- The handle on which the outstanding operation was started. -/
  operation : Option HANDLE := none
  /-- The object has been destroyed. -/
  released : Bool := false
  /-- The handle of the socket whose watcher has made the object.  No step reads it. -/
  home : Option HANDLE := none
deriving DecidableEq, Repr

/-- `windows::socket`, with `read_header_ov` and `read_content_ov` while there is a
watcher. -/
structure SocketOwner where
  socketHandle : HANDLE := invalidHandleValue
  watcher : Option (ℕ × ℕ) := none
deriving DecidableEq, Repr

/-- The task of a write, with the address of its overlapped object. -/
structure TaskOwner where
  overlapped : Option ℕ := none
  /-- `~task` has been called. -/
  destroyed : Bool := false
deriving DecidableEq, Repr

/-- The overlapped objects of a process, those who own them, and the calls made for them. -/
structure Library where
  memory : List Slot := []
  sockets : ℕ → SocketOwner := fun _ ↦ {}
  tasks : ℕ → TaskOwner := fun _ ↦ {}
  /-- The objects that the watchers of servers hold. -/
  ovmap : List ℕ := []
  calls : List SystemCall := []

namespace Library

/-- What can happen in a process. -/
inductive Label where
  /-- `_connect`: the watcher starts and makes its two objects. -/
  | connect (socket : ℕ) (handle : HANDLE)
  /-- The watcher reads a header; `suc` is what `ReadFileEx` returns. -/
  | readHeader (socket : ℕ) (suc : Bool)
  | readContent (socket : ℕ) (suc : Bool)
  /-- The watcher ends, and its objects with it. -/
  | stop (socket : ℕ)
  /-- `socket::write`, with a new task or one that has been used; `suc` is what
  `WriteFileEx` returns. -/
  | write (socket task : ℕ) (suc : Bool)
  | taskCancel (task : ℕ)
  /-- The body of `~task`. -/
  | taskDestroy (task : ℕ)
  /-- The end of the members of a task. -/
  | taskRelease (task : ℕ)
  /-- The watcher of a server calls `ConnectNamedPipe`, which may leave an operation
  `pending`. -/
  | connectNamedPipe (handle : HANDLE) (pending : Bool)
  /-- The watcher of a server lets go of an object. -/
  | unwatch (overlappedPtr : ℕ)
  /-- The system completes the operation of an object. -/
  | complete (overlappedPtr internal : ℕ)
deriving DecidableEq, Repr

variable (createEvent : ℕ → HANDLE)

/-- `make_shared<overlapped>()`; the address of the object is its number. -/
def alloc (home : Option HANDLE) (s : Library) : Library :=
  { s with memory := s.memory ++
      [{ ov := { overlappedPtr := s.memory.length, hEvent := createEvent s.memory.length }, home }] }

/-- Change the memory of an object. -/
def modify (a : ℕ) (f : Slot → Slot) (s : Library) : Library := { s with memory := s.memory.modify a f }

def setHandle (a : ℕ) (handle : HANDLE) (s : Library) : Library :=
  s.modify a fun slot ↦ { slot with ov := slot.ov.setHandle handle }

/-- An operation on a handle begins, if the call succeeds. -/
def begin_ (a : ℕ) (handle : HANDLE) (suc : Bool) (s : Library) : Library :=
  if suc then
    s.modify a fun slot ↦
      { slot with ov := { slot.ov with internal := statusPending }, operation := some handle }
  else s

/-- `~overlapped`. -/
def destroy (a : ℕ) (s : Library) : Library :=
  match s.memory[a]? with
  | none => s
  | some slot => { s.modify a fun slot ↦ { slot with released := true } with
      calls := s.calls ++ slot.ov.destroy }

/-- The overlapped object of a task. -/
def overlappedOf (s : Library) (task : ℕ) : Option OverlappedObject :=
  (s.tasks task).overlapped.bind fun a ↦ s.memory[a]?.map Slot.ov

/-- `task::cancel`. -/
def cancelTask (task : ℕ) (s : Library) : error × Library :=
  let r := OverlappedObject.cancelTask (s.overlappedOf task)
  (r.1, { s with calls := s.calls ++ r.2 })

def setTask (task : ℕ) (w : TaskOwner) (s : Library) : Library :=
  { s with tasks := Function.update s.tasks task w }

def setSocket (socket : ℕ) (r : SocketOwner) (s : Library) : Library :=
  { s with sockets := Function.update s.sockets socket r }

/-- The object that a task held is destroyed, as nobody else has a pointer to it. -/
def letGo (task : ℕ) (s : Library) : Library :=
  match (s.tasks task).overlapped with
  | none => s
  | some a => s.destroy a

/-- `task::_assign`, with a new object. -/
def assign (task : ℕ) (s : Library) : Library :=
  ((s.alloc createEvent none).letGo task).setTask task { overlapped := some s.memory.length }

/-- `socket::write`. -/
def write (socket task : ℕ) (suc : Bool) (s : Library) : Library :=
  (s.assign createEvent task).begin_ s.memory.length (s.sockets socket).socketHandle suc

/-- One step. -/
def step (s : Library) : Label → Option Library
  | .connect socket handle =>
      if handle ≠ invalidHandleValue ∧ (s.sockets socket).watcher = none then
        some (((s.alloc createEvent (some handle)).alloc createEvent (some handle)).setSocket socket
          { socketHandle := handle, watcher := some (s.memory.length, s.memory.length + 1) })
      else none
  | .readHeader socket suc =>
      (s.sockets socket).watcher.map fun (header, _) ↦
        (s.setHandle header (s.sockets socket).socketHandle).begin_ header
          (s.sockets socket).socketHandle suc
  | .readContent socket suc =>
      (s.sockets socket).watcher.map fun (_, content) ↦
        (s.setHandle content (s.sockets socket).socketHandle).begin_ content
          (s.sockets socket).socketHandle suc
  | .stop socket =>
      (s.sockets socket).watcher.map fun (header, content) ↦
        ((s.destroy content).destroy header).setSocket socket
          { s.sockets socket with watcher := none }
  | .write socket task suc =>
      if (s.tasks task).destroyed then none else some (s.write createEvent socket task suc)
  | .taskCancel task => if (s.tasks task).destroyed then none else some (s.cancelTask task).2
  | .taskDestroy task =>
      if (s.tasks task).destroyed then none
      else some ((s.cancelTask task).2.setTask task { s.tasks task with destroyed := true })
  | .taskRelease task =>
      if (s.tasks task).destroyed then
        some ((s.letGo task).setTask task { overlapped := none, destroyed := true })
      else none
  | .connectNamedPipe handle pending =>
      let ov := s.memory.length
      let s := ((s.alloc createEvent none).setHandle ov handle).begin_ ov handle pending
      some { s with ovmap := s.ovmap ++ [ov] }
  | .unwatch a =>
      if a ∈ s.ovmap then some { s.destroy a with ovmap := s.ovmap.erase a } else none
  | .complete a internal =>
      if internal ≠ statusPending then
        some (s.modify a fun slot ↦
          { slot with ov := { slot.ov with internal := internal }, operation := none })
      else none

/-! ## What is promised -/

/-- An operation, started on a handle, is outstanding for an object. -/
def Outstanding (s : Library) (a : ℕ) (handle : HANDLE) : Prop :=
  ∃ slot, s.memory[a]? = some slot ∧ slot.released = false ∧ slot.operation = some handle

/-- The handle that is stored in an object. -/
def Stored (s : Library) (a : ℕ) (handle : HANDLE) : Prop :=
  ∃ slot, s.memory[a]? = some slot ∧ slot.ov.handle = handle

/-- The memory of an object has been released. -/
def Released (s : Library) (a : ℕ) : Prop := ∃ slot, s.memory[a]? = some slot ∧ slot.released = true

/-- The objects of outstanding operations have the handles of these. -/
def Targeted (s : Library) : Prop := ∀ a handle, s.Outstanding a handle → s.Stored a handle

/-- The step cancels the operation of an object, or is about to: it is `task::cancel` or
`~task` on its task, or it destroys the object. -/
def Ends (t : Transition Library Label) (a : ℕ) : Prop :=
  Released t.dst a ∨ ∃ task, (t.label = .taskCancel task ∨ t.label = .taskDestroy task) ∧
    (t.src.tasks task).overlapped = some a

/-- Between two states the operation of an object has been cancelled, and its memory not
been released before. -/
def Cancelled (s s' : Library) (a : ℕ) (handle : HANDLE) : Prop :=
  ∃ before after, s'.calls = s.calls ++ (before ++ .cancelIoEx handle a :: after) ∧
    .release a ∉ before

/-- What is outstanding is known by its handle after the step, and cancelled in it if it
should be. -/
def ReachesOperations (t : Transition Library Label) : Prop :=
  t.dst.Targeted ∧ ∀ a handle, t.src.Outstanding a handle → Ends t a → Cancelled t.src t.dst a handle

/-- A write begins on a handle, without this being stored in its object. -/
def StrayWrite (t : Transition Library Label) : Prop :=
  match t.label with
  | .write socket _ suc => suc = true ∧ (t.src.sockets socket).socketHandle ≠ invalidHandleValue
  | _ => False

instance : DecidablePred StrayWrite
  | ⟨s, .write socket _ suc, _⟩ =>
      inferInstanceAs (Decidable (suc = true ∧ (s.sockets socket).socketHandle ≠ invalidHandleValue))
  | ⟨_, .connect _ _, _⟩ | ⟨_, .readHeader _ _, _⟩ | ⟨_, .readContent _ _, _⟩ | ⟨_, .stop _, _⟩
  | ⟨_, .taskCancel _, _⟩ | ⟨_, .taskDestroy _, _⟩ | ⟨_, .taskRelease _, _⟩
  | ⟨_, .connectNamedPipe _ _, _⟩ | ⟨_, .unwatch _, _⟩ | ⟨_, .complete _ _, _⟩ => .isFalse id

end Library

/-! ## What every object satisfies -/

/-- An object knows its address; what is outstanding for it is pending, and was started on
the handle that is stored, and for an object of a watcher, on the handle of the socket. -/
structure Slot.Sound (a : ℕ) (slot : Slot) : Prop where
  address : slot.ov.overlappedPtr = a
  pending : ∀ h ∈ slot.operation, slot.ov.internal = statusPending
  target : slot.released = false → ∀ h ∈ slot.operation, slot.ov.handle = h
  home : ∀ h ∈ slot.operation, ∀ h' ∈ slot.home, h = h'

namespace Library

variable {createEvent : ℕ → HANDLE} {s s' : Library} {a b : ℕ} {handle : HANDLE}

/-- The object was made by a watcher for this handle. -/
def MadeFor (s : Library) (a : ℕ) (handle : HANDLE) : Prop :=
  ∃ slot, s.memory[a]? = some slot ∧ slot.home = some handle

/-- What every state satisfies as long as no write has begun. -/
structure Inv (s : Library) : Prop where
  sound : ∀ (a : ℕ) (slot : Slot), s.memory[a]? = some slot → slot.Sound a
  watcher : ∀ socket header content, (s.sockets socket).watcher = some (header, content) →
    s.MadeFor header (s.sockets socket).socketHandle ∧ s.MadeFor content (s.sockets socket).socketHandle
  held : ∀ task, ∀ a ∈ (s.tasks task).overlapped, a < s.memory.length

theorem Inv.targeted (h : s.Inv) : s.Targeted := by
  rintro a handle ⟨slot, hslot, hlive, hop⟩
  exact ⟨slot, hslot, (h.sound a slot hslot).target hlive handle hop⟩

/-- The objects of servers and the calls do not matter. -/
theorem Inv.congr (h : s.Inv) (hmemory : s'.memory = s.memory) (hsockets : s'.sockets = s.sockets)
    (htasks : s'.tasks = s.tasks) : s'.Inv := by
  refine ⟨fun a slot hslot ↦ h.sound a slot (hmemory ▸ hslot), ?_, ?_⟩
  · unfold MadeFor
    rw [hmemory, hsockets]
    exact h.watcher
  · rw [hmemory, htasks]
    exact h.held

theorem Inv.setSocket (h : s.Inv) (socket : ℕ) {r : SocketOwner} (hr : ∀ header content,
    r.watcher = some (header, content) → s.MadeFor header r.socketHandle ∧ s.MadeFor content r.socketHandle) :
    (s.setSocket socket r).Inv := by
  refine ⟨h.sound, fun socket' header content hw ↦ ?_, h.held⟩
  change s.MadeFor header (Function.update s.sockets socket r socket').socketHandle ∧
    s.MadeFor content (Function.update s.sockets socket r socket').socketHandle
  change (Function.update s.sockets socket r socket').watcher = _ at hw
  by_cases hsocket : socket' = socket
  · subst hsocket
    rw [Function.update_self] at hw ⊢
    exact hr header content hw
  · rw [Function.update_of_ne hsocket] at hw ⊢
    exact h.watcher socket' header content hw

theorem Inv.setTask (h : s.Inv) (task : ℕ) {w : TaskOwner} (hw : ∀ a ∈ w.overlapped, a < s.memory.length) :
    (s.setTask task w).Inv := by
  refine ⟨h.sound, h.watcher, fun task' ↦ ?_⟩
  change ∀ a ∈ (Function.update s.tasks task w task').overlapped, a < s.memory.length
  by_cases htask : task' = task
  · subst htask
    rw [Function.update_self]
    exact hw
  · rw [Function.update_of_ne htask]
    exact h.held task'

theorem getElem_alloc (home : Option HANDLE) (s : Library) {slot : Slot}
    (hslot : (s.alloc createEvent home).memory[a]? = some slot) :
    s.memory[a]? = some slot ∨ a = s.memory.length ∧ slot =
      { ov := { overlappedPtr := s.memory.length, hEvent := createEvent s.memory.length }, home } := by
  unfold alloc at hslot
  rw [List.getElem?_append] at hslot
  split at hslot
  case isTrue => exact .inl hslot
  case isFalse hge =>
    obtain ⟨hlt, heq⟩ := List.getElem?_eq_some_iff.1 hslot
    simp only [List.length_singleton] at hlt
    exact .inr ⟨by omega, by simpa using heq.symm⟩

theorem getElem_alloc_of_some {home : Option HANDLE} {slot : Slot} (hslot : s.memory[a]? = some slot) :
    (s.alloc createEvent home).memory[a]? = some slot := by
  obtain ⟨hlt, -⟩ := List.getElem?_eq_some_iff.1 hslot
  exact (List.getElem?_append_left hlt).trans hslot

variable (createEvent) in
theorem getElem_alloc_self (home : Option HANDLE) (s : Library) :
    (s.alloc createEvent home).memory[s.memory.length]? = some
      { ov := { overlappedPtr := s.memory.length, hEvent := createEvent s.memory.length }, home } :=
  List.getElem?_concat_length ..

theorem length_alloc (home : Option HANDLE) (s : Library) :
    (s.alloc createEvent home).memory.length = s.memory.length + 1 := List.length_append

/-- A new object has nothing outstanding. -/
theorem Inv.alloc (h : s.Inv) (home : Option HANDLE) : (s.alloc createEvent home).Inv where
  sound a slot hslot := by
    rcases getElem_alloc home s hslot with hold | ⟨rfl, rfl⟩
    · exact h.sound a slot hold
    · exact ⟨rfl, nofun, nofun, nofun⟩
  watcher socket header content hw := by
    obtain ⟨⟨slot, hslot, hhome⟩, slot', hslot', hhome'⟩ := h.watcher socket header content hw
    exact ⟨⟨slot, getElem_alloc_of_some hslot, hhome⟩, slot', getElem_alloc_of_some hslot', hhome'⟩
  held task a ha := by
    rw [length_alloc]
    exact Nat.lt_succ_of_lt (h.held task a ha)

theorem getElem_modify (f : Slot → Slot) (s : Library) :
    (s.modify a f).memory[b]? = if a = b then s.memory[b]?.map f else s.memory[b]? := by
  unfold modify
  rw [List.getElem?_modify]
  split
  · rfl
  · exact congrFun Option.map_id _

/-- Changing one object. -/
theorem Inv.modify (h : s.Inv) {f : Slot → Slot}
    (hf : ∀ slot, s.memory[a]? = some slot → (f slot).Sound a ∧ (f slot).home = slot.home) :
    (s.modify a f).Inv := by
  have hmade : ∀ {b handle}, s.MadeFor b handle → (s.modify a f).MadeFor b handle := by
    rintro b handle ⟨slot, hslot, hhome⟩
    by_cases hab : a = b
    · subst hab
      refine ⟨f slot, ?_, (hf slot hslot).2.trans hhome⟩
      rw [getElem_modify, if_pos rfl, hslot]
      rfl
    · refine ⟨slot, ?_, hhome⟩
      rw [getElem_modify, if_neg hab]
      exact hslot
  refine ⟨fun b slot hslot ↦ ?_, fun socket header content hw ↦ ?_, fun task b hb ↦ ?_⟩
  · rw [getElem_modify] at hslot
    by_cases hab : a = b
    · subst hab
      rw [if_pos rfl] at hslot
      obtain ⟨slot', hslot', rfl⟩ := Option.map_eq_some_iff.1 hslot
      exact (hf slot' hslot').1
    · rw [if_neg hab] at hslot
      exact h.sound b slot hslot
  · exact ⟨hmade (h.watcher socket header content hw).1, hmade (h.watcher socket header content hw).2⟩
  · have hlength : (s.modify a f).memory.length = s.memory.length := List.length_modify _ _ _
    rw [hlength]
    exact h.held task b hb

/-- An operation begins on the handle that is stored. -/
theorem Inv.begin_ (h : s.Inv) (hstored : ∀ slot : Slot, s.memory[a]? = some slot →
    slot.ov.handle = handle ∧ ∀ h' ∈ slot.home, handle = h') (suc : Bool) :
    (s.begin_ a handle suc).Inv := by
  unfold Library.begin_
  split
  case isFalse => exact h
  case isTrue =>
    refine h.modify fun slot hslot ↦ ⟨⟨(h.sound a slot hslot).address, fun _ _ ↦ rfl, ?_, ?_⟩, rfl⟩
    · intro _ h' hop
      cases hop
      exact (hstored slot hslot).1
    · intro h' hop
      cases hop
      exact (hstored slot hslot).2

/-- The handle is stored, and an operation begins on it. -/
theorem Inv.start (h : s.Inv) (hown : ∀ slot : Slot, s.memory[a]? = some slot →
    (∀ h' ∈ slot.operation, handle = h') ∧ ∀ h' ∈ slot.home, handle = h') (suc : Bool) :
    ((s.setHandle a handle).begin_ a handle suc).Inv := by
  have hset : (s.setHandle a handle).Inv := by
    refine h.modify fun slot hslot ↦ ⟨⟨(h.sound a slot hslot).address,
      (h.sound a slot hslot).pending, fun _ h' hop ↦ (hown slot hslot).1 h' hop,
      (h.sound a slot hslot).home⟩, rfl⟩
  refine hset.begin_ (fun slot hslot ↦ ?_) suc
  unfold setHandle at hslot
  rw [getElem_modify, if_pos rfl] at hslot
  obtain ⟨slot', hslot', rfl⟩ := Option.map_eq_some_iff.1 hslot
  exact ⟨rfl, (hown slot' hslot').2⟩

/-- A read of a watcher. -/
theorem Inv.read (h : s.Inv) (hmade : s.MadeFor a handle) (suc : Bool) :
    ((s.setHandle a handle).begin_ a handle suc).Inv := by
  obtain ⟨slot, hslot, hhome⟩ := hmade
  refine h.start (fun slot' hslot' ↦ ?_) suc
  cases hslot.symm.trans hslot'
  have heq : ∀ h' ∈ slot.home, handle = h' := fun h' hh ↦ Option.some.inj (hhome.symm.trans hh)
  exact ⟨fun h' hop ↦ ((h.sound a slot hslot).home h' hop handle hhome).symm, heq⟩

theorem Inv.destroy (h : s.Inv) (a : ℕ) : (s.destroy a).Inv := by
  unfold Library.destroy
  split
  case h_1 => exact h
  case h_2 =>
    refine Inv.congr (s := s.modify a fun slot ↦ { slot with released := true }) ?_ rfl rfl rfl
    exact h.modify fun slot hslot ↦ ⟨⟨(h.sound a slot hslot).address, (h.sound a slot hslot).pending,
      nofun, (h.sound a slot hslot).home⟩, rfl⟩

theorem Inv.letGo (h : s.Inv) (task : ℕ) : (s.letGo task).Inv := by
  unfold Library.letGo
  split
  · exact h
  · exact h.destroy _

/-- What a destructor leaves of the objects and their owners. -/
theorem destroy_frame (a : ℕ) (s : Library) : (s.destroy a).sockets = s.sockets ∧
    (s.destroy a).tasks = s.tasks ∧ (s.destroy a).memory.length = s.memory.length := by
  unfold destroy
  split
  · exact ⟨rfl, rfl, rfl⟩
  · exact ⟨rfl, rfl, List.length_modify _ _ _⟩

theorem letGo_frame (task : ℕ) (s : Library) : (s.letGo task).sockets = s.sockets ∧
    (s.letGo task).tasks = s.tasks ∧ (s.letGo task).memory.length = s.memory.length := by
  unfold letGo
  split
  · exact ⟨rfl, rfl, rfl⟩
  · exact destroy_frame _ s

theorem getElem_destroy (a : ℕ) (s : Library) : (s.destroy a).memory[b]? =
    s.memory[b]?.map fun slot ↦ if a = b then { slot with released := true } else slot := by
  unfold destroy
  split
  case h_1 hnone =>
    by_cases hab : a = b
    · subst hab
      rw [hnone]
      rfl
    · simp only [if_neg hab]
      exact (congrFun Option.map_id _).symm
  case h_2 =>
    show (s.modify a _).memory[b]? = _
    rw [getElem_modify]
    by_cases hab : a = b
    · simp only [if_pos hab]
    · simp only [if_neg hab]
      exact (congrFun Option.map_id _).symm

/-- Letting go of another object does not change one. -/
theorem getElem_letGo {task : ℕ} (s : Library) (hne : b ∉ (s.tasks task).overlapped) :
    (s.letGo task).memory[b]? = s.memory[b]? := by
  unfold letGo
  split
  case h_1 => rfl
  case h_2 a ha =>
    have hab : a ≠ b := fun h ↦ hne (h ▸ ha)
    rw [getElem_destroy]
    simp only [if_neg hab]
    exact congrFun Option.map_id _

/-! ## What stays alive -/

/-- The object exists. -/
def Live (s : Library) (a : ℕ) : Prop := ∃ slot, s.memory[a]? = some slot ∧ slot.released = false

theorem Outstanding.live (h : s.Outstanding a handle) : s.Live a := by
  obtain ⟨slot, hslot, hlive, -⟩ := h
  exact ⟨slot, hslot, hlive⟩

theorem Live.not_released (h : s.Live a) : ¬ s.Released a := by
  obtain ⟨slot, hslot, hlive⟩ := h
  rintro ⟨slot', hslot', hreleased⟩
  cases hslot.symm.trans hslot'
  exact Bool.false_ne_true (hlive.symm.trans hreleased)

theorem Live.alloc (h : s.Live a) (home : Option HANDLE) : (s.alloc createEvent home).Live a := by
  obtain ⟨slot, hslot, hlive⟩ := h
  exact ⟨slot, getElem_alloc_of_some hslot, hlive⟩

theorem Live.modify (h : s.Live a) {f : Slot → Slot} (hf : ∀ slot, (f slot).released = slot.released) :
    (s.modify b f).Live a := by
  obtain ⟨slot, hslot, hlive⟩ := h
  by_cases hb : b = a
  · refine ⟨f slot, ?_, (hf slot).trans hlive⟩
    rw [getElem_modify, if_pos hb, hslot]
    rfl
  · refine ⟨slot, ?_, hlive⟩
    rw [getElem_modify, if_neg hb]
    exact hslot

theorem Live.setHandle (h : s.Live a) : (s.setHandle b handle).Live a := h.modify fun _ ↦ rfl

theorem Live.begin_ (h : s.Live a) (suc : Bool) : (s.begin_ b handle suc).Live a := by
  unfold Library.begin_
  split
  · exact h.modify fun _ ↦ rfl
  · exact h

theorem Live.destroy (h : s.Live a) (hne : b ≠ a) : (s.destroy b).Live a := by
  obtain ⟨slot, hslot, hlive⟩ := h
  refine ⟨slot, ?_, hlive⟩
  rw [getElem_destroy, hslot]
  simp only [if_neg hne, Option.map_some]

/-! ## The steps -/

theorem Inv.assign (h : s.Inv) (task : ℕ) : (s.assign createEvent task).Inv := by
  refine ((h.alloc none).letGo task).setTask task fun a ha ↦ ?_
  cases ha
  rw [(letGo_frame task _).2.2]
  rw [length_alloc]
  exact Nat.lt_succ_self _

/-- The object of a write has no handle in it. -/
theorem Inv.getElem_assign (h : s.Inv) (task : ℕ) :
    (s.assign createEvent task).memory[s.memory.length]? = some
      { ov := { overlappedPtr := s.memory.length, hEvent := createEvent s.memory.length } } := by
  refine (getElem_letGo (s.alloc createEvent none) fun hold ↦ ?_).trans (getElem_alloc_self createEvent none s)
  exact Nat.lt_irrefl _ (h.held task _ hold)

/-- A step that is not a stray write. -/
theorem Inv.step {t : Transition Library Label} (h : t.src.Inv)
    (hs : t.src.step createEvent t.label = some t.dst) (hstray : ¬ StrayWrite t) : t.dst.Inv := by
  obtain ⟨s, l, s'⟩ := t
  have hstep : s.step createEvent l = some s' := hs
  cases l with
  | connect socket handle =>
    obtain ⟨-, ⟨⟩⟩ := Option.ite_none_right_eq_some.1 hstep
    refine ((h.alloc (some handle)).alloc (some handle)).setSocket socket ?_
    rintro _ _ ⟨⟩
    have hcontent := getElem_alloc_self createEvent (some handle) (s.alloc createEvent (some handle))
    rw [length_alloc] at hcontent
    exact ⟨⟨_, getElem_alloc_of_some (getElem_alloc_self createEvent (some handle) s), rfl⟩, _, hcontent, rfl⟩
  | readHeader socket suc =>
    obtain ⟨⟨header, content⟩, hw, rfl⟩ := Option.map_eq_some_iff.1 hstep
    exact h.read (h.watcher socket header content hw).1 suc
  | readContent socket suc =>
    obtain ⟨⟨header, content⟩, hw, rfl⟩ := Option.map_eq_some_iff.1 hstep
    exact h.read (h.watcher socket header content hw).2 suc
  | stop socket =>
    obtain ⟨⟨header, content⟩, hw, rfl⟩ := Option.map_eq_some_iff.1 hstep
    refine ((h.destroy content).destroy header).setSocket socket fun _ _ hnone ↦ ?_
    exact absurd hnone.symm (Option.some_ne_none _)
  | write socket task suc =>
    obtain ⟨-, ⟨⟩⟩ := Option.ite_none_left_eq_some.1 hstep
    cases suc with
    | false => exact h.assign task
    | true =>
      have hinvalid : (s.sockets socket).socketHandle = invalidHandleValue :=
        not_not.1 fun hvalid ↦ hstray ⟨rfl, hvalid⟩
      refine (h.assign task).begin_ (fun slot hslot ↦ ?_) true
      cases (h.getElem_assign task).symm.trans hslot
      exact ⟨hinvalid.symm, fun h' hnone ↦ absurd hnone (Option.not_mem_none h')⟩
  | taskCancel task =>
    obtain ⟨-, ⟨⟩⟩ := Option.ite_none_left_eq_some.1 hstep
    exact h.congr rfl rfl rfl
  | taskDestroy task =>
    obtain ⟨-, ⟨⟩⟩ := Option.ite_none_left_eq_some.1 hstep
    exact Inv.setTask (s := (s.cancelTask task).2) (h.congr rfl rfl rfl) task (h.held task)
  | taskRelease task =>
    obtain ⟨-, ⟨⟩⟩ := Option.ite_none_right_eq_some.1 hstep
    exact (h.letGo task).setTask task fun a ha ↦ absurd ha (Option.not_mem_none a)
  | connectNamedPipe handle pending =>
    cases hstep
    have halloc : (s.alloc createEvent none).Inv := h.alloc none
    refine (halloc.start (fun slot hslot ↦ ?_) pending).congr rfl rfl rfl
    cases (getElem_alloc_self createEvent none s).symm.trans hslot
    exact ⟨fun h' hnone ↦ absurd hnone (Option.not_mem_none h'),
      fun h' hnone ↦ absurd hnone (Option.not_mem_none h')⟩
  | unwatch a =>
    obtain ⟨-, ⟨⟩⟩ := Option.ite_none_right_eq_some.1 hstep
    exact (h.destroy a).congr rfl rfl rfl
  | complete a internal =>
    obtain ⟨-, ⟨⟩⟩ := Option.ite_none_right_eq_some.1 hstep
    refine h.modify fun slot hslot ↦ ⟨⟨(h.sound a slot hslot).address, ?_, fun _ ↦ ?_, ?_⟩, rfl⟩
    all_goals exact fun h' hnone ↦ absurd hnone (Option.not_mem_none h')

/-- After a stray write the object does not have the handle of its operation. -/
theorem Inv.not_targeted {t : Transition Library Label} (h : t.src.Inv)
    (hs : t.src.step createEvent t.label = some t.dst) (hstray : StrayWrite t) : ¬ t.dst.Targeted := by
  obtain ⟨s, l, s'⟩ := t
  have hstep : s.step createEvent l = some s' := hs
  cases l with
  | write socket task suc =>
    obtain ⟨rfl, hvalid⟩ := hstray
    obtain ⟨-, ⟨⟩⟩ := Option.ite_none_left_eq_some.1 hstep
    have hslot : (s.write createEvent socket task true).memory[s.memory.length]? = some
        { ov := { overlappedPtr := s.memory.length, hEvent := createEvent s.memory.length,
                  internal := statusPending }
          operation := some (s.sockets socket).socketHandle } := by
      refine (getElem_modify _ (s.assign createEvent task)).trans ?_
      rw [if_pos rfl, h.getElem_assign task]
      rfl
    intro htargeted
    obtain ⟨slot, hslot', hhandle⟩ := htargeted s.memory.length (s.sockets socket).socketHandle
      ⟨_, hslot, rfl, rfl⟩
    cases hslot.symm.trans hslot'
    exact hvalid hhandle.symm
  | connect | readHeader | readContent | stop | taskCancel | taskDestroy | taskRelease
  | connectNamedPipe | unwatch | complete => exact hstray.elim

/-! ## The cancellations -/

theorem calls_begin_ (a : ℕ) (handle : HANDLE) (suc : Bool) (s : Library) :
    (s.begin_ a handle suc).calls = s.calls := by
  unfold begin_
  split
  · rfl
  · rfl

theorem Cancelled.congr {s₁ s₁' : Library} (h : Cancelled s s' a handle) (hsrc : s₁.calls = s.calls)
    (hdst : s₁'.calls = s'.calls) : Cancelled s₁ s₁' a handle := by
  unfold Cancelled
  rw [hsrc, hdst]
  exact h

/-- `overlapped::cancel` on the object of an operation cancels the operation. -/
theorem Inv.cancel (h : s.Inv) {slot : Slot} (hslot : s.memory[a]? = some slot)
    (hlive : slot.released = false) (hop : slot.operation = some handle) :
    slot.ov.cancel = .cancelIoEx handle a :: [.resetEvent slot.ov.hEvent, .closeHandle slot.ov.hEvent] := by
  have hsound := h.sound a slot hslot
  rw [← hsound.target hlive handle hop, ← hsound.address]
  rfl

/-- Destroying the object of an operation cancels the operation. -/
theorem Inv.cancelled_destroy (h : s.Inv) (hop : s.Outstanding a handle) :
    Cancelled s (s.destroy a) a handle := by
  obtain ⟨slot, hslot, hlive, hhandle⟩ := hop
  refine ⟨[], [.resetEvent slot.ov.hEvent, .closeHandle slot.ov.hEvent] ++ [.release slot.ov.overlappedPtr],
    ?_, List.not_mem_nil⟩
  unfold Library.destroy
  rw [hslot]
  show s.calls ++ (slot.ov.cancel ++ _) = _
  rw [h.cancel hslot hlive hhandle]
  rfl

/-- A destructor releases the memory of one object. -/
theorem Inv.calls_destroy (h : s.Inv) (b : ℕ) :
    ∃ more, (s.destroy b).calls = s.calls ++ more ∧ ∀ a, a ≠ b → .release a ∉ more := by
  unfold Library.destroy
  split
  case h_1 => exact ⟨[], (List.append_nil _).symm, fun _ _ ↦ List.not_mem_nil⟩
  case h_2 slot hslot =>
    refine ⟨slot.ov.destroy, rfl, fun a hne hmem ↦ ?_⟩
    have haddress := (h.sound b slot hslot).address
    simp [OverlappedObject.destroy, OverlappedObject.cancel, haddress, hne] at hmem

/-- Another destructor after it does not undo a cancellation. -/
theorem Inv.cancelled_destroy_first (h : s.Inv) (hop : s.Outstanding a handle) (b : ℕ) :
    Cancelled s ((s.destroy a).destroy b) a handle := by
  obtain ⟨before, after, hcalls, hbefore⟩ := h.cancelled_destroy hop
  obtain ⟨more, hmore, -⟩ := (h.destroy a).calls_destroy b
  refine ⟨before, after ++ more, ?_, hbefore⟩
  rw [hmore, hcalls]
  simp only [List.append_assoc, List.cons_append]

/-- Destroying another object first does not matter. -/
theorem Inv.cancelled_destroy_second (h : s.Inv) (hop : s.Outstanding a handle) (hne : b ≠ a) :
    Cancelled s ((s.destroy b).destroy a) a handle := by
  have hop' : (s.destroy b).Outstanding a handle := by
    obtain ⟨slot, hslot, hlive, hhandle⟩ := hop
    refine ⟨slot, ?_, hlive, hhandle⟩
    rw [getElem_destroy, hslot]
    simp only [if_neg hne, Option.map_some]
  obtain ⟨before, after, hcalls, hbefore⟩ := (h.destroy b).cancelled_destroy hop'
  obtain ⟨more, hmore, hothers⟩ := h.calls_destroy b
  refine ⟨more ++ before, after, ?_, ?_⟩
  · rw [hcalls, hmore]
    simp only [List.append_assoc]
  · rw [List.mem_append]
    rintro (hmem | hmem)
    · exact hothers a hne.symm hmem
    · exact hbefore hmem

/-- As the operation is pending, `task::cancel` cancels it. -/
theorem Inv.cancelled_task {task : ℕ} (h : s.Inv) (hop : s.Outstanding a handle)
    (htask : (s.tasks task).overlapped = some a) : Cancelled s (s.cancelTask task).2 a handle := by
  obtain ⟨slot, hslot, hlive, hhandle⟩ := hop
  have hov : s.overlappedOf task = some slot.ov := by
    unfold overlappedOf
    rw [htask, Option.bind_some, hslot]
    rfl
  have hpending : slot.ov.isCompleted = false :=
    decide_eq_false (not_not.2 ((h.sound a slot hslot).pending handle hhandle))
  refine ⟨[], [.resetEvent slot.ov.hEvent, .closeHandle slot.ov.hEvent], ?_, List.not_mem_nil⟩
  show s.calls ++ (OverlappedObject.cancelTask (s.overlappedOf task)).2 = _
  rw [hov]
  simp only [OverlappedObject.cancelTask, hpending]
  exact congrArg (s.calls ++ ·) (h.cancel hslot hlive hhandle)

/-- Letting go of an object either leaves an operation alone, or cancels it. -/
theorem Inv.letGo_cases (h : s.Inv) (hop : s.Outstanding a handle) (task : ℕ) :
    (s.letGo task).Live a ∨ Cancelled s (s.letGo task) a handle := by
  unfold Library.letGo
  split
  case h_1 => exact .inl hop.live
  case h_2 b _ =>
    by_cases hb : b = a
    · subst hb
      exact .inr (h.cancelled_destroy hop)
    · exact .inl (hop.live.destroy hb)

theorem Outstanding.alloc (h : s.Outstanding a handle) (home : Option HANDLE) :
    (s.alloc createEvent home).Outstanding a handle := by
  obtain ⟨slot, hslot, hop⟩ := h
  exact ⟨slot, getElem_alloc_of_some hslot, hop⟩

/-- A step that destroys the object of an operation cancels the operation. -/
theorem Inv.cancelled_of_released {t : Transition Library Label} (h : t.src.Inv)
    (hs : t.src.step createEvent t.label = some t.dst) (hop : t.src.Outstanding a handle)
    (hreleased : t.dst.Released a) : Cancelled t.src t.dst a handle := by
  obtain ⟨s, l, s'⟩ := t
  have hstep : s.step createEvent l = some s' := hs
  have hlive : s.Live a := Outstanding.live hop
  have hdead : ¬ s'.Live a := fun hlive ↦ hlive.not_released hreleased
  cases l with
  | connect socket handle' =>
    obtain ⟨-, ⟨⟩⟩ := Option.ite_none_right_eq_some.1 hstep
    exact absurd ((hlive.alloc (some handle')).alloc (some handle')) hdead
  | readHeader socket suc =>
    obtain ⟨⟨header, content⟩, -, rfl⟩ := Option.map_eq_some_iff.1 hstep
    exact absurd (hlive.setHandle.begin_ suc) hdead
  | readContent socket suc =>
    obtain ⟨⟨header, content⟩, -, rfl⟩ := Option.map_eq_some_iff.1 hstep
    exact absurd (hlive.setHandle.begin_ suc) hdead
  | stop socket =>
    obtain ⟨⟨header, content⟩, -, rfl⟩ := Option.map_eq_some_iff.1 hstep
    by_cases hcontent : content = a
    · subst hcontent
      exact (Inv.cancelled_destroy_first h hop header).congr rfl rfl
    · by_cases hheader : header = a
      · subst hheader
        exact (Inv.cancelled_destroy_second h hop hcontent).congr rfl rfl
      · exact absurd ((hlive.destroy hcontent).destroy hheader) hdead
  | write socket task suc =>
    obtain ⟨-, ⟨⟩⟩ := Option.ite_none_left_eq_some.1 hstep
    rcases Inv.letGo_cases (Inv.alloc h none) (Outstanding.alloc hop none) task with hstays | hcancelled
    · have hassigned : (s.assign createEvent task).Live a := hstays
      exact absurd (hassigned.begin_ suc) hdead
    · refine hcancelled.congr rfl ?_
      exact calls_begin_ _ _ suc _
  | taskCancel task =>
    obtain ⟨-, ⟨⟩⟩ := Option.ite_none_left_eq_some.1 hstep
    exact absurd hlive hdead
  | taskDestroy task =>
    obtain ⟨-, ⟨⟩⟩ := Option.ite_none_left_eq_some.1 hstep
    exact absurd hlive hdead
  | taskRelease task =>
    obtain ⟨-, ⟨⟩⟩ := Option.ite_none_right_eq_some.1 hstep
    rcases Inv.letGo_cases h hop task with hstays | hcancelled
    · exact absurd hstays hdead
    · exact hcancelled.congr rfl rfl
  | connectNamedPipe handle' pending =>
    cases hstep
    exact absurd ((hlive.alloc none).setHandle.begin_ pending) hdead
  | unwatch b =>
    obtain ⟨-, ⟨⟩⟩ := Option.ite_none_right_eq_some.1 hstep
    by_cases hb : b = a
    · subst hb
      exact (Inv.cancelled_destroy h hop).congr rfl rfl
    · exact absurd (hlive.destroy hb) hdead
  | complete b internal =>
    obtain ⟨-, ⟨⟩⟩ := Option.ite_none_right_eq_some.1 hstep
    exact absurd (hlive.modify (f := fun slot ↦
      { slot with ov := { slot.ov with internal := internal }, operation := none }) fun _ ↦ rfl) hdead

/-- `task::cancel` and `~task` cancel the operation of the task. -/
theorem Inv.cancelled_of_task {t : Transition Library Label} {task : ℕ} (h : t.src.Inv)
    (hs : t.src.step createEvent t.label = some t.dst) (hop : t.src.Outstanding a handle)
    (hlabel : t.label = .taskCancel task ∨ t.label = .taskDestroy task)
    (htask : (t.src.tasks task).overlapped = some a) : Cancelled t.src t.dst a handle := by
  obtain ⟨s, l, s'⟩ := t
  have hstep : s.step createEvent l = some s' := hs
  have hcancelled := Inv.cancelled_task h hop htask
  rcases hlabel with hl | hl
  · cases (hl : l = _)
    obtain ⟨-, ⟨⟩⟩ := Option.ite_none_left_eq_some.1 hstep
    exact hcancelled
  · cases (hl : l = _)
    obtain ⟨-, ⟨⟩⟩ := Option.ite_none_left_eq_some.1 hstep
    exact hcancelled.congr rfl rfl

/-- As long as no write has begun, a step is as it should be exactly if none begins in it. -/
theorem Inv.step_iff {t : Transition Library Label} (h : t.src.Inv)
    (hs : t.src.step createEvent t.label = some t.dst) : ReachesOperations t ↔ ¬ StrayWrite t := by
  constructor
  · rintro ⟨htargeted, -⟩ hstray
    exact h.not_targeted hs hstray htargeted
  · intro hstray
    refine ⟨(h.step hs hstray).targeted, fun a handle hop hends ↦ ?_⟩
    rcases hends with hreleased | ⟨task, hlabel, htask⟩
    · exact h.cancelled_of_released hs hop hreleased
    · exact h.cancelled_of_task hs hop hlabel htask

theorem inv_empty : ({} : Library).Inv where
  sound _ _ hnone := absurd hnone.symm (Option.some_ne_none _)
  watcher _ _ _ hnone := absurd hnone.symm (Option.some_ne_none _)
  held _ _ hnone := absurd hnone (Option.not_mem_none _)

/-- **Cancellation reaches the operation** that it is meant for, in every step of a run,
exactly if no write begins in the run on a handle that a socket can have. -/
theorem operations_reached_iff {ts : List (Transition Library Label)}
    (hrun : Run (step createEvent) {} ts s) :
    (∀ t ∈ ts, ReachesOperations t) ↔ ∀ t ∈ ts, ¬ StrayWrite t :=
  hrun.forall_iff (I := Inv) (H := fun _ ↦ True) (fun _ hs _ hc h ↦ h.step hs hc)
    (fun _ hs _ h ↦ h.step_iff hs) inv_empty fun _ _ ↦ trivial

/-- A socket whose watcher ends while it reads, a write that does not begin, and a server
that stops listening: both operations are cancelled. -/
theorem operations_reached_iff_reads : ∃ ts s, Run (step (· + 16)) {} ts s ∧
    (.cancelIoEx 4 1 ∈ s.calls ∧ .cancelIoEx 8 3 ∈ s.calls) ∧ ∀ t ∈ ts, ReachesOperations t := by
  obtain ⟨ts, s, hrun, hstray, hcalls⟩ := Run.exists_of_trace (step (· + 16)) {}
    [.connect 0 4, .readHeader 0 true, .complete 0 0, .readContent 0 true, .write 0 0 false, .stop 0,
      .connectNamedPipe 8 true, .taskCancel 0, .taskDestroy 0, .taskRelease 0, .unwatch 3]
    (fun ts s ↦ (∀ t ∈ ts, ¬ StrayWrite t) ∧ .cancelIoEx 4 1 ∈ s.calls ∧ .cancelIoEx 8 3 ∈ s.calls)
    ⟨_, rfl, by decide⟩
  exact ⟨ts, s, hrun, hcalls, (operations_reached_iff hrun).2 hstray⟩

/-- A write that is cancelled while it is outstanding: `task::cancel` returns `Success`,
and `CancelIoEx` has been called with `INVALID_HANDLE_VALUE`. -/
theorem operation_missed : ∃ ts s, Run (step (· + 16)) {} ts s ∧ s.Outstanding 2 4 ∧ ¬ s.Stored 2 4 ∧
    (s.cancelTask 0).1 = .success ∧ (s.cancelTask 0).2.calls =
      [.cancelIoEx invalidHandleValue 2, .resetEvent 18, .closeHandle 18] := by
  refine Run.exists_of_trace (step (· + 16)) {} [.connect 0 4, .write 0 0 true]
    (fun _ s ↦ s.Outstanding 2 4 ∧ ¬ s.Stored 2 4 ∧ (s.cancelTask 0).1 = .success ∧
      (s.cancelTask 0).2.calls = [.cancelIoEx invalidHandleValue 2, .resetEvent 18, .closeHandle 18])
    ⟨_, rfl, ⟨_, rfl, rfl, rfl⟩, ?_, rfl, rfl⟩
  rintro ⟨slot, hslot, hhandle⟩
  cases hslot
  exact absurd hhandle (by decide)

end Library

end Datapath.Windows
