import Datapath.Interface
import Datapath.Lib.Run
import Datapath.Windows.Kernel

/-!
# Overlapped objects

`windows::overlapped` owns the memory of an `OVERLAPPED` and the event in it, which
`CreateEventW` has made in the constructor.  Its `cancel` cancels the operation, resets the
event and closes it, and remembers nothing of this; `reset` and the destructor call
`cancel`, and so do `task::cancel` and the destructor of a task whose operation has not
completed.

An object lives as long as there is a pointer to it.  One of the pointers may be that of a
task.
-/

namespace Datapath.Windows

open Datapath.Lib

/-- What the library asks of the system for an overlapped object, which is known by the
address of its `OVERLAPPED`, and the end of that object's memory. -/
inductive SystemCall where
  | cancelIoEx (handle : HANDLE) (overlappedPtr : ℕ)
  | resetEvent (hEvent : HANDLE)
  | closeHandle (handle : HANDLE)
  | release (overlappedPtr : ℕ)
deriving DecidableEq, Repr

/-- `STATUS_PENDING`: what the system writes to `Internal` when an operation begins. -/
def statusPending : ℕ := 0x103

/-- `windows::overlapped`.  Its `overlapped_ptr` is not null. -/
structure OverlappedObject where
  overlappedPtr : ℕ
  hEvent : HANDLE
  handle : HANDLE := invalidHandleValue
  internal : ℕ := 0
deriving DecidableEq, Repr

namespace OverlappedObject

def setHandle (handle : HANDLE) (ov : OverlappedObject) : OverlappedObject := { ov with handle }

def cancel (ov : OverlappedObject) : List SystemCall :=
  [.cancelIoEx ov.handle ov.overlappedPtr, .resetEvent ov.hEvent, .closeHandle ov.hEvent]

/-- `HasOverlappedIoCompleted`. -/
def isCompleted (ov : OverlappedObject) : Bool := ov.internal ≠ statusPending

/-- `reset`: the event stays in its field. -/
def reset (ov : OverlappedObject) : OverlappedObject × List SystemCall :=
  ({ ov with internal := 0 }, ov.cancel)

def getWaitable (ov : OverlappedObject) : HANDLE := ov.hEvent

/-- `~overlapped`. -/
def destroy (ov : OverlappedObject) : List SystemCall := ov.cancel ++ [.release ov.overlappedPtr]

/-- `task::cancel`, on the task's overlapped object. -/
def cancelTask : Option OverlappedObject → error × List SystemCall
  | none => (.unknown, [])
  | some ov => if ov.isCompleted then (.failure, []) else (.success, ov.cancel)

end OverlappedObject

/-- An overlapped object, the pointers to it, and the calls that have been made for it. -/
structure Holding where
  ov : OverlappedObject
  /-- A task has a pointer to it. -/
  task : Bool := false
  /-- The other pointers. -/
  shared : ℕ := 1
  calls : List SystemCall := []
deriving DecidableEq, Repr

namespace Holding

/-- What can happen to an overlapped object. -/
inductive Label where
  /-- The pointer is copied. -/
  | share
  /-- A copy of the pointer is dropped. -/
  | drop
  /-- `task::_assign` with this object. -/
  | assign
  /-- `task::_assign` with another object, on the task that has this one. -/
  | reassign
  | taskCancel
  /-- `~task`, and the end of the task's members. -/
  | taskDestroy
  | cancel
  | reset
  | getWaitable
  /-- The system writes to `Internal`, as an operation begins or ends. -/
  | status (internal : ℕ)
deriving DecidableEq, Repr

/-- Somebody has a pointer to the object. -/
def alive (s : Holding) : Bool := s.task || 0 < s.shared

/-- A pointer has been dropped: the object is destroyed if it was the last one. -/
def dropped (s : Holding) : Holding :=
  if s.alive then s else { s with calls := s.calls ++ s.ov.destroy }

/-- One step. -/
def step (s : Holding) : Label → Option Holding
  | .share => if s.alive then some { s with shared := s.shared + 1 } else none
  | .drop =>
      match s.shared with
      | 0 => none
      | n + 1 => some (dropped { s with shared := n })
  | .assign => if s.alive ∧ ¬ s.task then some { s with task := true } else none
  | .reassign => if s.task then some (dropped { s with task := false }) else none
  | .taskCancel =>
      if s.task then some { s with calls := s.calls ++ (OverlappedObject.cancelTask (some s.ov)).2 }
      else none
  | .taskDestroy =>
      if s.task then
        some (dropped { s with
          task := false
          calls := s.calls ++ (OverlappedObject.cancelTask (some s.ov)).2 })
      else none
  | .cancel => if s.alive then some { s with calls := s.calls ++ s.ov.cancel } else none
  | .reset =>
      if s.alive then some { s with ov := s.ov.reset.1, calls := s.calls ++ s.ov.reset.2 } else none
  | .getWaitable => if s.alive then some s else none
  | .status internal => if s.alive then some { s with ov := { s.ov with internal } } else none

/-- The object that the constructor makes, in the hands of its caller. -/
def start (overlappedPtr : ℕ) (hEvent : HANDLE) : Holding := { ov := { overlappedPtr, hEvent } }

/-! ## How often the event is closed -/

/-- How often the event has been closed. -/
def closings (s : Holding) : ℕ := s.calls.count (.closeHandle s.ov.hEvent)

/-- The event has been closed once if the object has been destroyed, and not before. -/
def ClosedOnce (s : Holding) : Prop := s.closings = if s.alive then 0 else 1

/-- The step closes the event of an object that is still there, or that is about to be
destroyed and will close it itself. -/
def ClosesEarly (t : Transition Holding Label) : Prop :=
  match t.label with
  | .cancel | .reset => True
  | .taskCancel | .taskDestroy => t.src.ov.isCompleted = false
  | .share | .drop | .assign | .reassign | .getWaitable | .status _ => False

instance : DecidablePred ClosesEarly
  | ⟨_, .cancel, _⟩ | ⟨_, .reset, _⟩ => .isTrue trivial
  | ⟨s, .taskCancel, _⟩ | ⟨s, .taskDestroy, _⟩ => inferInstanceAs (Decidable (s.ov.isCompleted = false))
  | ⟨_, .share, _⟩ | ⟨_, .drop, _⟩ | ⟨_, .assign, _⟩ | ⟨_, .reassign, _⟩ | ⟨_, .getWaitable, _⟩
  | ⟨_, .status _, _⟩ => .isFalse id

/-- The step leaves the event closed once or not at all, and if it returns the event then
it is open. -/
def KeepsEvent (t : Transition Holding Label) : Prop :=
  t.dst.ClosedOnce ∧ (t.label = .getWaitable → .closeHandle t.src.ov.getWaitable ∉ t.src.calls)

variable {s s' : Holding}

@[simp] theorem count_cancel (ov : OverlappedObject) : ov.cancel.count (.closeHandle ov.hEvent) = 1 := by
  simp [OverlappedObject.cancel]

@[simp] theorem count_destroy (ov : OverlappedObject) : ov.destroy.count (.closeHandle ov.hEvent) = 1 := by
  simp [OverlappedObject.destroy]

/-- Dropping a pointer closes the event if it was the last one. -/
theorem closings_dropped (s : Holding) :
    s.dropped.closings = s.closings + (if s.alive then 0 else 1) ∧ s.dropped.alive = s.alive := by
  unfold dropped
  by_cases halive : s.alive = true
  · rw [if_pos halive, if_pos halive]
    exact ⟨rfl, rfl⟩
  · rw [if_neg halive, if_neg halive]
    refine ⟨?_, rfl⟩
    show (s.calls ++ s.ov.destroy).count _ = _
    rw [List.count_append, count_destroy]
    rfl

/-- What `task::cancel` closes. -/
theorem count_cancelTask (ov : OverlappedObject) :
    (OverlappedObject.cancelTask (some ov)).2.count (.closeHandle ov.hEvent) =
      if ov.isCompleted then 0 else 1 := by
  simp only [OverlappedObject.cancelTask]
  by_cases hc : ov.isCompleted = true
  · rw [if_pos hc, if_pos hc]
    rfl
  · rw [if_neg hc, if_neg hc]
    exact count_cancel ov

theorem closings_append (s : Holding) (calls : List SystemCall) :
    closings { s with calls := s.calls ++ calls } =
      s.closings + calls.count (.closeHandle s.ov.hEvent) := List.count_append

theorem alive_of_task (h : s.task = true) : s.alive = true := by
  unfold alive
  rw [h]
  rfl

/-- What the step `l` closes: the event `n` times, and once more if the object is
destroyed. -/
structure Closes (s : Holding) (l : Label) (s' : Holding) (n : ℕ) : Prop where
  alive : s.alive = true
  closings : s'.closings = s.closings + n + if s'.alive then 0 else 1
  early : n = 0 ↔ ¬ ClosesEarly ⟨s, l, s'⟩

/-- A step that drops no pointer. -/
theorem Closes.of_alive {l : Label} {n : ℕ} (halive : s.alive = true) (halive' : s'.alive = true)
    (hclosings : s'.closings = s.closings + n) (hearly : n = 0 ↔ ¬ ClosesEarly ⟨s, l, s'⟩) :
    Closes s l s' n := ⟨halive, by rw [hclosings, halive']; rfl, hearly⟩

/-- A step that drops a pointer after what it does otherwise. -/
theorem Closes.of_dropped {l : Label} {r : Holding} {n : ℕ} (halive : s.alive = true)
    (hclosings : r.closings = s.closings + n) (hearly : n = 0 ↔ ¬ ClosesEarly ⟨s, l, r.dropped⟩) :
    Closes s l r.dropped n := by
  obtain ⟨hdropped, halive'⟩ := closings_dropped r
  exact ⟨halive, by rw [hdropped, halive', hclosings], hearly⟩

theorem completed_iff {b : Bool} : (if b = true then 0 else 1) = 0 ↔ ¬ b = false := by
  cases b with
  | true => exact iff_of_true rfl nofun
  | false => exact iff_of_false nofun fun h ↦ h rfl

/-- **What a step closes.** -/
theorem step_closes {l : Label} (hs : s.step l = some s') : ∃ n, Closes s l s' n := by
  cases l with
  | share =>
      obtain ⟨halive, heq⟩ := Option.ite_none_right_eq_some.1 hs
      cases heq
      have halive' : alive { s with shared := s.shared + 1 } = true := by simp [alive]
      exact ⟨0, .of_alive halive halive' rfl (iff_of_true rfl id)⟩
  | drop =>
      unfold step at hs
      cases hshared : s.shared with
      | zero =>
          simp only [hshared] at hs
          cases hs
      | succ n =>
          simp only [hshared] at hs
          cases hs
          have halive : s.alive = true := by simp [alive, hshared]
          exact ⟨0, .of_dropped halive rfl (iff_of_true rfl id)⟩
  | assign =>
      obtain ⟨⟨halive, -⟩, heq⟩ := Option.ite_none_right_eq_some.1 hs
      cases heq
      exact ⟨0, .of_alive halive (alive_of_task rfl) rfl (iff_of_true rfl id)⟩
  | reassign =>
      obtain ⟨htask, heq⟩ := Option.ite_none_right_eq_some.1 hs
      cases heq
      exact ⟨0, .of_dropped (alive_of_task htask) rfl (iff_of_true rfl id)⟩
  | taskCancel =>
      obtain ⟨htask, heq⟩ := Option.ite_none_right_eq_some.1 hs
      cases heq
      have halive := alive_of_task htask
      refine ⟨_, .of_alive halive halive ?_ completed_iff⟩
      rw [closings_append, count_cancelTask]
  | taskDestroy =>
      obtain ⟨htask, heq⟩ := Option.ite_none_right_eq_some.1 hs
      cases heq
      refine ⟨_, .of_dropped (alive_of_task htask) ?_ completed_iff⟩
      exact (closings_append _ _).trans (congrArg _ (count_cancelTask s.ov))
  | cancel =>
      obtain ⟨halive, heq⟩ := Option.ite_none_right_eq_some.1 hs
      cases heq
      refine ⟨1, .of_alive halive halive ?_ (iff_of_false nofun fun h ↦ h trivial)⟩
      rw [closings_append, count_cancel]
  | reset =>
      obtain ⟨halive, heq⟩ := Option.ite_none_right_eq_some.1 hs
      cases heq
      refine ⟨1, .of_alive halive halive ?_ (iff_of_false nofun fun h ↦ h trivial)⟩
      exact (closings_append _ _).trans (congrArg _ (count_cancel s.ov))
  | getWaitable =>
      obtain ⟨halive, heq⟩ := Option.ite_none_right_eq_some.1 hs
      cases heq
      exact ⟨0, .of_alive halive halive rfl (iff_of_true rfl id)⟩
  | status internal =>
      obtain ⟨halive, heq⟩ := Option.ite_none_right_eq_some.1 hs
      cases heq
      exact ⟨0, .of_alive halive halive rfl (iff_of_true rfl id)⟩

/-- From an object whose event has been closed as it should, a step keeps it so exactly if
it does not close early. -/
theorem ClosedOnce.step_iff {t : Transition Holding Label} (hs : t.src.step t.label = some t.dst)
    (h : t.src.ClosedOnce) : KeepsEvent t ↔ ¬ ClosesEarly t := by
  obtain ⟨s, l, s'⟩ := t
  have hstep : s.step l = some s' := hs
  obtain ⟨n, hcloses⟩ := step_closes hstep
  have hnone : s.closings = 0 := h.trans (if_pos hcloses.alive)
  have hdst : s'.ClosedOnce ↔ n = 0 := by
    unfold ClosedOnce
    rw [hcloses.closings, hnone]
    omega
  show s'.ClosedOnce ∧ _ ↔ _
  rw [hdst, ← hcloses.early, and_iff_left_iff_imp]
  intro _ _
  exact List.count_eq_zero.1 hnone

/-- **The event of an overlapped object** is closed once, when the object is destroyed,
and open whenever it is returned before, exactly if nobody calls `cancel` or `reset`, and
the task's operation has completed whenever the task is cancelled or destroyed. -/
theorem event_closed_once_iff {overlappedPtr : ℕ} {hEvent : HANDLE} {ts : List (Transition Holding Label)}
    (hrun : Run step (start overlappedPtr hEvent) ts s) :
    (∀ t ∈ ts, KeepsEvent t) ↔ ∀ t ∈ ts, ¬ ClosesEarly t :=
  hrun.forall_iff (I := ClosedOnce) (H := fun _ ↦ True)
    (fun _ hs _ hc h ↦ ((h.step_iff hs).2 hc).1) (fun _ hs _ h ↦ h.step_iff hs) rfl
    fun _ _ ↦ trivial

/-- A write, whose task is waited for, cancelled and destroyed after it has completed. -/
theorem event_closed_once_iff_write : ∃ ts s, Run step (start 1 8) ts s ∧ s.closings = 1 ∧
    ∀ t ∈ ts, KeepsEvent t := by
  obtain ⟨ts, s, hrun, hearly, hclosings⟩ := Run.exists_of_trace step (start 1 8)
    [.assign, .drop, .status statusPending, .getWaitable, .status 0, .taskCancel, .taskDestroy]
    (fun ts s ↦ (∀ t ∈ ts, ¬ ClosesEarly t) ∧ s.closings = 1) ⟨_, rfl, by decide⟩
  exact ⟨ts, s, hrun, hclosings, (event_closed_once_iff hrun).2 hearly⟩

/-- A write that is cancelled before it has completed: the task returns an event that is
closed, and its destruction closes it again, twice. -/
theorem event_closed_thrice : ∃ ts s, Run step (start 1 8) ts s ∧
    (∃ t ∈ ts, t.label = .getWaitable ∧ .closeHandle t.src.ov.getWaitable ∈ t.src.calls) ∧
    s.closings = 3 :=
  Run.exists_of_trace step (start 1 8)
    [.assign, .drop, .status statusPending, .taskCancel, .getWaitable, .taskDestroy]
    (fun ts s ↦ (∃ t ∈ ts, t.label = .getWaitable ∧ .closeHandle t.src.ov.getWaitable ∈ t.src.calls) ∧
      s.closings = 3) ⟨_, rfl, by decide⟩

end Holding

end Datapath.Windows
