import Datapath.Lib.Buffer
import Datapath.Lib.Framing

/-!
# Tasks: what a write puts on the pipe

A `windows::task` owns the bytes of one write and the overlapped object of the
operation that sends them.  `_assign` lays the frame out in place: it gives the
buffer the size of the payload and the header, copies the payload behind the
header and stores the payload's length, narrowed to `SIZE_ELEMENT`, in front.
-/

namespace Datapath.Windows

open Datapath.Lib

/-- `sizeof(SIZE_ELEMENT)`, where `SIZE_ELEMENT` is `uint32_t`. -/
def sizeElement : ℕ := 4

/-- `windows::task`, over a type `O` of overlapped objects. -/
structure Task (O : Type*) where
  overlapped : Option O := none
  buffer : List UInt8 := []

namespace Task

variable {O : Type*}

/-- `task::_assign`.  The payload is a value of its own, and not the buffer of the task, to which
`itask::data` gives a reference: that one would change with the `resize`. -/
def assign (t : Task O) (data : List UInt8) (ov : O) : Task O :=
  let buffer := resize (data.length + sizeElement) t.buffer
  let buffer := blit sizeElement data buffer
  -- SIZE_ELEMENT(data.size()) keeps the low 32 bits.
  let buffer := blit 0 (toLE sizeElement (data.length % 2 ^ 32)) buffer
  { overlapped := some ov, buffer := buffer }

/-- Whatever the task held before, `_assign` leaves the header and the payload in
the buffer and nothing else. -/
theorem assign_buffer (t : Task O) (data : List UInt8) (ov : O) :
    (t.assign data ov).buffer = toLE sizeElement (data.length % 2 ^ 32) ++ data := by
  have hlen : (toLE sizeElement (data.length % 2 ^ 32)).length = sizeElement := length_toLE _ _
  have h := blit_blit (toLE sizeElement (data.length % 2 ^ 32)) data
    (resize (data.length + sizeElement) t.buffer) (by rw [length_resize, hlen, Nat.add_comm])
  rw [hlen] at h
  exact h

/-- A payload whose length fits the header is framed as it is. -/
theorem assign_frame (t : Task O) {data : List UInt8} (ov : O) (h : data.length < 2 ^ 32) :
    (t.assign data ov).buffer = frame sizeElement data := by
  rw [assign_buffer, Nat.mod_eq_of_lt h, frame]

end Task

/-- The bytes on a byte-mode pipe after a list of payloads has been written to
it, each framed by `_assign` in a task of its own. -/
def sent (payloads : List (List UInt8)) : List UInt8 :=
  payloads.flatMap fun p ↦ (({} : Task Unit).assign p ()).buffer

/-- The payloads the library promises to frame: header and payload together are
shorter than a `DWORD` can count. -/
def Framable (payloads : List (List UInt8)) : Prop := ∀ p ∈ payloads, p.length < 2 ^ 32 - 4

instance (payloads : List (List UInt8)) : Decidable (Framable payloads) :=
  inferInstanceAs (Decidable (∀ p ∈ payloads, p.length < 2 ^ 32 - 4))

/-- What `_assign` puts on the pipe is the stream of frames. -/
theorem sent_eq_wire {payloads : List (List UInt8)} (h : Framable payloads) :
    sent payloads = wire sizeElement payloads := by
  refine List.flatMap_congr fun p hp ↦ Task.assign_frame _ _ ?_
  have := h p hp
  omega

end Datapath.Windows
