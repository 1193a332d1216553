import Datapath.Interface
import Datapath.Windows.Kernel
import Datapath.Windows.Task

/-!
# What a write puts on the pipe

`write` lets `_assign` lay out the frame in the buffer of the task and hands the buffer
to `WriteFileEx`.  A length goes through three widths on the way: `size_t` for the
payload and the buffer, `SIZE_ELEMENT` for the header, and `DWORD` for the number of
bytes to write.  Header and count are narrowed separately, the count after the size of
the header has been added to it.
-/

namespace Datapath.Windows

open Datapath.Lib

/-- The arguments of one call of `WriteFileEx`. -/
structure WriteFileEx (O : Type*) where
  hFile : HANDLE
  lpBuffer : List UInt8
  nNumberOfBytesToWrite : ℕ
  lpOverlapped : O
deriving DecidableEq, Repr

/-- The bytes that a call transmits: as many as it asks for, from the start of the
buffer. -/
def WriteFileEx.transmitted {O : Type*} (call : WriteFileEx O) : List UInt8 :=
  call.lpBuffer.take call.nNumberOfBytesToWrite

/-- `DWORD(n)`. -/
def dword (n : ℕ) : ℕ := n % 2 ^ 32

variable {O : Type*}

/-- `socket::write`: its result, the task it leaves behind, and its call of
`WriteFileEx`.  `ov` is the overlapped object it makes; `resized` tells whether the
buffer could be given its length, since `resize` may throw; `suc` is what `WriteFileEx`
returns. -/
def write (socketHandle : HANDLE) (task : Option (Task O)) (data : List UInt8) (ov : O)
    (resized suc : Bool) : Option (error × Task O × WriteFileEx O) :=
  if resized then
    let obj := (task.getD {}).assign data ov
    some (if suc then .success else .failure, obj, {
      hFile := socketHandle
      lpBuffer := obj.buffer
      nNumberOfBytesToWrite := dword obj.buffer.length
      lpOverlapped := ov })
  else none

/-- The bytes are a header that tells the length of the payload, and the payload, and a
reader that takes the header first and then as many bytes as it tells gets the payload
and ends at the next frame. -/
structure Decodes (bytes payload : List UInt8) : Prop where
  framed : bytes = toLE sizeElement payload.length ++ payload
  header : ofLE (bytes.take sizeElement) = payload.length
  recovered : ∀ next, unframe sizeElement (bytes ++ next) = (payload, next)

variable {socketHandle : HANDLE} {task : Option (Task O)} {obj : Task O} {data : List UInt8}
  {ov : O} {resized suc : Bool} {ec : error} {call : WriteFileEx O}

/-- What a write hands to `WriteFileEx`. -/
theorem write_call (h : write socketHandle task data ov resized suc = some (ec, obj, call)) :
    call.lpBuffer = toLE sizeElement (data.length % 2 ^ 32) ++ data ∧
      call.nNumberOfBytesToWrite = (data.length + 4) % 2 ^ 32 := by
  unfold write at h
  split at h
  case isTrue =>
    cases h
    have hbuffer := (task.getD {}).assign_buffer data ov
    refine ⟨hbuffer, ?_⟩
    simp only [dword, hbuffer, List.length_append, length_toLE, sizeElement, Nat.add_comm]
  case isFalse => cases h

theorem sizeElement_pow : 256 ^ sizeElement = 2 ^ 32 := rfl

/-- The frame of a payload decodes. -/
theorem decodes_frame {payload : List UInt8} (h : payload.length < 2 ^ 32) :
    Decodes (frame sizeElement payload) payload where
  framed := rfl
  header := by
    rw [frame, List.take_append_of_le_length (by simp), List.take_of_length_le (by simp),
      ofLE_toLE (sizeElement_pow ▸ h)]
  recovered := unframe_frame (sizeElement_pow ▸ h)

/-- **What a successful write puts on the pipe** decodes to the payload exactly when
header and payload together are shorter than a `DWORD` can count. -/
theorem write_decodes_iff
    (h : write socketHandle task data ov resized suc = some (.success, obj, call)) :
    Decodes call.transmitted data ↔ data.length < 2 ^ 32 - 4 := by
  obtain ⟨hbuffer, hcount⟩ := write_call h
  constructor
  · intro hdec
    have hlen : call.transmitted.length = data.length + 4 := by
      rw [hdec.framed, List.length_append, length_toLE, sizeElement, Nat.add_comm]
    have hle : call.transmitted.length ≤ call.nNumberOfBytesToWrite := List.length_take_le _ _
    have hlt : call.nNumberOfBytesToWrite < 2 ^ 32 := hcount ▸ Nat.mod_lt _ (by decide)
    omega
  · intro hlt
    have hall : call.transmitted = frame sizeElement data := by
      rw [WriteFileEx.transmitted, hcount, hbuffer, Nat.mod_eq_of_lt (by omega),
        Nat.mod_eq_of_lt (by omega : data.length < 2 ^ 32)]
      apply List.take_of_length_le
      rw [List.length_append, length_toLE, sizeElement, Nat.add_comm]
    rw [hall]
    exact decodes_frame (by omega)

/-- A payload of two bytes. -/
theorem write_decodes_two : Decodes [2, 0, 0, 0, 7, 8] [7, 8] :=
  (write_decodes_iff (O := Unit) (h := (rfl : write 4 none [7, 8] () true true = some (.success, _, _)))).2
    (by decide)

/-- A payload with which the number of bytes to write wraps round to zero: nothing is
transmitted, and the write reports success. -/
theorem write_drops_wrapped : ∃ obj call,
    write 4 none (List.replicate (2 ^ 32 - 4) 0) () true true = some (.success, obj, call) ∧
      call.transmitted = [] ∧ ¬ Decodes call.transmitted (List.replicate (2 ^ 32 - 4) 0) := by
  obtain ⟨obj, call, h⟩ : ∃ obj call, write 4 none (List.replicate (2 ^ 32 - 4) 0) () true true =
    some (.success, obj, call) := ⟨_, _, rfl⟩
  obtain ⟨-, hcount⟩ := write_call h
  rw [List.length_replicate] at hcount
  have hnothing : call.transmitted = [] := by
    rw [WriteFileEx.transmitted, hcount]
    rfl
  refine ⟨obj, call, h, hnothing, fun hdec ↦ ?_⟩
  have hlen := congrArg List.length hdec.framed
  rw [hnothing, List.length_append, length_toLE, List.length_nil, sizeElement] at hlen
  omega

end Datapath.Windows
