import Mathlib.Data.List.Basic

/-!
# Byte buffers

The two things a program does to a byte vector besides reading it: give it
another length, keeping what it holds, and overwrite a part of it in place.
-/

namespace Datapath.Lib

/-- Give a buffer the length `n`.  Bytes below `n` stay as they are, whatever
they were; new bytes are zero. -/
def resize (n : ℕ) (b : List UInt8) : List UInt8 := b.take n ++ List.replicate (n - b.length) 0

/-- Overwrite a buffer with `src` from the offset `off` on. -/
def blit (off : ℕ) (src b : List UInt8) : List UInt8 := b.take off ++ (src ++ b.drop (off + src.length))

@[simp] theorem length_resize (n : ℕ) (b : List UInt8) : (resize n b).length = n := by
  simp only [resize, List.length_append, List.length_take, List.length_replicate]
  omega

/-- Overwriting a part of a buffer leaves it as long as it was. -/
theorem length_blit {off : ℕ} {src b : List UInt8} (h : off + src.length ≤ b.length) :
    (blit off src b).length = b.length := by
  simp only [blit, List.length_append, List.length_take, List.length_drop]
  omega

/-- Overwriting a whole buffer leaves nothing of it. -/
theorem blit_zero {src b : List UInt8} (h : src.length = b.length) : blit 0 src b = src := by
  simp [blit, h]

/-- Overwriting the rest of a buffer and then its beginning leaves nothing of it. -/
theorem blit_blit (head tail b : List UInt8) (h : b.length = head.length + tail.length) :
    blit 0 head (blit head.length tail b) = head ++ tail := by
  have hdrop : b.drop (head.length + tail.length) = [] := List.drop_of_length_le (by omega)
  have htake : (b.take head.length).length = head.length := by
    rw [List.length_take]
    omega
  simp only [blit, hdrop, List.take_zero, List.nil_append, List.append_nil, Nat.zero_add]
  rw [List.drop_append_of_le_length (by omega), List.drop_of_length_le (by omega),
    List.nil_append]

end Datapath.Lib
