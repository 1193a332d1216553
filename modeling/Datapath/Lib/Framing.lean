import Mathlib.Algebra.Group.Nat.Defs
import Mathlib.Data.List.Basic
import Mathlib.Data.Nat.Basic

/-!
# Length-prefixed framing

A message is framed by writing its length in front of it, little-endian, in a
field of `w` bytes.  A byte stream of frames can be taken apart again without
any separator: `w` bytes give the length of the next message, and that many
bytes give the message.
-/

namespace Datapath.Lib

/-- The `w` low-order bytes of `n`, least significant first. -/
def toLE : ℕ → ℕ → List UInt8
  | 0, _ => []
  | w + 1, n => UInt8.ofNat n :: toLE w (n / 256)

/-- The number whose bytes, least significant first, are the given ones. -/
def ofLE : List UInt8 → ℕ
  | [] => 0
  | b :: bs => b.toNat + 256 * ofLE bs

@[simp] theorem length_toLE (w n : ℕ) : (toLE w n).length = w := by
  induction w generalizing n with
  | zero => rfl
  | succ w ih => simp [toLE, ih]

/-- A field of `w` bytes holds every number below `256 ^ w`. -/
theorem ofLE_toLE {w n : ℕ} (h : n < 256 ^ w) : ofLE (toLE w n) = n := by
  induction w generalizing n with
  | zero =>
      have hn : n = 0 := by simpa using h
      simp [hn, toLE, ofLE]
  | succ w ih =>
      have hdiv : n / 256 < 256 ^ w :=
        Nat.div_lt_of_lt_mul (by rwa [Nat.pow_succ, Nat.mul_comm] at h)
      rw [toLE, ofLE, ih hdiv, UInt8.toNat_ofNat']
      exact Nat.mod_add_div n 256

/-- A message with its length in front. -/
def frame (w : ℕ) (p : List UInt8) : List UInt8 := toLE w p.length ++ p

/-- The byte stream that carries a list of messages. -/
def wire (w : ℕ) (ps : List (List UInt8)) : List UInt8 := ps.flatMap (frame w)

@[simp] theorem wire_nil (w : ℕ) : wire w [] = [] := rfl

theorem wire_cons (w : ℕ) (p : List UInt8) (ps : List (List UInt8)) :
    wire w (p :: ps) = toLE w p.length ++ (p ++ wire w ps) := by
  simp [wire, frame]

/-- **Reading a header.**  A stream of frames with at least one more byte than
none starts with the header of its first message: the first `w` bytes, when
there are that many, are the length of the message that follows. -/
theorem wire_take {w : ℕ} (hw : 0 < w) {ps : List (List UInt8)} (h : w ≤ (wire w ps).length) :
    ∃ p rest, ps = p :: rest ∧ (wire w ps).take w = toLE w p.length ∧
      (wire w ps).drop w = p ++ wire w rest := by
  cases ps with
  | nil => simp only [wire_nil, List.length_nil] at h; omega
  | cons p rest =>
      refine ⟨p, rest, rfl, ?_, ?_⟩
      · rw [wire_cons, List.take_append_of_le_length (by simp),
          List.take_of_length_le (by simp)]
      · rw [wire_cons, List.drop_append_of_le_length (by simp),
          List.drop_of_length_le (by simp), List.nil_append]

theorem wire_append (w : ℕ) (ps qs : List (List UInt8)) : wire w (ps ++ qs) = wire w ps ++ wire w qs :=
  List.flatMap_append

/-- In the stream that carries `ps`, a frame begins at the offset `n`, or the stream
ends there. -/
def Boundary (w : ℕ) (ps : List (List UInt8)) (n : ℕ) : Prop :=
  ∃ l r, ps = l ++ r ∧ n = (wire w l).length

/-- Where the rest of a stream carries the rest of the messages, there is a boundary. -/
theorem boundary_of_rest {w n : ℕ} {l r : List (List UInt8)}
    (hn : n + (wire w r).length = (wire w (l ++ r)).length) : Boundary w (l ++ r) n := by
  refine ⟨l, r, rfl, ?_⟩
  rw [wire_append, List.length_append] at hn
  exact Nat.add_right_cancel hn

/-- **Behind a header** that has a message behind it no frame begins. -/
theorem not_boundary_behind_header {w n : ℕ} {l r : List (List UInt8)} {p : List UInt8} (hp : p ≠ [])
    (hw : 0 < w) (hn : n + (p ++ wire w r).length = (wire w (l ++ p :: r)).length) :
    ¬ Boundary w (l ++ p :: r) n := by
  have hstart : n = (wire w l).length + w := by
    rw [wire_append, wire_cons] at hn
    simp only [List.length_append, length_toLE] at hn
    omega
  rintro ⟨l', r', hsplit, hl'⟩
  have hpos : 0 < p.length := List.length_pos_iff.2 hp
  have hfirst : l ++ [p] <+: l ++ p :: r := ⟨r, by simp⟩
  rcases List.prefix_or_prefix_of_prefix (hsplit ▸ List.prefix_append l' r') hfirst with hbefore | hafter
  · -- The boundary is that of an earlier frame, or the end of this one.
    rcases List.prefix_concat_iff.1 hbefore with rfl | ⟨m, rfl⟩
    · rw [wire_append, wire_cons] at hl'
      simp only [List.length_append, length_toLE, wire_nil, List.length_nil] at hl'
      omega
    · rw [wire_append, List.length_append] at hstart
      omega
  · obtain ⟨m, rfl⟩ := hafter
    rw [wire_append, wire_append, wire_cons] at hl'
    simp only [List.length_append, length_toLE, wire_nil, List.length_nil] at hl'
    omega

/-- Take the next frame off a stream: the message, and what follows it. -/
def unframe (w : ℕ) (stream : List UInt8) : List UInt8 × List UInt8 :=
  ((stream.drop w).take (ofLE (stream.take w)), (stream.drop w).drop (ofLE (stream.take w)))

/-- **Taking a frame apart** gives back the message and the rest of the stream. -/
theorem unframe_frame {w : ℕ} {p : List UInt8} (h : p.length < 256 ^ w) (next : List UInt8) :
    unframe w (frame w p ++ next) = (p, next) := by
  have htake : (frame w p ++ next).take w = toLE w p.length := by
    rw [frame, List.append_assoc, List.take_append_of_le_length (by simp),
      List.take_of_length_le (by simp)]
  have hdrop : (frame w p ++ next).drop w = p ++ next := by
    rw [frame, List.append_assoc, List.drop_append_of_le_length (by simp),
      List.drop_of_length_le (by simp), List.nil_append]
  rw [unframe, htake, hdrop, ofLE_toLE h, List.take_left, List.drop_left]

end Datapath.Lib
