import Datapath.Lib.Framing
import Mathlib.Data.List.Infix

/-!
# Taking any stream of bytes apart

`Framing` is about streams that are made of frames.  Any stream can be taken apart in the
same way, frame by frame from its beginning, until what is left is not a whole frame.  This
is inverse to framing on both sides: a stream of frames is taken apart into its messages
(`parse_wire`), and framing the messages again gives the stream but for the part that is
left (`wire_parse`).

What is left is always the beginning of some frame (`exists_frame`).  So whatever is shown
of a reader of framed streams holds on any stream, up to the last whole frame.
-/

namespace Datapath.Lib

variable {w : ℕ} {bytes rest : List UInt8}

/-! ## Lengths -/

/-- A field holds no number from `256 ^ w` on. -/
theorem ofLE_lt (l : List UInt8) : ofLE l < 256 ^ l.length := by
  induction l with
  | nil => exact Nat.one_pos
  | cons b l ih =>
      have hb : b.toNat < 256 := b.toNat_lt
      rw [ofLE, List.length_cons, Nat.pow_succ]
      omega

/-- A length is written as the bytes it was read from. -/
theorem toLE_ofLE {l : List UInt8} (h : l.length = w) : toLE w (ofLE l) = l := by
  induction l generalizing w with
  | nil =>
      subst h
      rfl
  | cons b l ih =>
      subst h
      have hb : b.toNat < 256 := b.toNat_lt
      have hlow : UInt8.ofNat (b.toNat + 256 * ofLE l) = b := by
        apply UInt8.toNat_inj.1
        rw [UInt8.toNat_ofNat']
        omega
      have hhigh : (b.toNat + 256 * ofLE l) / 256 = ofLE l := by omega
      rw [ofLE, List.length_cons, toLE, hlow, hhigh, ih rfl]

/-! ## One frame -/

theorem wire_singleton (w : ℕ) (p : List UInt8) : wire w [p] = frame w p := List.append_nil _

/-- The bytes begin with a whole frame. -/
def Framed (w : ℕ) (bytes : List UInt8) : Prop :=
  w ≤ bytes.length ∧ ofLE (bytes.take w) ≤ (bytes.drop w).length

instance (w : ℕ) (bytes : List UInt8) : Decidable (Framed w bytes) :=
  inferInstanceAs (Decidable (_ ∧ _))

theorem framed_frame {p : List UInt8} (h : p.length < 256 ^ w) (next : List UInt8) :
    Framed w (frame w p ++ next) := by
  have htake : (frame w p ++ next).take w = toLE w p.length := by
    rw [frame, List.append_assoc, List.take_append_of_le_length (by simp),
      List.take_of_length_le (by simp)]
  refine ⟨by simp [frame], ?_⟩
  rw [htake, ofLE_toLE h]
  simp [frame]

/-- **Framing** the message that was taken off gives back the stream. -/
theorem frame_unframe (h : Framed w bytes) :
    frame w (unframe w bytes).1 ++ (unframe w bytes).2 = bytes := by
  obtain ⟨hheader, hmessage⟩ := h
  have hwrite := toLE_ofLE (List.length_take_of_le hheader)
  calc frame w (unframe w bytes).1 ++ (unframe w bytes).2
      = toLE w ((bytes.drop w).take (ofLE (bytes.take w))).length ++
          ((bytes.drop w).take (ofLE (bytes.take w)) ++ (bytes.drop w).drop (ofLE (bytes.take w))) :=
        List.append_assoc ..
    _ = bytes.take w ++ bytes.drop w := by
        rw [List.length_take_of_le hmessage, hwrite, List.take_append_drop]
    _ = bytes := List.take_append_drop ..

theorem length_unframe_lt (hw : 0 < w) (h : Framed w bytes) :
    (unframe w bytes).2.length < bytes.length := by
  have hlength := congrArg List.length (frame_unframe h)
  simp only [frame, List.length_append, length_toLE] at hlength
  omega

theorem length_unframe_message (h : Framed w bytes) : (unframe w bytes).1.length < 256 ^ w := by
  have hlt := ofLE_lt (bytes.take w)
  rw [List.length_take_of_le h.1] at hlt
  exact Nat.lt_of_le_of_lt (List.length_take_le _ _) hlt

/-- **The beginning of a frame.**  Bytes that do not begin with a whole frame are a part of
one. -/
theorem exists_frame (h : ¬ Framed w bytes) :
    ∃ p next, p.length < 256 ^ w ∧ next ≠ [] ∧ bytes ++ next = frame w p := by
  by_cases hheader : w ≤ bytes.length
  · -- The message is not there in full.
    have hlength : (bytes.take w).length = w := List.length_take_of_le hheader
    have hshort : (bytes.drop w).length < ofLE (bytes.take w) :=
      Nat.lt_of_not_le fun hmessage ↦ h ⟨hheader, hmessage⟩
    obtain ⟨k, hk⟩ := Nat.exists_eq_add_of_lt hshort
    have hp : (bytes.drop w ++ List.replicate (k + 1) 0).length = ofLE (bytes.take w) := by
      rw [List.length_append, List.length_replicate, hk]
      rfl
    refine ⟨bytes.drop w ++ List.replicate (k + 1) 0, List.replicate (k + 1) 0, ?_,
      List.cons_ne_nil _ _, ?_⟩
    · have hlt := ofLE_lt (bytes.take w)
      rw [hlength] at hlt
      rw [hp]
      exact hlt
    · rw [frame, hp, toLE_ofLE hlength, ← List.append_assoc, List.take_append_drop]
  · -- Not even the header is.
    obtain ⟨k, hk⟩ := Nat.exists_eq_add_of_lt (Nat.lt_of_not_le hheader)
    have hp : (bytes ++ List.replicate (k + 1) 0).length = w := by
      rw [List.length_append, List.length_replicate, hk]
      rfl
    have hlt := ofLE_lt (bytes ++ List.replicate (k + 1) 0)
    rw [hp] at hlt
    refine ⟨List.replicate (ofLE (bytes ++ List.replicate (k + 1) 0)) 0,
      List.replicate (k + 1) 0 ++ List.replicate (ofLE (bytes ++ List.replicate (k + 1) 0)) 0,
      ?_, List.cons_ne_nil _ _, ?_⟩
    · rw [List.length_replicate]
      exact hlt
    · rw [frame, List.length_replicate, toLE_ofLE hp, List.append_assoc]

/-! ## All frames -/

/-- The messages of the frames at the beginning of the bytes. -/
def parse (w : ℕ) (bytes : List UInt8) : List (List UInt8) :=
  if _h : 0 < w ∧ Framed w bytes then (unframe w bytes).1 :: parse w (unframe w bytes).2 else []
termination_by bytes.length
decreasing_by exact length_unframe_lt _h.1 _h.2

theorem parse_of_framed (hw : 0 < w) (h : Framed w bytes) :
    parse w bytes = (unframe w bytes).1 :: parse w (unframe w bytes).2 := by
  rw [parse, dif_pos ⟨hw, h⟩]

theorem parse_of_not_framed (h : ¬ Framed w bytes) : parse w bytes = [] := by
  rw [parse, dif_neg fun hboth ↦ h hboth.2]

/-- Frames are taken off one after the other. -/
theorem parse_wire_append (hw : 0 < w) {ps : List (List UInt8)} (h : ∀ p ∈ ps, p.length < 256 ^ w)
    (bytes : List UInt8) : parse w (wire w ps ++ bytes) = ps ++ parse w bytes := by
  induction ps with
  | nil => rfl
  | cons p ps ih =>
      obtain ⟨hp, hps⟩ := List.forall_mem_cons.1 h
      have hcons : wire w (p :: ps) ++ bytes = frame w p ++ (wire w ps ++ bytes) := List.append_assoc ..
      rw [hcons, parse_of_framed hw (framed_frame hp _), unframe_frame hp, ih hps, List.cons_append]

/-- **Framed messages are found again**, also when a part of another frame follows. -/
theorem parse_wire (hw : 0 < w) {ps : List (List UInt8)} (h : ∀ p ∈ ps, p.length < 256 ^ w)
    (hrest : ¬ Framed w rest) : parse w (wire w ps ++ rest) = ps := by
  rw [parse_wire_append hw h, parse_of_not_framed hrest, List.append_nil]

/-- **Messages framed again** give the bytes, but for what does not begin with a whole
frame. -/
theorem wire_parse (hw : 0 < w) (bytes : List UInt8) :
    ∃ rest, wire w (parse w bytes) ++ rest = bytes ∧ ¬ Framed w rest := by
  fun_induction parse w bytes with
  | case1 bytes h ih =>
      obtain ⟨rest, hrest, hnot⟩ := ih
      refine ⟨rest, ?_, hnot⟩
      calc wire w ((unframe w bytes).1 :: parse w (unframe w bytes).2) ++ rest
          = frame w (unframe w bytes).1 ++ (wire w (parse w (unframe w bytes).2) ++ rest) :=
            List.append_assoc ..
        _ = bytes := by rw [hrest, frame_unframe h.2]
  | case2 bytes h => exact ⟨bytes, rfl, fun hf ↦ h ⟨hw, hf⟩⟩

theorem length_lt_of_mem_parse {p : List UInt8} (hp : p ∈ parse w bytes) : p.length < 256 ^ w := by
  fun_induction parse w bytes with
  | case1 bytes h ih =>
      rcases List.mem_cons.1 hp with rfl | hp
      · exact length_unframe_message h.2
      · exact ih hp
  | case2 bytes h => exact absurd hp List.not_mem_nil

end Datapath.Lib
