import Datapath.Windows.Socket.Delivery

/-!
# A reader whose pipe is being filled

`Delivery` gives the reader the whole stream from the start.  The bytes that the peer has
written come one after the other, and a read can only be given what has arrived.  Here it
is shown that this makes no difference, as long as the reads that complete bring all that
was asked for: a reader with a part of the stream does what it would do with all of it
(`extend_complete`, `extend_advance`, `extend_waitSuccess`), and so it stands in the frames
of the whole stream.
-/

namespace Datapath.Windows

open Datapath.Lib

namespace Reader

variable {all todo : List (List UInt8)} {rest : List UInt8} {w w' : Reader}

/-- The reader, if these bytes had arrived as well. -/
def extend (w : Reader) (rest : List UInt8) : Reader := { w with stream := w.stream ++ rest }

/-- Bytes that arrive are bytes that have not arrived any more. -/
theorem extend_extend (w : Reader) (bytes rest : List UInt8) :
    (w.extend bytes).extend rest = w.extend (bytes ++ rest) := by
  simp only [extend, List.append_assoc]

@[simp] theorem extend_nil (w : Reader) : w.extend [] = w := by
  simp only [extend, List.append_nil]

/-! ## What it does -/

theorem extend_advance (w : Reader) (rest : List UInt8) (i : Iteration) :
    (w.extend rest).advance i = (w.advance i).extend rest := by
  cases hs : w.state with
  | unknown =>
      cases hr : i.header with
      | started => simp only [advance, extend, hs, hr, readFileEx]
      | refused code => simp only [advance, extend, hs, hr, readFileEx]
  | header => simp only [advance, extend, hs]
  | content =>
      cases hw : w.waitable with
      | some ov => simp only [advance, extend, hs, hw]
      | none =>
          cases hm : w.onMessage.toBool with
          | true => simp only [advance, extend, hs, hw, hm, if_true, dispatch]
          | false => simp only [advance, extend, hs, hw, hm, Bool.false_eq_true, if_false]

/-- A read that brings all that was asked for would bring the same. -/
theorem extend_complete {code bytes : ℕ} (rest : List UInt8)
    (hfull : ∀ r ∈ w.outstanding.head?, min bytes (min r.size w.stream.length) = r.size) :
    (w.extend rest).complete code bytes = (w.complete code bytes).extend rest := by
  cases ho : w.outstanding with
  | nil => simp only [complete, extend, ho]
  | cons r others =>
      have hn := hfull r (by rw [ho]; rfl)
      have hle : r.size ≤ w.stream.length := by omega
      have hn' : min bytes (min r.size (w.stream ++ rest).length) = r.size := by
        rw [List.length_append]
        omega
      simp only [complete, extend, ho, hn, hn', defIoCompletionRoutine, List.take_append_of_le_length hle,
        List.drop_append_of_le_length hle]

theorem extend_waitSuccess (w : Reader) (rest : List UInt8) (reply : ReadReply) (ov : Overlapped) :
    ((w.extend rest).resetEvent ov).waitSuccess reply ov =
      ((w.resetEvent ov).waitSuccess reply ov).extend rest := by
  cases ov with
  | readHeader =>
      cases reply with
      | started => simp only [waitSuccess, headerSuccess, readFileEx, resetEvent, extend]
      | refused code => simp only [waitSuccess, headerSuccess, readFileEx, resetEvent, extend]
  | readContent =>
      cases hm : w.onMessage.toBool with
      | true => simp only [waitSuccess, contentSuccess, resetEvent, extend, hm, if_true, dispatch]
      | false =>
          simp only [waitSuccess, contentSuccess, resetEvent, extend, hm, Bool.false_eq_true, if_false]

/-! ## Where it stands -/

/-- A new frame behind the others. -/
theorem Aligned.extend_frame (h : w.Aligned todo) (p : List UInt8) :
    (w.extend (Lib.frame sizeElement p)).Aligned (todo ++ [p]) := by
  have hstream : ∀ front ps, w.stream = front ++ wire sizeElement ps →
      (w.extend (Lib.frame sizeElement p)).stream = front ++ wire sizeElement (ps ++ [p]) := by
    intro front ps hb
    rw [wire_append, ← List.append_assoc, ← hb]
    exact congrArg (w.stream ++ ·) (List.append_nil _).symm
  cases h with
  | idle hs hw ho hq hb => exact .idle hs hw ho hq (hstream [] _ hb)
  | header hs hw ho hq hl hb => exact .header hs hw ho hq hl (hstream [] _ hb)
  | headerDone hs hw ho hq hl hb => exact .headerDone hs hw ho hq hl (hstream _ _ hb)
  | content hs hw ho hq hl hb => exact .content hs hw ho hq hl (hstream _ _ hb)
  | contentDone hs hw ho hq hl hb => exact .contentDone hs hw ho hq hl (hstream [] _ hb)
  | held hs hw ho hq hl hb => exact .held hs hw ho hq hl (hstream [] _ hb)

/-- The bytes that are still to come end the frames that are still to come. -/
theorem Aligned.rest_suffix (h : (w.extend rest).Aligned todo) : rest <:+ wire sizeElement todo := by
  have hstream : rest <:+ (w.extend rest).stream := ⟨w.stream, rfl⟩
  have hbehind : ∀ (p : List UInt8) ps, (w.extend rest).stream <:+ p ++ wire sizeElement ps →
      rest <:+ wire sizeElement (p :: ps) := by
    intro p ps hs
    rw [wire_cons]
    exact (hstream.trans hs).trans (List.suffix_append _ _)
  cases h with
  | idle _ _ _ _ hb | header _ _ _ _ _ hb => exact hb ▸ hstream
  | headerDone _ _ _ _ _ hb | content _ _ _ _ _ hb => exact hbehind _ _ (hb ▸ List.suffix_refl _)
  | contentDone _ _ _ _ _ hb | held _ _ _ _ _ hb => exact hbehind _ _ (hb ▸ List.suffix_append _ _)

/-- All reads that have completed have done so without error and in full. -/
def CleanLog (w : Reader) : Prop := ∀ e ∈ w.log, e.Clean

instance (w : Reader) : Decidable w.CleanLog := inferInstanceAs (Decidable (∀ e ∈ w.log, e.Clean))

theorem CleanLog.mono (h : w'.CleanLog) (hp : w.log <+: w'.log) : w.CleanLog :=
  fun e he ↦ h e (hp.subset he)

/-- With the bytes that are still to come the reader stands in the frames of the messages
that have not been delivered. -/
def Fits (all : List (List UInt8)) (rest : List UInt8) (w : Reader) : Prop :=
  w.CleanLog → ∃ todo, w.delivered ++ todo = all ∧ (w.extend rest).Aligned todo

/-- What a reader owes that may have stopped: it has not delivered a message whose bytes are
still to come. -/
def Accounts (all : List (List UInt8)) (rest : List UInt8) (w : Reader) : Prop :=
  w.CleanLog → ∃ todo, w.delivered ++ todo = all ∧ rest <:+ wire sizeElement todo ∧
    (w.stopped = none → (w.extend rest).Aligned todo)

theorem Fits.accounts (h : w.Fits all rest) : w.Accounts all rest := by
  intro hclean
  obtain ⟨todo, htodo, hal⟩ := h hclean
  exact ⟨todo, htodo, hal.rest_suffix, fun _ ↦ hal⟩

/-- A reader that has stopped only owes its deliveries. -/
theorem Fits.stop (h : w.Fits all rest) (hlog : w.log <+: w'.log) (hdel : w'.delivered = w.delivered)
    (hstop : w'.stopped ≠ none) : w'.Accounts all rest := by
  intro hclean
  obtain ⟨todo, htodo, hal⟩ := h (hclean.mono hlog)
  exact ⟨todo, by rw [hdel, htodo], hal.rest_suffix, fun hgo ↦ absurd hgo hstop⟩

theorem Fits.advance (i : Iteration) (h : w.Fits all rest) : (w.advance i).Fits all rest := by
  intro hclean
  obtain ⟨todo, htodo, hal⟩ := h (hclean.mono (advance_grows w i).log)
  obtain ⟨todo', hal', -, hdel⟩ := hal.advance i
  rw [extend_advance] at hal' hdel
  exact ⟨todo', hdel.trans htodo, hal'⟩

theorem Fits.complete {code bytes : ℕ} (h : w.Fits all rest) : (w.complete code bytes).Fits all rest := by
  intro hclean
  obtain ⟨todo, htodo, hal⟩ := h (hclean.mono (complete_grows w code bytes).log)
  obtain ⟨_, _, _, _, _, _, hframe⟩ := w.complete_frame code bytes
  have hfull : ∀ r ∈ w.outstanding.head?, min bytes (min r.size w.stream.length) = r.size := by
    intro r hr
    obtain ⟨others, ho⟩ : ∃ others, w.outstanding = r :: others := List.head?_eq_some_iff.1 hr
    have hlast : IoEvent.Clean (.completed r.ov r.size code (min bytes (min r.size w.stream.length))) :=
      hclean _ (complete_log ho code bytes ▸ List.mem_append_right _ List.mem_cons_self)
    exact hlast.2
  refine ⟨todo, by rw [hframe]; exact htodo, ?_⟩
  rw [← extend_complete rest hfull]
  refine hal.complete fun r hr ↦ ?_
  have hsingle : w.outstanding = [r] := hal.outstanding_eq hr
  have hn := hfull r (by rw [hsingle]; rfl)
  have hlen : (w.extend rest).stream.length = w.stream.length + rest.length := List.length_append
  omega

theorem Fits.waitSuccess (hf : ∀ p ∈ all, p.length < 256 ^ sizeElement) {reply : ReadReply} {ov : Overlapped}
    (h : w.Fits all rest) (hw : w.waitable = some ov) (hsig : w.signalled ov = true) :
    ((w.resetEvent ov).waitSuccess reply ov).Fits all rest := by
  intro hclean
  obtain ⟨todo, htodo, hal⟩ := h (hclean.mono (signal_grows w reply ov).log)
  rw [← extend_waitSuccess]
  cases ov with
  | readContent =>
      obtain ⟨todo', hal', -, hdel⟩ := hal.contentSuccess hw hsig
      have hsame := congrArg Reader.delivered (w.extend_waitSuccess rest reply .readContent)
      exact ⟨todo', (congrArg (· ++ todo') hsame.symm).trans (hdel.trans htodo), hal'⟩
  | readHeader =>
      rcases headerSuccess_cases reply (w.resetEvent .readHeader) with ⟨rfl, hi⟩ | ⟨code, rfl, hi⟩
      · have hframed : ∀ p ∈ todo, p.length < 256 ^ sizeElement := fun p hp ↦
          hf p (htodo ▸ List.mem_append_right _ hp)
        refine ⟨todo, ?_, hal.headerSuccess hframed hw hsig⟩
        rw [Reader.waitSuccess, hi]
        exact htodo
      · -- A refused content read is not clean.
        rw [Reader.waitSuccess, hi] at hclean
        exact (hclean _ (List.mem_append_right _ (List.mem_singleton.2 rfl))).elim

/-- What a wait for the current read owes. -/
theorem Fits.wait_owes (hf : ∀ p ∈ all, p.length < 256 ^ sizeElement) (reply : ReadReply) {ov : Overlapped} (d : ℤ)
    (cs : List WaitEvent) (hw : w.waitable = some ov) (h : w.Fits all rest) :
    (∃ s, (waiter reply ov).wait d cs w = (none, s) ∧
        Accounts all rest { s with stopped := some .waiting }) ∨
      ∃ r s, (waiter reply ov).wait d cs w = (some r, s) ∧
        WaitOwes (Fits all rest) (Accounts all rest) ov r s := by
  have hrule := wait_rule reply ov (A := fun _ ↦ True)
    (I := fun s ↦ s.waitable = some ov ∧ s.Fits all rest)
    (R := WaitOwes (Fits all rest) (Accounts all rest) ov) (w := w) ?_ ?_
    (fun s hs ↦ ⟨⟨hs.1, hs.2, hs.2.accounts⟩, hs.1, hs.2, hs.2.accounts⟩) ?_ d cs (fun _ _ ↦ trivial) ⟨hw, h⟩
  · rcases hrule with ⟨s, hs, -, hI⟩ | hr
    · exact .inl ⟨s, hs, hI.stop (List.prefix_refl _) rfl (Option.some_ne_none _)⟩
    · exact .inr hr
  · rintro s code bytes ⟨hws, hI⟩
    exact ⟨(complete_waitable s code bytes).trans hws, hI.complete⟩
  · rintro s ⟨hws, hI⟩ hsig
    exact (hI.waitSuccess hf hws hsig).accounts
  · rintro s - ⟨-, hI⟩
    refine ⟨rfl, hI.stop (List.prefix_refl _) rfl (Option.some_ne_none _), ?_⟩
    refine hI.stop (respects_grows.disconnect trivial s.waitError).log (disconnect_delivered _) ?_
    exact Option.some_ne_none _

/-- A round of the loop. -/
theorem Fits.iterate (hf : ∀ p ∈ all, p.length < 256 ^ sizeElement) (i : Iteration) (h : w.Fits all rest) :
    (w.iterate i).Accounts all rest := by
  rcases w.iterate_cases i with hi | hi
  · rw [hi]
    exact h.stop (List.prefix_refl _) rfl (Option.some_ne_none _)
  · rw [hi]
    exact await_rule i (fun _ _ d cs hw hI ↦ hI.wait_owes hf i.content d cs hw) (fun _ ↦ (h.advance i).accounts)
      (h.advance i)

/-- **One step** of a reader, while the rest of the stream is still to come. -/
theorem Accounts.step (hf : ∀ p ∈ all, p.length < 256 ^ sizeElement) {l : Label}
    (hstep : w.step l = some w') (h : w.Accounts all rest) : w'.Accounts all rest := by
  obtain ⟨hgo, hcases⟩ := step_cases hstep
  have hfits : w.Fits all rest := by
    intro hclean
    obtain ⟨todo, htodo, -, hal⟩ := h hclean
    exact ⟨todo, htodo, hal hgo⟩
  rcases hcases with ⟨i, -, rfl⟩ | ⟨onMessage, closeCalls, shutdown, rfl⟩
  · exact hfits.iterate hf i
  · intro hclean
    obtain ⟨todo, htodo, hal⟩ := hfits hclean
    exact ⟨todo, htodo, hal.rest_suffix, fun _ ↦ hal.frame onMessage closeCalls shutdown⟩

end Reader

end Datapath.Windows
