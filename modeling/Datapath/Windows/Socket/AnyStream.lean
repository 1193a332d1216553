import Datapath.Lib.Parsing
import Datapath.Windows.Socket.Progress

/-!
# A reader of any stream

`Delivery` is about peers that frame their messages.  A reader takes any peer's bytes for
frames, and there is always a way to do so: what is left when all whole frames have been
taken off is the beginning of one that is still arriving (`exists_frame`).  So a reader
delivers the messages that the bytes parse to, in order, and nothing else
(`delivers_parsed`), and does so to the last of them (`drains_parsed`).
-/

namespace Datapath.Windows

open Datapath.Lib

namespace Reader

variable {bytes next unread : List UInt8} {p : List UInt8} {ps todo : List (List UInt8)}
variable {handle : HANDLE} {onMessage onClose : Event ℕ} {w : Reader} {ts : List (Transition Reader Label)}

/-- The messages that any bytes parse to, and one more that is still arriving. -/
theorem exists_arriving (bytes : List UInt8) : ∃ p unread next, next ≠ [] ∧
    (∀ q ∈ parse sizeElement bytes ++ [p], q.length < 256 ^ sizeElement) ∧
    unread ++ next = Lib.frame sizeElement p ∧
    bytes = wire sizeElement (parse sizeElement bytes) ++ unread := by
  obtain ⟨unread, hbytes, hnot⟩ := wire_parse (w := sizeElement) (by decide) bytes
  obtain ⟨p, next, hp, hnext, hframe⟩ := exists_frame hnot
  refine ⟨p, unread, next, hnext, ?_, hframe, hbytes.symm⟩
  exact List.forall_mem_append.2 ⟨fun q hq ↦ length_lt_of_mem_parse hq, List.forall_mem_singleton.2 hp⟩

/-- A reader accounts for the bytes as for a part of a stream of frames. -/
theorem accounts_parsed (hframed : ∀ q ∈ parse sizeElement bytes ++ [p], q.length < 256 ^ sizeElement)
    (hframe : unread ++ next = Lib.frame sizeElement p)
    (hbytes : bytes = wire sizeElement (parse sizeElement bytes) ++ unread)
    (hrun : Run step (start handle onMessage onClose bytes) ts w) :
    w.Accounts (parse sizeElement bytes ++ [p]) next := by
  have hstream : bytes ++ next = wire sizeElement (parse sizeElement bytes ++ [p]) :=
    calc bytes ++ next
        = (wire sizeElement (parse sizeElement bytes) ++ unread) ++ next := congrArg (· ++ next) hbytes
      _ = wire sizeElement (parse sizeElement bytes ++ [p]) := by
          rw [List.append_assoc, hframe, wire_append, wire_singleton]
  have hstart : (start handle onMessage onClose bytes).Accounts (parse sizeElement bytes ++ [p]) next :=
    Fits.accounts fun _ ↦ ⟨_, rfl, .idle rfl rfl rfl rfl hstream⟩
  exact (hrun.invariant (C := fun _ ↦ True) (fun t hs _ h ↦ h.step hframed hs) hstart
    fun _ _ ↦ trivial).1

/-- The message that is still arriving is not among those delivered. -/
theorem Accounts.arriving (h : w.Accounts (ps ++ [p]) next) (hnext : next ≠ []) (hclean : w.CleanLog) :
    ∃ todo, w.delivered ++ todo = ps ∧ (w.stopped = none → (w.extend next).Aligned (todo ++ [p])) := by
  obtain ⟨todo, htodo, hrest, hal⟩ := h hclean
  rcases List.eq_nil_or_concat todo with rfl | ⟨todo', q, rfl⟩
  · exact absurd (List.suffix_nil.1 hrest) hnext
  · rw [List.concat_eq_append] at hal htodo
    rw [← List.append_assoc] at htodo
    obtain ⟨hps, hq⟩ := List.append_inj' htodo rfl
    cases hq
    exact ⟨todo', hps, hal⟩

/-- **Any stream.**  Whatever bytes come down the pipe, in every run in which the reads that
complete do so without error and in full, the messages delivered are those the bytes parse
to, as far as they go; so framing them again gives the bytes that were taken for them. -/
theorem delivers_parsed (hrun : Run step (start handle onMessage onClose bytes) ts w)
    (hclean : ∀ e ∈ w.log, e.Clean) :
    w.delivered <+: parse sizeElement bytes ∧ wire sizeElement w.delivered <+: bytes := by
  obtain ⟨p, unread, next, hnext, hframed, hframe, hbytes⟩ := exists_arriving bytes
  obtain ⟨todo, htodo, -⟩ := (accounts_parsed hframed hframe hbytes hrun).arriving hnext hclean
  refine ⟨⟨todo, htodo⟩, wire sizeElement todo ++ unread, ?_⟩
  calc wire sizeElement w.delivered ++ (wire sizeElement todo ++ unread)
      = wire sizeElement (w.delivered ++ todo) ++ unread := by rw [wire_append, List.append_assoc]
    _ = bytes := by rw [htodo, ← hbytes]

/-- A peer that has sent a message, and two bytes of the next header. -/
theorem delivers_parsed_garbage : ∃ ts w,
    Run step (start 4 ⟨[0]⟩ ⟨[]⟩ [2, 0, 0, 0, 7, 8, 255, 1]) ts w ∧ w.delivered = [[7, 8]] ∧
      w.delivered <+: parse sizeElement [2, 0, 0, 0, 7, 8, 255, 1] := by
  obtain ⟨ts, w, hrun, hclean, hdel⟩ := Run.exists_of_trace step
    (start 4 ⟨[0]⟩ ⟨[]⟩ [2, 0, 0, 0, 7, 8, 255, 1])
    [.iterate { first := [.completion 0 0 4, .signal] },
      .iterate { first := [.completion 0 0 2, .signal] }, .iterate {}]
    (fun _ w ↦ (∀ e ∈ w.log, e.Clean) ∧ w.delivered = [[7, 8]]) ⟨_, rfl, by decide⟩
  exact ⟨ts, w, hrun, hdel, (delivers_parsed hrun hclean).1⟩

/-! ## To the last message -/

/-- A reader that has a whole frame before it stands in the frames, and what is arriving
follows them. -/
theorem Aligned.truncate {q : List UInt8} (h : (w.extend next).Aligned (q :: (todo ++ [p])))
    (hframe : unread ++ next = Lib.frame sizeElement p) :
    ∃ v : Reader, v.extend unread = w ∧ v.Aligned (q :: todo) := by
  have hcut : ∀ front rest, (w.extend next).stream = front ++ wire sizeElement (rest ++ [p]) →
      w.stream = (front ++ wire sizeElement rest) ++ unread := by
    intro front rest hb
    rw [wire_append, wire_singleton, ← hframe, ← List.append_assoc, ← List.append_assoc] at hb
    exact List.append_cancel_right hb
  have hextend : ∀ stream, w.stream = stream ++ unread →
      ({ w with stream := stream } : Reader).extend unread = w := by
    intro stream hs
    simp only [extend, ← hs]
  cases h with
  | idle hs hw ho hq hb =>
      have hstream := hcut [] (q :: todo) hb
      exact ⟨{ w with stream := wire sizeElement (q :: todo) }, hextend _ hstream, .idle hs hw ho hq rfl⟩
  | header hs hw ho hq hl hb =>
      have hstream := hcut [] (q :: todo) hb
      exact ⟨{ w with stream := wire sizeElement (q :: todo) }, hextend _ hstream,
        .header hs hw ho hq hl rfl⟩
  | headerDone hs hw ho hq hl hb =>
      have hstream := hcut q todo hb
      exact ⟨{ w with stream := q ++ wire sizeElement todo }, hextend _ hstream,
        .headerDone hs hw ho hq hl rfl⟩
  | content hs hw ho hq hl hb =>
      have hstream := hcut q todo hb
      exact ⟨{ w with stream := q ++ wire sizeElement todo }, hextend _ hstream,
        .content hs hw ho hq hl rfl⟩
  | contentDone hs hw ho hq hl hb =>
      have hstream := hcut [] todo hb
      exact ⟨{ w with stream := wire sizeElement todo }, hextend _ hstream,
        .contentDone hs hw ho hq hl rfl⟩
  | held hs hw ho hq hl hb =>
      have hstream := hcut [] todo hb
      exact ⟨{ w with stream := wire sizeElement todo }, hextend _ hstream,
        .held hs hw ho hq hl rfl⟩

/-- **To the last message.**  Whatever bytes come down the pipe, and wherever in them a
reader is that has not stopped and has a listener: two rounds for each message, in which the
pipe gives it what it asks for, also where that is nothing, and it has delivered all that the
bytes parse to. -/
theorem drains_parsed (hrun : Run step (start handle onMessage onClose bytes) ts w)
    (hclean : w.CleanLog) (hattended : w.Attended) :
    ∃ is : List Iteration, ∃ w', Steps step w (is.map .iterate) w' ∧
      is.length ≤ 2 * ((parse sizeElement bytes).length - w.delivered.length) ∧
      w'.delivered = parse sizeElement bytes ∧ w'.CleanLog := by
  obtain ⟨p, unread, next, hnext, hframed, hframe, hbytes⟩ := exists_arriving bytes
  obtain ⟨todo, htodo, hal⟩ := (accounts_parsed hframed hframe hbytes hrun).arriving hnext hclean
  cases todo with
  | nil =>
      rw [List.append_nil] at htodo
      exact ⟨[], w, .nil w, Nat.zero_le _, htodo, hclean⟩
  | cons q todo =>
      obtain ⟨v, rfl, hv⟩ := (hal hattended.going).truncate hframe
      have hmessages : ∀ m ∈ q :: todo, m.length < 256 ^ sizeElement := fun m hm ↦
        hframed m (List.mem_append_left _ (htodo ▸ List.mem_append_right _ hm))
      obtain ⟨is, v', hsteps, hlength, hdrains⟩ :=
        hv.reads_on (hattended.frame rfl rfl rfl rfl rfl) hclean hmessages
      refine ⟨is, v'.extend unread, hsteps unread, ?_, hdrains.delivered.trans htodo, hdrains.clean⟩
      rw [← htodo, List.length_append, Nat.add_sub_cancel_left]
      exact hlength

/-- The same peer: the reader has not begun. -/
theorem drains_parsed_garbage : ∃ (is : List Iteration) (w' : Reader),
    Steps step (start 4 ⟨[0]⟩ ⟨[]⟩ [2, 0, 0, 0, 7, 8, 255, 1]) (is.map .iterate) w' ∧
      w'.delivered = [[7, 8]] := by
  obtain ⟨is, w', hsteps, -, hdelivered, -⟩ := drains_parsed
    (.nil (start 4 ⟨[0]⟩ ⟨[]⟩ [2, 0, 0, 0, 7, 8, 255, 1])) (List.forall_mem_nil _)
    ⟨rfl, ⟨rfl, by decide, rfl⟩, rfl⟩
  have hparse : parse sizeElement (wire sizeElement [[7, 8]] ++ [255, 1]) = [[7, 8]] :=
    parse_wire (by decide) (by decide) (by decide)
  exact ⟨is, w', hsteps, hdelivered.trans hparse⟩

end Reader

end Datapath.Windows
