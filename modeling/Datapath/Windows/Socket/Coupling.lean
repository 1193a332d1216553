import Datapath.Windows.Socket.Alignment

/-!
# The read state, the current read and the buffer

`state`, `waitable` and `read_buffer` are changed by four callbacks and the body of the
loop.  Here it is shown that they belong together at every loop head, whatever becomes of
the reads, and that nobody touches the buffer of a read that is outstanding (`stays_coupled`).

`Alignment` is about the frames in the stream.  Nothing is assumed about these here: the
reads may bring as many bytes as they like.
-/

namespace Datapath.Windows

open Datapath.Lib

/-- The read of a message has completed. -/
def IoEvent.completesContent : IoEvent → Bool
  | .completed .readContent .. => true
  | .completed .readHeader .. | .started .. | .refused .. => false

/-- `ReadFileEx` has been called. -/
def IoEvent.callsReadFileEx : IoEvent → Bool
  | .started .. | .refused .. => true
  | .completed .. => false

/-- What the watcher does to `read_buffer` itself, with the reader that does it. -/
inductive BufferUse where
  | resize (w : Reader)
  /-- `ReadFileEx` is called with `read_buffer`. -/
  | readFileEx (w : Reader)
  /-- A `SIZE_ELEMENT` is taken from the beginning of `read_buffer`. -/
  | header (w : Reader)

/-- `ReadFileEx` is called. -/
def BufferUse.isReadFileEx : BufferUse → Bool
  | .readFileEx _ => true
  | .resize _ | .header _ => false

/-- No read is disturbed, and nothing is read past the end. -/
def BufferUse.Safe : BufferUse → Prop
  | .resize w | .readFileEx w => w.outstanding = []
  | .header w => sizeElement ≤ w.readBuffer.length

namespace Reader

variable {bytes : List UInt8} {w : Reader}

/-! ## Loop heads -/

/-- `waitable` is this read.  It is the last one that was started, for the whole of
`read_buffer`; it is outstanding, or has completed and none is. -/
structure Reads (w : Reader) (ov : Overlapped) : Prop where
  waitable : w.waitable = some ov
  last : (∃ position, [.started ov position w.readBuffer.length] <:+ w.log ∧
      w.outstanding = [⟨ov, w.readBuffer.length⟩]) ∨
    ∃ position code n, [.started ov position w.readBuffer.length,
      .completed ov w.readBuffer.length code n] <:+ w.log ∧ w.outstanding = []

/-- All messages that have been read have been dispatched, but for so many. -/
def Behind (w : Reader) (k : ℕ) : Prop :=
  w.delivered.length + k = w.log.countP IoEvent.completesContent

/-- `read_buffer` holds a message.  The read of a header and one of the whole of
`read_buffer` have completed, and of all messages that have been read only this one has
not been dispatched.  If both reads have brought what they asked for, it is what follows
its header in the stream. -/
structure HoldsMessage (bytes : List UInt8) (w : Reader) : Prop where
  outstanding : w.outstanding = []
  complete : ∃ code n position code' n', [.completed .readHeader sizeElement code n,
      .started .readContent position w.readBuffer.length,
      .completed .readContent w.readBuffer.length code' n'] <:+ w.log ∧
    (n = sizeElement → n' = w.readBuffer.length → ∃ consumed header,
      header.length = sizeElement ∧ ofLE header = w.readBuffer.length ∧
        bytes = consumed ++ header ++ w.readBuffer ++ w.stream)
  undelivered : w.Behind 1

/-- What holds at a loop head, for a reader of `bytes`. -/
structure Coupled (bytes : List UInt8) (w : Reader) : Prop where
  unknown : w.state = .unknown → w.waitable = none ∧ w.outstanding = []
  header : w.state = .header → w.Reads .readHeader ∧ w.readBuffer.length = sizeElement
  content : w.state = .content → w.Reads .readContent ∨ (w.waitable = none ∧ w.HoldsMessage bytes)
  outstanding : w.outstanding.length ≤ 1

/-! ## Uses of the buffer -/

/-- What the header callback does to the buffer. -/
def headerUses (w : Reader) : List BufferUse :=
  let msgSize := ofLE (w.readBuffer.take sizeElement)
  [.header w, .resize w, .readFileEx { w with readBuffer := resize msgSize w.readBuffer }]

/-- What `_on_wait_success` of an overlapped object does to it. -/
def successUses (ov : Overlapped) (w : Reader) : List BufferUse :=
  match ov with
  | .readHeader => w.headerUses
  | .readContent => []

/-- What the first half of the loop body does to it. -/
def advanceUses (w : Reader) : List BufferUse :=
  match w.state with
  | .unknown => [.resize w, .readFileEx { w with readBuffer := resize sizeElement w.readBuffer }]
  | .header | .content => []

/-- `waiter`, with notes of what the callbacks do to it. -/
def notingWaiter (reply : ReadReply) (ov : Overlapped) : Waiter (Reader × List BufferUse) WaitEvent :=
  (waiter reply ov).noting (fun _ _ ↦ []) (successUses ov)

/-- What is done to it in `awaitAgain`. -/
def awaitAgainUses (i : Iteration) (w : Reader) : List BufferUse :=
  match w.waitable with
  | none => []
  | some ov => ((notingWaiter i.content ov).wait 1000000 i.second (w, [])).2.2

/-- What is done to it in `await`. -/
def awaitUses (i : Iteration) (w : Reader) : List BufferUse :=
  match w.waitable with
  | none => []
  | some ov =>
      match (notingWaiter i.content ov).wait 0 i.first (w, []) with
      | (none, _, uses) => uses
      | (some .success, _, uses) => uses
      | (some _, w, uses) => uses ++ w.awaitAgainUses i

/-- What a step does to it. -/
def uses (w : Reader) : Label → List BufferUse
  | .iterate i =>
      if w.shutdown then []
      else if w.socketHandle = invalidHandleValue then []
      else if !w.isConnected then []
      else w.advanceUses ++ (w.advance i).awaitUses i
  | .addListener _ | .clearListeners | .close => []

/-- From `w` to `w'` the watcher has done this to the buffer, and all of it is safe.  No call
of `ReadFileEx` is missing, and without a `resize` the buffer keeps its length. -/
structure Touches (w : Reader) (uses : List BufferUse) (w' : Reader) : Prop where
  calls : w'.log.countP IoEvent.callsReadFileEx =
    w.log.countP IoEvent.callsReadFileEx + uses.countP BufferUse.isReadFileEx
  resizes : (∀ v, .resize v ∉ uses) → w'.readBuffer.length = w.readBuffer.length
  safe : ∀ u ∈ uses, u.Safe

/-! ## Where a reader stands -/

/-- The points of a frame, as in `Aligned`, but with what is known about them whatever the
reads have brought. -/
inductive Stands (bytes : List UInt8) (w : Reader) : Prop
  | idle (hs : w.state = .unknown) (hw : w.waitable = none) (ho : w.outstanding = [])
      (hq : w.signalled = quiet) (hd : w.Behind 0)
  | header {position} (hs : w.state = .header) (hw : w.waitable = some .readHeader)
      (ho : w.outstanding = [⟨.readHeader, sizeElement⟩]) (hq : w.signalled = quiet)
      (hl : w.readBuffer.length = sizeElement)
      (hlog : [.started .readHeader position sizeElement] <:+ w.log) (hd : w.Behind 0)
  | headerDone {position code n} (hs : w.state = .header) (hw : w.waitable = some .readHeader)
      (ho : w.outstanding = []) (hq : w.signalled = only .readHeader)
      (hl : w.readBuffer.length = sizeElement)
      (hlog : [.started .readHeader position sizeElement,
        .completed .readHeader sizeElement code n] <:+ w.log)
      (hb : n = sizeElement → ∃ consumed, bytes = consumed ++ w.readBuffer ++ w.stream) (hd : w.Behind 0)
  | content {code n position} (hs : w.state = .content) (hw : w.waitable = some .readContent)
      (ho : w.outstanding = [⟨.readContent, w.readBuffer.length⟩]) (hq : w.signalled = quiet)
      (hlog : [.completed .readHeader sizeElement code n,
        .started .readContent position w.readBuffer.length] <:+ w.log)
      (hb : n = sizeElement → ∃ consumed header, header.length = sizeElement ∧
        ofLE header = w.readBuffer.length ∧ bytes = consumed ++ header ++ w.stream) (hd : w.Behind 0)
  | contentDone (hs : w.state = .content) (hw : w.waitable = some .readContent)
      (hq : w.signalled = only .readContent) (hm : w.HoldsMessage bytes)
  | held (hs : w.state = .content) (hw : w.waitable = none) (hq : w.signalled = quiet)
      (hm : w.HoldsMessage bytes)

/-- What every step preserves. -/
structure Steady (bytes : List UInt8) (w : Reader) : Prop where
  stands : w.Stands bytes
  stream : w.stream <:+ bytes

/-! ## What holds at each point -/

/-- In the state `Unknown` the reader is between two frames. -/
theorem Stands.of_unknown (h : w.Stands bytes) (hs : w.state = .unknown) :
    w.waitable = none ∧ w.outstanding = [] ∧ w.signalled = quiet ∧ w.Behind 0 := by
  cases h with
  | idle _ hw ho hq hd => exact ⟨hw, ho, hq, hd⟩
  | header h | headerDone h | content h | contentDone h | held h => cases hs.symm.trans h

theorem Stands.of_header (h : w.Stands bytes) (hs : w.state = .header) :
    w.Reads .readHeader ∧ w.readBuffer.length = sizeElement := by
  cases h with
  | @header position _ hw ho _ hl hlog =>
      refine ⟨⟨hw, .inl ⟨position, ?_⟩⟩, hl⟩
      rw [hl]
      exact ⟨hlog, ho⟩
  | @headerDone position code n _ hw ho _ hl hlog =>
      refine ⟨⟨hw, .inr ⟨position, code, n, ?_⟩⟩, hl⟩
      rw [hl]
      exact ⟨hlog, ho⟩
  | idle h | content h | contentDone h | held h => cases hs.symm.trans h

theorem Stands.of_content (h : w.Stands bytes) (hs : w.state = .content) :
    w.Reads .readContent ∨ (w.waitable = none ∧ w.HoldsMessage bytes) := by
  cases h with
  | @content code n position _ hw ho _ hlog =>
      exact .inl ⟨hw, .inl ⟨position, (List.suffix_cons _ _).trans hlog, ho⟩⟩
  | contentDone _ hw _ hm =>
      obtain ⟨code, n, position, code', n', hlog, -⟩ := hm.complete
      exact .inl ⟨hw, .inr ⟨position, code', n', (List.suffix_cons _ _).trans hlog, hm.outstanding⟩⟩
  | held _ hw _ hm => exact .inr ⟨hw, hm⟩
  | idle h | header h | headerDone h => cases hs.symm.trans h

theorem Stands.length_outstanding_le (h : w.Stands bytes) : w.outstanding.length ≤ 1 := by
  cases h with
  | idle _ _ ho | header _ _ ho | headerDone _ _ ho | content _ _ ho =>
      rw [ho]
      simp
  | contentDone _ _ _ hm | held _ _ _ hm =>
      rw [hm.outstanding]
      exact Nat.zero_le 1

theorem Stands.coupled (h : w.Stands bytes) : w.Coupled bytes where
  unknown hs := ⟨(h.of_unknown hs).1, (h.of_unknown hs).2.1⟩
  header := h.of_header
  content := h.of_content
  outstanding := h.length_outstanding_le

theorem Stands.of_held (h : w.Stands bytes) (hh : w.Held) : w.signalled = quiet ∧ w.HoldsMessage bytes := by
  obtain ⟨hs, hw⟩ := hh
  cases h with
  | held _ _ hq hm => exact ⟨hq, hm⟩
  | idle h | header h | headerDone h => cases hs.symm.trans h
  | content _ h | contentDone _ h => cases hw.symm.trans h

/-- Only the completion of a content read leaves the deliveries further behind. -/
theorem behind_append {k : ℕ} {e : IoEvent} {log : List IoEvent} {delivered : List (List UInt8)}
    (he : e.completesContent = false) :
    delivered.length + k = (log ++ [e]).countP IoEvent.completesContent ↔
      delivered.length + k = log.countP IoEvent.completesContent := by
  rw [List.countP_append, List.countP_singleton, he]
  simp

theorem Behind.dispatch (h : w.Behind 1) : w.dispatch.Behind 0 := by
  unfold Behind Reader.dispatch at *
  dsimp only
  rw [List.length_append, List.length_singleton, ← h]

/-! ## Steps that touch the buffer -/

namespace Touches

variable {w' : Reader} {uses : List BufferUse}

/-- A step that does not touch the buffer. -/
theorem of_length (hcalls : w'.log.countP IoEvent.callsReadFileEx = w.log.countP IoEvent.callsReadFileEx)
    (hlength : w'.readBuffer.length = w.readBuffer.length) : Touches w [] w' where
  calls := hcalls
  resizes _ := hlength
  safe := List.forall_mem_nil _

/-- A step that resizes the buffer and calls `ReadFileEx`. -/
theorem of_call {e : IoEvent} (hlog : w'.log = w.log ++ [e]) (he : e.callsReadFileEx = true)
    (huses : uses.countP BufferUse.isReadFileEx = 1) (hresize : .resize w ∈ uses)
    (hsafe : ∀ u ∈ uses, u.Safe) : Touches w uses w' where
  calls := by rw [hlog, List.countP_append, List.countP_singleton, if_pos he, huses]
  resizes hnone := absurd hresize (hnone w)
  safe := hsafe

/-- One step after another. -/
theorem trans {w'' : Reader} {uses' : List BufferUse} (h : Touches w uses w')
    (h' : Touches w' uses' w'') : Touches w (uses ++ uses') w'' where
  calls := by rw [h'.calls, h.calls, List.countP_append, Nat.add_assoc]
  resizes hnone := by
    have hfirst : ∀ v, .resize v ∉ uses := fun v hv ↦ hnone v (List.mem_append_left _ hv)
    have hsecond : ∀ v, .resize v ∉ uses' := fun v hv ↦ hnone v (List.mem_append_right _ hv)
    exact (h'.resizes hsecond).trans (h.resizes hfirst)
  safe := List.forall_mem_append.2 ⟨h.safe, h'.safe⟩

end Touches

/-! ## The first half of the loop body -/

theorem Steady.advance (i : Iteration) (h : w.Steady bytes) : (w.advance i).Steady bytes := by
  rcases advance_cases i w with hi | ⟨hs, hi⟩ | ⟨code, hs, hi⟩ | ⟨hh, -, hi⟩
  · rw [hi]
    exact h
  · obtain ⟨-, ho, hq, hd⟩ := h.stands.of_unknown hs
    rw [hi]
    refine ⟨.header rfl rfl ?_ hq (length_resize _ _) (List.suffix_append _ _) ?_, h.stream⟩
    · simp only [ho, List.nil_append]
    · exact (behind_append rfl).2 hd
  · obtain ⟨-, ho, hq, hd⟩ := h.stands.of_unknown hs
    rw [hi]
    exact ⟨.idle rfl rfl ho hq ((behind_append rfl).2 hd), h.stream⟩
  · obtain ⟨hq, hm⟩ := h.stands.of_held hh
    rw [hi]
    exact ⟨.idle rfl hh.2 hm.outstanding hq hm.undelivered.dispatch, h.stream⟩

theorem Steady.advance_touches (i : Iteration) (h : w.Steady bytes) :
    Touches w w.advanceUses (w.advance i) := by
  cases hs : w.state with
  | unknown =>
      obtain ⟨-, ho, -, -⟩ := h.stands.of_unknown hs
      have hsafe : ∀ u ∈ w.advanceUses, u.Safe := by
        rw [advanceUses, hs]
        exact List.forall_mem_cons.2 ⟨ho, List.forall_mem_singleton.2 ho⟩
      simp only [Reader.advance, advanceUses, readFileEx, hs] at hsafe ⊢
      cases i.header with
      | started => exact .of_call rfl rfl rfl List.mem_cons_self hsafe
      | refused code => exact .of_call rfl rfl rfl List.mem_cons_self hsafe
  | header =>
      simp only [Reader.advance, advanceUses, hs]
      exact .of_length rfl rfl
  | content =>
      simp only [Reader.advance, advanceUses, hs]
      cases w.waitable with
      | some ov => exact .of_length rfl rfl
      | none =>
          cases w.onMessage.toBool with
          | true => exact .of_length rfl rfl
          | false => exact .of_length rfl rfl

/-! ## Completions and signals -/

/-- The only outstanding read completes.  What it leaves in the buffer, and what in the
stream, was in the stream before if it has brought what it asked for. -/
theorem complete_of_single {r : PendingRead} (ho : w.outstanding = [r])
    (hl : w.readBuffer.length = r.size) (code n : ℕ) :
    ∃ readBuffer stream position m, w.complete code n = { w with
        readBuffer, stream, position, outstanding := []
        signalled := Function.update w.signalled r.ov true
        log := w.log ++ [.completed r.ov r.size code m] } ∧
      readBuffer.length = w.readBuffer.length ∧ stream <:+ w.stream ∧
      (m = r.size → w.stream = readBuffer ++ stream) := by
  refine ⟨blit 0 (w.stream.take (min n (min r.size w.stream.length))) w.readBuffer,
    w.stream.drop (min n (min r.size w.stream.length)),
    w.position + min n (min r.size w.stream.length), min n (min r.size w.stream.length),
    by simp only [complete, ho, defIoCompletionRoutine], ?_, List.drop_suffix _ _, fun hm ↦ ?_⟩
  · simp only [blit, List.length_append, List.length_take, List.length_drop]
    omega
  · have hwhole : (w.stream.take r.size).length = w.readBuffer.length := by
      rw [List.length_take, hl]
      omega
    rw [hm, blit_zero hwhole, List.take_append_drop]

theorem Steady.complete (h : w.Steady bytes) (code n : ℕ) : (w.complete code n).Steady bytes := by
  obtain ⟨hstands, hstream⟩ := h
  cases hstands with
  | idle hs hw ho hq hd =>
      rw [complete_of_nil ho]
      exact ⟨.idle hs hw ho hq hd, hstream⟩
  | headerDone hs hw ho hq hl hlog hb hd =>
      rw [complete_of_nil ho]
      exact ⟨.headerDone hs hw ho hq hl hlog hb hd, hstream⟩
  | contentDone hs hw hq hm =>
      rw [complete_of_nil hm.outstanding]
      exact ⟨.contentDone hs hw hq hm, hstream⟩
  | held hs hw hq hm =>
      rw [complete_of_nil hm.outstanding]
      exact ⟨.held hs hw hq hm, hstream⟩
  | header hs hw ho hq hl hlog hd =>
      obtain ⟨readBuffer, stream, position, m, heq, hlength, hsuffix, hwhole⟩ :=
        complete_of_single ho hl code n
      rw [heq]
      refine ⟨.headerDone hs hw rfl (by rw [hq]; rfl) (hlength.trans hl)
        (List.suffix_append_self_iff.2 hlog) (fun hm ↦ ?_) ((behind_append rfl).2 hd),
        hsuffix.trans hstream⟩
      obtain ⟨consumed, hconsumed⟩ := hstream
      exact ⟨consumed, by rw [← hconsumed, hwhole hm, List.append_assoc]⟩
  | @content code' n' position' hs hw ho hq hlog hb hd =>
      obtain ⟨readBuffer, stream, position, m, heq, hlength, hsuffix, hwhole⟩ :=
        complete_of_single ho rfl code n
      rw [heq]
      refine ⟨.contentDone hs hw (by rw [hq]; rfl) ⟨rfl, ⟨code', n', position', code, m, ?_⟩, ?_⟩,
        hsuffix.trans hstream⟩
      · dsimp only
        rw [hlength]
        refine ⟨List.suffix_append_self_iff.2 hlog, fun hn hm ↦ ?_⟩
        obtain ⟨consumed, header, hheader, hsize, hbytes⟩ := hb hn
        exact ⟨consumed, header, hheader, hsize, by rw [hbytes, hwhole hm, ← List.append_assoc]⟩
      · unfold Behind at hd ⊢
        dsimp only
        rw [List.countP_append, ← hd]
        rfl

/-- A read that completes fills the buffer, and leaves its length. -/
theorem Steady.complete_touches (h : w.Steady bytes) (code n : ℕ) :
    Touches w [] (w.complete code n) := by
  have hsingle : ∀ {r : PendingRead}, w.outstanding = [r] → w.readBuffer.length = r.size →
      Touches w [] (w.complete code n) := by
    intro r ho hl
    obtain ⟨readBuffer, stream, position, m, heq, hlength, -, -⟩ := complete_of_single ho hl code n
    rw [heq]
    refine .of_length ?_ hlength
    rw [List.countP_append]
    rfl
  cases h.stands with
  | header _ _ ho _ hl => exact hsingle ho hl
  | content _ _ ho => exact hsingle ho rfl
  | idle _ _ ho | headerDone _ _ ho =>
      rw [complete_of_nil ho]
      exact .of_length rfl rfl
  | contentDone _ _ _ hm | held _ _ _ hm =>
      rw [complete_of_nil hm.outstanding]
      exact .of_length rfl rfl

/-! ## The callbacks -/

/-- A signalled header read has completed, and the buffer is as long as a header. -/
theorem Stands.of_header_signalled (h : w.Stands bytes) (hw : w.waitable = some .readHeader)
    (hsig : w.signalled .readHeader = true) :
    w.outstanding = [] ∧ w.signalled = only .readHeader ∧ w.readBuffer.length = sizeElement ∧
      w.Behind 0 ∧ ∃ code n, [.completed .readHeader sizeElement code n] <:+ w.log ∧
        (n = sizeElement → ∃ consumed, bytes = consumed ++ w.readBuffer ++ w.stream) := by
  cases h with
  | idle _ hw' | held _ hw' | content _ hw' | contentDone _ hw' => cases hw.symm.trans hw'
  | header _ _ _ hq =>
      rw [hq] at hsig
      cases hsig
  | @headerDone position code n _ _ ho hq hl hlog hb hd =>
      exact ⟨ho, hq, hl, hd, code, n, (List.suffix_cons _ _).trans hlog, hb⟩

/-- A signalled content read has completed, and the buffer holds a message. -/
theorem Stands.of_content_signalled (h : w.Stands bytes) (hw : w.waitable = some .readContent)
    (hsig : w.signalled .readContent = true) :
    w.state = .content ∧ w.signalled = only .readContent ∧ w.HoldsMessage bytes := by
  cases h with
  | idle _ hw' | held _ hw' | header _ hw' | headerDone _ hw' => cases hw.symm.trans hw'
  | content _ _ _ hq =>
      rw [hq] at hsig
      cases hsig
  | contentDone hs _ hq hm => exact ⟨hs, hq, hm⟩

theorem resetEvent_signalled {ov : Overlapped} (hq : w.signalled = only ov) :
    (w.resetEvent ov).signalled = quiet := by
  rw [resetEvent, hq]
  exact only_reset ov

/-- The header callback reads on behind the header, or goes back to the state `Unknown`. -/
theorem Steady.headerSuccess (h : w.Steady bytes) (hw : w.waitable = some .readHeader)
    (hsig : w.signalled .readHeader = true) (reply : ReadReply) :
    ((w.resetEvent .readHeader).headerSuccess reply).Steady bytes := by
  obtain ⟨ho, hq, hl, hd, code, n, hlog, hb⟩ := h.stands.of_header_signalled hw hsig
  have hquiet := resetEvent_signalled hq
  rcases headerSuccess_cases reply (w.resetEvent .readHeader) with ⟨-, hi⟩ | ⟨code', -, hi⟩
  · have htake : w.readBuffer.take sizeElement = w.readBuffer :=
      List.take_of_length_le (Nat.le_of_eq hl)
    have hsize : (resize (ofLE w.readBuffer) w.readBuffer).length = ofLE w.readBuffer :=
      length_resize _ _
    rw [hi]
    simp only [resetEvent, htake, ho, List.nil_append]
    refine ⟨@Stands.content _ _ code n w.position rfl rfl ?_ hquiet ?_ (fun hn ↦ ?_)
      ((behind_append rfl).2 hd), h.stream⟩
    · dsimp only
      rw [hsize]
    · dsimp only
      rw [hsize]
      exact List.suffix_append_self_iff.2 hlog
    · obtain ⟨consumed, hbytes⟩ := hb hn
      exact ⟨consumed, w.readBuffer, hl, hsize.symm, hbytes⟩
  · rw [hi]
    exact ⟨.idle rfl rfl ho hquiet ((behind_append rfl).2 hd), h.stream⟩

/-- The header callback uses a buffer that no read is writing to, and that holds a header. -/
theorem headerSuccess_touches (ho : w.outstanding = []) (hl : sizeElement ≤ w.readBuffer.length)
    (reply : ReadReply) : Touches w w.headerUses (w.headerSuccess reply) := by
  have hsafe : ∀ u ∈ w.headerUses, u.Safe := by
    unfold headerUses
    exact List.forall_mem_cons.2 ⟨hl, List.forall_mem_cons.2 ⟨ho, List.forall_mem_singleton.2 ho⟩⟩
  have hresize : .resize w ∈ w.headerUses := List.mem_cons_of_mem _ List.mem_cons_self
  rcases headerSuccess_cases reply w with ⟨-, hi⟩ | ⟨code, -, hi⟩
  · rw [hi]
    exact .of_call rfl rfl rfl hresize hsafe
  · rw [hi]
    exact .of_call rfl rfl rfl hresize hsafe

/-- The content callback dispatches the message, or leaves it in the buffer. -/
theorem Steady.contentSuccess (h : w.Steady bytes) (hw : w.waitable = some .readContent)
    (hsig : w.signalled .readContent = true) :
    (w.resetEvent .readContent).contentSuccess.Steady bytes := by
  obtain ⟨hs, hq, hm⟩ := h.stands.of_content_signalled hw hsig
  have hquiet := resetEvent_signalled hq
  cases hlisten : w.onMessage.toBool with
  | true =>
      simp only [Reader.contentSuccess, resetEvent, hlisten, if_true]
      exact ⟨.idle rfl rfl hm.outstanding hquiet hm.undelivered.dispatch, h.stream⟩
  | false =>
      simp only [Reader.contentSuccess, resetEvent, hlisten, Bool.false_eq_true, if_false]
      exact ⟨.held hs rfl hquiet ⟨hm.outstanding, hm.complete, hm.undelivered⟩, h.stream⟩

theorem contentSuccess_touches (w : Reader) : Touches w [] w.contentSuccess := by
  unfold contentSuccess
  cases w.onMessage.toBool with
  | true => exact .of_length rfl rfl
  | false => exact .of_length rfl rfl

/-- The callback of the read that is waited for. -/
theorem Steady.waitSuccess {ov : Overlapped} (h : w.Steady bytes) (hw : w.waitable = some ov)
    (hsig : w.signalled ov = true) (reply : ReadReply) :
    ((w.resetEvent ov).waitSuccess reply ov).Steady bytes ∧
      Touches (w.resetEvent ov) ((w.resetEvent ov).successUses ov)
        ((w.resetEvent ov).waitSuccess reply ov) := by
  cases ov with
  | readHeader =>
      obtain ⟨ho, -, hl, -⟩ := h.stands.of_header_signalled hw hsig
      have htouches := headerSuccess_touches (w := w.resetEvent .readHeader) ho (Nat.le_of_eq hl.symm) reply
      exact ⟨h.headerSuccess hw hsig reply, htouches⟩
  | readContent => exact ⟨h.contentSuccess hw hsig, contentSuccess_touches _⟩

/-! ## Waiting for a read -/

/-- What a wait for this read leaves behind.  A wait that is abandoned leaves no current
read; all others that do not succeed leave the one that they were for. -/
def Awaited (bytes : List UInt8) (ov : Overlapped) : error → Reader → Prop
  | .success, w => w.Steady bytes
  | .closed, w => w.waitable = none
  | _, w => w.waitable = some ov ∧ w.Steady bytes

/-- A wait with notes. -/
theorem Steady.notingWait {ov : Overlapped} (h : w.Steady bytes) (hw : w.waitable = some ov)
    (reply : ReadReply) (d : ℤ) (cs : List WaitEvent) :
    (∃ s, (notingWaiter reply ov).wait d cs (w, []) = (none, s) ∧ Touches w s.2 s.1) ∨
      ∃ r s, (notingWaiter reply ov).wait d cs (w, []) = (some r, s) ∧
        Awaited bytes ov r s.1 ∧ Touches w s.2 s.1 := by
  have hrule := (notingWaiter reply ov).waitLoop_rule (A := fun _ ↦ True)
    (I := fun s ↦ s.1.waitable = some ov ∧ s.1.Steady bytes ∧ Touches w s.2 s.1)
    (R := fun r s ↦ Awaited bytes ov r s.1 ∧ Touches w s.2 s.1) ?_
    (Waiter.clampTimeout (Waiter.toMilliseconds d)) cs (fun _ _ ↦ trivial) (s := (w, []))
    ⟨hw, h, .of_length rfl rfl⟩
  · rcases hrule with ⟨s, hs, -, -, htouches⟩ | hreturned
    · exact .inl ⟨s, hs, htouches⟩
    · exact .inr hreturned
  · rintro c t ⟨s, uses⟩ - ⟨hws, hI, htouches⟩
    -- What comes after this touches the buffer in its own ways.
    have hnone : ∀ {w'}, Touches s [] w' → Touches w uses w' := fun {w'} h' ↦
      List.append_nil uses ▸ htouches.trans h'
    cases c with
    | completion elapsed code n =>
        simp only [notingWaiter, Waiter.noting, waiter, Waiter.Owes, List.append_nil]
        exact ⟨(complete_waitable s code n).trans hws, hI.complete code n, hnone (hI.complete_touches code n)⟩
    | interruption elapsed =>
        simp only [notingWaiter, Waiter.noting, waiter, Waiter.Owes, List.append_nil]
        exact ⟨hws, hI, htouches⟩
    | timeout | failed =>
        simp only [notingWaiter, Waiter.noting, waiter, Waiter.Owes, List.append_nil]
        exact ⟨⟨hws, hI⟩, htouches⟩
    | abandoned =>
        simp only [notingWaiter, Waiter.noting, waiter, Waiter.Owes, List.append_nil]
        exact ⟨rfl, hnone (.of_length rfl rfl)⟩
    | signal =>
        by_cases hsig : s.signalled ov = true
        · obtain ⟨hsteady, hsuccess⟩ := hI.waitSuccess hws hsig reply
          have hreset : Touches w uses (s.resetEvent ov) := hnone (.of_length rfl rfl)
          simp only [notingWaiter, Waiter.noting, waiter, Waiter.Owes, hsig, if_true, List.append_nil]
          exact ⟨hsteady, hreset.trans hsuccess⟩
        · simp only [notingWaiter, Waiter.noting, waiter, Waiter.Owes, hsig, List.append_nil]
          exact ⟨⟨hws, hI⟩, htouches⟩

/-- The same wait without notes ends in the same way. -/
theorem Steady.wait {ov : Overlapped} (h : w.Steady bytes) (hw : w.waitable = some ov)
    (reply : ReadReply) (d : ℤ) (cs : List WaitEvent) :
    ∃ s uses, Touches w uses s ∧
      (((notingWaiter reply ov).wait d cs (w, []) = (none, s, uses) ∧
          (waiter reply ov).wait d cs w = (none, s)) ∨
        ∃ r, (notingWaiter reply ov).wait d cs (w, []) = (some r, s, uses) ∧
          (waiter reply ov).wait d cs w = (some r, s) ∧ Awaited bytes ov r s) := by
  have hsame : ((notingWaiter reply ov).wait d cs (w, [])).1 = ((waiter reply ov).wait d cs w).1 ∧
      ((notingWaiter reply ov).wait d cs (w, [])).2.1 = ((waiter reply ov).wait d cs w).2 :=
    (waiter reply ov).waitLoop_noting (fun _ _ ↦ []) (successUses ov) cs _ w []
  rcases h.notingWait hw reply d cs with
    ⟨⟨s, uses⟩, hs, htouches⟩ | ⟨r, ⟨s, uses⟩, hs, hr, htouches⟩
  · rw [hs] at hsame
    exact ⟨s, uses, htouches, .inl ⟨hs, Prod.ext hsame.1.symm hsame.2.symm⟩⟩
  · rw [hs] at hsame
    exact ⟨s, uses, htouches, .inr ⟨r, hs, Prod.ext hsame.1.symm hsame.2.symm, hr⟩⟩

/-- `_disconnect` leaves the buffer alone. -/
theorem disconnect_touches (w : Reader) : Touches w [] w.disconnect := by
  unfold disconnect
  cases w.onClose.toBool with
  | true => exact .of_length rfl rfl
  | false => exact .of_length rfl rfl

/-- The second wait.  It is called through no object, and does not return, if the first one
has been abandoned. -/
theorem Steady.awaitAgain (i : Iteration) (h : w.waitable ≠ none → w.Steady bytes) :
    ((w.awaitAgain i).stopped = none → (w.awaitAgain i).Steady bytes) ∧
      Touches w (w.awaitAgainUses i) (w.awaitAgain i) := by
  cases hw : w.waitable with
  | none =>
      simp only [Reader.awaitAgain, awaitAgainUses, hw]
      exact ⟨fun hgo ↦ absurd hgo (Option.some_ne_none _), .of_length rfl rfl⟩
  | some ov =>
      have hsteady := h (by rw [hw]; exact Option.some_ne_none ov)
      obtain ⟨s, uses, htouches, ⟨hnoting, hs⟩ | ⟨r, hnoting, hs, hr⟩⟩ :=
        hsteady.wait hw i.content 1000000 i.second
      · simp only [Reader.awaitAgain, awaitAgainUses, hw, hnoting, hs]
        exact ⟨fun hgo ↦ absurd hgo (Option.some_ne_none _),
          htouches.calls, htouches.resizes, htouches.safe⟩
      · simp only [Reader.awaitAgain, awaitAgainUses, hw, hnoting, hs]
        cases r with
        | success => exact ⟨fun _ ↦ hr, htouches⟩
        | closed =>
            have hdisconnect : Touches w (uses ++ []) s.disconnect := htouches.trans s.disconnect_touches
            rw [List.append_nil] at hdisconnect
            exact ⟨fun hgo ↦ absurd hgo (Option.some_ne_none _), hdisconnect⟩
        | unknown | failure | criticalFailure | timedOut | invalidPath | notSupported =>
            exact ⟨fun _ ↦ hr.2, htouches⟩

/-- The second half of the loop body. -/
theorem Steady.await (i : Iteration) (h : w.Steady bytes) :
    ((w.await i).stopped = none → (w.await i).Steady bytes) ∧
      Touches w (w.awaitUses i) (w.await i) := by
  cases hw : w.waitable with
  | none =>
      simp only [Reader.await, awaitUses, hw]
      exact ⟨fun _ ↦ h, .of_length rfl rfl⟩
  | some ov =>
      obtain ⟨s, uses, htouches, ⟨hnoting, hs⟩ | ⟨r, hnoting, hs, hr⟩⟩ :=
        h.wait hw i.content 0 i.first
      · simp only [Reader.await, awaitUses, hw, hnoting, hs]
        exact ⟨fun hgo ↦ absurd hgo (Option.some_ne_none _),
          htouches.calls, htouches.resizes, htouches.safe⟩
      · simp only [Reader.await, awaitUses, hw, hnoting, hs]
        cases r with
        | success => exact ⟨fun _ ↦ hr, htouches⟩
        | closed =>
            obtain ⟨hgo, hagain⟩ := Steady.awaitAgain i fun hne ↦ absurd hr hne
            exact ⟨hgo, htouches.trans hagain⟩
        | unknown | failure | criticalFailure | timedOut | invalidPath | notSupported =>
            obtain ⟨hgo, hagain⟩ := Steady.awaitAgain i fun _ ↦ hr.2
            exact ⟨hgo, htouches.trans hagain⟩

/-! ## Runs -/

/-- A round of the loop. -/
theorem Steady.iterate (i : Iteration) (h : w.Steady bytes) :
    ((w.iterate i).stopped = none → (w.iterate i).Steady bytes) ∧
      Touches w (w.uses (.iterate i)) (w.iterate i) := by
  obtain ⟨hsteady, hawait⟩ := (h.advance i).await i
  have hfinished : ({ w with stopped := some .finished }.stopped = none →
      Steady bytes { w with stopped := some .finished }) ∧
      Touches w [] { w with stopped := some .finished } :=
    ⟨fun hgo ↦ absurd hgo (Option.some_ne_none _), .of_length rfl rfl⟩
  simp only [Reader.iterate, uses]
  split
  · exact hfinished
  · split
    · exact hfinished
    · split
      · exact hfinished
      · exact ⟨hsteady, (h.advance_touches i).trans hawait⟩

/-- Listeners coming and going, and another thread closing the socket. -/
theorem Steady.frame (h : w.Steady bytes) (onMessage : Event ℕ) (closeCalls : ℕ) (shutdown : Bool) :
    Steady bytes { w with onMessage := onMessage, closeCalls := closeCalls, shutdown := shutdown } := by
  obtain ⟨hstands, hstream⟩ := h
  refine ⟨?_, hstream⟩
  cases hstands with
  | idle hs hw ho hq hd => exact .idle hs hw ho hq hd
  | header hs hw ho hq hl hlog hd => exact .header hs hw ho hq hl hlog hd
  | headerDone hs hw ho hq hl hlog hb hd => exact .headerDone hs hw ho hq hl hlog hb hd
  | content hs hw ho hq hlog hb hd => exact .content hs hw ho hq hlog hb hd
  | contentDone hs hw hq hm => exact .contentDone hs hw hq ⟨hm.outstanding, hm.complete, hm.undelivered⟩
  | held hs hw hq hm => exact .held hs hw hq ⟨hm.outstanding, hm.complete, hm.undelivered⟩

/-- One step of a reader. -/
theorem Steady.step {l : Label} {w' : Reader} (hstep : w.step l = some w') (h : w.Steady bytes) :
    (w'.stopped = none → w'.Steady bytes) ∧ Touches w (w.uses l) w' := by
  cases l with
  | iterate i =>
      rw [step_iterate hstep]
      exact h.iterate i
  | addListener | clearListeners | close =>
      obtain ⟨-, ⟨i, hi, -⟩ | ⟨onMessage, closeCalls, shutdown, rfl⟩⟩ := step_cases hstep
      · cases hi
      · exact ⟨fun _ ↦ h.frame _ _ _, .of_length rfl rfl⟩

theorem Steady.start (handle : HANDLE) (onMessage onClose : Event ℕ) (bytes : List UInt8) :
    (Reader.start handle onMessage onClose bytes).Steady bytes :=
  ⟨.idle rfl rfl rfl rfl rfl, List.suffix_refl _⟩

/-- **The read state, the current read and the buffer belong together.**  In every run, the
reader is coupled at every loop head, and whatever its steps do to `read_buffer` is safe. -/
theorem stays_coupled {handle : HANDLE} {onMessage onClose : Event ℕ} {ts : List (Transition Reader Label)}
    (hrun : Run Reader.step (Reader.start handle onMessage onClose bytes) ts w) :
    (w.stopped = none → w.Coupled bytes) ∧
      ∀ t ∈ ts, t.src.Coupled bytes ∧ Touches t.src (t.src.uses t.label) t.dst := by
  obtain ⟨hlast, hall⟩ := hrun.invariant (I := fun w ↦ w.stopped = none → w.Steady bytes)
    (C := fun _ ↦ True) (fun t hs _ hI ↦ (Steady.step hs (hI (step_cases hs).1)).1)
    (fun _ ↦ Steady.start handle onMessage onClose bytes) fun _ _ ↦ trivial
  refine ⟨fun hgo ↦ (hlast hgo).stands.coupled, fun t ht ↦ ?_⟩
  have hs := hrun.step_of_mem ht
  have hsteady := (hall t ht).1 (step_cases hs).1
  exact ⟨hsteady.stands.coupled, (Steady.step hs hsteady).2⟩

/-- After a wait that fails and one that times out, a message is read and held. -/
theorem stays_coupled_holding : ∃ ts w, Run step (start 4 ⟨[]⟩ ⟨[]⟩ (sent [[7, 8]])) ts w ∧
    w.Held ∧ w.readBuffer = [7, 8] ∧ w.Coupled (sent [[7, 8]]) ∧
      ∀ t ∈ ts, t.src.Coupled (sent [[7, 8]]) ∧ Touches t.src (t.src.uses t.label) t.dst := by
  obtain ⟨ts, w, hrun, hgo, hheld, hbuffer⟩ := Run.exists_of_trace step
    (start 4 ⟨[]⟩ ⟨[]⟩ (sent [[7, 8]]))
    [.iterate { header := .refused 5 }, .iterate { first := [.failed], second := [.timeout] },
      .addListener 0, .iterate { first := [.completion 0 0 4, .signal] }, .clearListeners,
      .iterate { first := [.timeout], second := [.completion 0 0 2, .signal] }]
    (fun _ w ↦ w.stopped = none ∧ w.Held ∧ w.readBuffer = [7, 8])
    ⟨_, rfl, rfl, ⟨rfl, rfl⟩, by decide⟩
  exact ⟨ts, w, hrun, hheld, hbuffer, (stays_coupled hrun).1 hgo, (stays_coupled hrun).2⟩

end Reader

end Datapath.Windows
