import Datapath.Windows.Socket.Watcher

/-!
# The reader and the frames

The read state, the `waitable` pointer, the buffer and the position in the stream
are four variables that the loop and its callbacks change at different moments.
This file says how they belong together.  `Aligned w todo` holds when the reader
stands at one of six points of the frame of the first message of `todo`; the
stream it still has to read is then exactly the rest of the frames.

Two kinds of event make the reader lose the frame: a header read that completed
with an error and too few bytes, whose buffer is taken for a length all the same,
and a content read that `ReadFileEx` refused after its header had been consumed.  From then on
the reader is `Lost`.  That alone does no harm: a lost reader delivers nothing
until it starts a content read again.  `Orderly` is the condition on a log that
excludes this, and `Inv` is what every run with an orderly log preserves.
-/

namespace Datapath.Windows

open Datapath.Lib

/-! ## Logs -/

namespace IoEvent

/-- A read that completed without error transferred what was asked for. -/
def Whole : IoEvent → Prop
  | .completed _ size dwErrorCode n => dwErrorCode = errorSuccess → n = size
  | .started .. | .refused .. => True

/-- A content read completed with an error and fewer bytes than were asked for. -/
def ContentFails : IoEvent → Prop
  | .completed .readContent size dwErrorCode n => dwErrorCode ≠ errorSuccess ∧ n < size
  | .completed .readHeader .. | .started .. | .refused .. => False

/-- The header of a frame was consumed or damaged, and its content will not be
read. -/
def LosesFrame : IoEvent → Prop
  | .completed .readHeader size dwErrorCode n => dwErrorCode ≠ errorSuccess ∧ n < size
  | .refused .readContent _ => True
  | .completed .readContent .. | .refused .readHeader _ | .started .. => False

/-- A content read was started. -/
def StartsContent : IoEvent → Prop
  | .started .readContent _ _ => True
  | .started .readHeader .. | .completed .. | .refused .. => False

instance : DecidablePred Whole
  | .completed _ size dwErrorCode n => inferInstanceAs (Decidable (dwErrorCode = errorSuccess → n = size))
  | .started .. | .refused .. => .isTrue trivial

instance : DecidablePred ContentFails
  | .completed .readContent size dwErrorCode n =>
      inferInstanceAs (Decidable (dwErrorCode ≠ errorSuccess ∧ n < size))
  | .completed .readHeader .. | .started .. | .refused .. => .isFalse id

instance : DecidablePred LosesFrame
  | .completed .readHeader size dwErrorCode n =>
      inferInstanceAs (Decidable (dwErrorCode ≠ errorSuccess ∧ n < size))
  | .refused .readContent _ => .isTrue trivial
  | .completed .readContent .. | .refused .readHeader _ | .started .. => .isFalse id

instance : DecidablePred StartsContent
  | .started .readContent _ _ => .isTrue trivial
  | .started .readHeader .. | .completed .. | .refused .. => .isFalse id

end IoEvent

/-- No content read fails, and none is started once a frame has been lost. -/
structure Orderly (log : List IoEvent) : Prop where
  whole : ∀ e ∈ log, e.Whole
  content : ∀ e ∈ log, ¬ e.ContentFails
  lost : log.Pairwise fun a b ↦ a.LosesFrame → ¬ b.StartsContent

/-- What happened so far was orderly if all of it was. -/
theorem Orderly.mono {log log' : List IoEvent} (h : Orderly log') (hp : log <+: log') :
    Orderly log where
  whole e he := h.whole e (hp.subset he)
  content e he := h.content e (hp.subset he)
  lost := h.lost.sublist hp.sublist

theorem Orderly.last_whole {log : List IoEvent} {e : IoEvent} (h : Orderly (log ++ [e])) : e.Whole :=
  h.whole e (by simp)

theorem Orderly.last_content {log : List IoEvent} {e : IoEvent} (h : Orderly (log ++ [e])) :
    ¬ e.ContentFails := h.content e (by simp)

/-- After a lost frame no content read starts. -/
theorem Orderly.last_lost {log : List IoEvent} {a e : IoEvent} (h : Orderly (log ++ [e]))
    (ha : a ∈ log) (hl : a.LosesFrame) : ¬ e.StartsContent :=
  (List.pairwise_append.1 h.lost).2.2 a ha e (by simp) hl

namespace Reader

/-! ## Where a reader stands -/

/-- No event is signalled. -/
def quiet : Overlapped → Bool := fun _ ↦ false

/-- Only the event of one overlapped object is signalled. -/
def only (ov : Overlapped) : Overlapped → Bool := Function.update quiet ov true

@[simp] theorem quiet_apply (ov : Overlapped) : quiet ov = false := rfl

/-- Consuming the one signal leaves none. -/
theorem only_reset (ov : Overlapped) : Function.update (only ov) ov false = quiet := by
  rw [only, Function.update_idem]
  exact Function.update_eq_self ov quiet

/-- The reader stands in the frame of the first message of `todo`, and the stream
holds what is left of the frames of `todo`. -/
inductive Aligned (w : Reader) : List (List UInt8) → Prop
  /-- Between two frames. -/
  | idle {todo} (hs : w.state = .unknown) (hw : w.waitable = none) (ho : w.outstanding = [])
      (hq : w.signalled = quiet) (hb : w.stream = wire sizeElement todo) : Aligned w todo
  /-- The header read is outstanding. -/
  | header {todo} (hs : w.state = .header) (hw : w.waitable = some .readHeader)
      (ho : w.outstanding = [⟨.readHeader, sizeElement⟩]) (hq : w.signalled = quiet)
      (hl : w.readBuffer.length = sizeElement) (hb : w.stream = wire sizeElement todo) :
      Aligned w todo
  /-- The header read has completed, and its callback has not run. -/
  | headerDone {p rest} (hs : w.state = .header) (hw : w.waitable = some .readHeader)
      (ho : w.outstanding = []) (hq : w.signalled = only .readHeader)
      (hl : w.readBuffer = toLE sizeElement p.length)
      (hb : w.stream = p ++ wire sizeElement rest) : Aligned w (p :: rest)
  /-- The content read is outstanding. -/
  | content {p rest} (hs : w.state = .content) (hw : w.waitable = some .readContent)
      (ho : w.outstanding = [⟨.readContent, p.length⟩]) (hq : w.signalled = quiet)
      (hl : w.readBuffer.length = p.length) (hb : w.stream = p ++ wire sizeElement rest) :
      Aligned w (p :: rest)
  /-- The content read has completed, and its callback has not run. -/
  | contentDone {p rest} (hs : w.state = .content) (hw : w.waitable = some .readContent)
      (ho : w.outstanding = []) (hq : w.signalled = only .readContent) (hl : w.readBuffer = p)
      (hb : w.stream = wire sizeElement rest) : Aligned w (p :: rest)
  /-- The message is in the buffer, waiting for a listener. -/
  | held {p rest} (hs : w.state = .content) (hw : w.waitable = none) (ho : w.outstanding = [])
      (hq : w.signalled = quiet) (hl : w.readBuffer = p) (hb : w.stream = wire sizeElement rest) :
      Aligned w (p :: rest)

/-- The reader has lost the frame and has no content read. -/
structure Lost (w : Reader) : Prop where
  state : w.state ≠ .content
  waitable : w.waitable ≠ some .readContent
  signalled : w.signalled .readContent = false
  outstanding : ∀ r ∈ w.outstanding, r.ov = .readHeader
  why : ∃ e ∈ w.log, e.LosesFrame

/-- What a reader that has not stopped keeps: the messages delivered and those
still to come are the ones sent, and the reader stands in the next of these or is
lost. -/
def Inv (payloads : List (List UInt8)) (w : Reader) : Prop :=
  ∃ todo, w.delivered ++ todo = payloads ∧ (w.Aligned todo ∨ w.Lost)

theorem Inv.delivers {payloads : List (List UInt8)} {w : Reader} (h : Inv payloads w) :
    w.delivered <+: payloads := by
  obtain ⟨todo, htodo, -⟩ := h
  exact ⟨todo, htodo⟩

variable {payloads todo : List (List UInt8)} {w : Reader}

/-- An aligned reader in state `Unknown` is between two frames. -/
theorem Aligned.of_unknown (h : w.Aligned todo) (hs : w.state = .unknown) :
    w.waitable = none ∧ w.outstanding = [] ∧ w.signalled = quiet ∧
      w.stream = wire sizeElement todo := by
  cases h with
  | idle _ hw ho hq hb => exact ⟨hw, ho, hq, hb⟩
  | header h | headerDone h | content h | contentDone h | held h => rw [hs] at h; cases h

/-- A held message is the next one. -/
theorem Aligned.of_held (h : w.Aligned todo) (hh : w.Held) :
    ∃ rest, todo = w.readBuffer :: rest ∧ w.outstanding = [] ∧ w.signalled = quiet ∧
      w.stream = wire sizeElement rest := by
  obtain ⟨hs, hw⟩ := hh
  cases h with
  | @held p rest _ _ ho hq hl hb => exact ⟨rest, by rw [hl], ho, hq, hb⟩
  | idle h | header h | headerDone h => rw [hs] at h; cases h
  | content _ h | contentDone _ h => rw [hw] at h; cases h

/-- A lost reader holds no message. -/
theorem Lost.not_held (h : w.Lost) : ¬ w.Held := fun hh ↦ h.state hh.1

/-! ## The loop body -/

/-- What the first half of the loop body can do: nothing, start a header read, be
refused one, or dispatch a held message. -/
theorem advance_cases (i : Iteration) (w : Reader) :
    w.advance i = w ∨
    (w.state = .unknown ∧ w.advance i =
      { w with
        readBuffer := resize sizeElement w.readBuffer
        outstanding := w.outstanding ++ [⟨.readHeader, sizeElement⟩]
        log := w.log ++ [.started .readHeader w.position sizeElement]
        state := .header
        waitable := some .readHeader }) ∨
    (∃ code, w.state = .unknown ∧ w.advance i =
      { w with
        readBuffer := resize sizeElement w.readBuffer
        log := w.log ++ [.refused .readHeader code]
        state := .unknown
        waitable := none }) ∨
    (w.Held ∧ w.onMessage.toBool = true ∧
      w.advance i = { w with delivered := w.delivered ++ [w.readBuffer], state := .unknown }) := by
  cases hs : w.state with
  | unknown =>
      cases hr : i.header with
      | started => exact .inr (.inl ⟨rfl, by simp [advance, hs, hr, readFileEx]⟩)
      | refused code => exact .inr (.inr (.inl ⟨code, rfl, by simp [advance, hs, hr, readFileEx]⟩))
  | header => exact .inl (by simp only [advance, hs])
  | content =>
      cases hw : w.waitable with
      | some ov => exact .inl (by simp only [advance, hs, hw])
      | none =>
          cases hm : w.onMessage.toBool with
          | false => exact .inl (by simp [advance, hs, hw, hm])
          | true => exact .inr (.inr (.inr ⟨⟨hs, hw⟩, rfl, by simp [advance, hs, hw, hm, dispatch]⟩))

/-- In the first half of the loop body an aligned reader stays aligned; it may dispatch
the message it holds. -/
theorem Aligned.advance (i : Iteration) (h : w.Aligned todo) :
    ∃ todo', (w.advance i).Aligned todo' ∧ todo' <:+ todo ∧
      (w.advance i).delivered ++ todo' = w.delivered ++ todo := by
  rcases advance_cases i w with hi | ⟨hs, hi⟩ | ⟨code, hs, hi⟩ | ⟨hh, -, hi⟩
  · rw [hi]
    exact ⟨todo, h, List.suffix_refl _, rfl⟩
  · rw [hi]
    obtain ⟨-, ho, hq, hb⟩ := h.of_unknown hs
    refine ⟨todo, .header rfl rfl ?_ hq (length_resize _ _) hb, List.suffix_refl _, rfl⟩
    simp only [ho, List.nil_append]
  · rw [hi]
    obtain ⟨-, ho, hq, hb⟩ := h.of_unknown hs
    exact ⟨todo, .idle rfl rfl ho hq hb, List.suffix_refl _, rfl⟩
  · rw [hi]
    obtain ⟨rest, rfl, ho, hq, hb⟩ := h.of_held hh
    exact ⟨rest, .idle rfl hh.2 ho hq hb, List.suffix_cons _ _, by simp⟩

theorem Lost.advance (i : Iteration) (h : w.Lost) :
    (w.advance i).Lost ∧ (w.advance i).delivered = w.delivered := by
  obtain ⟨e, he, hl⟩ := h.why
  rcases advance_cases i w with hi | ⟨-, hi⟩ | ⟨code, -, hi⟩ | ⟨hh, -, -⟩
  · rw [hi]
    exact ⟨h, rfl⟩
  · rw [hi]
    refine ⟨⟨by simp, by simp, h.signalled, fun r hr ↦ ?_, e, List.mem_append_left _ he, hl⟩, rfl⟩
    rcases List.mem_append.1 hr with hr | hr
    · exact h.outstanding r hr
    · rw [List.mem_singleton.1 hr]
  · rw [hi]
    exact ⟨⟨by simp, by simp, h.signalled, h.outstanding, e, List.mem_append_left _ he, hl⟩, rfl⟩
  · exact absurd hh h.not_held

/-- The first half of the loop body keeps the invariant. -/
theorem Inv.advance (i : Iteration) (h : Inv payloads w) : Inv payloads (w.advance i) := by
  obtain ⟨todo, rfl, hal | hlost⟩ := h
  · obtain ⟨todo', hal', -, hdel⟩ := hal.advance i
    exact ⟨todo', hdel, .inl hal'⟩
  · obtain ⟨hlost', hdel⟩ := hlost.advance i
    exact ⟨todo, by rw [hdel], .inr hlost'⟩

/-! ## Completions and signals -/

/-- What a completion of the oldest read adds to the log. -/
theorem complete_log {r : PendingRead} {rest : List PendingRead} (ho : w.outstanding = r :: rest)
    (code bytes : ℕ) : (w.complete code bytes).log =
      w.log ++ [.completed r.ov r.size code (min bytes (min r.size w.stream.length))] := by
  simp only [complete, ho, defIoCompletionRoutine]

/-- A completion without an outstanding read belongs to another operation. -/
theorem complete_of_nil (ho : w.outstanding = []) (code bytes : ℕ) : w.complete code bytes = w := by
  simp only [complete, ho]

/-- What a completion leaves alone. -/
theorem complete_frame (w : Reader) (code bytes : ℕ) :
    ∃ readBuffer stream position outstanding signalled log,
      w.complete code bytes = { w with readBuffer, stream, position, outstanding, signalled, log } := by
  cases ho : w.outstanding with
  | nil => exact ⟨_, _, _, _, _, _, complete_of_nil ho code bytes⟩
  | cons r rest =>
      simp only [complete, ho, defIoCompletionRoutine]
      exact ⟨_, _, _, _, _, _, rfl⟩

theorem complete_waitable (w : Reader) (code bytes : ℕ) :
    (w.complete code bytes).waitable = w.waitable := by
  obtain ⟨_, _, _, _, _, _, hframe⟩ := w.complete_frame code bytes
  rw [hframe]

/-- When the only outstanding read gets all it asked for, the buffer holds the
next bytes of the stream and nothing else. -/
theorem complete_of_whole {r : PendingRead} {code bytes : ℕ} (ho : w.outstanding = [r])
    (hl : w.readBuffer.length = r.size) (hn : min bytes (min r.size w.stream.length) = r.size) :
    w.complete code bytes = { w with
      readBuffer := w.stream.take r.size
      stream := w.stream.drop r.size
      position := w.position + r.size
      outstanding := []
      signalled := Function.update w.signalled r.ov true
      log := w.log ++ [.completed r.ov r.size code r.size] } := by
  have hb : blit 0 (w.stream.take r.size) w.readBuffer = w.stream.take r.size :=
    blit_zero (by rw [List.length_take, hl]; omega)
  simp only [complete, ho, defIoCompletionRoutine, hn, hb]

/-- A completion that brings all that was asked for keeps the reader aligned. -/
theorem Aligned.complete {code bytes : ℕ} (h : w.Aligned todo)
    (hwhole : ∀ r ∈ w.outstanding, min bytes (min r.size w.stream.length) = r.size) :
    (w.complete code bytes).Aligned todo := by
  cases h with
  | idle hs hw ho hq hb =>
      rw [complete_of_nil ho]
      exact .idle hs hw ho hq hb
  | headerDone hs hw ho hq hl hb =>
      rw [complete_of_nil ho]
      exact .headerDone hs hw ho hq hl hb
  | contentDone hs hw ho hq hl hb =>
      rw [complete_of_nil ho]
      exact .contentDone hs hw ho hq hl hb
  | held hs hw ho hq hl hb =>
      rw [complete_of_nil ho]
      exact .held hs hw ho hq hl hb
  | header hs hw ho hq hl hb =>
      have hn : min bytes (min sizeElement w.stream.length) = sizeElement :=
        hwhole ⟨.readHeader, sizeElement⟩ (by rw [ho]; exact List.mem_singleton.2 rfl)
      have hlen : sizeElement ≤ (wire sizeElement todo).length := by
        rw [← hb]
        omega
      obtain ⟨p, rest, rfl, htake, hdrop⟩ := wire_take (by decide) hlen
      rw [complete_of_whole ho hl hn]
      exact .headerDone hs hw rfl (by rw [hq]; rfl) (by rw [hb]; exact htake) (by rw [hb]; exact hdrop)
  | @content p rest hs hw ho hq hl hb =>
      have hn := hwhole ⟨.readContent, p.length⟩ (by rw [ho]; exact List.mem_singleton.2 rfl)
      rw [complete_of_whole ho hl hn]
      exact .contentDone hs hw rfl (by rw [hq]; rfl) (by rw [hb]; exact List.take_left)
        (by rw [hb]; exact List.drop_left)

/-- At most one read is outstanding in an aligned reader. -/
theorem Aligned.outstanding_eq (h : w.Aligned todo) {r : PendingRead} (hr : r ∈ w.outstanding) :
    w.outstanding = [r] := by
  cases h with
  | idle _ _ ho | headerDone _ _ ho | contentDone _ _ ho | held _ _ ho =>
      rw [ho] at hr
      cases hr
  | header _ _ ho | content _ _ ho =>
      rw [ho] at hr ⊢
      rw [List.mem_singleton.1 hr]

/-- A completion of the oldest read keeps the invariant, as long as the log stays
orderly. -/
theorem Inv.complete {code bytes : ℕ} (h : Inv payloads w)
    (hlog : Orderly (w.complete code bytes).log) : Inv payloads (w.complete code bytes) := by
  obtain ⟨_, _, _, _, _, _, hframe⟩ := w.complete_frame code bytes
  have hdel : (w.complete code bytes).delivered = w.delivered := by rw [hframe]
  obtain ⟨todo, rfl, hal | hlost⟩ := h
  · by_cases hwhole : ∀ r ∈ w.outstanding, min bytes (min r.size w.stream.length) = r.size
    · exact ⟨todo, by rw [hdel], .inl (hal.complete hwhole)⟩
    · -- The read that is cut short can only be that of a header, and has an error.
      obtain ⟨r, hwhole⟩ := not_forall.1 hwhole
      obtain ⟨hr, hn⟩ := Classical.not_imp.1 hwhole
      have ho := hal.outstanding_eq hr
      rw [complete_log ho] at hlog
      have hcode : code ≠ errorSuccess := fun hcode ↦ hn (hlog.last_whole hcode)
      have hshort : min bytes (min r.size w.stream.length) < r.size := Nat.lt_of_le_of_ne (by omega) hn
      cases hal with
      | idle _ _ ho' | headerDone _ _ ho' | contentDone _ _ ho' | held _ _ ho' =>
          rw [ho'] at hr
          cases hr
      | content _ _ ho' =>
          rw [ho'] at hr
          cases List.mem_singleton.1 hr
          exact absurd ⟨hcode, hshort⟩ hlog.last_content
      | header hs hw ho' hq =>
          rw [ho'] at hr
          cases List.mem_singleton.1 hr
          refine ⟨todo, by rw [hdel], .inr ?_⟩
          simp only [Reader.complete, ho, defIoCompletionRoutine]
          exact ⟨by simp [hs], by simp [hw], by simp [hq], by simp, _,
            List.mem_append_right _ (List.mem_singleton.2 rfl), hcode, hshort⟩
  · refine ⟨todo, by rw [hdel], .inr ?_⟩
    obtain ⟨hs, hw, hq, ho, e, he, hl⟩ := hlost
    cases hout : w.outstanding with
    | nil =>
        rw [complete_of_nil hout]
        exact ⟨hs, hw, hq, ho, e, he, hl⟩
    | cons r rest =>
        have hr : r.ov = .readHeader := ho r (by simp [hout])
        simp only [Reader.complete, hout, defIoCompletionRoutine, hr]
        exact ⟨hs, hw, by simpa using hq, fun r' hr' ↦ ho r' (by simp [hout, hr']), e, by simp [he], hl⟩

/-- The header callback starts the content read of the length it finds, or is
refused. -/
theorem headerSuccess_cases (reply : ReadReply) (w : Reader) :
    (reply = .started ∧ w.headerSuccess reply =
      { w with
        readBuffer := resize (ofLE (w.readBuffer.take sizeElement)) w.readBuffer
        outstanding := w.outstanding ++
          [⟨.readContent, ofLE (w.readBuffer.take sizeElement)⟩]
        log := w.log ++
          [.started .readContent w.position (ofLE (w.readBuffer.take sizeElement))]
        state := .content
        waitable := some .readContent }) ∨
    (∃ code, reply = .refused code ∧ w.headerSuccess reply =
      { w with
        readBuffer := resize (ofLE (w.readBuffer.take sizeElement)) w.readBuffer
        log := w.log ++ [.refused .readContent code]
        state := .unknown
        waitable := none }) := by
  cases reply with
  | started => exact .inl ⟨rfl, by simp [headerSuccess, readFileEx]⟩
  | refused code => exact .inr ⟨code, rfl, by simp [headerSuccess, readFileEx]⟩

/-- What the callback of a wait that succeeds leaves alone. -/
theorem waitSuccess_frame (w : Reader) (reply : ReadReply) (ov : Overlapped) :
    ∃ state readBuffer waitable outstanding log delivered,
      w.waitSuccess reply ov = { w with state, readBuffer, waitable, outstanding, log, delivered } := by
  cases ov with
  | readHeader =>
      rcases headerSuccess_cases reply w with ⟨-, hi⟩ | ⟨code, -, hi⟩
      · exact ⟨_, _, _, _, _, _, hi⟩
      · exact ⟨_, _, _, _, _, _, hi⟩
  | readContent =>
      cases hm : w.onMessage.toBool with
      | true =>
          simp only [waitSuccess, contentSuccess, hm, if_true, dispatch]
          exact ⟨_, _, _, _, _, _, rfl⟩
      | false =>
          simp only [waitSuccess, contentSuccess, hm, Bool.false_eq_true, if_false]
          exact ⟨_, _, _, _, _, _, rfl⟩

/-- An aligned reader whose header read is signalled has read a header, and stands
before its message. -/
theorem Aligned.of_header_signalled (h : w.Aligned todo)
    (hframed : ∀ p ∈ todo, p.length < 256 ^ sizeElement) (hw : w.waitable = some .readHeader)
    (hsig : w.signalled .readHeader = true) :
    ∃ p rest, todo = p :: rest ∧ w.outstanding = [] ∧ w.signalled = only .readHeader ∧
      ofLE (w.readBuffer.take sizeElement) = p.length ∧ w.stream = p ++ wire sizeElement rest := by
  cases h with
  | idle _ hw' | held _ hw' | content _ hw' | contentDone _ hw' => rw [hw] at hw'; cases hw'
  | header _ _ _ hq => rw [hq] at hsig; cases hsig
  | @headerDone p rest _ _ ho hq hl hb =>
      refine ⟨p, rest, rfl, ho, hq, ?_, hb⟩
      rw [hl, List.take_of_length_le (by simp), ofLE_toLE (hframed p List.mem_cons_self)]

/-- The content read that is started keeps the reader aligned. -/
theorem Aligned.headerSuccess (h : w.Aligned todo)
    (hframed : ∀ p ∈ todo, p.length < 256 ^ sizeElement) (hw : w.waitable = some .readHeader)
    (hsig : w.signalled .readHeader = true) :
    ((w.resetEvent .readHeader).headerSuccess .started).Aligned todo := by
  obtain ⟨p, rest, rfl, ho, hq, hsize, hb⟩ := h.of_header_signalled hframed hw hsig
  rcases headerSuccess_cases .started (w.resetEvent .readHeader) with ⟨-, hi⟩ | ⟨code, hr, -⟩
  · rw [hi]
    refine .content rfl rfl ?_ ?_ ?_ hb
    · simp only [resetEvent, ho, hsize, List.nil_append]
    · simp only [resetEvent, hq, only_reset]
    · simp only [resetEvent, hsize, length_resize]
  · cases hr

/-- When the wait for the header succeeds, its callback keeps the invariant. -/
theorem Inv.headerSuccess (hf : Framable payloads) {reply : ReadReply} (h : Inv payloads w)
    (hw : w.waitable = some .readHeader) (hsig : w.signalled .readHeader = true)
    (hlog : Orderly ((w.resetEvent .readHeader).headerSuccess reply).log) :
    Inv payloads ((w.resetEvent .readHeader).headerSuccess reply) := by
  obtain ⟨todo, htodo, hal | hlost⟩ := h
  · have hframed : ∀ p ∈ todo, p.length < 256 ^ sizeElement := fun p hp ↦
      Nat.lt_of_lt_of_le (hf p (htodo ▸ List.mem_append_right _ hp)) (by decide)
    rcases headerSuccess_cases reply (w.resetEvent .readHeader) with ⟨hr, hi⟩ | ⟨code, -, hi⟩
    · refine ⟨todo, ?_, .inl (hr ▸ hal.headerSuccess hframed hw hsig)⟩
      rw [hi]
      exact htodo
    · obtain ⟨p, rest, rfl, ho, hq, -, -⟩ := hal.of_header_signalled hframed hw hsig
      rw [hi]
      exact ⟨_, htodo, .inr ⟨by simp, by simp, by simp [resetEvent, hq, only_reset], by simp [resetEvent, ho],
        _, List.mem_append_right _ (List.mem_singleton.2 rfl), trivial⟩⟩
  · obtain ⟨e, he, hl⟩ := hlost.why
    rcases headerSuccess_cases reply (w.resetEvent .readHeader) with ⟨-, hi⟩ | ⟨code, -, hi⟩
    · rw [hi] at hlog
      exact absurd trivial (hlog.last_lost he hl)
    · rw [hi]
      refine ⟨_, htodo, .inr ⟨by simp, by simp, ?_, hlost.outstanding, e, by simp [resetEvent, he], hl⟩⟩
      simpa [resetEvent] using hlost.signalled

/-- When the wait for the content succeeds, the message is dispatched, or held. -/
theorem Aligned.contentSuccess (h : w.Aligned todo) (hw : w.waitable = some .readContent)
    (hsig : w.signalled .readContent = true) :
    ∃ todo', (w.resetEvent .readContent).contentSuccess.Aligned todo' ∧ todo' <:+ todo ∧
      (w.resetEvent .readContent).contentSuccess.delivered ++ todo' = w.delivered ++ todo := by
  cases h with
  | idle _ hw' | held _ hw' | header _ hw' | headerDone _ hw' => rw [hw] at hw'; cases hw'
  | content _ _ _ hq => rw [hq] at hsig; cases hsig
  | @contentDone p rest hs _ ho hq hl hb =>
      cases hm : w.onMessage.toBool with
      | true =>
          simp only [Reader.contentSuccess, resetEvent, hm, if_true, dispatch]
          refine ⟨rest, .idle rfl rfl ho (by simp only [hq, only_reset]) hb, List.suffix_cons _ _, ?_⟩
          simp [hl]
      | false =>
          simp only [Reader.contentSuccess, resetEvent, hm, Bool.false_eq_true, if_false]
          exact ⟨_, .held hs rfl ho (by simp only [hq, only_reset]) hl hb, List.suffix_refl _, rfl⟩

/-- When the wait for the content succeeds, its callback keeps the invariant. -/
theorem Inv.contentSuccess (h : Inv payloads w) (hw : w.waitable = some .readContent)
    (hsig : w.signalled .readContent = true) :
    Inv payloads (w.resetEvent .readContent).contentSuccess := by
  obtain ⟨todo, rfl, hal | hlost⟩ := h
  · obtain ⟨todo', hal', -, hdel⟩ := hal.contentSuccess hw hsig
    exact ⟨todo', hdel, .inl hal'⟩
  · exact absurd hw hlost.waitable

/-- The callback of the read that is waited for keeps the invariant. -/
theorem Inv.waitSuccess (hf : Framable payloads) {reply : ReadReply} {ov : Overlapped}
    (h : Inv payloads w) (hw : w.waitable = some ov) (hsig : w.signalled ov = true)
    (hlog : Orderly ((w.resetEvent ov).waitSuccess reply ov).log) :
    Inv payloads ((w.resetEvent ov).waitSuccess reply ov) := by
  cases ov with
  | readHeader => exact h.headerSuccess hf hw hsig hlog
  | readContent => exact h.contentSuccess hw hsig

/-! ## Waiting for a read -/

/-- `waitLoop_rule` for the reads of the watcher.  `A` restricts what the outside
world does, `I` is kept while the wait lasts, and `R` holds of what it returns. -/
theorem wait_rule (reply : ReadReply) (ov : Overlapped) {A : WaitEvent → Prop} {I : Reader → Prop}
    {R : error → Reader → Prop} (hcomplete : ∀ s code bytes, I s → I (s.complete code bytes))
    (hsignal : ∀ s, I s → s.signalled ov = true → R .success ((s.resetEvent ov).waitSuccess reply ov))
    (hstay : ∀ s, I s → R .timedOut s ∧ R .failure s)
    (habandoned : ∀ s, A .abandoned → I s → R .closed s.waitError)
    (d : ℤ) (cs : List WaitEvent) (hcs : ∀ c ∈ cs, A c) (h : I w) :
    (∃ s, (waiter reply ov).wait d cs w = (none, s) ∧ I s) ∨
      ∃ r s, (waiter reply ov).wait d cs w = (some r, s) ∧ R r s := by
  refine Waiter.waitLoop_rule _ (fun c t s hc hs ↦ ?_) _ cs hcs h
  cases c with
  | completion e code bytes => exact hcomplete s code bytes hs
  | interruption e => exact hs
  | timeout => exact (hstay s hs).1
  | failed => exact (hstay s hs).2
  | abandoned => exact habandoned s hc hs
  | signal =>
      by_cases hsig : s.signalled ov = true
      · simp only [waiter, hsig, if_true]
        exact hsignal s hs hsig
      · simp only [waiter, hsig]
        exact (hstay s hs).1

/-- A round of the loop leaves the loop, or goes through both halves of its body. -/
theorem iterate_cases (w : Reader) (i : Iteration) :
    w.iterate i = { w with stopped := some .finished } ∨ w.iterate i = (w.advance i).await i := by
  unfold iterate
  split
  · exact .inl rfl
  · split
    · exact .inl rfl
    · split
      · exact .inl rfl
      · exact .inr rfl

/-! ## What a round of the loop respects

A round is put together from few operations.  A relation that each of them
respects relates the reader before the round to the reader after it. -/

/-- The relation `r` holds across every operation of the watcher, when the outside
world does in a wait only what `A` allows. -/
structure Respects (A : WaitEvent → Prop) (r : Reader → Reader → Prop) : Prop where
  refl : ∀ w, r w w
  trans : ∀ w₁ w₂ w₃, r w₁ w₂ → r w₂ w₃ → r w₁ w₃
  complete : ∀ w code bytes, r w (w.complete code bytes)
  signal : ∀ w reply ov, r w ((w.resetEvent ov).waitSuccess reply ov)
  advance : ∀ w i, r w (w.advance i)
  stop : ∀ w s, r w { w with stopped := s }
  error : A .abandoned → ∀ w, r w w.waitError
  disconnect : A .abandoned → ∀ w, r w w.disconnect

namespace Respects

variable {A : WaitEvent → Prop} {r : Reader → Reader → Prop}

/-- A wait respects the relation, and returns `Closed` only if it may be abandoned. -/
theorem wait (h : Respects A r) (w : Reader) (reply : ReadReply) (ov : Overlapped) (d : ℤ)
    (cs : List WaitEvent) (hcs : ∀ c ∈ cs, A c) :
    r w ((waiter reply ov).wait d cs w).2 ∧
      (((waiter reply ov).wait d cs w).1 = some .closed → A .abandoned) := by
  have hrule := wait_rule reply ov (A := A) (I := r w)
    (R := fun e s ↦ r w s ∧ (e = .closed → A .abandoned))
    (fun s code bytes hs ↦ h.trans _ _ _ hs (h.complete s code bytes))
    (fun s hs _ ↦ ⟨h.trans _ _ _ hs (h.signal s reply ov), nofun⟩)
    (fun s hs ↦ ⟨⟨hs, nofun⟩, ⟨hs, nofun⟩⟩)
    (fun s ha hs ↦ ⟨h.trans _ _ _ hs (h.error ha s), fun _ ↦ ha⟩) d cs hcs (h.refl w)
  rcases hrule with ⟨s, hs, hI⟩ | ⟨e, s, hs, hR, hclosed⟩
  · rw [hs]
    exact ⟨hI, nofun⟩
  · rw [hs]
    exact ⟨hR, fun he ↦ hclosed (Option.some.inj he)⟩

theorem awaitAgain (h : Respects A r) (w : Reader) (i : Iteration) (hi : ∀ c ∈ i.second, A c) :
    r w (w.awaitAgain i) := by
  unfold Reader.awaitAgain
  split
  · exact h.stop w _
  · rename_i ov hw
    obtain ⟨hs, hclosed⟩ := h.wait w i.content ov 1000000 i.second hi
    split
    · rename_i s heq; rw [heq] at hs; exact h.trans _ _ _ hs (h.stop s _)
    · rename_i s heq
      rw [heq] at hs hclosed
      exact h.trans _ _ _ hs (h.disconnect (hclosed rfl) s)
    · rename_i s _ heq; rw [heq] at hs; exact hs

theorem await (h : Respects A r) (w : Reader) (i : Iteration) (hfirst : ∀ c ∈ i.first, A c)
    (hsecond : ∀ c ∈ i.second, A c) : r w (w.await i) := by
  cases hw : w.waitable with
  | none => simp only [Reader.await, hw]; exact h.refl w
  | some ov =>
      obtain ⟨hs, -⟩ := h.wait w i.content ov 0 i.first hfirst
      simp only [Reader.await, hw]
      split
      · rename_i s heq; rw [heq] at hs; exact h.trans _ _ _ hs (h.stop s _)
      · rename_i s heq; rw [heq] at hs; exact hs
      · rename_i s _ heq; rw [heq] at hs; exact h.trans _ _ _ hs (h.awaitAgain s i hsecond)

/-- **A round of the loop respects what its operations respect.** -/
theorem iterate (h : Respects A r) (w : Reader) (i : Iteration) (hfirst : ∀ c ∈ i.first, A c)
    (hsecond : ∀ c ∈ i.second, A c) : r w (w.iterate i) := by
  rcases w.iterate_cases i with hi | hi
  · rw [hi]
    exact h.stop w _
  · rw [hi]
    exact h.trans _ _ _ (h.advance w i) (h.await (w.advance i) i hfirst hsecond)

end Respects

/-- Nothing is taken back from the log and from what has been delivered. -/
structure Grows (w w' : Reader) : Prop where
  log : w.log <+: w'.log
  delivered : w.delivered <+: w'.delivered

theorem Grows.of_eq {w w' : Reader} (hlog : w'.log = w.log) (hdel : w'.delivered = w.delivered) :
    Grows w w' where
  log := hlog ▸ List.prefix_refl _
  delivered := hdel ▸ List.prefix_refl _

theorem complete_grows (w : Reader) (code bytes : ℕ) : Grows w (w.complete code bytes) := by
  cases ho : w.outstanding with
  | nil => exact .of_eq (by rw [complete_of_nil ho]) (by rw [complete_of_nil ho])
  | cons r rest =>
      refine ⟨⟨_, (complete_log ho code bytes).symm⟩, ?_⟩
      simp only [complete, ho, defIoCompletionRoutine]
      exact List.prefix_refl _

theorem signal_grows (w : Reader) (reply : ReadReply) (ov : Overlapped) :
    Grows w ((w.resetEvent ov).waitSuccess reply ov) := by
  cases ov with
  | readHeader =>
      rcases headerSuccess_cases reply (w.resetEvent .readHeader) with ⟨-, hi⟩ | ⟨code, -, hi⟩
      · rw [waitSuccess, hi]; exact ⟨⟨_, rfl⟩, List.prefix_refl _⟩
      · rw [waitSuccess, hi]; exact ⟨⟨_, rfl⟩, List.prefix_refl _⟩
  | readContent =>
      cases hm : (w.resetEvent .readContent).onMessage.toBool with
      | true =>
          simp only [waitSuccess, contentSuccess, hm, if_true, dispatch]
          exact ⟨List.prefix_refl _, ⟨_, rfl⟩⟩
      | false =>
          simp only [waitSuccess, contentSuccess, hm, Bool.false_eq_true, if_false]
          exact .of_eq rfl rfl

theorem advance_grows (w : Reader) (i : Iteration) : Grows w (w.advance i) := by
  rcases advance_cases i w with hi | ⟨-, hi⟩ | ⟨code, -, hi⟩ | ⟨-, -, hi⟩
  · rw [hi]; exact .of_eq rfl rfl
  · rw [hi]; exact ⟨⟨_, rfl⟩, List.prefix_refl _⟩
  · rw [hi]; exact ⟨⟨_, rfl⟩, List.prefix_refl _⟩
  · rw [hi]; exact ⟨List.prefix_refl _, ⟨_, rfl⟩⟩

theorem respects_grows : Respects (fun _ ↦ True) Grows where
  refl _ := .of_eq rfl rfl
  trans _ _ _ h h' := ⟨h.log.trans h'.log, h.delivered.trans h'.delivered⟩
  complete := complete_grows
  signal := signal_grows
  advance := advance_grows
  stop _ _ := .of_eq rfl rfl
  error _ _ := .of_eq rfl rfl
  disconnect _ w := by
    cases hc : w.onClose.toBool with
    | true => exact .of_eq (by simp [Reader.disconnect, hc]) (by simp [Reader.disconnect, hc])
    | false => exact .of_eq (by simp [Reader.disconnect, hc]) (by simp [Reader.disconnect, hc])

/-! ## The second half of the loop body -/

/-- What is owed when a wait for `ov` returns.  After `Closed` there is no current read, and
the loop disconnects, or calls `wait` through a null pointer; after the other errors it may
wait for the same read again. -/
def WaitOwes (I Q : Reader → Prop) (ov : Overlapped) : error → Reader → Prop
  | .success, s => Q s
  | .closed, s => s.waitable = none ∧ Q { s with stopped := some .nullWaitable } ∧ Q s.disconnect
  | _, s => s.waitable = some ov ∧ I s ∧ Q s

/-- The second wait goes through whatever `waitable` the first one has left. -/
theorem awaitAgain_of_none (i : Iteration) (hw : w.waitable = none) :
    w.awaitAgain i = { w with stopped := some .nullWaitable } := by
  unfold Reader.awaitAgain
  rw [hw]

/-- **The rule for the second half of the loop body.**  If every wait that begins in `I`
pays what it owes, then both together lead to `Q`. -/
theorem await_rule {I Q : Reader → Prop} (i : Iteration)
    (hwait : ∀ (s : Reader) ov d cs, s.waitable = some ov → I s →
      (∃ s', (waiter i.content ov).wait d cs s = (none, s') ∧ Q { s' with stopped := some .waiting }) ∨
        ∃ r s', (waiter i.content ov).wait d cs s = (some r, s') ∧ WaitOwes I Q ov r s')
    (hidle : w.waitable = none → Q w) (h : I w) : Q (w.await i) := by
  have hagain : ∀ (s : Reader) ov, s.waitable = some ov → I s → Q (s.awaitAgain i) := by
    intro s ov hs hI
    rcases hwait s ov 1000000 i.second hs hI with ⟨s', hs', hQ⟩ | ⟨r, s', hs', howes⟩
    · simp only [Reader.awaitAgain, hs, hs']
      exact hQ
    · simp only [Reader.awaitAgain, hs, hs']
      cases r with
      | success => exact howes
      | closed => exact howes.2.2
      | unknown | failure | criticalFailure | timedOut | invalidPath | notSupported =>
          exact howes.2.2
  cases hw : w.waitable with
  | none =>
      simp only [Reader.await, hw]
      exact hidle hw
  | some ov =>
      rcases hwait w ov 0 i.first hw h with ⟨s, hs, hQ⟩ | ⟨r, s, hs, howes⟩
      · simp only [Reader.await, hw, hs]
        exact hQ
      · simp only [Reader.await, hw, hs]
        cases r with
        | success => exact howes
        | closed =>
            -- The error callback has reset `waitable`, through which the loop waits again.
            obtain ⟨hnone, hnull, -⟩ := howes
            rw [← awaitAgain_of_none i hnone] at hnull
            exact hnull
        | unknown | failure | criticalFailure | timedOut | invalidPath | notSupported =>
            exact hagain s ov howes.1 howes.2.1

/-- What `wait` on the current read leaves behind, as long as the log is orderly:
the invariant, unless the wait was abandoned, in which case there is no current
read any more. -/
def Waited (payloads : List (List UInt8)) (ov : Overlapped) : error → Reader → Prop
  | .success, s => Orderly s.log → Inv payloads s
  | .closed, s => s.waitable = none ∧ (Orderly s.log → s.delivered <+: payloads)
  | _, s => s.waitable = some ov ∧ (Orderly s.log → Inv payloads s)

theorem Inv.wait (hf : Framable payloads) (reply : ReadReply) {ov : Overlapped} (d : ℤ)
    (cs : List WaitEvent) (hw : w.waitable = some ov) (h : Orderly w.log → Inv payloads w) :
    (∃ s, (waiter reply ov).wait d cs w = (none, s) ∧ (Orderly s.log → Inv payloads s)) ∨
      ∃ r s, (waiter reply ov).wait d cs w = (some r, s) ∧ Waited payloads ov r s := by
  have hrule := wait_rule reply ov (A := fun _ ↦ True)
    (I := fun s ↦ s.waitable = some ov ∧ (Orderly s.log → Inv payloads s)) (R := Waited payloads ov)
    (w := w) ?_ ?_ (fun s hs ↦ ⟨hs, hs⟩) ?_ d cs (fun _ _ ↦ trivial) ⟨hw, h⟩
  · rcases hrule with ⟨s, hs, -, hI⟩ | hr
    · exact .inl ⟨s, hs, hI⟩
    · exact .inr hr
  · rintro s code bytes ⟨hws, hI⟩
    refine ⟨(complete_waitable s code bytes).trans hws, fun hlog ↦ ?_⟩
    exact (hI (hlog.mono (complete_grows s code bytes).log)).complete hlog
  · rintro s ⟨hws, hI⟩ hsig hlog
    exact (hI (hlog.mono (signal_grows s reply ov).log)).waitSuccess hf hws
      hsig hlog
  · rintro s - ⟨-, hI⟩
    exact ⟨rfl, fun hlog ↦ (hI hlog).delivers⟩

/-- What every run preserves: the messages delivered are a prefix of those sent,
and a reader that goes on satisfies the invariant, provided the log is orderly. -/
def Kept (payloads : List (List UInt8)) (w : Reader) : Prop :=
  Orderly w.log → w.delivered <+: payloads ∧ (w.stopped = none → Inv payloads w)

theorem Kept.of_inv (h : Orderly w.log → Inv payloads w) : Kept payloads w :=
  fun hlog ↦ ⟨(h hlog).delivers, fun _ ↦ h hlog⟩

/-- A reader that has stopped only owes its deliveries. -/
theorem Kept.of_stopped (hstop : w.stopped ≠ none) (h : Orderly w.log → w.delivered <+: payloads) :
    Kept payloads w :=
  fun hlog ↦ ⟨h hlog, fun hgo ↦ absurd hgo hstop⟩

theorem disconnect_delivered (w : Reader) : w.disconnect.delivered = w.delivered := by
  unfold disconnect
  cases w.onClose.toBool with
  | true => rfl
  | false => rfl

/-- What the waits of a round owe, they pay. -/
theorem Inv.wait_owes (hf : Framable payloads) (reply : ReadReply) {ov : Overlapped} (d : ℤ)
    (cs : List WaitEvent) (hw : w.waitable = some ov) (h : Orderly w.log → Inv payloads w) :
    (∃ s, (waiter reply ov).wait d cs w = (none, s) ∧ Kept payloads { s with stopped := some .waiting }) ∨
      ∃ r s, (waiter reply ov).wait d cs w = (some r, s) ∧
        WaitOwes (fun s ↦ Orderly s.log → Inv payloads s) (Kept payloads) ov r s := by
  rcases Inv.wait hf reply d cs hw h with ⟨s, hs, hI⟩ | ⟨r, s, hs, hR⟩
  · exact .inl ⟨s, hs, Kept.of_stopped (Option.some_ne_none _) fun hlog ↦ (hI hlog).delivers⟩
  · refine .inr ⟨r, s, hs, ?_⟩
    cases r with
    | success => exact Kept.of_inv hR
    | closed =>
        obtain ⟨hnone, hdelivered⟩ := hR
        refine ⟨hnone, Kept.of_stopped (Option.some_ne_none _) hdelivered,
          Kept.of_stopped (Option.some_ne_none _) fun hlog ↦ ?_⟩
        rw [disconnect_delivered]
        exact hdelivered (hlog.mono (respects_grows.disconnect trivial s).log)
    | unknown | failure | criticalFailure | timedOut | invalidPath | notSupported =>
        exact ⟨hR.1, hR.2, Kept.of_inv hR.2⟩

/-- The second half of the loop body. -/
theorem Inv.await (hf : Framable payloads) (i : Iteration) (h : Orderly w.log → Inv payloads w) :
    Kept payloads (w.await i) :=
  await_rule i (fun _ _ d cs hw hI ↦ Inv.wait_owes hf i.content d cs hw hI) (fun _ ↦ Kept.of_inv h) h

/-! ## Runs -/

/-- One round of the loop. -/
theorem Inv.iterate (hf : Framable payloads) (i : Iteration) (h : Orderly w.log → Inv payloads w) :
    Kept payloads (w.iterate i) := by
  rcases w.iterate_cases i with hi | hi
  · rw [hi]
    exact Kept.of_stopped (by simp) fun hlog ↦ (h hlog).delivers
  · rw [hi]
    exact Inv.await hf i fun hlog ↦ (h (hlog.mono (advance_grows w i).log)).advance i

/-- Listeners coming and going, and another thread closing the socket, do not move an
aligned reader. -/
theorem Aligned.frame (h : w.Aligned todo) (onMessage : Event ℕ) (closeCalls : ℕ) (shutdown : Bool) :
    Aligned { w with onMessage := onMessage, closeCalls := closeCalls, shutdown := shutdown } todo := by
  cases h with
  | idle hs hw ho hq hb => exact .idle hs hw ho hq hb
  | header hs hw ho hq hl hb => exact .header hs hw ho hq hl hb
  | headerDone hs hw ho hq hl hb => exact .headerDone hs hw ho hq hl hb
  | content hs hw ho hq hl hb => exact .content hs hw ho hq hl hb
  | contentDone hs hw ho hq hl hb => exact .contentDone hs hw ho hq hl hb
  | held hs hw ho hq hl hb => exact .held hs hw ho hq hl hb

/-- They leave the invariant alone. -/
theorem Inv.frame (h : Inv payloads w) (onMessage : Event ℕ) (closeCalls : ℕ) (shutdown : Bool) :
    Inv payloads
      { w with onMessage := onMessage, closeCalls := closeCalls, shutdown := shutdown } := by
  obtain ⟨todo, htodo, hal | hlost⟩ := h
  · exact ⟨todo, htodo, .inl (hal.frame onMessage closeCalls shutdown)⟩
  · exact ⟨todo, htodo, .inr ⟨hlost.state, hlost.waitable, hlost.signalled, hlost.outstanding, hlost.why⟩⟩

/-- A step of a reader that has not stopped is a round of the loop, or a change
of the listeners, of the calls made to `on_close` and of the request to stop. -/
theorem step_cases {l : Label} {w' : Reader} (h : w.step l = some w') :
    w.stopped = none ∧ ((∃ i, l = .iterate i ∧ w' = w.iterate i) ∨
      ∃ onMessage closeCalls shutdown, w' =
        { w with onMessage := onMessage, closeCalls := closeCalls, shutdown := shutdown }) := by
  unfold Reader.step at h
  split at h
  · cases h
  · rename_i hgo
    refine ⟨hgo, ?_⟩
    cases l with
    | iterate i => exact .inl ⟨i, rfl, (Option.some.inj h).symm⟩
    | addListener f => exact .inr ⟨_, _, _, (Option.some.inj h).symm⟩
    | clearListeners => exact .inr ⟨_, _, _, (Option.some.inj h).symm⟩
    | close =>
        simp only at h
        split at h
        · exact .inr ⟨_, _, _, (Option.some.inj h).symm⟩
        · exact .inr ⟨w.onMessage, w.closeCalls, w.shutdown, (Option.some.inj h).symm⟩

theorem step_iterate {i : Iteration} {w' : Reader} (h : w.step (.iterate i) = some w') :
    w' = w.iterate i := by
  unfold Reader.step at h
  split at h
  · cases h
  · exact (Option.some.inj h).symm

theorem step_grows {l : Label} {w' : Reader} (h : w.step l = some w') : Grows w w' := by
  obtain ⟨-, ⟨i, -, rfl⟩ | ⟨onMessage, closeCalls, shutdown, rfl⟩⟩ := step_cases h
  · exact respects_grows.iterate w i (fun _ _ ↦ trivial) fun _ _ ↦ trivial
  · exact .of_eq rfl rfl

/-- One step of a reader. -/
theorem Kept.step (hf : Framable payloads) {l : Label} {w' : Reader} (hstep : w.step l = some w')
    (h : Kept payloads w) : Kept payloads w' := by
  obtain ⟨hgo, hcases⟩ := step_cases hstep
  have hinv : Orderly w.log → Inv payloads w := fun hlog ↦ (h hlog).2 hgo
  rcases hcases with ⟨i, -, rfl⟩ | ⟨onMessage, closeCalls, shutdown, rfl⟩
  · exact Inv.iterate hf i hinv
  · exact Kept.of_inv fun hlog ↦ (hinv hlog).frame _ _ _

/-- A reader that has just been started on the frames of `payloads` stands before
the first of them. -/
theorem Kept.start (hf : Framable payloads) (handle : HANDLE) (onMessage onClose : Event ℕ) :
    Kept payloads (Reader.start handle onMessage onClose (sent payloads)) :=
  Kept.of_inv fun _ ↦ ⟨payloads, rfl, .inl (.idle rfl rfl rfl rfl (sent_eq_wire hf))⟩

/-- **The run lemma.**  Whatever the outside world does, a reader started on the
frames of `payloads` has delivered a prefix of them as long as its log is
orderly, and stands where the invariant says. -/
theorem Kept.run (hf : Framable payloads) {handle : HANDLE} {onMessage onClose : Event ℕ}
    {ts : List (Transition Reader Label)}
    (h : Run Reader.step (Reader.start handle onMessage onClose (sent payloads)) ts w) :
    Kept payloads w :=
  (h.invariant (C := fun _ ↦ True) (fun _ hstep _ hk ↦ Kept.step hf hstep hk)
    (Kept.start hf handle onMessage onClose) fun _ _ ↦ trivial).1

end Reader

end Datapath.Windows
