import Datapath.Windows.Socket.Alignment

/-!
# What a reader delivers

Three statements about the messages a socket hands to `on_message`, all of them
consequences of the run lemma `Reader.Kept.run`, which differ in what they let
the pipe do.

* Reads may be split: a read that succeeds may bring fewer bytes than were asked
  for.  The byte count is not looked at, so only reads that bring everything are
  safe (`fragmented_delivery`).
* Reads may fail: the error code is not looked at either (`failing_delivery`).
* Reads succeed and bring everything, and the listeners come and go: then the
  messages sent are delivered once and in order (`buffered_delivery`).
-/

namespace Datapath.Windows

open Datapath.Lib

namespace IoEvent

/-- A read of a byte-mode pipe that starts, and completes without error with at
least one byte unless none was asked for. -/
def Succeeds : IoEvent → Prop
  | .started .. => True
  | .refused .. => False
  | .completed _ size dwErrorCode n => dwErrorCode = errorSuccess ∧ n ≤ size ∧ (0 < size → 0 < n)

/-- A completed read brought everything it asked for. -/
def Full : IoEvent → Prop
  | .completed _ size _ n => n = size
  | .started .. | .refused .. => True

/-- A read that completes without error and in full.  A header read may be refused:
it is issued again. -/
def Clean : IoEvent → Prop
  | .completed _ size dwErrorCode n => dwErrorCode = errorSuccess ∧ n = size
  | .refused .readContent _ => False
  | .refused .readHeader _ | .started .. => True

instance : DecidablePred Succeeds
  | .started .. => .isTrue trivial
  | .refused .. => .isFalse id
  | .completed _ size dwErrorCode n =>
      inferInstanceAs (Decidable (dwErrorCode = errorSuccess ∧ n ≤ size ∧ (0 < size → 0 < n)))

instance : DecidablePred Full
  | .started .. | .refused .. => .isTrue trivial
  | .completed _ size _ n => inferInstanceAs (Decidable (n = size))

instance : DecidablePred Clean
  | .completed _ size dwErrorCode n => inferInstanceAs (Decidable (dwErrorCode = errorSuccess ∧ n = size))
  | .refused .readContent _ => .isFalse id
  | .refused .readHeader _ | .started .. => .isTrue trivial

theorem Succeeds.clean {e : IoEvent} (h : e.Succeeds) (hfull : e.Full) : e.Clean := by
  cases e with
  | started => trivial
  | refused => exact h.elim
  | completed => exact ⟨h.1, hfull⟩

theorem Clean.not_losesFrame {e : IoEvent} (h : e.Clean) : ¬ e.LosesFrame := by
  cases e with
  | started => exact id
  | refused ov =>
      cases ov with
      | readHeader => exact id
      | readContent => exact h.elim
  | completed ov =>
      cases ov with
      | readHeader => exact fun hlost ↦ hlost.1 h.1
      | readContent => exact id

end IoEvent

/-- Clean reads leave an orderly log. -/
theorem Orderly.of_clean {log : List IoEvent} (h : ∀ e ∈ log, e.Clean) : Orderly log where
  whole e he := by
    have hc := h e he
    cases e with
    | completed => exact fun _ ↦ hc.2
    | started | refused => trivial
  content e he := by
    have hc := h e he
    cases e with
    | started | refused => exact id
    | completed ov =>
        cases ov with
        | readHeader => exact id
        | readContent => exact fun hfails ↦ hfails.1 hc.1
  lost := List.pairwise_of_forall_mem_list fun a ha _ _ hl ↦ absurd hl (h a ha).not_losesFrame

namespace Reader

variable {payloads : List (List UInt8)} {handle : HANDLE} {onMessage onClose : Event ℕ}
variable {w w' : Reader} {ts ts' : List (Transition Reader Label)}

/-! ## Split reads -/

/-- **Delivery from a fragmented pipe.**  In every run in which reads succeed and
each brings all the bytes it asked for, what is delivered is a prefix of what was
sent; so two such runs never disagree. -/
theorem fragmented_delivery (hf : Framable payloads)
    (hrun : Run step (start handle onMessage onClose (sent payloads)) ts w)
    (hrun' : Run step (start handle onMessage onClose (sent payloads)) ts' w')
    (hok : ∀ e ∈ w.log ++ w'.log, e.Succeeds) (hfull : ∀ e ∈ w.log ++ w'.log, e.Full) :
    w.delivered <+: payloads ∧ (w.delivered <+: w'.delivered ∨ w'.delivered <+: w.delivered) := by
  have hclean : ∀ e ∈ w.log ++ w'.log, e.Clean := fun e he ↦ (hok e he).clean (hfull e he)
  have hp : w.delivered <+: payloads :=
    (Kept.run hf hrun (.of_clean fun e he ↦ hclean e (List.mem_append_left _ he))).1
  have hp' : w'.delivered <+: payloads :=
    (Kept.run hf hrun' (.of_clean fun e he ↦ hclean e (List.mem_append_right _ he))).1
  exact ⟨hp, List.prefix_or_prefix_of_prefix hp hp'⟩

/-- A message that arrives whole, first its header and then its content. -/
theorem fragmented_delivery_whole : ∃ ts w,
    Run step (start 4 ⟨[0]⟩ ⟨[]⟩ (sent [[7, 8]])) ts w ∧ w.delivered = [[7, 8]] ∧
      w.delivered <+: [[7, 8]] := by
  obtain ⟨ts, w, hrun, hok, hfull, hdel⟩ := Run.exists_of_trace step
    (start 4 ⟨[0]⟩ ⟨[]⟩ (sent [[7, 8]]))
    [.iterate { first := [.completion 0 0 4, .signal] },
      .iterate { first := [.completion 0 0 2, .signal] }]
    (fun _ w ↦ (∀ e ∈ w.log ++ w.log, e.Succeeds) ∧ (∀ e ∈ w.log ++ w.log, e.Full) ∧
      w.delivered = [[7, 8]]) ⟨_, rfl, by decide⟩
  exact ⟨ts, w, hrun, hdel, (fragmented_delivery (by decide) hrun hrun hok hfull).1⟩

/-- A header that arrives in two pieces is read as a length after the first, and
the message that follows is put together from the rest of the header. -/
theorem split_header_misdelivers : ∃ ts w,
    Run step (start 4 ⟨[0]⟩ ⟨[]⟩ (sent [[7, 8]])) ts w ∧ (∀ e ∈ w.log, e.Succeeds) ∧
      w.onMessage.toBool = true ∧ w.delivered = [[0, 0]] ∧ ¬ w.delivered <+: [[7, 8]] :=
  Run.exists_of_trace step (start 4 ⟨[0]⟩ ⟨[]⟩ (sent [[7, 8]]))
    [.iterate { first := [.completion 0 0 1, .signal] },
      .iterate { first := [.completion 0 0 2, .signal] }]
    (fun _ w ↦ (∀ e ∈ w.log, e.Succeeds) ∧ w.onMessage.toBool = true ∧ w.delivered = [[0, 0]] ∧
      ¬ w.delivered <+: [[7, 8]]) ⟨_, rfl, by decide⟩

/-! ## Failing reads -/

/-- **Delivery from a failing pipe.**  What is delivered is a prefix of what was
sent in every run in which no content read fails with fewer bytes than it asked for,
and none is started after a header read has, or after one was refused. -/
theorem failing_delivery (hf : Framable payloads)
    (hrun : Run step (start handle onMessage onClose (sent payloads)) ts w)
    (hwhole : ∀ e ∈ w.log, e.Whole) (hcontent : ∀ e ∈ w.log, ¬ e.ContentFails)
    (hlost : w.log.Pairwise fun a b ↦ a.LosesFrame → ¬ b.StartsContent) :
    w.delivered <+: payloads :=
  (Kept.run hf hrun ⟨hwhole, hcontent, hlost⟩).1

/-- The peer sends one message and dies: the second header read fails, and the
content read that follows it is refused. -/
theorem failing_delivery_peer_gone : ∃ ts w,
    Run step (start 4 ⟨[0]⟩ ⟨[]⟩ (sent [[7, 8]])) ts w ∧ w.delivered = [[7, 8]] ∧
      (∃ e ∈ w.log, e.LosesFrame) ∧ w.delivered <+: [[7, 8]] := by
  obtain ⟨ts, w, hrun, hwhole, hcontent, hlost, hdel, hgone⟩ := Run.exists_of_trace step
    (start 4 ⟨[0]⟩ ⟨[]⟩ (sent [[7, 8]]))
    [.iterate { first := [.completion 0 0 4, .signal] },
      .iterate { first := [.completion 0 0 2, .signal] },
      .iterate { first := [.completion 0 109 0, .signal], content := .refused 109 }]
    (fun _ w ↦ (∀ e ∈ w.log, e.Whole) ∧ (∀ e ∈ w.log, ¬ e.ContentFails) ∧
      (w.log.Pairwise fun a b ↦ a.LosesFrame → ¬ b.StartsContent) ∧ w.delivered = [[7, 8]] ∧
      ∃ e ∈ w.log, e.LosesFrame) ⟨_, rfl, by decide⟩
  exact ⟨ts, w, hrun, hdel, hgone, failing_delivery (by decide) hrun hwhole hcontent hlost⟩

/-- The peer dies after the header of its first message: the content read fails
without a byte, and what the header left in the buffer is delivered. -/
theorem failed_content_misdelivers : ∃ ts w,
    Run step (start 4 ⟨[0]⟩ ⟨[]⟩ (sent [[7, 8]])) ts w ∧ (∀ e ∈ w.log, e.Whole) ∧
      w.delivered = [[2, 0]] ∧ ¬ w.delivered <+: [[7, 8]] :=
  Run.exists_of_trace step (start 4 ⟨[0]⟩ ⟨[]⟩ (sent [[7, 8]]))
    [.iterate { first := [.completion 0 0 4, .signal] },
      .iterate { first := [.completion 0 109 0, .signal] }]
    (fun _ w ↦ (∀ e ∈ w.log, e.Whole) ∧ w.delivered = [[2, 0]] ∧ ¬ w.delivered <+: [[7, 8]])
    ⟨_, rfl, by decide⟩

/-! ## Held messages -/

/-- The loop goes on: no one has closed the socket. -/
def Running (w : Reader) : Prop :=
  w.shutdown = false ∧ w.socketHandle ≠ invalidHandleValue ∧ w.isConnected = true

/-- What a reader that holds a message does not change while it has no listener. -/
structure Holds (w w' : Reader) : Prop where
  held : w'.Held
  readBuffer : w'.readBuffer = w.readBuffer
  log : w'.log = w.log
  delivered : w'.delivered = w.delivered

theorem Held.holds (h : w.Held) : w.Holds w := ⟨h, rfl, rfl, rfl⟩

/-- A reader that holds a message dispatches it in the next round if it has a
listener, and otherwise keeps it. -/
theorem Held.iterate_of_running (h : w.Held) (hgo : w.Running) (i : Iteration) :
    w.iterate i = if w.onMessage.toBool then
      { w with delivered := w.delivered ++ [w.readBuffer], state := .unknown } else w := by
  obtain ⟨hs, hw⟩ := h
  obtain ⟨hshut, hhandle, hconn⟩ := hgo
  simp only [iterate, hshut, hhandle, hconn, Bool.not_true, Bool.false_eq_true, if_false]
  cases hm : w.onMessage.toBool with
  | true => simp [advance, await, hs, hw, hm, dispatch, hshut, hconn]
  | false => simp [advance, await, hs, hw, hm]

/-- A reader that has been closed leaves the loop. -/
theorem iterate_of_not_running (hstop : ¬ w.Running) (i : Iteration) :
    w.iterate i = { w with stopped := some .finished } := by
  unfold iterate
  cases hshut : w.shutdown with
  | true => rfl
  | false =>
      by_cases hhandle : w.socketHandle = invalidHandleValue
      · simp [hhandle]
      · cases hconn : w.isConnected with
        | false => simp
        | true => exact absurd ⟨hshut, hhandle, hconn⟩ hstop

theorem Held.step (h : w.Held) {l : Label} (hstep : w.step l = some w') :
    w.Holds w' ∨ w.delivered ++ [w.readBuffer] <+: w'.delivered := by
  obtain ⟨-, ⟨i, -, rfl⟩ | ⟨onMessage, closeCalls, shutdown, rfl⟩⟩ := step_cases hstep
  · by_cases hgo : w.Running
    · rw [h.iterate_of_running hgo i]
      split
      · exact .inr (List.prefix_refl _)
      · exact .inl h.holds
    · rw [iterate_of_not_running hgo i]
      exact .inl ⟨h, rfl, rfl, rfl⟩
  · exact .inl ⟨h, rfl, rfl, rfl⟩

/-- Along a run, a held message stays where it is until it is dispatched. -/
theorem Held.run (h : w.Held) (hrun : Run Reader.step w ts w') :
    w.Holds w' ∨ w.delivered ++ [w.readBuffer] <+: w'.delivered := by
  refine (hrun.invariant (I := fun s ↦ w.Holds s ∨ w.delivered ++ [w.readBuffer] <+: s.delivered)
    (C := fun _ ↦ True) ?_ (.inl h.holds) fun _ _ ↦ trivial).1
  rintro t hstep - (hhold | hgone)
  · rcases hhold.held.step hstep with hnext | hnext
    · exact .inl ⟨hnext.held, hnext.readBuffer.trans hhold.readBuffer, hnext.log.trans hhold.log,
        hnext.delivered.trans hhold.delivered⟩
    · rw [hhold.delivered, hhold.readBuffer] at hnext
      exact .inr hnext
  · exact .inr (hgone.trans (step_grows hstep).delivered)

/-- **Exactly-once, in-order delivery.**  If every read that completes does so
without error and in full, then what has been dispatched to a non-empty
`on_message` is a prefix of what was sent, and the reader stands in the frame of
the first message not dispatched.  A message that was completed without a listener
is the next one: it stays in the buffer, with no read issued, until it is
dispatched, which the first round of the loop with a listener does. -/
theorem buffered_delivery (hf : Framable payloads)
    (hrun : Run step (start handle onMessage onClose (sent payloads)) ts w)
    (hclean : ∀ e ∈ w.log, e.Clean) :
    w.delivered <+: payloads ∧
    (w.stopped = none → ∃ todo, w.delivered ++ todo = payloads ∧ w.Aligned todo) ∧
    (w.stopped = none → w.Held →
      w.delivered ++ [w.readBuffer] <+: payloads ∧
      (∀ ts' w', Run step w ts' w' →
        w.Holds w' ∨ w.delivered ++ [w.readBuffer] <+: w'.delivered) ∧
      (w.Running → w.onMessage.toBool = true → ∀ i,
        (w.iterate i).delivered = w.delivered ++ [w.readBuffer] ∧ (w.iterate i).log = w.log)) := by
  obtain ⟨hdel, hinv⟩ := Kept.run hf hrun (.of_clean hclean)
  have haligned : w.stopped = none → ∃ todo, w.delivered ++ todo = payloads ∧ w.Aligned todo := by
    intro hgo
    obtain ⟨todo, htodo, hal | hlost⟩ := hinv hgo
    · exact ⟨todo, htodo, hal⟩
    · obtain ⟨e, he, hl⟩ := hlost.why
      exact absurd hl (hclean e he).not_losesFrame
  refine ⟨hdel, haligned, fun hgo hheld ↦ ⟨?_, fun ts' w' hrun' ↦ hheld.run hrun', ?_⟩⟩
  · obtain ⟨todo, htodo, hal⟩ := haligned hgo
    obtain ⟨rest, rfl, -⟩ := hal.of_held hheld
    exact ⟨rest, by simpa using htodo⟩
  · intro hrunning hm i
    rw [hheld.iterate_of_running hrunning i, if_pos hm]
    exact ⟨rfl, rfl⟩

/-- Two messages, the first of which arrives before there is a listener. -/
theorem buffered_delivery_late_listener : ∃ ts w,
    Run step (start 4 ⟨[]⟩ ⟨[]⟩ (sent [[7, 8], []])) ts w ∧ w.delivered = [[7, 8], []] ∧
      w.delivered <+: [[7, 8], []] := by
  obtain ⟨ts, w, hrun, hclean, hdel⟩ := Run.exists_of_trace step
    (start 4 ⟨[]⟩ ⟨[]⟩ (sent [[7, 8], []]))
    [.iterate { first := [.completion 0 0 4, .signal] },
      .iterate { first := [.interruption 0, .timeout], second := [.completion 0 0 2, .signal] },
      .iterate {}, .addListener 0, .iterate {}, .clearListeners,
      .iterate { first := [.completion 0 0 4, .signal] }, .addListener 1,
      .iterate { first := [.completion 0 0 0, .signal] }]
    (fun _ w ↦ (∀ e ∈ w.log, e.Clean) ∧ w.delivered = [[7, 8], []]) ⟨_, rfl, by decide⟩
  exact ⟨ts, w, hrun, hdel, (buffered_delivery (by decide) hrun hclean).1⟩

end Reader

end Datapath.Windows
