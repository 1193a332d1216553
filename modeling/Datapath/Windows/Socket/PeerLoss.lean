import Datapath.Windows.Socket.Alignment

/-!
# What a reader makes of a lost peer

When the peer is gone, `ReadFileEx` returns `FALSE`, or the completion routine of
a pending read is called, with `ERROR_BROKEN_PIPE`.  The loop ends a connection in
one place only, when a wait returns `Closed`, and a wait on an event object never
does: it would have to report `WAIT_ABANDONED`.  So neither kind of failure makes
the reader call `on_close` or mark the socket as closed.
-/

namespace Datapath.Windows

open Datapath.Lib

/-- A read failed because the other end of the pipe is gone. -/
def IoEvent.BrokenPipe : IoEvent → Prop
  | .started .. => False
  | .refused _ code => code = errorBrokenPipe
  | .completed _ _ dwErrorCode _ => dwErrorCode = errorBrokenPipe

instance : DecidablePred IoEvent.BrokenPipe
  | .started .. => .isFalse id
  | .refused _ code => inferInstanceAs (Decidable (code = errorBrokenPipe))
  | .completed _ _ dwErrorCode _ => inferInstanceAs (Decidable (dwErrorCode = errorBrokenPipe))

/-- No wait on an event object is abandoned. -/
def Iteration.EventsOnly (i : Iteration) : Prop :=
  (∀ c ∈ i.first, c ≠ .abandoned) ∧ ∀ c ∈ i.second, c ≠ .abandoned

instance (i : Iteration) : Decidable i.EventsOnly :=
  inferInstanceAs (Decidable ((∀ c ∈ i.first, c ≠ .abandoned) ∧ ∀ c ∈ i.second, c ≠ .abandoned))

namespace Reader

variable {w : Reader}

/-- `socket::good`. -/
def good (w : Reader) : Bool := w.isConnected

/-- In this round of the loop a read fails because the peer is gone. -/
def LosesPeer (w : Reader) (i : Iteration) : Prop :=
  ∃ e ∈ (w.iterate i).log.drop w.log.length, e.BrokenPipe

instance (w : Reader) (i : Iteration) : Decidable (w.LosesPeer i) :=
  inferInstanceAs (Decidable (∃ e ∈ (w.iterate i).log.drop w.log.length, e.BrokenPipe))

/-! ## What the loop leaves alone -/

/-- The connection state of the socket and the calls to `on_close`. -/
structure SameConnection (w w' : Reader) : Prop where
  isConnected : w'.isConnected = w.isConnected
  closeCalls : w'.closeCalls = w.closeCalls

/-- **Nothing the loop does touches the connection** as long as no wait is
abandoned. -/
theorem respects_sameConnection : Respects (· ≠ .abandoned) SameConnection where
  refl _ := ⟨rfl, rfl⟩
  trans _ _ _ h h' := ⟨h'.isConnected.trans h.isConnected, h'.closeCalls.trans h.closeCalls⟩
  complete w code bytes := by
    obtain ⟨_, _, _, _, _, _, hi⟩ := w.complete_frame code bytes
    rw [hi]
    exact ⟨rfl, rfl⟩
  signal w reply ov := by
    obtain ⟨_, _, _, _, _, _, hi⟩ := (w.resetEvent ov).waitSuccess_frame reply ov
    rw [hi]
    exact ⟨rfl, rfl⟩
  advance w i := by
    rcases advance_cases i w with hi | ⟨-, hi⟩ | ⟨code, -, hi⟩ | ⟨-, -, hi⟩
    · rw [hi]; exact ⟨rfl, rfl⟩
    · rw [hi]; exact ⟨rfl, rfl⟩
    · rw [hi]; exact ⟨rfl, rfl⟩
    · rw [hi]; exact ⟨rfl, rfl⟩
  stop _ _ := ⟨rfl, rfl⟩
  error h := absurd rfl h
  disconnect h := absurd rfl h

/-- A round of the loop that does anything at all is one of a connected socket. -/
theorem LosesPeer.isConnected {i : Iteration} (h : w.LosesPeer i) : w.isConnected = true := by
  obtain ⟨e, he, -⟩ := h
  by_contra hne
  have hlog : (w.iterate i).log = w.log := by
    simp only [Reader.iterate, Bool.eq_false_iff.2 hne, Bool.not_false, if_true]
    split
    · rfl
    · split <;> rfl
  rw [hlog, List.drop_length] at he
  exact absurd he List.not_mem_nil

/-! ## Runs -/

/-- **Peer loss goes unnoticed.**  In every run without abandoned waits, whenever a
read fails in some round because the peer is gone, `on_close` is not called in that
round, and at its end `good()` is still true. -/
theorem peer_loss_unnoticed {handle : HANDLE} {onMessage onClose : Event ℕ} {bytes : List UInt8}
    {ts : List (Transition Reader Label)} (hrun : Run step (start handle onMessage onClose bytes) ts w)
    (hevents : ∀ t ∈ ts, ∀ i, t.label = .iterate i → i.EventsOnly) :
    ∀ t ∈ ts, ∀ i, t.label = .iterate i → t.src.LosesPeer i →
      t.dst.good = true ∧ t.dst.closeCalls = t.src.closeCalls := by
  intro t ht i hl hlost
  have hstep := hrun.step_of_mem ht
  rw [hl] at hstep
  rw [step_iterate hstep]
  have hsame := respects_sameConnection.iterate t.src i (hevents t ht i hl).1 (hevents t ht i hl).2
  exact ⟨hsame.isConnected.trans hlost.isConnected, hsame.closeCalls⟩

/-- The first header read of a connection is refused. -/
theorem peer_loss_unnoticed_refused : ∃ ts w,
    Run step (start 4 ⟨[]⟩ ⟨[0]⟩ []) ts w ∧ ∃ t ∈ ts, ∃ i, t.label = .iterate i ∧
      t.src.LosesPeer i ∧ t.dst.good = true ∧ t.dst.closeCalls = t.src.closeCalls := by
  obtain ⟨ts, w, hrun, hevents, t, ht, hl, hlost⟩ := Run.exists_of_trace step (start 4 ⟨[]⟩ ⟨[0]⟩ [])
    [.iterate { header := .refused 109 }]
    (fun ts _ ↦ (∀ t ∈ ts, t.label = .iterate { header := .refused 109 }) ∧
      ∃ t ∈ ts, t.label = .iterate { header := .refused 109 } ∧
        t.src.LosesPeer { header := .refused 109 }) ⟨_, rfl, by decide⟩
  refine ⟨ts, w, hrun, t, ht, _, hl, hlost, peer_loss_unnoticed hrun (fun t ht i hi ↦ ?_) t ht _ hl hlost⟩
  cases (hevents t ht).symm.trans hi
  decide

/-- The first header read of a connection is refused because the peer is gone: the
socket stays good, and the listener of `on_close` is not called. -/
theorem peer_loss_keeps_connection :
    (start 4 ⟨[]⟩ ⟨[0]⟩ []).LosesPeer { header := .refused 109 } ∧
      ((start 4 ⟨[]⟩ ⟨[0]⟩ []).iterate { header := .refused 109 }).good = true ∧
      ((start 4 ⟨[]⟩ ⟨[0]⟩ []).iterate { header := .refused 109 }).closeCalls = 0 := by
  decide

end Reader

end Datapath.Windows
