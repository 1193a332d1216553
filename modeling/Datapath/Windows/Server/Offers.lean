import Datapath.Windows.Server.Handles

/-!
# How clients are offered

`pending_sockets` is a queue.  Handles enter it at the back, in the connect phase, when
a client has been found on them.  The accept phase calls `on_accept` for every handle in
it, from the front, and removes all of them afterwards; it does nothing at all while
`on_accept` has no listener.  So every entry is offered once, in the order in which it
came, and waits in the list until then (`offered_in_order`).
-/

namespace Datapath.Windows

open Datapath.Lib

namespace Server

variable {W : Type*} {s s' : Server W}

/-! ## What a pass dispatches -/

/-- The handles for which a pass calls `on_accept`, in order. -/
def dispatched (s : Server W) (i : PassInput W) : List HANDLE :=
  (s.verified i).onAcceptCalls.drop s.onAcceptCalls.length

/-- The handles that a pass appends to `pending_sockets`, in order. -/
def entered (s : Server W) (i : PassInput W) : List HANDLE :=
  (s.connected i).pendingSockets.drop s.pendingSockets.length

theorem restock_calls (reply : Option HANDLE) (s : Server W) :
    (restock reply s).onAcceptCalls = s.onAcceptCalls := by
  rcases restock_cases reply s with ⟨hr, -⟩ | hr | ⟨h, -, -, -, hr⟩
  · rw [hr]
  · rw [hr]
  · rw [hr]
    rfl

theorem settle_calls (offer : Offer W) (h : HANDLE) (s : Server W) :
    (s.settle offer h).onAcceptCalls = s.onAcceptCalls ++ [h] := by
  unfold settle
  split
  · exact restock_calls offer.created _
  · rfl

/-- The loop over `pending_sockets` calls `on_accept` once for each handle. -/
theorem settleAll_calls (offer : HANDLE → Offer W) (l : List HANDLE) (s : Server W) :
    (s.settleAll offer l).onAcceptCalls = s.onAcceptCalls ++ l := by
  induction l generalizing s with
  | nil => exact (List.append_nil _).symm
  | cons h rest ih =>
      show ((s.settle (offer h) h).settleAll offer rest).onAcceptCalls = _
      rw [ih, settle_calls, List.append_assoc, List.singleton_append]

theorem connected_calls (i : PassInput W) (s : Server W) :
    (s.connected i).onAcceptCalls = s.onAcceptCalls := by
  refine foldl_keeps (fun st : Server W × List HANDLE ↦ st.1.onAcceptCalls) ?_ s.waitingSockets (s, [])
  rintro ⟨s', toKill⟩ h
  dsimp only [connectOne]
  split_ifs <;> rfl

/-- The accept phase calls `on_accept` for all pending handles if there is a listener. -/
theorem offered_calls (i : PassInput W) (s : Server W) : (s.offered i).onAcceptCalls =
    s.onAcceptCalls ++ if i.onAccept then (s.connected i).pendingSockets else [] := by
  rw [← connected_calls i s, offered]
  cases i.onAccept with
  | true =>
      rw [acceptPhase_eq]
      exact settleAll_calls i.offer _ _
  | false => exact (List.append_nil _).symm

theorem verified_calls (i : PassInput W) (s : Server W) :
    (s.verified i).onAcceptCalls = (s.offered i).onAcceptCalls := by
  refine foldl_keeps (fun st : Server W × List HANDLE ↦ st.1.onAcceptCalls) ?_
    (s.offered i).activeSockets (s.offered i, [])
  rintro ⟨s', toKill⟩ e
  rw [verifyOne_eq]
  split
  · rcases retire_cases e.1 s' toKill with ⟨-, hr⟩ | ⟨-, hr⟩
    · rw [hr]
    · rw [hr]
  · rfl

theorem dispatched_eq (i : PassInput W) (s : Server W) :
    s.dispatched i = if i.onAccept then (s.connected i).pendingSockets else [] := by
  rw [dispatched, verified_calls, offered_calls, List.drop_left]

theorem dispatched_of_listener {i : PassInput W} (h : i.onAccept = true) :
    s.dispatched i = (s.connected i).pendingSockets := by
  rw [dispatched_eq, if_pos h]

theorem dispatched_of_no_listener {i : PassInput W} (h : i.onAccept = false) : s.dispatched i = [] := by
  rw [dispatched_eq, h]
  rfl

/-! ## A pass and the queue -/

/-- In the connect phase handles only enter, at the back. -/
theorem pending_connected {i : PassInput W} (hzero : i.ConnectsReturnZero) (hov : s.ovmap = []) :
    (s.connected i).pendingSockets = s.pendingSockets ++ s.entered i := by
  obtain ⟨captured, heq⟩ := connectPhase_eq hzero hov
  have hpending : (s.connected i).pendingSockets =
      s.pendingSockets ++ s.waitingSockets.filter (Found i.connect) := by
    unfold connected
    rw [heq]
  rw [entered, hpending, List.drop_left]

/-- In the accept phase handles only leave: those that are dispatched, at the front. -/
theorem pending_offered (s : Server W) (i : PassInput W) :
    s.dispatched i ++ (s.offered i).pendingSockets = (s.connected i).pendingSockets := by
  cases hlistener : i.onAccept with
  | true =>
      have hnone : (s.offered i).pendingSockets = [] := by
        rw [offered, hlistener, acceptPhase_eq]
      rw [dispatched_of_listener hlistener, hnone, List.append_nil]
  | false =>
      rw [dispatched_of_no_listener hlistener, List.nil_append, offered, acceptPhase, hlistener]
      rfl

/-- The verify phase leaves the queue alone. -/
theorem pending_verified (s : Server W) (i : PassInput W) :
    (s.verified i).pendingSockets = (s.offered i).pendingSockets := by
  refine foldl_keeps (fun st : Server W × List HANDLE ↦ st.1.pendingSockets) ?_
    (s.offered i).activeSockets (s.offered i, [])
  rintro ⟨s', toKill⟩ e
  rw [verifyOne_eq]
  split
  · rcases retire_cases e.1 s' toKill with ⟨-, hr⟩ | ⟨-, hr⟩
    · rw [hr]
    · rw [hr]
  · rfl

/-- **A pass and the queue.**  What was pending and what enters in a pass is what it
dispatches and what is pending afterwards. -/
theorem pass_queue {i : PassInput W} (hzero : i.ConnectsReturnZero) (hov : s.ovmap = []) :
    s.pendingSockets ++ s.entered i = s.dispatched i ++ (s.verified i).pendingSockets := by
  rw [← pending_connected hzero hov, pending_verified, pending_offered]

/-! ## Runs -/

/-- In a pass without a listener nothing is dispatched, and pending handles stay where
they are. -/
def KeepsPending (t : Transition (Server W) (PassInput W)) : Prop :=
  t.label.onAccept = false → t.src.dispatched t.label = [] ∧
    ∀ r ∈ t.src.releases (.pass t.label), r.pendingSockets = t.src.pendingSockets ++ t.src.entered t.label

theorem keepsPending {t : Transition (Server W) (PassInput W)} (hzero : t.label.ConnectsReturnZero)
    (hov : t.src.ovmap = []) : KeepsPending t := by
  intro hlistener
  have hconnected := pending_connected hzero hov
  have hoffered := pending_offered t.src t.label
  rw [dispatched_of_no_listener hlistener, List.nil_append] at hoffered
  refine ⟨dispatched_of_no_listener hlistener, forall_releases_pass.2 ⟨hconnected, ?_, ?_⟩⟩
  · exact hoffered.trans hconnected
  · exact (pending_verified t.src t.label).trans (hoffered.trans hconnected)

/-- No handle is pending twice. -/
theorem Inv.pending_nodup (h : s.Inv) : s.pendingSockets.Nodup := by
  have hnodup := h.partitioned.ledger.nodup
  rw [List.append_assoc, List.nodup_append] at hnodup
  exact (List.nodup_append.1 hnodup.2.1).1

/-- **Clients are offered once and in order.**  Take any passes of any server.  The
handles that enter `pending_sockets`, in order, are the handles for which `on_accept` is
called, in order, and after them those that are still pending; no handle is pending
twice; and without a listener, pending handles stay as they are. -/
theorem offered_in_order {ts₀ : List (Transition (Server W) (Label W))}
    {ts : List (Transition (Server W) (PassInput W))} (hrun₀ : Run step start ts₀ s)
    (hzero₀ : ∀ t ∈ ts₀, t.label.ConnectsReturnZero) (hrun : Run (fun s i ↦ pass i s) s ts s')
    (hzero : ∀ t ∈ ts, t.label.ConnectsReturnZero) :
    s.pendingSockets ++ (ts.flatMap fun t ↦ t.src.entered t.label) =
        (ts.flatMap fun t ↦ t.src.dispatched t.label) ++ s'.pendingSockets ∧
      (∀ t ∈ ts, ∀ r ∈ t.src.releases (.pass t.label), r.pendingSockets.Nodup) ∧
      ∀ t ∈ ts, KeepsPending t := by
  have hinv : s.Inv := (hrun₀.invariant (fun _ hs hz h ↦ (Inv.step hs hz h).1) Inv.start hzero₀).1
  have hstep : ∀ t : Transition (Server W) (PassInput W), t.src.pass t.label = some t.dst →
      t.label.ConnectsReturnZero → t.src.Inv →
      t.dst.Inv ∧ ∀ r ∈ t.src.releases (.pass t.label), r.Inv := fun t hs hz h ↦
    Inv.step (t := ⟨t.src, .pass t.label, t.dst⟩) hs hz h
  have hall := (hrun.invariant (fun t hs hz h ↦ (hstep t hs hz h).1) hinv hzero).2
  refine ⟨hrun.queue _ _ _ fun t ht ↦ ?_, fun t ht r hr ↦ ?_, fun t ht ↦ ?_⟩
  · have hov := (hall t ht).1.ovmap
    rw [pass_queue (hzero t ht) hov, ((pass_eq_some_iff hov).1 (hrun.step_of_mem ht)).2]
  · exact ((hstep t (hrun.step_of_mem ht) (hzero t ht) (hall t ht).1).2 r hr).pending_nodup
  · exact keepsPending (hzero t ht) (hall t ht).1.ovmap

/-- A pass in which clients are found on the handles `found`; if `on_accept` has a
listener, it accepts those on odd handles. -/
def acceptOdd (found : List HANDLE) (onAccept : Bool) : PassInput Unit where
  signalled := none
  connect h := ⟨false, if h ∈ found then errorPipeConnected else errorIoPending⟩
  onAccept := onAccept
  offer h := ⟨(), h % 2 = 1, none⟩
  expired _ := false
  good _ := true

/-- Two clients come before there is a listener, and two more with it; one of the
handles comes again. -/
theorem offered_in_order_late : ∃ (s : Server Unit) (ts : List (Transition (Server Unit) (PassInput Unit)))
    (s' : Server Unit), Run (fun s i ↦ pass i s) s ts s' ∧
      (ts.flatMap fun t ↦ t.src.dispatched t.label) = [3, 2, 1, 4, 2] ∧
      s.pendingSockets ++ (ts.flatMap fun t ↦ t.src.entered t.label) =
        (ts.flatMap fun t ↦ t.src.dispatched t.label) ++ s'.pendingSockets := by
  obtain ⟨ts₀, s, hrun₀, hzero₀, rfl⟩ := Run.exists_of_labels step (start : Server Unit)
    [createEight 8] Label.ConnectsReturnZero
    (fun _ s ↦ s = (create ['p'] 8 (fun n ↦ some (8 - n)) (start : Server Unit)).2) (by simp) ⟨_, rfl, rfl⟩
  obtain ⟨ts, s', hrun, hzero, hdispatched⟩ := Run.exists_of_labels (fun s i ↦ pass i s)
    (create ['p'] 8 (fun n ↦ some (8 - n)) (start : Server Unit)).2
    [acceptOdd [3] false, acceptOdd [2] false, acceptOdd [1, 4] true, acceptOdd [2] true]
    PassInput.ConnectsReturnZero
    (fun ts _ ↦ (ts.flatMap fun t ↦ t.src.dispatched t.label) = [3, 2, 1, 4, 2])
    (by simp [acceptOdd, PassInput.ConnectsReturnZero]) ⟨_, rfl, by decide⟩
  exact ⟨_, ts, s', hrun, hdispatched, (offered_in_order hrun₀ hzero₀ hrun hzero).1⟩

end Server

end Datapath.Windows
