import Datapath.Windows.Connections.Shutdown
import Datapath.Windows.Socket.Delivery

/-!
# Threads that join themselves

`socket::_disconnect` and `server::close` join the thread of the watcher.  Both can be
reached from that thread: the loop of a socket calls `_disconnect` when a wait returns
`Closed`, and `on_message` and `on_accept` are called from the loops.  `join` throws then,
no one catches, and the process ends.

A `Session` is a socket whose watcher runs while other threads call `close`, and while
listeners call it.  A listener of `on_close` that calls `close` is on the thread that
`on_close` was called from, so that its call is one more of that thread.
-/

namespace Datapath.Windows

open Datapath.Lib

namespace Reader

variable {w : Reader} {i : Iteration}

/-! ## What a round of the loop sees -/

/-- The wait after one that did not succeed returns `Closed`. -/
def observesClosedAgain (w : Reader) (i : Iteration) : Bool :=
  match w.waitable with
  | none => false
  | some ov => ((waiter i.content ov).wait 1000000 i.second w).1 = some .closed

/-- The waits of a round lead to `Closed`. -/
def awaitsClosed (w : Reader) (i : Iteration) : Bool :=
  match w.waitable with
  | none => false
  | some ov =>
      match (waiter i.content ov).wait 0 i.first w with
      | (none, _) | (some .success, _) => false
      | (some _, w') => w'.observesClosedAgain i

/-- The loop goes on, and the last wait of the round returns `Closed`. -/
def observesClosed (w : Reader) (i : Iteration) : Bool :=
  !w.shutdown && w.socketHandle ≠ invalidHandleValue && w.isConnected && (w.advance i).awaitsClosed i

/-- A message is dispatched in the round. -/
def dispatches (w : Reader) (i : Iteration) : Bool := (w.iterate i).delivered ≠ w.delivered

/-- A wait stops no thread. -/
theorem wait_stopped (w : Reader) (reply : ReadReply) (ov : Overlapped) (d : ℤ) (cs : List WaitEvent) :
    ((waiter reply ov).wait d cs w).2.stopped = w.stopped := by
  have hcomplete : ∀ (s : Reader) code bytes, s.stopped = w.stopped →
      (s.complete code bytes).stopped = w.stopped := by
    intro s code bytes hs
    obtain ⟨_, _, _, _, _, _, hi⟩ := s.complete_frame code bytes
    rw [hi]
    exact hs
  have hsignal : ∀ s : Reader, s.stopped = w.stopped →
      ((s.resetEvent ov).waitSuccess reply ov).stopped = w.stopped := by
    intro s hs
    obtain ⟨_, _, _, _, _, _, hi⟩ := (s.resetEvent ov).waitSuccess_frame reply ov
    rw [hi]
    exact hs
  rcases wait_rule reply ov (A := fun _ ↦ True) (R := fun _ s ↦ s.stopped = w.stopped) hcomplete
    (fun s hs _ ↦ hsignal s hs) (fun s hs ↦ ⟨hs, hs⟩) (fun s _ hs ↦ hs) d cs (fun _ _ ↦ trivial) rfl
    with ⟨s, hs, hI⟩ | ⟨r, s, hs, hR⟩
  · rw [hs]
    exact hI
  · rw [hs]
    exact hR

theorem advance_stopped (w : Reader) (i : Iteration) : (w.advance i).stopped = w.stopped := by
  rcases advance_cases i w with hi | ⟨-, hi⟩ | ⟨code, -, hi⟩ | ⟨-, -, hi⟩ <;> rw [hi]

theorem awaitAgain_selfJoin (hgo : w.stopped = none) :
    (w.awaitAgain i).stopped = some .selfJoin ↔ w.observesClosedAgain i = true := by
  unfold awaitAgain observesClosedAgain
  cases hw : w.waitable with
  | none => exact ⟨nofun, nofun⟩
  | some ov =>
      have hstopped := wait_stopped w i.content ov 1000000 i.second
      dsimp only
      rcases hr : (waiter i.content ov).wait 1000000 i.second w with ⟨r, w'⟩
      rw [hr, hgo] at hstopped
      cases r with
      | none => exact ⟨nofun, nofun⟩
      | some e =>
          cases e with
          | closed => exact ⟨fun _ ↦ rfl, fun _ ↦ rfl⟩
          | _ => exact ⟨fun hs ↦ absurd (hstopped.symm.trans hs) nofun, nofun⟩

theorem await_selfJoin (hgo : w.stopped = none) :
    (w.await i).stopped = some .selfJoin ↔ w.awaitsClosed i = true := by
  unfold await awaitsClosed
  cases hw : w.waitable with
  | none => exact ⟨fun hs ↦ absurd (hgo.symm.trans hs) nofun, nofun⟩
  | some ov =>
      have hstopped := wait_stopped w i.content ov 0 i.first
      dsimp only
      rcases hr : (waiter i.content ov).wait 0 i.first w with ⟨r, w'⟩
      rw [hr, hgo] at hstopped
      cases r with
      | none => exact ⟨nofun, nofun⟩
      | some e =>
          cases e with
          | success => exact ⟨fun hs ↦ absurd (hstopped.symm.trans hs) nofun, nofun⟩
          | _ => exact awaitAgain_selfJoin hstopped

/-- **The loop joins its own thread** exactly when its last wait returns `Closed`. -/
theorem iterate_selfJoin (hgo : w.stopped = none) :
    (w.iterate i).stopped = some .selfJoin ↔ w.observesClosed i = true := by
  have hawait := await_selfJoin (i := i) ((advance_stopped w i).trans hgo)
  unfold iterate observesClosed
  cases hshutdown : w.shutdown with
  | true => exact ⟨nofun, nofun⟩
  | false =>
      by_cases hhandle : w.socketHandle = invalidHandleValue
      · simp [hhandle]
      · cases hconn : w.isConnected with
        | false => simp [hhandle]
        | true => simpa [hhandle] using hawait

theorem disconnect_isConnected (w : Reader) : w.disconnect.isConnected = w.isConnected := by
  unfold disconnect
  split <;> rfl

theorem disconnect_stopped (w : Reader) : w.disconnect.stopped = some .selfJoin := rfl

/-- No round of the loop marks the socket as closed. -/
theorem iterate_isConnected (w : Reader) (i : Iteration) : (w.iterate i).isConnected = w.isConnected := by
  have hrespects : Respects (fun _ ↦ True) fun w w' : Reader ↦ w'.isConnected = w.isConnected :=
    { refl := fun _ ↦ rfl
      trans := fun _ _ _ h h' ↦ h'.trans h
      complete := fun w code bytes ↦ by
        obtain ⟨_, _, _, _, _, _, hi⟩ := w.complete_frame code bytes
        rw [hi]
      signal := fun w reply ov ↦ by
        obtain ⟨_, _, _, _, _, _, hi⟩ := (w.resetEvent ov).waitSuccess_frame reply ov
        rw [hi]
        rfl
      advance := fun w i ↦ by
        rcases advance_cases i w with hi | ⟨-, hi⟩ | ⟨code, -, hi⟩ | ⟨-, -, hi⟩ <;> rw [hi]
      stop := fun _ _ ↦ rfl
      error := fun _ _ ↦ rfl
      disconnect := fun _ w ↦ w.disconnect_isConnected }
  exact hrespects.iterate w i (fun _ _ ↦ trivial) fun _ _ ↦ trivial

end Reader

/-! ## Sockets -/

/-- A socket in use: its watcher, and the calls of `_disconnect` by other threads. -/
structure Session where
  reader : Reader
  /-- Those in `on_close`. -/
  notifying : ℕ := 0
  /-- Those that have set `watcher.shutdown` and join the watcher. -/
  joining : ℕ := 0
  /-- Those that have returned, since the socket was connected. -/
  returned : ℕ := 0

namespace Session

/-- What can happen next. -/
inductive Label where
  /-- A round of the loop; a listener of `on_message` that is called in it may call
  `close`. -/
  | iterate (i : Iteration) (closes : Bool)
  | addListener (listener : ℕ)
  | clearListeners
  /-- Another thread, or a listener of `on_close` on it, calls `close`. -/
  | close
  /-- `_disconnect` is done with `on_close`, and sets `watcher.shutdown`. -/
  | stop
  /-- `_disconnect` has joined the watcher, and returns. -/
  | joined
  /-- `_connect` on a socket that is closed. -/
  | connect (handle : HANDLE) (bytes : List UInt8)
deriving DecidableEq, Repr

/-- One round of the loop.  A message is dispatched at its end, so that nothing follows
the call of `close` in it. -/
def iterate (s : Session) (i : Iteration) (closes : Bool) : Session :=
  if closes && s.reader.dispatches i && s.reader.isConnected then
    { s with reader := (s.reader.iterate i).disconnect }
  else { s with reader := s.reader.iterate i }

/-- One step of a socket in use. -/
def step (s : Session) : Label → Option Session
  | .iterate i closes => if s.reader.stopped = none then some (s.iterate i closes) else none
  | .addListener f => some { s with reader := { s.reader with onMessage := s.reader.onMessage.add f } }
  | .clearListeners => some { s with reader := { s.reader with onMessage := s.reader.onMessage.clear } }
  | .close =>
      if s.reader.isConnected then some { s with
        notifying := s.notifying + 1
        reader := { s.reader with
          closeCalls := if s.reader.onClose.toBool then s.reader.closeCalls + 1 else s.reader.closeCalls } }
      else some s
  | .stop =>
      match s.notifying with
      | 0 => none
      | n + 1 => some { s with
          notifying := n, joining := s.joining + 1, reader := { s.reader with shutdown := true } }
  | .joined =>
      match s.joining with
      | 0 => none
      | n + 1 =>
          if s.reader.stopped = some .finished then some { s with
            joining := n, returned := s.returned + 1, reader := { s.reader with isConnected := false } }
          else none
  | .connect handle bytes =>
      if handle ≠ invalidHandleValue ∧ s.reader.stopped = some .finished ∧ s.reader.isConnected = false ∧
          s.notifying = 0 ∧ s.joining = 0 then
        some { reader := Reader.start handle s.reader.onMessage s.reader.onClose bytes }
      else none

/-- The socket that `_connect` has just connected. -/
def start (handle : HANDLE) (onMessage onClose : Event ℕ) (bytes : List UInt8) : Session :=
  { reader := Reader.start handle onMessage onClose bytes }

/-- The watcher has not joined itself, and the socket is not connected once a call of
`_disconnect` has returned. -/
def Sound (s : Session) : Prop :=
  s.reader.stopped ≠ some .selfJoin ∧ (0 < s.returned → s.reader.isConnected = false)

/-- In this step no last wait returns `Closed`, and no listener of `on_message` calls
`close`. -/
def Calm (t : Transition Session Label) : Prop :=
  match t.label with
  | .iterate i closes =>
      t.src.reader.observesClosed i = false ∧ ¬ (closes = true ∧ t.src.reader.dispatches i = true)
  | .addListener _ | .clearListeners | .close | .stop | .joined | .connect .. => True

instance : DecidablePred Calm
  | ⟨s, .iterate i closes, _⟩ => inferInstanceAs (Decidable
      (s.reader.observesClosed i = false ∧ ¬ (closes = true ∧ s.reader.dispatches i = true)))
  | ⟨_, .addListener _, _⟩ | ⟨_, .clearListeners, _⟩ | ⟨_, .close, _⟩ | ⟨_, .stop, _⟩
  | ⟨_, .joined, _⟩ | ⟨_, .connect .., _⟩ => .isTrue trivial

/-- What holds as long as the watcher has not joined itself. -/
structure Inv (s : Session) : Prop where
  sound : s.Sound
  connected : s.reader.stopped ≠ some .finished → s.reader.isConnected = true

variable {s s' : Session}

/-- A socket whose watcher has not left its loop has not been disconnected. -/
theorem Inv.not_returned (h : s.Inv) (hgo : s.reader.stopped ≠ some .finished) : s.returned = 0 := by
  by_contra hne
  have hf := h.sound.2 (Nat.pos_of_ne_zero hne)
  rw [h.connected hgo] at hf
  cases hf

theorem iterate_isConnected (s : Session) (i : Iteration) (closes : Bool) :
    (s.iterate i closes).reader.isConnected = s.reader.isConnected ∧
      (s.iterate i closes).returned = s.returned := by
  unfold iterate
  split
  · constructor
    · show (s.reader.iterate i).disconnect.isConnected = s.reader.isConnected
      rw [Reader.disconnect_isConnected, Reader.iterate_isConnected]
    · rfl
  · exact ⟨s.reader.iterate_isConnected i, rfl⟩

/-- A round joins the watcher with itself unless it is calm. -/
theorem Inv.iterate_iff (h : s.Inv) (hgo : s.reader.stopped = none) (i : Iteration) (closes : Bool) :
    (s.iterate i closes).Sound ↔
      s.reader.observesClosed i = false ∧ ¬ (closes = true ∧ s.reader.dispatches i = true) := by
  have hconn : s.reader.isConnected = true := h.connected (hgo ▸ nofun)
  have hreturned : (s.iterate i closes).returned = 0 :=
    (s.iterate_isConnected i closes).2.trans (h.not_returned (hgo ▸ nofun))
  have hsound : (s.iterate i closes).Sound ↔ (s.iterate i closes).reader.stopped ≠ some .selfJoin :=
    and_iff_left fun hpos ↦ absurd hreturned (Nat.ne_of_gt hpos)
  rw [hsound]
  unfold iterate
  by_cases hcloses : closes = true ∧ s.reader.dispatches i = true
  · rw [if_pos (by simp [hcloses, hconn])]
    constructor
    · intro hne
      exact absurd (Reader.disconnect_stopped _) hne
    · rintro ⟨-, hnot⟩
      exact absurd hcloses hnot
  · have hstay : ¬ (closes && s.reader.dispatches i && s.reader.isConnected) = true := by
      simpa [hconn] using hcloses
    rw [if_neg hstay]
    show (s.reader.iterate i).stopped ≠ some .selfJoin ↔ _
    rw [ne_eq, Reader.iterate_selfJoin hgo, Bool.not_eq_true]
    exact (and_iff_left hcloses).symm

/-- Every other step keeps the invariant. -/
theorem Inv.other {l : Label} (hs : s.step l = some s') (hother : ∀ i closes, l ≠ .iterate i closes)
    (h : s.Inv) : s'.Inv := by
  cases l with
  | iterate i closes => exact absurd rfl (hother i closes)
  | addListener | clearListeners =>
      cases hs
      exact ⟨h.sound, h.connected⟩
  | close =>
      simp only [Session.step] at hs
      split at hs
      · cases hs
        exact ⟨h.sound, h.connected⟩
      · cases hs
        exact h
  | stop =>
      simp only [Session.step] at hs
      split at hs
      · cases hs
      · cases hs
        exact ⟨h.sound, h.connected⟩
  | joined =>
      simp only [Session.step] at hs
      split at hs
      · cases hs
      · obtain ⟨hfinished, heq⟩ := Option.ite_none_right_eq_some.1 hs
        cases heq
        exact ⟨⟨h.sound.1, fun _ ↦ rfl⟩, fun hne ↦ absurd hfinished hne⟩
  | connect handle bytes =>
      obtain ⟨-, heq⟩ := Option.ite_none_right_eq_some.1 hs
      cases heq
      exact ⟨⟨nofun, nofun⟩, fun _ ↦ rfl⟩

/-- **One step** joins the watcher with itself exactly when it is not calm. -/
theorem Inv.sound_iff {l : Label} (hs : s.step l = some s') (h : s.Inv) :
    s'.Sound ↔ Calm ⟨s, l, s'⟩ := by
  cases l with
  | iterate i closes =>
      obtain ⟨hgo, heq⟩ := Option.ite_none_right_eq_some.1 hs
      cases heq
      exact h.iterate_iff hgo i closes
  | addListener | clearListeners | close | stop | joined | connect =>
      exact iff_of_true (Inv.other hs nofun h).sound trivial

theorem Inv.step {l : Label} (hs : s.step l = some s') (hcalm : Calm ⟨s, l, s'⟩) (h : s.Inv) :
    s'.Inv := by
  have hsound := (h.sound_iff hs).2 hcalm
  cases l with
  | iterate i closes =>
      obtain ⟨hgo, heq⟩ := Option.ite_none_right_eq_some.1 hs
      cases heq
      refine ⟨hsound, fun _ ↦ ?_⟩
      exact (s.iterate_isConnected i closes).1.trans (h.connected (hgo ▸ nofun))
  | addListener | clearListeners | close | stop | joined | connect => exact Inv.other hs nofun h

theorem Inv.start (handle : HANDLE) (onMessage onClose : Event ℕ) (bytes : List UInt8) :
    (start handle onMessage onClose bytes).Inv :=
  ⟨⟨nofun, nofun⟩, fun _ ↦ rfl⟩

end Session

/-! ## Servers -/

namespace Host

/-- In this step no listener of `on_accept` calls `close`, unless another thread is in
`close` and holds `watcher.lock`. -/
def Calm (t : Transition Host Label) : Prop := t.label = .closeInAccept → t.src.closing = true

variable {h h' : Host}

/-- **One step** of a server. -/
theorem sound_iff {l : Label} (hs : h.step l = some h') (hfate : h.fate ≠ .joinedItself) :
    h'.fate ≠ .joinedItself ↔ Calm ⟨h, l, h'⟩ := by
  cases step_cases hs with
  | act | close | closed | create => exact iff_of_true hfate nofun
  | closeInAccept =>
      show (if h.closing then Fate.blocked else .joinedItself) ≠ .joinedItself ↔ _
      cases hclosing : h.closing with
      | true => exact iff_of_true nofun fun _ ↦ hclosing
      | false =>
          refine iff_of_false (fun hne ↦ hne rfl) fun hcalm ↦ ?_
          cases hclosing.symm.trans (hcalm rfl)

end Host

/-! ## Runs -/

/-- **No thread joins itself**, and a socket on which `_disconnect` has returned is not
connected, exactly when no last wait of a round returns `Closed`, no listener of
`on_message` calls `close` on its socket, and no listener of `on_accept` calls `close`
on its server while no one else does. -/
theorem no_self_join {handle : HANDLE} {onMessage onClose : Event ℕ} {bytes : List UInt8}
    {ts : List (Transition Session Session.Label)} {s : Session}
    (hsocket : Run Session.step (Session.start handle onMessage onClose bytes) ts s)
    {ts' : List (Transition Host Host.Label)} {h : Host} (hserver : Run Host.step Host.start ts' h) :
    ((∀ t ∈ ts, t.dst.Sound) ↔ ∀ t ∈ ts, Session.Calm t) ∧
      ((∀ t ∈ ts', t.dst.fate ≠ .joinedItself) ↔ ∀ t ∈ ts', Host.Calm t) := by
  constructor
  · exact hsocket.forall_iff (H := fun _ ↦ True) (fun _ hs _ hcalm h ↦ h.step hs hcalm)
      (fun _ hs _ h ↦ h.sound_iff hs) (Session.Inv.start handle onMessage onClose bytes)
      fun _ _ ↦ trivial
  · exact hserver.forall_iff (I := fun h ↦ h.fate ≠ .joinedItself) (H := fun _ ↦ True)
      (fun _ hs _ hcalm h ↦ (Host.sound_iff hs h).2 hcalm) (fun _ hs _ h ↦ Host.sound_iff hs h)
      nofun fun _ _ ↦ trivial

/-- A message is dispatched, and another thread closes the socket. -/
def messageThenClose : List Session.Label :=
  [.iterate { first := [.completion 0 0 4, .signal] } false,
    .iterate { first := [.completion 0 0 1, .signal] } false, .close, .stop,
    .iterate {} false, .joined]

/-- A message is dispatched, and its listener calls `close`. -/
def closeInMessage : List Session.Label :=
  [.iterate { first := [.completion 0 0 4, .signal] } false,
    .iterate { first := [.completion 0 0 1, .signal] } true]

/-- A server is created, and a first client comes and is being offered. -/
def oneOffer : List Host.Label :=
  [.create ['p'] 100 fun n ↦ some (8 - n), .act (.clientConnects 1), .act .connect,
    .act (.accept true), .act .offer]

theorem no_self_join_close : ∃ ts s ts' h, Run Session.step (Session.start 4 ⟨[0]⟩ ⟨[0]⟩ [1, 0, 0, 0, 7]) ts s ∧
    Run Host.step Host.start ts' h ∧ s.returned = 1 ∧ h.system.phase.inAccept = true ∧
    (∀ t ∈ ts, t.dst.Sound) ∧ ∀ t ∈ ts', t.dst.fate ≠ .joinedItself := by
  obtain ⟨ts, s, hrun, hreturned, hcalm⟩ := Run.exists_of_trace Session.step
    (Session.start 4 ⟨[0]⟩ ⟨[0]⟩ [1, 0, 0, 0, 7]) messageThenClose
    (fun ts s ↦ s.returned = 1 ∧ ∀ t ∈ ts, Session.Calm t) ⟨_, rfl, by decide⟩
  obtain ⟨ts', h, hrun', hcalm', hoffered⟩ := Run.exists_of_labels Host.step Host.start oneOffer
    (fun l ↦ l ≠ .closeInAccept) (fun _ h ↦ h.system.phase.inAccept = true) (by simp [oneOffer])
    ⟨_, rfl, by decide⟩
  obtain ⟨hsocket, hserver⟩ := no_self_join hrun hrun'
  exact ⟨ts, s, ts', h, hrun, hrun', hreturned, hoffered, hsocket.2 hcalm,
    hserver.2 fun t ht hl ↦ absurd hl (hcalm' t ht)⟩

/-- A listener of `on_message`, and one of `on_accept`, that call `close`. -/
theorem listener_joins_itself :
    (∃ ts s, Run Session.step (Session.start 4 ⟨[0]⟩ ⟨[]⟩ [1, 0, 0, 0, 7]) ts s ∧
      ¬ ∀ t ∈ ts, t.dst.Sound) ∧
    ∃ ts h, Run Host.step Host.start ts h ∧ ¬ ∀ t ∈ ts, t.dst.fate ≠ .joinedItself := by
  constructor
  · obtain ⟨ts, s, hrun, t, ht, hstopped⟩ := Run.exists_of_trace Session.step
      (Session.start 4 ⟨[0]⟩ ⟨[]⟩ [1, 0, 0, 0, 7]) closeInMessage
      (fun ts _ ↦ ∃ t ∈ ts, t.dst.reader.stopped = some .selfJoin) ⟨_, rfl, by decide⟩
    exact ⟨ts, s, hrun, fun hall ↦ (hall t ht).1 hstopped⟩
  · obtain ⟨ts, h, hrun, t, ht, hfate⟩ := Run.exists_of_trace Host.step Host.start
      (oneOffer ++ [.closeInAccept]) (fun ts _ ↦ ∃ t ∈ ts, t.dst.fate = .joinedItself)
      ⟨_, rfl, by decide⟩
    exact ⟨ts, h, hrun, fun hall ↦ hall t ht hfate⟩

end Datapath.Windows
