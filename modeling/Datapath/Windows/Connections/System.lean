import Datapath.Windows.Server.Backlog

/-!
# A server, its clients and the sockets it has handed out

The watcher of a server makes its passes while clients connect and leave and user
code works with the sockets that `on_accept` has given to it.  A socket object keeps
the `HANDLE` it was made for, also after the server has put that handle back into
`waiting_sockets` and another client has connected on it.

A step is one phase of the watcher, except that the accept phase is taken apart
around the calls of `on_accept`, or one action of a client or of user code.  The
connect and the verify phase visit each handle once and run no code of the user; a
step on another handle in between is one before or after the phase.

`close` is two steps, since the destructor of a socket also calls it: from the
moment the last reference is gone, and before the destructor has disconnected the
pipe, the server finds the weak reference expired.  A write is one.
-/

namespace Datapath.Windows

open Datapath.Lib

/-- A socket object made by the accept phase. -/
structure Socket where
  socketHandle : HANDLE
  isConnected : Bool := true
  /-- User code, or the accept phase, has a reference to the object. -/
  held : Bool := true
  /-- The calls of `close` that have found the socket connected and have not
  disconnected the pipe yet. -/
  closing : ℕ := 0
  /-- The connection the object was made for. -/
  connection : Option ℕ
  /-- The number of connections there had been when it was made. -/
  since : ℕ
deriving DecidableEq, Repr

/-- Where the watcher is. -/
inductive Phase where
  | connect
  | accept
  /-- In the loop over `pending_sockets`, with some handles to go. -/
  | offering (rest : List HANDLE)
  /-- In `on_accept`, for a handle and the object made for it. -/
  | offered (h : HANDLE) (o : ℕ) (rest : List HANDLE)
  | verify
deriving DecidableEq, Repr

/-- The accept phase holds a reference to the object. -/
def Phase.offers (o : ℕ) : Phase → Bool
  | .offered _ o' _ => o' = o
  | .connect | .accept | .offering _ | .verify => false

/-- A server, the sockets made so far, by their numbers, and the number of
connections so far. -/
structure System where
  server : Server ℕ
  phase : Phase := .connect
  objects : ℕ → Option Socket := fun _ ↦ none
  made : ℕ := 0
  connections : ℕ := 0

/-- What can happen next. -/
inductive Action where
  /-- The connect phase. -/
  | connect
  /-- The accept phase begins, with or without a listener. -/
  | accept (listener : Bool)
  /-- A socket is made for the next pending handle and offered. -/
  | offer
  /-- `on_accept` returns; `keep` tells whether user code has kept a reference. -/
  | answer (accept keep : Bool) (created : Option HANDLE)
  /-- The accept phase ends. -/
  | acceptEnd
  | verify
  | clientConnects (h : HANDLE)
  | clientLeaves (h : HANDLE)
  | write (o : ℕ)
  /-- A call of `close` tests `is_connected`. -/
  | close (o : ℕ)
  /-- A call of `close` disconnects the pipe and the socket. -/
  | disconnect (o : ℕ)
  /-- The last reference goes away, and the destructor calls `close`. -/
  | drop (o : ℕ)
deriving DecidableEq, Repr

/-- `ERROR_INVALID_HANDLE`. -/
def errorInvalidHandle : ℕ := 6

/-- `ConnectNamedPipe` on an overlapped instance: it returns zero, and the error
tells whether a client is there, has gone, or is waited for. -/
def connectReply (k : Kernel) (h : HANDLE) : ConnectReply :=
  match k.pipes h with
  | some (.connected _) => ⟨false, errorPipeConnected⟩
  | some (.gone _) => ⟨false, errorNoData⟩
  | some .listening | some .disconnected => ⟨false, errorIoPending⟩
  | none => ⟨false, errorInvalidHandle⟩

namespace System

/-- Change an object. -/
def setObject (s : System) (o : ℕ) (obj : Socket) : System :=
  { s with objects := Function.update s.objects o (some obj) }

def setKernel (s : System) (kernel : Kernel) : System := { s with server := { s.server with kernel } }

/-- The kernel of the server. -/
def kernel (s : System) : Kernel := s.server.kernel

/-- `weak_ptr::expired`. -/
def expired (s : System) (o : ℕ) : Bool :=
  match s.objects o with
  | some obj => !obj.held
  | none => true

/-- `good`, through a weak reference that is not expired. -/
def good (s : System) (o : ℕ) : Bool :=
  match s.objects o with
  | some obj => obj.isConnected
  | none => false

/-! ## The watcher -/

/-- `_connect` on a new socket for the next pending handle. -/
def offer (s : System) : Option System :=
  match s.phase with
  | .offering (h :: rest) =>
      some { s with
        phase := .offered h s.made rest
        objects := Function.update s.objects s.made (some {
          socketHandle := h, connection := s.kernel.connection h, since := s.connections })
        made := s.made + 1 }
  | _ => none

/-- The rest of a round of the accept loop.  A socket that is refused is closed, and
one that user code has not kept is destroyed at the end of the round. -/
def answer (accept keep : Bool) (created : Option HANDLE) (s : System) : Option System :=
  match s.phase with
  | .offered h o rest =>
      match s.objects o with
      | none => none
      | some obj =>
          if !keep ∧ 0 < obj.closing then none
          else
            let s := { s with phase := .offering rest, server := s.server.settle ⟨o, accept, created⟩ h }
            if accept ∧ keep then some s
            else
              let s := if accept ∧ obj.isConnected then
                s.setKernel (s.kernel.disconnectNamedPipe h) else s
              some (s.setObject o { obj with isConnected := false, held := keep })
  | _ => none

/-! ## One step -/

/-- One step of the system. -/
def step (s : System) : Action → Option System
  | .connect =>
      if s.phase = .connect then some { s with
        phase := .accept, server := s.server.connectPhase (connectReply s.kernel) }
      else none
  | .accept listener =>
      if s.phase = .accept then some { s with
        phase := if listener then .offering s.server.pendingSockets else .verify }
      else none
  | .offer => s.offer
  | .answer accept keep created => s.answer accept keep created
  | .acceptEnd =>
      -- Every pending handle has been visited, and put on `to_kill`.
      if s.phase = .offering [] then some { s with
        phase := .verify, server := { s.server with pendingSockets := [] } }
      else none
  | .verify =>
      if s.phase = .verify then some { s with
        phase := .connect, server := s.server.verifyPhase s.expired s.good }
      else none
  | .clientConnects h =>
      if s.kernel.pipes h = some .listening then some { s.setKernel { s.kernel with
        pipes := Function.update s.kernel.pipes h (some (.connected s.connections)) } with
        connections := s.connections + 1 }
      else none
  | .clientLeaves h =>
      match s.kernel.pipes h with
      | some (.connected c) => some (s.setKernel { s.kernel with
          pipes := Function.update s.kernel.pipes h (some (.gone c)) })
      | _ => none
  | .write o =>
      match s.objects o with
      | some obj => if obj.held then some s else none
      | none => none
  | .close o =>
      match s.objects o with
      | some obj =>
          if obj.held then
            some (if obj.isConnected then s.setObject o { obj with closing := obj.closing + 1 } else s)
          else none
      | none => none
  | .disconnect o =>
      match s.objects o with
      | some obj =>
          match obj.closing with
          | 0 => none
          | n + 1 => some ((s.setKernel (s.kernel.disconnectNamedPipe obj.socketHandle)).setObject o
              { obj with isConnected := false, closing := n })
      | none => none
  | .drop o =>
      match s.objects o with
      | some obj =>
          if obj.held ∧ obj.closing = 0 ∧ !s.phase.offers o then
            some (s.setObject o
              { obj with held := false, closing := if obj.isConnected then 1 else 0 })
          else none
      | none => none

/-- The system of a server that has just been created. -/
def start (server : Server ℕ) : System := { server }

/-! ## What a step can do -/

/-- The steps, one by one. -/
inductive Stepped (s : System) : Action → System → Prop
  | connect (hp : s.phase = .connect) : Stepped s .connect { s with
      phase := .accept, server := s.server.connectPhase (connectReply s.kernel) }
  | accept (hp : s.phase = .accept) (listener : Bool) : Stepped s (.accept listener) { s with
      phase := if listener then .offering s.server.pendingSockets else .verify }
  | offer {h : HANDLE} {rest : List HANDLE} (hp : s.phase = .offering (h :: rest)) :
      Stepped s .offer { s with
        phase := .offered h s.made rest
        objects := Function.update s.objects s.made (some {
          socketHandle := h, connection := s.kernel.connection h, since := s.connections })
        made := s.made + 1 }
  /-- The client is accepted, and user code keeps its socket. -/
  | keep {h : HANDLE} {o : ℕ} {rest : List HANDLE} {obj : Socket} (hp : s.phase = .offered h o rest)
      (ho : s.objects o = some obj) (created : Option HANDLE) :
      Stepped s (.answer true true created) { s with
        phase := .offering rest, server := s.server.settle ⟨o, true, created⟩ h }
  /-- `sock->close()` has disconnected the pipe of a client who is refused. -/
  | refuse {h : HANDLE} {o : ℕ} {rest : List HANDLE} {obj : Socket}
      (hp : s.phase = .offered h o rest) (ho : s.objects o = some obj) (keep : Bool)
      (hbusy : keep = true ∨ obj.closing = 0) (created : Option HANDLE) :
      Stepped s (.answer false keep created) (setObject { s with
        phase := .offering rest, server := s.server.settle ⟨o, false, created⟩ h } o
        { obj with isConnected := false, held := keep })
  /-- The client is accepted, but user code does not keep the socket. -/
  | lose {h : HANDLE} {o : ℕ} {rest : List HANDLE} {obj : Socket}
      (hp : s.phase = .offered h o rest) (ho : s.objects o = some obj) (hbusy : obj.closing = 0)
      (hconn : obj.isConnected = true) (created : Option HANDLE) :
      Stepped s (.answer true false created) (setObject { s with
        phase := .offering rest
        server := { s.server.settle ⟨o, true, created⟩ h with
          kernel := (s.server.settle ⟨o, true, created⟩ h).kernel.disconnectNamedPipe h } } o
        { obj with isConnected := false, held := false })
  /-- The same, and the socket has been closed before. -/
  | loseClosed {h : HANDLE} {o : ℕ} {rest : List HANDLE} {obj : Socket}
      (hp : s.phase = .offered h o rest) (ho : s.objects o = some obj) (hbusy : obj.closing = 0)
      (hconn : obj.isConnected = false) (created : Option HANDLE) :
      Stepped s (.answer true false created) (setObject { s with
        phase := .offering rest, server := s.server.settle ⟨o, true, created⟩ h } o
        { obj with isConnected := false, held := false })
  | acceptEnd (hp : s.phase = .offering []) : Stepped s .acceptEnd { s with
      phase := .verify, server := { s.server with pendingSockets := [] } }
  | verify (hp : s.phase = .verify) : Stepped s .verify { s with
      phase := .connect, server := s.server.verifyPhase s.expired s.good }
  | clientConnects {h : HANDLE} (hl : s.kernel.pipes h = some .listening) :
      Stepped s (.clientConnects h) { s.setKernel { s.kernel with
        pipes := Function.update s.kernel.pipes h (some (.connected s.connections)) } with
        connections := s.connections + 1 }
  | clientLeaves {h : HANDLE} {c : ℕ} (hl : s.kernel.pipes h = some (.connected c)) :
      Stepped s (.clientLeaves h) (s.setKernel { s.kernel with
        pipes := Function.update s.kernel.pipes h (some (.gone c)) })
  | write {o : ℕ} {obj : Socket} (ho : s.objects o = some obj) (hh : obj.held = true) :
      Stepped s (.write o) s
  | close {o : ℕ} {obj : Socket} (ho : s.objects o = some obj) (hh : obj.held = true)
      (hconn : obj.isConnected = true) :
      Stepped s (.close o) (s.setObject o { obj with closing := obj.closing + 1 })
  /-- `close` returns `Closed`. -/
  | closed {o : ℕ} {obj : Socket} (ho : s.objects o = some obj) (hh : obj.held = true)
      (hconn : obj.isConnected = false) : Stepped s (.close o) s
  | disconnect {o n : ℕ} {obj : Socket} (ho : s.objects o = some obj) (hn : obj.closing = n + 1) :
      Stepped s (.disconnect o) ((s.setKernel
        (s.kernel.disconnectNamedPipe obj.socketHandle)).setObject o
        { obj with isConnected := false, closing := n })
  | drop {o : ℕ} {obj : Socket} (ho : s.objects o = some obj) (hh : obj.held = true)
      (hbusy : obj.closing = 0) (hoffers : s.phase.offers o = false) :
      Stepped s (.drop o) (s.setObject o
        { obj with held := false, closing := if obj.isConnected then 1 else 0 })

variable {s s' : System}

theorem answer_cases {accept keep : Bool} {created : Option HANDLE}
    (hs : s.answer accept keep created = some s') : Stepped s (.answer accept keep created) s' := by
  unfold answer at hs
  split at hs
  case h_2 => cases hs
  case h_1 h o rest hp =>
    split at hs
    case h_1 => cases hs
    case h_2 obj ho =>
      split at hs
      case isTrue => cases hs
      case isFalse hbusy =>
        cases accept with
        | false =>
            cases hs
            refine .refuse hp ho keep ?_ created
            cases keep with
            | true => exact .inl rfl
            | false => exact .inr (by simpa using hbusy)
        | true =>
            cases keep with
            | true =>
                cases hs
                exact .keep hp ho created
            | false =>
                have hidle : obj.closing = 0 := by simpa using hbusy
                cases hconn : obj.isConnected with
                | true =>
                    rw [hconn] at hs
                    cases hs
                    exact .lose hp ho hidle hconn created
                | false =>
                    rw [hconn] at hs
                    cases hs
                    exact .loseClosed hp ho hidle hconn created

/-- Every step is one of these. -/
theorem step_cases {l : Action} (hs : s.step l = some s') : Stepped s l s' := by
  cases l with
  | answer accept keep created => exact answer_cases hs
  | connect =>
      obtain ⟨hp, heq⟩ := Option.ite_none_right_eq_some.1 hs
      exact Option.some.inj heq ▸ .connect hp
  | accept listener =>
      obtain ⟨hp, heq⟩ := Option.ite_none_right_eq_some.1 hs
      exact Option.some.inj heq ▸ .accept hp listener
  | acceptEnd =>
      obtain ⟨hp, heq⟩ := Option.ite_none_right_eq_some.1 hs
      exact Option.some.inj heq ▸ .acceptEnd hp
  | verify =>
      obtain ⟨hp, heq⟩ := Option.ite_none_right_eq_some.1 hs
      exact Option.some.inj heq ▸ .verify hp
  | clientConnects h =>
      obtain ⟨hl, heq⟩ := Option.ite_none_right_eq_some.1 hs
      exact Option.some.inj heq ▸ .clientConnects hl
  | offer =>
      simp only [step, offer] at hs
      split at hs
      case h_1 h rest hp => exact Option.some.inj hs ▸ .offer hp
      case h_2 => cases hs
  | clientLeaves h =>
      simp only [step] at hs
      split at hs
      case h_1 c hl => exact Option.some.inj hs ▸ .clientLeaves hl
      case h_2 => cases hs
  | write o =>
      simp only [step] at hs
      split at hs
      case h_1 obj ho =>
        obtain ⟨hh, heq⟩ := Option.ite_none_right_eq_some.1 hs
        exact Option.some.inj heq ▸ .write ho hh
      case h_2 => cases hs
  | close o =>
      simp only [step] at hs
      split at hs
      case h_1 obj ho =>
        obtain ⟨hh, heq⟩ := Option.ite_none_right_eq_some.1 hs
        cases hconn : obj.isConnected with
        | true =>
            rw [if_pos hconn] at heq
            exact Option.some.inj heq ▸ .close ho hh hconn
        | false =>
            rw [hconn] at heq
            exact Option.some.inj heq ▸ .closed ho hh hconn
      case h_2 => cases hs
  | disconnect o =>
      simp only [step] at hs
      split at hs
      case h_1 obj ho =>
        split at hs
        case h_1 => cases hs
        case h_2 n hn => exact Option.some.inj hs ▸ .disconnect ho hn
      case h_2 => cases hs
  | drop o =>
      simp only [step] at hs
      split at hs
      case h_1 obj ho =>
        obtain ⟨⟨hh, hbusy, hoffers⟩, heq⟩ := Option.ite_none_right_eq_some.1 hs
        exact Option.some.inj heq ▸ .drop ho hh hbusy (by simpa using hoffers)
      case h_2 => cases hs

/-! ## What a step does to connections -/

/-- The objects through which a step writes bytes to a connection or disconnects one,
each with that connection. -/
def effects (s : System) : Action → List (ℕ × ℕ)
  | .write o =>
      match s.objects o with
      | some obj =>
          match s.kernel.pipes obj.socketHandle with
          | some (.connected c) => [(o, c)]
          | _ => []
      | none => []
  | .disconnect o =>
      match s.objects o with
      | some obj => (s.kernel.connection obj.socketHandle).toList.map fun c ↦ (o, c)
      | none => []
  | .answer accept keep _ =>
      match s.phase with
      | .offered h o _ =>
          match s.objects o with
          | some obj =>
              if obj.isConnected ∧ !(accept ∧ keep) then
                (s.kernel.connection h).toList.map fun c ↦ (o, c)
              else []
          | none => []
      | _ => []
  | .connect | .accept _ | .offer | .acceptEnd | .verify | .clientConnects _ | .clientLeaves _
  | .close _ | .drop _ => []

end System

end Datapath.Windows
