import Datapath.Lib.Ledger
import Datapath.Lib.OrderedMap
import Datapath.Lib.Run
import Datapath.Interface
import Datapath.Windows.Kernel

/-!
# The server and its watcher

A server keeps every pipe instance it has opened in `sockets`, and each of them in
one of three places: `waiting_sockets`, for those without a client,
`pending_sockets`, for those whose client has not been offered to `on_accept`, and
the map `active_sockets` from the handles of accepted clients to their sockets.
`_watcher` moves handles between these in passes of three phases, and releases the
lock of the server after each.

What the outside world decides in a pass is its input: what the waits report, what
`ConnectNamedPipe` answers, whether `on_accept` has a listener and what it says to
each client, which handles `CreateNamedPipeW` finds, and which sockets are expired
or no longer good.

`ConnectNamedPipe` returns zero for the overlapped instances that a server opens.
Were it to return something else, the handle would be watched through an overlapped
object, whose callback holds references to two variables of the loop that
registered it; the model keeps their last values in `itr` and `captured`.
-/

namespace Datapath.Windows

open Datapath.Lib

/-- `WIN_BACKLOG_NUM`. -/
def winBacklogNum : ℕ := 8

/-- `MAX_PATH`. -/
def maxPath : ℕ := 260

/-- `utility::make_pipe_path`: the path of a pipe, unless the name is too long.  A `Char` stands
for a byte of the `std::string`.  `make_wide_string`, which is called on the result, throws if
the bytes are not UTF-8; paths are taken to be. -/
def makePipePath (path : List Char) : Option (List Char) :=
  if maxPath - 10 ≤ path.length then none
  else some ("\\\\.\\pipe\\".toList ++ path.map fun v ↦ if v = '\\' then '/' else v)

/-- What `ConnectNamedPipe` returns, and `GetLastError` after it. -/
structure ConnectReply where
  suc : Bool
  lastError : ℕ
deriving DecidableEq, Repr

/-- The offer of one client to `on_accept`: the socket made for it, what the
listeners have left in `accept`, and the handle that `CreateNamedPipeW` would find
if it were called. -/
structure Offer (W : Type*) where
  sock : W
  accept : Bool
  created : Option HANDLE
deriving DecidableEq, Repr

/-- What the outside world decides in one pass. -/
structure PassInput (W : Type*) where
  /-- The watched handle whose wait succeeds, if there is one. -/
  signalled : Option HANDLE
  connect : HANDLE → ConnectReply
  /-- `on_accept` has a listener. -/
  onAccept : Bool
  offer : HANDLE → Offer W
  expired : W → Bool
  good : W → Bool

/-- A server; `W` is the type of its weak references to sockets. -/
structure Server (W : Type*) where
  maxClients : ℕ := 2 ^ 64 - 1
  path : List Char := []
  sockets : List HANDLE := []
  waitingSockets : List HANDLE := []
  pendingSockets : List HANDLE := []
  activeSockets : OrderedMap HANDLE W := []
  /-- The watcher thread is in its loop. -/
  running : Bool := false
  /-- The handles watched through an overlapped object. -/
  ovmap : List HANDLE := []
  /-- The iterator of the loop that fills `ovmap`; `none` is `end()`. -/
  itr : Option HANDLE := none
  /-- The variable `handle` of that loop. -/
  captured : HANDLE := 0
  kernel : Kernel := {}
  /-- What the calls of `_create_socket` have returned, in order. -/
  created : List HANDLE := []
  /-- The handles for which `on_accept` has been called, in order. -/
  onAcceptCalls : List HANDLE := []

namespace Server

variable {W : Type*}

/-! ## Opening instances -/

/-- `_create_socket`; `reply` is the handle that `CreateNamedPipeW` finds. -/
def createSocket (reply : Option HANDLE) (s : Server W) : HANDLE × Server W :=
  match makePipePath s.path with
  | none => (invalidHandleValue, { s with created := s.created ++ [invalidHandleValue] })
  | some _ =>
      let (handle, kernel) := s.kernel.createNamedPipe reply
      (handle, { s with kernel, created := s.created ++ [handle] })

/-- A new instance waits for its first client. -/
def enlist (handle : HANDLE) (s : Server W) : Server W :=
  { s with
    sockets := s.sockets ++ [handle]
    waitingSockets := s.waitingSockets ++ [handle] }

/-- `DisconnectNamedPipe` and `CloseHandle`. -/
def kill (kernel : Kernel) (handle : HANDLE) : Kernel :=
  (kernel.disconnectNamedPipe handle).closeHandle handle

/-- `close`.  The watcher has been joined when the handles are closed. -/
def close (s : Server W) : Server W :=
  { s with
    running := false
    ovmap := []
    itr := none
    kernel := s.sockets.foldl kill s.kernel
    sockets := []
    waitingSockets := []
    pendingSockets := []
    activeSockets := [] }

/-- The loop of `create` that opens the backlog, with `n` instances to go. -/
def spawn (replies : ℕ → Option HANDLE) : ℕ → Server W → error × Server W
  | 0, s => (.success, s)
  | n + 1, s =>
      match s.createSocket (replies n) with
      | (handle, s) =>
          if handle = invalidHandleValue then (.criticalFailure, s.close)
          else spawn replies n (s.enlist handle)

/-- The beginning of `create`: close the old sockets and apply the options. -/
def prepare (path : List Char) (maxClients : ℕ) (s : Server W) : Server W :=
  { s.close with maxClients, path }

/-- `create`. -/
def create (path : List Char) (maxClients : ℕ) (replies : ℕ → Option HANDLE) (s : Server W) :
    error × Server W :=
  match spawn replies winBacklogNum (s.prepare path maxClients) with
  | (.success, s) => (.success, { s with running := true })
  | (ec, s) => (ec, s)

/-! ## A pass of the watcher -/

/-- The callback of a watched handle. -/
def onWaitSuccess (s : Server W) : Option (Server W) :=
  match s.itr with
  | none => none -- `erase(end())` is undefined.
  | some h => some { s with
      waitingSockets := s.waitingSockets.erase h
      pendingSockets := s.pendingSockets ++ [s.captured]
      ovmap := s.ovmap.filter (· ≠ s.captured) }

/-- The waits for the watched handles. -/
def waitPhase (signalled : Option HANDLE) (s : Server W) : Option (Server W) :=
  match signalled with
  | none => some s
  | some h => if h ∈ s.ovmap then s.onWaitSuccess else some s

/-- One round of the loop over `waiting_sockets`; the second component is `to_kill`. -/
def connectOne (connect : HANDLE → ConnectReply) :
    Server W × List HANDLE → HANDLE → Server W × List HANDLE
  | (s, toKill), h =>
      let s := { s with itr := some h }
      if h ∈ s.ovmap then (s, toKill)
      else
        let s := { s with captured := h, kernel := s.kernel.connectNamedPipe h }
        if (connect h).suc then ({ s with ovmap := s.ovmap ++ [h] }, toKill)
        else if (connect h).lastError = errorPipeConnected then
          ({ s with pendingSockets := s.pendingSockets ++ [h] }, toKill ++ [h])
        else (s, toKill)

/-- Look for clients on the waiting instances. -/
def connectPhase (connect : HANDLE → ConnectReply) (s : Server W) : Server W :=
  match s.waitingSockets.foldl (connectOne connect) (s, []) with
  | (s, toKill) => { s with
      itr := none
      waitingSockets := s.waitingSockets.filter (· ∉ toKill) }

/-- Restock the backlog after a client has been accepted. -/
def restock (reply : Option HANDLE) (s : Server W) : Server W :=
  if s.waitingSockets.length + s.pendingSockets.length < winBacklogNum then
    if s.sockets.length ≤ s.maxClients ∧ 0 < s.maxClients then
      match s.createSocket reply with
      | (handle, s) => if handle ≠ invalidHandleValue then s.enlist handle else s
    else s
  else s

/-- The call of `on_accept` for a handle, and what follows it. -/
def settle (offer : Offer W) (handle : HANDLE) (s : Server W) : Server W :=
  if offer.accept then
    restock offer.created { s with
      onAcceptCalls := s.onAcceptCalls ++ [handle]
      activeSockets := OrderedMap.insert handle offer.sock s.activeSockets }
  else
    -- `sock->close()` disconnects the pipe.
    { s with
      onAcceptCalls := s.onAcceptCalls ++ [handle]
      kernel := s.kernel.disconnectNamedPipe handle
      waitingSockets := s.waitingSockets ++ [handle] }

/-- One round of the loop over `pending_sockets`; the second component is `to_kill`. -/
def acceptOne (offer : HANDLE → Offer W) :
    Server W × List HANDLE → HANDLE → Server W × List HANDLE
  | (s, toKill), h => (s.settle (offer h) h, toKill ++ [h])

/-- Offer the pending clients to `on_accept`. -/
def acceptPhase (onAccept : Bool) (offer : HANDLE → Offer W) (s : Server W) : Server W :=
  if onAccept then
    match s.pendingSockets.foldl (acceptOne offer) (s, []) with
    | (s, toKill) => { s with pendingSockets := s.pendingSockets.filter (· ∉ toKill) }
  else s

/-- A dead connection goes back to the waiting instances, or is closed if there are
enough of these; the second component is `to_kill`. -/
def retire (h : HANDLE) (s : Server W) (toKill : List HANDLE) : Server W × List HANDLE :=
  if s.waitingSockets.length + s.pendingSockets.length < winBacklogNum then
    ({ s with
      waitingSockets := s.waitingSockets ++ [h]
      activeSockets := OrderedMap.erase h s.activeSockets }, toKill)
  else
    ({ s with
      kernel := kill s.kernel h
      activeSockets := OrderedMap.erase h s.activeSockets }, toKill ++ [h])

/-- One round of the loop over `active_sockets`. -/
def verifyOne (expired good : W → Bool) :
    Server W × List HANDLE → HANDLE × W → Server W × List HANDLE
  | (s, toKill), (h, w) =>
      if expired w then retire h s toKill
      else if !good w then retire h s toKill
      else (s, toKill)

/-- Look for dead connections.  The loop of the source erases the entry of a dead connection
and then advances the iterator to it, which is undefined (`Erasure`).  Here the entry is taken
as dropped, and the loop goes on with the next one. -/
def verifyPhase (expired good : W → Bool) (s : Server W) : Server W :=
  match s.activeSockets.foldl (verifyOne expired good) (s, []) with
  | (s, toKill) => { s with activeSockets := s.activeSockets.filter (·.1 ∉ toKill) }

/-- The server after the connect phase of a pass. -/
def connected (i : PassInput W) (s : Server W) : Server W := s.connectPhase i.connect

/-- The server after the accept phase of a pass. -/
def offered (i : PassInput W) (s : Server W) : Server W :=
  (s.connected i).acceptPhase i.onAccept i.offer

/-- The server after the verify phase of a pass. -/
def verified (i : PassInput W) (s : Server W) : Server W :=
  (s.offered i).verifyPhase i.expired i.good

/-- One pass of `_watcher`. -/
def pass (i : PassInput W) (s : Server W) : Option (Server W) :=
  if s.running then (s.waitPhase i.signalled).map (verified i) else none

/-! ## Runs -/

/-- The states of `create` in which the lock is released, in the loop that opens the
backlog. -/
def spawnReleases (replies : ℕ → Option HANDLE) : ℕ → Server W → List (Server W)
  | 0, _ => []
  | n + 1, s =>
      match s.createSocket (replies n) with
      | (handle, s) =>
          if handle = invalidHandleValue then []
          else s.enlist handle :: spawnReleases replies n (s.enlist handle)

/-- What can happen to a server. -/
inductive Label (W : Type*) where
  | create (path : List Char) (maxClients : ℕ) (replies : ℕ → Option HANDLE)
  | pass (i : PassInput W)
  | close

/-- The server that the constructor makes. -/
def start : Server W := {}

/-- One step of a server. -/
def step (s : Server W) : Label W → Option (Server W)
  | .create path maxClients replies => some (s.create path maxClients replies).2
  | .pass i => s.pass i
  | .close => some s.close

/-- The states in which a step releases the lock of the server. -/
def releases (s : Server W) : Label W → List (Server W)
  | .create path maxClients replies =>
      s.close :: (spawnReleases replies winBacklogNum (s.prepare path maxClients) ++
        [(s.create path maxClients replies).2])
  | .pass i => [s.connected i, s.offered i, s.verified i]
  | .close => [s.close]

end Server

end Datapath.Windows
