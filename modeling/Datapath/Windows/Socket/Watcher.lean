import Datapath.Lib.Run
import Datapath.Windows.Kernel
import Datapath.Windows.Task
import Datapath.Windows.Waitable

/-!
# The reader loop of a socket

`socket::_watcher` reads a frame with two overlapped reads into one buffer: a
header read of `sizeof(SIZE_ELEMENT)` bytes, whose success callback resizes the
buffer to the length it finds and starts the content read, whose success callback
dispatches the buffer to `on_message`.  If `on_message` has no listener the
message stays in the buffer, and the loop body dispatches it in a later
iteration.

`Reader` is the state of one watcher thread: the fields of the socket it uses, the
local variables of `_watcher`, and the part of the operating system it talks to.
The pipe is the list of bytes the peer sends, of which the reader has consumed
`position`.  Everything the outside world decides is an input: whether a
`ReadFileEx` starts, when a pending read completes, with which error code and how
many bytes, and what each wait reports.

The loop calls three functions of its own that never return to it in the usual
way; `Stop` names the ways in which an iteration does not lead to the next.
-/

namespace Datapath.Windows

open Datapath.Lib

/-- `readstate`. -/
inductive ReadState where
  | unknown
  | header
  | content
deriving DecidableEq, Repr

/-- The two overlapped objects of `_watcher`. -/
inductive Overlapped where
  | readHeader
  | readContent
deriving DecidableEq, Repr

/-- A read that has been started and has not completed. -/
structure PendingRead where
  ov : Overlapped
  size : ℕ
deriving DecidableEq, Repr

/-- What happens between the reader and the pipe. -/
inductive IoEvent where
  /-- `ReadFileEx` returned `TRUE`, with `position` bytes of the stream consumed before. -/
  | started (ov : Overlapped) (position size : ℕ)
  /-- `ReadFileEx` returned `FALSE`; `GetLastError` is `code`. -/
  | refused (ov : Overlapped) (code : ℕ)
  /-- The completion routine was called for a read of `size` bytes. -/
  | completed (ov : Overlapped) (size dwErrorCode dwNumberOfBytesTransfered : ℕ)
deriving DecidableEq, Repr

/-- Why the watcher thread does not reach its next iteration. -/
inductive Stop where
  /-- The loop was left. -/
  | finished
  /-- The thread is inside `waitable::wait`, which has not returned. -/
  | waiting
  /-- `wait` was called through a null `waitable`. -/
  | nullWaitable
  /-- The thread joined itself, and `join` threw. -/
  | selfJoin
deriving DecidableEq, Repr

/-- The state of a socket's watcher thread. -/
structure Reader where
  isConnected : Bool
  socketHandle : HANDLE
  shutdown : Bool
  onMessage : Event ℕ
  onClose : Event ℕ
  state : ReadState
  readBuffer : List UInt8
  waitable : Option Overlapped
  /-- The bytes the peer sends that no read has taken yet. -/
  stream : List UInt8
  position : ℕ
  outstanding : List PendingRead
  /-- The event in each `OVERLAPPED`. -/
  signalled : Overlapped → Bool
  log : List IoEvent
  /-- The messages dispatched to a non-empty `on_message`. -/
  delivered : List (List UInt8)
  /-- How often the listeners of `on_close` have been called. -/
  closeCalls : ℕ
  stopped : Option Stop

/-- What the outside world answers to one `ReadFileEx`. -/
inductive ReadReply where
  | started
  | refused (code : ℕ)
deriving DecidableEq, Repr

/-- What the outside world does in one call of `WaitForSingleObjectEx`. -/
inductive WaitEvent where
  /-- The oldest read completes with an error code and up to so many bytes. -/
  | completion (elapsed : ℤ) (dwErrorCode bytes : ℕ)
  /-- A completion routine of another operation of this thread runs. -/
  | interruption (elapsed : ℤ)
  /-- The event is tested. -/
  | signal
  | timeout
  | abandoned
  | failed
deriving DecidableEq, Repr

/-- What the outside world does during one iteration of the loop. -/
structure Iteration where
  header : ReadReply := .started
  content : ReadReply := .started
  /-- During `wait(0ms)`. -/
  first : List WaitEvent := []
  /-- During `wait(1ms)`. -/
  second : List WaitEvent := []
deriving DecidableEq, Repr

namespace Reader

/-! ## The operating system -/

/-- `ReadFileEx` into the whole of `read_buffer`. -/
def readFileEx (w : Reader) (reply : ReadReply) (ov : Overlapped) : Bool × Reader :=
  match reply with
  | .started => (true, { w with
      outstanding := w.outstanding ++ [⟨ov, w.readBuffer.length⟩]
      log := w.log ++ [.started ov w.position w.readBuffer.length] })
  | .refused code => (false, { w with log := w.log ++ [.refused ov code] })

/-- `def_io_completion_routine`: neither the error code nor the byte count is
looked at. -/
def defIoCompletionRoutine (_dwErrorCode _dwNumberOfBytesTransfered : ℕ) (ov : Overlapped)
    (w : Reader) : Reader :=
  { w with signalled := Function.update w.signalled ov true }

/-- The oldest outstanding read completes: the pipe gives at most what was asked
for and at most what it has, and the completion routine is called.  A read of no bytes,
that of an empty content, is taken to complete on an empty pipe as well. -/
def complete (w : Reader) (dwErrorCode bytes : ℕ) : Reader :=
  match w.outstanding with
  | [] => w
  | r :: rest =>
      let n := min bytes (min r.size w.stream.length)
      defIoCompletionRoutine dwErrorCode n r.ov { w with
        readBuffer := blit 0 (w.stream.take n) w.readBuffer
        stream := w.stream.drop n
        position := w.position + n
        outstanding := rest
        log := w.log ++ [.completed r.ov r.size dwErrorCode n] }

/-- A wait on the event consumes the signal: the events are created auto-reset. -/
def resetEvent (w : Reader) (ov : Overlapped) : Reader :=
  { w with signalled := Function.update w.signalled ov false }

/-! ## The callbacks -/

/-- `this->on_message(read_buffer)`. -/
def dispatch (w : Reader) : Reader := { w with delivered := w.delivered ++ [w.readBuffer] }

/-- `read_header_ov->_on_wait_success`. -/
def headerSuccess (reply : ReadReply) (w : Reader) : Reader :=
  let msgSize := ofLE (w.readBuffer.take sizeElement)
  let w := { w with readBuffer := resize msgSize w.readBuffer }
  match w.readFileEx reply .readContent with
  | (true, w) => { w with state := .content, waitable := some .readContent }
  | (false, w) => { w with state := .unknown, waitable := none }

/-- `read_content_ov->_on_wait_success`. -/
def contentSuccess (w : Reader) : Reader :=
  -- Without a listener the message stays in the buffer and the state stays Content.
  let w := if w.onMessage.toBool then { w.dispatch with state := .unknown } else w
  { w with waitable := none }

/-- `_on_wait_success` of an overlapped object. -/
def waitSuccess (reply : ReadReply) (ov : Overlapped) (w : Reader) : Reader :=
  match ov with
  | .readHeader => w.headerSuccess reply
  | .readContent => w.contentSuccess

/-- `_on_wait_error` of either overlapped object. -/
def waitError (w : Reader) : Reader := { w with state := .unknown, waitable := none }

/-- An overlapped object as `waitable::wait` sees it. -/
def waiter (reply : ReadReply) (ov : Overlapped) : Waiter Reader WaitEvent where
  waitForSingleObjectEx e _ w :=
    match e with
    | .completion elapsed dwErrorCode bytes => (.ioCompletion, elapsed, w.complete dwErrorCode bytes)
    | .interruption elapsed => (.ioCompletion, elapsed, w)
    | .signal => if w.signalled ov then (.object0, 0, w.resetEvent ov) else (.timeout, 0, w)
    | .timeout => (.timeout, 0, w)
    | .abandoned => (.abandoned, 0, w)
    | .failed => (.failed, 0, w)
  onWaitSuccess _ w := w.waitSuccess reply ov
  onWaitError _ w := w.waitError

/-! ## The loop -/

/-- `_disconnect`, called by the watcher thread itself: the thread to join is the
calling one, so `join` throws and `is_connected` stays as it is. -/
def disconnect (w : Reader) : Reader :=
  let w := if w.onClose.toBool then { w with closeCalls := w.closeCalls + 1 } else w
  { w with shutdown := true, stopped := some .selfJoin }

/-- The first half of the loop body: what the read state asks for. -/
def advance (i : Iteration) (w : Reader) : Reader :=
  match w.state with
  | .unknown =>
      let w := { w with readBuffer := resize sizeElement w.readBuffer }
      match w.readFileEx i.header .readHeader with
      | (true, w) => { w with state := .header, waitable := some .readHeader }
      | (false, w) => { w with state := .unknown, waitable := none }
  | .header => w
  | .content =>
      match w.waitable with
      | none => if w.onMessage.toBool then { w.dispatch with state := .unknown } else w
      | some _ => w

/-- The wait that follows one that did not succeed, through whatever `waitable`
the first one has left, and what the loop does with its result. -/
def awaitAgain (i : Iteration) (w : Reader) : Reader :=
  match w.waitable with
  | none => { w with stopped := some .nullWaitable }
  | some ov =>
      match (waiter i.content ov).wait 1000000 i.second w with
      | (none, w) => { w with stopped := some .waiting }
      | (some .closed, w) => w.disconnect
      | (some _, w) => w

/-- The second half of the loop body: sleep, or wait for the current read. -/
def await (i : Iteration) (w : Reader) : Reader :=
  match w.waitable with
  | none => w
  | some ov =>
      match (waiter i.content ov).wait 0 i.first w with
      | (none, w) => { w with stopped := some .waiting }
      | (some .success, w) => w
      | (some _, w) => w.awaitAgain i

/-- One round of the loop of `_watcher`. -/
def iterate (i : Iteration) (w : Reader) : Reader :=
  if w.shutdown then { w with stopped := some .finished }
  else if w.socketHandle = invalidHandleValue then { w with stopped := some .finished }
  else if !w.isConnected then { w with stopped := some .finished }
  else (w.advance i).await i

/-- What can happen to a reader: an iteration of its loop, or, between two
iterations, a change of the listeners or a `close()` from another thread (which
disconnects the pipe, calls `on_close`, asks the loop to stop and then waits for
it). -/
inductive Label where
  | iterate (i : Iteration)
  | addListener (listener : ℕ)
  | clearListeners
  | close
deriving DecidableEq, Repr

/-- One step of a reader that has not stopped. -/
def step (w : Reader) (l : Label) : Option Reader :=
  match w.stopped with
  | some _ => none
  | none =>
      match l with
      | .iterate i => some (w.iterate i)
      | .addListener f => some { w with onMessage := w.onMessage.add f }
      | .clearListeners => some { w with onMessage := w.onMessage.clear }
      | .close =>
          if w.isConnected then some { w with
            closeCalls := if w.onClose.toBool then w.closeCalls + 1 else w.closeCalls
            shutdown := true }
          else some w

/-- The reader that `_connect` starts on a handle, with `bytes` coming in. -/
def start (handle : HANDLE) (onMessage onClose : Event ℕ) (bytes : List UInt8) : Reader where
  isConnected := true
  socketHandle := handle
  shutdown := false
  onMessage := onMessage
  onClose := onClose
  state := .unknown
  readBuffer := []
  waitable := none
  stream := bytes
  position := 0
  outstanding := []
  signalled := fun _ ↦ false
  log := []
  delivered := []
  closeCalls := 0
  stopped := none

/-- A complete message is in the buffer and has not been dispatched. -/
def Held (w : Reader) : Prop := w.state = .content ∧ w.waitable = none

end Reader

end Datapath.Windows
