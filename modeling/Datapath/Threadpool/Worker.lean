import Datapath.Lib.Run
import Mathlib.Data.BitVec

/-!
# A worker of the thread pool

A worker is a queue of tasks and a thread, the *runner*, that goes round three
steps: it copies the front of the queue under the mutex, runs the function of the
copy without it, and takes the mutex again to pop the queue and, if the queue is
then empty, to wait on the condition variable.

A step of the model is one section protected by the mutex, or one action outside
of it.  `signal.wait` is two steps, since the mutex is still held between the
evaluation of the predicate and the moment the runner blocks: no other thread can
push or clear there, but the destructor, which does not take the mutex, can set
`should_stop` and notify.  `notify_all` wakes a runner that is blocked, and no
other.

An entry of the queue carries a number, so that two pushes of the same task can be
told apart.  The lists `pushed`, `cleared`, `started` and `ran` record what has
happened; no step of the code reads them.
-/

namespace Datapath.Threadpool

/-- `affinity_t`. -/
abbrev Affinity := BitVec 64

/-- `default_mask`: every worker. -/
def defaultMask : Affinity := BitVec.allOnes 64

/-- `threadpool::task`; a function is known by its number. -/
structure Task where
  function : Option ℕ
  mask : Affinity := defaultMask
deriving DecidableEq, Repr

/-- One element of a worker's queue. -/
structure Entry where
  id : ℕ
  task : Task
deriving DecidableEq, Repr

/-- Where the runner is. -/
inductive Point where
  /-- At the head of the loop. -/
  | loop
  /-- Before the section that copies the front. -/
  | grab
  /-- Before the call of the function. -/
  | execute
  /-- Inside the function. -/
  | running
  /-- Before the section that pops. -/
  | retire
  /-- In `signal.wait`, holding the mutex, with the predicate found false. -/
  | waiting
  /-- Blocked in `signal.wait`; `woken` once there is a wake-up for it. -/
  | blocked (woken : Bool)
  /-- Out of the loop. -/
  | finished
  /-- `queue.pop()` was called on an empty queue. -/
  | undefined
deriving DecidableEq, Repr

/-- How far `~worker` has come. -/
inductive Destructor where
  | idle
  /-- `should_stop` is set. -/
  | stopping
  /-- `notify_all` has been called, and the runner is being joined. -/
  | joining
deriving DecidableEq, Repr

/-- A worker, with its runner. -/
structure Worker where
  affinity : Affinity
  shouldStop : Bool := false
  queue : List Entry := []
  point : Point := .loop
  myTask : Option Entry := none
  destructor : Destructor := .idle
  /-- The pushes that have not called `notify_all` yet. -/
  notifies : ℕ := 0
  pushed : List Entry := []
  cleared : List Entry := []
  started : List Entry := []
  ran : List Entry := []

/-- What the threads around a worker can do. -/
inductive Label where
  /-- The section of `worker::push`. -/
  | push (task : Task)
  /-- The `notify_all` of a `worker::push`. -/
  | notify
  /-- `worker::clear`. -/
  | clear
  /-- `~worker` sets `should_stop`. -/
  | stop
  /-- The `notify_all` of `~worker`. -/
  | stopNotify
  /-- The next step of the runner. -/
  | runner
  /-- A blocked runner wakes up by itself. -/
  | spurious
deriving DecidableEq, Repr

/-- `notify_all`. -/
def Point.wake : Point → Point
  | .blocked _ => .blocked true
  | p => p

namespace Worker

/-- The predicate of `signal.wait`. -/
def predicate (w : Worker) : Bool := w.shouldStop || !w.queue.isEmpty

/-- `signal.wait` tests its predicate, with the mutex held. -/
def wait (w : Worker) : Worker :=
  { w with point := if w.predicate then .loop else .waiting }

/-- The section that copies the front of the queue. -/
def grab (w : Worker) : Worker :=
  { w with
    myTask := match w.queue with
      | e :: _ => some e
      | [] => w.myTask
    point := .execute }

/-- The call of the function, if there is one. -/
def execute (w : Worker) : Worker :=
  match w.myTask with
  | none => { w with point := .retire }
  | some e =>
      match e.task.function with
      | none => { w with point := .retire }
      | some _ => { w with started := w.started ++ [e], point := .running }

/-- The function returns. -/
def return_ (w : Worker) : Worker :=
  { w with ran := w.ran ++ w.myTask.toList, point := .retire }

/-- The end of the section that pops: wait if the queue is empty. -/
def retireWait (w : Worker) : Worker :=
  if w.queue.isEmpty then w.wait else { w with point := .loop }

/-- The section that pops the queue. -/
def retire (w : Worker) : Worker :=
  match w.myTask with
  | none => w.retireWait
  | some _ =>
      match w.queue with
      | [] => { w with point := .undefined }
      | _ :: rest => retireWait { w with queue := rest, myTask := none }

/-- The next step of `runner`, unless it is blocked or has ended. -/
def runner (w : Worker) : Option Worker :=
  match w.point with
  | .loop => some { w with point := if w.shouldStop then .finished else .grab }
  | .grab => some w.grab
  | .execute => some w.execute
  | .running => some w.return_
  | .retire => some w.retire
  | .waiting => some { w with point := .blocked false }
  | .blocked true => some w.wait
  | .blocked false => none
  | .finished => none
  | .undefined => none

/-- The section of `worker::push`.  `pool::push`, its only caller, has refused a
task without a function. -/
def push (task : Task) (w : Worker) : Option Worker :=
  if task.function.isSome ∧ w.point ≠ .waiting then
    some { w with
      queue := w.queue ++ [⟨w.pushed.length, task⟩]
      pushed := w.pushed ++ [⟨w.pushed.length, task⟩]
      notifies := w.notifies + 1 }
  else none

/-- `worker::clear`: pop until the queue is empty. -/
def clear (w : Worker) : Option Worker :=
  if w.point ≠ .waiting then some { w with queue := [], cleared := w.cleared ++ w.queue } else none

/-- One step of a worker or of a thread that uses it. -/
def step (w : Worker) : Label → Option Worker
  | .push task => w.push task
  | .notify =>
      match w.notifies with
      | 0 => none
      | n + 1 => some { w with notifies := n, point := w.point.wake }
  | .clear => w.clear
  | .stop =>
      if w.destructor = .idle then some { w with shouldStop := true, destructor := .stopping } else none
  | .stopNotify =>
      if w.destructor = .stopping then some { w with destructor := .joining, point := w.point.wake }
      else none
  | .runner => w.runner
  | .spurious => if w.point = .blocked false then some { w with point := .blocked true } else none

/-- The worker that the constructor makes, with its runner at the head of the
loop. -/
def start (affinity : Affinity) : Worker := { affinity }

/-! ## What a step can be -/

/-- A step of the runner, from each point at which it has one. -/
inductive Runs (w : Worker) : Worker → Prop
  | loop (hp : w.point = .loop) : Runs w { w with point := if w.shouldStop then .finished else .grab }
  | grab (hp : w.point = .grab) : Runs w w.grab
  | execute (hp : w.point = .execute) : Runs w w.execute
  | return_ (hp : w.point = .running) : Runs w w.return_
  | retire (hp : w.point = .retire) : Runs w w.retire
  | block (hp : w.point = .waiting) : Runs w { w with point := .blocked false }
  | awake (hp : w.point = .blocked true) : Runs w w.wait

/-- A step of a worker, for each label, and what enables it. -/
inductive Steps (w : Worker) : Label → Worker → Prop
  | push (task : Task) (hf : task.function.isSome = true) (hp : w.point ≠ .waiting) :
      Steps w (.push task) { w with
        queue := w.queue ++ [⟨w.pushed.length, task⟩]
        pushed := w.pushed ++ [⟨w.pushed.length, task⟩]
        notifies := w.notifies + 1 }
  | notify (n : ℕ) (hn : w.notifies = n + 1) :
      Steps w .notify { w with notifies := n, point := w.point.wake }
  | clear (hp : w.point ≠ .waiting) :
      Steps w .clear { w with queue := [], cleared := w.cleared ++ w.queue }
  | stop (hd : w.destructor = .idle) :
      Steps w .stop { w with shouldStop := true, destructor := .stopping }
  | stopNotify (hd : w.destructor = .stopping) :
      Steps w .stopNotify { w with destructor := .joining, point := w.point.wake }
  | runner {w' : Worker} (hr : w.Runs w') : Steps w .runner w'
  | spurious (hp : w.point = .blocked false) : Steps w .spurious { w with point := .blocked true }

variable {w w' : Worker} {l : Label}

theorem runner_cases (hs : w.runner = some w') : w.Runs w' := by
  unfold Worker.runner at hs
  cases hp : w.point with
  | loop => rw [hp] at hs; cases hs; exact .loop hp
  | grab => rw [hp] at hs; cases hs; exact .grab hp
  | execute => rw [hp] at hs; cases hs; exact .execute hp
  | running => rw [hp] at hs; cases hs; exact .return_ hp
  | retire => rw [hp] at hs; cases hs; exact .retire hp
  | waiting => rw [hp] at hs; cases hs; exact .block hp
  | blocked woken =>
      rw [hp] at hs
      cases woken with
      | true => cases hs; exact .awake hp
      | false => cases hs
  | finished | undefined => rw [hp] at hs; cases hs

theorem step_cases (hs : w.step l = some w') : w.Steps l w' := by
  cases l with
  | push task =>
      obtain ⟨⟨hf, hp⟩, heq⟩ := Option.ite_none_right_eq_some.1 hs
      cases heq
      exact .push task hf hp
  | notify =>
      cases hn : w.notifies with
      | zero => simp only [Worker.step, hn] at hs; cases hs
      | succ n => simp only [Worker.step, hn] at hs; cases hs; exact .notify n hn
  | clear =>
      obtain ⟨hp, heq⟩ := Option.ite_none_right_eq_some.1 hs
      cases heq
      exact .clear hp
  | stop =>
      obtain ⟨hd, heq⟩ := Option.ite_none_right_eq_some.1 hs
      cases heq
      exact .stop hd
  | stopNotify =>
      obtain ⟨hd, heq⟩ := Option.ite_none_right_eq_some.1 hs
      cases heq
      exact .stopNotify hd
  | runner => exact .runner (runner_cases hs)
  | spurious =>
      obtain ⟨hp, heq⟩ := Option.ite_none_right_eq_some.1 hs
      cases heq
      exact .spurious hp

/-! ## What the runner leaves alone -/

theorem wait_frame (w : Worker) : w.wait.affinity = w.affinity ∧
    w.wait.shouldStop = w.shouldStop ∧ w.wait.destructor = w.destructor := ⟨rfl, rfl, rfl⟩

theorem retireWait_frame (w : Worker) : w.retireWait.affinity = w.affinity ∧
    w.retireWait.shouldStop = w.shouldStop ∧ w.retireWait.destructor = w.destructor := by
  unfold retireWait
  split
  · exact w.wait_frame
  · exact ⟨rfl, rfl, rfl⟩

/-- The runner does not touch what the constructor and the destructor set. -/
theorem runner_frame (hs : w.runner = some w') : w'.affinity = w.affinity ∧
    w'.shouldStop = w.shouldStop ∧ w'.destructor = w.destructor := by
  cases runner_cases hs with
  | execute =>
      unfold Worker.execute
      split
      · exact ⟨rfl, rfl, rfl⟩
      · split
        · exact ⟨rfl, rfl, rfl⟩
        · exact ⟨rfl, rfl, rfl⟩
  | retire =>
      unfold Worker.retire
      split
      · exact w.retireWait_frame
      · split
        · exact ⟨rfl, rfl, rfl⟩
        · exact retireWait_frame _
  | awake => exact w.wait_frame
  | loop | grab | return_ | block => exact ⟨rfl, rfl, rfl⟩

theorem step_affinity (hs : w.step l = some w') : w'.affinity = w.affinity := by
  cases step_cases hs with
  | runner => exact (runner_frame hs).1
  | push | notify | clear | stop | stopNotify | spurious => rfl

end Worker

end Datapath.Threadpool
