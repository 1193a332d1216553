import Datapath.Lib.OrderedMap
import Datapath.Threadpool.Worker

/-!
# The pool

A pool has one worker for each hardware thread.  `pool::push` goes through the workers
whose affinity has a bit in common with the mask of the task, looks at the length of each
queue under that worker's mutex, and pushes the task to the worker whose queue was the
shortest when it looked.

The pool is shared by any number of threads.  A call of `pool::push` is therefore a
sequence of steps: one for each round of the loop, one for the section of
`worker::push`, one for its `notify_all`.
-/

namespace Datapath.Threadpool

open Datapath.Lib

/-- `std::numeric_limits<size_t>::max()`. -/
def maxCount : ℕ := 2 ^ 64 - 1

/-- The affinity of the worker `idx`: `1 << idx`, a shift of a 32-bit `int` whose result
is converted to `affinity_t`.  A shift by 32 or more is undefined; processors take its
distance modulo 32. -/
def workerAffinity (idx : ℕ) : Affinity := (1#32 <<< (idx % 32)).signExtend 64

/-- Where a call of `pool::push` is. -/
inductive Stage where
  /-- In the loop, with some workers to go.  `lowest` is `lowest_id` and `lowest_count`,
  once these have been set. -/
  | scanning (rest : List ℕ) (lowest : Option (ℕ × ℕ))
  /-- Before the section of `worker::push` of the worker `lowest_id`. -/
  | pushing (lowestId : ℕ)
  /-- Before the `notify_all` of `worker::push`. -/
  | notifying (lowestId : ℕ)
  | returned (suc : Bool)
  /-- `std::invalid_argument` has been thrown. -/
  | thrown (what : String)
deriving DecidableEq, Repr

/-- A call of `pool::push`; `none` is `nullptr`.  The entry that it has put into the queue
of a worker is recorded in `placed`. -/
structure Call where
  task : Option Task
  stage : Stage
  placed : Option (ℕ × Entry) := none
deriving DecidableEq, Repr

/-- A pool, and the calls of `pool::push` so far. -/
structure Pool where
  workers : OrderedMap ℕ Worker
  calls : List Call := []

/-- What the threads around a pool can do. -/
inductive PoolLabel where
  /-- `pool::push` is called, and makes its tests. -/
  | call (task : Option Task)
  /-- A call goes on in its loop, or leaves it. -/
  | scan (c : ℕ)
  | push (c : ℕ)
  | notify (c : ℕ)
  /-- The runner of a worker, its destructor, or `pool::clear` at this worker. -/
  | worker (idx : ℕ) (l : Label)
deriving DecidableEq, Repr

namespace Pool

/-- The tests of `pool::push`. -/
def check (p : Pool) : Option Task → Except String Unit
  | none => .error "task must not be nullptr"
  | some task =>
      if task.function.isNone then .error "task->function must not be nullptr"
      else if task.mask &&& (BitVec.ofNat 64 p.workers.length - 1) = 0 then
        .error "mask does not fit any thread"
      else .ok ()

/-- What a round of the loop does with a worker whose affinity meets the mask. -/
def lower (lowest : Option (ℕ × ℕ)) (idx count : ℕ) : Option (ℕ × ℕ) :=
  if count < (lowest.map Prod.snd).getD maxCount then some (idx, count) else lowest

/-- Where a call is at the end of the loop. -/
def chosen : Option (ℕ × ℕ) → Stage
  | some (idx, _) => .pushing idx
  | none => .returned false

/-- The next step of a call in its loop.  The queue of a worker is looked at under its
mutex, which the runner may hold. -/
def scan (p : Pool) (task : Task) : Stage → Option Stage
  | .scanning [] lowest => some (chosen lowest)
  | .scanning (idx :: rest) lowest =>
      match p.workers.lookup idx with
      | none => none
      | some w =>
          if w.affinity &&& task.mask = 0 then some (.scanning rest lowest)
          else if w.point = .waiting then none
          else some (.scanning rest (lower lowest idx w.queue.length))
  | .pushing _ | .notifying _ | .returned _ | .thrown _ => none

/-- Change a worker. -/
def setWorker (p : Pool) (idx : ℕ) (w : Worker) : Pool := { p with workers := p.workers.set idx w }

/-- Change a call. -/
def setCall (p : Pool) (c : ℕ) (call : Call) : Pool := { p with calls := p.calls.set c call }

/-- One step of a pool or of a thread that uses it. -/
def step (p : Pool) : PoolLabel → Option Pool
  | .call task => some { p with
      calls := p.calls ++ [{ task, stage := match p.check task with
        | .error what => .thrown what
        | .ok () => .scanning (OrderedMap.keys p.workers) none }] }
  | .scan c =>
      match p.calls[c]? with
      | some { task := some task, stage, placed } =>
          (p.scan task stage).map fun stage ↦ p.setCall c { task := some task, stage, placed }
      | _ => none
  | .push c =>
      match p.calls[c]? with
      | some { task := some task, stage := .pushing idx, .. } =>
          (p.workers.lookup idx).bind fun w ↦ (w.push task).map fun w' ↦
            (p.setWorker idx w').setCall c
              { task := some task, stage := .notifying idx, placed := some (idx, ⟨w.pushed.length, task⟩) }
      | _ => none
  | .notify c =>
      match p.calls[c]? with
      | some { task, stage := .notifying idx, placed } =>
          (p.workers.lookup idx).bind fun w ↦ (w.step .notify).map fun w' ↦
            (p.setWorker idx w').setCall c { task, stage := .returned true, placed }
      | _ => none
  | .worker _ (.push _) | .worker _ .notify => none
  | .worker idx l =>
      (p.workers.lookup idx).bind fun w ↦ (w.step l).map fun w' ↦ p.setWorker idx w'

/-- The pool that the constructor makes on a machine with `n` hardware threads. -/
def start (n : ℕ) : Pool :=
  { workers := (List.range n).map fun idx ↦ (idx, Worker.start (workerAffinity idx)) }

end Pool

end Datapath.Threadpool
