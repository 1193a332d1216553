import Datapath.Lib.Simulation
import Datapath.Windows.WaitEvents

/-!
# The servers of the samples

The servers of both samples do the same for a client, but for one line.  `handle_message`
writes back what comes in and puts the task of the write into a list, and `_watcher` waits
for any of these tasks and takes the one that it has found out of the list.  It takes none
out whose write is not complete, and misses none that is (`takes_completed`).

The server of the benchmark gathers at most 64 tasks for its wait.  The other one gathers
all that there are, and `WaitForMultipleObjectsEx` refuses more than 64, unless an assertion
of `wait_any` has stopped the program before.  From then on no task is ever taken out again
(`empties_or_jams`).
-/

namespace Datapath.Samples

open Datapath.Lib

/-- The two samples. -/
inductive Sample where
  | benchmark
  | singleProcessIpc
deriving DecidableEq, Repr

/-- How many tasks `_watcher` waits for at most, if there is a limit. -/
def Sample.limit : Sample → Option ℕ
  | .benchmark => some 64
  | .singleProcessIpc => none

/-- What `WaitForMultipleObjectsEx` does in one call that it does not refuse. -/
inductive Look where
  /-- It looks at the events. -/
  | look
  | interruption (elapsed : ℤ)
  | failed
deriving DecidableEq, Repr

/-- Tasks as `wait_any` sees them, each known by a number, which is also that of its event.
The state is those whose events are set, and an event that is found set is reset. -/
def echoTasks : Waiters ℕ (List ℕ) Look where
  getWaitable task := task
  waitForMultipleObjectsEx c handles _ _ signalled :=
    if maximumWaitObjects < handles.length then (waitFailed, 0, signalled)
    else
      match c with
      | .look =>
          match handles.findIdx? (· ∈ signalled) with
          | some i => (waitObject0 + i, 0, signalled.filter (handles[i]? ≠ some ·))
          | none => (waitTimeout, 0, signalled)
      | .interruption elapsed => (waitIoCompletion, elapsed, signalled)
      | .failed => (waitFailed, 0, signalled)
  -- A task calls the listeners of its own events here, and there are none.
  onWaitSuccess _ _ signalled := signalled
  onWaitError _ _ signalled := signalled

/-- Where `_watcher` is in a round of its loop. -/
inductive EchoPc where
  | top
  /-- Past the test of `shutdown`. -/
  | entered
  /-- It has found tasks in the list. -/
  | counted
  /-- Before the wait for no time. -/
  | first (waits : List ℕ)
  /-- Before the wait for a millisecond. -/
  | second (waits : List ℕ) (index : ℕ)
  /-- Before the section that takes `waits[index]` out of the list. -/
  | found (waits : List ℕ) (index : ℕ)
  /-- Out of the loop. -/
  | ended
  | undefined
deriving DecidableEq, Repr

/-- `server::client`.  The lists `stored`, `completed` and `erased` record what has happened. -/
structure Echo where
  pc : EchoPc := .top
  shutdown : Bool := false
  /-- How many tasks `write` has made. -/
  made : ℕ := 0
  /-- The task that `handle_message` has written and not put into the list. -/
  written : Option ℕ := none
  tasks : List ℕ := []
  inFlight : List ℕ := []
  /-- The tasks whose events are set. -/
  signalled : List ℕ := []
  stored : List ℕ := []
  completed : List ℕ := []
  erased : List ℕ := []
deriving DecidableEq, Repr

namespace Echo

/-- What can happen next. -/
inductive Label where
  /-- `handle_message` writes; `suc` tells whether `write` succeeds. -/
  | message (suc : Bool)
  /-- It puts the task into the list. -/
  | store
  /-- A write completes, and sets the event of its task. -/
  | complete (task : ℕ)
  /-- `_watcher` tests whether there is another round. -/
  | enter
  /-- It looks how many tasks there are. -/
  | count
  | gather
  | wait (cs : List Look)
  | erase
  /-- `~client` sets `shutdown`. -/
  | close
deriving DecidableEq, Repr

/-- The loop that fills `waits`, with or without a `limit`. -/
def gather (limit : Option ℕ) : List ℕ → List ℕ → List ℕ
  | waits, [] => waits
  | waits, task :: rest =>
      let waits := waits ++ [task]
      if limit.any (· ≤ waits.length) then waits else gather limit waits rest

/-- What a wait leads to, where it goes on at `failing` if it finds no task. -/
def awaited (e : Echo) (waits : List ℕ) (failing : ℕ → EchoPc) :
    Outcome (error × ℕ) × List ℕ → Option Echo
  | (.waiting, _) => none
  | (.returned (.success, index), signalled) => some { e with pc := .found waits index, signalled }
  | (.returned (_, index), signalled) => some { e with pc := failing index, signalled }
  | (.undefined, signalled) => some { e with pc := .undefined, signalled }

/-- One step. -/
def step (limit : Option ℕ) (e : Echo) : Label → Option Echo
  | .message suc =>
      if e.written.isNone then some { e with
        made := e.made + 1
        written := if suc then some e.made else none
        inFlight := if suc then e.inFlight ++ [e.made] else e.inFlight }
      else none
  | .store =>
      match e.written with
      | none => none
      | some task => some { e with
          written := none
          tasks := e.tasks ++ [task]
          stored := e.stored ++ [task] }
  | .complete task =>
      if task ∈ e.inFlight then some { e with
        inFlight := e.inFlight.erase task
        signalled := e.signalled ++ [task]
        completed := e.completed ++ [task] }
      else none
  | .enter =>
      match e.pc with
      | .top => some { e with pc := if e.shutdown then .ended else .entered }
      | _ => none
  | .count =>
      match e.pc with
      | .entered => some { e with pc := if e.tasks = [] then .top else .counted }
      | _ => none
  | .gather =>
      match e.pc with
      | .counted => some { e with pc := .first (gather limit [] e.tasks) }
      | _ => none
  | .wait cs =>
      match e.pc with
      | .first waits =>
          e.awaited waits (.second waits) (echoTasks.waitAny (waits.map some) 0 0 cs e.signalled)
      | .second waits index =>
          e.awaited waits (fun _ ↦ .top) (echoTasks.waitAny (waits.map some) index 1000000 cs e.signalled)
      | _ => none
  | .erase =>
      match e.pc with
      | .found waits index =>
          match waits[index]? with
          | none => some { e with pc := .undefined }
          | some task =>
              if task ∈ e.tasks then some { e with
                pc := .top
                tasks := e.tasks.erase task
                erased := e.erased ++ [task] }
              -- `task` is an iterator that refers to nothing.
              else some { e with pc := .undefined }
      | _ => none
  | .close => some { e with shutdown := true }

/-- A client that has just been accepted. -/
def start : Echo := {}

/-! ## What a wait finds -/

variable {limit : Option ℕ} {e e' : Echo} {l : Label} {ts : List (Transition Echo Label)}

/-- The loop gathers all tasks, or the first of them. -/
theorem gather_eq (waits tasks : List ℕ) : gather limit waits tasks =
    waits ++ limit.elim tasks fun n ↦ tasks.take (max (n - waits.length) 1) := by
  induction tasks generalizing waits with
  | nil => cases limit <;> simp [gather]
  | cons task rest ih =>
      unfold gather
      cases limit with
      | none => simpa using ih (waits ++ [task])
      | some n =>
          by_cases hn : n ≤ waits.length + 1
          · have hone : max (n - waits.length) 1 = 1 := by omega
            simp [hn, hone]
          · obtain ⟨k, hk⟩ : ∃ k, n - waits.length = k + 1 + 1 := ⟨n - waits.length - 2, by omega⟩
            have hmore : max (n - waits.length) 1 = k + 1 + 1 := by omega
            have hrest : max (n - (waits ++ [task]).length) 1 = k + 1 := by
              rw [List.length_append, List.length_singleton]
              omega
            have hnext := ih (waits ++ [task])
            rw [Option.elim_some, hrest] at hnext
            simp [hn, hmore, hnext]

theorem gather_nil (limit : Option ℕ) (tasks : List ℕ) :
    gather limit [] tasks = limit.elim tasks fun n ↦ tasks.take (max n 1) := gather_eq [] tasks

theorem mem_of_mem_gather {task : ℕ} {tasks : List ℕ} (h : task ∈ gather limit [] tasks) : task ∈ tasks := by
  rw [gather_nil] at h
  cases limit with
  | none => exact h
  | some n => exact List.mem_of_mem_take h

theorem gather_ne_nil {tasks : List ℕ} (h : tasks ≠ []) : gather limit [] tasks ≠ [] := by
  rw [gather_nil]
  cases limit with
  | none => exact h
  | some n =>
      obtain ⟨task, rest, rfl⟩ := List.exists_cons_of_ne_nil h
      obtain ⟨k, hk⟩ : ∃ k, max n 1 = k + 1 := ⟨max n 1 - 1, by omega⟩
      rw [Option.elim_some, hk]
      exact List.cons_ne_nil _ _

/-- A task that is found is reported by its position. -/
theorem answerAny_found {waits : List ℕ} (hcount : waits.length ≤ maximumWaitObjects) {i : ℕ}
    (hi : i < waits.length) (index : ℕ) (signalled : List ℕ) :
    echoTasks.answerAny (waits.map some) (List.range waits.length) index (waitObject0 + i) signalled =
      some (.returned (.success, i), signalled) := by
  have hlt : i < maximumWaitObjects := Nat.lt_of_lt_of_le hi hcount
  rw [Waiters.answerAny, if_pos ⟨Nat.le_add_right _ _, Nat.add_lt_add_left hlt _⟩, Nat.add_sub_cancel_left]
  simp [Waiters.fireAt, Waiters.fire, hi, echoTasks, Waiters.return_]

/-- **What a wait for some tasks comes to.**  It goes on, or fails to find one and leaves
everything as it is, or finds one whose event is set, and resets that; and this only if
there are not too many of them. -/
theorem waitAny_cases (waits : List ℕ) (index : ℕ) (duration : ℤ) (cs : List Look) (signalled : List ℕ) :
    echoTasks.waitAny (waits.map some) index duration cs signalled = (.waiting, signalled) ∨
      (∃ ec, ec ≠ .success ∧ echoTasks.waitAny (waits.map some) index duration cs signalled =
        (.returned (ec, index), signalled)) ∨
      ∃ i task, waits.length ≤ maximumWaitObjects ∧ waits[i]? = some task ∧ task ∈ signalled ∧
        echoTasks.waitAny (waits.map some) index duration cs signalled =
          (.returned (.success, i), signalled.filter (some task ≠ some ·)) := by
  unfold Waiters.waitAny
  rw [Waiters.translate_map_some]
  dsimp only
  generalize Waiter.clampTimeout (Waiter.toMilliseconds duration) = timeout
  induction cs generalizing timeout with
  | nil => exact .inl rfl
  | cons c cs ih =>
      have hhandles : waits.map echoTasks.getWaitable = waits := List.map_id waits
      rw [hhandles] at ih ⊢
      unfold Waiters.waitLoop
      by_cases hmany : maximumWaitObjects < waits.length
      · simp only [echoTasks, hmany, if_true]
        exact .inr (.inl ⟨.failure, by decide, rfl⟩)
      · cases c with
        | look =>
            cases hfind : waits.findIdx? (· ∈ signalled) with
            | none =>
                simp only [echoTasks, hmany, hfind, if_false]
                exact .inr (.inl ⟨.timedOut, by decide, rfl⟩)
            | some i =>
                obtain ⟨hi, hmem, -⟩ := List.findIdx?_eq_some_iff_getElem.1 hfind
                have hget : waits[i]? = some waits[i] := List.getElem?_eq_getElem hi
                have hanswer := answerAny_found (Nat.le_of_not_lt hmany) hi index
                  (signalled.filter (some waits[i] ≠ some ·))
                refine .inr (.inr ⟨i, waits[i], Nat.le_of_not_lt hmany, hget, of_decide_eq_true hmem, ?_⟩)
                simp only [echoTasks, hmany, hfind, hget, if_false]
                simp only [echoTasks] at hanswer
                rw [hanswer]
        | interruption elapsed =>
            have hgo : 0 ≤ if timeout - Waiter.toMilliseconds elapsed ≤ 0 then 0
                else timeout - Waiter.toMilliseconds elapsed := by
              split <;> omega
            have hagain : echoTasks.answerAny (waits.map some) (List.range waits.length) index
                waitIoCompletion signalled = none := by
              simp [Waiters.answerAny, waitObject0, waitAbandoned0, waitIoCompletion, waitTimeout,
                maximumWaitObjects]
            have hnext := ih (if timeout - Waiter.toMilliseconds elapsed ≤ 0 then 0
                else timeout - Waiter.toMilliseconds elapsed)
            simp only [echoTasks, hmany, if_false] at hagain hnext ⊢
            rw [hagain]
            dsimp only
            rw [if_pos hgo]
            exact hnext
        | failed =>
            simp only [echoTasks, hmany, if_false]
            exact .inr (.inl ⟨.failure, by decide, rfl⟩)

/-- A wait that looks at once finds the first task if its event is set. -/
theorem waitAny_look {task : ℕ} {rest signalled : List ℕ} (hcount : (task :: rest).length ≤ maximumWaitObjects)
    (hset : task ∈ signalled) (index : ℕ) (duration : ℤ) :
    echoTasks.waitAny ((task :: rest).map some) index duration [.look] signalled =
      (.returned (.success, 0), signalled.filter (some task ≠ some ·)) := by
  have hhandles : (task :: rest).map echoTasks.getWaitable = task :: rest := List.map_id _
  have hanswer := answerAny_found hcount (Nat.zero_lt_succ rest.length) index
    (signalled.filter (some task ≠ some ·))
  unfold Waiters.waitAny
  rw [Waiters.translate_map_some]
  dsimp only
  rw [hhandles, Waiters.waitLoop]
  have hfind : (task :: rest).findIdx? (· ∈ signalled) = some 0 := by
    rw [List.findIdx?_cons, if_pos (decide_eq_true hset)]
  simp only [echoTasks, Nat.not_lt.2 hcount, hfind, if_false, List.getElem?_cons_zero]
  simp only [echoTasks] at hanswer
  rw [hanswer]

/-! ## What a step can do -/

/-- What the steps do. -/
inductive Does (limit : Option ℕ) (e : Echo) : Label → Echo → Prop
  | message (suc : Bool) (hwritten : e.written = none) : Does limit e (.message suc) { e with
      made := e.made + 1
      written := if suc then some e.made else none
      inFlight := if suc then e.inFlight ++ [e.made] else e.inFlight }
  | store (task : ℕ) (hwritten : e.written = some task) : Does limit e .store { e with
      written := none
      tasks := e.tasks ++ [task]
      stored := e.stored ++ [task] }
  | complete (task : ℕ) (hflight : task ∈ e.inFlight) : Does limit e (.complete task) { e with
      inFlight := e.inFlight.erase task
      signalled := e.signalled ++ [task]
      completed := e.completed ++ [task] }
  | enter (hpc : e.pc = .top) : Does limit e .enter { e with pc := if e.shutdown then .ended else .entered }
  | count (hpc : e.pc = .entered) :
      Does limit e .count { e with pc := if e.tasks = [] then .top else .counted }
  | gather (hpc : e.pc = .counted) : Does limit e .gather { e with pc := .first (gather limit [] e.tasks) }
  | again {cs} (waits : List ℕ) (index : ℕ) (hpc : e.pc = .first waits) :
      Does limit e (.wait cs) { e with pc := .second waits index }
  | miss {cs} (waits : List ℕ) (index : ℕ) (hpc : e.pc = .second waits index) :
      Does limit e (.wait cs) { e with pc := .top }
  | find {cs} (waits : List ℕ) (i task : ℕ) (hpc : e.pc = .first waits ∨ ∃ index, e.pc = .second waits index)
      (hcount : waits.length ≤ maximumWaitObjects) (hget : waits[i]? = some task) (hset : task ∈ e.signalled) :
      Does limit e (.wait cs) { e with
        pc := .found waits i
        signalled := e.signalled.filter (some task ≠ some ·) }
  | erase (waits : List ℕ) (i task : ℕ) (hpc : e.pc = .found waits i) (hget : waits[i]? = some task)
      (hmem : task ∈ e.tasks) : Does limit e .erase { e with
        pc := .top
        tasks := e.tasks.erase task
        erased := e.erased ++ [task] }
  | lose (waits : List ℕ) (i : ℕ) (hpc : e.pc = .found waits i)
      (hout : ∀ task, waits[i]? = some task → task ∉ e.tasks) : Does limit e .erase { e with pc := .undefined }
  | close : Does limit e .close { e with shutdown := true }

/-- What follows a wait. -/
theorem awaited_cases {waits : List ℕ} {failing : ℕ → EchoPc} {index : ℕ} {duration : ℤ} {cs : List Look}
    (hs : e.awaited waits failing (echoTasks.waitAny (waits.map some) index duration cs e.signalled) = some e') :
    (∃ index', e' = { e with pc := failing index' }) ∨
      ∃ i task, waits.length ≤ maximumWaitObjects ∧ waits[i]? = some task ∧ task ∈ e.signalled ∧
        e' = { e with pc := .found waits i, signalled := e.signalled.filter (some task ≠ some ·) } := by
  rcases waitAny_cases waits index duration cs e.signalled with
    hwait | ⟨ec, hec, hwait⟩ | ⟨i, task, hcount, hget, hset, hwait⟩
  · rw [hwait] at hs
    cases hs
  · rw [hwait] at hs
    cases ec with
    | success => exact absurd rfl hec
    | unknown | failure | criticalFailure | closed | timedOut | invalidPath | notSupported =>
        cases hs
        exact .inl ⟨index, rfl⟩
  · rw [hwait] at hs
    cases hs
    exact .inr ⟨i, task, hcount, hget, hset, rfl⟩

theorem step_does (hs : e.step limit l = some e') : e.Does limit l e' := by
  cases l with
  | message suc =>
      obtain ⟨hwritten, heq⟩ := Option.ite_none_right_eq_some.1 hs
      cases heq
      exact .message suc (Option.isNone_iff_eq_none.1 hwritten)
  | store =>
      simp only [step] at hs
      split at hs
      · cases hs
      case h_2 task hwritten =>
        cases hs
        exact .store task hwritten
  | complete task =>
      obtain ⟨hflight, heq⟩ := Option.ite_none_right_eq_some.1 hs
      cases heq
      exact .complete task hflight
  | enter =>
      simp only [step] at hs
      split at hs
      case h_1 hpc =>
        cases hs
        exact .enter hpc
      · cases hs
  | count =>
      simp only [step] at hs
      split at hs
      case h_1 hpc =>
        cases hs
        exact .count hpc
      · cases hs
  | gather =>
      simp only [step] at hs
      split at hs
      case h_1 hpc =>
        cases hs
        exact .gather hpc
      · cases hs
  | wait cs =>
      simp only [step] at hs
      split at hs
      case h_1 waits hpc =>
        rcases awaited_cases hs with ⟨index, rfl⟩ | ⟨i, task, hcount, hget, hset, rfl⟩
        · exact .again waits index hpc
        · exact .find waits i task (.inl hpc) hcount hget hset
      case h_2 waits index hpc =>
        rcases awaited_cases hs with ⟨_, rfl⟩ | ⟨i, task, hcount, hget, hset, rfl⟩
        · exact .miss waits index hpc
        · exact .find waits i task (.inr ⟨index, hpc⟩) hcount hget hset
      · cases hs
  | erase =>
      simp only [step] at hs
      split at hs
      case h_1 waits i hpc =>
        split at hs
        case h_1 hnone =>
          cases hs
          exact .lose waits i hpc fun task hget ↦ nomatch hnone.symm.trans hget
        case h_2 task hget =>
          split at hs
          case isTrue hmem =>
            cases hs
            exact .erase waits i task hpc hget hmem
          case isFalse hout =>
            cases hs
            refine .lose waits i hpc fun task' hget' ↦ ?_
            cases hget.symm.trans hget'
            exact hout
      · cases hs
  | close =>
      cases hs
      exact .close

/-! ## Complete writes -/

/-- `_watcher` has found this task. -/
def Found (e : Echo) (task : ℕ) : Prop :=
  match e.pc with
  | .found waits index => waits[index]? = some task
  | .top | .entered | .counted | .first _ | .second .. | .ended | .undefined => False

/-- What `_watcher` waits for is in the list, and what it has found is complete. -/
def AtPoint (e : Echo) : Prop :=
  match e.pc with
  | .counted => e.tasks ≠ []
  | .first waits | .second waits _ => waits ≠ [] ∧ ∀ task ∈ waits, task ∈ e.tasks
  | .found waits index => ∃ task, waits[index]? = some task ∧ task ∈ e.tasks ∧ task ∈ e.completed
  | .top | .entered | .ended => True
  | .undefined => False

/-- What holds in every state. -/
structure Inv (e : Echo) : Prop where
  numbered : ∀ task ∈ e.stored ++ e.written.toList, task < e.made
  nodup : (e.stored ++ e.written.toList).Nodup
  begun : ∀ task ∈ e.inFlight ++ e.completed, task < e.made
  kept : (e.erased ++ e.tasks).Perm e.stored
  erased : ∀ task ∈ e.erased, task ∈ e.completed
  signalled : ∀ task ∈ e.signalled, task ∈ e.completed
  noticed : ∀ task ∈ e.tasks ++ e.written.toList, task ∈ e.completed → task ∈ e.signalled ∨ e.Found task
  atPoint : e.AtPoint

/-- No task is in the list twice, nor has one that is in it been taken out. -/
theorem Inv.tasks_nodup (h : e.Inv) : (e.erased ++ e.tasks).Nodup :=
  h.kept.nodup_iff.2 (List.nodup_append.1 h.nodup).1

/-- `_watcher` goes on to a point at which it has found no task. -/
theorem Inv.move (h : e.Inv) (hfound : ∀ task, ¬ e.Found task) {pc : EchoPc}
    (hpoint : AtPoint { e with pc }) : Inv { e with pc } where
  numbered := h.numbered
  nodup := h.nodup
  begun := h.begun
  kept := h.kept
  erased := h.erased
  signalled := h.signalled
  noticed task hmem hdone := .inl ((h.noticed task hmem hdone).resolve_right (hfound task))
  atPoint := hpoint

/-- More tasks in the list, and more writes complete, leave `_watcher` where it is. -/
theorem AtPoint.mono (h : e.AtPoint) (hpc : e'.pc = e.pc) (htasks : ∀ task ∈ e.tasks, task ∈ e'.tasks)
    (hdone : ∀ task ∈ e.completed, task ∈ e'.completed) : e'.AtPoint := by
  unfold AtPoint at h ⊢
  rw [hpc]
  split at h
  case h_1 =>
    obtain ⟨task, hmem⟩ := List.exists_mem_of_ne_nil _ h
    exact List.ne_nil_of_mem (htasks task hmem)
  case h_2 | h_3 => exact ⟨h.1, fun task hmem ↦ htasks task (h.2 task hmem)⟩
  case h_4 =>
    obtain ⟨task, hget, hmem, hcompleted⟩ := h
    exact ⟨task, hget, htasks task hmem, hdone task hcompleted⟩
  case h_5 | h_6 | h_7 => trivial
  case h_8 => exact h

theorem Inv.message (h : e.Inv) (hwritten : e.written = none) (suc : Bool) : Inv { e with
    made := e.made + 1
    written := if suc then some e.made else none
    inFlight := if suc then e.inFlight ++ [e.made] else e.inFlight } := by
  have hold := h.numbered
  have hnodup := h.nodup
  have hnoticed := h.noticed
  rw [hwritten, Option.toList_none, List.append_nil] at hold hnodup hnoticed
  have hless : ∀ task ∈ e.inFlight ++ e.completed, task < e.made + 1 := fun task hmem ↦
    Nat.lt_succ_of_lt (h.begun task hmem)
  cases suc with
  | false =>
      refine ⟨?_, ?_, hless, h.kept, h.erased, h.signalled, ?_, h.atPoint⟩
      · intro task hmem
        exact Nat.lt_succ_of_lt (hold task ((List.append_nil e.stored) ▸ hmem))
      · show (e.stored ++ []).Nodup
        rw [List.append_nil]
        exact hnodup
      · show ∀ task ∈ e.tasks ++ [], _
        rw [List.append_nil]
        exact hnoticed
  | true =>
      refine ⟨?_, ?_, ?_, h.kept, h.erased, h.signalled, ?_, h.atPoint⟩
      · intro task hmem
        rcases List.mem_append.1 hmem with hmem | hmem
        · exact Nat.lt_succ_of_lt (hold task hmem)
        · exact List.mem_singleton.1 hmem ▸ Nat.lt_succ_self _
      · refine List.nodup_append.2 ⟨hnodup, List.pairwise_singleton _ _, fun a ha b hb heq ↦ ?_⟩
        have hlt := hold a ha
        rw [heq, List.mem_singleton.1 hb] at hlt
        exact Nat.lt_irrefl _ hlt
      · intro task hmem
        rcases List.mem_append.1 hmem with hmem | hmem
        · rcases List.mem_append.1 hmem with hmem | hmem
          · exact hless task (List.mem_append_left _ hmem)
          · exact List.mem_singleton.1 hmem ▸ Nat.lt_succ_self _
        · exact hless task (List.mem_append_right _ hmem)
      · intro task hmem hdone
        rcases List.mem_append.1 hmem with hmem | hmem
        · exact hnoticed task hmem hdone
        · have hlt := h.begun task (List.mem_append_right _ hdone)
          rw [List.mem_singleton.1 hmem] at hlt
          exact absurd hlt (Nat.lt_irrefl _)

theorem Inv.store (h : e.Inv) {task : ℕ} (hwritten : e.written = some task) :
    Inv { e with written := none, tasks := e.tasks ++ [task], stored := e.stored ++ [task] } := by
  have hnumbered := h.numbered
  have hnodup := h.nodup
  have hnoticed := h.noticed
  rw [hwritten, Option.toList_some, ← List.append_nil (_ ++ [task])] at hnumbered hnodup hnoticed
  refine ⟨hnumbered, hnodup, h.begun, ?_, h.erased, h.signalled, hnoticed, ?_⟩
  · show (e.erased ++ (e.tasks ++ [task])).Perm (e.stored ++ [task])
    rw [← List.append_assoc]
    exact h.kept.append_right [task]
  · exact h.atPoint.mono rfl (fun _ hmem ↦ List.mem_append_left _ hmem) fun _ hdone ↦ hdone

theorem Inv.complete (h : e.Inv) {task : ℕ} (hflight : task ∈ e.inFlight) : Inv { e with
    inFlight := e.inFlight.erase task
    signalled := e.signalled ++ [task]
    completed := e.completed ++ [task] } := by
  refine ⟨h.numbered, h.nodup, ?_, h.kept, ?_, ?_, ?_, ?_⟩
  · intro t hmem
    rw [← List.append_assoc] at hmem
    rcases List.mem_append.1 hmem with hmem | hmem
    · rcases List.mem_append.1 hmem with hmem | hmem
      · exact h.begun t (List.mem_append_left _ (List.mem_of_mem_erase hmem))
      · exact h.begun t (List.mem_append_right _ hmem)
    · exact List.mem_singleton.1 hmem ▸ h.begun task (List.mem_append_left _ hflight)
  · exact fun t hmem ↦ List.mem_append_left _ (h.erased t hmem)
  · intro t hmem
    rcases List.mem_append.1 hmem with hmem | hmem
    · exact List.mem_append_left _ (h.signalled t hmem)
    · exact List.mem_append_right _ hmem
  · intro t hmem hdone
    rcases List.mem_append.1 hdone with hdone | hdone
    · exact (h.noticed t hmem hdone).imp (List.mem_append_left _) id
    · exact .inl (List.mem_append_right _ hdone)
  · exact h.atPoint.mono rfl (fun _ hmem ↦ hmem) fun _ hmem ↦ List.mem_append_left _ hmem

/-- A task that is found has its event reset, and is remembered by `_watcher` instead. -/
theorem Inv.find (h : e.Inv) {waits : List ℕ} {i task : ℕ}
    (hpc : e.pc = .first waits ∨ ∃ index, e.pc = .second waits index) (hget : waits[i]? = some task)
    (hset : task ∈ e.signalled) : Inv { e with
      pc := .found waits i
      signalled := e.signalled.filter (some task ≠ some ·) } := by
  have hwaits : (∀ t ∈ waits, t ∈ e.tasks) ∧ ∀ t, ¬ e.Found t := by
    have hpoint := h.atPoint
    rcases hpc with hpc | ⟨index, hpc⟩
    · simp only [AtPoint, hpc] at hpoint
      exact ⟨hpoint.2, fun t hfound ↦ by simp only [Found, hpc] at hfound⟩
    · simp only [AtPoint, hpc] at hpoint
      exact ⟨hpoint.2, fun t hfound ↦ by simp only [Found, hpc] at hfound⟩
  refine ⟨h.numbered, h.nodup, h.begun, h.kept, h.erased, ?_, ?_, ?_⟩
  · exact fun t hmem ↦ h.signalled t (List.mem_of_mem_filter hmem)
  · intro t hmem hdone
    have hold := (h.noticed t hmem hdone).resolve_right (hwaits.2 t)
    by_cases heq : task = t
    · exact .inr (heq ▸ hget)
    · exact .inl (List.mem_filter.2 ⟨hold, by simpa using heq⟩)
  · exact ⟨task, hget, hwaits.1 task (List.mem_of_getElem? hget), h.signalled task hset⟩

/-- The task that has been found leaves the list, and no other. -/
theorem Inv.erase (h : e.Inv) {waits : List ℕ} {i task : ℕ} (hpc : e.pc = .found waits i)
    (hget : waits[i]? = some task) :
    Inv { e with pc := .top, tasks := e.tasks.erase task, erased := e.erased ++ [task] } := by
  have hpoint := h.atPoint
  simp only [AtPoint, hpc, hget, Option.some.injEq, exists_eq_left'] at hpoint
  obtain ⟨hmem, hdone⟩ := hpoint
  have hnodup : e.tasks.Nodup := (List.nodup_append.1 h.tasks_nodup).2.1
  refine ⟨h.numbered, h.nodup, h.begun, ?_, ?_, h.signalled, ?_, trivial⟩
  · show (e.erased ++ [task] ++ e.tasks.erase task).Perm e.stored
    rw [List.append_assoc, List.singleton_append]
    exact ((List.perm_cons_erase hmem).symm.append_left _).trans h.kept
  · intro t ht
    rcases List.mem_append.1 ht with ht | ht
    · exact h.erased t ht
    · exact List.mem_singleton.1 ht ▸ hdone
  · intro t ht htdone
    have hsub : t ∈ e.tasks ++ e.written.toList ∧ t ≠ task := by
      rcases List.mem_append.1 ht with ht | ht
      · obtain ⟨hne, ht⟩ := hnodup.mem_erase_iff.1 ht
        exact ⟨List.mem_append_left _ ht, hne⟩
      · refine ⟨List.mem_append_right _ ht, ?_⟩
        have hstored : task ∈ e.stored := h.kept.subset (List.mem_append_right _ hmem)
        exact ((List.nodup_append.1 h.nodup).2.2 task hstored t ht).symm
    rcases h.noticed t hsub.1 htdone with hset | hfound
    · exact .inl hset
    · simp only [Found, hpc, hget] at hfound
      exact absurd (Option.some.inj hfound).symm hsub.2

/-- **Every step** keeps this. -/
theorem Does.inv (hd : e.Does limit l e') (h : e.Inv) : e'.Inv := by
  cases hd with
  | message suc hwritten => exact h.message hwritten suc
  | store task hwritten => exact h.store hwritten
  | complete task hflight => exact h.complete hflight
  | enter hpc =>
      refine h.move (fun task hfound ↦ ?_) ?_
      · simp only [Found, hpc] at hfound
      · split <;> trivial
  | count hpc =>
      refine h.move (fun task hfound ↦ ?_) ?_
      · simp only [Found, hpc] at hfound
      · split
        case isTrue => trivial
        case isFalse hne => exact hne
  | gather hpc =>
      refine h.move (fun task hfound ↦ ?_) ?_
      · simp only [Found, hpc] at hfound
      · have hne := h.atPoint
        simp only [AtPoint, hpc] at hne
        exact ⟨gather_ne_nil hne, fun task ↦ mem_of_mem_gather⟩
  | again waits index hpc =>
      refine h.move (fun task hfound ↦ ?_) ?_
      · simp only [Found, hpc] at hfound
      · have hwaits := h.atPoint
        simp only [AtPoint, hpc] at hwaits
        exact hwaits
  | miss waits index hpc =>
      refine h.move (fun task hfound ↦ ?_) trivial
      simp only [Found, hpc] at hfound
  | find waits i task hpc hcount hget hset => exact h.find hpc hget hset
  | erase waits i task hpc hget hmem => exact h.erase hpc hget
  | lose waits i hpc hout =>
      have hfound := h.atPoint
      simp only [AtPoint, hpc] at hfound
      obtain ⟨task, hget, hmem, -⟩ := hfound
      exact absurd hmem (hout task hget)
  | close => exact ⟨h.numbered, h.nodup, h.begun, h.kept, h.erased, h.signalled, h.noticed, h.atPoint⟩

theorem Inv.start : start.Inv where
  numbered := List.forall_mem_nil _
  nodup := List.nodup_nil
  begun := List.forall_mem_nil _
  kept := .nil
  erased := List.forall_mem_nil _
  signalled := List.forall_mem_nil _
  noticed := List.forall_mem_nil _
  atPoint := trivial

theorem Inv.run (h : e.Inv) (hrun : Run (step limit) e ts e') : e'.Inv :=
  (hrun.invariant (C := fun _ ↦ True) (fun _ hs _ h ↦ (step_does hs).inv h) h fun _ _ ↦ trivial).1

/-- **The servers take out what is complete, and miss nothing.**  In every interleaving, the
tasks that have been put into the list are those that have been taken out and those that are
in it, each once; the writes of the former are complete; and a task in the list whose write
is complete has its event set, or has just been found. -/
theorem takes_completed (hrun : Run (step limit) start ts e) :
    e.pc ≠ .undefined ∧ (e.erased ++ e.tasks).Perm e.stored ∧ (e.erased ++ e.tasks).Nodup ∧
      (∀ task ∈ e.erased, task ∈ e.completed) ∧
      ∀ task ∈ e.tasks, task ∈ e.completed → task ∈ e.signalled ∨ e.Found task := by
  have hinv := Inv.start.run hrun
  refine ⟨fun hpc ↦ ?_, hinv.kept, hinv.tasks_nodup, hinv.erased, fun task hmem ↦
    hinv.noticed task (List.mem_append_left _ hmem)⟩
  have hpoint := hinv.atPoint
  simp only [AtPoint, hpc] at hpoint

/-- The first write completes after the second one, and the first wait for either fails. -/
theorem takes_completed_two : ∃ ts e, Run (step (some 64)) start ts e ∧ e.erased = [1] ∧ e.tasks = [0] ∧
    e.completed = [1, 0] ∧ (0 ∈ e.signalled ∨ e.Found 0) := by
  obtain ⟨ts, e, hrun, herased, htasks, hcompleted⟩ := Run.exists_of_trace (step (some 64)) start
    [.message true, .store, .message true, .enter, .count, .complete 1, .store, .gather,
      .wait [.interruption 3, .failed], .wait [.look], .complete 0, .erase]
    (fun _ e ↦ e.erased = [1] ∧ e.tasks = [0] ∧ e.completed = [1, 0]) ⟨_, rfl, by decide⟩
  refine ⟨ts, e, hrun, herased, htasks, hcompleted, ?_⟩
  exact (takes_completed hrun).2.2.2.2 0 (by simp [htasks]) (by simp [hcompleted])

/-! ## Too many tasks -/

/-- The steps of `_watcher`. -/
def Label.IsWatcher : Label → Prop
  | .enter | .count | .gather | .wait _ | .erase => True
  | .message _ | .store | .complete _ | .close => False

theorem length_gather (limit : Option ℕ) (tasks : List ℕ) : (gather limit [] tasks).length =
    limit.elim tasks.length fun n ↦ min (max n 1) tasks.length := by
  rw [gather_nil]
  cases limit with
  | none => rfl
  | some n => exact List.length_take

/-- More tasks are more to wait for. -/
theorem length_gather_mono (limit : Option ℕ) {tasks tasks' : List ℕ} (h : tasks.length ≤ tasks'.length) :
    (gather limit [] tasks).length ≤ (gather limit [] tasks').length := by
  rw [length_gather, length_gather]
  cases limit with
  | none => exact h
  | some n => exact min_le_min_left _ h

/-- The first task is always waited for. -/
theorem gather_cons (limit : Option ℕ) (task : ℕ) (rest : List ℕ) :
    ∃ more, gather limit [] (task :: rest) = task :: more := by
  rw [gather_nil]
  cases limit with
  | none => exact ⟨rest, rfl⟩
  | some n =>
      obtain ⟨k, hk⟩ : ∃ k, max n 1 = k + 1 := ⟨max n 1 - 1, by omega⟩
      exact ⟨rest.take k, by rw [Option.elim_some, hk, List.take_succ_cons]⟩

/-- The state after a round that has taken the first task out. -/
def taken (e : Echo) (task : ℕ) (rest : List ℕ) : Echo :=
  { e with
    tasks := rest
    signalled := e.signalled.filter (some task ≠ some ·)
    erased := e.erased ++ [task] }

/-- **A round takes out the first task**, if its write is complete and there are not too many
to wait for. -/
theorem Inv.round (h : e.Inv) (hpc : e.pc = .top) (hgo : e.shutdown = false) {task : ℕ} {rest : List ℕ}
    (htasks : e.tasks = task :: rest) (hdone : task ∈ e.completed)
    (hfew : (gather limit [] e.tasks).length ≤ maximumWaitObjects) :
    Steps (step limit) e [.enter, .count, .gather, .wait [.look], .erase] (e.taken task rest) := by
  obtain ⟨more, hmore⟩ := gather_cons limit task rest
  have hset : task ∈ e.signalled := by
    refine (h.noticed task ?_ hdone).resolve_right fun hfound ↦ ?_
    · exact List.mem_append_left _ (htasks ▸ List.mem_cons_self)
    · simp only [Found, hpc] at hfound
  rw [htasks, hmore] at hfew
  have hwait := waitAny_look hfew hset 0 0
  have henter : e.step limit .enter = some { e with pc := .entered } := by simp [step, hpc, hgo]
  have hcount : step limit { e with pc := .entered } .count = some { e with pc := .counted } := by
    simp [step, htasks]
  have hgather : step limit { e with pc := .counted } .gather =
      some { e with pc := .first (task :: more) } := by
    simp [step, htasks, hmore]
  have hfind : step limit { e with pc := .first (task :: more) } (.wait [.look]) = some { e with
      pc := .found (task :: more) 0
      signalled := e.signalled.filter (some task ≠ some ·) } := by
    simp only [step, hwait, awaited]
  exact .cons henter <| .cons hcount <| .cons hgather <| .cons hfind <| .single <| by
    simp [step, taken, htasks, hpc]

/-- Rounds like this empty the list. -/
theorem Inv.empties (h : e.Inv) (hpc : e.pc = .top) (hgo : e.shutdown = false)
    (hdone : ∀ task ∈ e.tasks, task ∈ e.completed)
    (hfew : (gather limit [] e.tasks).length ≤ maximumWaitObjects) :
    ∃ ls e', Steps (step limit) e ls e' ∧ (∀ l ∈ ls, l.IsWatcher) ∧ ls.length = 5 * e.tasks.length ∧
      e'.tasks = [] ∧ e'.erased = e.erased ++ e.tasks := by
  obtain ⟨tasks, htasks⟩ : ∃ tasks, e.tasks = tasks := ⟨_, rfl⟩
  induction tasks generalizing e with
  | nil =>
      rw [htasks]
      exact ⟨[], e, .nil e, List.forall_mem_nil _, rfl, htasks, (List.append_nil _).symm⟩
  | cons task rest ih =>
      have hround := h.round hpc hgo htasks (hdone task (htasks ▸ List.mem_cons_self)) hfew
      have hinv : (e.taken task rest).Inv := by
        obtain ⟨ts, hrun, -⟩ := hround
        exact h.run hrun
      have hrest : ∀ t ∈ rest, t ∈ e.completed := fun t hmem ↦
        hdone t (htasks ▸ List.mem_cons_of_mem _ hmem)
      have hless : (gather limit [] rest).length ≤ maximumWaitObjects := by
        refine (length_gather_mono limit ?_).trans hfew
        rw [htasks]
        exact Nat.le_succ _
      obtain ⟨ls, e', hsteps, hwatcher, hlength, hempty, herased⟩ := ih hinv hpc hgo hrest hless rfl
      refine ⟨_, e', hround.append hsteps, ?_, ?_, hempty, ?_⟩
      · simpa [Label.IsWatcher] using hwatcher
      · rw [List.length_append, hlength, htasks]
        simp only [taken, List.length_cons, List.length_nil]
        omega
      · rw [herased, htasks]
        simp [taken]

/-- There are too many tasks, and nothing that `_watcher` still holds is from before. -/
def Jammed (limit : Option ℕ) (e : Echo) : Prop :=
  maximumWaitObjects < (gather limit [] e.tasks).length ∧
    match e.pc with
    | .first waits | .second waits _ => maximumWaitObjects < waits.length
    | .found .. => False
    | .top | .entered | .counted | .ended | .undefined => True

/-- **No step** resolves this, and none takes a task out. -/
theorem Does.jammed (hd : e.Does limit l e') (h : e.Jammed limit) :
    e'.Jammed limit ∧ e'.erased = e.erased ∧ e.tasks <+: e'.tasks := by
  obtain ⟨hmany, hpoint⟩ := h
  cases hd with
  | message | complete | close => exact ⟨⟨hmany, hpoint⟩, rfl, List.prefix_rfl⟩
  | store task hwritten =>
      refine ⟨⟨hmany.trans_le (length_gather_mono limit ?_), hpoint⟩, rfl, List.prefix_append _ _⟩
      exact (List.prefix_append e.tasks [task]).length_le
  | enter hpc =>
      refine ⟨⟨hmany, ?_⟩, rfl, List.prefix_rfl⟩
      cases e.shutdown <;> trivial
  | count hpc =>
      refine ⟨⟨hmany, ?_⟩, rfl, List.prefix_rfl⟩
      dsimp only
      split_ifs <;> trivial
  | gather hpc => exact ⟨⟨hmany, hmany⟩, rfl, List.prefix_rfl⟩
  | again waits index hpc =>
      rw [hpc] at hpoint
      exact ⟨⟨hmany, hpoint⟩, rfl, List.prefix_rfl⟩
  | miss waits index hpc => exact ⟨⟨hmany, trivial⟩, rfl, List.prefix_rfl⟩
  | find waits i task hpc hcount hget hset =>
      -- A wait for that many does not find anything.
      rcases hpc with hpc | ⟨index, hpc⟩
      all_goals
        rw [hpc] at hpoint
        exact absurd hcount (Nat.not_le.2 hpoint)
  | erase waits i task hpc hget hmem =>
      rw [hpc] at hpoint
      exact hpoint.elim
  | lose waits i hpc hout =>
      rw [hpc] at hpoint
      exact hpoint.elim

theorem Jammed.run (h : e.Jammed limit) (hrun : Run (step limit) e ts e') :
    e'.erased = e.erased ∧ e.tasks <+: e'.tasks := by
  induction hrun with
  | nil => exact ⟨rfl, List.prefix_rfl⟩
  | cons hs _ ih =>
      obtain ⟨hjammed, herased, hprefix⟩ := (step_does hs).jammed h
      obtain ⟨herased', hprefix'⟩ := ih hjammed
      exact ⟨herased'.trans herased, hprefix.trans hprefix'⟩

/-- The server of the benchmark never waits for too many. -/
theorem gather_le (sample : Sample) (tasks : List ℕ) :
    (gather sample.limit [] tasks).length ≤ maximumWaitObjects ↔
      sample = .benchmark ∨ tasks.length ≤ maximumWaitObjects := by
  rw [length_gather]
  cases sample <;> simp [Sample.limit, maximumWaitObjects]

/-- **A server empties its list, or is stuck.**  Before a round, if there are not too many
tasks for the wait and their writes are complete, then `_watcher` on its own takes all of
them out, in their order and one in each round.  If there are too many, then whatever
happens no task is taken out any more. -/
theorem empties_or_jams {sample : Sample} (hrun : Run (step sample.limit) start ts e) (hpc : e.pc = .top) :
    (sample = .benchmark ∨ e.tasks.length ≤ maximumWaitObjects → e.shutdown = false →
      (∀ task ∈ e.tasks, task ∈ e.completed) →
        ∃ ls e', Steps (step sample.limit) e ls e' ∧ (∀ l ∈ ls, l.IsWatcher) ∧
          ls.length = 5 * e.tasks.length ∧ e'.tasks = [] ∧ e'.erased = e.erased ++ e.tasks) ∧
    (¬ (sample = .benchmark ∨ e.tasks.length ≤ maximumWaitObjects) →
      ∀ us e', Run (step sample.limit) e us e' → e'.erased = e.erased ∧ e.tasks <+: e'.tasks) := by
  rw [← gather_le]
  constructor
  · intro hfew hgo hdone
    exact (Inv.start.run hrun).empties hpc hgo hdone hfew
  · intro hmany us e' hrest
    exact Jammed.run ⟨Nat.lt_of_not_le hmany, by rw [hpc]; trivial⟩ hrest

/-- Clients can fill the list with any number of tasks. -/
theorem fills (limit : Option ℕ) (n : ℕ) :
    Steps (step limit) start ((List.range n).flatMap fun _ ↦ [.message true, .store])
      { made := n, tasks := List.range n, inFlight := List.range n, stored := List.range n } := by
  induction n with
  | zero => exact .nil start
  | succ n ih =>
      rw [List.range_succ, List.flatMap_append]
      exact ih.append (.cons rfl (.single rfl))

/-- The server that has no limit, with a task too many of which one is complete. -/
theorem empties_or_jams_many : ∃ ts e, Run (step Sample.singleProcessIpc.limit) start ts e ∧
    e.tasks = List.range 65 ∧ e.completed = [0] ∧
      ∀ us e', Run (step Sample.singleProcessIpc.limit) e us e' → e'.erased = [] ∧ e.tasks <+: e'.tasks := by
  have hflight : 0 ∈ List.range 65 := List.mem_range.2 (Nat.zero_lt_succ 64)
  let full : Echo := { made := 65, tasks := List.range 65, inFlight := List.range 65, stored := List.range 65 }
  have hstep : step Sample.singleProcessIpc.limit full (.complete 0) =
      some { full with inFlight := (List.range 65).erase 0, signalled := [0], completed := [0] } := by
    simp only [step, full, hflight, if_true, List.nil_append]
  obtain ⟨ts, hrun, -⟩ := (fills Sample.singleProcessIpc.limit 65).append (.single hstep)
  refine ⟨ts, _, hrun, rfl, rfl, (empties_or_jams hrun rfl).2 ?_⟩
  rw [List.length_range]
  decide

end Echo

end Datapath.Samples
