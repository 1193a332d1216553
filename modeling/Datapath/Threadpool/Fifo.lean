import Datapath.Threadpool.Pool
import Mathlib.Data.List.Perm.Basic

/-!
# First in, first out

The runner copies the front of its queue, runs the function of the copy without the
mutex, and pops the queue afterwards.  A `push` in the meantime leaves the front where it
is.  As long as no one clears the queue, what was pushed to a worker is therefore what it
has finished and, after that, what is in its queue, and the entry in flight is at the
front (`Ordered`).

A call of `pool::push` that is accepted puts one entry into the queue of one worker
(`fifo`).
-/

namespace Datapath.Threadpool

open Datapath.Lib

namespace Worker

variable {w w' : Worker} {finished : List Entry}

/-! ## One worker -/

/-- The entry in flight, once its function has been called. -/
def begun (w : Worker) : List Entry :=
  match w.point with
  | .running | .retire => w.myTask.toList
  | .loop | .grab | .execute | .waiting | .blocked _ | .finished | .undefined => []

/-- The entry in flight, once its function has returned. -/
def ended (w : Worker) : List Entry :=
  match w.point with
  | .retire => w.myTask.toList
  | .loop | .grab | .execute | .running | .waiting | .blocked _ | .finished | .undefined => []

/-- The points of the loop at which there is an entry in flight, or may be one. -/
def InFlight (w : Worker) : Prop :=
  match w.point with
  | .execute | .retire => True
  | .running => w.myTask.isSome = true
  | .loop | .grab | .waiting | .blocked _ | .finished => w.myTask = none
  | .undefined => False

/-- The worker has finished the first of the entries that were pushed to it, and has the
others in its queue. -/
structure Ordered (finished : List Entry) (w : Worker) : Prop where
  numbered : w.pushed.map Entry.id = List.range w.pushed.length
  callable : ∀ e ∈ w.pushed, e.task.function.isSome = true
  pushed : w.pushed = finished ++ w.queue
  started : w.started = finished ++ w.begun
  ran : w.ran = finished ++ w.ended
  flight : ∀ e ∈ w.myTask, w.queue.head? = some e
  inFlight : w.InFlight

/-- What is known of a worker whose runner is at a point that is known. -/
theorem Ordered.at_point (h : w.Ordered finished) {p : Point} (hp : w.point = p) :
    Ordered finished { w with point := p } := hp ▸ h

/-- What is known of a worker with no entry in flight. -/
theorem Ordered.idle (h : w.Ordered finished) (hm : w.myTask = none) :
    w.started = finished ∧ w.ran = finished := by
  have hbegun : w.begun = [] := by
    unfold begun
    rw [hm]
    split <;> rfl
  have hended : w.ended = [] := by
    unfold ended
    rw [hm]
    split <;> rfl
  constructor
  · rw [h.started, hbegun, List.append_nil]
  · rw [h.ran, hended, List.append_nil]

/-- A worker with no entry in flight moves to another point of the loop. -/
theorem Ordered.move (h : w.Ordered finished) (hm : w.myTask = none) {p : Point}
    (hrunning : p ≠ .running) (hdefined : p ≠ .undefined) :
    Ordered finished { w with point := p } where
  numbered := h.numbered
  callable := h.callable
  pushed := h.pushed
  started := by
    rw [show w.started = finished from (h.idle hm).1]
    unfold begun
    cases p <;> simp [hm]
  ran := by
    rw [show w.ran = finished from (h.idle hm).2]
    unfold ended
    cases p <;> simp [hm]
  flight := h.flight
  inFlight := by
    unfold InFlight
    cases p with
    | running => exact absurd rfl hrunning
    | undefined => exact absurd rfl hdefined
    | execute | retire => trivial
    | loop | grab | waiting | blocked | finished => exact hm

/-- `notify_all` keeps the order. -/
theorem Ordered.wake (h : w.Ordered finished) : Ordered finished { w with point := w.point.wake } := by
  cases hp : w.point with
  | blocked woken => exact h.move (h.at_point hp).inFlight nofun nofun
  | _ =>
      rw [Point.wake, ← hp]
      · exact h
      · exact nofun

theorem Ordered.push (h : w.Ordered finished) {task : Task} (hs : w.push task = some w') :
    w'.Ordered finished ∧ w'.pushed = w.pushed ++ [⟨w.pushed.length, task⟩] := by
  unfold Worker.push at hs
  obtain ⟨⟨hf, -⟩, heq⟩ := Option.ite_none_right_eq_some.1 hs
  cases heq
  refine ⟨⟨?_, ?_, ?_, h.started, h.ran, ?_, h.inFlight⟩, rfl⟩
  · rw [List.map_append, h.numbered, List.length_append, List.length_singleton, List.range_succ]
    rfl
  · intro e he
    rcases List.mem_append.1 he with he | he
    · exact h.callable e he
    · rw [List.mem_singleton.1 he]
      exact hf
  · rw [h.pushed, List.append_assoc]
  · intro e he
    rw [List.head?_append, h.flight e he]
    rfl

/-! ## The runner -/

/-- `signal.wait` only moves the runner. -/
theorem retireWait_eq (w : Worker) :
    ∃ p, p ≠ .running ∧ p ≠ .undefined ∧ w.retireWait = { w with point := p } := by
  unfold retireWait
  split
  · unfold Worker.wait
    split
    · exact ⟨.loop, nofun, nofun, rfl⟩
    · exact ⟨.waiting, nofun, nofun, rfl⟩
  · exact ⟨.loop, nofun, nofun, rfl⟩

theorem Ordered.grab (h : w.Ordered finished) (hp : w.point = .grab) : w.grab.Ordered finished := by
  have hm : w.myTask = none := (h.at_point hp).inFlight
  obtain ⟨hstarted, hran⟩ := h.idle hm
  refine ⟨h.numbered, h.callable, h.pushed, ?_, ?_, ?_, trivial⟩
  · exact hstarted.trans (List.append_nil _).symm
  · exact hran.trans (List.append_nil _).symm
  · intro e he
    unfold Worker.grab at he
    split at he
    case h_1 e' rest hq =>
      cases he
      show w.queue.head? = some e
      rw [hq]
      rfl
    case h_2 =>
      rw [hm] at he
      cases he

theorem Ordered.execute (h : w.Ordered finished) (hp : w.point = .execute) :
    w.execute.Ordered finished := by
  unfold Worker.execute
  split
  case h_1 hm => exact h.move hm nofun nofun
  case h_2 e hm =>
    have hcallable : e.task.function.isSome = true := by
      refine h.callable e ?_
      rw [h.pushed]
      exact List.mem_append_right _ (List.mem_of_mem_head? (h.flight e hm))
    split
    case h_1 hnone =>
      rw [hnone] at hcallable
      cases hcallable
    case h_2 =>
      have hbegun : w.started = finished ++ [] := (h.at_point hp).started
      have hended : w.ran = finished ++ [] := (h.at_point hp).ran
      refine ⟨h.numbered, h.callable, h.pushed, ?_, hended, h.flight, Option.isSome_of_mem hm⟩
      show w.started ++ [e] = finished ++ w.myTask.toList
      rw [hbegun, hm, List.append_nil]
      rfl

theorem Ordered.return_ (h : w.Ordered finished) (hp : w.point = .running) :
    w.return_.Ordered finished := by
  have hran : w.ran = finished ++ [] := (h.at_point hp).ran
  refine ⟨h.numbered, h.callable, h.pushed, (h.at_point hp).started, ?_, h.flight, trivial⟩
  show w.ran ++ w.myTask.toList = finished ++ w.myTask.toList
  rw [hran, List.append_nil]

/-- The entry whose function has returned is popped, and no other. -/
theorem Ordered.retire (h : w.Ordered finished) (hp : w.point = .retire) :
    ∃ finished', w.retire.Ordered finished' := by
  unfold Worker.retire
  split
  case h_1 hm =>
    obtain ⟨p, hrunning, hdefined, heq⟩ := w.retireWait_eq
    rw [heq]
    exact ⟨finished, h.move hm hrunning hdefined⟩
  case h_2 e hm =>
    have hhead := h.flight e hm
    split
    case h_1 hq =>
      rw [hq] at hhead
      cases hhead
    case h_2 e' rest hq =>
      rw [hq] at hhead
      cases hhead
      obtain ⟨p, hrunning, hdefined, heq⟩ := retireWait_eq { w with queue := rest, myTask := none }
      rw [heq]
      have hstarted : w.started = finished ++ w.myTask.toList := (h.at_point hp).started
      have hran : w.ran = finished ++ w.myTask.toList := (h.at_point hp).ran
      rw [hm] at hstarted hran
      have hnext : Ordered (finished ++ [e]) { w with queue := rest, myTask := none, point := .loop } :=
        { numbered := h.numbered
          callable := h.callable
          pushed := by
            rw [List.append_assoc, List.singleton_append, ← hq]
            exact h.pushed
          started := hstarted.trans (List.append_nil _).symm
          ran := hran.trans (List.append_nil _).symm
          flight := nofun
          inFlight := rfl }
      exact ⟨finished ++ [e], hnext.move rfl hrunning hdefined⟩

theorem Ordered.runner (h : w.Ordered finished) (hs : w.runner = some w') :
    ∃ finished', w'.Ordered finished' := by
  cases runner_cases hs with
  | loop hp => refine ⟨finished, h.move (h.at_point hp).inFlight ?_ ?_⟩ <;> split <;> nofun
  | grab hp => exact ⟨finished, h.grab hp⟩
  | execute hp => exact ⟨finished, h.execute hp⟩
  | return_ hp => exact ⟨finished, h.return_ hp⟩
  | retire hp => exact h.retire hp
  | block hp => exact ⟨finished, h.move (h.at_point hp).inFlight nofun nofun⟩
  | awake hp => refine ⟨finished, h.move (h.at_point hp).inFlight ?_ ?_⟩ <;> split <;> nofun

/-- **A worker keeps the order** in every step but `clear`. -/
theorem Ordered.step (h : w.Ordered finished) {l : Label} (hs : w.step l = some w')
    (hclear : l ≠ .clear) : ∃ finished', w'.Ordered finished' := by
  cases step_cases hs with
  | push task => exact ⟨finished, (h.push hs).1⟩
  | clear => exact absurd rfl hclear
  | runner => exact h.runner hs
  | notify | stopNotify =>
      obtain ⟨hnumbered, hcallable, hpushed, hstarted, hran, hhead, hflight⟩ := h.wake
      exact ⟨finished, hnumbered, hcallable, hpushed, hstarted, hran, hhead, hflight⟩
  | stop =>
      exact ⟨finished, h.numbered, h.callable, h.pushed, h.started, h.ran, h.flight, h.inFlight⟩
  | spurious hp =>
      have hwake := h.wake
      rw [hp] at hwake
      exact ⟨finished, hwake⟩

theorem Ordered.start (affinity : Affinity) : (start affinity).Ordered [] :=
  ⟨rfl, nofun, rfl, rfl, rfl, nofun, rfl⟩

/-- What has been started is a prefix of what was pushed. -/
theorem Ordered.started_prefix (h : w.Ordered finished) : w.started <+: w.pushed := by
  have hfront : w.begun <+: w.queue := by
    unfold begun
    split
    case h_1 | h_2 =>
      cases hm : w.myTask with
      | none => exact List.nil_prefix
      | some e =>
          obtain ⟨rest, hq⟩ := List.head?_eq_some_iff.1 (h.flight e hm)
          rw [hq]
          exact List.prefix_append [e] rest
    all_goals exact List.nil_prefix
  rw [h.started, h.pushed]
  exact (List.prefix_append_right_inj finished).2 hfront

/-- Everything finished has returned. -/
theorem Ordered.finished_prefix (h : w.Ordered finished) : finished <+: w.ran :=
  h.ran ▸ List.prefix_append _ _

/-- The runner puts no entries into a queue. -/
theorem runner_pushed (hs : w.runner = some w') : w'.pushed = w.pushed := by
  cases runner_cases hs with
  | execute =>
      unfold Worker.execute
      split
      · rfl
      · split <;> rfl
  | retire =>
      unfold Worker.retire
      split
      · obtain ⟨p, -, -, heq⟩ := w.retireWait_eq
        rw [heq]
      · split
        · rfl
        · obtain ⟨p, -, -, heq⟩ := retireWait_eq { w with queue := _, myTask := none }
          rw [heq]
  | loop | grab | return_ | block | awake => rfl

/-- Only `worker::push` does. -/
theorem step_pushed {l : Label} (hs : w.step l = some w') (hpush : ∀ task, l ≠ .push task) :
    w'.pushed = w.pushed := by
  cases step_cases hs with
  | push task => exact absurd rfl (hpush task)
  | runner => exact runner_pushed hs
  | notify | clear | stop | stopNotify | spurious => rfl

end Worker

/-! ## The calls of `pool::push` -/

/-- The call has put its task into a queue. -/
def Stage.accepted : Stage → Bool
  | .notifying _ => true
  | .returned suc => suc
  | .scanning .. | .pushing _ | .thrown _ => false

/-- What is known of a call: it has placed an entry, which has its task, exactly when it
is accepted. -/
structure Call.Sound (call : Call) : Prop where
  placed : call.placed.isSome = call.stage.accepted
  task : ∀ e ∈ call.placed, call.task = some e.2.task

namespace Pool

variable {p p' : Pool} {ts : List (Transition Pool PoolLabel)}

/-- The entries that were pushed to a worker, with its number. -/
def pushedTo (e : ℕ × Worker) : List (ℕ × Entry) := e.2.pushed.map (e.1, ·)

/-- The entries that were pushed to the workers, each with its worker. -/
def entries (p : Pool) : List (ℕ × Entry) := p.workers.flatMap pushedTo

/-- What holds in every state of a pool whose queues are not cleared. -/
structure Inv (p : Pool) : Prop where
  keys : (OrderedMap.keys p.workers).Nodup
  ordered : ∀ e ∈ p.workers, ∃ finished, e.2.Ordered finished
  sound : ∀ call ∈ p.calls, call.Sound
  placed : (p.calls.filterMap Call.placed).Perm p.entries

/-- No entry has been pushed twice. -/
theorem Inv.entries_nodup (h : p.Inv) : p.entries.Nodup := by
  refine List.nodup_flatMap.2 ⟨fun e he ↦ ?_, ?_⟩
  · obtain ⟨finished, hordered⟩ := h.ordered e he
    have hids : (e.2.pushed.map Entry.id).Nodup := hordered.numbered ▸ List.nodup_range
    exact (List.Nodup.of_map _ hids).map fun _ _ heq ↦ (Prod.mk.inj heq).2
  · refine (List.pairwise_map.1 h.keys).imp fun {e e'} hne ↦ ?_
    intro x hx hx'
    obtain ⟨y, -, rfl⟩ := List.mem_map.1 hx
    obtain ⟨y', -, heq⟩ := List.mem_map.1 hx'
    exact hne (Prod.mk.inj heq).1.symm

/-- Where the entries of one worker are among those of the pool. -/
theorem Inv.entries_split (h : p.Inv) {idx : ℕ} {w : Worker} (hw : p.workers.lookup idx = some w) :
    ∃ l r, p.entries = l ++ (pushedTo (idx, w) ++ r) ∧
      ∀ w', (p.setWorker idx w').entries = l ++ (pushedTo (idx, w') ++ r) := by
  obtain ⟨l, r, hsplit, hset⟩ := OrderedMap.set_split h.keys hw
  refine ⟨l.flatMap pushedTo, r.flatMap pushedTo, ?_, fun w' ↦ ?_⟩
  · rw [entries, hsplit, List.flatMap_append, List.flatMap_cons]
  · rw [entries, setWorker, hset, List.flatMap_append, List.flatMap_cons]

/-- Changing one worker, in order, keeps all workers in order. -/
theorem Inv.ordered_set (h : p.Inv) {idx : ℕ} {w' : Worker} {finished : List Entry}
    (hw' : w'.Ordered finished) :
    ∀ e ∈ (p.setWorker idx w').workers, ∃ finished, e.2.Ordered finished := by
  intro e he
  rcases OrderedMap.mem_set he with rfl | he
  · exact ⟨finished, hw'⟩
  · exact h.ordered e he

/-- A worker takes a step that pushes nothing. -/
theorem Inv.setWorker (h : p.Inv) {idx : ℕ} {w w' : Worker} (hw : p.workers.lookup idx = some w)
    {l : Label} (hs : w.step l = some w') (hclear : l ≠ .clear) (hpush : ∀ task, l ≠ .push task) :
    (p.setWorker idx w').Inv := by
  obtain ⟨finished, hordered⟩ := h.ordered (idx, w) (OrderedMap.mem_of_lookup hw)
  obtain ⟨finished', hordered'⟩ := hordered.step hs hclear
  obtain ⟨l, r, hentries, hset⟩ := h.entries_split hw
  refine ⟨?_, h.ordered_set hordered', h.sound, ?_⟩
  · rw [Pool.setWorker, OrderedMap.keys_set]
    exact h.keys
  · have hsame : pushedTo (idx, w') = pushedTo (idx, w) :=
      congrArg (List.map (idx, ·)) (Worker.step_pushed hs hpush)
    rw [hset, hsame, ← hentries]
    exact h.placed

/-- Where a call is among the calls. -/
theorem calls_split {c : ℕ} {call : Call} (hc : p.calls[c]? = some call) :
    ∃ l r, p.calls = l ++ call :: r ∧ ∀ call', p.calls.set c call' = l ++ call' :: r := by
  obtain ⟨hlt, rfl⟩ := List.getElem?_eq_some_iff.1 hc
  refine ⟨p.calls.take c, p.calls.drop (c + 1), ?_, fun call' ↦ ?_⟩
  · rw [List.getElem_cons_drop, List.take_append_drop]
  · rw [List.set_eq_take_append_cons_drop, if_pos hlt]

/-- A call goes on, without placing an entry. -/
theorem Inv.setCall (h : p.Inv) {c : ℕ} {call call' : Call} (hc : p.calls[c]? = some call)
    (hplaced : call'.placed = call.placed) (hsound : call'.Sound) : (p.setCall c call').Inv := by
  obtain ⟨l, r, hsplit, hset⟩ := calls_split hc
  refine ⟨h.keys, h.ordered, ?_, ?_⟩
  · intro call'' hmem
    rcases List.mem_or_eq_of_mem_set hmem with hmem | rfl
    · exact h.sound call'' hmem
    · exact hsound
  · show ((p.calls.set c call').filterMap Call.placed).Perm p.entries
    rw [hset, List.filterMap_append, List.filterMap_cons, hplaced, ← List.filterMap_cons,
      ← List.filterMap_append, ← hsplit]
    exact h.placed

/-- **An entry is placed**: one call puts one entry into the queue of one worker. -/
theorem Inv.push (h : p.Inv) {c idx : ℕ} {call : Call} {task : Task} {w w' : Worker}
    (hc : p.calls[c]? = some call) (hnone : call.placed = none) (hw : p.workers.lookup idx = some w)
    (hs : w.push task = some w') :
    ((p.setWorker idx w').setCall c
      ⟨some task, .notifying idx, some (idx, ⟨w.pushed.length, task⟩)⟩).Inv := by
  obtain ⟨finished, hordered⟩ := h.ordered (idx, w) (OrderedMap.mem_of_lookup hw)
  obtain ⟨hordered', hpushed⟩ := hordered.push hs
  obtain ⟨l, r, hentries, hset⟩ := h.entries_split hw
  obtain ⟨before, after, hsplit, hcalls⟩ := calls_split hc
  refine ⟨?_, h.ordered_set hordered', ?_, ?_⟩
  · show (OrderedMap.keys (p.workers.set idx w')).Nodup
    rw [OrderedMap.keys_set]
    exact h.keys
  · intro call' hmem
    rcases List.mem_or_eq_of_mem_set hmem with hmem | rfl
    · exact h.sound call' hmem
    · exact ⟨rfl, fun e he ↦ by cases he; rfl⟩
  · have hplaced : (p.calls.filterMap Call.placed) =
        before.filterMap Call.placed ++ after.filterMap Call.placed := by
      rw [hsplit, List.filterMap_append, List.filterMap_cons_none hnone]
    show ((p.calls.set c _).filterMap Call.placed).Perm (p.setWorker idx w').entries
    rw [hcalls, List.filterMap_append, List.filterMap_cons, hset, pushedTo, hpushed, List.map_append,
      List.append_assoc, List.map_singleton, List.singleton_append]
    have hentry : (before.filterMap Call.placed ++ (idx, ⟨w.pushed.length, task⟩) ::
        after.filterMap Call.placed).Perm ((idx, ⟨w.pushed.length, task⟩) :: p.entries) :=
      List.perm_middle.trans ((hplaced ▸ h.placed).cons _)
    refine hentry.trans ?_
    rw [hentries, ← List.append_assoc, ← List.append_assoc]
    exact List.perm_middle.symm

/-- A call in its loop is not accepted, nor is one that has just left it. -/
theorem scan_accepted {task : Task} {stage stage' : Stage} (hs : p.scan task stage = some stage') :
    stage.accepted = false ∧ stage'.accepted = false := by
  unfold scan at hs
  split at hs
  case h_1 rest lowest =>
    cases hs
    cases lowest with
    | none => exact ⟨rfl, rfl⟩
    | some l => exact ⟨rfl, rfl⟩
  case h_2 =>
    split at hs
    · cases hs
    · split at hs
      · cases hs
        exact ⟨rfl, rfl⟩
      · split at hs
        · cases hs
        · cases hs
          exact ⟨rfl, rfl⟩
  all_goals cases hs

/-! ### What a step does -/

theorem step_scan_cases {c : ℕ} (hs : p.step (.scan c) = some p') :
    ∃ task stage placed stage', p.calls[c]? = some { task := some task, stage, placed } ∧
      p.scan task stage = some stage' ∧ p' = p.setCall c { task := some task, stage := stage', placed } := by
  simp only [Pool.step] at hs
  split at hs
  case h_2 => cases hs
  case h_1 task stage placed hc =>
    obtain ⟨stage', hstage, rfl⟩ := Option.map_eq_some_iff.1 hs
    exact ⟨task, stage, placed, stage', hc, hstage, rfl⟩

theorem step_push_cases {c : ℕ} (hs : p.step (.push c) = some p') :
    ∃ task idx placed w w', p.calls[c]? = some { task := some task, stage := .pushing idx, placed } ∧
      p.workers.lookup idx = some w ∧ w.push task = some w' ∧
        p' = (p.setWorker idx w').setCall c
          { task := some task, stage := .notifying idx, placed := some (idx, ⟨w.pushed.length, task⟩) } := by
  simp only [Pool.step] at hs
  split at hs
  case h_2 => cases hs
  case h_1 task idx placed hc =>
    obtain ⟨w, hw, hs⟩ := Option.bind_eq_some_iff.1 hs
    obtain ⟨w', hw', rfl⟩ := Option.map_eq_some_iff.1 hs
    exact ⟨task, idx, placed, w, w', hc, hw, hw', rfl⟩

theorem step_notify_cases {c : ℕ} (hs : p.step (.notify c) = some p') :
    ∃ task idx placed w w', p.calls[c]? = some { task, stage := .notifying idx, placed } ∧
      p.workers.lookup idx = some w ∧ w.step .notify = some w' ∧
        p' = (p.setWorker idx w').setCall c { task, stage := .returned true, placed } := by
  simp only [Pool.step] at hs
  split at hs
  case h_2 => cases hs
  case h_1 task idx placed hc =>
    obtain ⟨w, hw, hs⟩ := Option.bind_eq_some_iff.1 hs
    obtain ⟨w', hw', rfl⟩ := Option.map_eq_some_iff.1 hs
    exact ⟨task, idx, placed, w, w', hc, hw, hw', rfl⟩

/-- A worker does not push tasks to itself, nor does it notify itself. -/
theorem step_worker_cases {idx : ℕ} {l : Label} (hs : p.step (.worker idx l) = some p') :
    (∀ task, l ≠ .push task) ∧ ∃ w w', p.workers.lookup idx = some w ∧ w.step l = some w' ∧
      p' = p.setWorker idx w' := by
  have hown : (∀ task, l ≠ .push task) ∧
      ((p.workers.lookup idx).bind fun w ↦ (w.step l).map fun w' ↦ p.setWorker idx w') = some p' := by
    cases l with
    | push | notify => cases hs
    | clear | stop | stopNotify | runner | spurious => exact ⟨nofun, hs⟩
  obtain ⟨hpush, hs⟩ := hown
  obtain ⟨w, hw, hs⟩ := Option.bind_eq_some_iff.1 hs
  obtain ⟨w', hw', rfl⟩ := Option.map_eq_some_iff.1 hs
  exact ⟨hpush, w, w', hw, hw', rfl⟩

/-- **Every step but `clear` keeps the invariant.** -/
theorem Inv.step (h : p.Inv) {l : PoolLabel} (hs : p.step l = some p')
    (hclear : ∀ idx, l ≠ .worker idx .clear) : p'.Inv := by
  cases l with
  | call task =>
      cases hs
      refine ⟨h.keys, h.ordered, ?_, ?_⟩
      · intro call hmem
        rcases List.mem_append.1 hmem with hmem | hmem
        · exact h.sound call hmem
        · rw [List.mem_singleton.1 hmem]
          refine ⟨?_, nofun⟩
          show false = Stage.accepted _
          split <;> rfl
      · show ((p.calls ++ _).filterMap Call.placed).Perm p.entries
        rw [List.filterMap_append, List.filterMap_cons_none rfl, List.filterMap_nil, List.append_nil]
        exact h.placed
  | scan c =>
      obtain ⟨task, stage, placed, stage', hc, hstage, rfl⟩ := step_scan_cases hs
      have hsound := h.sound _ (List.mem_of_getElem? hc)
      obtain ⟨hbefore, hafter⟩ := scan_accepted hstage
      exact h.setCall hc rfl ⟨hsound.placed.trans (hbefore.trans hafter.symm), hsound.task⟩
  | push c =>
      obtain ⟨task, idx, placed, w, w', hc, hw, hw', rfl⟩ := step_push_cases hs
      have hnone := (h.sound _ (List.mem_of_getElem? hc)).placed
      exact h.push hc (Option.not_isSome_iff_eq_none.1 (Bool.eq_false_iff.1 hnone)) hw hw'
  | notify c =>
      obtain ⟨task, idx, placed, w, w', hc, hw, hw', rfl⟩ := step_notify_cases hs
      have hsound := h.sound _ (List.mem_of_getElem? hc)
      exact (h.setWorker hw hw' nofun nofun).setCall hc rfl ⟨hsound.placed, hsound.task⟩
  | worker idx l =>
      obtain ⟨hpush, w, w', hw, hw', rfl⟩ := step_worker_cases hs
      exact h.setWorker hw hw' (fun heq ↦ hclear idx (heq ▸ rfl)) hpush

theorem Inv.start (n : ℕ) : (start n).Inv := by
  have hkeys : OrderedMap.keys (Pool.start n).workers = List.range n := by
    rw [OrderedMap.keys, Pool.start, List.map_map]
    exact List.map_id _
  refine ⟨hkeys ▸ List.nodup_range, ?_, nofun, ?_⟩
  · intro e he
    obtain ⟨idx, -, rfl⟩ := List.mem_map.1 he
    exact ⟨[], Worker.Ordered.start _⟩
  · have hnone : (Pool.start n).entries = [] := by
      refine List.flatMap_eq_nil_iff.2 fun e he ↦ ?_
      obtain ⟨idx, -, rfl⟩ := List.mem_map.1 he
      rfl
    rw [hnone]
    exact .nil

/-- **First in, first out, and exactly once.**  In every run of a pool in which no queue
is cleared, each worker has started a prefix of the entries that were pushed to it, in
their order; those that are not in its queue any more are the first ones, and their
functions have returned; the calls of `pool::push` that have been accepted, and no others,
have placed one entry each, with the task of the call; and these are the entries of the
workers, each once. -/
theorem fifo {n : ℕ} (hrun : Run step (start n) ts p)
    (hclear : ∀ t ∈ ts, ∀ idx, t.label ≠ .worker idx .clear) :
    (∀ e ∈ p.workers, e.2.started <+: e.2.pushed ∧
      ∃ finished, e.2.pushed = finished ++ e.2.queue ∧ finished <+: e.2.ran) ∧
    (∀ call ∈ p.calls, call.placed.isSome = call.stage.accepted ∧
      ∀ e ∈ call.placed, call.task = some e.2.task) ∧
    (p.calls.filterMap Call.placed).Perm p.entries ∧ p.entries.Nodup := by
  have hinv : p.Inv := (hrun.invariant (I := Inv) (C := fun t ↦ ∀ idx, t.label ≠ .worker idx .clear)
    (fun _ hs hc h ↦ h.step hs hc) (Inv.start n) hclear).1
  refine ⟨fun e he ↦ ?_, fun call hcall ↦ ?_, hinv.placed, hinv.entries_nodup⟩
  · obtain ⟨finished, hordered⟩ := hinv.ordered e he
    exact ⟨hordered.started_prefix, finished, hordered.pushed, hordered.finished_prefix⟩
  · have hsound := hinv.sound call hcall
    exact ⟨hsound.placed, hsound.task⟩

/-- Three tasks are pushed to a pool with two workers; the second one is pushed while the
first one runs, and the third one goes to the worker that is running. -/
def threeTasks : List PoolLabel :=
  [.call (some ⟨some 0, defaultMask⟩), .scan 0, .scan 0, .scan 0, .push 0,
    .worker 0 .runner, .worker 0 .runner, .worker 0 .runner,
    .call (some ⟨some 1, defaultMask⟩), .scan 1, .scan 1, .notify 0, .scan 1, .push 1, .notify 1,
    .call (some ⟨some 2, 1⟩), .scan 2, .scan 2, .scan 2, .push 2]

theorem fifo_three : ∃ ts p, Run step (start 2) ts p ∧
    p.entries = [(0, ⟨0, some 0, defaultMask⟩), (0, ⟨1, some 2, 1⟩), (1, ⟨0, some 1, defaultMask⟩)] ∧
    (p.workers.lookup 0).map Worker.started = some [⟨0, some 0, defaultMask⟩] ∧
    (p.calls.filterMap Call.placed).Perm p.entries := by
  obtain ⟨ts, p, hrun, hclear, hentries, hstarted⟩ := Run.exists_of_labels step (start 2) threeTasks
    (fun l ↦ ∀ idx, l ≠ .worker idx .clear)
    (fun _ p ↦ p.entries =
        [(0, ⟨0, some 0, defaultMask⟩), (0, ⟨1, some 2, 1⟩), (1, ⟨0, some 1, defaultMask⟩)] ∧
      (p.workers.lookup 0).map Worker.started = some [⟨0, some 0, defaultMask⟩])
    (by simp [threeTasks]) ⟨_, rfl, by decide⟩
  exact ⟨ts, p, hrun, hentries, hstarted, (fifo hrun hclear).2.2.1⟩

end Pool

end Datapath.Threadpool
