import Datapath.Threadpool.Fifo
import Datapath.Threadpool.Wakeup

/-!
# What becomes of the tasks

Three questions that the owner of a worker may ask.

* What has been pushed, is it run?  The runner left to itself, with the notifications that
  are still due, comes to rest after a number of steps that is known beforehand, and it
  then has run everything (`comes_to_rest`).
* What has been cleared, is it run?  `clear` can make the runner drop a task that it has not
  run, but it never makes it run one twice, or out of turn (`started_once`).
* What is run after the destructor has begun?  The task that the runner has in its hands,
  and none of those behind it (`stops_soon`).
-/

namespace Datapath.Threadpool

open Datapath.Lib

/-- The steps that need no one else. -/
def Label.IsOwn : Label → Prop
  | .runner | .notify => True
  | .push _ | .clear | .stop | .stopNotify | .spurious => False

namespace Worker

variable {w w' : Worker} {affinity : Affinity} {ts ts' : List (Transition Worker Label)}
variable {finished : List Entry}

/-! ## Coming to rest -/

/-- How many steps of its loop the runner has before it pops the queue or blocks.  It goes
round once more if there is something in the queue that it has not grabbed. -/
def stepsLeft (w : Worker) : ℕ :=
  match w.point with
  | .blocked true => 7
  | .loop => 6
  | .grab => 5
  | .execute => if w.myTask.isNone && !w.queue.isEmpty then 8 else 4
  | .running => 3
  | .retire => if w.myTask.isNone && !w.queue.isEmpty then 7 else 2
  | .waiting => 1
  | .blocked false | .finished | .undefined => 0

/-- The measure that the runner lowers. -/
def unrest (w : Worker) : ℕ := 8 * (w.queue.length + w.notifies) + w.stepsLeft

theorem stepsLeft_le (w : Worker) : w.stepsLeft ≤ 8 := by
  unfold stepsLeft
  split <;> first | omega | (split <;> omega)

/-- The runner goes back to the loop if there is something in the queue, and otherwise is
about to block. -/
theorem wait_eq (hgo : w.shouldStop = false) :
    w.wait = { w with point := if w.queue.isEmpty then .waiting else .loop } := by
  unfold Worker.wait predicate
  rw [hgo, Bool.false_or]
  cases w.queue.isEmpty with
  | true => rfl
  | false => rfl

theorem retireWait_eq_wait (hgo : w.shouldStop = false) :
    w.retireWait = { w with point := if w.queue.isEmpty then .waiting else .loop } := by
  unfold retireWait
  cases hq : w.queue.isEmpty with
  | true => rw [if_pos rfl, wait_eq hgo, hq]
  | false => rfl

/-- After the section that pops there is less to do than the loop has. -/
theorem unrest_retireWait (hgo : w.shouldStop = false) :
    w.retireWait.unrest ≤ 8 * (w.queue.length + w.notifies) + if w.queue.isEmpty then 1 else 6 := by
  rw [retireWait_eq_wait hgo]
  cases w.queue.isEmpty with
  | true => exact Nat.le_refl _
  | false => exact Nat.le_refl _

/-- The call of the function, or the lack of one, is a step of the loop. -/
theorem unrest_execute (hp : w.point = .execute) : w.execute.unrest < w.unrest := by
  unfold Worker.execute
  cases hm : w.myTask with
  | none =>
      cases hq : w.queue.isEmpty with
      | true => simp [unrest, stepsLeft, hp, hm, hq]
      | false => simp [unrest, stepsLeft, hp, hm, hq]
  | some e =>
      cases hf : e.task.function with
      | none => simp [unrest, stepsLeft, hp, hm, hf]
      | some f => simp [unrest, stepsLeft, hp, hm, hf]

/-- The section that pops makes the queue shorter, or there is nothing to pop. -/
theorem unrest_retire (hp : w.point = .retire) (hgo : w.shouldStop = false) : w.retire.unrest < w.unrest := by
  unfold Worker.retire
  cases hm : w.myTask with
  | none =>
      have hle := unrest_retireWait hgo
      cases hq : w.queue.isEmpty with
      | true =>
          have hunrest : w.unrest = 8 * (w.queue.length + w.notifies) + 2 := by
            simp [unrest, stepsLeft, hp, hm, hq]
          rw [hq, if_pos rfl] at hle
          dsimp only
          omega
      | false =>
          have hunrest : w.unrest = 8 * (w.queue.length + w.notifies) + 7 := by
            simp [unrest, stepsLeft, hp, hm, hq]
          rw [hq, if_neg Bool.false_ne_true] at hle
          dsimp only
          omega
  | some e =>
      cases hq : w.queue with
      | nil => simp [unrest, stepsLeft, hp, hm, hq]
      | cons e' rest =>
          have hle := unrest_retireWait (w := { w with queue := rest, myTask := none }) hgo
          have hsix : (if rest.isEmpty then 1 else 6) ≤ 6 := by split <;> omega
          have hunrest : w.unrest = 8 * (rest.length + 1 + w.notifies) + 2 := by
            simp [unrest, stepsLeft, hp, hm, hq]
          have hlt := Nat.le_trans hle (Nat.add_le_add_left hsix _)
          rw [hunrest]
          dsimp only at hlt ⊢
          omega

/-- **Every step of the runner brings it nearer to rest.** -/
theorem unrest_runner (h : w.Ordered finished) (hgo : w.shouldStop = false) (hs : w.runner = some w') :
    w'.unrest < w.unrest := by
  cases runner_cases hs with
  | loop hp => simp only [unrest, stepsLeft, hp, hgo, Bool.false_eq_true, if_false]; omega
  | grab hp =>
      cases hq : w.queue with
      | nil => simp [unrest, stepsLeft, Worker.grab, hp, hq]
      | cons e rest => simp [unrest, stepsLeft, Worker.grab, hp, hq]
  | execute hp => exact unrest_execute hp
  | return_ hp =>
      have hm : w.myTask.isSome = true := (h.at_point hp).inFlight
      simp [unrest, stepsLeft, Worker.return_, hp, Option.isNone_eq_false_iff.2 hm]
  | retire hp => exact unrest_retire hp hgo
  | block hp => simp [unrest, stepsLeft, hp]
  | awake hp =>
      rw [wait_eq hgo]
      cases w.queue.isEmpty with
      | true => simp [unrest, stepsLeft, hp]
      | false => simp [unrest, stepsLeft, hp]

/-- So does every notification, though it may wake the runner. -/
theorem unrest_notify (hs : w.step .notify = some w') : w'.unrest < w.unrest := by
  obtain ⟨n, hn⟩ : ∃ n, w.notifies = n + 1 ∧ w' = { w with notifies := n, point := w.point.wake } := by
    cases step_cases hs with
    | notify n hn => exact ⟨n, hn, rfl⟩
  obtain ⟨hn, rfl⟩ := hn
  cases hp : w.point with
  | blocked woken =>
      cases woken with
      | true => simp only [unrest, stepsLeft, hp, hn, Point.wake]; omega
      | false => simp only [unrest, stepsLeft, hp, hn, Point.wake]; omega
  | _ => simp only [unrest, stepsLeft, hp, hn, Point.wake]; omega

/-- What holds of a worker that has not been cleared: it keeps the order, it does not sleep
through a push, and it does not leave the loop of its own accord. -/
structure Serving (finished : List Entry) (w : Worker) : Prop where
  ordered : w.Ordered finished
  attentive : w.Attentive
  stays : w.shouldStop = false → w.point ≠ .finished

/-- The runner leaves the loop only when it has been told to stop. -/
theorem stays_runner (hs : w.runner = some w') : w'.shouldStop = false → w'.point ≠ .finished := by
  have hgo := (runner_frame hs).2.1
  rw [hgo]
  intro hstop
  have hwait : ∀ v : Worker, v.retireWait.point ≠ .finished ∧ v.wait.point ≠ .finished := by
    intro v
    constructor
    · rcases v.retireWait_point with ⟨hp, -⟩ | hp
      · rw [hp]
        exact nofun
      · rw [hp]
        exact nofun
    · rcases v.wait_point with ⟨hp, -⟩ | hp
      · rw [hp]
        exact nofun
      · rw [hp]
        exact nofun
  cases runner_cases hs with
  | loop => simp [hstop]
  | grab | return_ | block => exact nofun
  | execute =>
      unfold Worker.execute
      split
      · exact nofun
      · split
        · exact nofun
        · exact nofun
  | retire =>
      unfold Worker.retire
      split
      · exact (hwait w).1
      · split
        · exact nofun
        · exact (hwait _).1
  | awake => exact (hwait w).2

/-- A wake-up moves no runner out of the loop. -/
theorem wake_ne_finished {p : Point} (h : p ≠ .finished) : p.wake ≠ .finished := by
  cases p with
  | blocked => exact nofun
  | _ => exact h

theorem Serving.step (h : w.Serving finished) {l : Label} (hs : w.step l = some w') (hclear : l ≠ .clear) :
    ∃ finished', w'.Serving finished' := by
  obtain ⟨finished', hordered⟩ := h.ordered.step hs hclear
  refine ⟨finished', hordered, h.attentive.step hs, ?_⟩
  cases step_cases hs with
  | push => exact h.stays
  | notify | stopNotify => exact fun hgo ↦ wake_ne_finished (h.stays hgo)
  | clear => exact absurd rfl hclear
  | stop => exact nofun
  | runner => exact stays_runner hs
  | spurious => exact nofun

theorem Serving.start (affinity : Affinity) : (start affinity).Serving [] :=
  ⟨.start affinity, .start affinity, fun _ ↦ nofun⟩

theorem Serving.run (hrun : Run Worker.step (Worker.start affinity) ts w) (hclear : ∀ t ∈ ts, t.label ≠ .clear) :
    ∃ finished, w.Serving finished :=
  (hrun.invariant (I := fun w ↦ ∃ finished, w.Serving finished) (C := fun t ↦ t.label ≠ .clear)
    (fun _ hs hc ⟨_, h⟩ ↦ h.step hs hc) ⟨[], .start affinity⟩ hclear).1

/-- A worker at rest has run all that was pushed to it. -/
theorem Serving.at_rest (h : w.Serving finished) (hgo : w.shouldStop = false)
    (hrunner : w.step .runner = none) (hnotify : w.step .notify = none) :
    w.ran = w.pushed ∧ w.queue = [] ∧ w.point = .blocked false := by
  have hnotifies : w.notifies = 0 := by
    cases hn : w.notifies with
    | zero => rfl
    | succ n => simp only [Worker.step, hn] at hnotify; cases hnotify
  have hp : w.point = .blocked false := by
    have hstuck : w.runner = none := hrunner
    unfold Worker.runner at hstuck
    cases hp : w.point with
    | blocked woken =>
        cases woken with
        | true => rw [hp] at hstuck; cases hstuck
        | false => rfl
    | finished => exact absurd hp (h.stays hgo)
    | undefined => exact (h.ordered.at_point hp).inFlight.elim
    | loop | grab | execute | running | retire | waiting => rw [hp] at hstuck; cases hstuck
  have hq : w.queue = [] := by
    by_contra hne
    exact absurd (h.attentive.blocked hp hne) (by omega)
  have hran : w.ran = finished ++ [] := (h.ordered.at_point hp).ran
  have hpushed := h.ordered.pushed
  rw [hq] at hpushed
  exact ⟨hran.trans hpushed.symm, hq, hp⟩

/-- The worker goes on from `w`, and nothing has been pushed to it. -/
structure GoesOn (w v : Worker) : Prop where
  serving : ∃ finished, v.Serving finished
  going : v.shouldStop = false
  pushed : v.pushed = w.pushed

/-- Its own steps change neither what was pushed nor that it goes on. -/
theorem GoesOn.step {v v' : Worker} {l : Label} (h : w.GoesOn v) (hs : v.step l = some v') (hl : l.IsOwn) :
    w.GoesOn v' := by
  obtain ⟨⟨finished, hserving⟩, hgo, hpushed⟩ := h
  cases l with
  | runner =>
      exact ⟨hserving.step hs nofun, (runner_frame hs).2.1.trans hgo, (runner_pushed hs).trans hpushed⟩
  | notify =>
      refine ⟨hserving.step hs nofun, ?_, (step_pushed hs nofun).trans hpushed⟩
      cases step_cases hs with
      | notify => exact hgo
  | push | clear | stop | stopNotify | spurious => exact hl.elim

/-- And they bring it nearer to rest. -/
theorem GoesOn.unrest_lt {v v' : Worker} {l : Label} (h : w.GoesOn v) (hs : v.step l = some v')
    (hl : l.IsOwn) : v'.unrest < v.unrest := by
  obtain ⟨⟨finished, hserving⟩, hgo, -⟩ := h
  cases l with
  | runner => exact unrest_runner hserving.ordered hgo hs
  | notify => exact unrest_notify hs
  | push | clear | stop | stopNotify | spurious => exact hl.elim

/-- **A worker that is left alone comes to rest, and has then run everything.**  After any run
in which the queue was not cleared and the destructor has not begun, the runner and the
notifications that are still due take only so many more steps; and when they have no step
left, every task that was pushed has been run, once and in order. -/
theorem comes_to_rest (hrun : Run step (start affinity) ts w) (hclear : ∀ t ∈ ts, t.label ≠ .clear)
    (hgo : w.shouldStop = false) (hrun' : Run step w ts' w') (hown : ∀ t ∈ ts', t.label.IsOwn) :
    ts'.length ≤ 8 * (w.queue.length + w.notifies) + 8 ∧
      (w'.step .runner = none → w'.step .notify = none →
        w'.ran = w.pushed ∧ w'.queue = [] ∧ w'.point = .blocked false) := by
  obtain ⟨finished, hserving⟩ := Serving.run hrun hclear
  obtain ⟨hlast, hall⟩ := hrun'.invariant (I := w.GoesOn) (C := fun t ↦ t.label.IsOwn)
    (fun _ hs hl h ↦ h.step hs hl) ⟨⟨finished, hserving⟩, hgo, rfl⟩ hown
  constructor
  · have hle := hrun'.length_le unrest fun t ht ↦ (hall t ht).1.unrest_lt (hrun'.step_of_mem ht) (hown t ht)
    have hunrest : w.unrest ≤ 8 * (w.queue.length + w.notifies) + 8 :=
      Nat.add_le_add_left w.stepsLeft_le _
    omega
  · intro hrunner hnotify
    obtain ⟨⟨_, hserving'⟩, hgo', hpushed⟩ := hlast
    obtain ⟨hran, hq, hp⟩ := hserving'.at_rest hgo' hrunner hnotify
    exact ⟨hran.trans hpushed, hq, hp⟩

/-- The runner is asleep, a task has been pushed, and its `push` has not notified yet. -/
theorem comes_to_rest_asleep : ∃ ts w ts' w', Run step (start 1) ts w ∧ w.point = .blocked false ∧
    Run step w ts' w' ∧ ts'.length = 8 ∧ ts'.length ≤ 24 ∧ w'.ran = [⟨0, { function := some 7 }⟩] := by
  obtain ⟨ts, w, hrun, hclear, hgo, hp, hpushed, hdue, r, hr, hown, hlength, hrunner, hnotify⟩ :=
    Run.exists_of_labels step (start 1)
      [.runner, .runner, .runner, .runner, .runner, .push { function := some 7 }] (· ≠ .clear)
      (fun _ w ↦ w.shouldStop = false ∧ w.point = .blocked false ∧
        w.pushed = [⟨0, { function := some 7 }⟩] ∧ w.queue.length + w.notifies = 2 ∧
        ∃ r, trace step w [.notify, .runner, .runner, .runner, .runner, .runner, .runner, .runner] = some r ∧
          (∀ t ∈ r.1, t.label.IsOwn) ∧ r.1.length = 8 ∧ r.2.step .runner = none ∧ r.2.step .notify = none)
      (by simp) ⟨_, rfl, rfl, rfl, rfl, rfl, _, rfl, by simp [Label.IsOwn], rfl, rfl, rfl⟩
  obtain ⟨hle, hrest⟩ := comes_to_rest hrun hclear hgo (Run.of_trace hr) hown
  rw [hdue] at hle
  exact ⟨ts, w, r.1, r.2, hrun, hp, Run.of_trace hr, hlength, hle, (hrest hrunner hnotify).1.trans hpushed⟩

/-! ## Whatever is cleared -/

/-- The entry that the runner has copied and not yet run. -/
def copied (w : Worker) : List Entry :=
  match w.point with
  | .execute => w.myTask.toList
  | .loop | .grab | .running | .retire | .waiting | .blocked _ | .finished | .undefined => []

/-- The runner holds a task at these points only. -/
def HoldsTask (w : Worker) : Prop :=
  match w.point with
  | .execute | .running | .retire | .undefined => True
  | .loop | .grab | .waiting | .blocked _ | .finished => w.myTask = none

/-- The entry whose function is running. -/
def inside (w : Worker) : List Entry :=
  match w.point with
  | .running => w.myTask.toList
  | .loop | .grab | .execute | .retire | .waiting | .blocked _ | .finished | .undefined => []

/-- What has left the queue is `gone`.  What has been started, and the entry that will be
next, are among these, in order, but the last one of them may still be at the front of the
queue. -/
structure Passed (gone : List Entry) (w : Worker) : Prop where
  numbered : w.pushed.map Entry.id = List.range w.pushed.length
  pushed : w.pushed = gone ++ w.queue
  holds : w.HoldsTask
  ran : w.started = w.ran ++ w.inside
  started : (w.started ++ w.copied).Sublist gone ∨
    ∃ e l, w.myTask = some e ∧ w.queue.head? = some e ∧ w.started ++ w.copied = l ++ [e] ∧ l.Sublist gone

variable {gone : List Entry}

/-- In both cases they are among the entries that have been pushed. -/
theorem Passed.sublist (h : w.Passed gone) : (w.started ++ w.copied).Sublist w.pushed := by
  rw [h.pushed]
  rcases h.started with hsub | ⟨e, l, -, hhead, heq, hsub⟩
  · exact hsub.trans (List.sublist_append_left _ _)
  · rw [heq]
    exact hsub.append (List.singleton_sublist.2 (List.mem_of_mem_head? hhead))

/-- A runner without a task has started nothing that has not left the queue. -/
theorem Passed.idle (h : w.Passed gone) (hm : w.myTask = none) :
    w.started.Sublist gone ∧ w.started = w.ran := by
  constructor
  · rcases h.started with hsub | ⟨e, l, he, -⟩
    · exact (List.sublist_append_left _ _).trans hsub
    · cases hm.symm.trans he
  · have hinside : w.inside = [] := by
      unfold inside
      rw [hm]
      split <;> rfl
    rw [h.ran, hinside, List.append_nil]

/-- A runner without a task moves to another point of the loop. -/
theorem Passed.move (h : w.Passed gone) (hm : w.myTask = none) (p : Point) :
    Passed gone { w with point := p } where
  numbered := h.numbered
  pushed := h.pushed
  holds := by
    cases p with
    | execute | running | retire | undefined => trivial
    | loop | grab | waiting | blocked | finished => exact hm
  ran := by
    have hinside : inside { w with point := p } = [] := by
      unfold inside
      dsimp only
      rw [hm]
      split <;> rfl
    rw [hinside, List.append_nil]
    exact (h.idle hm).2
  started := by
    have hcopied : copied { w with point := p } = [] := by
      unfold copied
      dsimp only
      rw [hm]
      split <;> rfl
    rw [hcopied, List.append_nil]
    exact .inl (h.idle hm).1

/-- What is known of a worker whose runner is at a point that is known. -/
theorem Passed.at_point (h : w.Passed gone) {p : Point} (hp : w.point = p) :
    Passed gone { w with point := p } := hp ▸ h

theorem Passed.wake (h : w.Passed gone) : Passed gone { w with point := w.point.wake } := by
  cases hp : w.point with
  | blocked woken => exact h.move (h.at_point hp).holds _
  | loop | grab | execute | running | retire | waiting | finished | undefined => exact h.at_point hp

theorem Passed.push (h : w.Passed gone) (task : Task) (n : ℕ) : Passed gone { w with
    queue := w.queue ++ [⟨w.pushed.length, task⟩]
    pushed := w.pushed ++ [⟨w.pushed.length, task⟩]
    notifies := n } where
  numbered := by
    rw [List.map_append, h.numbered, List.length_append, List.length_singleton, List.range_succ]
    rfl
  pushed := by rw [h.pushed, List.append_assoc]
  holds := h.holds
  ran := h.ran
  started := by
    rcases h.started with hsub | ⟨e, l, hm, hhead, heq, hsub⟩
    · exact .inl hsub
    · refine .inr ⟨e, l, hm, ?_, heq, hsub⟩
      rw [List.head?_append, hhead]
      rfl

/-- What is cleared leaves the queue, whether it has been started or not. -/
theorem Passed.clear (h : w.Passed gone) :
    Passed w.pushed { w with queue := [], cleared := w.cleared ++ w.queue } where
  numbered := h.numbered
  pushed := (List.append_nil _).symm
  holds := h.holds
  ran := h.ran
  started := .inl h.sublist

theorem Passed.grab (h : w.Passed gone) (hp : w.point = .grab) : w.grab.Passed gone := by
  have hm : w.myTask = none := (h.at_point hp).holds
  obtain ⟨hsub, hran⟩ := h.idle hm
  refine ⟨h.numbered, h.pushed, trivial, hran.trans (List.append_nil _).symm, ?_⟩
  cases hq : w.queue with
  | nil =>
      have hcopied : w.grab.copied = [] := by simp only [copied, Worker.grab, hq, hm, Option.toList_none]
      rw [hcopied, List.append_nil]
      exact .inl hsub
  | cons e rest =>
      have hcopied : w.grab.copied = [e] := by simp only [copied, Worker.grab, hq, Option.toList_some]
      have hgrabbed : w.grab.myTask = some e := by simp only [Worker.grab, hq]
      rw [hcopied]
      refine .inr ⟨e, w.started, hgrabbed, ?_, rfl, hsub⟩
      show w.queue.head? = some e
      rw [hq]
      rfl

/-- The runner calls the function that it has copied, or has none to call. -/
theorem execute_cases (w : Worker) : w.execute = { w with point := .retire } ∨
    ∃ e, w.myTask = some e ∧ w.execute = { w with started := w.started ++ [e], point := .running } := by
  unfold Worker.execute
  split
  case h_1 => exact .inl rfl
  case h_2 e hm =>
    split
    · exact .inl rfl
    · exact .inr ⟨e, hm, rfl⟩

/-- The runner pops the front of the queue, whatever that is, or has nothing to pop. -/
theorem retire_cases (w : Worker) :
    (w.myTask = none ∧ ∃ p, w.retire = { w with point := p }) ∨
      w.retire = { w with point := .undefined } ∨
        ∃ e rest p, w.queue = e :: rest ∧ w.retire = { w with queue := rest, myTask := none, point := p } := by
  unfold Worker.retire
  split
  case h_1 hm =>
    obtain ⟨p, -, -, heq⟩ := w.retireWait_eq
    exact .inl ⟨hm, p, heq⟩
  case h_2 =>
    split
    case h_1 => exact .inr (.inl rfl)
    case h_2 e rest hq =>
      obtain ⟨p, -, -, heq⟩ := retireWait_eq { w with queue := rest, myTask := none }
      exact .inr (.inr ⟨e, rest, p, hq, heq⟩)

theorem Passed.execute (h : w.Passed gone) (hp : w.point = .execute) : w.execute.Passed gone := by
  have hran : w.started = w.ran ++ [] := (h.at_point hp).ran
  have hstarted := (h.at_point hp).started
  rcases w.execute_cases with heq | ⟨e, hm, heq⟩
  · rw [heq]
    refine ⟨h.numbered, h.pushed, trivial, hran, .inl ?_⟩
    show (w.started ++ []).Sublist gone
    rw [List.append_nil]
    rcases hstarted with hsub | ⟨e, l, hm, -, hlast, hsub⟩
    · exact (List.sublist_append_left _ _).trans hsub
    · have hcopied : w.started ++ w.myTask.toList = l ++ [e] := hlast
      have hm' : w.myTask = some e := hm
      rw [hm'] at hcopied
      rw [List.append_cancel_right hcopied]
      exact hsub
  · rw [heq]
    have hcopied : copied { w with point := .execute } = [e] := congrArg Option.toList hm
    rw [hcopied] at hstarted
    refine ⟨h.numbered, h.pushed, trivial, ?_, ?_⟩
    · show w.started ++ [e] = w.ran ++ w.myTask.toList
      rw [hran, hm, List.append_nil]
      rfl
    · show (w.started ++ [e] ++ []).Sublist gone ∨ ∃ e' l, w.myTask = some e' ∧ w.queue.head? = some e' ∧
        w.started ++ [e] ++ [] = l ++ [e'] ∧ l.Sublist gone
      rw [List.append_nil]
      exact hstarted

theorem Passed.return_ (h : w.Passed gone) (hp : w.point = .running) : w.return_.Passed gone := by
  have hran : w.started = w.ran ++ w.myTask.toList := (h.at_point hp).ran
  exact ⟨h.numbered, h.pushed, trivial, hran.trans (List.append_nil _).symm, (h.at_point hp).started⟩

/-- The front of the queue leaves it, whether it is what the runner has run or not. -/
theorem Passed.retire (h : w.Passed gone) (hp : w.point = .retire) : ∃ gone', w.retire.Passed gone' := by
  have hran : w.started = w.ran ++ [] := (h.at_point hp).ran
  rcases w.retire_cases with ⟨hm, p, heq⟩ | heq | ⟨e, rest, p, hq, heq⟩
  · rw [heq]
    exact ⟨gone, h.move hm p⟩
  · rw [heq]
    exact ⟨gone, h.numbered, h.pushed, trivial, hran, (h.at_point hp).started⟩
  · rw [heq]
    have hsub : w.started.Sublist (gone ++ [e]) := by
      have hstarted := (h.at_point hp).started
      rw [show copied { w with point := .retire } = [] from rfl, List.append_nil] at hstarted
      rcases hstarted with hsub | ⟨e', l, -, hhead, hlast, hsub⟩
      · exact hsub.trans (List.sublist_append_left _ _)
      · have hfront : w.queue.head? = some e' := hhead
        rw [hq] at hfront
        cases hfront
        have hlast' : w.started = l ++ [e] := hlast
        rw [hlast']
        exact hsub.append (List.Sublist.refl [e])
    have hnext : Passed (gone ++ [e]) { w with queue := rest, myTask := none, point := .loop } :=
      { numbered := h.numbered
        pushed := by
          rw [List.append_assoc, List.singleton_append, ← hq]
          exact h.pushed
        holds := rfl
        ran := hran
        started := .inl ((List.append_nil w.started).symm ▸ hsub) }
    exact ⟨gone ++ [e], hnext.move rfl p⟩

theorem Passed.runner (h : w.Passed gone) (hs : w.runner = some w') : ∃ gone', w'.Passed gone' := by
  cases runner_cases hs with
  | loop hp => exact ⟨gone, h.move (h.at_point hp).holds _⟩
  | grab hp => exact ⟨gone, h.grab hp⟩
  | execute hp => exact ⟨gone, h.execute hp⟩
  | return_ hp => exact ⟨gone, h.return_ hp⟩
  | retire hp => exact h.retire hp
  | block hp => exact ⟨gone, h.move (h.at_point hp).holds _⟩
  | awake hp => exact ⟨gone, h.move (h.at_point hp).holds _⟩

/-- **Every step** keeps what has been started in order. -/
theorem Passed.step (h : w.Passed gone) {l : Label} (hs : w.step l = some w') : ∃ gone', w'.Passed gone' := by
  cases step_cases hs with
  | push task => exact ⟨gone, h.push task _⟩
  | clear => exact ⟨w.pushed, h.clear⟩
  | runner => exact h.runner hs
  | notify | stopNotify =>
      obtain ⟨hnumbered, hpushed, hholds, hran, hstarted⟩ := h.wake
      exact ⟨gone, hnumbered, hpushed, hholds, hran, hstarted⟩
  | stop => exact ⟨gone, h.numbered, h.pushed, h.holds, h.ran, h.started⟩
  | spurious hp =>
      have hwake := h.wake
      rw [hp] at hwake
      exact ⟨gone, hwake⟩

theorem Passed.start (affinity : Affinity) : Passed [] (start affinity) :=
  ⟨rfl, rfl, rfl, rfl, .inl (List.Sublist.refl [])⟩

/-- **No task is run twice, or out of turn**, whatever is pushed and cleared meanwhile, and
even where the runner pops a task that it has not run: what has been started are some of the
tasks that were pushed, each once and in that order, and at most the last of them has not
returned.  A `pop` of an empty queue is undefined, and ends the run. -/
theorem started_once (hrun : Run step (start affinity) ts w) :
    w.started.Sublist w.pushed ∧ w.started.Nodup ∧
      (w.started = w.ran ∨ ∃ e, w.started = w.ran ++ [e] ∧ w.point = .running) := by
  obtain ⟨⟨gone, h⟩, -⟩ := hrun.invariant (I := fun w ↦ ∃ gone, Passed gone w) (C := fun _ ↦ True)
    (fun _ hs _ ⟨_, h⟩ ↦ h.step hs) ⟨[], .start affinity⟩ fun _ _ ↦ trivial
  have hsub : w.started.Sublist w.pushed := (List.sublist_append_left _ _).trans h.sublist
  have hnodup : w.pushed.Nodup := by
    refine List.Nodup.of_map Entry.id ?_
    rw [h.numbered]
    exact List.nodup_range
  refine ⟨hsub, hnodup.sublist hsub, ?_⟩
  have hran := h.ran
  unfold inside at hran
  split at hran
  case h_1 hp =>
    cases hm : w.myTask with
    | none =>
        rw [hm] at hran
        exact .inl (hran.trans (List.append_nil _))
    | some e =>
        rw [hm] at hran
        exact .inr ⟨e, hran, hp⟩
  all_goals exact .inl (hran.trans (List.append_nil _))

/-- The queue is cleared while the first task runs, and another one is pushed: that one is
popped in its place, and never run. -/
theorem started_once_cleared : ∃ ts w, Run step (start 1) ts w ∧ w.pushed.length = 3 ∧
    w.started.map Entry.id = [0, 2] ∧ w.started.Sublist w.pushed := by
  obtain ⟨ts, w, hrun, hpushed, hstarted⟩ := Run.exists_of_trace step (start 1)
    [.push { function := some 7 }, .runner, .runner, .runner, .clear, .push { function := some 8 },
      .runner, .runner, .runner, .push { function := some 9 }, .notify, .runner, .runner, .runner, .runner]
    (fun _ w ↦ w.pushed.length = 3 ∧ w.started.map Entry.id = [0, 2]) ⟨_, rfl, by decide⟩
  exact ⟨ts, w, hrun, hpushed, hstarted, (started_once hrun).1⟩

/-! ## After the destructor has begun -/

/-- The functions that the runner still calls although it has been told to stop: one at
most, and none where it tests `should_stop` first. -/
def atHand (w : Worker) : ℕ :=
  match w.point with
  | .grab | .execute => 1
  | .loop | .running | .retire | .waiting | .blocked _ | .finished | .undefined => 0

theorem wait_atHand (w : Worker) : w.wait.atHand = 0 := by
  rcases w.wait_point with ⟨hp, -⟩ | hp
  · rw [atHand, hp]
  · rw [atHand, hp]

theorem retireWait_atHand (w : Worker) : w.retireWait.atHand = 0 := by
  rcases w.retireWait_point with ⟨hp, -⟩ | hp
  · rw [atHand, hp]
  · rw [atHand, hp]

/-- After the section that pops, the runner tests `should_stop` before it calls anything. -/
theorem retire_started (w : Worker) : w.retire.started = w.started ∧ w.retire.atHand = 0 := by
  have hstarted : w.retire.started = w.started := by
    rcases w.retire_cases with ⟨-, p, heq⟩ | heq | ⟨e, rest, p, -, heq⟩
    · rw [heq]
    · rw [heq]
    · rw [heq]
  refine ⟨hstarted, ?_⟩
  unfold Worker.retire
  split
  · exact w.retireWait_atHand
  · split
    · rfl
    · exact retireWait_atHand _

/-- A step of a worker that has been told to stop starts no more than is at hand. -/
theorem stops_step {l : Label} (hs : w.step l = some w') (hstop : w.shouldStop = true) :
    w'.shouldStop = true ∧ w'.started.length + w'.atHand ≤ w.started.length + w.atHand := by
  have hwake : ∀ p : Point, atHand { w with point := p.wake } = atHand { w with point := p } := by
    intro p
    cases p <;> rfl
  cases step_cases hs with
  | push | clear => exact ⟨hstop, Nat.le_refl _⟩
  | notify | stopNotify => exact ⟨hstop, Nat.le_of_eq (congrArg (w.started.length + ·) (hwake w.point))⟩
  | stop => exact ⟨rfl, Nat.le_refl _⟩
  | spurious hp =>
      refine ⟨hstop, ?_⟩
      simp only [atHand, hp, Nat.le_refl]
  | runner hr =>
      refine ⟨(runner_frame hs).2.1.trans hstop, ?_⟩
      cases hr with
      | loop hp => simp [atHand, hp, hstop]
      | grab hp => simp [atHand, hp, Worker.grab]
      | execute hp =>
          rcases w.execute_cases with heq | ⟨e, -, heq⟩
          · rw [heq]
            simp [atHand]
          · rw [heq]
            simp [atHand, hp]
      | return_ hp => simp [atHand, hp, Worker.return_]
      | retire hp =>
          rw [w.retire_started.1, w.retire_started.2]
          exact Nat.le_add_right _ _
      | block hp => simp [atHand, hp]
      | awake hp =>
          rw [w.wait_atHand]
          exact Nat.le_add_right _ _

/-- **The destructor is not kept waiting by the queue.**  Once `should_stop` is set, in any run
whatever, the runner calls at most the one function that it has passed the test of the loop
for. -/
theorem stops_soon (hstop : w.shouldStop = true) (hrun : Run step w ts w') :
    w'.started.length ≤ w.started.length + w.atHand ∧ w.atHand ≤ 1 := by
  obtain ⟨⟨-, hle⟩, -⟩ := hrun.invariant (C := fun _ ↦ True)
    (I := fun v ↦ v.shouldStop = true ∧ v.started.length + v.atHand ≤ w.started.length + w.atHand)
    (fun _ hs _ h ↦ ⟨(stops_step hs h.1).1, Nat.le_trans (stops_step hs h.1).2 h.2⟩)
    ⟨hstop, Nat.le_refl _⟩ fun _ _ ↦ trivial
  refine ⟨Nat.le_trans (Nat.le_add_right _ _) hle, ?_⟩
  unfold atHand
  split <;> decide

/-- The destructor begins after the runner has tested `should_stop`, with two tasks in the
queue: the runner calls the first one only. -/
theorem stops_soon_two : ∃ ts w ts' w', Run step (start 1) ts w ∧ w.shouldStop = true ∧
    w.queue.length = 2 ∧ Run step w ts' w' ∧ w'.point = .finished ∧ w'.started.length ≤ 1 := by
  obtain ⟨ts, w, hrun, hstop, hqueue, hstarted, hhand, hsecond⟩ := Run.exists_of_trace step (start 1)
    [.push { function := some 7 }, .push { function := some 8 }, .runner, .stop]
    (fun _ w ↦ w.shouldStop = true ∧ w.queue.length = 2 ∧ w.started.length = 0 ∧ w.atHand = 1 ∧
      ∃ r, trace step w [.runner, .runner, .runner, .runner, .runner] = some r ∧ r.2.point = .finished)
    ⟨_, rfl, rfl, rfl, rfl, rfl, _, rfl, rfl⟩
  obtain ⟨r, hr, hp⟩ := hsecond
  have hrun' := Run.of_trace hr
  have hle := (stops_soon hstop hrun').1
  rw [hstarted, hhand] at hle
  exact ⟨ts, w, r.1, r.2, hrun, hstop, hqueue, hrun', hp, hle⟩

end Worker

end Datapath.Threadpool
