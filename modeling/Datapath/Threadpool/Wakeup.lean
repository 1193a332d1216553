import Datapath.Threadpool.Worker

/-!
# Waking the runner

The runner goes to sleep in two steps: it finds the predicate of `signal.wait` false,
and then blocks.  It holds the mutex all along, so that no `push` comes in between,
and a `push` that comes later notifies a runner that is blocked (`push_wakes`).  The
destructor does not take the mutex.  If it sets `should_stop` and notifies between the
two steps, then no one is blocked yet, and no one will notify again (`destroy_wakes`).
-/

namespace Datapath.Threadpool

open Datapath.Lib

namespace Worker

variable {w w' : Worker} {affinity : Affinity} {ts : List (Transition Worker Label)}

/-! ## How the runner falls asleep -/

/-- Where `signal.wait` leads. -/
theorem wait_point (w : Worker) :
    (w.wait.point = .waiting ∧ w.wait.predicate = false) ∨ w.wait.point = .loop := by
  cases hp : w.predicate with
  | true => exact .inr (by simp only [Worker.wait, hp, if_true])
  | false => exact .inl ⟨by simp only [Worker.wait, hp, Bool.false_eq_true, if_false], hp⟩

theorem retireWait_point (w : Worker) :
    (w.retireWait.point = .waiting ∧ w.retireWait.predicate = false) ∨ w.retireWait.point = .loop := by
  cases hq : w.queue.isEmpty with
  | true =>
      rw [show w.retireWait = w.wait by simp only [retireWait, hq, if_true]]
      exact w.wait_point
  | false => exact .inr (by simp only [retireWait, hq, Bool.false_eq_true, if_false])

/-- **How the runner falls asleep.**  It is about to block only after it has found the
predicate false, and it is blocked only from there. -/
theorem runner_sleeps (hs : w.runner = some w') :
    (w'.point = .waiting → w'.predicate = false) ∧
      (w'.point = .blocked false → w.point = .waiting ∧ w'.queue = w.queue) := by
  have hawake : ∀ {v : Worker}, (v.point = .waiting ∧ v.predicate = false) ∨ v.point = .loop →
      (v.point = .waiting → v.predicate = false) ∧
        (v.point = .blocked false → w.point = .waiting ∧ v.queue = w.queue) := by
    rintro v (⟨hp, hf⟩ | hp)
    · refine ⟨fun _ ↦ hf, fun hb ↦ ?_⟩
      cases hp.symm.trans hb
    · refine ⟨fun hw ↦ ?_, fun hb ↦ ?_⟩
      · cases hp.symm.trans hw
      · cases hp.symm.trans hb
  cases runner_cases hs with
  | loop =>
      cases w.shouldStop with
      | true => exact ⟨nofun, nofun⟩
      | false => exact ⟨nofun, nofun⟩
  | grab | return_ => exact ⟨nofun, nofun⟩
  | execute =>
      unfold Worker.execute
      split
      · exact ⟨nofun, nofun⟩
      · split
        · exact ⟨nofun, nofun⟩
        · exact ⟨nofun, nofun⟩
  | retire =>
      unfold Worker.retire
      split
      · exact hawake w.retireWait_point
      · split
        · exact ⟨nofun, nofun⟩
        · exact hawake (retireWait_point _)
  | block hp => exact ⟨nofun, fun _ ↦ ⟨hp, rfl⟩⟩
  | awake => exact hawake w.wait_point

/-- A wake-up leaves no runner blocked without one, and moves no runner that is about
to block. -/
theorem Point.wake_cases (p : Point) : p.wake ≠ .blocked false ∧ (p.wake = .waiting ↔ p = .waiting) := by
  cases p with
  | blocked woken => exact ⟨nofun, nofun, nofun⟩
  | loop | grab | execute | running | retire | waiting | finished | undefined =>
      exact ⟨nofun, .rfl⟩

/-! ## Waking by a push -/

/-- What every state of a worker satisfies: a runner that is about to block has found
the queue empty, and if there is a queue for one that is blocked, a notification is on
its way. -/
structure Attentive (w : Worker) : Prop where
  waiting : w.point = .waiting → w.queue = []
  blocked : w.point = .blocked false → w.queue ≠ [] → 0 < w.notifies

theorem queue_of_predicate (h : w.predicate = false) : w.queue = [] := by
  unfold predicate at h
  rw [Bool.or_eq_false_iff, Bool.not_eq_false'] at h
  exact List.isEmpty_iff.1 h.2

theorem Attentive.runner (h : w.Attentive) (hs : w.runner = some w') : w'.Attentive where
  waiting hp := queue_of_predicate ((runner_sleeps hs).1 hp)
  blocked hp hq := by
    obtain ⟨hwaiting, hqueue⟩ := (runner_sleeps hs).2 hp
    rw [hqueue, h.waiting hwaiting] at hq
    exact absurd rfl hq

/-- Waking the runner keeps the invariant. -/
theorem Attentive.wake (h : w.Attentive) (notifies : ℕ) (shouldStop : Bool) (destructor : Destructor) :
    Attentive { w with point := w.point.wake, notifies, shouldStop, destructor } where
  waiting hp := h.waiting ((Point.wake_cases w.point).2.1 hp)
  blocked hp := absurd hp (Point.wake_cases w.point).1

/-- **Every step keeps the runner attentive.** -/
theorem Attentive.step (h : w.Attentive) {l : Label} (hs : w.step l = some w') : w'.Attentive := by
  cases step_cases hs with
  | push task hf hp => exact ⟨fun hwaiting ↦ absurd hwaiting hp, fun _ _ ↦ Nat.succ_pos _⟩
  | notify | stopNotify => exact h.wake _ _ _
  | clear => exact ⟨fun _ ↦ rfl, fun _ hq ↦ absurd rfl hq⟩
  | stop => exact ⟨h.waiting, h.blocked⟩
  | runner => exact h.runner hs
  | spurious => exact ⟨nofun, nofun⟩

theorem Attentive.start (affinity : Affinity) : (start affinity).Attentive := ⟨nofun, nofun⟩

/-- **No push loses its wake-up.**  In every run, if the runner is blocked without a
wake-up although there is a queue, then a `push` has appended its task and will still
notify. -/
theorem push_wakes (hrun : Run step (start affinity) ts w) (hblocked : w.point = .blocked false)
    (hqueue : w.queue ≠ []) : 0 < w.notifies :=
  (hrun.invariant (I := Attentive) (C := fun _ ↦ True) (fun _ hs _ h ↦ h.step hs)
    (.start affinity) fun _ _ ↦ trivial).1.blocked hblocked hqueue

/-- The runner falls asleep on the empty queue, and a task is pushed. -/
theorem push_wakes_first : ∃ ts w, Run step (start 1) ts w ∧
    w.point = .blocked false ∧ w.queue = [⟨0, { function := some 7 }⟩] ∧ 0 < w.notifies := by
  obtain ⟨ts, w, hrun, hblocked, hqueue⟩ := Run.exists_of_trace step (start 1)
    [.runner, .runner, .runner, .runner, .runner, .push { function := some 7 }]
    (fun _ w ↦ w.point = .blocked false ∧ w.queue = [⟨0, { function := some 7 }⟩]) ⟨_, rfl, by decide⟩
  exact ⟨ts, w, hrun, hblocked, hqueue, push_wakes hrun hblocked (by rw [hqueue]; nofun)⟩

/-! ## Waking by the destructor -/

/-- The destructor has notified and is joining the runner, which is blocked, or about
to block, without a wake-up. -/
def Stranded (w : Worker) : Prop :=
  w.destructor = .joining ∧ (w.point = .waiting ∨ w.point = .blocked false)

instance (w : Worker) : Decidable w.Stranded :=
  inferInstanceAs (Decidable (w.destructor = .joining ∧ (w.point = .waiting ∨ w.point = .blocked false)))

/-- If the destructor notifies in this step, then the runner is not between finding the
predicate false and blocking. -/
def NotifiesInTime (t : Transition Worker Label) : Prop :=
  t.label = .stopNotify → t.src.point ≠ .waiting

instance : DecidablePred NotifiesInTime :=
  fun t ↦ inferInstanceAs (Decidable (t.label = .stopNotify → t.src.point ≠ .waiting))

/-- `should_stop` stays set once the destructor has begun, and the runner has not been
left asleep. -/
structure Stoppable (w : Worker) : Prop where
  stop : w.destructor ≠ .idle → w.shouldStop = true
  awake : ¬ w.Stranded

/-- After the destructor has set `should_stop`, the runner does not fall asleep. -/
theorem Stoppable.runner (h : w.Stoppable) (hs : w.runner = some w') : w'.Stoppable := by
  obtain ⟨-, hstop, hd⟩ := runner_frame hs
  refine ⟨fun hne ↦ hstop.trans (h.stop (hd ▸ hne)), ?_⟩
  rintro ⟨hjoining, hp⟩
  rw [hd] at hjoining
  have hset : w.shouldStop = true := h.stop (by rw [hjoining]; nofun)
  rcases hp with hp | hp
  · have hfalse := (runner_sleeps hs).1 hp
    unfold predicate at hfalse
    rw [hstop, hset] at hfalse
    cases hfalse
  · exact h.awake ⟨hjoining, .inl ((runner_sleeps hs).2 hp).1⟩

/-- A step keeps a worker stoppable unless the destructor notifies too early. -/
theorem Stoppable.step {t : Transition Worker Label} (hs : t.src.step t.label = some t.dst)
    (hc : NotifiesInTime t) (h : t.src.Stoppable) : t.dst.Stoppable := by
  obtain ⟨w, l, w'⟩ := t
  have hsteps : w.Steps l w' := step_cases hs
  cases hsteps with
  | push | clear => exact ⟨h.stop, h.awake⟩
  | notify =>
      refine ⟨h.stop, ?_⟩
      rintro ⟨hjoining, hp | hp⟩
      · exact h.awake ⟨hjoining, .inl ((Point.wake_cases w.point).2.1 hp)⟩
      · exact (Point.wake_cases w.point).1 hp
  | stop => exact ⟨fun _ ↦ rfl, fun hstranded ↦ nomatch hstranded.1⟩
  | stopNotify hd =>
      refine ⟨fun _ ↦ h.stop (by rw [hd]; nofun), ?_⟩
      rintro ⟨-, hp | hp⟩
      · exact hc rfl ((Point.wake_cases w.point).2.1 hp)
      · exact (Point.wake_cases w.point).1 hp
  | runner => exact h.runner hs
  | spurious =>
      refine ⟨h.stop, ?_⟩
      rintro ⟨-, hp | hp⟩
      · cases hp
      · cases hp

/-- A step strands the runner exactly when the destructor notifies too early. -/
theorem Stoppable.stranded_iff {t : Transition Worker Label} (hs : t.src.step t.label = some t.dst)
    (h : t.src.Stoppable) : ¬ t.dst.Stranded ↔ NotifiesInTime t := by
  refine ⟨?_, fun hc ↦ (h.step hs hc).awake⟩
  obtain ⟨w, l, w'⟩ := t
  rintro hawake rfl hp
  have hsteps : w.Steps .stopNotify w' := step_cases hs
  cases hsteps with
  | stopNotify => exact hawake ⟨rfl, .inl ((Point.wake_cases w.point).2.2 hp)⟩

theorem Stoppable.start (affinity : Affinity) : (start affinity).Stoppable :=
  ⟨fun hne ↦ absurd rfl hne, fun hstranded ↦ nomatch hstranded.1⟩

/-- **When destroying a worker wakes its runner.**  In a run, the runner is never left
asleep by a destructor that has notified exactly when the destructor does not notify
between the moment the runner finds the predicate false and the moment it blocks. -/
theorem destroy_wakes (hrun : Run step (start affinity) ts w) :
    (∀ t ∈ ts, ¬ t.dst.Stranded) ↔ ∀ t ∈ ts, NotifiesInTime t :=
  hrun.forall_iff (H := fun _ ↦ True) (fun _ hs _ hc h ↦ Stoppable.step hs hc h)
    (fun _ hs _ h ↦ Stoppable.stranded_iff hs h) (Stoppable.start affinity) fun _ _ ↦ trivial

/-- The runner of an idle worker is blocked when its worker is destroyed. -/
theorem destroy_wakes_idle : ∃ ts w, Run step (start 1) ts w ∧
    w.point = .finished ∧ w.destructor = .joining ∧ ∀ t ∈ ts, ¬ t.dst.Stranded := by
  obtain ⟨ts, w, hrun, htime, hpoint, hd⟩ := Run.exists_of_trace step (start 1)
    [.runner, .runner, .runner, .runner, .runner, .stop, .stopNotify, .runner, .runner]
    (fun ts w ↦ (∀ t ∈ ts, NotifiesInTime t) ∧ w.point = .finished ∧ w.destructor = .joining)
    ⟨_, rfl, by decide⟩
  exact ⟨ts, w, hrun, hpoint, hd, (destroy_wakes hrun).2 htime⟩

/-- The worker is destroyed just after the runner has found nothing to do: the
notification finds no one blocked, and the runner then blocks for good. -/
theorem destroy_strands : ∃ ts w, Run step (start 1) ts w ∧
    w.pushed = [] ∧ w.shouldStop = true ∧ w.Stranded ∧ w.point = .blocked false :=
  Run.exists_of_trace step (start 1)
    [.runner, .runner, .runner, .runner, .stop, .stopNotify, .runner]
    (fun _ w ↦ w.pushed = [] ∧ w.shouldStop = true ∧ w.Stranded ∧ w.point = .blocked false)
    ⟨_, rfl, by decide⟩

end Worker

end Datapath.Threadpool
