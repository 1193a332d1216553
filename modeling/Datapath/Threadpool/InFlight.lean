import Datapath.Threadpool.Worker

/-!
# What a worker retires

Between the copy of the front of the queue and the `pop` that removes it the runner
does not hold the mutex.  A push in this window leaves the front where it is.  A
`clear` takes it away, and the `pop` that follows then removes an entry that was
pushed later and has not been run, or is called on an empty queue.

`Inv` says where the entry *in flight* is: at the front of the queue, or among the
cleared entries, and so no longer in the queue.  It holds along every run as long
as no cleared entry is retired.
-/

namespace Datapath.Threadpool

open Datapath.Lib

namespace Worker

/-- This step calls `queue.pop()` after the run of `e`. -/
def Pops (t : Transition Worker Label) (e : Entry) : Prop :=
  t.label = .runner ∧ t.src.point = .retire ∧ t.src.myTask = some e

/-- If this step calls `queue.pop()`, then the queue is not empty, and its front is
the entry whose function has just been run. -/
def RetiresWhatItRan (t : Transition Worker Label) : Prop :=
  ∀ e, Pops t e → t.src.queue.head? = some e ∧ t.src.ran.getLast? = some e

/-- If this step calls `queue.pop()`, then no `clear` has removed the entry in
flight. -/
def NotClearedInFlight (t : Transition Worker Label) : Prop :=
  t.label = .runner → t.src.point = .retire → ∀ e ∈ t.src.myTask, e ∉ t.src.cleared

instance (t : Transition Worker Label) : Decidable (NotClearedInFlight t) :=
  inferInstanceAs (Decidable (_ → _ → ∀ e ∈ t.src.myTask, e ∉ t.src.cleared))

/-- Every entry that was pushed is in the queue, was cleared, or has been run. -/
def Accounted (w : Worker) : Prop := ∀ e ∈ w.pushed, e ∈ w.queue ∨ e ∈ w.cleared ∨ e ∈ w.ran

instance (w : Worker) : Decidable w.Accounted :=
  inferInstanceAs (Decidable (∀ e ∈ w.pushed, e ∈ w.queue ∨ e ∈ w.cleared ∨ e ∈ w.ran))

/-! ## The invariant -/

/-- What `my_task` is at each point of the loop. -/
def Placed (w : Worker) : Prop :=
  match w.point with
  | .execute => True
  | .running => w.myTask.isSome = true
  | .retire => ∀ e ∈ w.myTask, w.ran.getLast? = some e
  | .undefined => True
  | .loop | .grab | .waiting | .blocked _ | .finished => w.myTask = none

/-- The invariant of a worker that has retired no cleared entry. -/
structure Inv (w : Worker) : Prop where
  /-- Numbers are not used twice. -/
  fresh : ∀ e ∈ w.pushed, e.id < w.pushed.length
  callable : ∀ e ∈ w.pushed, e.task.function.isSome = true
  known : ∀ e ∈ w.queue ++ w.cleared, e ∈ w.pushed
  nodup : (w.queue ++ w.cleared).Nodup
  flight : ∀ e ∈ w.myTask, w.queue.head? = some e ∨ e ∈ w.cleared
  placed : w.Placed
  accounted : w.Accounted

variable {w w' : Worker}

/-- The entry in flight is one that was pushed. -/
theorem Inv.myTask_mem (h : w.Inv) {e : Entry} (he : e ∈ w.myTask) : e ∈ w.pushed := by
  apply h.known
  rcases h.flight e he with hf | hf
  · exact List.mem_append_left _ (List.mem_of_mem_head? hf)
  · exact List.mem_append_right _ hf

/-- What `my_task` is at a point that is known. -/
theorem Inv.placed_at (h : w.Inv) {p : Point} (hp : w.point = p) : Placed { w with point := p } := by
  subst hp
  exact h.placed

/-- If the entry in flight was not cleared, it is at the front of the queue. -/
theorem Inv.head_iff (h : w.Inv) {e : Entry} (he : e ∈ w.myTask) :
    w.queue.head? = some e ↔ e ∉ w.cleared := by
  constructor
  · intro hhead hcleared
    exact List.disjoint_of_nodup_append h.nodup (List.mem_of_mem_head? hhead) hcleared
  · intro hcleared
    exact (h.flight e he).resolve_right hcleared

/-- The invariant does not read the rest of the state. -/
theorem Inv.congr (h : w.Inv) (hp : w'.pushed = w.pushed) (hq : w'.queue = w.queue)
    (hc : w'.cleared = w.cleared) (hr : w'.ran = w.ran) (hm : w'.myTask = w.myTask)
    (hplaced : w'.Placed) : w'.Inv where
  fresh := hp ▸ h.fresh
  callable := hp ▸ h.callable
  known := by rw [hp, hq, hc]; exact h.known
  nodup := by rw [hq, hc]; exact h.nodup
  flight := by rw [hm, hq, hc]; exact h.flight
  placed := hplaced
  accounted := by unfold Accounted; rw [hp, hq, hc, hr]; exact h.accounted

/-! ## The other threads -/

theorem Inv.push (h : w.Inv) {task : Task} (hs : w.push task = some w') : w'.Inv := by
  unfold Worker.push at hs
  split at hs
  case isFalse => cases hs
  case isTrue hcan =>
    cases hs
    have hnew : ∀ e ∈ w.queue ++ w.cleared, e ≠ ⟨w.pushed.length, task⟩ := by
      rintro e he rfl
      exact absurd (h.fresh _ (h.known _ he)) (lt_irrefl _)
    refine ⟨?_, ?_, ?_, ?_, ?_, h.placed, ?_⟩
    · intro e he
      rw [List.length_append, List.length_singleton]
      rcases List.mem_append.1 he with he | he
      · exact Nat.lt_succ_of_lt (h.fresh e he)
      · rw [List.mem_singleton.1 he]
        exact Nat.lt_succ_self _
    · intro e he
      rcases List.mem_append.1 he with he | he
      · exact h.callable e he
      · rw [List.mem_singleton.1 he]
        exact hcan.1
    · intro e he
      rw [List.append_assoc, List.mem_append, List.mem_append] at he
      rcases he with he | he | he
      · exact List.mem_append_left _ (h.known e (List.mem_append_left _ he))
      · exact List.mem_append_right _ he
      · exact List.mem_append_left _ (h.known e (List.mem_append_right _ he))
    · rw [List.append_assoc]
      apply List.nodup_middle.2
      exact List.nodup_cons.2 ⟨fun he ↦ hnew _ he rfl, h.nodup⟩
    · intro e he
      refine (h.flight e he).imp (fun hhead ↦ ?_) id
      rw [List.head?_append, hhead]
      rfl
    · intro e he
      rcases List.mem_append.1 he with he | he
      · exact (h.accounted e he).imp (List.mem_append_left _) id
      · exact .inl (List.mem_append_right _ he)

theorem Inv.clear (h : w.Inv) (hs : w.clear = some w') : w'.Inv := by
  unfold Worker.clear at hs
  split at hs
  case isFalse => cases hs
  case isTrue =>
    cases hs
    refine ⟨h.fresh, h.callable, ?_, ?_, ?_, h.placed, ?_⟩
    · intro e he
      exact h.known e (List.perm_append_comm.mem_iff.1 he)
    · rw [List.nil_append]
      exact List.nodup_append_comm.1 h.nodup
    · intro e he
      right
      rcases h.flight e he with hf | hf
      · exact List.mem_append_right _ (List.mem_of_mem_head? hf)
      · exact List.mem_append_left _ hf
    · intro e he
      rcases h.accounted e he with hq | hc | hr
      · exact .inr (.inl (List.mem_append_right _ hq))
      · exact .inr (.inl (List.mem_append_left _ hc))
      · exact .inr (.inr hr)

/-- A wake-up moves the runner from one blocked point to another. -/
theorem Placed.wake (h : w.Placed) : Placed { w with point := w.point.wake } := by
  unfold Placed at h ⊢
  cases hp : w.point with
  | blocked woken => rw [hp] at h; exact h
  | _ => rw [hp] at h; exact h

/-! ## The runner -/

theorem Inv.grab (h : w.Inv) (hm : w.myTask = none) : w.grab.Inv := by
  refine ⟨h.fresh, h.callable, h.known, h.nodup, ?_, trivial, h.accounted⟩
  intro e he
  unfold Worker.grab at he ⊢
  cases hq : w.queue with
  | nil => simp [hq, hm] at he
  | cons a rest =>
      simp only [hq, Option.mem_def] at he
      exact .inl he

theorem Inv.execute (h : w.Inv) : w.execute.Inv := by
  unfold Worker.execute
  split
  case h_1 hm => exact h.congr rfl rfl rfl rfl rfl fun e he ↦ by rw [hm] at he; cases he
  case h_2 e hm =>
    have hcall := h.callable e (h.myTask_mem hm)
    split
    case h_1 hf => rw [hf] at hcall; cases hcall
    case h_2 => exact h.congr rfl rfl rfl rfl rfl (Option.isSome_of_mem hm)

theorem Inv.return_ (h : w.Inv) : w.return_.Inv := by
  refine ⟨h.fresh, h.callable, h.known, h.nodup, h.flight, ?_, ?_⟩
  · intro e he
    have hm : w.myTask = some e := he
    simp [Worker.return_, hm]
  · intro e he
    exact (h.accounted e he).imp id (Or.imp id (List.mem_append_left _))

theorem Inv.wait (h : w.Inv) (hm : w.myTask = none) : w.wait.Inv := by
  refine h.congr rfl rfl rfl rfl rfl ?_
  unfold Worker.wait Placed
  cases w.predicate with
  | true => exact hm
  | false => exact hm

theorem Inv.retireWait (h : w.Inv) (hm : w.myTask = none) : w.retireWait.Inv := by
  unfold Worker.retireWait
  split
  · exact h.wait hm
  · exact h.congr rfl rfl rfl rfl rfl hm

/-- Popping the entry in flight keeps the invariant if that entry was not cleared. -/
theorem Inv.retire (h : w.Inv) (hp : w.point = .retire) (hc : ∀ e ∈ w.myTask, e ∉ w.cleared) :
    w.retire.Inv := by
  unfold Worker.retire
  cases hm : w.myTask with
  | none => exact h.retireWait hm
  | some e =>
      have hhead : w.queue.head? = some e := (h.head_iff hm).2 (hc e hm)
      cases hq : w.queue with
      | nil => rw [hq] at hhead; cases hhead
      | cons a rest =>
          rw [hq] at hhead
          cases hhead
          have hran : e ∈ w.ran := List.mem_of_mem_getLast? (h.placed_at hp e hm)
          apply Inv.retireWait _ rfl
          have hknown := h.known
          have hnodup := h.nodup
          rw [hq] at hknown hnodup
          refine ⟨h.fresh, h.callable, ?_, (List.nodup_cons.1 hnodup).2, nofun, ?_, ?_⟩
          · intro b hb
            exact hknown b (List.mem_cons_of_mem _ hb)
          · unfold Placed
            rw [hp]
            nofun
          · intro b hb
            rcases h.accounted b hb with hbq | hbc | hbr
            · rw [hq] at hbq
              rcases List.mem_cons.1 hbq with rfl | hbq
              · exact .inr (.inr hran)
              · exact .inl hbq
            · exact .inr (.inl hbc)
            · exact .inr (.inr hbr)

/-- A step of the runner that retires no cleared entry keeps the invariant. -/
theorem Inv.runner (h : w.Inv) (hs : w.runner = some w')
    (hc : w.point = .retire → ∀ e ∈ w.myTask, e ∉ w.cleared) : w'.Inv := by
  cases runner_cases hs with
  | loop hp =>
      refine h.congr rfl rfl rfl rfl rfl ?_
      unfold Placed
      cases w.shouldStop with
      | true => exact h.placed_at hp
      | false => exact h.placed_at hp
  | grab hp => exact h.grab (h.placed_at hp)
  | execute => exact h.execute
  | return_ => exact h.return_
  | retire hp => exact h.retire hp (hc hp)
  | block hp =>
      have hplaced := h.placed_at hp
      exact h.congr rfl rfl rfl rfl rfl hplaced
  | awake hp => exact h.wait (h.placed_at hp)

/-! ## Runs -/

/-- A step that retires no cleared entry keeps the invariant. -/
theorem Inv.step {t : Transition Worker Label} (hs : t.src.step t.label = some t.dst)
    (hc : NotClearedInFlight t) (h : t.src.Inv) : t.dst.Inv := by
  obtain ⟨w, l, w'⟩ := t
  have hsteps : w.Steps l w' := step_cases hs
  cases hsteps with
  | push task => exact h.push hs
  | clear => exact h.clear hs
  | runner => exact h.runner hs (hc rfl)
  | notify | stopNotify => exact h.congr rfl rfl rfl rfl rfl h.placed.wake
  | stop => exact h.congr rfl rfl rfl rfl rfl h.placed
  | spurious hp =>
      have hplaced := h.placed_at hp
      exact h.congr rfl rfl rfl rfl rfl hplaced

/-- A `pop` retires what was run exactly when that entry was not cleared. -/
theorem Inv.retires_iff {t : Transition Worker Label} (h : t.src.Inv) :
    RetiresWhatItRan t ↔ NotClearedInFlight t := by
  constructor
  · intro hr hl hp e he
    exact (h.head_iff he).1 (hr e ⟨hl, hp, he⟩).1
  · rintro hc e ⟨hl, hp, he⟩
    exact ⟨(h.head_iff he).2 (hc hl hp e he), h.placed_at hp e he⟩

theorem Inv.start (affinity : Affinity) : (start affinity).Inv where
  fresh := nofun
  callable := nofun
  known := nofun
  nodup := List.nodup_nil
  flight := nofun
  placed := rfl
  accounted := nofun

/-- **What a worker retires.**  In a run, every `pop` finds the entry that has just
been run at the front of the queue, and every entry pushed is in the queue, was
cleared or has been run, exactly when no `clear` takes away an entry between the
copy of it and the `pop` that follows. -/
theorem retires_what_it_ran {affinity : Affinity} {ts : List (Transition Worker Label)}
    (hrun : Run step (start affinity) ts w) :
    ((∀ t ∈ ts, RetiresWhatItRan t) ∧ w.Accounted) ↔ ∀ t ∈ ts, NotClearedInFlight t := by
  have hiff := hrun.forall_iff (H := fun _ ↦ True) (fun _ hs _ hc h ↦ Inv.step hs hc h)
    (fun _ _ _ h ↦ Inv.retires_iff h) (Inv.start affinity) (fun _ _ ↦ trivial)
  constructor
  · intro h
    exact hiff.1 h.1
  · intro hc
    have hinv : w.Inv := (hrun.invariant (fun _ hs hc h ↦ Inv.step hs hc h) (.start affinity) hc).1
    exact ⟨hiff.2 hc, hinv.accounted⟩

/-- Two tasks that are run, and a third that is cleared while none is in flight. -/
theorem retires_what_it_ran_two : ∃ ts w, Run step (start 1) ts w ∧
    w.ran = [⟨0, { function := some 7 }⟩, ⟨1, { function := some 8 }⟩] ∧ w.cleared ≠ [] ∧
      (∀ t ∈ ts, RetiresWhatItRan t) ∧ w.Accounted := by
  obtain ⟨ts, w, hrun, hc, hran, hcleared⟩ := Run.exists_of_trace step (start 1)
    [.push { function := some 7 }, .runner, .push { function := some 8 }, .notify, .runner, .runner,
      .runner, .runner, .runner, .runner, .runner, .runner, .runner, .runner,
      .push { function := some 9 }, .clear]
    (fun ts w ↦ (∀ t ∈ ts, NotClearedInFlight t) ∧
      w.ran = [⟨0, { function := some 7 }⟩, ⟨1, { function := some 8 }⟩] ∧ w.cleared ≠ [])
    ⟨_, rfl, by decide⟩
  exact ⟨ts, w, hrun, hran, hcleared, (retires_what_it_ran hrun).2 hc⟩

/-- A queue that is cleared and filled again while its first entry is in flight loses
an entry that was neither run nor cleared. -/
theorem clear_in_flight_drops : ∃ ts w, Run step (start 1) ts w ∧
    ¬ (∀ t ∈ ts, RetiresWhatItRan t) ∧ ∃ e ∈ w.pushed, e ∉ w.queue ∧ e ∉ w.cleared ∧ e ∉ w.ran := by
  obtain ⟨ts, w, hrun, ⟨t, ht, hpops⟩, hdrop⟩ := Run.exists_of_trace step (start 1)
    [.push { function := some 7 }, .runner, .runner, .runner, .runner, .clear,
      .push { function := some 8 }, .runner]
    (fun ts w ↦ (∃ t ∈ ts, (t.label = .runner ∧ t.src.point = .retire ∧
        t.src.myTask = some ⟨0, { function := some 7 }⟩) ∧
        t.src.queue.head? ≠ some ⟨0, { function := some 7 }⟩) ∧
      ∃ e ∈ w.pushed, e ∉ w.queue ∧ e ∉ w.cleared ∧ e ∉ w.ran) ⟨_, rfl, by decide⟩
  refine ⟨ts, w, hrun, ?_, hdrop⟩
  intro hall
  exact hpops.2 (hall t ht _ hpops.1).1

end Worker

end Datapath.Threadpool
