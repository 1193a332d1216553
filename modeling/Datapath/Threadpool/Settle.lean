import Datapath.Threadpool.Drain
import Datapath.Threadpool.Push

/-!
# A pool that is left alone

The callers of `pool::push` and the runners share the mutexes of the workers, and neither
can go on while the other one holds the mutex of a worker.  Left alone, with the calls that
are under way, the threads of a pool come to rest nevertheless, in whatever order they take
their steps: there is a measure that each of them lowers (`unrest`), and none of them waits
for good while there is something to do.  Every call has then returned, and every task that
was accepted has been run, once (`settles`).
-/

namespace Datapath.Threadpool

open Datapath.Lib

/-- The steps of the calls that are under way, and of the runners. -/
def PoolLabel.IsOwn : PoolLabel → Prop
  | .scan _ | .push _ | .notify _ | .worker _ .runner => True
  | .call _ | .worker _ (.push _) | .worker _ .notify | .worker _ .clear | .worker _ .stop |
    .worker _ .stopNotify | .worker _ .spurious => False

/-- How many steps a call has before its push, and how many more the push gives to the
others. -/
def Stage.effort : Stage → ℕ
  | .scanning rest _ => rest.length + 26
  | .pushing _ => 25
  | .notifying _ | .returned _ | .thrown _ => 0

/-- One for a call that is going to notify this worker. -/
def Stage.notifies (idx : ℕ) (stage : Stage) : ℕ := if stage = .notifying idx then 1 else 0

/-- A call has a function to push, and refers to the workers with these numbers only. -/
def Call.Fits (keys : List ℕ) (call : Call) : Prop :=
  match call.stage with
  | .scanning rest lowest => (∃ task, call.task = some task ∧ task.function.isSome = true) ∧
      (∀ idx ∈ rest, idx ∈ keys) ∧ ∀ l ∈ lowest, l.1 ∈ keys
  | .pushing idx => (∃ task, call.task = some task ∧ task.function.isSome = true) ∧ idx ∈ keys
  | .notifying idx => idx ∈ keys
  | .returned _ | .thrown _ => True

namespace Worker

variable {w w' : Worker}

/-- The runner takes no notification on. -/
theorem runner_notifies (hs : w.runner = some w') : w'.notifies = w.notifies := by
  cases runner_cases hs with
  | execute =>
      rcases w.execute_cases with heq | ⟨e, -, heq⟩
      · rw [heq]
      · rw [heq]
  | retire =>
      rcases w.retire_cases with ⟨-, p, heq⟩ | heq | ⟨e, rest, p, -, heq⟩
      · rw [heq]
      · rw [heq]
      · rw [heq]
  | loop | grab | return_ | block | awake => rfl

/-- A push adds an entry and a notification, and may send the runner round once more. -/
theorem unrest_push {task : Task} (hs : w.push task = some w') : w'.unrest ≤ w.unrest + 24 := by
  obtain ⟨-, heq⟩ := Option.ite_none_right_eq_some.1 hs
  cases heq
  refine Nat.le_trans (Nat.add_le_add_left (stepsLeft_le _) _) ?_
  show 8 * ((w.queue ++ [_]).length + (w.notifies + 1)) + 8 ≤ w.unrest + 24
  rw [unrest, List.length_append, List.length_singleton]
  omega

end Worker

namespace Pool

variable {p p' : Pool} {ts ts' : List (Transition Pool PoolLabel)}

/-- What the runners have to do. -/
def load (p : Pool) : ℕ := (p.workers.map fun e ↦ e.2.unrest).sum

/-- What the calls have to do. -/
def efforts (p : Pool) : ℕ := (p.calls.map fun call ↦ call.stage.effort).sum

/-- The measure that the threads of a pool lower. -/
def unrest (p : Pool) : ℕ := p.load + p.efforts

/-- The notifications that are due to a worker. -/
def owed (p : Pool) (idx : ℕ) : ℕ := (p.calls.map fun call ↦ call.stage.notifies idx).sum

/-- What has been run, each with its worker. -/
def ran (p : Pool) : List (ℕ × Entry) := p.workers.flatMap fun e ↦ e.2.ran.map (e.1, ·)

/-! ## Sums over calls and workers -/

/-- Changing one call changes its summand. -/
theorem sum_setCall {c : ℕ} {call : Call} (f : Call → ℕ) (hc : p.calls[c]? = some call) (call' : Call) :
    ((p.setCall c call').calls.map f).sum + f call = (p.calls.map f).sum + f call' := by
  obtain ⟨l, r, hsplit, hset⟩ := calls_split hc
  rw [setCall, hset, hsplit, List.map_append, List.map_append, List.map_cons, List.map_cons,
    List.sum_append, List.sum_append, List.sum_cons, List.sum_cons]
  omega

theorem efforts_setCall {c : ℕ} {call : Call} (hc : p.calls[c]? = some call) (call' : Call) :
    (p.setCall c call').efforts + call.stage.effort = p.efforts + call'.stage.effort :=
  sum_setCall (fun call ↦ call.stage.effort) hc call'

theorem owed_setCall {c : ℕ} {call : Call} (idx : ℕ) (hc : p.calls[c]? = some call) (call' : Call) :
    (p.setCall c call').owed idx + call.stage.notifies idx = p.owed idx + call'.stage.notifies idx :=
  sum_setCall (fun call ↦ call.stage.notifies idx) hc call'

/-- Changing one worker changes its summand. -/
theorem load_setWorker {idx : ℕ} {w : Worker} (hkeys : (OrderedMap.keys p.workers).Nodup)
    (hw : p.workers.lookup idx = some w) (w' : Worker) :
    (p.setWorker idx w').load + w.unrest = p.load + w'.unrest := by
  obtain ⟨l, r, hsplit, hset⟩ := OrderedMap.set_split hkeys hw
  rw [load, load, setWorker, hset, hsplit, List.map_append, List.map_append, List.map_cons, List.map_cons,
    List.sum_append, List.sum_append, List.sum_cons, List.sum_cons]
  dsimp only
  omega

/-! ## What is never lost -/

/-- What holds of a pool whose queues are not cleared: its workers serve their queues, and
for each notification that is still due to a worker there is a call that will make it. -/
structure Lively (p : Pool) : Prop where
  inv : p.Inv
  serving : ∀ e ∈ p.workers, ∃ finished, e.2.Serving finished
  fits : ∀ call ∈ p.calls, call.Fits (OrderedMap.keys p.workers)
  notifies : ∀ e ∈ p.workers, e.2.notifies = p.owed e.1

/-- A call that has not pushed notifies no one. -/
theorem notifies_of_not_accepted {stage : Stage} (h : stage.accepted = false) (idx : ℕ) :
    stage.notifies idx = 0 := by
  cases stage with
  | notifying => cases h
  | scanning | pushing | returned | thrown => exact if_neg nofun

/-- What a call does in its loop: it leaves it, or looks at one more worker. -/
theorem scan_cases {task : Task} {stage stage' : Stage} (hs : p.scan task stage = some stage') :
    (∃ lowest, stage = .scanning [] lowest ∧ stage' = chosen lowest) ∨
      ∃ idx rest lowest lowest', stage = .scanning (idx :: rest) lowest ∧
        stage' = .scanning rest lowest' ∧ ∀ l ∈ lowest', l.1 = idx ∨ l ∈ lowest := by
  unfold scan at hs
  split at hs
  case h_1 lowest =>
    cases hs
    exact .inl ⟨lowest, rfl, rfl⟩
  case h_2 idx rest lowest =>
    split at hs
    case h_1 => cases hs
    case h_2 w hw =>
      split at hs
      · cases hs
        exact .inr ⟨idx, rest, lowest, lowest, rfl, rfl, fun l hl ↦ .inr hl⟩
      · split at hs
        · cases hs
        · cases hs
          refine .inr ⟨idx, rest, lowest, _, rfl, rfl, fun l hl ↦ ?_⟩
          unfold lower at hl
          split at hl
          · cases hl
            exact .inl rfl
          · exact .inr hl
  case h_3 | h_4 | h_5 | h_6 => cases hs

/-- A call that goes on in its loop, or leaves it, refers to no other workers. -/
theorem fits_scan {task : Task} {stage stage' : Stage} {keys : List ℕ} {placed : Option (ℕ × Entry)}
    (hs : p.scan task stage = some stage')
    (h : Call.Fits keys { task := some task, stage, placed }) :
    Call.Fits keys { task := some task, stage := stage', placed } := by
  rcases scan_cases hs with ⟨lowest, rfl, rfl⟩ | ⟨idx, rest, lowest, lowest', rfl, rfl, hlowest⟩
  · obtain ⟨hcallable, -, hkeys⟩ := h
    cases lowest with
    | none => trivial
    | some l => exact ⟨hcallable, hkeys l rfl⟩
  · obtain ⟨hcallable, hrest, hkeys⟩ := h
    refine ⟨hcallable, fun idx' hmem ↦ hrest idx' (List.mem_cons_of_mem _ hmem), fun l hl ↦ ?_⟩
    rcases hlowest l hl with heq | hl
    · exact heq ▸ hrest idx List.mem_cons_self
    · exact hkeys l hl

/-- What passes the tests has a function. -/
theorem callable_of_check {task : Option Task} (hcheck : p.check task = .ok ()) :
    ∃ t, task = some t ∧ t.function.isSome = true := by
  cases task with
  | none => cases hcheck
  | some t => exact ⟨t, rfl, function_isSome hcheck⟩

/-- A call goes on, and notifies whom it was going to notify. -/
theorem Lively.setCall (h : p.Lively) {c : ℕ} {call call' : Call} (hc : p.calls[c]? = some call)
    (hinv : (p.setCall c call').Inv) (hfits : call'.Fits (OrderedMap.keys p.workers))
    (hsame : ∀ idx, call'.stage.notifies idx = call.stage.notifies idx) : (p.setCall c call').Lively := by
  refine ⟨hinv, h.serving, fun call'' hmem ↦ ?_, fun e he ↦ ?_⟩
  · rcases List.mem_or_eq_of_mem_set hmem with hmem | rfl
    · exact h.fits call'' hmem
    · exact hfits
  · have howed := owed_setCall e.1 hc call'
    rw [hsame e.1] at howed
    exact (h.notifies e he).trans (Nat.add_right_cancel howed).symm

/-- A worker takes a step that is not cleared, and is owed as many notifications. -/
theorem Lively.setWorker (h : p.Lively) {idx : ℕ} {w w' : Worker} {l : Label}
    (hw : p.workers.lookup idx = some w) (hs : w.step l = some w') (hclear : l ≠ .clear)
    (hinv : (p.setWorker idx w').Inv) (hsame : w'.notifies = w.notifies) : (p.setWorker idx w').Lively := by
  have hmem := OrderedMap.mem_of_lookup hw
  refine ⟨hinv, fun e he ↦ ?_, fun call hcall ↦ ?_, fun e he ↦ ?_⟩
  · rcases OrderedMap.mem_set he with rfl | he
    · obtain ⟨finished, hserving⟩ := h.serving _ hmem
      exact hserving.step hs hclear
    · exact h.serving e he
  · rw [Pool.setWorker, OrderedMap.keys_set]
    exact h.fits call hcall
  · rcases OrderedMap.mem_set he with rfl | he
    · exact hsame.trans (h.notifies _ hmem)
    · exact h.notifies e he

/-- A call pushes to a worker, or notifies it: what the worker is owed and what the call
owes change together. -/
theorem Lively.exchange (h : p.Lively) {c idx : ℕ} {call call' : Call} {w w' : Worker} {l : Label}
    (hc : p.calls[c]? = some call) (hw : p.workers.lookup idx = some w) (hs : w.step l = some w')
    (hclear : l ≠ .clear) (hinv : ((p.setWorker idx w').setCall c call').Inv)
    (hfits : call'.Fits (OrderedMap.keys p.workers))
    (hown : w'.notifies + call.stage.notifies idx = w.notifies + call'.stage.notifies idx)
    (hother : ∀ idx', idx' ≠ idx → call'.stage.notifies idx' = call.stage.notifies idx') :
    ((p.setWorker idx w').setCall c call').Lively := by
  have hmem := OrderedMap.mem_of_lookup hw
  have howed : ∀ idx', ((p.setWorker idx w').setCall c call').owed idx' + call.stage.notifies idx' =
      p.owed idx' + call'.stage.notifies idx' := fun idx' ↦
    owed_setCall (p := p.setWorker idx w') idx' hc call'
  refine ⟨hinv, fun e he ↦ ?_, fun call'' hcall ↦ ?_, fun e he ↦ ?_⟩
  · rcases OrderedMap.mem_set he with rfl | he
    · obtain ⟨finished, hserving⟩ := h.serving _ hmem
      exact hserving.step hs hclear
    · exact h.serving e he
  · show call''.Fits (OrderedMap.keys (p.workers.set idx w'))
    rw [OrderedMap.keys_set]
    rcases List.mem_or_eq_of_mem_set hcall with hcall | rfl
    · exact h.fits call'' hcall
    · exact hfits
  · rcases OrderedMap.mem_set_or he with rfl | ⟨he, hne⟩
    · have hbefore : w.notifies = p.owed idx := h.notifies _ hmem
      have hafter := howed idx
      dsimp only
      omega
    · have hafter := howed e.1
      rw [hother e.1 hne] at hafter
      exact (h.notifies e he).trans (Nat.add_right_cancel hafter).symm

/-- **Every step but `clear` keeps a pool lively.** -/
theorem Lively.step (h : p.Lively) {l : PoolLabel} (hs : p.step l = some p')
    (hclear : ∀ idx, l ≠ .worker idx .clear) : p'.Lively := by
  have hinv := h.inv.step hs hclear
  cases l with
  | call task =>
      cases hs
      refine ⟨hinv, h.serving, fun call hmem ↦ ?_, fun e he ↦ ?_⟩
      · rcases List.mem_append.1 hmem with hmem | hmem
        · exact h.fits call hmem
        · rw [List.mem_singleton.1 hmem]
          cases hcheck : p.check task with
          | error what => trivial
          | ok _ => exact ⟨callable_of_check hcheck, fun idx hidx ↦ hidx, nofun⟩
      · rw [owed, List.map_append, List.sum_append, List.map_singleton, List.sum_singleton,
          notifies_of_not_accepted, Nat.add_zero]
        · exact h.notifies e he
        · cases p.check task with
          | error what => rfl
          | ok _ => rfl
  | scan c =>
      obtain ⟨task, stage, placed, stage', hc, hstage, rfl⟩ := step_scan_cases hs
      obtain ⟨hbefore, hafter⟩ := scan_accepted hstage
      refine h.setCall hc hinv (fits_scan hstage (h.fits _ (List.mem_of_getElem? hc))) fun idx ↦ ?_
      exact (notifies_of_not_accepted hafter idx).trans (notifies_of_not_accepted hbefore idx).symm
  | push c =>
      obtain ⟨task, idx, placed, w, w', hc, hw, hw', rfl⟩ := step_push_cases hs
      have hpush : w.step (.push task) = some w' := hw'
      have hkeys : idx ∈ OrderedMap.keys p.workers := (h.fits _ (List.mem_of_getElem? hc)).2
      refine h.exchange hc hw hpush nofun hinv hkeys ?_ fun idx' hne ↦ ?_
      · cases Worker.step_cases hpush with
        | push => simp [Stage.notifies]
      · exact (if_neg fun heq ↦ hne (Stage.notifying.inj heq).symm).trans (if_neg nofun).symm
  | notify c =>
      obtain ⟨task, idx, placed, w, w', hc, hw, hw', rfl⟩ := step_notify_cases hs
      refine h.exchange hc hw hw' nofun hinv trivial ?_ fun idx' hne ↦ ?_
      · cases Worker.step_cases hw' with
        | notify n hn => simp [Stage.notifies, hn]
      · exact (if_neg nofun).trans (if_neg fun heq ↦ hne (Stage.notifying.inj heq).symm).symm
  | worker idx l =>
      obtain ⟨hpush, w, w', hw, hw', rfl⟩ := step_worker_cases hs
      refine h.setWorker hw hw' (fun heq ↦ hclear idx (heq ▸ rfl)) hinv ?_
      cases Worker.step_cases hw' with
      | push task => exact absurd rfl (hpush task)
      | notify => cases hs
      | runner => exact Worker.runner_notifies hw'
      | clear | stop | stopNotify | spurious => rfl

theorem Lively.start (n : ℕ) : (start n).Lively := by
  refine ⟨.start n, fun e he ↦ ?_, nofun, fun e he ↦ ?_⟩
  · obtain ⟨idx, -, rfl⟩ := List.mem_map.1 he
    exact ⟨[], .start _⟩
  · obtain ⟨idx, -, rfl⟩ := List.mem_map.1 he
    rfl

/-! ## Coming to rest -/

/-- The effort of a call that leaves its loop is that of a push, if there is one. -/
theorem effort_chosen (lowest : Option (ℕ × ℕ)) : (chosen lowest).effort ≤ 25 := by
  cases lowest with
  | none => exact Nat.zero_le _
  | some l => exact Nat.le_refl _

/-- **Every step of a thread brings the pool nearer to rest.** -/
theorem unrest_step (h : p.Lively) (hgo : ∀ e ∈ p.workers, e.2.shouldStop = false) {l : PoolLabel}
    (hs : p.step l = some p') (hl : l.IsOwn) : p'.unrest < p.unrest := by
  cases l with
  | call task => exact hl.elim
  | scan c =>
      obtain ⟨task, stage, placed, stage', hc, hstage, rfl⟩ := step_scan_cases hs
      have hlt : stage'.effort < stage.effort := by
        rcases scan_cases hstage with ⟨lowest, rfl, rfl⟩ | ⟨idx, rest, lowest, lowest', rfl, rfl, -⟩
        · exact Nat.lt_succ_of_le (effort_chosen lowest)
        · exact Nat.lt_succ_self _
      have hefforts := efforts_setCall hc ⟨some task, stage', placed⟩
      show p.load + _ < p.load + _
      dsimp only at hefforts
      omega
  | push c =>
      obtain ⟨task, idx, placed, w, w', hc, hw, hw', rfl⟩ := step_push_cases hs
      have hle := Worker.unrest_push hw'
      have hload := load_setWorker h.inv.keys hw w'
      have hefforts := efforts_setCall (p := p.setWorker idx w') hc
        ⟨some task, .notifying idx, some (idx, ⟨w.pushed.length, task⟩)⟩
      show (p.setWorker idx w').load + _ < p.load + (p.setWorker idx w').efforts
      simp only [Stage.effort] at hefforts
      omega
  | notify c =>
      obtain ⟨task, idx, placed, w, w', hc, hw, hw', rfl⟩ := step_notify_cases hs
      have hlt := Worker.unrest_notify hw'
      have hload := load_setWorker h.inv.keys hw w'
      have hefforts := efforts_setCall (p := p.setWorker idx w') hc ⟨task, .returned true, placed⟩
      show (p.setWorker idx w').load + _ < p.load + (p.setWorker idx w').efforts
      simp only [Stage.effort] at hefforts
      omega
  | worker idx l =>
      obtain ⟨hpush, w, w', hw, hw', rfl⟩ := step_worker_cases hs
      have hmem := OrderedMap.mem_of_lookup hw
      obtain ⟨finished, hserving⟩ := h.serving _ hmem
      have hlt : w'.unrest < w.unrest := by
        cases l with
        | runner => exact Worker.unrest_runner hserving.ordered (hgo _ hmem) hw'
        | push | notify | clear | stop | stopNotify | spurious => exact hl.elim
      have hload := load_setWorker h.inv.keys hw w'
      show _ + p.efforts < p.load + p.efforts
      omega

/-- None of these steps tells a worker to stop. -/
theorem going_step (hgo : ∀ e ∈ p.workers, e.2.shouldStop = false) {l : PoolLabel}
    (hs : p.step l = some p') (hl : l.IsOwn) : ∀ e ∈ p'.workers, e.2.shouldStop = false := by
  have hset : ∀ {idx : ℕ} {w w' : Worker}, p.workers.lookup idx = some w →
      w'.shouldStop = w.shouldStop → ∀ e ∈ (p.setWorker idx w').workers, e.2.shouldStop = false := by
    intro idx w w' hw hsame e he
    rcases OrderedMap.mem_set he with rfl | he
    · exact hsame.trans (hgo _ (OrderedMap.mem_of_lookup hw))
    · exact hgo e he
  cases l with
  | call task => exact hl.elim
  | scan c =>
      obtain ⟨_, _, _, _, -, -, rfl⟩ := step_scan_cases hs
      exact hgo
  | push c =>
      obtain ⟨task, idx, _, w, w', -, hw, hw', rfl⟩ := step_push_cases hs
      have hpush : w.step (.push task) = some w' := hw'
      refine hset hw ?_
      cases Worker.step_cases hpush with
      | push => rfl
  | notify c =>
      obtain ⟨task, idx, _, w, w', -, hw, hw', rfl⟩ := step_notify_cases hs
      refine hset hw ?_
      cases Worker.step_cases hw' with
      | notify => rfl
  | worker idx l =>
      obtain ⟨-, w, w', hw, hw', rfl⟩ := step_worker_cases hs
      cases l with
      | runner => exact hset hw (Worker.runner_frame hw').2.1
      | push | notify | clear | stop | stopNotify | spurious => exact hl.elim

/-- No thread of the pool has a step. -/
def AtRest (p : Pool) : Prop := ∀ l : PoolLabel, l.IsOwn → p.step l = none

/-- A worker of a pool at rest has run all that was pushed to it. -/
theorem AtRest.worker (hrest : p.AtRest) (h : p.Lively) (hgo : ∀ e ∈ p.workers, e.2.shouldStop = false)
    {idx : ℕ} {w : Worker} (hw : p.workers.lookup idx = some w) (hnotifies : w.notifies = 0) :
    w.ran = w.pushed ∧ w.queue = [] ∧ w.point = .blocked false := by
  have hmem := OrderedMap.mem_of_lookup hw
  obtain ⟨finished, hserving⟩ := h.serving _ hmem
  have hrunner : w.step .runner = none := by
    have hnone := hrest (.worker idx .runner) trivial
    simpa only [Pool.step, hw, Option.bind_some, Option.map_eq_none_iff] using hnone
  have hnotify : w.step .notify = none := by
    unfold Worker.step
    rw [hnotifies]
  exact hserving.at_rest (hgo _ hmem) hrunner hnotify

/-- A call that is going to notify a worker can do so. -/
theorem AtRest.not_notifying (hrest : p.AtRest) (h : p.Lively) {call : Call} (hcall : call ∈ p.calls)
    (idx : ℕ) : call.stage ≠ .notifying idx := by
  intro hstage
  obtain ⟨c, hc⟩ := List.getElem?_of_mem hcall
  obtain ⟨task, stage, placed⟩ := call
  subst hstage
  obtain ⟨w, hw⟩ := OrderedMap.exists_lookup h.inv.keys (h.fits _ hcall)
  have hdue : 0 < p.owed idx := by
    refine List.sum_pos_iff_exists_pos_nat.2 ⟨_, List.mem_map_of_mem hcall, ?_⟩
    rw [Stage.notifies, if_pos rfl]
    exact Nat.zero_lt_one
  have hnotifies : w.notifies = p.owed idx := h.notifies _ (OrderedMap.mem_of_lookup hw)
  obtain ⟨n, hn⟩ : ∃ n, w.notifies = n + 1 := Nat.exists_eq_add_of_le' (hnotifies ▸ hdue)
  have hnone := hrest (.notify c) trivial
  simp [Pool.step, Worker.step, hc, hw, hn] at hnone

/-- So no worker is owed a notification. -/
theorem AtRest.owed_eq_zero (hrest : p.AtRest) (h : p.Lively) (idx : ℕ) : p.owed idx = 0 := by
  refine List.sum_eq_zero_iff_forall_eq_nat.2 fun n hn ↦ ?_
  obtain ⟨call, hcall, rfl⟩ := List.mem_map.1 hn
  exact if_neg (hrest.not_notifying h hcall idx)

/-- **A pool at rest waits for no one**: all calls have returned, or thrown. -/
theorem AtRest.call_over (hrest : p.AtRest) (h : p.Lively) (hgo : ∀ e ∈ p.workers, e.2.shouldStop = false)
    {call : Call} (hcall : call ∈ p.calls) :
    (∃ what, call.stage = .thrown what) ∨ call.stage = .returned call.placed.isSome := by
  obtain ⟨c, hc⟩ := List.getElem?_of_mem hcall
  have hfits := h.fits _ hcall
  have hsound := (h.inv.sound _ hcall).placed
  have hblocked : ∀ idx ∈ OrderedMap.keys p.workers, ∃ w, p.workers.lookup idx = some w ∧
      w.point = .blocked false := by
    intro idx hidx
    obtain ⟨w, hw⟩ := OrderedMap.exists_lookup h.inv.keys hidx
    have hnotifies : w.notifies = p.owed idx := h.notifies _ (OrderedMap.mem_of_lookup hw)
    exact ⟨w, hw, (hrest.worker h hgo hw (hnotifies.trans (hrest.owed_eq_zero h idx))).2.2⟩
  obtain ⟨task, stage, placed⟩ := call
  cases stage with
  | scanning rest lowest =>
      obtain ⟨⟨t, rfl, -⟩, hrest', -⟩ := hfits
      have hnone := hrest (.scan c) trivial
      cases rest with
      | nil => simp [Pool.step, hc, Pool.scan] at hnone
      | cons idx rest =>
          obtain ⟨w, hw, hp⟩ := hblocked idx (hrest' idx List.mem_cons_self)
          simp only [Pool.step, hc, Pool.scan, hw, hp, Option.map_eq_none_iff, reduceCtorEq, if_false] at hnone
          split at hnone
          · cases hnone
          · cases hnone
  | pushing idx =>
      obtain ⟨⟨t, rfl, hf⟩, hidx⟩ := hfits
      obtain ⟨w, hw, hp⟩ := hblocked idx hidx
      have hnone := hrest (.push c) trivial
      simp [Pool.step, hc, hw, Worker.push, hf, hp] at hnone
  | notifying idx => exact absurd rfl (hrest.not_notifying h hcall idx)
  | returned suc => exact .inr (congrArg Stage.returned hsound.symm)
  | thrown what => exact .inl ⟨what, rfl⟩

/-- The pool goes on from `p`, and no worker is told to stop. -/
structure GoesOn (p : Pool) : Prop where
  lively : p.Lively
  going : ∀ e ∈ p.workers, e.2.shouldStop = false

theorem GoesOn.step (h : p.GoesOn) {l : PoolLabel} (hs : p.step l = some p') (hl : l.IsOwn) : p'.GoesOn where
  lively := h.lively.step hs fun idx heq ↦ by
    rw [heq] at hl
    exact hl
  going := going_step h.going hs hl

/-- **A pool that is left alone comes to rest, and has then run every task once.**  After any
run in which no queue is cleared and no worker is being destroyed, the calls of `pool::push`
and the runners take only so many more steps, in whatever order; and when none of them has a
step left, every call has returned or thrown, every queue is empty, and what has been run are
the entries that the accepted calls have placed, each once. -/
theorem settles {n : ℕ} (hrun : Run step (start n) ts p)
    (hclear : ∀ t ∈ ts, ∀ idx, t.label ≠ .worker idx .clear)
    (hgo : ∀ e ∈ p.workers, e.2.shouldStop = false) (hrun' : Run step p ts' p')
    (hown : ∀ t ∈ ts', t.label.IsOwn) :
    ts'.length ≤ p.unrest ∧
      (p'.AtRest →
        (∀ call ∈ p'.calls, (∃ what, call.stage = .thrown what) ∨
          call.stage = .returned call.placed.isSome) ∧
        (∀ call ∈ p'.calls, ∀ e ∈ call.placed, call.task = some e.2.task) ∧
        (∀ e ∈ p'.workers, e.2.queue = []) ∧ (p'.calls.filterMap Call.placed).Perm p'.ran ∧ p'.ran.Nodup) := by
  have hlively : p.Lively :=
    (hrun.invariant (I := Lively) (C := fun t ↦ ∀ idx, t.label ≠ .worker idx .clear)
      (fun _ hs hc h ↦ h.step hs hc) (Lively.start n) hclear).1
  obtain ⟨hlast, hall⟩ := hrun'.invariant (I := GoesOn) (C := fun t ↦ t.label.IsOwn)
    (fun _ hs hl h ↦ h.step hs hl) ⟨hlively, hgo⟩ hown
  constructor
  · have hle := hrun'.length_le unrest fun t ht ↦
      unrest_step (hall t ht).1.lively (hall t ht).1.going (hrun'.step_of_mem ht) (hown t ht)
    exact Nat.le_trans (Nat.le_add_right _ _) hle
  · intro hrest
    have hinv := hlast.lively.inv
    have hworkers : ∀ e ∈ p'.workers, e.2.ran = e.2.pushed ∧ e.2.queue = [] := by
      intro e he
      have hnotifies := (hlast.lively.notifies e he).trans (hrest.owed_eq_zero hlast.lively e.1)
      obtain ⟨hran, hq, -⟩ := hrest.worker hlast.lively hlast.going (OrderedMap.lookup_of_mem hinv.keys he) hnotifies
      exact ⟨hran, hq⟩
    have hran : p'.ran = p'.entries := List.flatMap_congr fun e he ↦ by rw [(hworkers e he).1]; rfl
    exact ⟨fun call hcall ↦ hrest.call_over hlast.lively hlast.going hcall,
      fun call hcall ↦ (hinv.sound call hcall).task, fun e he ↦ (hworkers e he).2,
      hran ▸ hinv.placed, hran ▸ hinv.entries_nodup⟩

/-- A call has looked at the first one of two workers when it is left to itself with their
runners. -/
theorem settles_two : ∃ ts p ts' p', Run step (start 2) ts p ∧ Run step p ts' p' ∧
    ts'.length = 15 ∧ ts'.length ≤ p.unrest ∧ p'.ran = [(0, ⟨0, some 7, defaultMask⟩)] ∧
      (p'.calls.filterMap Call.placed).Perm p'.ran := by
  obtain ⟨ts, p, hrun, hclear, hgo, r, hr, hown, hlength, hran, hrest⟩ := Run.exists_of_labels step (start 2)
    [.call (some ⟨some 7, defaultMask⟩), .scan 0] (fun l ↦ ∀ idx, l ≠ .worker idx .clear)
    (fun _ p ↦ (∀ e ∈ p.workers, e.2.shouldStop = false) ∧
      ∃ r, trace step p [.scan 0, .scan 0, .push 0, .worker 0 .runner, .worker 0 .runner, .worker 0 .runner,
          .worker 1 .runner, .worker 1 .runner, .worker 1 .runner, .worker 1 .runner, .worker 1 .runner,
          .notify 0, .worker 0 .runner, .worker 0 .runner, .worker 0 .runner] = some r ∧
        (∀ t ∈ r.1, t.label.IsOwn) ∧ r.1.length = 15 ∧ r.2.ran = [(0, ⟨0, some 7, defaultMask⟩)] ∧ r.2.AtRest)
    (by simp) ⟨_, rfl, by decide, _, rfl, by simp [PoolLabel.IsOwn], rfl, rfl, fun l hl ↦ by
      cases l with
      | call task => exact hl.elim
      | scan c | push c | notify c =>
          cases c with
          | zero => rfl
          | succ c => rfl
      | worker idx l =>
          cases l with
          | runner =>
              match idx with
              | 0 | 1 => rfl
              | idx + 2 => rfl
          | push | notify | clear | stop | stopNotify | spurious => exact hl.elim⟩
  obtain ⟨hle, hsettled⟩ := settles hrun hclear hgo (Run.of_trace hr) hown
  exact ⟨ts, p, r.1, r.2, hrun, Run.of_trace hr, hlength, hle, hran, (hsettled hrest).2.2.2.1⟩

end Pool

end Datapath.Threadpool
