import Datapath.Lib.Lightest
import Datapath.Threadpool.Pool

/-!
# A call that nothing interrupts

`pool::push` and `pool::clear` as functions on a pool that no other thread changes
meanwhile.  The worker that `pool::push` chooses is the first of the lightest among those
whose affinity meets the mask, and nothing else about the pool changes.

A call of the pool's step relation whose steps follow one another comes to the same.
-/

namespace Datapath.Threadpool

open Datapath.Lib

namespace Worker

/-- `worker::push`, together with its `notify_all`. -/
def append (task : Task) (w : Worker) : Worker :=
  { w with
    queue := w.queue ++ [⟨w.pushed.length, task⟩]
    pushed := w.pushed ++ [⟨w.pushed.length, task⟩]
    point := w.point.wake }

/-- `worker::clear`, once it has the mutex. -/
def empty (w : Worker) : Worker := { w with queue := [], cleared := w.cleared ++ w.queue }

end Worker

namespace Pool

variable {p : Pool} {mask : Affinity} {idx : ℕ} {w : Worker}

/-- A round of the loop of `pool::push`. -/
def round (mask : Affinity) (lowest : Option (ℕ × ℕ)) (kv : ℕ × Worker) : Option (ℕ × ℕ) :=
  if kv.2.affinity &&& mask = 0 then lowest else lower lowest kv.1 kv.2.queue.length

/-- The loop of `pool::push`: `lowest_id` and `lowest_count` after it. -/
def select (p : Pool) (mask : Affinity) : Option (ℕ × ℕ) := p.workers.foldl (round mask) none

/-- `pool::push`.  An exception leaves the pool to the caller as it then is. -/
def push (p : Pool) : Option Task → Except String Bool × Pool
  | none => (.error "task must not be nullptr", p)
  | some task =>
      match p.check (some task) with
      | .error what => (.error what, p)
      | .ok () =>
          match p.select task.mask with
          | none => (.ok false, p)
          | some (lowestId, _) =>
              (.ok true, (p.workers.lookup lowestId).elim p fun w ↦ p.setWorker lowestId (w.append task))

/-- `pool::clear`. -/
def clear (p : Pool) (mask : Affinity) : Except String Unit × Pool :=
  if mask &&& (BitVec.ofNat 64 p.workers.length - 1) = 0 then
    (.error "mask does not fit any thread", p)
  else
    (.ok (), { p with workers := p.workers.map fun kv ↦
      (kv.1, if kv.2.affinity &&& mask = 0 then kv.2 else kv.2.empty) })

/-- A task that passes the tests has a function. -/
theorem function_isSome {task : Task} (hcheck : p.check (some task) = .ok ()) :
    task.function.isSome = true := by
  cases hf : task.function with
  | none =>
      simp only [check, hf] at hcheck
      cases hcheck
  | some f => rfl

/-- The workers are in the order of their ids, as they are in a `std::map`. -/
def Sorted (p : Pool) : Prop := (OrderedMap.keys p.workers).Pairwise (· < ·)

theorem Sorted.nodup (h : p.Sorted) : (OrderedMap.keys p.workers).Nodup := h.imp fun hlt ↦ ne_of_lt hlt

/-- A worker whose affinity meets a mask, and of those one with the shortest queue, and
of those the one with the smallest id. -/
structure LeastLoaded (p : Pool) (mask : Affinity) (idx : ℕ) (w : Worker) : Prop where
  lookup : p.workers.lookup idx = some w
  meets : w.affinity &&& mask ≠ 0
  least : ∀ idx' w', p.workers.lookup idx' = some w' → w'.affinity &&& mask ≠ 0 →
    w.queue.length < w'.queue.length ∨ w.queue.length = w'.queue.length ∧ idx ≤ idx'

theorem LeastLoaded.le (h : p.LeastLoaded mask idx w) {idx' : ℕ} {w' : Worker}
    (hw' : p.workers.lookup idx' = some w') (hmeets : w'.affinity &&& mask ≠ 0) :
    w.queue.length ≤ w'.queue.length := by
  rcases h.least idx' w' hw' hmeets with hlt | ⟨heq, -⟩
  · exact hlt.le
  · exact heq.le

/-- There is only one such worker. -/
theorem LeastLoaded.unique (h : p.LeastLoaded mask idx w) {idx' : ℕ} {w' : Worker}
    (h' : p.LeastLoaded mask idx' w') : idx = idx' := by
  rcases h.least idx' w' h'.lookup h'.meets with hlt | ⟨heq, hle⟩
  · exact absurd (h'.le h.lookup h.meets) (not_le.2 hlt)
  · rcases h'.least idx w h.lookup h.meets with hlt | ⟨-, hge⟩
    · exact absurd heq (ne_of_gt hlt)
    · exact le_antisymm hle hge

/-! ## The loop -/

/-- The queues that the loop looks at. -/
def loads (p : Pool) (mask : Affinity) : List (ℕ × ℕ) :=
  (p.workers.filter fun kv ↦ kv.2.affinity &&& mask ≠ 0).map fun kv ↦ (kv.1, kv.2.queue.length)

theorem select_eq (p : Pool) (mask : Affinity) :
    p.select mask = lightest maxCount Prod.snd (p.loads mask) := by
  unfold lightest loads select
  rw [List.foldl_map, List.foldl_filter]
  congr
  funext lowest kv
  unfold round
  by_cases hkv : kv.2.affinity &&& mask = 0
  · rw [if_pos hkv, if_neg (by simpa using hkv)]
  · rw [if_neg hkv, if_pos (by simpa using hkv)]
    rfl

theorem mem_loads (h : p.Sorted) {idx n : ℕ} : (idx, n) ∈ p.loads mask ↔
    ∃ w, p.workers.lookup idx = some w ∧ w.affinity &&& mask ≠ 0 ∧ w.queue.length = n := by
  constructor
  · intro hmem
    obtain ⟨⟨idx', w⟩, hw, heq⟩ := List.mem_map.1 hmem
    obtain ⟨hw, hmeets⟩ := List.mem_filter.1 hw
    cases heq
    exact ⟨w, OrderedMap.lookup_of_mem h.nodup hw, by simpa using hmeets, rfl⟩
  · rintro ⟨w, hw, hmeets, rfl⟩
    have hmem : (idx, w) ∈ p.workers.filter fun kv ↦ kv.2.affinity &&& mask ≠ 0 :=
      List.mem_filter.2 ⟨OrderedMap.mem_of_lookup hw, by simpa using hmeets⟩
    exact List.mem_map.2 ⟨(idx, w), hmem, rfl⟩

theorem loads_sorted (h : p.Sorted) (mask : Affinity) :
    ((p.loads mask).map Prod.fst).Pairwise (· < ·) := by
  have hsub : ((p.workers.filter fun kv ↦ kv.2.affinity &&& mask ≠ 0).map Prod.fst).Sublist
      (OrderedMap.keys p.workers) := List.filter_sublist.map _
  unfold loads
  rw [List.map_map]
  exact List.Pairwise.sublist hsub h

/-- The loop finds no worker if no worker that it looks at has a queue shorter than the
sentinel. -/
theorem select_eq_none (h : p.Sorted) : p.select mask = none ↔
    ∀ idx w, p.workers.lookup idx = some w → w.affinity &&& mask ≠ 0 → maxCount ≤ w.queue.length := by
  rw [select_eq, lightest_eq_none]
  constructor
  · intro hall idx w hw hmeets
    exact hall (idx, w.queue.length) ((mem_loads h).2 ⟨w, hw, hmeets, rfl⟩)
  · rintro hall ⟨idx, n⟩ hmem
    obtain ⟨w, hw, hmeets, rfl⟩ := (mem_loads h).1 hmem
    exact hall idx w hw hmeets

/-- The worker that the loop finds. -/
theorem select_eq_some (h : p.Sorted) {n : ℕ} (hs : p.select mask = some (idx, n)) :
    ∃ w, p.LeastLoaded mask idx w ∧ w.queue.length < maxCount := by
  rw [select_eq] at hs
  obtain ⟨hfirst, hlt⟩ := lightest_eq_some hs
  obtain ⟨w, hw, hmeets, rfl⟩ := (mem_loads h).1 hfirst.mem
  refine ⟨w, ⟨hw, hmeets, fun idx' w' hw' hmeets' ↦ ?_⟩, hlt⟩
  exact hfirst.lt_or (loads_sorted h mask) ((mem_loads h).2 ⟨w', hw', hmeets', rfl⟩)

theorem LeastLoaded.select (hsorted : p.Sorted) (h : p.LeastLoaded mask idx w)
    (hlt : w.queue.length < maxCount) : ∃ n, p.select mask = some (idx, n) := by
  cases hs : p.select mask with
  | none => exact absurd ((select_eq_none hsorted).1 hs idx w h.lookup h.meets) (not_le.2 hlt)
  | some lowest =>
      obtain ⟨idx', n⟩ := lowest
      obtain ⟨w', h', -⟩ := select_eq_some hsorted hs
      rw [h.unique h']
      exact ⟨n, rfl⟩

/-! ## The call -/

/-- What a call of `pool::push` does: it throws, or it finds no worker, or it appends the
task to the queue of the least loaded one. -/
inductive Pushed (p : Pool) : Option Task → Except String Bool × Pool → Prop
  | thrown {task : Option Task} {what : String} (hcheck : p.check task = .error what) :
      Pushed p task (.error what, p)
  | refused {task : Task} (hcheck : p.check (some task) = .ok ())
      (hnone : ∀ idx w, p.workers.lookup idx = some w → w.affinity &&& task.mask ≠ 0 →
        maxCount ≤ w.queue.length) :
      Pushed p (some task) (.ok false, p)
  | accepted {task : Task} {idx : ℕ} {w : Worker} (hcheck : p.check (some task) = .ok ())
      (hleast : p.LeastLoaded task.mask idx w) (hlt : w.queue.length < maxCount) :
      Pushed p (some task) (.ok true, p.setWorker idx (w.append task))

theorem push_cases (h : p.Sorted) (task : Option Task) : p.Pushed task (p.push task) := by
  cases task with
  | none => exact .thrown rfl
  | some task =>
      cases hcheck : p.check (some task) with
      | error what =>
          have hpush : p.push (some task) = (.error what, p) := by simp only [push, hcheck]
          rw [hpush]
          exact .thrown hcheck
      | ok u =>
          cases hs : p.select task.mask with
          | none =>
              have hpush : p.push (some task) = (.ok false, p) := by simp only [push, hcheck, hs]
              rw [hpush]
              exact .refused hcheck ((select_eq_none h).1 hs)
          | some lowest =>
              obtain ⟨w, hleast, hlt⟩ := select_eq_some h hs
              have hpush : p.push (some task) = (.ok true, p.setWorker lowest.1 (w.append task)) := by
                simp only [push, hcheck, hs, hleast.lookup, Option.elim_some]
              rw [hpush]
              exact .accepted hcheck hleast hlt

/-- **The least loaded worker gets the task.**  A task that passes the tests is refused
exactly if no worker's affinity meets its mask.  Otherwise it is appended to the queue of
the least loaded worker, and no other worker changes; and a call that does not accept a
task changes nothing. -/
theorem push_least_loaded (p : Pool) (hsorted : p.Sorted)
    (hshort : ∀ idx w, p.workers.lookup idx = some w → w.queue.length < maxCount)
    (task : Option Task) :
    (∀ t, task = some t → p.check task = .ok () →
      ((p.push task).1 = .ok false ↔
        ∀ idx w, p.workers.lookup idx = some w → w.affinity &&& t.mask = 0) ∧
      ((∃ idx w, p.workers.lookup idx = some w ∧ w.affinity &&& t.mask ≠ 0) →
        (p.push task).1 = .ok true ∧ ∃ idx w, p.LeastLoaded t.mask idx w ∧
          (∃ w', (p.push task).2.workers.lookup idx = some w' ∧
            w'.queue = w.queue ++ [⟨w.pushed.length, t⟩]) ∧
          ∀ idx', idx' ≠ idx → (p.push task).2.workers.lookup idx' = p.workers.lookup idx')) ∧
    ((p.push task).1 ≠ .ok true → (p.push task).2.workers = p.workers) := by
  have hcases := push_cases hsorted task
  generalize p.push task = r at hcases ⊢
  cases hcases with
  | thrown hcheck =>
      refine ⟨fun t _ hok ↦ ?_, fun _ ↦ rfl⟩
      rw [hcheck] at hok
      cases hok
  | @refused task hcheck hnone =>
      have hmeets : ∀ idx w, p.workers.lookup idx = some w → w.affinity &&& task.mask = 0 := by
        intro idx w hw
        by_contra hmeets
        exact absurd (hshort idx w hw) (not_lt.2 (hnone idx w hw hmeets))
      refine ⟨?_, fun _ ↦ rfl⟩
      rintro t ⟨⟩ -
      refine ⟨⟨fun _ ↦ hmeets, fun _ ↦ rfl⟩, ?_⟩
      rintro ⟨idx, w, hw, hne⟩
      exact absurd (hmeets idx w hw) hne
  | @accepted task idx w hcheck hleast hlt =>
      refine ⟨?_, fun hne ↦ absurd rfl hne⟩
      rintro t ⟨⟩ -
      refine ⟨⟨?_, fun hall ↦ absurd (hall idx w hleast.lookup) hleast.meets⟩, fun _ ↦ ?_⟩
      · rintro ⟨⟩
      · refine ⟨rfl, idx, w, hleast, ?_, fun idx' hne ↦ OrderedMap.lookup_set_of_ne _ hne⟩
        exact ⟨w.append task, OrderedMap.lookup_set_self hleast.lookup, rfl⟩

theorem start_sorted (n : ℕ) : (start n).Sorted := by
  have hkeys : OrderedMap.keys (start n).workers = List.range n := by
    rw [OrderedMap.keys, start, List.map_map]
    exact List.map_id _
  unfold Sorted
  rw [hkeys]
  exact List.pairwise_lt_range

theorem start_queue {n : ℕ} (hw : (start n).workers.lookup idx = some w) : w.queue = [] := by
  obtain ⟨idx', -, heq⟩ := List.mem_map.1 (OrderedMap.mem_of_lookup hw)
  cases heq
  rfl

/-- A pool of four workers, of which the worker 1 has two tasks and the worker 2 has one. -/
def unevenFour : Pool :=
  let p := ((start 4).push (some ⟨some 0, 2⟩)).2
  let p := (p.push (some ⟨some 1, 2⟩)).2
  (p.push (some ⟨some 2, 6⟩)).2

/-- A task for the workers 1 and 2 goes to the worker 2. -/
theorem push_least_loaded_four :
    unevenFour.workers.map (·.2.queue.length) = [0, 2, 1, 0] ∧
    (unevenFour.push (some ⟨some 3, 6⟩)).2.workers.map (·.2.queue.length) = [0, 2, 2, 0] ∧
    (unevenFour.push (some ⟨some 3, 6⟩)).1 = .ok true ∧
    ∃ idx w, unevenFour.LeastLoaded 6 idx w ∧
      ∃ w', (unevenFour.push (some ⟨some 3, 6⟩)).2.workers.lookup idx = some w' ∧
        w'.queue = w.queue ++ [⟨w.pushed.length, ⟨some 3, 6⟩⟩] := by
  have hshort : ∀ idx w, unevenFour.workers.lookup idx = some w → w.queue.length < maxCount := by
    have hall : ∀ e ∈ unevenFour.workers, e.2.queue.length < maxCount := by decide
    exact fun idx w hw ↦ hall (idx, w) (OrderedMap.mem_of_lookup hw)
  have hsorted : unevenFour.Sorted := by
    show List.Pairwise _ [0, 1, 2, 3]
    decide
  obtain ⟨htrue, idx, w, hleast, happended, -⟩ :=
    ((push_least_loaded unevenFour hsorted hshort (some ⟨some 3, 6⟩)).1 _ rfl rfl).2
      ⟨1, _, rfl, by decide⟩
  exact ⟨by decide, by decide, htrue, idx, w, hleast, happended⟩

/-! ## The same call, step by step -/

theorem setCall_setCall (p : Pool) (c : ℕ) (call call' : Call) :
    (p.setCall c call).setCall c call' = p.setCall c call' := by
  unfold setCall
  rw [List.set_set]

theorem calls_setCall {c : ℕ} {call call' : Call} (hc : p.calls[c]? = some call) :
    (p.setCall c call').calls[c]? = some call' := by
  obtain ⟨hlt, -⟩ := List.getElem?_eq_some_iff.1 hc
  exact List.getElem?_set_self hlt

/-- The rounds of a call, if they follow one another and no worker's mutex is held. -/
theorem run_scan {c : ℕ} {task : Task} (es : List (ℕ × Worker)) :
    ∀ {p : Pool} {lowest : Option (ℕ × ℕ)},
      p.calls[c]? = some { task := some task, stage := .scanning (OrderedMap.keys es) lowest } →
      (∀ e ∈ es, p.workers.lookup e.1 = some e.2 ∧ e.2.point ≠ .waiting) →
      ∃ ts, Run step p ts (p.setCall c
          { task := some task, stage := chosen (es.foldl (round task.mask) lowest) }) ∧
        ∀ t ∈ ts, t.label = .scan c := by
  induction es with
  | nil =>
      intro p lowest hc _
      have hstep : p.step (.scan c) = some (p.setCall c { task := some task, stage := chosen lowest }) := by
        simp only [step, hc]
        rfl
      exact ⟨_, .cons hstep (.nil _), List.forall_mem_singleton.2 rfl⟩
  | cons e es ih =>
      intro p lowest hc hes
      obtain ⟨⟨hw, hfree⟩, hrest⟩ := List.forall_mem_cons.1 hes
      have hscan : p.scan task (.scanning (OrderedMap.keys (e :: es)) lowest) =
          some (.scanning (OrderedMap.keys es) (round task.mask lowest e)) := by
        have hkeys : OrderedMap.keys (e :: es) = e.1 :: OrderedMap.keys es := rfl
        rw [hkeys]
        unfold round scan
        simp only [hw]
        by_cases hmeets : e.2.affinity &&& task.mask = 0
        · simp only [if_pos hmeets]
        · simp only [if_neg hmeets, if_neg hfree]
      have hstep : p.step (.scan c) = some (p.setCall c
          { task := some task, stage := .scanning (OrderedMap.keys es) (round task.mask lowest e) }) := by
        simp only [step, hc, hscan]
        rfl
      obtain ⟨ts, hrun, hlabels⟩ := ih (calls_setCall hc) hrest
      rw [setCall_setCall] at hrun
      exact ⟨_, .cons hstep hrun, List.forall_mem_cons.2 ⟨rfl, hlabels⟩⟩

/-- A call is made, and makes its tests. -/
theorem exists_step_call (p : Pool) (task : Option Task) : ∃ q, p.step (.call task) = some q ∧
    q.workers = p.workers ∧
    (∀ what, p.check task = .error what →
      q.calls[p.calls.length]? = some { task, stage := .thrown what }) ∧
    (p.check task = .ok () → q.calls[p.calls.length]? =
      some { task, stage := .scanning (OrderedMap.keys p.workers) none }) := by
  refine ⟨_, rfl, rfl, fun what hcheck ↦ ?_, fun hcheck ↦ ?_⟩
  · simp only [hcheck]
    exact List.getElem?_concat_length ..
  · simp only [hcheck]
    exact List.getElem?_concat_length ..

/-- `worker::push` and its `notify_all`, one after the other. -/
theorem exists_run_append {c : ℕ} {task : Task}
    (hc : p.calls[c]? = some { task := some task, stage := .pushing idx })
    (hw : p.workers.lookup idx = some w) (hfunction : task.function.isSome = true)
    (hfree : w.point ≠ .waiting) :
    ∃ ts q call, Run step p ts q ∧ q.workers = p.workers.set idx (w.append task) ∧
      q.calls[c]? = some call ∧ call.stage = .returned true := by
  obtain ⟨w', hpush, hnotify⟩ : ∃ w', w.push task = some w' ∧ w'.step .notify = some (w.append task) :=
    ⟨_, if_pos ⟨hfunction, hfree⟩, rfl⟩
  obtain ⟨q, hstep, hworkers, placed, hcall⟩ : ∃ q, p.step (.push c) = some q ∧
      q.workers = p.workers.set idx w' ∧ ∃ placed,
        q.calls[c]? = some { task := some task, stage := .notifying idx, placed } := by
    refine ⟨(p.setWorker idx w').setCall c _, ?_, rfl, some (idx, ⟨w.pushed.length, task⟩),
      calls_setCall (p := p.setWorker idx w') hc⟩
    simp only [step, hc, hw, Option.bind_some, hpush]
    rfl
  have hlookup : q.workers.lookup idx = some w' := hworkers ▸ OrderedMap.lookup_set_self hw
  have hstep' : q.step (.notify c) = some ((q.setWorker idx (w.append task)).setCall c
      { task := some task, stage := .returned true, placed }) := by
    simp only [step, hcall, hlookup, Option.bind_some, hnotify]
    rfl
  refine ⟨_, _, _, .cons hstep (.cons hstep' (.nil _)), ?_, calls_setCall hcall, rfl⟩
  change q.workers.set idx (w.append task) = p.workers.set idx (w.append task)
  rw [hworkers, OrderedMap.set_set]

/-- Where a call is that has ended so. -/
def ended : Except String Bool → Stage
  | .error what => .thrown what
  | .ok suc => .returned suc

/-- **An uninterrupted call.**  The steps of a call, taken one after the other while the
mutexes are free, change the workers as `push` does, and end as it does. -/
theorem exists_run_push (hsorted : p.Sorted)
    (hfree : ∀ idx w, p.workers.lookup idx = some w → w.point ≠ .waiting) (task : Option Task) :
    ∃ ts q call, Run step p ts q ∧ q.workers = (p.push task).2.workers ∧
      q.calls[p.calls.length]? = some call ∧ call.stage = ended (p.push task).1 := by
  obtain ⟨q, hstep, hworkers, hthrown, hscanning⟩ := p.exists_step_call task
  -- a call that passes the tests, after its loop
  have hscanned : ∀ t, task = some t → p.check task = .ok () → ∃ ts q, Run step p ts q ∧
      q.workers = p.workers ∧
      q.calls[p.calls.length]? = some { task, stage := chosen (p.select t.mask) } := by
    rintro t rfl hcheck
    obtain ⟨ts, hrun, -⟩ := run_scan p.workers (hscanning hcheck) fun e he ↦ by
      have hlookup := OrderedMap.lookup_of_mem hsorted.nodup he
      exact ⟨hworkers ▸ hlookup, hfree e.1 e.2 hlookup⟩
    exact ⟨_, _, .cons hstep hrun, hworkers, calls_setCall (hscanning hcheck)⟩
  have hcases := push_cases hsorted task
  generalize p.push task = r at hcases ⊢
  cases hcases with
  | thrown hcheck => exact ⟨_, q, _, .cons hstep (.nil _), hworkers, hthrown _ hcheck, rfl⟩
  | @refused t hcheck hnone =>
      obtain ⟨ts, q, hrun, hworkers, hcall⟩ := hscanned t rfl hcheck
      rw [(select_eq_none hsorted).2 hnone] at hcall
      exact ⟨ts, q, _, hrun, hworkers, hcall, rfl⟩
  | @accepted t idx w hcheck hleast hlt =>
      obtain ⟨ts, q, hrun, hworkers, hcall⟩ := hscanned t rfl hcheck
      obtain ⟨n, hselect⟩ := hleast.select hsorted hlt
      rw [hselect] at hcall
      have hfunction : t.function.isSome = true := function_isSome hcheck
      obtain ⟨ts', q', call, hrun', hworkers', hcall', hstage⟩ := exists_run_append hcall
        (hworkers ▸ hleast.lookup) hfunction (hfree idx w hleast.lookup)
      rw [hworkers] at hworkers'
      exact ⟨ts ++ ts', q', call, hrun.append hrun', hworkers', hcall', hstage⟩

end Pool

end Datapath.Threadpool
