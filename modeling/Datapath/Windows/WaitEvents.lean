import Datapath.Windows.Deadline

/-!
# The events that a wait on many objects fires

An operating system that answers as it likes, and objects whose events are recorded.

`wait_any` reads `indexes` at the result of `WaitForMultipleObjectsEx`, counted from
`WAIT_OBJECT_0`, also if the object was abandoned; this is far outside of the list then
(`waitAny_reports_iff`).  And both functions give the operating system as many handles
as there are entries, so that an array with a null entry is refused
(`skipsNulls_iff`).
-/

namespace Datapath

open Windows (HANDLE)

/-- `WAIT_FAILED`. -/
def waitFailed : ℕ := 0xFFFFFFFF

/-- A call of the listeners of an object. -/
structure Firing (O : Type*) where
  obj : O
  /-- Of `_on_wait_success`, and otherwise of `_on_wait_error`. -/
  success : Bool
  ec : error
deriving DecidableEq, Repr

namespace Waiters

variable {O σ χ R : Type*}

/-- The answer of the operating system to one call, and the nanoseconds that pass in it. -/
abbrev System (χ : Type*) := χ → List HANDLE → Bool → ℤ → ℕ × ℤ

/-- Objects whose events are recorded. -/
def recording (getWaitable : O → HANDLE) (os : System χ) : Waiters O (List (Firing O)) χ where
  getWaitable
  waitForMultipleObjectsEx c handles waitAll timeout fired :=
    ((os c handles waitAll timeout).1, (os c handles waitAll timeout).2, fired)
  onWaitSuccess obj ec fired := fired ++ [⟨obj, true, ec⟩]
  onWaitError obj ec fired := fired ++ [⟨obj, false, ec⟩]

/-- Against the world as it goes, a call ends in this way. -/
def Ends (call : List χ → Outcome R × σ) (world : ℕ → χ) (r : Outcome R × σ) : Prop :=
  r.1 ≠ .waiting ∧ ∃ n, call (firstCalls world n) = r

/-! ## What the operating system reports -/

/-- What it answers to the `k`-th call of a loop whose timeout is updated after each. -/
def report (call : χ → ℤ → ℕ × ℤ) : ℤ → (ℕ → χ) → ℕ → ℕ
  | timeout, world, 0 => (call (world 0) timeout).1
  | timeout, world, k + 1 =>
      let timeout := timeout - Waiter.toMilliseconds (call (world 0) timeout).2
      report call (if timeout ≤ 0 then 0 else timeout) (fun j ↦ world (j + 1)) k

theorem firstCalls_succ (world : ℕ → χ) (n : ℕ) :
    firstCalls world (n + 1) = world 0 :: firstCalls (fun j ↦ world (j + 1)) n := by
  unfold firstCalls
  rw [List.range_succ_eq_map, List.map_cons, List.map_map]
  rfl

/-- The loop ends with the first report that has an answer. -/
theorem waitLoop_firstCalls (call : χ → ℤ → ℕ × ℤ) (answer : ℕ → σ → Option (Outcome R × σ))
    (timedOut : R) (s : σ) (n : ℕ) : ∀ (timeout : ℤ) (world : ℕ → χ),
    waitLoop (fun c t s ↦ ((call c t).1, (call c t).2, s)) answer timedOut timeout
        (firstCalls world n) s =
      ((List.range n).findSome? fun k ↦ answer (report call timeout world k) s).getD (.waiting, s) := by
  induction n with
  | zero =>
      intro timeout world
      rfl
  | succ n ih =>
      intro timeout world
      rw [firstCalls_succ, List.range_succ_eq_map, List.findSome?_cons, List.findSome?_map]
      unfold waitLoop
      cases hanswer : answer (call (world 0) timeout).1 s with
      | some r =>
          have hfirst : answer (report call timeout world 0) s = some r := hanswer
          simp only [hanswer, hfirst]
          rfl
      | none =>
          have hfirst : answer (report call timeout world 0) s = none := hanswer
          simp only [hanswer, hfirst]
          rw [if_pos (by split <;> omega)]
          exact ih _ _

theorem findSome?_range {A : Type*} (f : ℕ → Option A) (a : A) (n : ℕ) :
    (List.range n).findSome? f = some a ↔ ∃ m < n, (∀ k < m, f k = none) ∧ f m = some a := by
  induction n with
  | zero => exact ⟨nofun, fun ⟨m, hm, _⟩ ↦ absurd hm (Nat.not_lt_zero m)⟩
  | succ n ih =>
      rw [List.range_succ, List.findSome?_append, Option.or_eq_some_iff, ih,
        List.findSome?_eq_none_iff, List.findSome?_singleton]
      constructor
      · rintro (⟨m, hm, hfirst⟩ | ⟨hnone, hlast⟩)
        · exact ⟨m, Nat.lt_succ_of_lt hm, hfirst⟩
        · exact ⟨n, Nat.lt_succ_self n, fun k hk ↦ hnone k (List.mem_range.2 hk), hlast⟩
      · rintro ⟨m, hm, hnone, hfound⟩
        rcases Nat.lt_succ_iff_lt_or_eq.1 hm with hm | rfl
        · exact .inl ⟨m, hm, hnone, hfound⟩
        · exact .inr ⟨fun k hk ↦ hnone k (List.mem_range.1 hk), hfound⟩

/-- A call ends with the answer to the first report that has one. -/
theorem ends_iff (call : χ → ℤ → ℕ × ℤ) (answer : ℕ → σ → Option (Outcome R × σ)) (timedOut : R)
    (timeout : ℤ) (s : σ) (world : ℕ → χ) (r : Outcome R × σ) :
    Ends (fun cs ↦ waitLoop (fun c t s ↦ ((call c t).1, (call c t).2, s)) answer timedOut timeout cs s)
        world r ↔
      r.1 ≠ .waiting ∧ ∃ n, (∀ k < n, answer (report call timeout world k) s = none) ∧
        answer (report call timeout world n) s = some r := by
  refine and_congr_right fun hended ↦ ?_
  simp only [waitLoop_firstCalls]
  constructor
  · rintro ⟨n, hn⟩
    cases hfind : (List.range n).findSome? fun k ↦ answer (report call timeout world k) s with
    | none =>
        rw [hfind] at hn
        subst hn
        exact absurd rfl hended
    | some r' =>
        rw [hfind] at hn
        cases hn
        obtain ⟨m, -, hfirst⟩ := (findSome?_range _ r' n).1 hfind
        exact ⟨m, hfirst⟩
  · rintro ⟨m, hfirst⟩
    refine ⟨m + 1, ?_⟩
    rw [(findSome?_range _ r (m + 1)).2 ⟨m, Nat.lt_succ_self m, hfirst⟩]
    rfl

/-- There is one first answer. -/
theorem first_unique {A : Type*} {f : ℕ → Option A} {a b : A} {m n : ℕ} (hm : ∀ k < m, f k = none)
    (ha : f m = some a) (hn : ∀ k < n, f k = none) (hb : f n = some b) : a = b := by
  rcases Nat.lt_trichotomy m n with hlt | rfl | hlt
  · cases (hn m hlt).symm.trans ha
  · exact Option.some.inj (ha.symm.trans hb)
  · cases (hm n hlt).symm.trans hb

/-! ## Answers -/

section Decode

variable {A : Type*} {result : ℕ} {success closed timedOut failure a : A}

/-- The loops go on exactly after an interruption. -/
theorem decode_none (result : ℕ) (success closed timedOut failure : A) :
    decode result success closed timedOut failure = none ↔ result = waitIoCompletion := by
  constructor
  · intro hnone
    rcases decode_cases result success closed timedOut failure with
      ⟨-, ha | ha⟩ | ⟨-, ha⟩ | ⟨hio, -⟩ | ⟨-, ha⟩
    · cases hnone.symm.trans ha
    · cases hnone.symm.trans ha
    · cases hnone.symm.trans ha
    · exact hio
    · cases hnone.symm.trans ha
  · rintro rfl
    rfl

/-- What they end with otherwise. -/
theorem decode_some (ha : decode result success closed timedOut failure = some a) :
    (a = success ∨ a = closed) ∨ a = timedOut ∨ (Fails result ∧ a = failure) := by
  rcases decode_cases result success closed timedOut failure with
    ⟨-, hdecode | hdecode⟩ | ⟨-, hdecode⟩ | ⟨-, hdecode⟩ | ⟨hr, hdecode⟩
  · exact .inl (.inl (Option.some.inj (ha.symm.trans hdecode)))
  · exact .inl (.inr (Option.some.inj (ha.symm.trans hdecode)))
  · exact .inr (.inl (Option.some.inj (ha.symm.trans hdecode)))
  · cases ha.symm.trans hdecode
  · exact .inr (.inr ⟨hr, Option.some.inj (ha.symm.trans hdecode)⟩)

/-- An answer that they give to nothing else is that to a failure. -/
theorem decode_failure (result : ℕ) (hsuccess : a ≠ success) (hclosed : a ≠ closed)
    (htimedOut : a ≠ timedOut) :
    decode result success closed timedOut failure = some a ↔ Fails result ∧ failure = a := by
  constructor
  · intro ha
    rcases decode_some ha with (hsame | hsame) | hsame | ⟨hfails, hsame⟩
    · exact absurd hsame hsuccess
    · exact absurd hsame hclosed
    · exact absurd hsame htimedOut
    · exact ⟨hfails, hsame.symm⟩
  · rintro ⟨⟨hsignals, htimeout, hio⟩, rfl⟩
    rcases decode_cases result success closed timedOut failure with
      ⟨hr, -⟩ | ⟨hr, -⟩ | ⟨hr, -⟩ | ⟨-, hdecode⟩
    · exact absurd hr hsignals
    · exact absurd hr htimeout
    · exact absurd hr hio
    · exact hdecode

end Decode

theorem answerAny_none (w : Waiters O σ χ) (objs : List (Option O)) (indexes : List ℕ)
    (index result : ℕ) (s : σ) :
    w.answerAny objs indexes index result s = none ↔ result = waitIoCompletion := by
  rw [answerAny_eq, decode_none]

theorem answerAll_none (w : Waiters O σ χ) (objs : List (Option O)) (indexes : List ℕ) (result : ℕ)
    (s : σ) : w.answerAll objs indexes result s = none ↔ result = waitIoCompletion := by
  rw [answerAll_eq, decode_none]

theorem return_eq {r r' : R} {s : σ} {after : Option σ} (h : (return_ r s after).1 = .returned r') :
    r' = r := by
  cases after with
  | none => cases h
  | some s' => exact (Outcome.returned.inj h).symm

theorem fireAt_eq {event : O → σ → σ} {objs : List (Option O)} {indexes : List ℕ} {i j : ℕ}
    {e e' : error} {s : σ} (h : (fireAt event objs indexes i e s).1 = .returned (e', j)) : e' = e := by
  unfold fireAt at h
  split at h
  · cases h
  · exact congrArg Prod.fst (return_eq h)

/-- `wait_any` returns `Failure` only when the operating system has failed. -/
theorem answerAny_failure (w : Waiters O σ χ) (objs : List (Option O)) (indexes : List ℕ)
    (index result : ℕ) (s : σ) {j : ℕ} {s' : σ} :
    w.answerAny objs indexes index result s = some (.returned (.failure, j), s') ↔
      Fails result ∧ index = j ∧ s = s' := by
  have hfired : ∀ {event : O → σ → σ} {i : ℕ} {e : error}, e ≠ .failure →
      (Outcome.returned (error.failure, j), s') ≠ fireAt event objs indexes i e s := by
    intro event i e he hsame
    exact he (fireAt_eq (congrArg Prod.fst hsame.symm)).symm
  rw [answerAny_eq, decode_failure result (hfired (by rintro ⟨⟩)) (hfired (by rintro ⟨⟩)) (by rintro ⟨⟩)]
  simp

/-- `wait` returns `Failure` only when the operating system has failed. -/
theorem answerAll_failure (w : Waiters O σ χ) (objs : List (Option O)) (indexes : List ℕ)
    (result : ℕ) (s : σ) {s' : σ} :
    w.answerAll objs indexes result s = some (.returned .failure, s') ↔ Fails result ∧ s = s' := by
  have hfired : ∀ {after : Option σ} {e : error}, e ≠ .failure →
      (Outcome.returned error.failure, s') ≠ return_ e s after := by
    intro after e he hsame
    exact he (return_eq (congrArg Prod.fst hsame.symm)).symm
  rw [answerAll_eq, decode_failure result (hfired (by rintro ⟨⟩)) (hfired (by rintro ⟨⟩)) (by rintro ⟨⟩)]
  simp

/-! ## Arrays without null entries -/

theorem valid_map_some (objs : List O) : valid (objs.map some) = objs.zipIdx := by
  unfold valid present
  rw [List.zipIdx_map, List.filterMap_map]
  exact List.filterMap_some

theorem translate_map_some (w : Waiters O σ χ) (objs : List O) :
    w.translate (objs.map some) =
      ⟨objs.map w.getWaitable, List.range objs.length, objs.length⟩ := by
  have hhandles : objs.zipIdx.map (fun e ↦ w.getWaitable e.1) = objs.map w.getWaitable := by
    rw [← Function.comp_def w.getWaitable Prod.fst, ← List.map_map, List.zipIdx_map_fst]
  rw [translate_eq, valid_map_some, hhandles]
  simp [List.zipIdx_map_snd, List.range_eq_range']

/-- The listeners of some objects are called one after the other. -/
theorem fireAll_append {A : Type*} (f : O → A) (objs : List (Option O)) (idxs : List ℕ) :
    ∀ (os : List O) (s : List A), idxs.map (objs[·]?) = os.map (some ∘ some) →
      fireAll (fun obj (s : List A) ↦ s ++ [f obj]) objs idxs s = some (s ++ os.map f) := by
  induction idxs with
  | nil =>
      intro os s h
      rw [List.map_eq_nil_iff.1 h.symm]
      exact congrArg some (List.append_nil s).symm
  | cons idx idxs ih =>
      intro os s h
      cases os with
      | nil => cases h
      | cons obj os =>
          obtain ⟨hget, hrest⟩ : objs[idx]? = some (some obj) ∧
            idxs.map (objs[·]?) = os.map (some ∘ some) := List.cons_eq_cons.1 h
          have hfire : fire (fun obj (s : List A) ↦ s ++ [f obj]) objs idx s = some (s ++ [f obj]) := by
            unfold fire
            rw [hget]
          unfold fireAll
          rw [hfire, Option.bind_some, ih os _ hrest, List.append_assoc]
          rfl

theorem fireAll_range {A : Type*} (f : O → A) (objs : List O) :
    fireAll (fun obj (s : List A) ↦ s ++ [f obj]) (objs.map some) (List.range objs.length) [] =
      some (objs.map f) := by
  apply fireAll_append
  apply List.ext_getElem
  · simp
  · intro i hi _
    have hi' : i < objs.length := by simpa using hi
    simp [hi']

/-! ## Recorded calls -/

theorem waitAny_ends (getWaitable : O → HANDLE) (os : System χ) (objs : List (Option O)) (index : ℕ)
    (duration : ℤ) (world : ℕ → χ) (r : Outcome (error × ℕ) × List (Firing O)) :
    let w := recording getWaitable os
    let reported := report (os · (w.translate objs).handles false)
      (Waiter.clampTimeout (Waiter.toMilliseconds duration)) world
    Ends (fun cs ↦ w.waitAny objs index duration cs []) world r ↔
      r.1 ≠ .waiting ∧ ∃ n,
        (∀ k < n, w.answerAny objs (w.translate objs).indexes index (reported k) [] = none) ∧
          w.answerAny objs (w.translate objs).indexes index (reported n) [] = some r :=
  ends_iff _ _ _ _ _ _ r

theorem wait_ends (getWaitable : O → HANDLE) (os : System χ) (objs : List (Option O))
    (duration : ℤ) (world : ℕ → χ) (r : Outcome error × List (Firing O)) :
    let w := recording getWaitable os
    let reported := report (os · (w.translate objs).handles true)
      (Waiter.clampTimeout (Waiter.toMilliseconds duration)) world
    Ends (fun cs ↦ w.wait objs duration cs []) world r ↔
      r.1 ≠ .waiting ∧ ∃ n,
        (∀ k < n, w.answerAll objs (w.translate objs).indexes (reported k) [] = none) ∧
          w.answerAll objs (w.translate objs).indexes (reported n) [] = some r :=
  ends_iff _ _ _ _ _ _ r

/-- A system that answers what the world says. -/
theorem report_world (world : ℕ → ℕ × ℤ) (k : ℕ) :
    ∀ timeout : ℤ, report (fun c _ ↦ c) timeout world k = (world k).1 := by
  induction k generalizing world with
  | zero =>
      intro timeout
      rfl
  | succ k ih =>
      intro timeout
      exact ih (fun j ↦ world (j + 1)) _

section Report

variable {objs : List O} {i : ℕ} (getWaitable : O → HANDLE) (os : System χ)

theorem answerAny_signalled (hcount : objs.length ≤ maximumWaitObjects) (hi : i < objs.length)
    (index : ℕ) : (recording getWaitable os).answerAny (objs.map some) (List.range objs.length) index
        (waitObject0 + i) [] = some (.returned (.success, i), [⟨objs[i], true, .success⟩]) := by
  have hlt : i < maximumWaitObjects := Nat.lt_of_lt_of_le hi hcount
  rw [answerAny, if_pos ⟨Nat.le_add_right _ _, Nat.add_lt_add_left hlt _⟩, Nat.add_sub_cancel_left]
  simp [fireAt, fire, hi, recording, return_]

/-- The position of an abandoned object is outside of the list. -/
theorem answerAny_abandoned (hcount : objs.length ≤ maximumWaitObjects) (hi : i < objs.length)
    (index : ℕ) : (recording getWaitable os).answerAny (objs.map some) (List.range objs.length) index
        (waitAbandoned0 + i) [] = some (.undefined, []) := by
  have hlt : i < maximumWaitObjects := Nat.lt_of_lt_of_le hi hcount
  have hfar : maximumWaitObjects ≤ waitAbandoned0 + i - waitObject0 := by
    unfold maximumWaitObjects waitAbandoned0 waitObject0
    omega
  have hdecode : ¬ (waitObject0 ≤ waitAbandoned0 + i ∧
      waitAbandoned0 + i < waitObject0 + maximumWaitObjects) := by
    unfold maximumWaitObjects waitAbandoned0 waitObject0
    omega
  rw [answerAny, if_neg hdecode, if_pos ⟨Nat.le_add_right _ _, Nat.add_lt_add_left hlt _⟩, fireAt,
    List.getElem?_eq_none (by rw [List.length_range]; exact Nat.le_trans hcount hfar)]

end Report

/-- **`wait_any` reports the object that the operating system reports**, exactly if it
does not report it as abandoned. -/
theorem waitAny_reports_iff {objs : List O} (hcount : objs.length ≤ maximumWaitObjects) {i : ℕ}
    (hi : i < objs.length) (getWaitable : O → HANDLE) (index : ℕ) (duration : ℤ) {world : ℕ → ℕ × ℤ}
    {n : ℕ} (hio : ∀ k < n, (world k).1 = waitIoCompletion) {abandoned : Bool}
    (hresult : (world n).1 = (if abandoned then waitAbandoned0 else waitObject0) + i) :
    (∀ r, Ends (fun cs ↦ (recording getWaitable fun c _ _ _ ↦ c).waitAny (objs.map some) index duration
        cs []) world r ↔
      r = (.returned (if abandoned then .closed else .success, i),
        [⟨objs[i], !abandoned, if abandoned then .closed else .success⟩])) ↔ abandoned = false := by
  simp only [waitAny_ends, translate_map_some, report_world]
  have hbefore : ∀ k < n, (recording getWaitable fun c _ _ _ ↦ c).answerAny (objs.map some)
      (List.range objs.length) index (world k).1 [] = none := by
    intro k hk
    exact (answerAny_none _ _ _ _ _ _).2 (hio k hk)
  cases abandoned with
  | false =>
      have hanswer := answerAny_signalled getWaitable (fun c _ _ _ ↦ c) hcount hi index
      rw [← show (world n).1 = waitObject0 + i from hresult] at hanswer
      refine iff_of_true (fun r ↦ ⟨?_, ?_⟩) rfl
      · rintro ⟨-, m, hm, hr⟩
        exact first_unique hm hr hbefore hanswer
      · rintro rfl
        exact ⟨by rintro ⟨⟩, n, hbefore, hanswer⟩
  | true =>
      have hanswer := answerAny_abandoned getWaitable (fun c _ _ _ ↦ c) hcount hi index
      rw [← show (world n).1 = waitAbandoned0 + i from hresult] at hanswer
      refine iff_of_false (fun h ↦ ?_) (by rintro ⟨⟩)
      obtain ⟨-, m, hm, hr⟩ := (h _).2 rfl
      cases first_unique hm hr hbefore hanswer

/-- An event that is signalled after an interruption. -/
theorem waitAny_reports_second : Ends (fun cs ↦ (recording (id : HANDLE → HANDLE) fun c _ _ _ ↦ c).waitAny
      ([4, 8].map some) 7 0 cs []) (fun k ↦ if k = 0 then (waitIoCompletion, 0) else (waitObject0 + 1, 0))
      (.returned (.success, 1), [⟨8, true, .success⟩]) :=
  ((@waitAny_reports_iff HANDLE [4, 8] (by decide) 1 (by decide) id 7 0
    (fun k ↦ if k = 0 then (waitIoCompletion, 0) else (waitObject0 + 1, 0)) 1 (by decide) false rfl).2
      rfl _).2 rfl

/-- A mutex whose owner has ended is reported as abandoned. -/
theorem waitAny_abandoned : ¬ ∀ r, Ends (fun cs ↦ (recording (id : HANDLE → HANDLE) fun c _ _ _ ↦ c).waitAny
      ([4].map some) 7 0 cs []) (fun _ ↦ (waitAbandoned0 + 0, 0)) r ↔
    r = (.returned (.closed, 0), [⟨4, false, .closed⟩]) := by
  intro h
  have hundefined := (h (.undefined, [])).1 ⟨nofun, 1, by decide⟩
  cases hundefined

/-! ## Arrays with null entries -/

/-- The objects that are there. -/
def objects (objs : List (Option O)) : List O := objs.filterMap id

/-- The array without its null entries. -/
def compact (objs : List (Option O)) : List (Option O) := (objects objs).map some

/-- Where the object at a position of the compact array is in the array itself. -/
def position (objs : List (Option O)) (j : ℕ) : ℕ := ((valid objs).map Prod.snd).getD j 0

/-- The result of `wait_any` on the compact array, for the array itself. -/
def back (objs : List (Option O)) : Outcome (error × ℕ) → Outcome (error × ℕ)
  | .returned (.success, j) => .returned (.success, position objs j)
  | .returned (.closed, j) => .returned (.closed, position objs j)
  | o => o

/-- How `wait` ends when it fires the events of each object once. -/
inductive Fires (objs : List (Option O)) : Outcome error × List (Firing O) → Prop
  | success : Fires objs (.returned .success, (objects objs).map (⟨·, true, .success⟩))
  | closed : Fires objs (.returned .closed, (objects objs).map (⟨·, false, .closed⟩))
  | timedOut : Fires objs (.returned .timedOut, [])
  | failure : Fires objs (.returned .failure, [])

/-- Both functions treat the array as the compact one. -/
structure SkipsNulls (getWaitable : O → HANDLE) (os : System χ) (objs : List (Option O)) (index : ℕ)
    (duration : ℤ) (world : ℕ → χ) : Prop where
  any : ∀ r, Ends (fun cs ↦ (recording getWaitable os).waitAny objs index duration cs []) world r ↔
    ∃ r', Ends (fun cs ↦ (recording getWaitable os).waitAny (compact objs) index duration cs []) world r' ∧
      r = (back objs r'.1, r'.2)
  all : ∀ r, Ends (fun cs ↦ (recording getWaitable os).wait objs duration cs []) world r ↔
    Ends (fun cs ↦ (recording getWaitable os).wait (compact objs) duration cs []) world r
  once : ∀ r, Ends (fun cs ↦ (recording getWaitable os).wait objs duration cs []) world r → Fires objs r

/-- What the operating system answers to the calls for the objects that are there. -/
def reports (getWaitable : O → HANDLE) (os : System χ) (objs : List (Option O)) (waitAll : Bool)
    (duration : ℤ) (world : ℕ → χ) : ℕ → ℕ :=
  report (os · ((objects objs).map getWaitable) waitAll)
    (Waiter.clampTimeout (Waiter.toMilliseconds duration)) world

/-- The first of these answers that is no interruption is a failure. -/
def Refused (reports : ℕ → ℕ) : Prop := ∃ n, (∀ k < n, reports k = waitIoCompletion) ∧ Fails (reports n)

theorem objects_map_some (objs : List O) : objects (objs.map some) = objs := by
  unfold objects
  rw [List.filterMap_map]
  exact List.filterMap_some

theorem eq_map_some {objs : List (Option O)} (h : ∀ o ∈ objs, o.isSome = true) :
    objs = (objects objs).map some := by
  induction objs with
  | nil => rfl
  | cons o objs ih =>
      obtain ⟨ho, hrest⟩ := List.forall_mem_cons.1 h
      obtain ⟨obj, rfl⟩ := Option.isSome_iff_exists.1 ho
      exact congrArg (some obj :: ·) (ih hrest)

/-- The operating system is given a null handle if an entry is null. -/
theorem zero_mem_handles (w : Waiters O σ χ) {objs : List (Option O)} (h : none ∈ objs) :
    0 ∈ (w.translate objs).handles := by
  have hlt : (valid objs).length < objs.length := by
    rw [length_valid]
    refine Nat.lt_of_le_of_ne List.countP_le_length fun heq ↦ ?_
    cases List.countP_eq_length.1 heq none h
  rw [translate_eq]
  refine List.mem_append_right _ (List.mem_replicate.2 ⟨?_, rfl⟩)
  omega

theorem fails_waitFailed : Fails waitFailed := by
  unfold Fails Signals
  decide

/-- A loop whose calls all fail. -/
theorem report_failed {call : χ → ℤ → ℕ × ℤ} (hcall : ∀ c t, (call c t).1 = waitFailed) (k : ℕ) :
    ∀ (timeout : ℤ) (world : ℕ → χ), report call timeout world k = waitFailed := by
  induction k with
  | zero =>
      intro timeout world
      exact hcall _ _
  | succ k ih =>
      intro timeout world
      exact ih _ _

/-- A call ends in one way. -/
theorem ends_unique {call : χ → ℤ → ℕ × ℤ} {answer : ℕ → σ → Option (Outcome R × σ)} {timedOut : R}
    {timeout : ℤ} {s : σ} {world : ℕ → χ} {r r' : Outcome R × σ}
    (h : Ends (fun cs ↦ waitLoop (fun c t s ↦ ((call c t).1, (call c t).2, s)) answer timedOut timeout cs s)
        world r)
    (h' : Ends (fun cs ↦ waitLoop (fun c t s ↦ ((call c t).1, (call c t).2, s)) answer timedOut timeout cs s)
        world r') : r = r' := by
  obtain ⟨-, m, hm, hr⟩ := (ends_iff _ _ _ _ _ _ r).1 h
  obtain ⟨-, n, hn, hr'⟩ := (ends_iff _ _ _ _ _ _ r').1 h'
  exact first_unique hm hr hn hr'

/-- A call for which every answer is a failure ends at once. -/
theorem ends_of_failed {answer : ℕ → σ → Option (Outcome R × σ)} {failure : Outcome R × σ}
    {reported : ℕ → ℕ} {s : σ} (hreported : ∀ k, reported k = waitFailed)
    (hanswer : answer waitFailed s = some failure) (hreturned : failure.1 ≠ .waiting)
    (r : Outcome R × σ) :
    (r.1 ≠ .waiting ∧ ∃ n, (∀ k < n, answer (reported k) s = none) ∧ answer (reported n) s = some r) ↔
      r = failure := by
  simp only [hreported, hanswer]
  constructor
  · rintro ⟨-, -, -, hr⟩
    exact (Option.some.inj hr).symm
  · rintro rfl
    exact ⟨hreturned, 0, fun k hk ↦ absurd hk (Nat.not_lt_zero k), rfl⟩

section Nulls

variable {getWaitable : O → HANDLE} {os : System χ} {objs : List (Option O)}

/-- `wait_any` on an array with a null entry fails. -/
theorem waitAny_of_null
    (hnull : ∀ c handles waitAll timeout, 0 ∈ handles → (os c handles waitAll timeout).1 = waitFailed)
    (hnone : none ∈ objs) (index : ℕ) (duration : ℤ) (world : ℕ → χ)
    (r : Outcome (error × ℕ) × List (Firing O)) :
    Ends (fun cs ↦ (recording getWaitable os).waitAny objs index duration cs []) world r ↔
      r = (.returned (.failure, index), []) := by
  have hzero := (recording getWaitable os).zero_mem_handles hnone
  have hfailure := ((recording getWaitable os).answerAny_failure objs
    ((recording getWaitable os).translate objs).indexes index waitFailed []).2 ⟨fails_waitFailed, rfl, rfl⟩
  exact (waitAny_ends _ _ _ _ _ _ _).trans (ends_of_failed
    (fun k ↦ report_failed (fun c t ↦ hnull c _ false t hzero) k _ world) hfailure nofun r)

/-- `wait` on an array with a null entry fails. -/
theorem wait_of_null
    (hnull : ∀ c handles waitAll timeout, 0 ∈ handles → (os c handles waitAll timeout).1 = waitFailed)
    (hnone : none ∈ objs) (duration : ℤ) (world : ℕ → χ) (r : Outcome error × List (Firing O)) :
    Ends (fun cs ↦ (recording getWaitable os).wait objs duration cs []) world r ↔
      r = (.returned .failure, []) := by
  have hzero := (recording getWaitable os).zero_mem_handles hnone
  have hfailure := ((recording getWaitable os).answerAll_failure objs
    ((recording getWaitable os).translate objs).indexes waitFailed []).2 ⟨fails_waitFailed, rfl⟩
  exact (wait_ends _ _ _ _ _ _).trans (ends_of_failed
    (fun k ↦ report_failed (fun c t ↦ hnull c _ true t hzero) k _ world) hfailure nofun r)

/-- `wait_any` on the compact array fails exactly when it is refused. -/
theorem waitAny_compact_failure (getWaitable : O → HANDLE) (os : System χ) (objs : List (Option O))
    (index : ℕ) (duration : ℤ) (world : ℕ → χ) :
    Ends (fun cs ↦ (recording getWaitable os).waitAny (compact objs) index duration cs []) world
        (.returned (.failure, index), []) ↔ Refused (reports getWaitable os objs false duration world) := by
  refine (waitAny_ends _ _ _ _ _ _ _).trans ((and_iff_right nofun).trans (exists_congr fun n ↦ ?_))
  simp only [answerAny_none, answerAny_failure, and_true, compact, translate_map_some]
  exact .rfl

/-- `wait` on the compact array fails exactly when it is refused. -/
theorem wait_compact_failure (getWaitable : O → HANDLE) (os : System χ) (objs : List (Option O))
    (duration : ℤ) (world : ℕ → χ) :
    Ends (fun cs ↦ (recording getWaitable os).wait (compact objs) duration cs []) world
        (.returned .failure, []) ↔ Refused (reports getWaitable os objs true duration world) := by
  refine (wait_ends _ _ _ _ _ _).trans ((and_iff_right nofun).trans (exists_congr fun n ↦ ?_))
  simp only [answerAll_none, answerAll_failure, and_true, compact, translate_map_some]
  exact .rfl

/-- Without null entries every position stays where it is. -/
theorem position_map_some {objs : List O} {i : ℕ} (hi : i < objs.length) :
    position (objs.map some) i = i := by
  unfold position
  rw [valid_map_some, List.zipIdx_map_snd, ← List.range_eq_range', List.getD_eq_getElem?_getD,
    List.getElem?_range hi]
  rfl

theorem back_fireAt (event : O → σ → σ) (objs : List O) (i : ℕ) (e : error) (s : σ) :
    back (objs.map some) (fireAt event (objs.map some) (List.range objs.length) i e s).1 =
      (fireAt event (objs.map some) (List.range objs.length) i e s).1 := by
  unfold fireAt
  by_cases hi : i < objs.length
  · rw [List.getElem?_range hi]
    dsimp only
    cases fire event (objs.map some) i s with
    | none => rfl
    | some s' =>
        show back (objs.map some) (.returned (e, i)) = .returned (e, i)
        have hposition := position_map_some hi
        cases e with
        | success | closed => exact congrArg (fun j ↦ Outcome.returned (_, j)) hposition
        | _ => rfl
  · have hget : (List.range objs.length)[i]? = none :=
      List.getElem?_eq_none (by rw [List.length_range]; exact Nat.le_of_not_lt hi)
    rw [hget]
    rfl

theorem back_map_some (w : Waiters O σ χ) (objs : List O) {index result : ℕ} {s : σ}
    {r : Outcome (error × ℕ) × σ}
    (hr : w.answerAny (objs.map some) (List.range objs.length) index result s = some r) :
    back (objs.map some) r.1 = r.1 := by
  rw [answerAny_eq] at hr
  rcases decode_some hr with (rfl | rfl) | rfl | ⟨-, rfl⟩
  · exact back_fireAt _ _ _ _ _
  · exact back_fireAt _ _ _ _ _
  · rfl
  · rfl

/-- Without null entries `wait` fires the events of each object once. -/
theorem fires_map_some (getWaitable : O → HANDLE) (os : System χ) (objs : List O) {result : ℕ}
    {r : Outcome error × List (Firing O)}
    (hr : (recording getWaitable os).answerAll (objs.map some) (List.range objs.length) result [] = some r) :
    Fires (objs.map some) r := by
  have hobjects : objects (objs.map some) = objs := objects_map_some objs
  rw [answerAll_eq] at hr
  rcases decode_some hr with (rfl | rfl) | rfl | ⟨-, rfl⟩
  · have hall : fireAll ((recording getWaitable os).onWaitSuccess · .success) (objs.map some)
        (List.range objs.length) [] = some ((objects (objs.map some)).map (⟨·, true, .success⟩)) := by
      rw [hobjects]
      exact fireAll_range (fun obj ↦ (⟨obj, true, .success⟩ : Firing O)) objs
    rw [hall]
    exact .success
  · have hall : fireAll ((recording getWaitable os).onWaitError · .closed) (objs.map some)
        (List.range objs.length) [] = some ((objects (objs.map some)).map (⟨·, false, .closed⟩)) := by
      rw [hobjects]
      exact fireAll_range (fun obj ↦ (⟨obj, false, .closed⟩ : Firing O)) objs
    rw [hall]
    exact .closed
  · exact .timedOut
  · exact .failure

theorem SkipsNulls.of_none_notMem (hnone : none ∉ objs) (index : ℕ) (duration : ℤ) (world : ℕ → χ) :
    SkipsNulls getWaitable os objs index duration world := by
  have hsome : ∀ o ∈ objs, o.isSome = true := by
    intro o ho
    rw [Option.isSome_iff_ne_none]
    rintro rfl
    exact hnone ho
  have hcompact : compact objs = objs := (eq_map_some hsome).symm
  have htranslate := translate_map_some (recording getWaitable os) (objects objs)
  rw [← eq_map_some hsome] at htranslate
  refine ⟨fun r ↦ ?_, fun r ↦ ?_, fun r hr ↦ ?_⟩
  · rw [hcompact]
    have hback : ∀ r', Ends (fun cs ↦ (recording getWaitable os).waitAny objs index duration cs []) world r' →
        back objs r'.1 = r'.1 := by
      intro r' hr'
      obtain ⟨-, n, -, hanswer⟩ := (waitAny_ends _ _ _ _ _ _ _).1 hr'
      rw [htranslate, eq_map_some hsome, objects_map_some] at hanswer
      rw [eq_map_some hsome]
      exact back_map_some _ _ hanswer
    constructor
    · intro hr
      exact ⟨r, hr, by rw [hback r hr]⟩
    · rintro ⟨r', hr', rfl⟩
      rw [hback r' hr']
      exact hr'
  · rw [hcompact]
  · obtain ⟨-, n, -, hanswer⟩ := (wait_ends _ _ _ _ _ _).1 hr
    rw [htranslate, eq_map_some hsome, objects_map_some] at hanswer
    rw [eq_map_some hsome]
    exact fires_map_some getWaitable os _ hanswer

/-- **Null entries are skipped** by both functions exactly when there are none, or the
operating system refuses the objects that are there as well. -/
theorem skipsNulls_iff
    (hnull : ∀ c handles waitAll timeout, 0 ∈ handles → (os c handles waitAll timeout).1 = waitFailed)
    (index : ℕ) (duration : ℤ) (world : ℕ → χ) :
    SkipsNulls getWaitable os objs index duration world ↔ none ∉ objs ∨
      (Refused (reports getWaitable os objs false duration world) ∧
        Refused (reports getWaitable os objs true duration world)) := by
  by_cases hnone : none ∈ objs
  · rw [or_iff_right (not_not.2 hnone), ← waitAny_compact_failure _ _ _ index, ← wait_compact_failure]
    constructor
    · rintro ⟨hany, hall, -⟩
      constructor
      · obtain ⟨⟨r, fired⟩, hr, heq⟩ := (hany _).1 ((waitAny_of_null hnull hnone index duration world _).2 rfl)
        obtain ⟨hr', rfl⟩ := Prod.mk.inj heq
        suffices hsame : r = .returned (.failure, index) by rw [← hsame]; exact hr
        unfold back at hr'
        split at hr'
        · cases hr'
        · cases hr'
        · exact hr'.symm
      · exact (hall _).1 ((wait_of_null hnull hnone duration world _).2 rfl)
    · rintro ⟨hany, hall⟩
      refine ⟨fun r ↦ ?_, fun r ↦ ?_, fun r hr ↦ ?_⟩
      · rw [waitAny_of_null hnull hnone]
        constructor
        · rintro rfl
          exact ⟨_, hany, rfl⟩
        · rintro ⟨r', hr', rfl⟩
          rw [ends_unique hr' hany]
          rfl
      · rw [wait_of_null hnull hnone]
        exact ⟨fun heq ↦ heq ▸ hall, fun hr ↦ ends_unique hr hall⟩
      · rw [(wait_of_null hnull hnone duration world r).1 hr]
        exact .failure
  · exact iff_of_true (.of_none_notMem hnone index duration world) (.inl hnone)

end Nulls

/-- A system that refuses null handles, and otherwise answers what the world says. -/
def refusesNull : System (ℕ × ℤ) := fun c handles _ _ ↦ if 0 ∈ handles then (waitFailed, 0) else c

theorem refusesNull_failed (c : ℕ × ℤ) (handles : List HANDLE) (waitAll : Bool) (timeout : ℤ)
    (h : 0 ∈ handles) : (refusesNull c handles waitAll timeout).1 = waitFailed :=
  congrArg Prod.fst (if_pos h)

/-- Two objects of which the second is signalled, and a null entry before an object whose
handle is not valid. -/
theorem skipsNulls_two :
    SkipsNulls (id : HANDLE → HANDLE) refusesNull [some 4, some 8] 7 0 (fun _ ↦ (waitObject0 + 1, 0)) ∧
      SkipsNulls (id : HANDLE → HANDLE) refusesNull [none, some 4] 7 0 (fun _ ↦ (waitFailed, 0)) := by
  have hrefused : ∀ waitAll, Refused (reports (id : HANDLE → HANDLE) refusesNull [none, some 4] waitAll 0
      fun _ ↦ (waitFailed, 0)) :=
    fun _ ↦ ⟨0, fun k hk ↦ absurd hk (Nat.not_lt_zero k), fails_waitFailed⟩
  constructor
  · exact (skipsNulls_iff refusesNull_failed 7 0 _).2 (.inl (by decide))
  · exact (skipsNulls_iff refusesNull_failed 7 0 _).2 (.inr ⟨hrefused false, hrefused true⟩)

/-- A null entry before an object that is signalled. -/
theorem null_not_skipped :
    ¬ SkipsNulls (id : HANDLE → HANDLE) refusesNull [none, some 4] 7 0 (fun _ ↦ (waitObject0, 0)) := by
  intro h
  have hsuccess : Ends (fun cs ↦ (recording (id : HANDLE → HANDLE) refusesNull).wait
      (compact [none, some 4]) 0 cs []) (fun _ ↦ (waitObject0, 0))
      (.returned .success, [⟨4, true, .success⟩]) := ⟨nofun, 1, by decide⟩
  have hfailure := (wait_of_null refusesNull_failed List.mem_cons_self 0 _ _).1 ((h.all _).2 hsuccess)
  cases hfailure

end Waiters

end Datapath
