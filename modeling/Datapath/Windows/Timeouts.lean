import Datapath.Windows.Deadline

/-!
# The timeouts of a timed wait

The three wait functions keep their timeout in 64 bits and convert it to a `DWORD` for each
call of the operating system, for which −1 would be `INFINITE`.  Here every call is
recorded, with the time that passes in it.  Recording changes nothing else
(`wait_timed` and `waitAny_timed`), and what is recorded is a countdown, which stays where
the conversion and the subtraction are exact (`never_infinite`).
-/

namespace Datapath

/-- A call of the operating system: the timeout, before its conversion, and the nanoseconds
that pass. -/
structure TimedCall where
  timeout : ℤ
  elapsed : ℤ
deriving DecidableEq, Repr

/-- `DWORD(timeout)`. -/
def dword (timeout : ℤ) : ℕ := (timeout % 2 ^ 32).toNat

/-- `INFINITE`. -/
def infinite : ℕ := 0xFFFFFFFF

/-- The values of `int64_t`. -/
def InInt64 (n : ℤ) : Prop := -2 ^ 63 ≤ n ∧ n < 2 ^ 63

/-- A time that passes, in 64 bits. -/
def Elapses (elapsed : ℤ) : Prop := 0 ≤ elapsed ∧ elapsed < 2 ^ 63

/-! ## Countdowns -/

/-- The timeout after an interruption. -/
def remaining (timeout elapsed : ℤ) : ℤ :=
  let timeout := timeout - Waiter.toMilliseconds elapsed
  if timeout ≤ 0 then 0 else timeout

/-- Calls one after the other, the first of them with this timeout. -/
inductive Countdown : ℤ → List TimedCall → Prop
  | nil (timeout : ℤ) : Countdown timeout []
  | cons {timeout elapsed : ℤ} {calls : List TimedCall} :
      Elapses elapsed → Countdown (remaining timeout elapsed) calls →
        Countdown timeout (⟨timeout, elapsed⟩ :: calls)

/-- None of these calls waits forever: each is given the timeout as it is in 64 bits, from
the range of an `int32_t`, and no timeout is longer than one before it.  To subtract the
time that has passed does not overflow. -/
structure Limited (calls : List TimedCall) : Prop where
  range : ∀ c ∈ calls, 0 ≤ c.timeout ∧ c.timeout ≤ Waiter.int32Max
  exact : ∀ c ∈ calls, (dword c.timeout : ℤ) = c.timeout
  finite : ∀ c ∈ calls, dword c.timeout ≠ infinite
  antitone : calls.Pairwise fun c c' ↦ c'.timeout ≤ c.timeout
  difference : ∀ c ∈ calls, InInt64 (c.timeout - Waiter.toMilliseconds c.elapsed)

theorem toMilliseconds_nonneg {elapsed : ℤ} (h : Elapses elapsed) : 0 ≤ Waiter.toMilliseconds elapsed :=
  Int.tdiv_nonneg h.1 (by decide)

theorem toMilliseconds_lt {elapsed : ℤ} (h : Elapses elapsed) : Waiter.toMilliseconds elapsed < 2 ^ 63 := by
  unfold Waiter.toMilliseconds
  rw [Int.tdiv_eq_ediv_of_nonneg h.1]
  exact Int.lt_of_le_of_lt (Int.ediv_le_self _ h.1) h.2

theorem remaining_nonneg (timeout elapsed : ℤ) : 0 ≤ remaining timeout elapsed := by
  unfold remaining
  dsimp only
  split <;> omega

theorem remaining_le {timeout elapsed : ℤ} (h : Elapses elapsed) (htimeout : 0 ≤ timeout) :
    remaining timeout elapsed ≤ timeout := by
  have hpassed := toMilliseconds_nonneg h
  unfold remaining
  dsimp only
  split <;> omega

theorem clampTimeout_range (timeout : ℤ) :
    0 ≤ Waiter.clampTimeout timeout ∧ Waiter.clampTimeout timeout ≤ Waiter.int32Max := by
  unfold Waiter.clampTimeout Waiter.int32Max
  split
  · decide
  · split <;> omega

namespace Countdown

variable {timeout : ℤ} {calls : List TimedCall}

/-- A countdown does not go up, and not below zero. -/
theorem range (h : Countdown timeout calls) (htimeout : 0 ≤ timeout) :
    ∀ c ∈ calls, Elapses c.elapsed ∧ 0 ≤ c.timeout ∧ c.timeout ≤ timeout := by
  induction h with
  | nil => exact List.forall_mem_nil _
  | @cons timeout elapsed calls helapses _ ih =>
      refine List.forall_mem_cons.2 ⟨⟨helapses, htimeout, le_rfl⟩, fun c hc ↦ ?_⟩
      obtain ⟨hc₁, hc₂, hc₃⟩ := ih (remaining_nonneg _ _) c hc
      exact ⟨hc₁, hc₂, hc₃.trans (remaining_le helapses htimeout)⟩

theorem antitone (h : Countdown timeout calls) (htimeout : 0 ≤ timeout) :
    calls.Pairwise fun c c' ↦ c'.timeout ≤ c.timeout := by
  induction h with
  | nil => exact List.Pairwise.nil
  | @cons timeout elapsed calls helapses hrest ih =>
      refine List.pairwise_cons.2 ⟨fun c hc ↦ ?_, ih (remaining_nonneg _ _)⟩
      obtain ⟨-, -, hle⟩ := hrest.range (remaining_nonneg _ _) c hc
      exact hle.trans (remaining_le helapses htimeout)

/-- A countdown that begins in the range of the clamp is limited. -/
theorem limited (h : Countdown timeout calls) (hrange : 0 ≤ timeout ∧ timeout ≤ Waiter.int32Max) :
    Limited calls := by
  have hcalls : ∀ c ∈ calls, 0 ≤ c.timeout ∧ c.timeout ≤ Waiter.int32Max := by
    intro c hc
    obtain ⟨-, hpos, hle⟩ := h.range hrange.1 c hc
    exact ⟨hpos, hle.trans hrange.2⟩
  have hexact : ∀ c ∈ calls, (dword c.timeout : ℤ) = c.timeout := by
    intro c hc
    obtain ⟨hpos, hle⟩ := hcalls c hc
    have hlt : c.timeout < 2 ^ 32 := hle.trans_lt (by decide)
    rw [dword, Int.emod_eq_of_lt hpos hlt]
    exact Int.toNat_of_nonneg hpos
  refine ⟨hcalls, hexact, fun c hc hinfinite ↦ ?_, h.antitone hrange.1, fun c hc ↦ ?_⟩
  · have hle := (hcalls c hc).2
    rw [← hexact c hc, hinfinite] at hle
    exact absurd hle (by decide)
  · obtain ⟨helapses, -, -⟩ := h.range hrange.1 c hc
    obtain ⟨hpos, hle⟩ := hcalls c hc
    have hpassed := toMilliseconds_nonneg helapses
    have hbound := toMilliseconds_lt helapses
    unfold Waiter.int32Max at hle
    unfold InInt64
    omega

end Countdown

/-! ## One object -/

namespace Waiter

variable {σ χ : Type*}

/-- The same with its calls recorded. -/
def timed (w : Waiter σ χ) : Waiter (σ × List TimedCall) χ :=
  w.noting (fun timeout elapsed ↦ [⟨timeout, elapsed⟩]) fun _ ↦ []

theorem waitLoop_timed (w : Waiter σ χ) (cs : List χ)
    (helapses : ∀ c ∈ cs, ∀ t s, Elapses (w.waitForSingleObjectEx c t s).2.1) :
    ∀ (timeout : ℤ) (s : σ) (before : List TimedCall), ∃ calls, Countdown timeout calls ∧
      (w.timed.waitLoop timeout cs (s, before)).2.2 = before ++ calls := by
  induction cs with
  | nil =>
      intro timeout s before
      exact ⟨[], .nil timeout, (List.append_nil before).symm⟩
  | cons c cs ih =>
      intro timeout s before
      obtain ⟨hfirst, hrest⟩ := List.forall_mem_cons.1 helapses
      rcases hcall : w.waitForSingleObjectEx c timeout s with ⟨r, elapsed, s'⟩
      have he : Elapses elapsed := by
        have h := hfirst timeout s
        rwa [hcall] at h
      cases r with
      | ioCompletion =>
          obtain ⟨calls, hcount, hloop⟩ := ih hrest (remaining timeout elapsed) s'
            (before ++ [⟨timeout, elapsed⟩])
          refine ⟨⟨timeout, elapsed⟩ :: calls, .cons he hcount, ?_⟩
          have hgo : 0 ≤ if timeout - toMilliseconds elapsed ≤ 0 then 0
              else timeout - toMilliseconds elapsed := remaining_nonneg timeout elapsed
          rw [List.append_cons, ← hloop]
          simp only [waitLoop, timed, noting, hcall, if_pos hgo]
          rfl
      | object0 | timeout | abandoned | failed =>
          refine ⟨[⟨timeout, elapsed⟩], .cons he (.nil _), ?_⟩
          simp only [waitLoop, timed, noting, hcall, List.append_nil]

/-- Recording changes nothing, and what is recorded is limited. -/
theorem wait_timed (w : Waiter σ χ) (duration : ℤ) {cs : List χ}
    (helapses : ∀ c ∈ cs, ∀ t s, Elapses (w.waitForSingleObjectEx c t s).2.1) (s : σ) :
    ∃ calls, Limited calls ∧ w.timed.wait duration cs (s, []) =
      ((w.wait duration cs s).1, (w.wait duration cs s).2, calls) := by
  obtain ⟨calls, hcount, hloop⟩ := w.waitLoop_timed cs helapses (clampTimeout (toMilliseconds duration)) s []
  obtain ⟨hresult, hstate⟩ := w.waitLoop_noting (fun timeout elapsed ↦ [TimedCall.mk timeout elapsed])
    (fun _ ↦ []) cs (clampTimeout (toMilliseconds duration)) s []
  exact ⟨calls, hcount.limited (clampTimeout_range _), Prod.ext hresult (Prod.ext hstate hloop)⟩

end Waiter

/-! ## Many objects -/

namespace Waiters

variable {O σ χ R : Type*}

/-- A call whose timeout and time are recorded. -/
def timedCall (call : χ → ℤ → σ → ℕ × ℤ × σ) (c : χ) (timeout : ℤ) (s : σ × List TimedCall) :
    ℕ × ℤ × σ × List TimedCall :=
  let r := call c timeout s.1
  (r.1, r.2.1, r.2.2, s.2 ++ [⟨timeout, r.2.1⟩])

/-- The same with its calls recorded. -/
def timed (w : Waiters O σ χ) : Waiters O (σ × List TimedCall) χ where
  getWaitable := w.getWaitable
  waitForMultipleObjectsEx c handles waitAll := timedCall (w.waitForMultipleObjectsEx · handles waitAll) c
  onWaitSuccess obj ec s := (w.onWaitSuccess obj ec s.1, s.2)
  onWaitError obj ec s := (w.onWaitError obj ec s.1, s.2)

/-- What a call of the function ends with, beside a record. -/
def beside (calls : List TimedCall) (r : Outcome R × σ) : Outcome R × σ × List TimedCall :=
  (r.1, r.2, calls)

/-! ### Answers -/

section Answers

variable (event : O → σ → σ) (objs : List (Option O)) (s : σ) (calls : List TimedCall)

theorem fire_timed (idx : ℕ) :
    fire (fun obj (s : σ × List TimedCall) ↦ (event obj s.1, s.2)) objs idx (s, calls) =
      (fire event objs idx s).map (·, calls) := by
  unfold fire
  split <;> rfl

theorem fireAll_timed (idxs : List ℕ) : ∀ s : σ,
    fireAll (fun obj (s : σ × List TimedCall) ↦ (event obj s.1, s.2)) objs idxs (s, calls) =
      (fireAll event objs idxs s).map (·, calls) := by
  induction idxs with
  | nil =>
      intro s
      rfl
  | cons idx idxs ih =>
      intro s
      rw [fireAll, fireAll, fire_timed]
      cases fire event objs idx s with
      | none => rfl
      | some s' => exact ih s'

theorem return_timed (r : R) (after : Option σ) :
    return_ r (s, calls) (after.map (·, calls)) = beside calls (return_ r s after) := by
  cases after with
  | none => rfl
  | some s' => rfl

theorem fireAt_timed (indexes : List ℕ) (i : ℕ) (e : error) :
    fireAt (fun obj (s : σ × List TimedCall) ↦ (event obj s.1, s.2)) objs indexes i e (s, calls) =
      beside calls (fireAt event objs indexes i e s) := by
  unfold fireAt
  cases indexes[i]? with
  | none => rfl
  | some idx =>
      dsimp only
      rw [fire_timed, return_timed]

theorem decode_map {A B : Type*} (f : A → B) (result : ℕ) (success closed timedOut failure : A) :
    decode result (f success) (f closed) (f timedOut) (f failure) =
      (decode result success closed timedOut failure).map f := by
  unfold decode
  simp only [apply_ite (Option.map f), Option.map_some, Option.map_none]

variable (w : Waiters O σ χ)

theorem answerAll_timed (indexes : List ℕ) (result : ℕ) :
    w.timed.answerAll objs indexes result (s, calls) =
      (w.answerAll objs indexes result s).map (beside calls) := by
  rw [answerAll_eq, answerAll_eq, ← decode_map, ← return_timed, ← return_timed, ← fireAll_timed,
    ← fireAll_timed]
  rfl

theorem answerAny_timed (indexes : List ℕ) (index result : ℕ) :
    w.timed.answerAny objs indexes index result (s, calls) =
      (w.answerAny objs indexes index result s).map (beside calls) := by
  rw [answerAny_eq, answerAny_eq, ← decode_map, ← fireAt_timed, ← fireAt_timed]
  rfl

end Answers

/-! ### The loop -/

theorem waitLoop_timed {call : χ → ℤ → σ → ℕ × ℤ × σ} {answer : ℕ → σ → Option (Outcome R × σ)}
    {answer' : ℕ → σ × List TimedCall → Option (Outcome R × σ × List TimedCall)}
    (hanswer : ∀ result s calls, answer' result (s, calls) = (answer result s).map (beside calls))
    (timedOut : R) (cs : List χ) (helapses : ∀ c ∈ cs, ∀ t s, Elapses (call c t s).2.1) :
    ∀ (timeout : ℤ) (s : σ) (before : List TimedCall), ∃ calls, Countdown timeout calls ∧
      waitLoop (timedCall call) answer' timedOut timeout cs (s, before) =
        beside (before ++ calls) (waitLoop call answer timedOut timeout cs s) := by
  induction cs with
  | nil =>
      intro timeout s before
      exact ⟨[], .nil timeout, by rw [List.append_nil]; rfl⟩
  | cons c cs ih =>
      intro timeout s before
      obtain ⟨hfirst, hrest⟩ := List.forall_mem_cons.1 helapses
      rcases hcall : call c timeout s with ⟨result, elapsed, s'⟩
      have he : Elapses elapsed := by
        have h := hfirst timeout s
        rwa [hcall] at h
      have htimed : timedCall call c timeout (s, before) =
          (result, elapsed, s', before ++ [⟨timeout, elapsed⟩]) := by
        simp only [timedCall, hcall]
      rw [waitLoop, waitLoop, hcall, htimed]
      dsimp only
      rw [hanswer]
      cases answer result s' with
      | some r => exact ⟨[⟨timeout, elapsed⟩], .cons he (.nil _), rfl⟩
      | none =>
          obtain ⟨calls, hcount, hloop⟩ := ih hrest (remaining timeout elapsed) s'
            (before ++ [⟨timeout, elapsed⟩])
          refine ⟨⟨timeout, elapsed⟩ :: calls, .cons he hcount, ?_⟩
          have hgo := remaining_nonneg timeout elapsed
          unfold remaining at hgo hloop
          dsimp only [Option.map_none] at hgo hloop ⊢
          rw [if_pos hgo, if_pos hgo, hloop, List.append_assoc]
          rfl

variable (w : Waiters O σ χ) (objs : List (Option O)) (duration : ℤ) {cs : List χ}
  (helapses : ∀ c ∈ cs, ∀ handles waitAll t s,
    Elapses (w.waitForMultipleObjectsEx c handles waitAll t s).2.1) (s : σ)

include helapses

theorem wait_timed : ∃ calls, Limited calls ∧ w.timed.wait objs duration cs (s, []) =
    beside calls (w.wait objs duration cs s) := by
  obtain ⟨calls, hcount, hloop⟩ := waitLoop_timed
    (fun result s calls ↦ w.answerAll_timed objs s calls (w.translate objs).indexes result) .timedOut cs
    (fun c hc t s ↦ helapses c hc (w.translate objs).handles true t s)
    (Waiter.clampTimeout (Waiter.toMilliseconds duration)) s []
  exact ⟨calls, hcount.limited (clampTimeout_range _), hloop⟩

theorem waitAny_timed (index : ℕ) : ∃ calls, Limited calls ∧
    w.timed.waitAny objs index duration cs (s, []) = beside calls (w.waitAny objs index duration cs s) := by
  obtain ⟨calls, hcount, hloop⟩ := waitLoop_timed
    (fun result s calls ↦ w.answerAny_timed objs s calls (w.translate objs).indexes index result)
    (.timedOut, index) cs (fun c hc t s ↦ helapses c hc (w.translate objs).handles false t s)
    (Waiter.clampTimeout (Waiter.toMilliseconds duration)) s []
  exact ⟨calls, hcount.limited (clampTimeout_range _), hloop⟩

end Waiters

/-! ## The three functions -/

/-- **A timed wait is never an infinite one.**  Whatever the duration, the operating system
and the objects are, the timeouts of the calls of each of the three functions are limited. -/
theorem never_infinite {O σ τ χ ψ : Type*} (w : Waiter σ χ) (ws : Waiters O τ ψ)
    (objs : List (Option O)) (index : ℕ) (duration : ℤ) {one : List χ} {many : List ψ}
    (hone : ∀ c ∈ one, ∀ timeout s, Elapses (w.waitForSingleObjectEx c timeout s).2.1)
    (hmany : ∀ c ∈ many, ∀ handles waitAll timeout s,
      Elapses (ws.waitForMultipleObjectsEx c handles waitAll timeout s).2.1) (s : σ) (s' : τ) :
    Limited (w.timed.wait duration one (s, [])).2.2 ∧
      Limited (ws.timed.wait objs duration many (s', [])).2.2 ∧
      Limited (ws.timed.waitAny objs index duration many (s', [])).2.2 := by
  obtain ⟨calls, hlimited, hwait⟩ := w.wait_timed duration hone s
  obtain ⟨callsAll, hlimitedAll, hall⟩ := ws.wait_timed objs duration hmany s'
  obtain ⟨callsAny, hlimitedAny, hany⟩ := ws.waitAny_timed objs duration hmany s' index
  rw [hwait, hall, hany]
  exact ⟨hlimited, hlimitedAll, hlimitedAny⟩

/-- The longest wait, interrupted after a millisecond and a half, and after a month. -/
theorem never_infinite_longest : ∃ calls callsAll callsAny : List TimedCall,
    (lonely.timed.wait (2 ^ 63 - 1)
        [(.ioCompletion, 1500000), (.ioCompletion, 2678400000000000), (.timeout, 0)]
        ((), [])).2.2 = calls ∧
      (lonelies.timed.wait [some ()] (2 ^ 63 - 1)
        [(waitIoCompletion, 1500000), (waitIoCompletion, 2678400000000000), (waitTimeout, 0)]
        ((), [])).2.2 = callsAll ∧
      (lonelies.timed.waitAny [some ()] 0 (2 ^ 63 - 1)
        [(waitIoCompletion, 1500000), (waitIoCompletion, 2678400000000000), (waitTimeout, 0)]
        ((), [])).2.2 = callsAny ∧
      calls.map TimedCall.timeout = [2147483647, 2147483646, 0] ∧
      callsAll.map TimedCall.timeout = [2147483647, 2147483646, 0] ∧
      callsAny.map TimedCall.timeout = [2147483647, 2147483646, 0] ∧
      Limited calls ∧ Limited callsAll ∧ Limited callsAny :=
  ⟨_, _, _, rfl, rfl, rfl, by decide, by decide, by decide,
    never_infinite lonely lonelies [some ()] 0 (2 ^ 63 - 1)
      (by simp [lonely, Waiter.scripted, Elapses]) (by simp [lonelies, Waiters.scripted, Elapses])
      () ()⟩

end Datapath
