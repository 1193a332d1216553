import Datapath.Interface
import Mathlib.Data.Int.Basic

/-!
# Waiting for one object

`waitable::wait` calls `WaitForSingleObjectEx` in an alertable state.  Completion
routines of the calling thread run inside that call, which then reports
`WAIT_IO_COMPLETION`; the loop subtracts the time that passed and waits again,
until the object is signalled, the time is up or the wait fails.

The operating system is a parameter here: `Waiter` says how one call to it
answers and changes the state, given what the outside world does meanwhile (`χ`),
and what the two events of the object do.  `waitLoop_rule` is the one fact about
`wait` that the rest of the development uses.
-/

namespace Datapath

/-- What `WaitForSingleObjectEx` returns. -/
inductive WaitResult where
  | object0
  | timeout
  | abandoned
  | ioCompletion
  | failed
deriving DecidableEq, Repr

/-- A waitable object in a world whose state is `σ`. -/
structure Waiter (σ χ : Type*) where
  /-- One call: its result, the nanoseconds that passed in it, the state after it. -/
  waitForSingleObjectEx : χ → ℤ → σ → WaitResult × ℤ × σ
  /-- The listeners of `_on_wait_success`. -/
  onWaitSuccess : error → σ → σ
  /-- The listeners of `_on_wait_error`. -/
  onWaitError : error → σ → σ

namespace Waiter

variable {σ χ : Type*}

/-- `duration_cast<milliseconds>`, which rounds towards zero. -/
def toMilliseconds (duration : ℤ) : ℤ := duration.tdiv 1000000

/-- `numeric_limits<int32_t>::max()`. -/
def int32Max : ℤ := 2147483647

def clampTimeout (timeout : ℤ) : ℤ :=
  if timeout < 0 then 0 else if int32Max < timeout then int32Max else timeout

/-- The loop of `waitable::wait`, fed with what the outside world does in each
call.  The result is `none` while the function has not returned. -/
def waitLoop (w : Waiter σ χ) : ℤ → List χ → σ → Option error × σ
  | _, [], s => (none, s)
  | timeout, c :: cs, s =>
      match w.waitForSingleObjectEx c timeout s with
      | (.object0, _, s) => (some .success, w.onWaitSuccess .success s)
      | (.timeout, _, s) => (some .timedOut, s)
      | (.abandoned, _, s) => (some .closed, w.onWaitError .closed s)
      | (.ioCompletion, elapsed, s) =>
          let timeout := timeout - toMilliseconds elapsed
          let timeout := if timeout ≤ 0 then 0 else timeout
          if 0 ≤ timeout then waitLoop w timeout cs s else (some .timedOut, s)
      | (.failed, _, s) => (some .failure, s)

/-- `waitable::wait` on one object. -/
def wait (w : Waiter σ χ) (duration : ℤ) (cs : List χ) (s : σ) : Option error × σ :=
  waitLoop w (clampTimeout (toMilliseconds duration)) cs s

/-- The timeout stays non-negative, so an interrupted wait is always resumed. -/
theorem waitLoop_ioCompletion (w : Waiter σ χ) (timeout elapsed : ℤ) (c : χ) (cs : List χ) (s s' : σ)
    (h : w.waitForSingleObjectEx c timeout s = (.ioCompletion, elapsed, s')) :
    ∃ timeout', waitLoop w timeout (c :: cs) s = waitLoop w timeout' cs s' := by
  refine ⟨if timeout - toMilliseconds elapsed ≤ 0 then 0 else timeout - toMilliseconds elapsed, ?_⟩
  simp only [waitLoop, h]
  rw [if_pos (by split <;> omega)]

/-- What a proof about `wait` owes after one call of the operating system that
answered `r` and left the state `s`: after an interruption the invariant `I`, and
otherwise the postcondition `R` of the result the function returns with. -/
def Owes (w : Waiter σ χ) (I : σ → Prop) (R : error → σ → Prop) : WaitResult → σ → Prop
  | .object0, s => R .success (w.onWaitSuccess .success s)
  | .timeout, s => R .timedOut s
  | .abandoned, s => R .closed (w.onWaitError .closed s)
  | .ioCompletion, s => I s
  | .failed, s => R .failure s

/-- **The rule for `wait`.**  If every call made in a state that satisfies `I`
pays what it `Owes`, then from such a state the function is either still waiting
in a state that satisfies `I`, or has returned in a way that satisfies `R`. -/
theorem waitLoop_rule (w : Waiter σ χ) {A : χ → Prop} {I : σ → Prop} {R : error → σ → Prop}
    (hcall : ∀ c t s, A c → I s →
      w.Owes I R (w.waitForSingleObjectEx c t s).1 (w.waitForSingleObjectEx c t s).2.2)
    (timeout : ℤ) (cs : List χ) (hcs : ∀ c ∈ cs, A c) {s : σ} (hs : I s) :
    (∃ s', waitLoop w timeout cs s = (none, s') ∧ I s') ∨
      ∃ r s', waitLoop w timeout cs s = (some r, s') ∧ R r s' := by
  induction cs generalizing timeout s with
  | nil => exact .inl ⟨s, rfl, hs⟩
  | cons c cs ih =>
      obtain ⟨hc, hcs⟩ := List.forall_mem_cons.1 hcs
      have howes := hcall c timeout s hc hs
      rcases hr : w.waitForSingleObjectEx c timeout s with ⟨r, e, s'⟩
      rw [hr] at howes
      cases r with
      | object0 => exact .inr ⟨_, _, by simp only [waitLoop, hr], howes⟩
      | timeout => exact .inr ⟨_, _, by simp only [waitLoop, hr], howes⟩
      | abandoned => exact .inr ⟨_, _, by simp only [waitLoop, hr], howes⟩
      | failed => exact .inr ⟨_, _, by simp only [waitLoop, hr], howes⟩
      | ioCompletion =>
          obtain ⟨timeout', ht⟩ := waitLoop_ioCompletion w timeout e c cs s s' hr
          rw [ht]
          exact ih timeout' hcs howes

/-! ## Notes -/

/-- The same object, with notes: of each call, by its timeout and the time that passes in
it, and of the states in which `_on_wait_success` is called. -/
def noting {A : Type*} (w : Waiter σ χ) (call : ℤ → ℤ → List A) (success : σ → List A) :
    Waiter (σ × List A) χ where
  waitForSingleObjectEx c timeout s :=
    let r := w.waitForSingleObjectEx c timeout s.1
    (r.1, r.2.1, r.2.2, s.2 ++ call timeout r.2.1)
  onWaitSuccess ec s := (w.onWaitSuccess ec s.1, s.2 ++ success s.1)
  onWaitError ec s := (w.onWaitError ec s.1, s.2)

/-- Notes change nothing. -/
theorem waitLoop_noting {A : Type*} (w : Waiter σ χ) (call : ℤ → ℤ → List A) (success : σ → List A)
    (cs : List χ) : ∀ (timeout : ℤ) (s : σ) (notes : List A),
      ((w.noting call success).waitLoop timeout cs (s, notes)).1 = (w.waitLoop timeout cs s).1 ∧
        ((w.noting call success).waitLoop timeout cs (s, notes)).2.1 = (w.waitLoop timeout cs s).2 := by
  induction cs with
  | nil =>
      intro timeout s notes
      exact ⟨rfl, rfl⟩
  | cons c cs ih =>
      intro timeout s notes
      rcases hcall : w.waitForSingleObjectEx c timeout s with ⟨r, elapsed, s'⟩
      cases r with
      | ioCompletion =>
          have hgo : 0 ≤ if timeout - toMilliseconds elapsed ≤ 0 then 0
              else timeout - toMilliseconds elapsed := by
            split <;> omega
          simp only [waitLoop, hcall, noting, if_pos hgo]
          exact ih _ _ _
      | object0 | timeout | abandoned | failed =>
          simp only [waitLoop, hcall, noting, and_self]

end Waiter

end Datapath
