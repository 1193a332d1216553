import Datapath.Windows.WaitMany

/-!
# Three ways to wait for one object

An object can be waited for on its own, or as the only entry of an array, for all of which
or for any of which is waited.  The three functions tell the results of the operating system
apart in different ways, by cases or by ranges of numbers, and two of them find the object
by its position.  If the operating system answers alike, all three come to the same
(`waits_agree`), except that `wait_any` reads outside of its list of positions for an object
that has been abandoned.
-/

namespace Datapath

/-- The number that a result has. -/
def WaitResult.code : WaitResult → ℕ
  | .object0 => waitObject0
  | .timeout => waitTimeout
  | .abandoned => waitAbandoned0
  | .ioCompletion => waitIoCompletion
  | .failed => 0xFFFFFFFF

namespace Waiters

variable {O σ χ R : Type*}

/-- An object of an array that is the object of `w`: its listeners are the same, and the
operating system answers a wait for it alone as it answers one for the object. -/
structure Alone (w : Waiter σ χ) (ws : Waiters O σ χ) (obj : O) : Prop where
  call : ∀ c waitAll timeout s, ws.waitForMultipleObjectsEx c [ws.getWaitable obj] waitAll timeout s =
    ((w.waitForSingleObjectEx c timeout s).1.code, (w.waitForSingleObjectEx c timeout s).2)
  success : ws.onWaitSuccess obj = w.onWaitSuccess
  error : ws.onWaitError obj = w.onWaitError

/-- The result of `wait` on an object, as one of `wait` on an array. -/
def outcome : Option error × σ → Outcome error × σ
  | (none, s) => (.waiting, s)
  | (some e, s) => (.returned e, s)

/-- What `wait_any` may come to when `wait` comes to that.  `index` is the caller's variable. -/
def Matches (index : ℕ) : Option error × σ → Outcome (error × ℕ) × σ → Prop
  | (none, s), r => r = (.waiting, s)
  | (some .success, s), r => r = (.returned (.success, 0), s)
  | (some .closed, _), r => r.1 = .undefined
  | (some e, s), r => r = (.returned (e, index), s)

variable {w : Waiter σ χ} {ws : Waiters O σ χ} {obj : O}

/-- **The two loops.**  Answers that match in each round match in the end. -/
theorem waitLoop_matches {call : χ → ℤ → σ → ℕ × ℤ × σ} {answer : ℕ → σ → Option (Outcome R × σ)}
    {timedOut : R} {Q : Option error × σ → Outcome R × σ → Prop}
    (hcall : ∀ c t s, call c t s =
      ((w.waitForSingleObjectEx c t s).1.code, (w.waitForSingleObjectEx c t s).2))
    (hwaiting : ∀ s, Q (none, s) (.waiting, s))
    (hsuccess : ∀ s, ∃ r, answer waitObject0 s = some r ∧ Q (some .success, w.onWaitSuccess .success s) r)
    (htimeout : ∀ s, ∃ r, answer waitTimeout s = some r ∧ Q (some .timedOut, s) r)
    (hclosed : ∀ s, ∃ r, answer waitAbandoned0 s = some r ∧ Q (some .closed, w.onWaitError .closed s) r)
    (hagain : ∀ s, answer waitIoCompletion s = none)
    (hfailure : ∀ s, ∃ r, answer 0xFFFFFFFF s = some r ∧ Q (some .failure, s) r)
    (cs : List χ) : ∀ (t : ℤ) (s : σ), Q (w.waitLoop t cs s) (waitLoop call answer timedOut t cs s) := by
  induction cs with
  | nil =>
      intro t s
      exact hwaiting s
  | cons c cs ih =>
      intro t s
      have hc := hcall c t s
      rcases hr : w.waitForSingleObjectEx c t s with ⟨r, elapsed, s'⟩
      rw [hr] at hc
      cases r with
      | object0 =>
          obtain ⟨r, hans, hq⟩ := hsuccess s'
          simp only [waitLoop, hc, WaitResult.code, hans, Waiter.waitLoop, hr]
          exact hq
      | timeout =>
          obtain ⟨r, hans, hq⟩ := htimeout s'
          simp only [waitLoop, hc, WaitResult.code, hans, Waiter.waitLoop, hr]
          exact hq
      | abandoned =>
          obtain ⟨r, hans, hq⟩ := hclosed s'
          simp only [waitLoop, hc, WaitResult.code, hans, Waiter.waitLoop, hr]
          exact hq
      | failed =>
          obtain ⟨r, hans, hq⟩ := hfailure s'
          simp only [waitLoop, hc, WaitResult.code, hans, Waiter.waitLoop, hr]
          exact hq
      | ioCompletion =>
          have hgo : 0 ≤ if t - Waiter.toMilliseconds elapsed ≤ 0 then 0
              else t - Waiter.toMilliseconds elapsed := by
            split <;> omega
          simp only [waitLoop, hc, WaitResult.code, hagain, Waiter.waitLoop, hr, hgo, if_true]
          exact ih _ s'

/-- For an object alone, waiting for all of an array is waiting for the object. -/
theorem wait_alone (h : Alone w ws obj) (duration : ℤ) (cs : List χ) (s : σ) :
    ws.wait [some obj] duration cs s = outcome (w.wait duration cs s) := by
  refine waitLoop_matches (w := w) (Q := fun r r' ↦ r' = outcome r) (fun c t s ↦ h.call c true t s)
    (fun _ ↦ rfl) (fun s ↦ ⟨_, rfl, ?_⟩) (fun _ ↦ ⟨_, rfl, rfl⟩) (fun s ↦ ⟨_, rfl, ?_⟩) (fun _ ↦ rfl)
    (fun _ ↦ ⟨_, rfl, rfl⟩) cs _ s
  · rw [← h.success]
    rfl
  · rw [← h.error]
    rfl

/-- Waiting for any of it is, unless the object has been abandoned. -/
theorem waitAny_alone (h : Alone w ws obj) (index : ℕ) (duration : ℤ) (cs : List χ) (s : σ) :
    Matches index (w.wait duration cs s) (ws.waitAny [some obj] index duration cs s) := by
  refine waitLoop_matches (w := w) (Q := Matches index) (fun c t s ↦ h.call c false t s)
    (fun _ ↦ rfl) (fun s ↦ ⟨_, rfl, ?_⟩) (fun _ ↦ ⟨_, rfl, rfl⟩)
    (fun s ↦ ⟨(.undefined, s), rfl, rfl⟩) (fun _ ↦ rfl) (fun _ ↦ ⟨_, rfl, rfl⟩) cs _ s
  rw [← h.success]
  rfl

/-- **Three ways to wait for one object.**  Whatever happens while it waits, `wait` on an
array with this object alone returns what `wait` on the object does, after the same calls of
its listeners, and so does `wait_any`, with the position 0 if the object is signalled and the
caller's variable as it was if not; an abandoned object makes `wait_any` undefined. -/
theorem waits_agree (h : Alone w ws obj) (index : ℕ) (duration : ℤ) (cs : List χ) (s : σ) :
    ws.wait [some obj] duration cs s = outcome (w.wait duration cs s) ∧
      Matches index (w.wait duration cs s) (ws.waitAny [some obj] index duration cs s) :=
  ⟨wait_alone h duration cs s, waitAny_alone h index duration cs s⟩

/-- An object that counts the calls of its listeners, on its own and in an array. -/
def counting : Waiter ℕ WaitResult where
  waitForSingleObjectEx c _ s := (c, 2000000, s)
  onWaitSuccess _ s := s + 1
  onWaitError _ s := s

/-- The array of this object. -/
def countings : Waiters Unit ℕ WaitResult where
  getWaitable _ := 4
  waitForMultipleObjectsEx c _ _ _ s := (c.code, 2000000, s)
  onWaitSuccess _ _ s := s + 1
  onWaitError _ _ s := s

/-- An interrupted wait, and then the object is signalled. -/
theorem waits_agree_interrupted :
    (counting.wait 5000000 [.ioCompletion, .object0] 0).1 = some .success ∧
      countings.wait [some ()] 5000000 [.ioCompletion, .object0] 0 =
        outcome (counting.wait 5000000 [.ioCompletion, .object0] 0) ∧
      Matches 7 (counting.wait 5000000 [.ioCompletion, .object0] 0)
        (countings.waitAny [some ()] 7 5000000 [.ioCompletion, .object0] 0) :=
  ⟨by decide, waits_agree ⟨fun _ _ _ _ ↦ rfl, rfl, rfl⟩ 7 5000000 _ 0⟩

end Waiters

end Datapath
