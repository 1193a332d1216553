import Datapath.Windows.SelfJoin

/-!
# A `Closed` that is lost

A round of the loop of a socket waits for its read once, and a second time if the first
wait did not succeed; only what the last wait returns is looked at.  A wait that returns
`Closed` has called `_on_wait_error`, which resets `waitable`.  So the second wait of such
a round goes through a null pointer, and `_disconnect` is not called
(`keepsClosed_iff`).
-/

namespace Datapath.Windows

/-- The wait goes on after this. -/
def WaitEvent.interrupts : WaitEvent → Bool
  | .completion .. | .interruption _ => true
  | .signal | .timeout | .abandoned | .failed => false

/-- What the outside world does when the wait is over. -/
def answer? (events : List WaitEvent) : Option WaitEvent := events.find? fun e ↦ !e.interrupts

namespace Reader

variable {w : Reader} {i : Iteration}

/-! ## One wait -/

/-- A wait returns `Closed` exactly when the object is reported as abandoned. -/
theorem waitLoop_closed_iff (reply : ReadReply) (ov : Overlapped) (events : List WaitEvent) :
    ∀ (timeout : ℤ) (w : Reader), ((waiter reply ov).waitLoop timeout events w).1 = some .closed ↔
      answer? events = some .abandoned := by
  induction events with
  | nil =>
      intro timeout w
      exact iff_of_false (Option.some_ne_none _).symm (Option.some_ne_none _).symm
  | cons e events ih =>
      intro timeout w
      -- An interrupted wait is resumed.
      have hresumed : ∀ {elapsed : ℤ} {s : Reader}, e.interrupts = true →
          (waiter reply ov).waitForSingleObjectEx e timeout w = (.ioCompletion, elapsed, s) →
          (((waiter reply ov).waitLoop timeout (e :: events) w).1 = some .closed ↔
            answer? (e :: events) = some .abandoned) := by
        intro elapsed s he hcall
        obtain ⟨timeout', hloop⟩ := (waiter reply ov).waitLoop_ioCompletion timeout elapsed e events w s hcall
        have hskip : answer? (e :: events) = answer? events := List.find?_cons_of_neg (by simp [he])
        rw [hloop, hskip]
        exact ih timeout' s
      cases e with
      | completion elapsed code bytes => exact hresumed rfl rfl
      | interruption elapsed => exact hresumed rfl rfl
      | signal =>
          cases hsignalled : w.signalled ov with
          | true => simp [Waiter.waitLoop, waiter, hsignalled, answer?, WaitEvent.interrupts]
          | false => simp [Waiter.waitLoop, waiter, hsignalled, answer?, WaitEvent.interrupts]
      | timeout => exact iff_of_false (by rintro ⟨⟩) (by rintro ⟨⟩)
      | abandoned => exact iff_of_true rfl rfl
      | failed => exact iff_of_false (by rintro ⟨⟩) (by rintro ⟨⟩)

/-- How a wait ends: one that runs out or fails leaves `waitable` as it was, and one that
returns `Closed` has reset it. -/
theorem wait_cases (w : Reader) (reply : ReadReply) (ov : Overlapped) (d : ℤ) (events : List WaitEvent) :
    ((waiter reply ov).wait d events w).1 = none ∨
      ((waiter reply ov).wait d events w).1 = some .success ∨
      ((((waiter reply ov).wait d events w).1 = some .timedOut ∨
          ((waiter reply ov).wait d events w).1 = some .failure) ∧
        ((waiter reply ov).wait d events w).2.waitable = w.waitable) ∨
      (((waiter reply ov).wait d events w).1 = some .closed ∧
        ((waiter reply ov).wait d events w).2.waitable = none) := by
  have hcomplete : ∀ (s : Reader) code bytes, s.waitable = w.waitable →
      (s.complete code bytes).waitable = w.waitable := fun s code bytes hs ↦
    (complete_waitable s code bytes).trans hs
  rcases wait_rule reply ov (A := fun _ ↦ True) (I := fun s ↦ s.waitable = w.waitable)
    (R := fun r s ↦ r = .success ∨ ((r = .timedOut ∨ r = .failure) ∧ s.waitable = w.waitable) ∨
      (r = .closed ∧ s.waitable = none)) hcomplete (fun _ _ _ ↦ .inl rfl)
    (fun _ hs ↦ ⟨.inr (.inl ⟨.inl rfl, hs⟩), .inr (.inl ⟨.inr rfl, hs⟩)⟩)
    (fun _ _ _ ↦ .inr (.inr ⟨rfl, rfl⟩)) d events (fun _ _ ↦ trivial) rfl
    with ⟨s, hs, -⟩ | ⟨r, s, hs, rfl | ⟨hr, hsame⟩ | ⟨rfl, hreset⟩⟩
  · rw [hs]
    exact .inl rfl
  · rw [hs]
    exact .inr (.inl rfl)
  · rw [hs]
    exact .inr (.inr (.inl ⟨hr.imp (congrArg some) (congrArg some), hsame⟩))
  · rw [hs]
    exact .inr (.inr (.inr ⟨rfl, hreset⟩))

/-! ## One round -/

/-- The wait of a round that comes first returns `Closed`. -/
def firstCloses (w : Reader) (i : Iteration) : Bool :=
  match w.waitable with
  | none => false
  | some ov => ((waiter i.content ov).wait 0 i.first w).1 = some .closed

/-- A wait of the round returns `Closed`. -/
def ReturnsClosed (w : Reader) (i : Iteration) : Prop :=
  w.Running ∧ ((w.advance i).firstCloses i = true ∨ (w.advance i).awaitsClosed i = true)

/-- A round that waits through no null pointer and does not lose a `Closed`. -/
structure KeepsClosed (w : Reader) (i : Iteration) : Prop where
  defined : (w.iterate i).stopped ≠ some .nullWaitable
  disconnects : w.ReturnsClosed i → ∃ w' : Reader, w.iterate i = w'.disconnect

/-- A read is under way when the round begins, or is started by it. -/
def HasRead (w : Reader) (i : Iteration) : Prop :=
  match w.state with
  | .unknown => i.header = .started
  | .header | .content => w.waitable.isSome = true

/-- The first wait of the round finds its object abandoned. -/
def AbandonsFirst (w : Reader) (i : Iteration) : Prop :=
  w.Running ∧ w.HasRead i ∧ answer? i.first = some .abandoned

theorem advance_waitable (w : Reader) (i : Iteration) :
    (w.advance i).waitable.isSome = true ↔ w.HasRead i := by
  unfold advance HasRead
  cases w.state with
  | unknown =>
      cases i.header with
      | started => exact ⟨fun _ ↦ rfl, fun _ ↦ rfl⟩
      | refused code => exact ⟨nofun, nofun⟩
  | header => exact .rfl
  | content =>
      cases hw : w.waitable with
      | none =>
          cases w.onMessage.toBool with
          | true => simp [dispatch, hw]
          | false => simp [hw]
      | some ov => simp [hw]

theorem firstCloses_iff (w : Reader) (i : Iteration) :
    w.firstCloses i = true ↔ w.waitable.isSome = true ∧ answer? i.first = some .abandoned := by
  unfold firstCloses
  cases w.waitable with
  | none => exact ⟨nofun, fun h ↦ nomatch h.1⟩
  | some ov =>
      rw [decide_eq_true_iff]
      exact (waitLoop_closed_iff i.content ov i.first _ w).trans (and_iff_right rfl).symm

theorem abandonsFirst_iff (w : Reader) (i : Iteration) :
    w.AbandonsFirst i ↔ w.Running ∧ (w.advance i).firstCloses i = true := by
  rw [firstCloses_iff, advance_waitable]
  exact .rfl

/-- The second wait of a round goes through a null pointer, or does not lose a
`Closed`. -/
theorem awaitAgain_cases (hgo : w.stopped = none) (i : Iteration) :
    (w.waitable = none ∧ (w.awaitAgain i).stopped = some .nullWaitable) ∨
      (w.waitable ≠ none ∧ (w.awaitAgain i).stopped ≠ some .nullWaitable ∧
        (w.observesClosedAgain i = true → ∃ w' : Reader, w.awaitAgain i = w'.disconnect)) := by
  unfold awaitAgain observesClosedAgain
  cases hw : w.waitable with
  | none => exact .inl ⟨rfl, rfl⟩
  | some ov =>
      refine .inr ⟨Option.some_ne_none _, ?_⟩
      have hstopped := wait_stopped w i.content ov 1000000 i.second
      have hcases := wait_cases w i.content ov 1000000 i.second
      dsimp only
      rcases hr : (waiter i.content ov).wait 1000000 i.second w with ⟨r, w'⟩
      rw [hr] at hstopped hcases
      rw [hgo] at hstopped
      rcases hcases with rfl | rfl | ⟨rfl | rfl, -⟩ | ⟨rfl, -⟩
      · exact ⟨nofun, nofun⟩
      · exact ⟨hstopped ▸ nofun, nofun⟩
      · exact ⟨hstopped ▸ nofun, nofun⟩
      · exact ⟨hstopped ▸ nofun, nofun⟩
      · exact ⟨nofun, fun _ ↦ ⟨w', rfl⟩⟩

/-- The waits of a round go through a null pointer if the first returns `Closed`, and
otherwise do not lose one. -/
theorem await_cases (hgo : w.stopped = none) (i : Iteration) :
    (w.firstCloses i = true ∧ (w.await i).stopped = some .nullWaitable) ∨
      (w.firstCloses i = false ∧ (w.await i).stopped ≠ some .nullWaitable ∧
        (w.awaitsClosed i = true → ∃ w' : Reader, w.await i = w'.disconnect)) := by
  unfold firstCloses await awaitsClosed
  cases hw : w.waitable with
  | none => exact .inr ⟨rfl, hgo ▸ nofun, nofun⟩
  | some ov =>
      have hstopped := wait_stopped w i.content ov 0 i.first
      have hcases := wait_cases w i.content ov 0 i.first
      dsimp only
      rcases hr : (waiter i.content ov).wait 0 i.first w with ⟨r, w'⟩
      rw [hr] at hstopped hcases
      rw [hgo] at hstopped
      -- A wait that ran out or failed is followed by one on the same object.
      have hagain : w'.waitable = w.waitable → (w'.awaitAgain i).stopped ≠ some .nullWaitable ∧
          (w'.observesClosedAgain i = true → ∃ s : Reader, w'.awaitAgain i = s.disconnect) := by
        intro hsame
        rcases awaitAgain_cases hstopped i with ⟨hnull, -⟩ | ⟨-, hok⟩
        · cases hnull.symm.trans (hsame.trans hw)
        · exact hok
      rcases hcases with rfl | rfl | ⟨rfl | rfl, hsame⟩ | ⟨rfl, hreset⟩
      · exact .inr ⟨rfl, nofun, nofun⟩
      · exact .inr ⟨rfl, hstopped ▸ nofun, nofun⟩
      · exact .inr ⟨rfl, hagain hsame⟩
      · exact .inr ⟨rfl, hagain hsame⟩
      · refine .inl ⟨rfl, ?_⟩
        rcases awaitAgain_cases hstopped i with ⟨-, hnull⟩ | ⟨hsome, -⟩
        · exact hnull
        · exact absurd hreset hsome

theorem iterate_of_running (hrunning : w.Running) (i : Iteration) :
    w.iterate i = (w.advance i).await i := by
  obtain ⟨hshutdown, hhandle, hconn⟩ := hrunning
  simp [iterate, hshutdown, hhandle, hconn]

/-- **A `Closed` is not lost**, and no wait goes through a null pointer, in exactly those
rounds in which the first wait does not find its object abandoned. -/
theorem keepsClosed_iff (hgo : w.stopped = none) (i : Iteration) :
    w.KeepsClosed i ↔ ¬ w.AbandonsFirst i := by
  rw [abandonsFirst_iff]
  by_cases hrunning : w.Running
  · rw [and_iff_right hrunning]
    rcases await_cases ((advance_stopped w i).trans hgo) i with ⟨hfirst, hnull⟩ | ⟨hfirst, hdefined, hkept⟩
    · refine iff_of_false (fun h ↦ h.defined ?_) (not_not.2 hfirst)
      rw [iterate_of_running hrunning]
      exact hnull
    · rw [hfirst]
      refine iff_of_true ⟨?_, ?_⟩ Bool.false_ne_true
      · rw [iterate_of_running hrunning]
        exact hdefined
      · rintro ⟨-, hcloses | hcloses⟩
        · exact absurd (hfirst.symm.trans hcloses) Bool.false_ne_true
        · rw [iterate_of_running hrunning]
          exact hkept hcloses
  · refine iff_of_true ⟨?_, fun hcloses ↦ absurd hcloses.1 hrunning⟩ fun h ↦ hrunning h.1
    rw [iterate_of_not_running hrunning]
    exact nofun

/-- The second wait finds its object abandoned. -/
theorem keepsClosed_second :
    (start 4 ⟨[]⟩ ⟨[0]⟩ []).KeepsClosed { first := [.timeout], second := [.interruption 0, .abandoned] } ∧
      ((start 4 ⟨[]⟩ ⟨[0]⟩ []).iterate
        { first := [.timeout], second := [.interruption 0, .abandoned] }).closeCalls = 1 := by
  refine ⟨(keepsClosed_iff rfl _).2 ?_, rfl⟩
  rintro ⟨-, -, hanswer⟩
  cases hanswer

/-- The first one does. -/
theorem closed_lost : ¬ (start 4 ⟨[]⟩ ⟨[0]⟩ []).KeepsClosed { first := [.abandoned], second := [.timeout] } :=
  fun h ↦ h.defined rfl

end Reader

end Datapath.Windows
