import Datapath.Lib.Simulation
import Datapath.Windows.Socket.Arrival

/-!
# A reader that is served

What a reader delivers is right as far as it goes (`Delivery`).  Here it is shown that it
goes on: wherever in a frame it stands, two rounds of its loop in which the pipe gives what
it is asked for lead to the next message, and so twice as many rounds as there are messages
lead to the end (`Aligned.reads_on`).
-/

namespace Datapath.Windows

open Datapath.Lib

namespace Reader

variable {todo rest : List (List UInt8)} {p : List UInt8} {w w' : Reader}

/-- A round in which the outstanding read is given all it asked for, and its event is then
found to be signalled. -/
def served (n : ℕ) : Iteration := { first := [.completion 0 errorSuccess n, .signal] }

/-- The loop goes on, and there is someone to dispatch to. -/
structure Attended (w : Reader) : Prop where
  going : w.stopped = none
  running : w.Running
  listener : w.onMessage.toBool = true

/-- What a read, its callback and the loop body leave alone. -/
theorem Attended.frame (h : w.Attended) (hstopped : w'.stopped = w.stopped) (hshutdown : w'.shutdown = w.shutdown)
    (hhandle : w'.socketHandle = w.socketHandle) (hconnected : w'.isConnected = w.isConnected)
    (hmessage : w'.onMessage = w.onMessage) : w'.Attended where
  going := hstopped.trans h.going
  running := ⟨hshutdown.trans h.running.1, hhandle ▸ h.running.2.1, hconnected.trans h.running.2.2⟩
  listener := hmessage ▸ h.listener

theorem Attended.complete (h : w.Attended) (code bytes : ℕ) : (w.complete code bytes).Attended := by
  obtain ⟨_, _, _, _, _, _, hframe⟩ := w.complete_frame code bytes
  rw [hframe]
  exact h.frame rfl rfl rfl rfl rfl

theorem Attended.waitSuccess (h : w.Attended) (reply : ReadReply) (ov : Overlapped) :
    ((w.resetEvent ov).waitSuccess reply ov).Attended := by
  obtain ⟨_, _, _, _, _, _, hframe⟩ := (w.resetEvent ov).waitSuccess_frame reply ov
  rw [hframe]
  exact h.frame rfl rfl rfl rfl rfl

theorem Attended.advance (h : w.Attended) (i : Iteration) : (w.advance i).Attended := by
  rcases advance_cases i w with hi | ⟨-, hi⟩ | ⟨code, -, hi⟩ | ⟨-, -, hi⟩
  · rw [hi]
    exact h
  · rw [hi]
    exact h.frame rfl rfl rfl rfl rfl
  · rw [hi]
    exact h.frame rfl rfl rfl rfl rfl
  · rw [hi]
    exact h.frame rfl rfl rfl rfl rfl

theorem Attended.iterate_eq (h : w.Attended) (i : Iteration) : w.iterate i = (w.advance i).await i := by
  obtain ⟨hshutdown, hhandle, hconnected⟩ := h.running
  simp only [iterate, hshutdown, hhandle, hconnected, Bool.not_true, Bool.false_eq_true, if_false]

/-- A read that completes signals, and a wait that finds the signal succeeds. -/
theorem wait_served {ov : Overlapped} {n : ℕ} (reply : ReadReply)
    (hsig : (w.complete errorSuccess n).signalled ov = true) :
    (waiter reply ov).wait 0 [.completion 0 errorSuccess n, .signal] w =
      (some .success, ((w.complete errorSuccess n).resetEvent ov).waitSuccess reply ov) := by
  obtain ⟨timeout, hagain⟩ := Waiter.waitLoop_ioCompletion (waiter reply ov)
    (Waiter.clampTimeout (Waiter.toMilliseconds 0)) 0 (.completion 0 errorSuccess n) [.signal] w
    (w.complete errorSuccess n) rfl
  rw [Waiter.wait, hagain]
  simp only [Waiter.waitLoop, waiter, hsig, if_true]

/-- A round that is served. -/
theorem Attended.iterate_served (h : w.Attended) {ov : Overlapped} {n : ℕ}
    (hw : (w.advance (served n)).waitable = some ov)
    (hsig : ((w.advance (served n)).complete errorSuccess n).signalled ov = true) :
    w.iterate (served n) =
      (((w.advance (served n)).complete errorSuccess n).resetEvent ov).waitSuccess .started ov := by
  rw [h.iterate_eq]
  simp only [await, hw]
  rw [show (served n).first = [.completion 0 errorSuccess n, .signal] from rfl,
    show (served n).content = .started from rfl, wait_served .started hsig]

/-- Bytes behind those that are read make no difference. -/
theorem Attended.extend_iterate_served (h : w.Attended) {ov : Overlapped} {n : ℕ}
    (hw : (w.advance (served n)).waitable = some ov)
    (hsig : ((w.advance (served n)).complete errorSuccess n).signalled ov = true)
    (hfull : ∀ r ∈ (w.advance (served n)).outstanding,
      min n (min r.size (w.advance (served n)).stream.length) = r.size) (more : List UInt8) :
    (w.extend more).iterate (served n) = (w.iterate (served n)).extend more := by
  have hextended : (w.extend more).Attended := h.frame rfl rfl rfl rfl rfl
  have hadvance := w.extend_advance more (served n)
  have hcomplete : ((w.advance (served n)).extend more).complete errorSuccess n =
      ((w.advance (served n)).complete errorSuccess n).extend more :=
    extend_complete more fun r hr ↦ hfull r (List.mem_of_mem_head? hr)
  have hwaits : ((w.extend more).advance (served n)).waitable = some ov := by
    rw [hadvance]
    exact hw
  have hsignals : (((w.extend more).advance (served n)).complete errorSuccess n).signalled ov = true := by
    rw [hadvance, hcomplete]
    exact hsig
  rw [h.iterate_served hw hsig, hextended.iterate_served hwaits hsignals, hadvance, hcomplete,
    extend_waitSuccess]

/-! ## One frame -/

/-- What has arrived is enough for the outstanding read. -/
theorem Aligned.whole (h : w.Aligned (p :: rest)) :
    ∀ r ∈ w.outstanding, min w.stream.length (min r.size w.stream.length) = r.size := by
  have henough : ∀ r, w.outstanding = [r] → r.size ≤ w.stream.length →
      ∀ r' ∈ w.outstanding, min w.stream.length (min r'.size w.stream.length) = r'.size := by
    intro r ho hle r' hr'
    rw [ho] at hr'
    rw [List.mem_singleton.1 hr']
    omega
  cases h with
  | idle _ _ ho | headerDone _ _ ho | contentDone _ _ ho | held _ _ ho =>
      rw [ho]
      exact List.forall_mem_nil _
  | header _ _ ho _ _ hb =>
      refine henough _ ho ?_
      rw [hb, wire_cons, List.length_append, length_toLE]
      exact Nat.le_add_right _ _
  | content _ _ ho _ _ hb =>
      refine henough _ ho ?_
      rw [hb, List.length_append]
      exact Nat.le_add_right _ _

/-- Then the event of the current read is signalled. -/
theorem Aligned.signalled_complete (h : w.Aligned todo) {ov : Overlapped} (hw : w.waitable = some ov)
    (n : ℕ) : (w.complete errorSuccess n).signalled ov = true := by
  cases h with
  | idle _ hw' | held _ hw' => cases hw.symm.trans hw'
  | header _ hw' ho | content _ hw' ho =>
      cases hw.symm.trans hw'
      simp only [Reader.complete, ho, defIoCompletionRoutine, Function.update_self]
  | headerDone _ hw' ho hq | contentDone _ hw' ho hq =>
      cases hw.symm.trans hw'
      rw [complete_of_nil ho, hq]
      rfl

/-- A completion in full leaves the log clean. -/
theorem CleanLog.complete {n : ℕ} (h : w.CleanLog)
    (hwhole : ∀ r ∈ w.outstanding, min n (min r.size w.stream.length) = r.size) :
    (w.complete errorSuccess n).CleanLog := by
  cases ho : w.outstanding with
  | nil =>
      rw [complete_of_nil ho]
      exact h
  | cons r others =>
      have hfull := hwhole r (ho ▸ List.mem_cons_self)
      intro e he
      rw [complete_log ho] at he
      rcases List.mem_append.1 he with he | he
      · exact h e he
      · rw [List.mem_singleton.1 he]
        exact ⟨rfl, hfull⟩

/-- What a round does to the frame of the first message: it goes on to its content, or
delivers it. -/
inductive Serves (w w' : Reader) (p : List UInt8) (rest : List (List UInt8)) : Prop
  | header (haligned : w'.Aligned (p :: rest)) (hstate : w'.state = .content)
      (hbefore : w.state ≠ .content) (hdelivered : w'.delivered = w.delivered)
  | content (haligned : w'.Aligned rest) (hdelivered : w'.delivered = w.delivered ++ [p])

/-- The callback of the current read, once it has all it asked for. -/
theorem Aligned.serves_current (h : w.Aligned (p :: rest)) (hlisten : w.onMessage.toBool = true)
    (hframed : ∀ q ∈ p :: rest, q.length < 256 ^ sizeElement) {ov : Overlapped}
    (hw : w.waitable = some ov) (hclean : w.CleanLog) :
    Serves w (((w.complete errorSuccess w.stream.length).resetEvent ov).waitSuccess .started ov) p rest ∧
      (((w.complete errorSuccess w.stream.length).resetEvent ov).waitSuccess .started ov).CleanLog := by
  have hal : (w.complete errorSuccess w.stream.length).Aligned (p :: rest) := h.complete h.whole
  have hwaits := (w.complete_waitable errorSuccess w.stream.length).trans hw
  have hsig := h.signalled_complete hw w.stream.length
  have hlog := hclean.complete h.whole
  obtain ⟨_, _, _, _, _, _, hframe⟩ := w.complete_frame errorSuccess w.stream.length
  generalize w.complete errorSuccess w.stream.length = v at hal hwaits hsig hlog hframe
  cases ov with
  | readHeader =>
      have haligned := hal.headerSuccess hframed hwaits hsig
      rcases headerSuccess_cases .started (v.resetEvent .readHeader) with ⟨-, hi⟩ | ⟨code, hr, -⟩
      · refine ⟨.header haligned (congrArg Reader.state hi) ?_ ?_, ?_⟩
        · intro hs
          cases h with
          | idle h' | header h' | headerDone h' => cases hs.symm.trans h'
          | content _ hw' | contentDone _ hw' | held _ hw' => cases hw.symm.trans hw'
        · rw [Reader.waitSuccess, hi, hframe]
          rfl
        · rw [Reader.waitSuccess, hi]
          exact List.forall_mem_append.2 ⟨hlog, List.forall_mem_singleton.2 trivial⟩
      · cases hr
  | readContent =>
      have hlisten' : (v.resetEvent .readContent).onMessage.toBool = true := by
        rw [hframe]
        exact hlisten
      cases hal with
      | idle _ hw' | held _ hw' | header _ hw' | headerDone _ hw' => cases hwaits.symm.trans hw'
      | content _ _ _ hq =>
          rw [hq] at hsig
          cases hsig
      | contentDone hs _ ho hq hl hb =>
          simp only [Reader.waitSuccess, Reader.contentSuccess, hlisten', if_true, dispatch]
          refine ⟨.content (.idle rfl rfl ho (by simp only [resetEvent, hq, only_reset]) hb) ?_, hlog⟩
          show v.delivered ++ [v.readBuffer] = _
          rw [hl, hframe]

/-- **A round that is served** brings the reader one step further in the frame, whatever
follows the frames. -/
theorem Aligned.serves (h : w.Aligned (p :: rest)) (hattended : w.Attended) (hclean : w.CleanLog)
    (hframed : ∀ q ∈ p :: rest, q.length < 256 ^ sizeElement) :
    Serves w (w.iterate (served w.stream.length)) p rest ∧
      (w.iterate (served w.stream.length)).CleanLog ∧ (w.iterate (served w.stream.length)).Attended ∧
      ∀ more, (w.extend more).iterate (served w.stream.length) =
        (w.iterate (served w.stream.length)).extend more := by
  have hcurrent : ∀ ov, (w.advance (served w.stream.length)).waitable = some ov →
      (w.advance (served w.stream.length)).Aligned (p :: rest) →
      (w.advance (served w.stream.length)).stream = w.stream →
      (w.advance (served w.stream.length)).delivered = w.delivered →
      (w.state = .content → (w.advance (served w.stream.length)).state = .content) →
      (w.advance (served w.stream.length)).CleanLog →
      Serves w (w.iterate (served w.stream.length)) p rest ∧
        (w.iterate (served w.stream.length)).CleanLog ∧
          (w.iterate (served w.stream.length)).Attended ∧
          ∀ more, (w.extend more).iterate (served w.stream.length) =
            (w.iterate (served w.stream.length)).extend more := by
    intro ov hw hal hstream hdelivered hstate hlog
    have hadvanced := hattended.advance (served w.stream.length)
    have hsig := hal.signalled_complete hw w.stream.length
    have hwhole := hal.whole
    obtain ⟨hserves, hlog'⟩ := hal.serves_current hadvanced.listener hframed hw hlog
    have hmore := hattended.extend_iterate_served hw hsig (hstream ▸ hwhole)
    rw [hattended.iterate_served hw hsig] at hmore ⊢
    rw [hstream] at hserves hlog'
    refine ⟨?_, hlog', (hadvanced.complete _ _).waitSuccess _ _, hmore⟩
    cases hserves with
    | header haligned hs hbefore hdel =>
        exact .header haligned hs (fun hcontent ↦ hbefore (hstate hcontent)) (hdel.trans hdelivered)
    | content haligned hdel => exact .content haligned (hdel.trans (congrArg (· ++ [p]) hdelivered))
  cases h with
  | idle hs hw ho hq hb =>
      have hi : w.advance (served w.stream.length) =
          { w with
            readBuffer := resize sizeElement w.readBuffer
            outstanding := w.outstanding ++ [⟨.readHeader, sizeElement⟩]
            log := w.log ++ [.started .readHeader w.position sizeElement]
            state := .header
            waitable := some .readHeader } := by
        simp [Reader.advance, served, hs, readFileEx]
      refine hcurrent .readHeader (by rw [hi]) ?_ (by rw [hi]) (by rw [hi]) ?_ ?_
      · rw [hi]
        exact .header rfl rfl (by simp only [ho, List.nil_append]) hq (length_resize _ _) hb
      · rw [hs]
        rintro ⟨⟩
      · rw [hi]
        exact List.forall_mem_append.2 ⟨hclean, List.forall_mem_singleton.2 trivial⟩
  | header hs hw ho hq hl hb =>
      have hi : w.advance (served w.stream.length) = w := by simp only [Reader.advance, hs]
      rw [hi] at hcurrent
      exact hcurrent _ hw (.header hs hw ho hq hl hb) rfl rfl id hclean
  | headerDone hs hw ho hq hl hb =>
      have hi : w.advance (served w.stream.length) = w := by simp only [Reader.advance, hs]
      rw [hi] at hcurrent
      exact hcurrent _ hw (.headerDone hs hw ho hq hl hb) rfl rfl id hclean
  | content hs hw ho hq hl hb =>
      have hi : w.advance (served w.stream.length) = w := by simp only [Reader.advance, hs, hw]
      rw [hi] at hcurrent
      exact hcurrent _ hw (.content hs hw ho hq hl hb) rfl rfl id hclean
  | contentDone hs hw ho hq hl hb =>
      have hi : w.advance (served w.stream.length) = w := by simp only [Reader.advance, hs, hw]
      rw [hi] at hcurrent
      exact hcurrent _ hw (.contentDone hs hw ho hq hl hb) rfl rfl id hclean
  | held hs hw ho hq hl hb =>
      have hi := Held.iterate_of_running ⟨hs, hw⟩ hattended.running (served w.stream.length)
      rw [if_pos hattended.listener] at hi
      refine ⟨?_, ?_, ?_, fun more ↦ ?_⟩
      · rw [hi]
        exact .content (.idle rfl hw ho hq hb) (by rw [hl])
      · rw [hi]
        exact hclean
      · rw [hi]
        exact hattended.frame rfl rfl rfl rfl rfl
      · have hmore := Held.iterate_of_running (w := w.extend more) ⟨hs, hw⟩ hattended.running
          (served w.stream.length)
        rw [hmore, hi]
        exact if_pos hattended.listener

/-! ## All frames -/

theorem Attended.step_iterate (h : w.Attended) (i : Iteration) :
    w.step (.iterate i) = some (w.iterate i) := by
  simp only [Reader.step, h.going]

/-- From `w` to `w'` these messages have been delivered, and those are still to come. -/
structure Drains (w w' : Reader) (ps rest : List (List UInt8)) : Prop where
  delivered : w'.delivered = w.delivered ++ ps
  aligned : w'.Aligned rest
  clean : w'.CleanLog
  attended : w'.Attended

/-- At most two rounds deliver the first message. -/
theorem Aligned.drains_first (h : w.Aligned (p :: rest)) (hattended : w.Attended) (hclean : w.CleanLog)
    (hframed : ∀ q ∈ p :: rest, q.length < 256 ^ sizeElement) :
    ∃ is : List Iteration, ∃ w', (∀ more, Steps step (w.extend more) (is.map .iterate) (w'.extend more)) ∧
      is.length ≤ 2 ∧ w.Drains w' [p] rest := by
  have hstep : ∀ {v : Reader} {i : Iteration} (more : List UInt8), v.Attended →
      (v.extend more).iterate i = (v.iterate i).extend more →
      (v.extend more).step (.iterate i) = some ((v.iterate i).extend more) := by
    intro v i more hv hmore
    have hextended : (v.extend more).Attended := hv.frame rfl rfl rfl rfl rfl
    rw [hextended.step_iterate, hmore]
  obtain ⟨hserves, hlog, hgoes, hmore⟩ := h.serves hattended hclean hframed
  cases hserves with
  | content haligned hdelivered =>
      exact ⟨[_], _, fun more ↦ .single (hstep more hattended (hmore more)), Nat.le_succ 1,
        hdelivered, haligned, hlog, hgoes⟩
  | header haligned hstate _ hdelivered =>
      obtain ⟨hserves', hlog', hgoes', hmore'⟩ := haligned.serves hgoes hlog hframed
      cases hserves' with
      | header _ _ hbefore _ => exact absurd hstate hbefore
      | content haligned' hdelivered' =>
          refine ⟨[_, _], _, fun more ↦ .cons (hstep more hattended (hmore more))
            (.single (hstep more hgoes (hmore' more))), Nat.le_refl 2, ?_, haligned', hlog', hgoes'⟩
          rw [hdelivered', hdelivered]

/-- **A reader that is served reads on to the end** of the frames, whatever follows them.
For each message it takes at most two rounds. -/
theorem Aligned.reads_on (h : w.Aligned todo) (hattended : w.Attended) (hclean : w.CleanLog)
    (hframed : ∀ q ∈ todo, q.length < 256 ^ sizeElement) :
    ∃ is : List Iteration, ∃ w', (∀ more, Steps step (w.extend more) (is.map .iterate) (w'.extend more)) ∧
      is.length ≤ 2 * todo.length ∧ w.Drains w' todo [] := by
  induction todo generalizing w with
  | nil =>
      exact ⟨[], w, fun _ ↦ .nil _, Nat.le_refl _, (List.append_nil _).symm, h, hclean, hattended⟩
  | cons p rest ih =>
      obtain ⟨is, v, hsteps, hlength, hfirst⟩ := h.drains_first hattended hclean hframed
      obtain ⟨is', w', hsteps', hlength', hrest⟩ :=
        ih hfirst.aligned hfirst.attended hfirst.clean (List.forall_mem_cons.1 hframed).2
      refine ⟨is ++ is', w', fun more ↦ List.map_append ▸ (hsteps more).append (hsteps' more), ?_, ?_,
        hrest.aligned, hrest.clean, hrest.attended⟩
      · rw [List.length_append, List.length_cons]
        omega
      · rw [hrest.delivered, hfirst.delivered, List.append_assoc]
        rfl

end Reader

end Datapath.Windows
