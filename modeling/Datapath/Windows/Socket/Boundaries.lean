import Datapath.Windows.Socket.Delivery

/-!
# Where header reads begin

A read that `ReadFileEx` refuses consumes nothing.  After a refused header read the next
one begins where the refused one would have.  After a refused content read the header is
consumed, and the next header read begins in front of the message: unless the message is
empty, its bytes are taken for a length (`headers_at_frames`).
-/

namespace Datapath.Windows

open Datapath.Lib

namespace IoEvent

/-- The completion routine was called. -/
def Completes : IoEvent → Prop
  | .completed .. => True
  | .started .. | .refused .. => False

/-- A header read was started. -/
def StartsHeader : IoEvent → Prop
  | .started .readHeader _ _ => True
  | .started .readContent .. | .completed .. | .refused .. => False

/-- A content read was refused. -/
def RefusesContent : IoEvent → Prop
  | .refused .readContent _ => True
  | .refused .readHeader _ | .completed .. | .started .. => False

instance : DecidablePred StartsHeader
  | .started .readHeader _ _ => .isTrue trivial
  | .started .readContent .. | .completed .. | .refused .. => .isFalse id

instance : DecidablePred RefusesContent
  | .refused .readContent _ => .isTrue trivial
  | .refused .readHeader _ | .completed .. | .started .. => .isFalse id

theorem Completes.not_startsHeader {e : IoEvent} (h : e.Completes) : ¬ e.StartsHeader := by
  cases e with
  | completed => exact id
  | started | refused => exact h.elim

theorem Completes.not_refusesContent {e : IoEvent} (h : e.Completes) : ¬ e.RefusesContent := by
  cases e with
  | completed => exact id
  | started | refused => exact h.elim

end IoEvent

namespace Reader

/-! ## What a step adds to the log -/

/-- What the step has added to the log. -/
def events (t : Transition Reader Label) : List IoEvent := t.dst.log.drop t.src.log.length

/-- In this step a header read is started. -/
def StartsHeader (t : Transition Reader Label) : Prop := ∃ e ∈ events t, e.StartsHeader

/-- In this step the content read of a message that is not empty is refused.  The buffer
has got the size that was asked for. -/
def RefusesMessage (t : Transition Reader Label) : Prop :=
  (∃ e ∈ events t, e.RefusesContent) ∧ t.dst.readBuffer ≠ []

instance : DecidablePred StartsHeader :=
  fun t ↦ inferInstanceAs (Decidable (∃ e ∈ events t, e.StartsHeader))

instance : DecidablePred RefusesMessage :=
  fun t ↦ inferInstanceAs (Decidable ((∃ e ∈ events t, e.RefusesContent) ∧ t.dst.readBuffer ≠ []))

variable {payloads todo : List (List UInt8)} {w w' : Reader} {l : Label} {base : List IoEvent}
variable {ts : List (Transition Reader Label)}

theorem events_eq {ev : List IoEvent} (h : w'.log = w.log ++ ev) : events ⟨w, l, w'⟩ = ev := by
  rw [events, h, List.drop_left]

/-- The log of a run is what its steps have added. -/
theorem log_eq_flatMap (hrun : Run step w ts w') : w'.log = w.log ++ ts.flatMap events := by
  induction hrun with
  | nil => simp
  | cons hs _ ih =>
      obtain ⟨ev, hev⟩ := (step_grows hs).log
      rw [ih, List.flatMap_cons, events_eq hev.symm, ← List.append_assoc, hev]

/-! ## The two modes -/

/-- What is consumed and what is left of the stream is the stream. -/
def Counts (payloads : List (List UInt8)) (w : Reader) : Prop :=
  w.position + w.stream.length = (wire sizeElement payloads).length

/-- The reader stands at a point of a frame. -/
def Standing (payloads : List (List UInt8)) (w : Reader) : Prop :=
  w.Counts payloads ∧ ∃ done todo, payloads = done ++ todo ∧ w.Aligned todo

/-- The reader takes the bytes of a message for a frame, or will. -/
structure Adrift (payloads : List (List UInt8)) (w : Reader) : Prop where
  counts : w.Counts payloads
  state : w.state = .unknown
  waitable : w.waitable = none
  message : ∃ done p rest, payloads = done ++ p :: rest ∧ p ≠ [] ∧ w.stream = p ++ wire sizeElement rest

theorem Standing.boundary (h : w.Standing payloads) (hs : w.state = .unknown) :
    Boundary sizeElement payloads w.position := by
  obtain ⟨hcounts, done, todo, rfl, hal⟩ := h
  obtain ⟨-, -, -, hb⟩ := hal.of_unknown hs
  exact boundary_of_rest (hb ▸ hcounts)

theorem Adrift.not_boundary (h : w.Adrift payloads) : ¬ Boundary sizeElement payloads w.position := by
  obtain ⟨done, p, rest, rfl, hp, hb⟩ := h.message
  have hcounts := h.counts
  unfold Counts at hcounts
  rw [hb] at hcounts
  exact not_boundary_behind_header hp (by decide) hcounts

/-! ## The loop body -/

/-- What the first half of the loop body adds to the log. -/
theorem advance_log (w : Reader) (i : Iteration) : ∃ ev, (w.advance i).log = w.log ++ ev ∧
    ∀ e ∈ ev, ¬ e.RefusesContent ∧ (e.StartsHeader →
      e = .started .readHeader w.position sizeElement ∧ w.state = .unknown) := by
  rcases advance_cases i w with hi | ⟨hs, hi⟩ | ⟨code, -, hi⟩ | ⟨-, -, hi⟩
  · exact ⟨[], by rw [hi, List.append_nil], nofun⟩
  · refine ⟨_, by rw [hi], fun e he ↦ ?_⟩
    cases List.mem_singleton.1 he
    exact ⟨id, fun _ ↦ ⟨rfl, hs⟩⟩
  · refine ⟨_, by rw [hi], fun e he ↦ ?_⟩
    cases List.mem_singleton.1 he
    exact ⟨id, False.elim⟩
  · exact ⟨[], by rw [hi, List.append_nil], nofun⟩

theorem Standing.advance (h : w.Standing payloads) (i : Iteration) : (w.advance i).Standing payloads := by
  obtain ⟨hcounts, done, todo, rfl, hal⟩ := h
  obtain ⟨todo', hal', ⟨gone, rfl⟩, -⟩ := hal.advance i
  refine ⟨?_, done ++ gone, todo', (List.append_assoc _ _ _).symm, hal'⟩
  rcases advance_cases i w with hi | ⟨-, hi⟩ | ⟨code, -, hi⟩ | ⟨-, -, hi⟩ <;> rw [hi] <;> exact hcounts

/-! ## The waits -/

/-- A wait lasts: reads have completed, and as long as they have brought all that was
asked for, the reader stands where it should. -/
def Lasting (payloads : List (List UInt8)) (base : List IoEvent) (w : Reader) : Prop :=
  ∃ ev, w.log = base ++ ev ∧ (∀ e ∈ ev, e.Completes) ∧ ((∀ e ∈ ev, e.Full) → w.Standing payloads)

/-- What the second half of the loop body has added to the log, and where it has left the
reader. -/
def Settled (payloads : List (List UInt8)) (base : List IoEvent) (w : Reader) : Prop :=
  ∃ ev, w.log = base ++ ev ∧ (∀ e ∈ ev, ¬ e.StartsHeader) ∧
    ((∀ e ∈ ev, e.Full) → w.stopped = none →
      (w.Standing payloads ∧ ∀ e ∈ ev, e.RefusesContent → w.readBuffer = []) ∨
      (w.Adrift payloads ∧ w.readBuffer ≠ [] ∧ ∃ e ∈ ev, e.RefusesContent))

theorem Lasting.settled (h : w.Lasting payloads base) : w.Settled payloads base := by
  obtain ⟨ev, hlog, hcompleted, hstanding⟩ := h
  exact ⟨ev, hlog, fun e he ↦ (hcompleted e he).not_startsHeader, fun hfull _ ↦
    .inl ⟨hstanding hfull, fun e he hrefused ↦ absurd hrefused (hcompleted e he).not_refusesContent⟩⟩

/-- A reader that has stopped only owes its log. -/
theorem Lasting.stop (h : w.Lasting payloads base) (hlog : w'.log = w.log) (hstop : w'.stopped ≠ none) :
    w'.Settled payloads base := by
  obtain ⟨ev, hbase, hstarts, -⟩ := h.settled
  exact ⟨ev, hlog.trans hbase, hstarts, fun _ hgo ↦ absurd hgo hstop⟩

/-- Reads move the stream on, and lose nothing. -/
theorem Counts.complete (h : w.Counts payloads) (code bytes : ℕ) : (w.complete code bytes).Counts payloads := by
  cases ho : w.outstanding with
  | nil =>
      rw [complete_of_nil ho]
      exact h
  | cons r rest =>
      unfold Counts at h ⊢
      simp only [Reader.complete, ho, defIoCompletionRoutine, List.length_drop]
      omega

theorem Lasting.complete (h : w.Lasting payloads base) (code bytes : ℕ) :
    (w.complete code bytes).Lasting payloads base := by
  cases ho : w.outstanding with
  | nil =>
      rw [complete_of_nil ho]
      exact h
  | cons r rest =>
      obtain ⟨ev, hlog, hcompleted, hstanding⟩ := h
      refine ⟨ev ++ [_], by rw [complete_log ho, hlog, List.append_assoc], fun e he ↦ ?_, fun hfull ↦ ?_⟩
      · rcases List.mem_append.1 he with he | he
        · exact hcompleted e he
        · rw [List.mem_singleton.1 he]
          trivial
      · have hn := hfull _ (List.mem_append_right _ (List.mem_singleton.2 rfl))
        obtain ⟨hcounts, done, todo, hsplit, hal⟩ :=
          hstanding fun e he ↦ hfull e (List.mem_append_left _ he)
        refine ⟨hcounts.complete code bytes, done, todo, hsplit, hal.complete fun r' hr' ↦ ?_⟩
        cases ho.symm.trans (hal.outstanding_eq hr')
        exact hn

/-- The callback that ends a wait may add one more event to the log. -/
theorem Lasting.settle {e : IoEvent} (h : w.Lasting payloads base) (hlog : w'.log = w.log ++ [e])
    (hstarts : ¬ e.StartsHeader) (hmode : w.Standing payloads →
      (w'.Standing payloads ∧ (e.RefusesContent → w'.readBuffer = [])) ∨
      (w'.Adrift payloads ∧ w'.readBuffer ≠ [] ∧ e.RefusesContent)) : w'.Settled payloads base := by
  obtain ⟨ev, hbase, hcompleted, hstanding⟩ := h
  refine ⟨ev ++ [e], by rw [hlog, hbase, List.append_assoc], fun e' he' ↦ ?_, fun hfull _ ↦ ?_⟩
  · rcases List.mem_append.1 he' with he' | he'
    · exact (hcompleted e' he').not_startsHeader
    · rw [List.mem_singleton.1 he']
      exact hstarts
  · rcases hmode (hstanding fun e' he' ↦ hfull e' (List.mem_append_left _ he')) with
      ⟨hs, hempty⟩ | ⟨hs, hmessage, hrefused⟩
    · refine .inl ⟨hs, fun e' he' hrefused ↦ ?_⟩
      rcases List.mem_append.1 he' with he' | he'
      · exact absurd hrefused (hcompleted e' he').not_refusesContent
      · exact hempty (List.mem_singleton.1 he' ▸ hrefused)
    · exact .inr ⟨hs, hmessage, e, List.mem_append_right _ (List.mem_singleton.2 rfl), hrefused⟩

/-- The header callback whose content read is started leaves the reader in the frame. -/
theorem Standing.headerSuccess (hf : ∀ p ∈ payloads, p.length < 256 ^ sizeElement)
    (h : w.Standing payloads) (hw : w.waitable = some .readHeader)
    (hsig : w.signalled .readHeader = true) :
    ((w.resetEvent .readHeader).headerSuccess .started).Standing payloads := by
  obtain ⟨hcounts, done, todo, rfl, hal⟩ := h
  refine ⟨hcounts, done, todo, rfl, ?_⟩
  exact hal.headerSuccess (fun p hp ↦ hf p (List.mem_append_right _ hp)) hw hsig

/-- The header callback whose content read is refused leaves it behind the header of the
message: if that is empty, between two frames. -/
theorem Standing.headerRefused (hf : ∀ p ∈ payloads, p.length < 256 ^ sizeElement)
    (h : w.Standing payloads) (hw : w.waitable = some .readHeader)
    (hsig : w.signalled .readHeader = true) {code : ℕ}
    (hi : w' = { w with
      signalled := Function.update w.signalled .readHeader false
      readBuffer := resize (ofLE (w.readBuffer.take sizeElement)) w.readBuffer
      log := w.log ++ [.refused .readContent code]
      state := .unknown
      waitable := none }) :
    (w'.Standing payloads ∧ w'.readBuffer = []) ∨ (w'.Adrift payloads ∧ w'.readBuffer ≠ []) := by
  obtain ⟨hcounts, done, todo, rfl, hal⟩ := h
  obtain ⟨p, rest, rfl, ho, hq, hsize, hb⟩ :=
    hal.of_header_signalled (fun p hp ↦ hf p (List.mem_append_right _ hp)) hw hsig
  have hlength : w'.readBuffer.length = p.length := by
    rw [hi]
    exact (length_resize _ _).trans hsize
  by_cases hp : p = []
  · subst hp
    refine .inl ⟨?_, List.eq_nil_of_length_eq_zero hlength⟩
    rw [hi]
    exact ⟨hcounts, done ++ [[]], rest, by simp, .idle rfl rfl ho (by rw [hq, only_reset]) hb⟩
  · refine .inr ⟨?_, List.length_pos_iff.1 (hlength ▸ List.length_pos_iff.2 hp)⟩
    rw [hi]
    exact ⟨hcounts, rfl, rfl, done, p, rest, rfl, hp, hb⟩

/-- **The header callback** leaves the reader in the frame, or behind the header of a
message whose content read was refused. -/
theorem Lasting.headerSuccess (hf : ∀ p ∈ payloads, p.length < 256 ^ sizeElement)
    (h : w.Lasting payloads base) (reply : ReadReply) (hw : w.waitable = some .readHeader)
    (hsig : w.signalled .readHeader = true) :
    ((w.resetEvent .readHeader).headerSuccess reply).Settled payloads base := by
  rcases headerSuccess_cases reply (w.resetEvent .readHeader) with ⟨rfl, hi⟩ | ⟨code, -, hi⟩
  · refine h.settle (congrArg Reader.log hi) id fun hs ↦ ?_
    exact .inl ⟨hs.headerSuccess hf hw hsig, False.elim⟩
  · refine h.settle (congrArg Reader.log hi) id fun hs ↦ ?_
    rcases hs.headerRefused hf hw hsig hi with ⟨hstanding, hempty⟩ | ⟨hadrift, hmessage⟩
    · exact .inl ⟨hstanding, fun _ ↦ hempty⟩
    · exact .inr ⟨hadrift, hmessage, trivial⟩

theorem contentSuccess_frame (w : Reader) : w.contentSuccess.log = w.log ∧
    w.contentSuccess.position = w.position ∧ w.contentSuccess.stream = w.stream := by
  cases hm : w.onMessage.toBool with
  | true => simp only [contentSuccess, hm, if_true, dispatch, and_self]
  | false => simp only [contentSuccess, hm, Bool.false_eq_true, if_false, and_self]

theorem Lasting.contentSuccess (h : w.Lasting payloads base) (hw : w.waitable = some .readContent)
    (hsig : w.signalled .readContent = true) :
    (w.resetEvent .readContent).contentSuccess.Lasting payloads base := by
  obtain ⟨ev, hlog, hcompleted, hstanding⟩ := h
  obtain ⟨hlog', hposition, hstream⟩ := (w.resetEvent .readContent).contentSuccess_frame
  refine ⟨ev, hlog'.trans hlog, hcompleted, fun hfull ↦ ?_⟩
  obtain ⟨hcounts, done, todo, rfl, hal⟩ := hstanding hfull
  obtain ⟨todo', hal', ⟨gone, rfl⟩, -⟩ := hal.contentSuccess hw hsig
  refine ⟨?_, done ++ gone, todo', (List.append_assoc _ _ _).symm, hal'⟩
  unfold Counts
  rw [hposition, hstream]
  exact hcounts

/-- What a wait on the current read leaves behind, for each of its results. -/
def Left (payloads : List (List UInt8)) (base : List IoEvent) (ov : Overlapped) : error → Reader → Prop
  | .success, s => s.Settled payloads base
  | .closed, s => s.waitable = none ∧ ∃ s₀ : Reader, s₀.Lasting payloads base ∧ s.log = s₀.log
  | _, s => s.waitable = some ov ∧ s.Lasting payloads base

theorem Lasting.wait (hf : ∀ p ∈ payloads, p.length < 256 ^ sizeElement) (h : w.Lasting payloads base)
    (reply : ReadReply) {ov : Overlapped} (hw : w.waitable = some ov) (d : ℤ) (cs : List WaitEvent) :
    (∃ s, (waiter reply ov).wait d cs w = (none, s) ∧ s.Lasting payloads base) ∨
      ∃ r s, (waiter reply ov).wait d cs w = (some r, s) ∧ Left payloads base ov r s := by
  have hrule := wait_rule reply ov (A := fun _ ↦ True)
    (I := fun s ↦ s.waitable = some ov ∧ s.Lasting payloads base) (R := Left payloads base ov)
    (w := w) ?_ ?_ (fun s hs ↦ ⟨hs, hs⟩) ?_ d cs (fun _ _ ↦ trivial) ⟨hw, h⟩
  · rcases hrule with ⟨s, hs, -, hI⟩ | hr
    · exact .inl ⟨s, hs, hI⟩
    · exact .inr hr
  · rintro s code bytes ⟨hws, hI⟩
    exact ⟨(complete_waitable s code bytes).trans hws, hI.complete code bytes⟩
  · rintro s ⟨hws, hI⟩ hsig
    cases ov with
    | readHeader => exact hI.headerSuccess hf reply hws hsig
    | readContent => exact (hI.contentSuccess hws hsig).settled
  · rintro s - ⟨-, hI⟩
    exact ⟨rfl, s, hI, rfl⟩

theorem disconnect_log (w : Reader) : w.disconnect.log = w.log := by
  unfold disconnect
  split <;> rfl

/-- What the waits of a round owe, they pay. -/
theorem Lasting.wait_owes (hf : ∀ p ∈ payloads, p.length < 256 ^ sizeElement)
    (h : w.Lasting payloads base) (reply : ReadReply) {ov : Overlapped} (hw : w.waitable = some ov)
    (d : ℤ) (cs : List WaitEvent) :
    (∃ s, (waiter reply ov).wait d cs w = (none, s) ∧
        Settled payloads base { s with stopped := some .waiting }) ∨
      ∃ r s, (waiter reply ov).wait d cs w = (some r, s) ∧
        WaitOwes (Lasting payloads base) (Settled payloads base) ov r s := by
  rcases h.wait hf reply hw d cs with ⟨s, hs, hI⟩ | ⟨r, s, hs, hR⟩
  · exact .inl ⟨s, hs, hI.stop rfl (Option.some_ne_none _)⟩
  · refine .inr ⟨r, s, hs, ?_⟩
    cases r with
    | success => exact hR
    | closed =>
        obtain ⟨hnone, s₀, hI, hlog⟩ := hR
        have hstop : s.disconnect.stopped ≠ none := Option.some_ne_none _
        exact ⟨hnone, hI.stop hlog (Option.some_ne_none _),
          hI.stop (s.disconnect_log.trans hlog) hstop⟩
    | unknown | failure | criticalFailure | timedOut | invalidPath | notSupported =>
        exact ⟨hR.1, hR.2, hR.2.settled⟩

/-- **The second half of the loop body.** -/
theorem Standing.await (hf : ∀ p ∈ payloads, p.length < 256 ^ sizeElement) (h : w.Standing payloads)
    (i : Iteration) : (w.await i).Settled payloads w.log := by
  have hstart : w.Lasting payloads w.log := ⟨[], (List.append_nil _).symm, List.forall_mem_nil _, fun _ ↦ h⟩
  refine await_rule i (fun s ov d cs hw hI ↦ ?_) (fun _ ↦ hstart.settled) hstart
  exact hI.wait_owes hf i.content hw d cs

/-! ## One step -/

/-- The step starts no header read but at the beginning of a frame. -/
def AtFrames (payloads : List (List UInt8)) (t : Transition Reader Label) : Prop :=
  ∀ pos size, .started .readHeader pos size ∈ events t → Boundary sizeElement payloads pos

/-- A step that adds nothing to the log starts no header read and has none refused. -/
theorem silent (payloads : List (List UInt8)) (l : Label) (w w' : Reader) (hlog : w'.log = w.log) :
    AtFrames payloads ⟨w, l, w'⟩ ∧ ¬ RefusesMessage ⟨w, l, w'⟩ ∧ ¬ StartsHeader ⟨w, l, w'⟩ := by
  have hev : events ⟨w, l, w'⟩ = [] := events_eq (hlog.trans (List.append_nil _).symm)
  unfold AtFrames RefusesMessage StartsHeader
  rw [hev]
  exact ⟨nofun, nofun, nofun⟩

/-- Where a step leaves a reader that stood in a frame. -/
def Onward (payloads : List (List UInt8)) (t : Transition Reader Label) : Prop :=
  AtFrames payloads t ∧ (¬ RefusesMessage t ∧ (t.dst.stopped = none → t.dst.Standing payloads) ∨
    RefusesMessage t ∧ (t.dst.stopped = none → t.dst.Adrift payloads))

/-- A round of the loop of a reader that stands in a frame. -/
theorem Standing.iterate (hf : ∀ p ∈ payloads, p.length < 256 ^ sizeElement) (h : w.Standing payloads)
    (i : Iteration) (hfull : ∀ e ∈ events ⟨w, l, w.iterate i⟩, e.Full) :
    Onward payloads ⟨w, l, w.iterate i⟩ := by
  rcases w.iterate_cases i with hi | hi
  · rw [hi]
    obtain ⟨hframes, hrefuses, -⟩ := silent payloads l w { w with stopped := some .finished } rfl
    exact ⟨hframes, .inl ⟨hrefuses, nofun⟩⟩
  · obtain ⟨ev, hadvance, hheader⟩ := w.advance_log i
    obtain ⟨ev', hawait, hstarts, hmode⟩ := (h.advance i).await hf i
    rw [← hi] at hawait hmode
    have hev : events ⟨w, l, w.iterate i⟩ = ev ++ ev' :=
      events_eq (by rw [hawait, hadvance, List.append_assoc])
    rw [hev] at hfull
    refine ⟨fun pos size hmem ↦ ?_, ?_⟩
    · rw [hev] at hmem
      rcases List.mem_append.1 hmem with hmem | hmem
      · obtain ⟨he, hs⟩ := (hheader _ hmem).2 trivial
        cases he
        exact h.boundary hs
      · exact absurd trivial (hstarts _ hmem)
    · by_cases hrefuses : RefusesMessage ⟨w, l, w.iterate i⟩
      · refine .inr ⟨hrefuses, fun hgo ↦ ?_⟩
        obtain ⟨⟨e, he, hcontent⟩, hmessage⟩ := hrefuses
        rw [hev] at he
        rcases hmode (fun e he ↦ hfull e (List.mem_append_right _ he)) hgo with
          ⟨-, hempty⟩ | ⟨hadrift, -, -⟩
        · rcases List.mem_append.1 he with he | he
          · exact absurd hcontent (hheader e he).1
          · exact absurd (hempty e he hcontent) hmessage
        · exact hadrift
      · refine .inl ⟨hrefuses, fun hgo ↦ ?_⟩
        rcases hmode (fun e he ↦ hfull e (List.mem_append_right _ he)) hgo with
          ⟨hstanding, -⟩ | ⟨-, hmessage, e, he, hcontent⟩
        · exact hstanding
        · exact absurd ⟨⟨e, hev ▸ List.mem_append_right _ he, hcontent⟩, hmessage⟩ hrefuses

/-- A reader adrift whose header read is started has it behind a header. -/
theorem Adrift.starts (h : w.Adrift payloads) {i : Iteration} (hi : w.iterate i = (w.advance i).await i)
    (hreply : i.header = .started) :
    .started .readHeader w.position sizeElement ∈ events ⟨w, l, w.iterate i⟩ := by
  have hadvance : (w.advance i).log = w.log ++ [.started .readHeader w.position sizeElement] := by
    simp only [Reader.advance, h.state, hreply, readFileEx, length_resize]
  obtain ⟨ev, hawait⟩ := (respects_grows.await (w.advance i) i (fun _ _ ↦ trivial) fun _ _ ↦ trivial).log
  rw [← hi, hadvance, List.append_assoc] at hawait
  rw [events_eq hawait.symm]
  exact List.mem_cons_self

/-- A reader adrift whose header read is refused stays where it is. -/
theorem Adrift.refused (h : w.Adrift payloads) {i : Iteration} (hi : w.iterate i = (w.advance i).await i)
    {code : ℕ} (hreply : i.header = .refused code) :
    events ⟨w, l, w.iterate i⟩ = [.refused .readHeader code] ∧ (w.iterate i).Adrift payloads := by
  have hiter : w.iterate i = { w with
      readBuffer := resize sizeElement w.readBuffer
      log := w.log ++ [.refused .readHeader code]
      state := .unknown
      waitable := none } := by
    rw [hi]
    simp only [Reader.advance, h.state, hreply, readFileEx, Reader.await]
  refine ⟨events_eq (by rw [hiter]), ?_⟩
  rw [hiter]
  exact ⟨h.counts, rfl, rfl, h.message⟩

/-- A round of the loop of a reader adrift: a header read would begin behind a header. -/
theorem Adrift.iterate (h : w.Adrift payloads) (i : Iteration) :
    (AtFrames payloads ⟨w, l, w.iterate i⟩ ↔ ¬ StartsHeader ⟨w, l, w.iterate i⟩) ∧
      (¬ StartsHeader ⟨w, l, w.iterate i⟩ → (w.iterate i).stopped = none →
        (w.iterate i).Adrift payloads) := by
  rcases w.iterate_cases i with hi | hi
  · rw [hi]
    obtain ⟨hframes, -, hstarts⟩ := silent payloads l w { w with stopped := some .finished } rfl
    exact ⟨iff_of_true hframes hstarts, nofun⟩
  · cases hreply : i.header with
    | started =>
        have hmem : .started .readHeader w.position sizeElement ∈ events ⟨w, l, w.iterate i⟩ :=
          h.starts hi hreply
        have hstarts : StartsHeader ⟨w, l, w.iterate i⟩ := ⟨_, hmem, trivial⟩
        have hframes : ¬ AtFrames payloads ⟨w, l, w.iterate i⟩ :=
          fun hframes ↦ h.not_boundary (hframes _ _ hmem)
        exact ⟨iff_of_false hframes (not_not_intro hstarts), fun hno ↦ absurd hstarts hno⟩
    | refused code =>
        obtain ⟨hev, hadrift⟩ := h.refused (l := l) hi hreply
        have hno : ∀ e ∈ events ⟨w, l, w.iterate i⟩, ¬ e.StartsHeader := by
          intro e he
          rw [hev] at he
          rw [List.mem_singleton.1 he]
          exact id
        refine ⟨iff_of_true (fun pos size hmem ↦ absurd trivial (hno _ hmem)) ?_, fun _ _ ↦ hadrift⟩
        rintro ⟨e, he, hstarts⟩
        exact hno e he hstarts

/-- What is outside the loop neither reads nor moves the reader. -/
theorem Standing.frame (h : w.Standing payloads) (onMessage : Event ℕ) (closeCalls : ℕ) (shutdown : Bool) :
    Standing payloads
      { w with onMessage := onMessage, closeCalls := closeCalls, shutdown := shutdown } := by
  obtain ⟨hcounts, done, todo, hsplit, hal⟩ := h
  exact ⟨hcounts, done, todo, hsplit, hal.frame onMessage closeCalls shutdown⟩

/-- **A step in a frame** starts header reads where frames begin, and leaves the reader in
a frame unless it has a message refused. -/
theorem Standing.step (hf : ∀ p ∈ payloads, p.length < 256 ^ sizeElement) (hstep : w.step l = some w')
    (hfull : ∀ e ∈ events ⟨w, l, w'⟩, e.Full) (h : w.Standing payloads) : Onward payloads ⟨w, l, w'⟩ := by
  obtain ⟨-, ⟨i, -, rfl⟩ | ⟨onMessage, closeCalls, shutdown, rfl⟩⟩ := step_cases hstep
  · exact h.iterate hf i hfull
  · obtain ⟨hframes, hrefuses, -⟩ := silent payloads l w { w with onMessage, closeCalls, shutdown } rfl
    exact ⟨hframes, .inl ⟨hrefuses, fun _ ↦ h.frame onMessage closeCalls shutdown⟩⟩

/-- **A step of a reader adrift** goes wrong exactly when it starts a header read. -/
theorem Adrift.step (hstep : w.step l = some w') (h : w.Adrift payloads) :
    (AtFrames payloads ⟨w, l, w'⟩ ↔ ¬ StartsHeader ⟨w, l, w'⟩) ∧
      (¬ StartsHeader ⟨w, l, w'⟩ → w'.stopped = none → w'.Adrift payloads) := by
  obtain ⟨-, ⟨i, -, rfl⟩ | ⟨onMessage, closeCalls, shutdown, rfl⟩⟩ := step_cases hstep
  · exact h.iterate i
  · obtain ⟨hframes, -, hstarts⟩ := silent payloads l w { w with onMessage, closeCalls, shutdown } rfl
    exact ⟨iff_of_true hframes hstarts, fun _ _ ↦ ⟨h.counts, h.state, h.waitable, h.message⟩⟩

/-! ## Runs -/

/-- A reader that has been started on the frames of `payloads` stands before the first. -/
theorem Standing.start (payloads : List (List UInt8)) (handle : HANDLE) (onMessage onClose : Event ℕ) :
    (start handle onMessage onClose (wire sizeElement payloads)).Standing payloads :=
  ⟨Nat.zero_add _, [], payloads, rfl, .idle rfl rfl rfl rfl rfl⟩

/-- **Header reads start at frame boundaries.**  Let every read that completes bring all
that was asked for.  Then every header read that is started begins where a frame begins
exactly when none is started after the content read of a message that is not empty has
been refused. -/
theorem headers_at_frames {handle : HANDLE} {onMessage onClose : Event ℕ}
    (hf : ∀ p ∈ payloads, p.length < 256 ^ sizeElement)
    (hrun : Run step (Reader.start handle onMessage onClose (wire sizeElement payloads)) ts w)
    (hfull : ∀ e ∈ w.log, e.Full) :
    (∀ pos size, .started .readHeader pos size ∈ w.log → Boundary sizeElement payloads pos) ↔
      ts.Pairwise fun a b ↦ RefusesMessage a → ¬ StartsHeader b := by
  have hlog : w.log = ts.flatMap events := log_eq_flatMap hrun
  have hevents : ∀ t ∈ ts, ∀ e ∈ events t, e.Full := fun t ht e he ↦
    hfull e (hlog ▸ List.mem_flatMap.2 ⟨t, ht, he⟩)
  rw [← hrun.pairwise_iff (A := fun w ↦ w.stopped = none → w.Standing payloads)
    (B := fun w ↦ w.stopped = none → w.Adrift payloads) (Q := AtFrames payloads)
    (fun ⟨_, _, _⟩ hs hH hA ↦ (hA (step_cases hs).1).step hf hs hH)
    (fun ⟨_, _, _⟩ hs _ hB ↦ (hB (step_cases hs).1).step hs)
    (fun _ ↦ .start payloads handle onMessage onClose) hevents]
  rw [hlog]
  constructor
  · intro hall t ht pos size hmem
    exact hall pos size (List.mem_flatMap.2 ⟨t, ht, hmem⟩)
  · intro hall pos size hmem
    obtain ⟨t, ht, hmem⟩ := List.mem_flatMap.1 hmem
    exact hall t ht pos size hmem

/-- Refused header reads, and the refused content read of an empty message, do no harm;
nor does that of another message when no header read is started after it. -/
theorem headers_at_frames_refusals : ∃ ts w,
    Run step (Reader.start 4 ⟨[0]⟩ ⟨[]⟩ (wire sizeElement [[], [7, 8]])) ts w ∧
      (∃ t ∈ ts, RefusesMessage t) ∧ .started .readHeader 4 sizeElement ∈ w.log ∧
      ∀ pos size, .started .readHeader pos size ∈ w.log → Boundary sizeElement [[], [7, 8]] pos := by
  obtain ⟨ts, w, hrun, hfull, hrefused, hstarted, hnone⟩ := Run.exists_of_trace step
    (Reader.start 4 ⟨[0]⟩ ⟨[]⟩ (wire sizeElement [[], [7, 8]]))
    [.iterate { header := .refused 5 },
      .iterate { first := [.completion 0 0 4, .signal], content := .refused 5 },
      .iterate { first := [.completion 0 0 4, .signal], content := .refused 5 },
      .iterate { header := .refused 5 }]
    (fun ts w ↦ (∀ e ∈ w.log, e.Full) ∧ (∃ t ∈ ts, RefusesMessage t) ∧
      .started .readHeader 4 sizeElement ∈ w.log ∧
      ts.Pairwise fun a b ↦ RefusesMessage a → ¬ StartsHeader b) ⟨_, rfl, by decide⟩
  exact ⟨ts, w, hrun, hrefused, hstarted, (headers_at_frames (by decide) hrun hfull).2 hnone⟩

/-- The content read is refused behind the header.  The next header read begins in front
of the message, whose first bytes are taken for the length of a message never sent. -/
theorem header_read_in_message : ∃ ts w,
    Run step (Reader.start 4 ⟨[0]⟩ ⟨[]⟩ (wire sizeElement [[2, 0, 0, 0, 7, 8]])) ts w ∧
      (∀ e ∈ w.log, e.Full) ∧ .started .readHeader 4 sizeElement ∈ w.log ∧
      ¬ Boundary sizeElement [[2, 0, 0, 0, 7, 8]] 4 ∧ w.delivered = [[7, 8]] := by
  obtain ⟨ts, w, hrun, hfull, hstarted, hdel⟩ := Run.exists_of_trace step
    (Reader.start 4 ⟨[0]⟩ ⟨[]⟩ (wire sizeElement [[2, 0, 0, 0, 7, 8]]))
    [.iterate { first := [.completion 0 0 4, .signal], content := .refused 5 },
      .iterate { first := [.completion 0 0 4, .signal] },
      .iterate { first := [.completion 0 0 2, .signal] }]
    (fun _ w ↦ (∀ e ∈ w.log, e.Full) ∧ .started .readHeader 4 sizeElement ∈ w.log ∧
      w.delivered = [[7, 8]]) ⟨_, rfl, by decide⟩
  have hbehind : ¬ Boundary sizeElement ([] ++ [[2, 0, 0, 0, 7, 8]]) 4 :=
    not_boundary_behind_header (List.cons_ne_nil _ _) (by decide) rfl
  exact ⟨ts, w, hrun, hfull, hstarted, hbehind, hdel⟩

end Reader

end Datapath.Windows
