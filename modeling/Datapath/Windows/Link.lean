import Datapath.Lib.Channel
import Datapath.Windows.Socket.Progress
import Datapath.Windows.Socket.Reuse

/-!
# A connection, from one end to the other

One socket writes tasks (`Sender`), the other one reads frames (`Reader`), and the pipe
between them takes the bytes of one write after the other out of the buffers of the tasks,
a few at a time, while both sides go on.  A `Link` is all three of them.

What such a connection is for is a channel (`Datapath.Lib.Channel`): a message is sent when
`write` reports success, and received when it is dispatched to `on_message`.  As long as no
task is written again before its write has completed, and no read is cut short, a link is one,
whatever the order in which all this happens (`refines_channel`); and as long as
the pipe is not broken and the reader not closed, no message is ever stuck (`drains`).
-/

namespace Datapath.Windows

open Datapath.Lib

/-- The two ends of a connection, and the pipe between them, in one direction. -/
structure Link where
  sender : Sender
  /-- The writes whose bytes have not all been taken, in the order in which they were started. -/
  queue : List Outgoing
  /-- How many bytes of the first one have been taken. -/
  moved : ℕ
  /-- The pipe is broken. -/
  broken : Bool
  reader : Reader

namespace Link

/-- No task has been written, and the reader has just been started. -/
def start (handle : HANDLE) (onMessage onClose : Event ℕ) : Link where
  sender := .start
  queue := []
  moved := 0
  broken := false
  reader := .start handle onMessage onClose []

/-- What can happen to a link. -/
inductive Label where
  /-- A call of `write`. -/
  | write (socketHandle : HANDLE) (task : ℕ) (data : List UInt8) (resized moved suc : Bool)
  /-- The pipe takes bytes out of the buffer of the first write. -/
  | flow (bytes : List UInt8)
  /-- A write completes: the first one when all its bytes have been taken, or any one when
  the pipe is broken. -/
  | complete (ov : ℕ) (c : Completion := {})
  | sever
  /-- What can happen to the reader. -/
  | read (l : Reader.Label)
deriving DecidableEq, Repr

/-- The pipe can read these bytes in the buffer of this write. -/
def CanFlow (l : Link) (op : Outgoing) (bytes : List UInt8) : Prop :=
  l.broken = false ∧ l.moved + bytes.length ≤ op.nNumberOfBytesToWrite ∧
    -- In memory that has been given back it can find anything.
    (l.sender.place op.task = op.place → bytes <+: (l.sender.storage op.task).drop l.moved)

instance (l : Link) (op : Outgoing) (bytes : List UInt8) : Decidable (l.CanFlow op bytes) :=
  inferInstanceAs (Decidable (_ ∧ _ ∧ (_ → _)))

/-- One step of a link. -/
def step (l : Link) : Label → Option Link
  | .write socketHandle task data resized moved suc =>
      if l.broken && suc then none
      else (l.sender.step (.write socketHandle task data resized moved suc)).map fun s ↦
        { l with sender := s, queue := l.queue ++ s.outstanding.drop l.sender.outstanding.length }
  | .flow bytes =>
      match l.queue with
      | [] => none
      | op :: _ =>
          if l.CanFlow op bytes then
            some { l with moved := l.moved + bytes.length, reader := l.reader.extend bytes }
          else none
  | .complete ov c =>
      match l.broken, l.queue with
      | true, _ => (l.sender.step (.complete ov c)).map fun s ↦ { l with sender := s }
      | false, [] => none
      | false, op :: queue =>
          if op.ov = ov ∧ l.moved = op.nNumberOfBytesToWrite then
            (l.sender.step (.complete ov c)).map fun s ↦
              { l with sender := s, queue := queue, moved := 0 }
          else none
  | .sever => some { l with broken := true }
  | .read r => (l.reader.step r).map fun w ↦ { l with reader := w }

/-- What a step sends and receives. -/
def exchanged (t : Transition Link Label) : List (Channel.Label (List UInt8)) :=
  match t.label with
  | .write _ _ data resized _ suc => if resized && suc then [.send data] else []
  | .read _ => (t.dst.reader.delivered.drop t.src.reader.delivered.length).map .receive
  | .flow _ | .complete .. | .sever => []

/-- A write whose payload can be counted, of a task that has no write in flight. -/
def Careful (t : Transition Link Label) : Prop :=
  match t.label with
  | .write socketHandle task data resized moved suc =>
      Sender.Careful ⟨t.src.sender, .write socketHandle task data resized moved suc, t.dst.sender⟩
  | .flow _ | .complete .. | .sever | .read _ => True

instance : DecidablePred Careful
  | ⟨l, .write socketHandle task data resized moved suc, l'⟩ => inferInstanceAs (Decidable
      (Sender.Careful ⟨l.sender, .write socketHandle task data resized moved suc, l'.sender⟩))
  | ⟨_, .flow _, _⟩ | ⟨_, .complete .., _⟩ | ⟨_, .sever, _⟩ | ⟨_, .read _, _⟩ => .isTrue trivial

/-! ## What is under way -/

/-- The bytes that have not been taken yet. -/
def rest (l : Link) : List UInt8 :=
  (wire sizeElement (l.queue.map Outgoing.payload)).drop l.moved

/-- The messages of `todo` are under way: in the reader's part of the pipe, or in the buffers
of the tasks. -/
structure Carries (l : Link) (todo : List (List UInt8)) : Prop where
  framable : Framable (l.reader.delivered ++ todo)
  reader : l.reader.stopped = none → (l.reader.extend l.rest).Aligned todo
  moved : ∀ op ∈ l.queue.head?, l.moved ≤ op.payload.length + sizeElement
  idle : l.queue = [] → l.moved = 0
  sender : l.broken = false → l.sender.Inv
  queued : l.broken = false → ∀ op ∈ l.queue, op ∈ l.sender.outstanding
  numbered : l.broken = false → (l.queue.map Outgoing.ov).Nodup ∧
    ∀ op ∈ l.queue, op.ov < l.sender.made

variable {l l' : Link} {todo : List (List UInt8)} {op : Outgoing} {queue : List Outgoing}

/-! ### Writes -/

/-- A write adds one operation at most, and gives it a new number. -/
theorem outstanding_write {s s' : Sender} {socketHandle : HANDLE} {task : ℕ} {data : List UInt8}
    {resized moved suc : Bool} (h : s.step (.write socketHandle task data resized moved suc) = some s') :
    s'.outstanding = s.outstanding ++ (if resized && suc then [s.started task data moved] else []) ∧
      s.made ≤ s'.made ∧ ((resized && suc) = true → s.made < s'.made) := by
  obtain ⟨-, heq⟩ := Option.ite_none_right_eq_some.1 h
  cases heq
  cases resized with
  | false => exact ⟨(List.append_nil _).symm, Nat.le_refl _, fun hno ↦ absurd hno Bool.false_ne_true⟩
  | true =>
      rw [Sender.write_eq]
      exact ⟨rfl, Nat.le_succ _, fun _ ↦ Nat.lt_succ_self _⟩

/-- The bytes of a new write come behind all others. -/
theorem rest_append (l : Link) (ops : List Outgoing) (hmoved : ∀ op ∈ l.queue.head?,
    l.moved ≤ op.payload.length + sizeElement) (hidle : l.queue = [] → l.moved = 0) (s : Sender) :
    rest { l with sender := s, queue := l.queue ++ ops } =
      l.rest ++ wire sizeElement (ops.map Outgoing.payload) := by
  have hle : l.moved ≤ (wire sizeElement (l.queue.map Outgoing.payload)).length := by
    cases hq : l.queue with
    | nil =>
        rw [hidle hq]
        exact Nat.zero_le _
    | cons op queue =>
        have hop := hmoved op (by rw [hq]; rfl)
        rw [List.map_cons, wire_cons, List.length_append, List.length_append, length_toLE]
        omega
  unfold rest
  rw [List.map_append, wire_append, List.drop_append_of_le_length hle]

/-- A frame that is written comes behind the others. -/
theorem Carries.write {socketHandle : HANDLE} {task : ℕ} {data : List UInt8} {resized moved suc : Bool}
    (h : l.Carries todo) (hs : l.step (.write socketHandle task data resized moved suc) = some l')
    (hcareful : Careful ⟨l, .write socketHandle task data resized moved suc, l'⟩) :
    l'.Carries (todo ++ if resized && suc then [data] else []) := by
  obtain ⟨hbroken, hmap⟩ := Option.ite_none_left_eq_some.1 hs
  obtain ⟨s, hsender, rfl⟩ := Option.map_eq_some_iff.1 hmap
  have hsize : (resized && suc) = true → data.length < 2 ^ 32 - 4 := by
    intro hstarted
    obtain ⟨hresized, hsuc⟩ := Bool.and_eq_true_iff.1 hstarted
    exact (hcareful hresized).1 hsuc
  obtain ⟨hout, hmade, hnew⟩ := outstanding_write hsender
  have hinv : l.broken = false → s.Inv := fun hb ↦
    Sender.Inv.step (t := ⟨l.sender, _, s⟩) hsender hcareful (h.sender hb)
  rw [hout, List.drop_left]
  cases hstarted : resized && suc with
  | false =>
      simp only [hstarted, Bool.false_eq_true, if_false, List.append_nil] at hout ⊢
      refine ⟨h.framable, h.reader, h.moved, h.idle, hinv, fun hb ↦ ?_, fun hb ↦ ?_⟩
      · rw [hout]
        exact h.queued hb
      · obtain ⟨hnodup, hlt⟩ := h.numbered hb
        exact ⟨hnodup, fun op hop ↦ Nat.lt_of_lt_of_le (hlt op hop) hmade⟩
  | true =>
      simp only [hstarted, if_true] at hout ⊢
      have hrest := l.rest_append [l.sender.started task data moved] h.moved h.idle s
      refine ⟨?_, fun hgo ↦ ?_, ?_, fun hnil ↦ ?_, hinv, fun hb ↦ ?_, fun hb ↦ ?_⟩
      · rw [← List.append_assoc]
        exact List.forall_mem_append.2 ⟨h.framable, List.forall_mem_singleton.2 (hsize hstarted)⟩
      · rw [hrest]
        have hframe := (h.reader hgo).extend_frame data
        rw [Reader.extend_extend] at hframe
        have hwire : wire sizeElement [data] = frame sizeElement data := List.append_nil _
        exact hwire.symm ▸ hframe
      · cases hq : l.queue with
        | nil =>
            rw [List.nil_append, h.idle hq]
            exact fun _ _ ↦ Nat.zero_le _
        | cons op queue =>
            intro op' hop'
            exact h.moved op' (by rw [hq]; exact hop')
      · exact absurd hnil (List.append_ne_nil_of_right_ne_nil _ (List.cons_ne_nil _ _))
      · rw [hout]
        intro op hop
        rcases List.mem_append.1 hop with hold | hstart
        · exact List.mem_append_left _ (h.queued hb op hold)
        · exact List.mem_append_right _ hstart
      · obtain ⟨hnodup, hlt⟩ := h.numbered hb
        rw [List.map_append, List.nodup_append]
        refine ⟨⟨hnodup, List.pairwise_singleton _ _, ?_⟩, ?_⟩
        · rintro a ha b hb' rfl
          obtain ⟨op, hop, rfl⟩ := List.mem_map.1 ha
          have hself : op.ov = l.sender.made := List.mem_singleton.1 hb'
          exact absurd (hlt op hop) (by omega)
        · intro op hop
          rcases List.mem_append.1 hop with hold | hstart
          · exact Nat.lt_of_lt_of_le (hlt op hold) hmade
          · rw [List.mem_singleton.1 hstart]
            exact hnew hstarted

/-! ### The pipe -/

/-- The frame of a write that is in flight, which is what the pipe finds. -/
theorem Carries.take_eq (h : l.Carries todo) (hb : l.broken = false) (hop : op ∈ l.queue) :
    (l.sender.storage op.task).take op.nNumberOfBytesToWrite = frame sizeElement op.payload ∧
      op.nNumberOfBytesToWrite = (frame sizeElement op.payload).length ∧
      l.sender.place op.task = op.place := by
  have hexact := (h.sender hb).exact op (h.queued hb op hop)
  have hcounted := (h.sender hb).sound.counted op (h.queued hb op hop)
  exact ⟨hexact.bytes, (hexact.length hcounted).symm, hexact.place⟩

theorem flow_cases {bytes : List UInt8} (hs : l.step (.flow bytes) = some l') :
    ∃ op queue, l.queue = op :: queue ∧ l.CanFlow op bytes ∧
      l' = { l with moved := l.moved + bytes.length, reader := l.reader.extend bytes } := by
  simp only [step] at hs
  split at hs
  · cases hs
  · rename_i op queue hq
    obtain ⟨hcan, heq⟩ := Option.ite_none_right_eq_some.1 hs
    exact ⟨op, queue, hq, hcan, (Option.some.inj heq).symm⟩

theorem complete_cases {ov : ℕ} {c : Completion} (hs : l.step (.complete ov c) = some l') :
    ∃ s, l.sender.step (.complete ov c) = some s ∧
      ((l.broken = true ∧ l' = { l with sender := s }) ∨
        (l.broken = false ∧ ∃ op queue, l.queue = op :: queue ∧ op.ov = ov ∧
          l.moved = op.nNumberOfBytesToWrite ∧ l' = { l with sender := s, queue := queue, moved := 0 })) := by
  simp only [step] at hs
  split at hs
  · rename_i hb
    obtain ⟨s, hsender, rfl⟩ := Option.map_eq_some_iff.1 hs
    exact ⟨s, hsender, .inl ⟨hb, rfl⟩⟩
  · cases hs
  · rename_i op queue hb hq
    obtain ⟨⟨hov, hmoved⟩, hmap⟩ := Option.ite_none_right_eq_some.1 hs
    obtain ⟨s, hsender, rfl⟩ := Option.map_eq_some_iff.1 hmap
    exact ⟨s, hsender, .inr ⟨hb, op, queue, hq, hov, hmoved, rfl⟩⟩

/-- **What arrives is what was under way.** -/
theorem Carries.flow {bytes : List UInt8} (h : l.Carries todo) (hs : l.step (.flow bytes) = some l') :
    l'.Carries todo := by
  obtain ⟨op, queue, hq, ⟨hb, hcount, hread⟩, rfl⟩ := flow_cases hs
  obtain ⟨htake, hlength, hplace⟩ := h.take_eq hb (by rw [hq]; exact List.mem_cons_self)
  have hmoved : l.moved ≤ (frame sizeElement op.payload).length := by omega
  -- The bytes are the next ones of the frame.
  have hnext : bytes <+: (frame sizeElement op.payload).drop l.moved := by
    rw [← htake, List.drop_take, List.prefix_take_iff]
    exact ⟨hread hplace, by omega⟩
  have hrest : l.rest = bytes ++ rest { l with
      moved := l.moved + bytes.length, reader := l.reader.extend bytes } := by
    obtain ⟨tail, htail⟩ := hnext
    have hsplit : l.rest = bytes ++ (tail ++ wire sizeElement (queue.map Outgoing.payload)) := by
      rw [rest, hq, List.map_cons, ← List.append_assoc, htail]
      exact List.drop_append_of_le_length hmoved
    have hdrop : rest { l with moved := l.moved + bytes.length, reader := l.reader.extend bytes } =
        l.rest.drop bytes.length := by
      rw [rest, rest, List.drop_drop]
    rw [hdrop, hsplit, List.drop_left]
  refine ⟨h.framable, fun hgo ↦ ?_, fun op' hop' ↦ ?_, fun hnil ↦ ?_, h.sender, h.queued, h.numbered⟩
  · have hal := h.reader hgo
    rw [hrest, ← Reader.extend_extend] at hal
    exact hal
  · cases Option.some.inj ((congrArg List.head? hq).symm.trans hop')
    rw [Sender.length_frame] at hlength
    show l.moved + bytes.length ≤ op.payload.length + 4
    omega
  · exact absurd (hq.symm.trans hnil) (List.cons_ne_nil _ _)

/-- When the pipe is broken, nothing matters of the sender any more. -/
theorem Carries.of_broken (h : l.Carries todo) (hb : l'.broken = true) (hqueue : l'.queue = l.queue)
    (hmoved : l'.moved = l.moved) (hreader : l'.reader = l.reader) : l'.Carries todo := by
  have hno : ¬ l'.broken = false := fun h' ↦ Bool.false_ne_true (h'.symm.trans hb)
  have hrest : l'.rest = l.rest := by
    rw [rest, rest, hqueue, hmoved]
  refine ⟨?_, ?_, ?_, ?_, fun h' ↦ absurd h' hno, fun h' ↦ absurd h' hno, fun h' ↦ absurd h' hno⟩
  · rw [hreader]
    exact h.framable
  · rw [hrest, hreader]
    exact h.reader
  · rw [hqueue, hmoved]
    exact h.moved
  · rw [hqueue, hmoved]
    exact h.idle

/-- Writes that complete take nothing with them. -/
theorem Carries.complete {ov : ℕ} {c : Completion} (h : l.Carries todo)
    (hs : l.step (.complete ov c) = some l') : l'.Carries todo := by
  obtain ⟨s, hsender, ⟨hb, rfl⟩ | ⟨hb, op, queue, hq, rfl, hmoved, rfl⟩⟩ := complete_cases hs
  · exact h.of_broken hb rfl rfl rfl
  · obtain ⟨-, hlength, -⟩ := h.take_eq hb (by rw [hq]; exact List.mem_cons_self)
    have hrest : l.rest = rest { l with sender := s, queue := queue, moved := 0 } := by
      rw [rest, rest, hq, hmoved, hlength]
      exact List.drop_left
    obtain ⟨hnodup, hlt⟩ := h.numbered hb
    rw [hq, List.map_cons, List.nodup_cons] at hnodup
    have hinv : s.Inv := (h.sender hb).complete hsender
    obtain ⟨-, heq⟩ := Option.ite_none_right_eq_some.1 hsender
    cases heq
    refine ⟨h.framable, fun hgo ↦ hrest ▸ h.reader hgo, fun _ _ ↦ Nat.zero_le _, fun _ ↦ rfl,
      fun _ ↦ hinv, fun _ op' hop' ↦ ?_, fun _ ↦ ⟨hnodup.2, fun op' hop' ↦ ?_⟩⟩
    · refine List.mem_filter.2 ⟨h.queued hb op' (by rw [hq]; exact List.mem_cons_of_mem _ hop'), ?_⟩
      refine decide_eq_true fun heq ↦ hnodup.1 ?_
      rw [← heq]
      exact List.mem_map_of_mem hop'
    · exact hlt op' (by rw [hq]; exact List.mem_cons_of_mem _ hop')

/-! ### The reader -/

/-- A step of the reader takes messages from the front of those under way. -/
theorem Carries.read {r : Reader.Label} (h : l.Carries todo) (hs : l.step (.read r) = some l')
    (hclean : l'.reader.CleanLog) :
    ∃ ms todo', ms ++ todo' = todo ∧ l'.reader.delivered = l.reader.delivered ++ ms ∧ l'.Carries todo' := by
  obtain ⟨w, hw, rfl⟩ := Option.map_eq_some_iff.1 hs
  have hgo := (Reader.step_cases hw).1
  have haccounts : l.reader.Accounts (l.reader.delivered ++ todo) l.rest :=
    fun _ ↦ ⟨todo, rfl, (h.reader hgo).rest_suffix, fun _ ↦ h.reader hgo⟩
  have hframed : ∀ p ∈ l.reader.delivered ++ todo, p.length < 256 ^ sizeElement := fun p hp ↦
    Nat.lt_of_lt_of_le (h.framable p hp) (by decide)
  obtain ⟨todo', htodo', -, hal⟩ := haccounts.step hframed hw hclean
  obtain ⟨ms, hms⟩ := (Reader.step_grows hw).delivered
  refine ⟨ms, todo', ?_, hms.symm, ?_, hal, h.moved, h.idle, h.sender, h.queued, h.numbered⟩
  · rw [← hms, List.append_assoc] at htodo'
    exact List.append_cancel_left htodo'
  · exact htodo'.symm ▸ h.framable

/-! ## A link is a channel -/

/-- **One step** of a link sends and receives as a channel does. -/
theorem simulation : Simulation step Channel.step exchanged
    (fun t ↦ Careful t ∧ t.dst.reader.CleanLog) Carries where
  matched := by
    rintro ⟨l, label, l'⟩ todo hs ⟨hcareful, hclean⟩ h
    cases label with
    | write socketHandle task data resized moved suc =>
        have hcarries := h.write hs hcareful
        show ∃ todo', Steps Channel.step todo (if resized && suc then [.send data] else []) todo' ∧ _
        cases hstarted : resized && suc with
        | false =>
            rw [hstarted] at hcarries
            exact ⟨todo, .nil todo, List.append_nil todo ▸ hcarries⟩
        | true =>
            rw [hstarted] at hcarries
            exact ⟨todo ++ [data], .single rfl, hcarries⟩
    | flow bytes => exact ⟨todo, .nil todo, h.flow hs⟩
    | complete ov c => exact ⟨todo, .nil todo, h.complete hs⟩
    | sever =>
        have heq : { l with broken := true } = l' := Option.some.inj hs
        subst heq
        exact ⟨todo, .nil todo, h.of_broken rfl rfl rfl rfl⟩
    | read r =>
        obtain ⟨ms, todo', rfl, hdelivered, hcarries⟩ := h.read hs hclean
        refine ⟨todo', ?_, hcarries⟩
        show Steps Channel.step _ ((l'.reader.delivered.drop l.reader.delivered.length).map .receive) _
        rw [hdelivered, List.drop_left]
        exact Channel.steps_receive ms todo'

/-- What a step receives is what has been dispatched in it. -/
theorem step_reader {label : Label} (hs : l.step label = some l') :
    l.reader.log <+: l'.reader.log ∧
      l'.reader.delivered = l.reader.delivered ++ Channel.received (exchanged ⟨l, label, l'⟩) := by
  -- All steps but those of the reader leave the log and the deliveries alone.
  have hsame : l'.reader.log = l.reader.log → l'.reader.delivered = l.reader.delivered →
      Channel.received (exchanged ⟨l, label, l'⟩) = [] → l.reader.log <+: l'.reader.log ∧
        l'.reader.delivered = l.reader.delivered ++ Channel.received (exchanged ⟨l, label, l'⟩) := by
    intro hlog hdelivered hnone
    exact ⟨hlog ▸ List.prefix_refl _, by rw [hnone, List.append_nil, hdelivered]⟩
  cases label with
  | write socketHandle task data resized moved suc =>
      obtain ⟨-, hmap⟩ := Option.ite_none_left_eq_some.1 hs
      obtain ⟨s, -, rfl⟩ := Option.map_eq_some_iff.1 hmap
      refine hsame rfl rfl ?_
      simp only [exchanged]
      split
      · rfl
      · rfl
  | flow bytes =>
      obtain ⟨op, queue, -, -, rfl⟩ := flow_cases hs
      exact hsame rfl rfl rfl
  | complete ov c =>
      obtain ⟨s, -, ⟨-, rfl⟩ | ⟨-, op, queue, -, -, -, rfl⟩⟩ := complete_cases hs
      · exact hsame rfl rfl rfl
      · exact hsame rfl rfl rfl
  | sever =>
      obtain rfl := Option.some.inj hs
      exact hsame rfl rfl rfl
  | read r =>
      obtain ⟨w, hw, rfl⟩ := Option.map_eq_some_iff.1 hs
      have hgrows := Reader.step_grows hw
      refine ⟨hgrows.log, ?_⟩
      obtain ⟨ms, hms⟩ := hgrows.delivered
      simp only [exchanged, Channel.received_map_receive]
      rw [← hms, List.drop_left]

variable {handle : HANDLE} {onMessage onClose : Event ℕ} {ts : List (Transition Link Label)}

theorem Carries.start (handle : HANDLE) (onMessage onClose : Event ℕ) :
    (start handle onMessage onClose).Carries [] where
  framable := List.forall_mem_nil _
  reader _ := .idle rfl rfl rfl rfl rfl
  moved _ _ := Nat.zero_le _
  idle _ := rfl
  sender _ := .start
  queued _ := List.forall_mem_nil _
  numbered _ := ⟨List.nodup_nil, List.forall_mem_nil _⟩

theorem received_exchanged (hrun : Run step l ts l') :
    l'.reader.delivered = l.reader.delivered ++ Channel.received (ts.flatMap exchanged) := by
  induction hrun with
  | nil => exact (List.append_nil _).symm
  | cons hs _ ih =>
      rw [List.flatMap_cons, Channel.received_append, ← List.append_assoc, ← (step_reader hs).2]
      exact ih

/-- In a run that ends with a clean log, it has been clean all the time. -/
theorem clean_of_run (hrun : Run step l ts l') (hclean : l'.reader.CleanLog) :
    ∀ t ∈ ts, t.dst.reader.CleanLog := by
  obtain ⟨-, hall⟩ := hrun.grows (r := fun l l' ↦ l.reader.log <+: l'.reader.log)
    (fun _ ↦ List.prefix_refl _) (fun _ _ _ ↦ List.IsPrefix.trans) fun _ _ _ hs ↦ (step_reader hs).1
  exact fun t ht ↦ hclean.mono (hall t ht).2

/-- In every run of careful writes and clean reads, what is exchanged is what a channel
exchanges, and what is on its way in the channel is under way in the link. -/
theorem Carries.run (hrun : Run step (Link.start handle onMessage onClose) ts l)
    (hcareful : ∀ t ∈ ts, Careful t) (hclean : l.reader.CleanLog) :
    ∃ todo, Steps Channel.step [] (ts.flatMap exchanged) todo ∧ l.Carries todo :=
  simulation.run hrun (Carries.start handle onMessage onClose) fun t ht ↦
    ⟨hcareful t ht, clean_of_run hrun hclean t ht⟩

/-- **A connection is a channel.**  In every run of a link, of whatever writes, transfers,
completions, reads and changes of the listeners, what is sent and received is a run of a
channel: so what has been dispatched to `on_message` is the beginning of what has been
written with success, in the order in which it was written. -/
theorem refines_channel (hrun : Run step (Link.start handle onMessage onClose) ts l)
    (hcareful : ∀ t ∈ ts, Careful t) (hclean : l.reader.CleanLog) :
    (∃ todo, Steps Channel.step [] (ts.flatMap exchanged) todo) ∧
      Channel.received (ts.flatMap exchanged) = l.reader.delivered ∧
      l.reader.delivered <+: Channel.sent (ts.flatMap exchanged) := by
  obtain ⟨todo, hsteps, -⟩ := Carries.run hrun hcareful hclean
  have hreceived := received_exchanged hrun
  rw [show (Link.start handle onMessage onClose).reader.delivered = [] from rfl, List.nil_append] at hreceived
  refine ⟨⟨todo, hsteps⟩, hreceived.symm, ?_⟩
  rw [hreceived]
  exact Channel.received_prefix hsteps

/-- The header of the second message arrives while the first one is held for want of a
listener, its content only after a task has been written again. -/
theorem refines_channel_two : ∃ ts l, Run step (Link.start 4 ⟨[]⟩ ⟨[]⟩) ts l ∧
    l.reader.delivered = [[7]] ∧ Channel.sent (ts.flatMap exchanged) = [[7], [8, 9], []] ∧
    l.reader.delivered <+: Channel.sent (ts.flatMap exchanged) := by
  obtain ⟨ts, l, hrun, hcareful, hclean, hdelivered, hsent⟩ := Run.exists_of_trace step
    (Link.start 4 ⟨[]⟩ ⟨[]⟩)
    [.write 6 0 [7] true true true, .flow [1, 0, 0], .write 6 1 [8, 9] true true true,
      .read (.iterate { first := [.timeout], second := [.timeout] }), .flow [0, 7], .complete 0,
      .read (.iterate { first := [.completion 0 0 4, .signal] }),
      .read (.iterate { first := [.completion 0 0 1, .signal] }), .flow [2, 0, 0, 0],
      .write 6 0 [] true false true, .read (.addListener 0), .read (.iterate {}),
      .read (.iterate { first := [.completion 0 0 4, .signal] }), .flow [8]]
    (fun ts l ↦ (∀ t ∈ ts, Careful t) ∧ l.reader.CleanLog ∧ l.reader.delivered = [[7]] ∧
      Channel.sent (ts.flatMap exchanged) = [[7], [8, 9], []]) ⟨_, rfl, by decide⟩
  exact ⟨ts, l, hrun, hdelivered, hsent, (refines_channel hrun hcareful hclean).2.2⟩

/-! ## No message is stuck -/

/-- A step of the pipe, or a round of the reader. -/
def Label.Serves : Label → Prop
  | .flow _ | .complete .. | .read (.iterate _) => True
  | .write .. | .sever | .read _ => False

/-- What the reader can do, the link can. -/
theorem steps_read {w w' : Reader} {is : List Iteration} (l : Link)
    (h : Steps Reader.step w (is.map .iterate) w') :
    Steps step { l with reader := w } (is.map (.read ∘ .iterate)) { l with reader := w' } := by
  obtain ⟨ts, hrun, hlabels⟩ := h
  induction hrun generalizing is with
  | nil w =>
      cases is with
      | nil => exact .nil _
      | cons i is => cases hlabels
  | cons hs _ ih =>
      cases is with
      | nil => cases hlabels
      | cons i is =>
          obtain ⟨rfl, hrest⟩ := List.cons_eq_cons.1 hlabels
          refine .cons ?_ (ih hrest)
          simp only [Function.comp_apply, step, hs, Option.map_some]

/-- The pipe can take what is left of the first write. -/
theorem Carries.takes (h : l.Carries todo) (hb : l.broken = false) (hq : l.queue = op :: queue) :
    ∃ bytes l', Steps step l [.flow bytes, .complete op.ov] l' ∧ l'.Carries todo ∧ l'.broken = false ∧
      l'.queue = queue ∧ l'.reader = l.reader.extend bytes ∧ l.rest = bytes ++ l'.rest := by
  have hop : op ∈ l.queue := by
    rw [hq]
    exact List.mem_cons_self
  obtain ⟨htake, hlength, hplace⟩ := h.take_eq hb hop
  have hmoved : l.moved ≤ (frame sizeElement op.payload).length := by
    rw [Sender.length_frame]
    exact h.moved op (by rw [hq]; rfl)
  have hcount : l.moved + ((frame sizeElement op.payload).drop l.moved).length =
      op.nNumberOfBytesToWrite := by
    rw [List.length_drop, hlength]
    omega
  generalize hbytes : (frame sizeElement op.payload).drop l.moved = bytes at hcount
  have hcan : l.CanFlow op bytes := by
    refine ⟨hb, Nat.le_of_eq hcount, fun _ ↦ ?_⟩
    rw [← hbytes, ← htake, List.drop_take]
    exact List.take_prefix _ _
  have hflow : l.step (.flow bytes) =
      some { l with moved := l.moved + bytes.length, reader := l.reader.extend bytes } := by
    simp only [step, hq]
    exact if_pos hcan
  have hsender : l.sender.step (.complete op.ov) =
      some { l.sender with outstanding := l.sender.outstanding.filter (·.ov ≠ op.ov) } :=
    if_pos ⟨List.mem_map_of_mem (h.queued hb op hop), nofun⟩
  have hcomplete : step { l with moved := l.moved + bytes.length, reader := l.reader.extend bytes }
      (.complete op.ov) = some { l with
        sender := { l.sender with outstanding := l.sender.outstanding.filter (·.ov ≠ op.ov) }
        queue := queue
        moved := 0
        reader := l.reader.extend bytes } := by
    simp only [step, hb, hq, hcount, hsender, Option.map_some, and_self, if_true]
  refine ⟨bytes, _, .cons hflow (.single hcomplete), (h.flow hflow).complete hcomplete, hb, rfl, rfl, ?_⟩
  rw [rest, rest, hq, List.map_cons, ← hbytes]
  exact List.drop_append_of_le_length hmoved

/-- The pipe can take all that is left. -/
theorem Carries.takes_all (h : l.Carries todo) (hb : l.broken = false) :
    ∃ ls l', Steps step l ls l' ∧ (∀ label ∈ ls, label.Serves) ∧ ls.length = 2 * l.queue.length ∧
      l'.Carries todo ∧ l'.queue = [] ∧ l'.reader = l.reader.extend l.rest := by
  generalize hq : l.queue = queue
  induction queue generalizing l with
  | nil =>
      refine ⟨[], l, .nil l, List.forall_mem_nil _, rfl, h, hq, ?_⟩
      have hrest : l.rest = [] := by
        rw [rest, hq]
        exact List.drop_nil
      rw [hrest, Reader.extend_nil]
  | cons op queue ih =>
      obtain ⟨bytes, l₁, hsteps, hcarries, hb₁, hq₁, hreader₁, hrest⟩ := h.takes hb hq
      obtain ⟨ls, l₂, hsteps', hserves, hlength, hcarries', hq₂, hreader₂⟩ := ih hcarries hb₁ hq₁
      refine ⟨_, l₂, hsteps.append hsteps', ?_, ?_, hcarries', hq₂, ?_⟩
      · exact List.forall_mem_append.2 ⟨by simp [Label.Serves], hserves⟩
      · rw [List.length_append, hlength, List.length_cons, List.length_cons, List.length_cons]
        exact Nat.add_comm _ _
      · rw [hreader₂, hreader₁, Reader.extend_extend, hrest]

/-- **No message is ever stuck.**  Whatever has happened, as long as the pipe is not broken
and the reader not closed and has a listener, all that has been written with success is
dispatched once the pipe and the reader go on: after two steps of the pipe for each write
that is in flight, and two rounds of the reader for each message.  The read of an empty
message completes on an empty pipe. -/
theorem drains (hrun : Run step (Link.start handle onMessage onClose) ts l)
    (hcareful : ∀ t ∈ ts, Careful t) (hclean : l.reader.CleanLog) (hb : l.broken = false)
    (hattended : l.reader.Attended) :
    ∃ ls l', Steps step l ls l' ∧ (∀ label ∈ ls, label.Serves) ∧
      ls.length ≤ 2 * l.queue.length +
        2 * ((Channel.sent (ts.flatMap exchanged)).length - l.reader.delivered.length) ∧
      l'.reader.delivered = Channel.sent (ts.flatMap exchanged) ∧ l'.queue = [] ∧ l'.reader.CleanLog := by
  obtain ⟨todo, hsteps, hcarries⟩ := Carries.run hrun hcareful hclean
  have hsent : l.reader.delivered ++ todo = Channel.sent (ts.flatMap exchanged) := by
    rw [received_exchanged hrun]
    exact (Channel.in_order hsteps).symm
  obtain ⟨ls, l₁, htaken, hserves, hlength, -, hq, hreader⟩ := hcarries.takes_all hb
  have hframed : ∀ p ∈ todo, p.length < 256 ^ sizeElement := fun p hp ↦
    Nat.lt_of_lt_of_le (hcarries.framable p (List.mem_append_right _ hp)) (by decide)
  obtain ⟨is, w, hreads, hrounds, hdrains⟩ := (hcarries.reader hattended.going).reads_on
    (hattended.frame rfl rfl rfl rfl rfl) hclean hframed
  have hread := hreads []
  rw [Reader.extend_nil, Reader.extend_nil, ← hreader] at hread
  refine ⟨ls ++ is.map (.read ∘ .iterate), { l₁ with reader := w },
    htaken.append (l₁.steps_read hread), ?_, ?_, hdrains.delivered.trans hsent, hq, hdrains.clean⟩
  · refine List.forall_mem_append.2 ⟨hserves, fun label hlabel ↦ ?_⟩
    obtain ⟨i, -, rfl⟩ := List.mem_map.1 hlabel
    trivial
  · rw [List.length_append, hlength, List.length_map, ← hsent, List.length_append]
    omega

/-- The second message is in the buffer of its task when the reader gets a listener. -/
theorem drains_two : ∃ l ls l', Steps step l ls l' ∧ l.reader.delivered = [] ∧
    l'.reader.delivered = [[7], [8, 9]] := by
  obtain ⟨ts, l, hrun, hcareful, hclean, hb, hgo, hshutdown, hhandle, hconnected, hlisten, hnone, hsent⟩ :=
    Run.exists_of_trace step (Link.start 4 ⟨[]⟩ ⟨[]⟩)
    [.write 6 0 [7] true true true, .flow [1, 0, 0, 0, 7], .write 6 1 [8, 9] true true true,
      .read (.iterate { first := [.completion 0 0 4, .signal] }), .read (.addListener 0)]
    (fun ts l ↦ (∀ t ∈ ts, Careful t) ∧ l.reader.CleanLog ∧ l.broken = false ∧ l.reader.stopped = none ∧
      l.reader.shutdown = false ∧ l.reader.socketHandle ≠ invalidHandleValue ∧
      l.reader.isConnected = true ∧ l.reader.onMessage.toBool = true ∧ l.reader.delivered = [] ∧
      Channel.sent (ts.flatMap exchanged) = [[7], [8, 9]]) ⟨_, rfl, by decide⟩
  obtain ⟨ls, l', hsteps, -, -, hdelivered, -, -⟩ :=
    drains hrun hcareful hclean hb ⟨hgo, ⟨hshutdown, hhandle, hconnected⟩, hlisten⟩
  exact ⟨l, ls, l', hsteps, hnone, hdelivered.trans hsent⟩

end Link

end Datapath.Windows
