import Datapath.Interface
import Datapath.Lib.Run

/-!
# The benchmark

The client of the benchmark sends a time stamp, waits for it to come back, and sends the
next; the server writes back whatever comes in.  Two threads of the client share
`can_send_msg`: its own `_watcher` clears it after a write, and the watcher of its socket
sets it when a message comes in.  Nothing keeps these apart.  So there is never more than
one message under way (`one_under_way`), but a reply that comes in before `_watcher` has
cleared the variable is forgotten, and then, as after a write that has failed, nothing is
ever sent again (`stalls_iff`).

Each direction of the connection is a queue of messages, which is what a link comes to.
`T` is the type of the time stamps.
-/

namespace Datapath.Samples

open Datapath.Lib

/-- `COUNT`. -/
def count : ℕ := 10000

/-- Where `client::_watcher` is in a round of its loop. -/
inductive Pc where
  | top
  /-- Past the tests of `shutdown` and `COUNT`. -/
  | entered
  /-- Before the call of `write`. -/
  | writing
  /-- Before `send_cnt` is incremented. -/
  | wrote
  /-- Before `can_send_msg` is cleared. -/
  | counted
  /-- Before it waits for the task, or sleeps if there is none. -/
  | waiting
  /-- Out of the loop. -/
  | ended
deriving DecidableEq, Repr

/-- The client, and the messages that are under way. -/
structure Benchmark (T : Type*) where
  pc : Pc := .top
  /-- `task` points to a task. -/
  task : Bool := false
  cnt : ℕ := 0
  sendCnt : ℕ := 0
  canSendMsg : Bool := true
  shutdown : Bool := false
  /-- The message that `handle_message` has been called with. -/
  handling : Option T := none
  /-- What the measurer has been told about, by their stamps. -/
  tracked : List T := []
  /-- From the client to the server. -/
  up : List T := []
  /-- From the server to the client. -/
  down : List T := []
deriving DecidableEq, Repr

namespace Benchmark

variable {T : Type*}

/-- What can happen next. -/
inductive Label (T : Type*) where
  /-- `_watcher` tests whether there is another round. -/
  | enter
  /-- It tests whether it may write. -/
  | check
  /-- It writes the time; `suc` tells whether the write succeeds. -/
  | write (now : T) (suc : Bool)
  | increment
  | clear
  /-- The second of its two waits ends, or the first with success. -/
  | wait (ec : error)
  /-- `handle_message` of the server; `suc` tells whether its write succeeds. -/
  | echo (suc : Bool)
  /-- `handle_message` of the client is called, and sets `can_send_msg`. -/
  | receive
  /-- It ends. -/
  | track
  /-- `handle_close` of the client. -/
  | close
deriving DecidableEq, Repr

/-- Where the tests at the head of the loop lead. -/
def entry (b : Benchmark T) : Pc :=
  if b.shutdown then .ended
  else if count ≤ b.sendCnt then .ended
  else .entered

/-- Where the test before the write leads. -/
def next (b : Benchmark T) : Pc :=
  if !b.task && b.sendCnt < count && b.canSendMsg then .writing else .waiting

/-- Whether there is a task after the waits for it. -/
def stillTask (task : Bool) (ec : error) : Bool :=
  if task then
    if ec = .success then false
    else if ec ≠ .timedOut then false
    else true
  else false

/-- One step. -/
def step (b : Benchmark T) : Label T → Option (Benchmark T)
  | .enter => if b.pc = .top then some { b with pc := b.entry } else none
  | .check => if b.pc = .entered then some { b with pc := b.next } else none
  | .write now suc =>
      -- The task is made before the write is tried.
      if b.pc = .writing then
        some { b with pc := .wrote, task := true, up := if suc then b.up ++ [now] else b.up }
      else none
  | .increment =>
      if b.pc = .wrote then some { b with pc := .counted, sendCnt := b.sendCnt + 1 } else none
  | .clear =>
      if b.pc = .counted then some { b with pc := .waiting, canSendMsg := false } else none
  | .wait ec =>
      if b.pc = .waiting then some { b with pc := .top, task := stillTask b.task ec } else none
  | .echo suc =>
      match b.up with
      | [] => none
      | m :: rest => some { b with up := rest, down := if suc then b.down ++ [m] else b.down }
  | .receive =>
      match b.handling, b.down with
      | none, m :: rest => some { b with down := rest, canSendMsg := true, handling := some m }
      | none, [] => none
      | some _, _ => none
  | .track =>
      match b.handling with
      | none => none
      | some m => some { b with handling := none, tracked := b.tracked ++ [m], cnt := b.cnt + 1 }
  | .close => some { b with shutdown := true }

/-- The benchmark when the client is connected. -/
def start : Benchmark T := {}

/-- The client does not write before a reply sets `can_send_msg` again: it has cleared the
variable, or is about to. -/
def Waits (b : Benchmark T) : Prop := b.canSendMsg = false ∨ b.pc = .wrote ∨ b.pc = .counted

instance (b : Benchmark T) : Decidable b.Waits := inferInstanceAs (Decidable (_ ∨ _ ∨ _))

/-- The messages under way, the one that comes in first in front. -/
def underWay (b : Benchmark T) : List T := b.down ++ b.up

/-- The client waits for a reply and there is none to come. -/
structure Stuck (b : Benchmark T) : Prop where
  waits : b.Waits
  nothing : b.underWay = []

/-- What makes the client wait for a reply that does not come: a write fails, or a reply
comes in before `_watcher` has cleared `can_send_msg`. -/
def Trips (t : Transition (Benchmark T) (Label T)) : Prop :=
  match t.label with
  | .write _ suc | .echo suc => suc = false
  | .receive => t.src.pc = .wrote ∨ t.src.pc = .counted
  | .enter | .check | .increment | .clear | .wait _ | .track | .close => False

instance (t : Transition (Benchmark T) (Label T)) : Decidable (Trips t) :=
  match t with
  | ⟨_, .write _ suc, _⟩ | ⟨_, .echo suc, _⟩ => inferInstanceAs (Decidable (suc = false))
  | ⟨b, .receive, _⟩ => inferInstanceAs (Decidable (b.pc = .wrote ∨ b.pc = .counted))
  | ⟨_, .enter, _⟩ | ⟨_, .check, _⟩ | ⟨_, .increment, _⟩ | ⟨_, .clear, _⟩ | ⟨_, .wait _, _⟩
  | ⟨_, .track, _⟩ | ⟨_, .close, _⟩ => .isFalse id

/-- The stamps that a step sends. -/
def sends (t : Transition (Benchmark T) (Label T)) : List T :=
  match t.label with
  | .write now true => [now]
  | _ => []

/-- The stamps that come back to the client in a step. -/
def receives (t : Transition (Benchmark T) (Label T)) : List T :=
  match t.label with
  | .receive => t.src.down.take 1
  | _ => []

/-- The stamps that the server fails to write back in a step. -/
def loses (t : Transition (Benchmark T) (Label T)) : List T :=
  match t.label with
  | .echo false => t.src.up.take 1
  | _ => []

/-! ## What a step can do -/

variable {b b' : Benchmark T} {l : Label T} {ts : List (Transition (Benchmark T) (Label T))}

/-- A step writes, or loses a message, or receives one, or does nothing that counts. -/
inductive Does (b : Benchmark T) : Label T → Benchmark T → Prop
  | writes {c} (now : T) (suc : Bool) (hpc : b.pc = .writing) (hpc' : c.pc = .wrote)
      (hup : c.up = if suc then b.up ++ [now] else b.up) (hdown : c.down = b.down) :
      Does b (.write now suc) c
  | loses {c} (m : T) (hup : b.up = m :: c.up) (hdown : c.down = b.down) (hpc : c.pc = b.pc)
      (hcan : c.canSendMsg = b.canSendMsg) : Does b (.echo false) c
  | receives {c} (m : T) (hdown : b.down = m :: c.down) (hup : c.up = b.up) (hpc : c.pc = b.pc)
      (hcan : c.canSendMsg = true) : Does b .receive c
  | quiet {l c} (hway : c.underWay = b.underWay) (hwaits : c.Waits ↔ b.Waits)
      (hwriting : c.pc = .writing → c.canSendMsg = true ∨ b.pc = .writing ∧ c.canSendMsg = b.canSendMsg)
      (htrips : ¬ Trips ⟨b, l, c⟩) (hsends : sends ⟨b, l, c⟩ = []) (hreceives : receives ⟨b, l, c⟩ = [])
      (hloses : Benchmark.loses ⟨b, l, c⟩ = []) (hwrite : ∀ now suc, l ≠ .write now suc) : Does b l c

theorem entry_cases (b : Benchmark T) : b.entry = .ended ∨ b.entry = .entered := by
  unfold entry
  split
  · exact .inl rfl
  · split
    · exact .inl rfl
    · exact .inr rfl

/-- A round has a write only if the variable is set. -/
theorem next_cases (b : Benchmark T) : (b.next = .writing ∧ b.canSendMsg = true) ∨ b.next = .waiting := by
  unfold next
  split
  case isTrue hcan => exact .inl ⟨rfl, (Bool.and_eq_true_iff.1 hcan).2⟩
  case isFalse => exact .inr rfl

theorem step_does (hs : b.step l = some b') : b.Does l b' := by
  cases l with
  | enter =>
      obtain ⟨hpc, heq⟩ := Option.ite_none_right_eq_some.1 hs
      cases heq
      refine .quiet rfl ?_ (fun hw ↦ ?_) id rfl rfl rfl (by rintro _ _ ⟨⟩)
      · rcases b.entry_cases with he | he
        · simp [Waits, he, hpc]
        · simp [Waits, he, hpc]
      · rcases b.entry_cases with he | he
        · cases he.symm.trans hw
        · cases he.symm.trans hw
  | check =>
      obtain ⟨hpc, heq⟩ := Option.ite_none_right_eq_some.1 hs
      cases heq
      refine .quiet rfl ?_ (fun hw ↦ .inl ?_) id rfl rfl rfl (by rintro _ _ ⟨⟩)
      · rcases b.next_cases with ⟨hn, -⟩ | hn
        · simp [Waits, hn, hpc]
        · simp [Waits, hn, hpc]
      · rcases b.next_cases with ⟨-, hcan⟩ | hn
        · exact hcan
        · cases hn.symm.trans hw
  | write now suc =>
      obtain ⟨hpc, heq⟩ := Option.ite_none_right_eq_some.1 hs
      cases heq
      exact .writes now suc hpc rfl rfl rfl
  | increment =>
      obtain ⟨hpc, heq⟩ := Option.ite_none_right_eq_some.1 hs
      cases heq
      exact .quiet rfl (iff_of_true (.inr (.inr rfl)) (.inr (.inl hpc))) (by rintro ⟨⟩) id rfl rfl rfl
        (by rintro _ _ ⟨⟩)
  | clear =>
      obtain ⟨hpc, heq⟩ := Option.ite_none_right_eq_some.1 hs
      cases heq
      exact .quiet rfl (iff_of_true (.inl rfl) (.inr (.inr hpc))) (by rintro ⟨⟩) id rfl rfl rfl
        (by rintro _ _ ⟨⟩)
  | wait ec =>
      obtain ⟨hpc, heq⟩ := Option.ite_none_right_eq_some.1 hs
      cases heq
      refine .quiet rfl ?_ (by rintro ⟨⟩) id rfl rfl rfl (by rintro _ _ ⟨⟩)
      simp [Waits, hpc]
  | echo suc =>
      simp only [step] at hs
      cases hup : b.up with
      | nil =>
          rw [hup] at hs
          cases hs
      | cons m rest =>
          rw [hup] at hs
          cases suc with
          | false =>
              cases hs
              exact .loses m hup rfl rfl rfl
          | true =>
              cases hs
              refine .quiet ?_ .rfl (fun h ↦ .inr ⟨h, rfl⟩) Bool.noConfusion rfl rfl rfl (by rintro _ _ ⟨⟩)
              rw [underWay, underWay, hup]
              exact List.append_assoc ..
  | receive =>
      simp only [step] at hs
      rcases hhandling : b.handling with _ | m
      · rcases hdown : b.down with _ | ⟨m, rest⟩
        · rw [hhandling, hdown] at hs
          cases hs
        · rw [hhandling, hdown] at hs
          cases hs
          exact .receives m hdown rfl rfl rfl
      · rw [hhandling] at hs
        cases hs
  | track =>
      simp only [step] at hs
      cases hhandling : b.handling with
      | none =>
          rw [hhandling] at hs
          cases hs
      | some m =>
          rw [hhandling] at hs
          cases hs
          exact .quiet rfl .rfl (fun h ↦ .inr ⟨h, rfl⟩) id rfl rfl rfl (by rintro _ _ ⟨⟩)
  | close =>
      cases hs
      exact .quiet rfl .rfl (fun h ↦ .inr ⟨h, rfl⟩) id rfl rfl rfl (by rintro _ _ ⟨⟩)

/-! ## One message at a time -/

/-- What holds in every state. -/
structure Inv (b : Benchmark T) : Prop where
  one : b.underWay.length ≤ 1
  /-- What is under way is waited for. -/
  waited : ¬ b.Waits → b.underWay = []
  writing : b.pc = .writing → b.canSendMsg = true

theorem Inv.not_waits (h : b.Inv) (hpc : b.pc = .writing) : ¬ b.Waits := by
  rintro (hw | hw | hw)
  · exact Bool.false_ne_true (hw.symm.trans (h.writing hpc))
  · cases hpc.symm.trans hw
  · cases hpc.symm.trans hw

/-- Before a write nothing is under way. -/
theorem Inv.free (h : b.Inv) (hpc : b.pc = .writing) : b.up = [] ∧ b.down = [] :=
  (List.append_eq_nil_iff.1 (h.waited (h.not_waits hpc))).symm

/-- A message on its way to the server is the only one. -/
theorem Inv.only_up (h : b.Inv) {m : T} {rest : List T} (hup : b.up = m :: rest) :
    rest = [] ∧ b.down = [] := by
  have hone := h.one
  rw [underWay, hup, List.length_append, List.length_cons] at hone
  exact ⟨List.length_eq_zero_iff.1 (by omega), List.length_eq_zero_iff.1 (by omega)⟩

/-- And so is one on its way back. -/
theorem Inv.only_down (h : b.Inv) {m : T} {rest : List T} (hdown : b.down = m :: rest) :
    rest = [] ∧ b.up = [] := by
  have hone := h.one
  rw [underWay, hdown, List.cons_append, List.length_cons, List.length_append] at hone
  exact ⟨List.length_eq_zero_iff.1 (by omega), List.length_eq_zero_iff.1 (by omega)⟩

/-- What is under way is waited for. -/
theorem Inv.waits (h : b.Inv) (hway : b.underWay ≠ []) : b.Waits :=
  Decidable.not_not.1 fun hw ↦ hway (h.waited hw)

theorem Does.inv (hd : b.Does l b') (h : b.Inv) : b'.Inv := by
  cases hd with
  | writes now suc hpc hpc' hup hdown =>
      obtain ⟨hu, hd⟩ := h.free hpc
      refine ⟨?_, fun hw ↦ absurd (.inr (.inl hpc')) hw, fun hw ↦ ?_⟩
      · rw [underWay, hdown, hd, hup, hu]
        cases suc with
        | false => exact Nat.zero_le _
        | true => exact Nat.le_refl _
      · cases hpc'.symm.trans hw
  | loses m hup hdown hpc hcan =>
      obtain ⟨hrest, hd⟩ := h.only_up hup
      have hnone : b'.underWay = [] := by rw [underWay, hrest, hdown, hd]; rfl
      exact ⟨hnone ▸ Nat.zero_le _, fun _ ↦ hnone, fun hw ↦ hcan.trans (h.writing (hpc ▸ hw))⟩
  | receives m hdown hup hpc hcan =>
      obtain ⟨hrest, hu⟩ := h.only_down hdown
      have hnone : b'.underWay = [] := by rw [underWay, hrest, hup, hu]; rfl
      exact ⟨hnone ▸ Nat.zero_le _, fun _ ↦ hnone, fun _ ↦ hcan⟩
  | quiet hway hwaits hwriting =>
      refine ⟨hway ▸ h.one, fun hw ↦ hway.trans (h.waited fun hb ↦ hw (hwaits.2 hb)), fun hw ↦ ?_⟩
      rcases hwriting hw with hcan | ⟨hb, hcan⟩
      · exact hcan
      · exact hcan.trans (h.writing hb)

theorem Inv.start : (start : Benchmark T).Inv := ⟨Nat.zero_le _, fun _ ↦ rfl, by rintro ⟨⟩⟩

/-- What is sent comes back, or is lost, or is under way. -/
theorem Does.flows (hd : b.Does l b') (h : b.Inv) : b.underWay ++ sends ⟨b, l, b'⟩ =
    (Benchmark.receives ⟨b, l, b'⟩ ++ Benchmark.loses ⟨b, l, b'⟩) ++ b'.underWay := by
  cases hd with
  | writes now suc hpc hpc' hup hdown =>
      simp only [underWay, hdown, hup, Benchmark.receives, Benchmark.loses, sends]
      cases suc with
      | false => simp
      | true => simp
  | loses m hup hdown hpc hcan =>
      simp only [underWay, hdown, hup, Benchmark.receives, Benchmark.loses, sends, (h.only_up hup).2]
      simp
  | receives m hdown hup hpc hcan =>
      simp only [underWay, hdown, hup, Benchmark.receives, Benchmark.loses, sends]
      simp
  | quiet hway _ _ _ hsends hreceives hloses =>
      rw [hsends, hreceives, hloses, hway, List.append_nil]
      rfl

/-- **One message at a time.**  In every interleaving of the threads of the client and of
the server, at most one message is under way, and the stamps sent so far are those that have
come back or been lost, in the order in which they were sent, and then the one under way; so
what comes back is always what was sent last. -/
theorem one_under_way (hrun : Run step start ts b) :
    b.underWay.length ≤ 1 ∧ (∀ t ∈ ts, t.src.underWay.length ≤ 1) ∧
      ts.flatMap sends = (ts.flatMap fun t ↦ receives t ++ loses t) ++ b.underWay := by
  obtain ⟨hlast, hall⟩ := hrun.invariant (C := fun _ ↦ True)
    (fun _ hs _ h ↦ (step_does hs).inv h) Inv.start fun _ _ ↦ trivial
  refine ⟨hlast.one, fun t ht ↦ (hall t ht).1.one, ?_⟩
  exact hrun.queue underWay sends (fun t ↦ receives t ++ loses t)
    fun t ht ↦ (step_does (hrun.step_of_mem ht)).flows (hall t ht).1

/-- One message has come back, and the next is on its way to the server. -/
theorem one_under_way_second : ∃ ts b, Run step (start : Benchmark ℕ) ts b ∧ b.up = [9] ∧
    b.handling = some 5 ∧ ts.flatMap sends = (ts.flatMap fun t ↦ receives t ++ loses t) ++ b.underWay := by
  obtain ⟨ts, b, hrun, hup, hhandling⟩ := Run.exists_of_trace step (start : Benchmark ℕ)
    [.enter, .check, .write 5 true, .increment, .clear, .echo true, .receive, .wait .success, .enter,
      .check, .write 9 true]
    (fun _ b ↦ b.up = [9] ∧ b.handling = some 5) ⟨_, rfl, by decide⟩
  exact ⟨ts, b, hrun, hup, hhandling, (one_under_way hrun).2.2⟩

/-! ## Where it stops -/

theorem Does.trips_iff (hd : b.Does l b') (h : b.Inv) (hb : ¬ b.Stuck) :
    Trips ⟨b, l, b'⟩ ↔ b'.Stuck := by
  cases hd with
  | writes now suc hpc hpc' hup hdown =>
      obtain ⟨hu, hd⟩ := h.free hpc
      cases suc with
      | false =>
          refine iff_of_true rfl ⟨.inr (.inl hpc'), ?_⟩
          rw [underWay, hdown, hd, hup, hu]
          rfl
      | true =>
          refine iff_of_false Bool.noConfusion fun hs ↦ ?_
          have hnone := hs.nothing
          rw [underWay, hdown, hd, hup, hu] at hnone
          cases hnone
  | loses m hup hdown hpc hcan =>
      obtain ⟨hrest, hd⟩ := h.only_up hup
      have hwaits := h.waits fun hnone ↦ by
        rw [underWay, hup, hd] at hnone
        cases hnone
      refine iff_of_true rfl ⟨?_, by rw [underWay, hrest, hdown, hd]; rfl⟩
      unfold Waits
      rw [hpc, hcan]
      exact hwaits
  | receives m hdown hup hpc hcan =>
      obtain ⟨hrest, hu⟩ := h.only_down hdown
      have hnone : b'.underWay = [] := by rw [underWay, hrest, hup, hu]; rfl
      constructor
      · intro htrips
        exact ⟨.inr (hpc.symm ▸ htrips), hnone⟩
      · rintro ⟨hw | hw, -⟩
        · cases hcan.symm.trans hw
        · rw [hpc] at hw
          exact hw
  | quiet hway hwaits _ htrips =>
      refine iff_of_false htrips fun hs ↦ hb ⟨hwaits.1 hs.waits, hway.symm.trans hs.nothing⟩

/-- A client that is stuck stays so, and writes no more. -/
theorem Does.stuck (hd : b.Does l b') (h : b.Inv) (hb : b.Stuck) :
    b'.Stuck ∧ ∀ now suc, l ≠ .write now suc := by
  obtain ⟨hwaits, hnone⟩ := hb
  cases hd with
  | writes now suc hpc => exact absurd hwaits (h.not_waits hpc)
  | loses m hup =>
      rw [underWay, hup] at hnone
      exact absurd hnone (List.append_ne_nil_of_right_ne_nil _ (List.cons_ne_nil _ _))
  | receives m hdown =>
      rw [underWay, hdown] at hnone
      cases hnone
  | quiet hway hw _ _ _ _ _ hwrite => exact ⟨⟨hw.2 hwaits, hway.trans hnone⟩, hwrite⟩

/-- **Where the benchmark stops.**  In a run the client never comes to wait for a reply that
does not come exactly if no write fails and no reply comes in before `_watcher` has cleared
`can_send_msg` after the write; and once it does, it never writes again. -/
theorem stalls_iff (hrun : Run step start ts b) :
    ((∀ t ∈ ts, ¬ t.dst.Stuck) ↔ ∀ t ∈ ts, ¬ Trips t) ∧
      (b.Stuck → ∀ us b', Run step b us b' → ∀ t ∈ us, ∀ now suc, t.label ≠ .write now suc) := by
  constructor
  · refine hrun.forall_iff_not (I := fun b ↦ b.Inv ∧ ¬ b.Stuck) ?_ ⟨Inv.start, ?_⟩
    · rintro ⟨b, l, b'⟩ hs ⟨hinv, hb⟩
      have hd : b.Does l b' := step_does hs
      have hiff := hd.trips_iff hinv hb
      by_cases htrips : Trips ⟨b, l, b'⟩
      · exact .inl ⟨htrips, not_not_intro (hiff.1 htrips)⟩
      · exact .inr ⟨htrips, fun hs ↦ htrips (hiff.2 hs), hd.inv hinv, fun hs ↦ htrips (hiff.2 hs)⟩
    · rintro ⟨hw | hw | hw, -⟩
      · cases hw
      · cases hw
      · cases hw
  · intro hb us b' hrun' t ht
    have hinv : b.Inv := (hrun.invariant (C := fun _ ↦ True)
      (fun _ hs _ h ↦ (step_does hs).inv h) Inv.start fun _ _ ↦ trivial).1
    obtain ⟨-, hall⟩ := hrun'.invariant (I := fun b ↦ b.Inv ∧ b.Stuck) (C := fun _ ↦ True)
      (fun _ hs _ h ↦ ⟨(step_does hs).inv h.1, ((step_does hs).stuck h.1 h.2).1⟩) ⟨hinv, hb⟩
      fun _ _ ↦ trivial
    obtain ⟨hi, hs⟩ := (hall t ht).1
    exact ((step_does (hrun'.step_of_mem ht)).stuck hi hs).2

/-- The first reply is there before `_watcher` has gone on. -/
theorem stalls_iff_forgotten : ∃ ts b, Run step (start : Benchmark ℕ) ts b ∧ b.tracked = [5] ∧
    b.canSendMsg = false ∧ ∀ us b', Run step b us b' → ∀ t ∈ us, ∀ now suc, t.label ≠ .write now suc := by
  obtain ⟨ts, b, hrun, htracked, hcan, hnone⟩ := Run.exists_of_trace step (start : Benchmark ℕ)
    [.enter, .check, .write 5 true, .echo true, .receive, .track, .increment, .clear, .wait .success]
    (fun _ b ↦ b.tracked = [5] ∧ b.canSendMsg = false ∧ b.underWay = []) ⟨_, rfl, by decide⟩
  exact ⟨ts, b, hrun, htracked, hcan, (stalls_iff hrun).2 ⟨.inl hcan, hnone⟩⟩

end Benchmark

end Datapath.Samples
