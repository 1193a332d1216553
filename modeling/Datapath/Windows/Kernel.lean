import Mathlib.Algebra.Group.Nat.Defs
import Mathlib.Data.Nat.Basic
import Mathlib.Logic.Function.Basic

/-!
# The operating system's side: handles and pipe instances

A server's `HANDLE` names an instance of its named pipe.  An instance is
*listening* for a client, *connected* to one, connected to a client that has
*gone*, or *disconnected* from its last client and not yet listening again.
Connections are numbered; a number is never used twice, so that it can be said of
a byte which connection it went to.

Handle values are reused: `createNamedPipe` may answer with any value that no
open instance has.
-/

namespace Datapath.Windows

/-- Handle values. -/
abbrev HANDLE := ℕ

/-- `(HANDLE) -1`. -/
def invalidHandleValue : HANDLE := 2 ^ 64 - 1

/-! ## The error codes the library meets -/

def errorSuccess : ℕ := 0
def errorBrokenPipe : ℕ := 109
def errorNoData : ℕ := 232
def errorPipeConnected : ℕ := 535
def errorIoPending : ℕ := 997

/-! ## Pipe instances -/

/-- The state of an open pipe instance. -/
inductive Instance where
  | listening
  | connected (connection : ℕ)
  | gone (connection : ℕ)
  | disconnected
deriving DecidableEq, Repr

/-- The connection an instance belongs to, if it has one. -/
def Instance.connection : Instance → Option ℕ
  | .connected c | .gone c => some c
  | .listening | .disconnected => none

/-- What the operating system knows of a server's handles: the open instances,
and every handle `CloseHandle` has been called with, in order. -/
structure Kernel where
  pipes : HANDLE → Option Instance := fun _ ↦ none
  closed : List HANDLE := []

namespace Kernel

/-- The handle is open. -/
def Open (k : Kernel) (h : HANDLE) : Prop := (k.pipes h).isSome = true

instance (k : Kernel) (h : HANDLE) : Decidable (k.Open h) := inferInstanceAs (Decidable (_ = true))

/-- The connection of the instance behind a handle. -/
def connection (k : Kernel) (h : HANDLE) : Option ℕ := (k.pipes h).bind Instance.connection

/-- A client is on the other end. -/
def HasClient (k : Kernel) (h : HANDLE) : Prop := ∃ c, k.pipes h = some (.connected c)

instance (k : Kernel) (h : HANDLE) : Decidable (k.HasClient h) :=
  match hp : k.pipes h with
  | some (.connected c) => .isTrue ⟨c, hp⟩
  | some .listening | some (.gone _) | some .disconnected | none =>
      .isFalse fun ⟨_, hc⟩ ↦ nomatch hp.symm.trans hc

/-- `CreateNamedPipeW`.  The outside world proposes the handle value; a value that
is invalid or in use, or none at all, makes the call fail. -/
def createNamedPipe (k : Kernel) (reply : Option HANDLE) : HANDLE × Kernel :=
  match reply with
  | none => (invalidHandleValue, k)
  | some h =>
      if h = invalidHandleValue ∨ k.Open h then (invalidHandleValue, k)
      else (h, { k with pipes := Function.update k.pipes h (some .listening) })

/-- `ConnectNamedPipe` puts a disconnected instance back to listening. -/
def connectNamedPipe (k : Kernel) (h : HANDLE) : Kernel :=
  match k.pipes h with
  | some .disconnected => { k with pipes := Function.update k.pipes h (some .listening) }
  | _ => k

/-- `DisconnectNamedPipe` ends the connection of an open instance. -/
def disconnectNamedPipe (k : Kernel) (h : HANDLE) : Kernel :=
  if k.Open h then { k with pipes := Function.update k.pipes h (some .disconnected) } else k

/-- `CloseHandle`. -/
def closeHandle (k : Kernel) (h : HANDLE) : Kernel :=
  { pipes := Function.update k.pipes h none, closed := k.closed ++ [h] }

/-! ## What the calls do to the open handles -/

variable {k : Kernel} {h b : HANDLE}

theorem open_update {i : Instance} :
    (Open { k with pipes := Function.update k.pipes h (some i) } b) ↔ b = h ∨ k.Open b := by
  by_cases hb : b = h
  · subst hb
    simp [Open]
  · simp [Open, hb]

/-- Changing the state of an open instance opens nothing. -/
theorem open_update_of_open {i : Instance} (hopen : k.Open h) :
    (Open { k with pipes := Function.update k.pipes h (some i) } b) ↔ k.Open b := by
  rw [open_update]
  constructor
  · rintro (rfl | hb)
    · exact hopen
    · exact hb
  · exact .inr

/-- A successful `CreateNamedPipeW` opens one handle, which was not open. -/
theorem createNamedPipe_cases (k : Kernel) (reply : Option HANDLE) :
    k.createNamedPipe reply = (invalidHandleValue, k) ∨
      ∃ h, h ≠ invalidHandleValue ∧ ¬ k.Open h ∧ k.createNamedPipe reply =
        (h, { k with pipes := Function.update k.pipes h (some .listening) }) := by
  unfold createNamedPipe
  cases reply with
  | none => exact .inl rfl
  | some h =>
      by_cases hbad : h = invalidHandleValue ∨ k.Open h
      · exact .inl (by simp only [hbad, if_true])
      · refine .inr ⟨h, fun hi ↦ hbad (.inl hi), fun ho ↦ hbad (.inr ho), ?_⟩
        simp only [hbad, if_false]

@[simp] theorem open_connectNamedPipe : (k.connectNamedPipe h).Open b ↔ k.Open b := by
  unfold connectNamedPipe
  split
  case h_1 hp => exact open_update_of_open (Option.isSome_of_mem hp)
  case h_2 => rfl

@[simp] theorem open_disconnectNamedPipe : (k.disconnectNamedPipe h).Open b ↔ k.Open b := by
  unfold disconnectNamedPipe
  split
  case isTrue hopen => exact open_update_of_open hopen
  case isFalse => rfl

@[simp] theorem open_closeHandle : (k.closeHandle h).Open b ↔ b ≠ h ∧ k.Open b := by
  by_cases hb : b = h
  · subst hb
    simp [Open, closeHandle]
  · simp [Open, closeHandle, hb]

@[simp] theorem closed_connectNamedPipe : (k.connectNamedPipe h).closed = k.closed := by
  unfold connectNamedPipe
  split <;> rfl

@[simp] theorem closed_disconnectNamedPipe : (k.disconnectNamedPipe h).closed = k.closed := by
  unfold disconnectNamedPipe
  split <;> rfl

/-! ## What the calls do to connections -/

@[simp] theorem connection_connectNamedPipe : (k.connectNamedPipe h).connection b = k.connection b := by
  unfold connectNamedPipe
  split
  case h_1 hp =>
    by_cases hb : b = h
    · subst hb
      simp [connection, hp, Instance.connection]
    · simp [connection, hb]
  case h_2 => rfl

@[simp] theorem connection_disconnectNamedPipe_self : (k.disconnectNamedPipe h).connection h = none := by
  unfold disconnectNamedPipe
  split
  case isTrue => simp [connection, Instance.connection]
  case isFalse hclosed =>
    have hnone : k.pipes h = none := by simpa [Open] using hclosed
    simp [connection, hnone]

/-- The connection of an instance, after one of them has changed its state. -/
theorem connection_update {i : Instance} {c : ℕ}
    (hc : connection { k with pipes := Function.update k.pipes h (some i) } b = some c) :
    (b = h ∧ i.connection = some c) ∨ (b ≠ h ∧ k.connection b = some c) := by
  by_cases hb : b = h
  · subst hb
    simp only [connection, Function.update_self, Option.bind_some] at hc
    exact .inl ⟨rfl, hc⟩
  · simp only [connection, Function.update_of_ne hb] at hc
    exact .inr ⟨hb, hc⟩

/-- A client that leaves stays on its instance. -/
theorem connection_leave {c c' : ℕ} (hl : k.pipes h = some (.connected c))
    (hc : connection { k with pipes := Function.update k.pipes h (some (.gone c)) } b = some c') :
    k.connection b = some c' := by
  rcases connection_update hc with ⟨rfl, hown⟩ | ⟨-, hold⟩
  · rw [connection, hl]
    exact hown
  · exact hold

/-- A disconnected instance has no connection, and the others keep theirs. -/
theorem connection_disconnectNamedPipe {c : ℕ}
    (hc : (k.disconnectNamedPipe h).connection b = some c) : k.connection b = some c := by
  by_cases hb : b = h
  · subst hb
    rw [connection_disconnectNamedPipe_self] at hc
    cases hc
  · unfold disconnectNamedPipe at hc
    split at hc
    · simpa [connection, hb] using hc
    · exact hc

theorem connection_closeHandle {c : ℕ} (hc : (k.closeHandle h).connection b = some c) :
    k.connection b = some c := by
  by_cases hb : b = h
  · subst hb
    simp [connection, closeHandle] at hc
  · simpa [connection, closeHandle, hb] using hc

/-- `DisconnectNamedPipe` makes no instance listen. -/
theorem listening_disconnectNamedPipe (hl : (k.disconnectNamedPipe h).pipes b = some .listening) :
    k.pipes b = some .listening := by
  unfold disconnectNamedPipe at hl
  split at hl
  case isTrue =>
    by_cases hb : b = h
    · subst hb
      simp at hl
    · simpa [hb] using hl
  case isFalse => exact hl

theorem listening_closeHandle (hl : (k.closeHandle h).pipes b = some .listening) :
    k.pipes b = some .listening := by
  by_cases hb : b = h
  · subst hb
    simp [closeHandle] at hl
  · simpa [closeHandle, hb] using hl

/-- `ConnectNamedPipe` only turns a disconnected instance into a listening one. -/
theorem pipes_connectNamedPipe (k : Kernel) (h b : HANDLE) :
    (k.connectNamedPipe h).pipes b = k.pipes b ∨
      (b = h ∧ k.pipes b = some .disconnected ∧
        (k.connectNamedPipe h).pipes b = some .listening) := by
  unfold connectNamedPipe
  split
  case h_1 hp =>
    by_cases hb : b = h
    · subst hb
      exact .inr ⟨rfl, hp, Function.update_self _ _ _⟩
    · exact .inl (Function.update_of_ne hb _ _)
  case h_2 => exact .inl rfl

/-- `ConnectNamedPipe` leaves an instance alone that is not disconnected. -/
theorem pipes_connectNamedPipe_of_ne {i : Instance} (hp : k.pipes b = some i) (hi : i ≠ .disconnected) :
    (k.connectNamedPipe h).pipes b = some i := by
  rcases k.pipes_connectNamedPipe h b with heq | ⟨-, hd, -⟩
  · exact heq.trans hp
  · rw [hp] at hd
    exact absurd (Option.some.inj hd) hi

/-- `DisconnectNamedPipe` leaves the other instances alone. -/
theorem pipes_disconnectNamedPipe_of_ne (hb : b ≠ h) : (k.disconnectNamedPipe h).pipes b = k.pipes b := by
  unfold disconnectNamedPipe
  split
  · exact Function.update_of_ne hb _ _
  · rfl

theorem pipes_closeHandle_of_ne (hb : b ≠ h) : (k.closeHandle h).pipes b = k.pipes b :=
  Function.update_of_ne hb _ _

end Kernel

end Datapath.Windows
