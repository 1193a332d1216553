import Datapath.Interface
import Mathlib.Data.List.Nodup

/-!
# Closing a socket

`close` tests `is_connected`, disconnects the pipe and calls `_disconnect`, which calls
the listeners of `on_close`, joins the watcher, and only then sets `is_connected` to
false.  A listener that calls `close` finds the socket connected, and all listeners are
called again, itself included (`closes_once`).

Listeners are programs that end, or call `close` on the socket and go on with what it
returns.  The calls are those of a thread other than the watcher.
-/

namespace Datapath.Windows

/-- What a listener of `on_close` does next; `user` is the state in which it leaves the
data of user code. -/
inductive Script (U : Type*) where
  | done (user : U)
  /-- It calls `close` on the socket, and goes on with the result. -/
  | close (user : U) (next : error → U → Script U)

/-- A listener of `on_close`: what it does depends on the data of user code. -/
abbrev CloseListener (U : Type*) := U → Script U

/-- A socket, as `close` sees it. -/
structure Closable (U : Type*) where
  isConnected : Bool
  onClose : Event (CloseListener U)
  shutdown : Bool := false
  /-- `watcher.task.joinable()`. -/
  joinable : Bool := true
  /-- The calls of `DisconnectNamedPipe`. -/
  disconnects : ℕ := 0
  /-- The listeners that have been called, by their places in the list. -/
  called : List ℕ := []
  user : U

/-- What a listener does, when a call of `close` does what `call` says. -/
def Script.run {U : Type*} (call : Closable U → Option (error × Closable U)) :
    Script U → Closable U → Option (Closable U)
  | .done user, s => some { s with user }
  | .close user next, s =>
      match call { s with user } with
      | none => none
      | some (ec, s) => (next ec s.user).run call s

namespace Closable

variable {U : Type*} {call : Closable U → Option (error × Closable U)}

/-- `this->on_close()`. -/
def dispatch (call : Closable U → Option (error × Closable U)) :
    ℕ → List (CloseListener U) → Closable U → Option (Closable U)
  | _, [], s => some s
  | i, listener :: rest, s =>
      ((listener s.user).run call { s with called := s.called ++ [i] }).bind
        (dispatch call (i + 1) rest)

/-- `_disconnect`. -/
def disconnect (call : Closable U → Option (error × Closable U)) (s : Closable U) :
    Option (Closable U) :=
  (if s.onClose.toBool then dispatch call 0 s.onClose.listeners s else some s).map fun s ↦
    { s with shutdown := true, joinable := false, isConnected := false }

/-- `close`, with at most `n` calls of it inside each other; `none` is a call that has not
returned. -/
def close : ℕ → Closable U → Option (error × Closable U)
  | 0, _ => none
  | n + 1, s =>
      if s.isConnected then
        (disconnect (close n) { s with disconnects := s.disconnects + 1 }).map fun s ↦ (.success, s)
      else some (.closed, s)

/-- `good`. -/
def good (s : Closable U) : Bool := s.isConnected

/-- `close` returns, each listener has been called once, the socket is not good any more,
and a later `close` returns `Closed` and does nothing. -/
def ClosesOnce (s : Closable U) : Prop :=
  ∃ n s', s.close n = some (.success, s') ∧
    (∀ i < s.onClose.listeners.length, s'.called.count i = s.called.count i + 1) ∧
    s'.good = false ∧ ∀ m, s'.close (m + 1) = some (.closed, s')

/-- The listeners, called one after the other, do not call `close`. -/
def Calm : List (CloseListener U) → U → Prop
  | [], _ => True
  | listener :: rest, user =>
      match listener user with
      | .done user => Calm rest user
      | .close .. => False

/-- Whether `on_close` has listeners need not be asked. -/
theorem disconnect_eq (call : Closable U → Option (error × Closable U)) (s : Closable U) :
    disconnect call s = (dispatch call 0 s.onClose.listeners s).map fun s ↦
      { s with shutdown := true, joinable := false, isConnected := false } := by
  unfold disconnect
  split
  case isTrue => rfl
  case isFalse hempty =>
    have hnil : s.onClose.listeners = [] := by simpa [Event.toBool, Event.empty] using hempty
    rw [hnil]
    rfl

/-! ## Calm listeners -/

/-- Calm listeners are called, each once, and nothing else happens. -/
theorem dispatch_calm (call : Closable U → Option (error × Closable U))
    {listeners : List (CloseListener U)} {i : ℕ} {s : Closable U} (hcalm : Calm listeners s.user) :
    ∃ user, dispatch call i listeners s =
      some { s with called := s.called ++ List.range' i listeners.length, user } := by
  induction listeners generalizing i s with
  | nil =>
      exact ⟨s.user, by simp [dispatch]⟩
  | cons listener rest ih =>
      unfold Calm at hcalm
      split at hcalm
      case h_2 => exact hcalm.elim
      case h_1 user hdone =>
        obtain ⟨user', hrest⟩ := ih (i := i + 1) (s := { s with called := s.called ++ [i], user }) hcalm
        refine ⟨user', ?_⟩
        rw [dispatch, hdone, Script.run, Option.bind_some, hrest]
        simp [List.range'_succ]

/-! ## What is called stays called -/

/-- A call leaves the listeners, and what has been called. -/
structure Grows (s s' : Closable U) : Prop where
  onClose : s'.onClose = s.onClose
  called : s.called <+: s'.called

theorem Grows.trans {s s' s'' : Closable U} (h : Grows s s') (h' : Grows s' s'') : Grows s s'' where
  onClose := h'.onClose.trans h.onClose
  called := h.called.trans h'.called

theorem Grows.count_le {s s' : Closable U} (h : Grows s s') (i : ℕ) : s.called.count i ≤ s'.called.count i :=
  h.called.sublist.count_le i

theorem run_grows (hcall : ∀ s r s', call s = some (r, s') → Grows s s') {script : Script U} :
    ∀ {s s' : Closable U}, script.run call s = some s' → Grows s s' := by
  induction script with
  | done user =>
      intro s s' h
      cases h
      exact ⟨rfl, List.prefix_refl _⟩
  | close user next ih =>
      intro s s' h
      rw [Script.run] at h
      split at h
      case h_1 => cases h
      case h_2 ec s₁ hnested =>
        have hfirst := hcall _ _ _ hnested
        exact Grows.trans ⟨hfirst.onClose, hfirst.called⟩ (ih ec s₁.user h)

theorem dispatch_grows (hcall : ∀ s r s', call s = some (r, s') → Grows s s')
    {listeners : List (CloseListener U)} : ∀ {i : ℕ} {s s' : Closable U},
    dispatch call i listeners s = some s' → Grows s s' := by
  induction listeners with
  | nil =>
      intro i s s' h
      cases h
      exact ⟨rfl, List.prefix_refl _⟩
  | cons listener rest ih =>
      intro i s s' h
      obtain ⟨s₁, hfirst, hrest⟩ := Option.bind_eq_some_iff.1 h
      have hgrows := run_grows hcall hfirst
      exact Grows.trans ⟨hgrows.onClose, (List.prefix_append _ _).trans hgrows.called⟩ (ih hrest)

/-- Every listener is called by a dispatch that ends. -/
theorem dispatch_calls (hcall : ∀ s r s', call s = some (r, s') → Grows s s')
    {listeners : List (CloseListener U)} : ∀ {i j : ℕ} {s s' : Closable U},
    dispatch call i listeners s = some s' → i ≤ j → j < i + listeners.length →
      s.called.count j + 1 ≤ s'.called.count j := by
  induction listeners with
  | nil =>
      intro i j s s' _ hle hlt
      exact absurd hle (Nat.not_le.2 hlt)
  | cons listener rest ih =>
      intro i j s s' h hle hlt
      obtain ⟨s₁, hfirst, hrest⟩ := Option.bind_eq_some_iff.1 h
      have hcount := (run_grows hcall hfirst).count_le j
      rw [List.count_append] at hcount
      rcases Nat.eq_or_lt_of_le hle with rfl | hle
      · have hlater := (dispatch_grows hcall hrest).count_le i
        rw [List.count_singleton_self] at hcount
        exact Nat.le_trans hcount hlater
      · rw [List.length_cons] at hlt
        have hlater := ih hrest hle (by omega)
        omega

/-- A call of `close` on a connected socket that returns. -/
theorem close_connected {n : ℕ} {s s' : Closable U} {r : error} (hconn : s.isConnected = true)
    (h : s.close n = some (r, s')) : ∃ m s₁, n = m + 1 ∧
      dispatch (close m) 0 s.onClose.listeners { s with disconnects := s.disconnects + 1 } = some s₁ ∧
      s'.onClose = s₁.onClose ∧ s'.called = s₁.called := by
  cases n with
  | zero => cases h
  | succ m =>
      rw [close, if_pos hconn, disconnect_eq] at h
      obtain ⟨s₂, hdisconnect, heq⟩ := Option.map_eq_some_iff.1 h
      cases heq
      obtain ⟨s₁, hdispatch, rfl⟩ := Option.map_eq_some_iff.1 hdisconnect
      exact ⟨m, s₁, rfl, hdispatch, rfl, rfl⟩

theorem close_grows (n : ℕ) : ∀ (s : Closable U) r s', s.close n = some (r, s') → Grows s s' := by
  induction n with
  | zero =>
      intro s r s' h
      cases h
  | succ n ih =>
      intro s r s' h
      cases hconn : s.isConnected with
      | false =>
          rw [close, hconn] at h
          cases h
          exact ⟨rfl, List.prefix_refl _⟩
      | true =>
          obtain ⟨m, s₁, hm, hdispatch, honClose, hcalled⟩ := close_connected hconn h
          cases hm
          have hgrows := dispatch_grows ih hdispatch
          refine ⟨honClose.trans hgrows.onClose, ?_⟩
          rw [hcalled]
          exact hgrows.called

/-- Every listener is called by a call of `close` on a connected socket that returns. -/
theorem close_calls {n j : ℕ} {s s' : Closable U} {r : error} (hconn : s.isConnected = true)
    (h : s.close n = some (r, s')) (hj : j < s.onClose.listeners.length) :
    s.called.count j + 1 ≤ s'.called.count j := by
  obtain ⟨m, s₁, -, hdispatch, -, hcalled⟩ := close_connected hconn h
  have hcalls := dispatch_calls (close_grows m) hdispatch (Nat.zero_le j) (by simpa using hj)
  rw [hcalled]
  exact hcalls

/-- **A listener that calls `close`** is called twice, if the dispatch ends. -/
theorem dispatch_twice {n : ℕ} {listeners : List (CloseListener U)} : ∀ {i : ℕ} {s s' : Closable U},
    s.isConnected = true → i + listeners.length = s.onClose.listeners.length →
      ¬ Calm listeners s.user → dispatch (close n) i listeners s = some s' →
        ∃ j < s.onClose.listeners.length, s.called.count j + 2 ≤ s'.called.count j := by
  induction listeners with
  | nil =>
      intro i s s' _ _ hloud _
      exact absurd trivial hloud
  | cons listener rest ih =>
      intro i s s' hconn hlength hloud h
      obtain ⟨s₁, hfirst, hrest⟩ := Option.bind_eq_some_iff.1 h
      rw [List.length_cons] at hlength
      unfold Calm at hloud
      cases hscript : listener s.user with
      | done user =>
          rw [hscript] at hloud hfirst
          cases hfirst
          obtain ⟨j, hj, hcount⟩ := ih (i := i + 1)
            (s := { s with called := s.called ++ [i], user }) hconn
            (by show i + 1 + rest.length = s.onClose.listeners.length; omega) hloud hrest
          refine ⟨j, hj, Nat.le_trans (Nat.add_le_add_right ?_ 2) hcount⟩
          exact (List.sublist_append_left s.called [i]).count_le j
      | close user next =>
          -- The socket is connected still, so that all listeners are called by this call.
          rw [hscript, Script.run] at hfirst
          have hi : i < s.onClose.listeners.length := by omega
          split at hfirst
          case h_1 => cases hfirst
          case h_2 ec s₂ hnested =>
            have hcalls : (s.called ++ [i]).count i + 1 ≤ s₂.called.count i :=
              close_calls (s := { s with called := s.called ++ [i], user }) hconn hnested hi
            have hlater := ((run_grows (close_grows n) hfirst).trans
              (dispatch_grows (close_grows n) hrest)).count_le i
            rw [List.count_append, List.count_singleton_self] at hcalls
            exact ⟨i, hi, Nat.le_trans hcalls hlater⟩

/-- **Closing a socket once.**  A call of `close` on a connected socket returns, calls
every listener of `on_close` once and leaves a socket that is closed, and on which
`close` does nothing, exactly when no listener calls `close`. -/
theorem closes_once (s : Closable U) (hconn : s.isConnected = true) :
    s.ClosesOnce ↔ Calm s.onClose.listeners s.user := by
  constructor
  · rintro ⟨n, s', hclose, honce, -⟩
    by_contra hloud
    obtain ⟨m, s₁, -, hdispatch, -, hcalled⟩ := close_connected hconn hclose
    obtain ⟨j, hj, htwice⟩ := dispatch_twice (s := { s with disconnects := s.disconnects + 1 }) hconn
      (Nat.zero_add _) hloud hdispatch
    rw [← hcalled, honce j hj] at htwice
    exact absurd htwice (Nat.not_le.2 (Nat.lt_succ_self _))
  · intro hcalm
    obtain ⟨user, hdispatch⟩ := dispatch_calm (close 0) (i := 0)
      (s := { s with disconnects := s.disconnects + 1 }) hcalm
    refine ⟨1, _, by rw [close, if_pos hconn, disconnect_eq, hdispatch, Option.map_some, Option.map_some],
      ?_, rfl, fun m ↦ ?_⟩
    · intro i hi
      have hmem : i ∈ List.range' 0 s.onClose.listeners.length :=
        List.mem_range'_1.2 ⟨Nat.zero_le i, by simpa using hi⟩
      rw [List.count_append, List.nodup_iff_count_eq_one.1 List.nodup_range' i hmem]
    · rw [close, if_neg nofun]

/-- A listener that counts its calls. -/
def counting : CloseListener ℕ := fun user ↦ .done (user + 1)

theorem closes_once_counting :
    (⟨true, ⟨[counting, counting]⟩, false, true, 0, [], 0⟩ : Closable ℕ).ClosesOnce :=
  (closes_once _ rfl).2 trivial

/-- A listener that makes sure that the socket is closed. -/
def closing : CloseListener Unit := fun user ↦ .close user fun _ user ↦ .done user

/-- With such a listener, `close` never returns. -/
theorem close_closing (n : ℕ) : ∀ s : Closable Unit, s.isConnected = true →
    s.onClose = ⟨[closing]⟩ → s.close n = none := by
  induction n with
  | zero => exact fun _ _ _ ↦ rfl
  | succ n ih =>
      intro s hconn hlisteners
      have hnested : close n { s with
          disconnects := s.disconnects + 1, called := s.called ++ [0] } = none := ih _ hconn hlisteners
      rw [hlisteners] at hnested
      rw [close, if_pos hconn, disconnect, hlisteners]
      simp [Event.toBool, Event.empty, dispatch, closing, Script.run, hnested]

theorem close_never_returns : ¬ (⟨true, ⟨[closing]⟩, false, true, 0, [], ()⟩ : Closable Unit).ClosesOnce := by
  rintro ⟨n, s', hclose, -⟩
  rw [close_closing n _ rfl rfl] at hclose
  cases hclose

end Closable

end Datapath.Windows
