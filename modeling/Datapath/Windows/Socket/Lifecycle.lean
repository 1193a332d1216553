import Datapath.Windows.Server.Watcher

/-!
# The life of a socket object

A socket object is connected by `socket::connect`, with a handle of `CreateFileW`, or by
the watcher of a server that has made it, with a handle of the server.  `_connect` stores
the handle and assigns a new thread to `watcher.task`, whatever the object has been used
for before; `_disconnect` joins the thread; the destructor calls `close`.

A handle of the server is closed by the server.  One of `CreateFileW` is the socket's to
close, and is not closed anywhere (`handles_released_iff`).

Listeners of `on_close` run within `close` and may call `connect` and `close` themselves,
so that a call of `close` is two steps.  The calls are those of threads other than the
watcher.
-/

namespace Datapath.Windows

open Datapath.Lib

/-- `std::thread`. -/
structure StdThread where
  joinable : Bool := false
deriving DecidableEq, Repr

namespace StdThread

/-- Assign a new thread; `none` is `std::terminate`. -/
def assign (t : StdThread) : Option StdThread := if t.joinable then none else some { joinable := true }

/-- Join the thread if it can be joined. -/
def join (t : StdThread) : StdThread := if t.joinable then { joinable := false } else t

/-- The destructor; `none` is `std::terminate`. -/
def destroy (t : StdThread) : Option Unit := if t.joinable then none else some ()

@[simp] theorem joinable_join (t : StdThread) : t.join.joinable = false := by
  cases hjoinable : t.joinable <;> simp [join, hjoinable]

theorem assign_of_joinable {t : StdThread} (h : t.joinable = true) : t.assign = none := if_pos h

theorem assign_of_not_joinable {t : StdThread} (h : t.joinable = false) :
    t.assign = some { joinable := true } := if_neg (Bool.eq_false_iff.1 h)

theorem destroy_of_joinable {t : StdThread} (h : t.joinable = true) : t.destroy = none := if_pos h

theorem destroy_of_not_joinable {t : StdThread} (h : t.joinable = false) : t.destroy = some () :=
  if_neg (Bool.eq_false_iff.1 h)

end StdThread

/-- What has become of an object. -/
inductive Life where
  | alive
  /-- The body of the destructor has been entered. -/
  | ending
  | ended
  /-- `std::terminate` has been called. -/
  | terminated
deriving DecidableEq, Repr

/-- What the class asks of the system for its handles. -/
inductive PipeCall where
  /-- `CreateFileW` has returned this handle. -/
  | createFileW (handle : HANDLE)
  | disconnectNamedPipe (handle : HANDLE)
  | closeHandle (handle : HANDLE)
deriving DecidableEq, Repr

/-- What `CreateFileW` returns, and `GetLastError` after it. -/
structure CreateReply where
  handle : HANDLE
  lastError : ℕ := errorSuccess
deriving DecidableEq, Repr

/-- `windows::socket`. -/
structure SocketObject where
  socketHandle : HANDLE := invalidHandleValue
  isConnected : Bool := false
  /-- `watcher.task`. -/
  task : StdThread := {}
  /-- The calls of `_disconnect` that are at the listeners of `on_close`. -/
  closing : ℕ := 0
  life : Life := .alive
  /-- The handle is from `CreateFileW`.  No step reads it. -/
  client : Bool := false
  calls : List PipeCall := []
deriving DecidableEq, Repr

namespace SocketObject

/-- What can happen to a socket object. -/
inductive Label where
  /-- `socket::connect`, with this object, or without one, which makes this object. -/
  | connect (path : List Char) (reply : CreateReply)
  /-- `_connect`, by the watcher of a server that has just made the object. -/
  | accept (handle : HANDLE)
  /-- `close`, up to the listeners of `on_close`. -/
  | close
  /-- `_disconnect`, after the listeners. -/
  | disconnect
  /-- `~socket`, up to the listeners of `on_close`. -/
  | destroy
  /-- The end of the members. -/
  | release
deriving DecidableEq, Repr

/-- `_connect`. -/
def connect_ (handle : HANDLE) (s : SocketObject) : SocketObject :=
  let s := { s with socketHandle := handle }
  if handle ≠ invalidHandleValue then
    let s := { s with isConnected := true }
    match s.task.assign with
    | none => { s with life := .terminated }
    | some task => { s with task }
  else s

/-- `connect`. -/
def connect (path : List Char) (reply : CreateReply) (s : SocketObject) : error × SocketObject :=
  match makePipePath path with
  | none => (.invalidPath, s)
  | some _ =>
      let s := { s with calls := s.calls ++ [.createFileW reply.handle] }
      if reply.handle = invalidHandleValue ∨ reply.lastError ≠ errorSuccess then (.failure, s)
      else (.success, { s.connect_ reply.handle with client := true })

/-- `close`, up to the listeners of `on_close`. -/
def close (s : SocketObject) : error × SocketObject :=
  if s.isConnected then
    (.success, { s with
      calls := s.calls ++ [.disconnectNamedPipe s.socketHandle]
      closing := s.closing + 1 })
  else (.closed, s)

/-- `_disconnect`, after the listeners. -/
def disconnect (s : SocketObject) : SocketObject := { s with task := s.task.join, isConnected := false }

/-- The end of the members. -/
def release (s : SocketObject) : SocketObject :=
  match s.task.destroy with
  | none => { s with life := .terminated }
  | some _ => { s with life := .ended }

/-- One step. -/
def step (s : SocketObject) : Label → Option SocketObject
  | .connect path reply => if s.life = .alive then some (s.connect path reply).2 else none
  | .accept handle => if s = {} then some (s.connect_ handle) else none
  | .close => if s.life = .alive ∨ s.life = .ending then some s.close.2 else none
  | .disconnect =>
      match s.closing with
      | 0 => none
      | n + 1 =>
          if s.life = .alive ∨ s.life = .ending then some { s.disconnect with closing := n } else none
  | .destroy => if s.life = .alive ∧ s.closing = 0 then some { s.close.2 with life := .ending } else none
  | .release => if s.life = .ending ∧ s.closing = 0 then some s.release else none

/-! ## What the steps do -/

/-- `CreateFileW` is called and returns a handle. -/
def Opens (path : List Char) (reply : CreateReply) : Prop :=
  makePipePath path ≠ none ∧ reply.handle ≠ invalidHandleValue

/-- `connect` does not fail. -/
def Connects (path : List Char) (reply : CreateReply) : Prop :=
  Opens path reply ∧ reply.lastError = errorSuccess

instance (path : List Char) (reply : CreateReply) : Decidable (Opens path reply) :=
  inferInstanceAs (Decidable (_ ∧ _))

instance (path : List Char) (reply : CreateReply) : Decidable (Connects path reply) :=
  inferInstanceAs (Decidable (_ ∧ _))

variable {s s' : SocketObject} {path : List Char} {reply : CreateReply}

/-- No handle has been closed between these calls. -/
def Keeps (calls calls' : List PipeCall) : Prop := ∀ h, .closeHandle h ∈ calls' → .closeHandle h ∈ calls

theorem keeps_concat (calls : List PipeCall) {call : PipeCall} (hcall : ∀ h, call ≠ .closeHandle h) :
    Keeps calls (calls ++ [call]) := by
  intro h hmem
  rcases List.mem_append.1 hmem with hold | hnew
  · exact hold
  · exact absurd (List.mem_singleton.1 hnew).symm (hcall h)

/-- What the steps do. -/
inductive Stepped (s : SocketObject) : Label → SocketObject → Prop
  | fail {path : List Char} {reply : CreateReply} {calls : List PipeCall} :
      s.life = .alive → ¬ Connects path reply → Keeps s.calls calls →
        Stepped s (.connect path reply) { s with calls }
  | connect {path : List Char} {reply : CreateReply} {calls : List PipeCall} :
      s.life = .alive → Connects path reply → Keeps s.calls calls → s.task.joinable = false →
        Stepped s (.connect path reply) { s with
          socketHandle := reply.handle
          isConnected := true
          task := { joinable := true }
          client := true
          calls }
  | overwrite {path : List Char} {reply : CreateReply} {calls : List PipeCall} :
      s.life = .alive → Connects path reply → Keeps s.calls calls → s.task.joinable = true →
        Stepped s (.connect path reply) { s with
          socketHandle := reply.handle
          isConnected := true
          life := .terminated
          client := true
          calls }
  | accept {handle : HANDLE} : s = {} → handle ≠ invalidHandleValue →
      Stepped s (.accept handle) { s with
        socketHandle := handle
        isConnected := true
        task := { joinable := true } }
  | acceptInvalid : s = {} → Stepped s (.accept invalidHandleValue) s
  | closed : s.life = .alive ∨ s.life = .ending → s.isConnected = false → Stepped s .close s
  | close {calls : List PipeCall} : s.life = .alive ∨ s.life = .ending → s.isConnected = true →
      Keeps s.calls calls → Stepped s .close { s with calls, closing := s.closing + 1 }
  | disconnect {n : ℕ} : s.life = .alive ∨ s.life = .ending → s.closing = n + 1 →
      Stepped s .disconnect { s with task := s.task.join, isConnected := false, closing := n }
  | destroyClosed : s.life = .alive → s.closing = 0 → s.isConnected = false →
      Stepped s .destroy { s with life := .ending }
  | destroy {calls : List PipeCall} : s.life = .alive → s.closing = 0 → s.isConnected = true →
      Keeps s.calls calls → Stepped s .destroy { s with calls, closing := s.closing + 1, life := .ending }
  | release : s.life = .ending → s.closing = 0 → s.task.joinable = false →
      Stepped s .release { s with life := .ended }
  | abandon : s.life = .ending → s.closing = 0 → s.task.joinable = true →
      Stepped s .release { s with life := .terminated }

/-- `connect` fails, and changes nothing but the calls, or it calls `_connect`. -/
theorem connect_cases (path : List Char) (reply : CreateReply) (s : SocketObject) :
    ∃ calls, Keeps s.calls calls ∧
      ((¬ Connects path reply ∧ (s.connect path reply).2 = { s with calls }) ∨
        (Connects path reply ∧ (s.connect path reply).2 =
          { connect_ reply.handle { s with calls } with client := true })) := by
  unfold connect
  split
  case h_1 hpath => exact ⟨s.calls, fun _ hh ↦ hh, .inl ⟨fun hc ↦ hc.1.1 hpath, rfl⟩⟩
  case h_2 _ hpath =>
    refine ⟨s.calls ++ [.createFileW reply.handle], keeps_concat s.calls fun _ ↦ by rintro ⟨⟩, ?_⟩
    dsimp only
    split
    case isTrue hfails =>
      refine .inl ⟨fun hc ↦ ?_, rfl⟩
      rcases hfails with hinvalid | herror
      · exact hc.1.2 hinvalid
      · exact herror hc.2
    case isFalse hok =>
      obtain ⟨hvalid, herror⟩ := not_or.1 hok
      have hsome : makePipePath path ≠ none := fun hnone ↦ Option.some_ne_none _ (hpath.symm.trans hnone)
      exact .inr ⟨⟨⟨hsome, hvalid⟩, not_not.1 herror⟩, rfl⟩

/-- `_connect` with a handle marks the object as connected, and starts the watcher unless
there is one already. -/
theorem connect_eq {handle : HANDLE} (hvalid : handle ≠ invalidHandleValue) (s : SocketObject) :
    connect_ handle s = if s.task.joinable then
        { s with socketHandle := handle, isConnected := true, life := .terminated }
      else { s with socketHandle := handle, isConnected := true, task := { joinable := true } } := by
  unfold connect_
  rw [if_pos hvalid]
  split
  case isTrue hjoinable => simp only [StdThread.assign_of_joinable hjoinable]
  case isFalse hfree => simp only [StdThread.assign_of_not_joinable (Bool.eq_false_iff.2 hfree)]

/-- `close` returns at once, or counts itself. -/
theorem close_cases (s : SocketObject) : (s.isConnected = false ∧ s.close.2 = s) ∨
    (s.isConnected = true ∧ ∃ calls, Keeps s.calls calls ∧
      s.close.2 = { s with calls, closing := s.closing + 1 }) := by
  unfold close
  split
  case isTrue hconnected =>
    exact .inr ⟨hconnected, _, keeps_concat s.calls fun _ ↦ by rintro ⟨⟩, rfl⟩
  case isFalse hnot => exact .inl ⟨Bool.eq_false_iff.2 hnot, rfl⟩

theorem stepped {l : Label} (hs : s.step l = some s') : Stepped s l s' := by
  cases l with
  | connect path reply =>
    obtain ⟨halive, ⟨⟩⟩ := Option.ite_none_right_eq_some.1 hs
    obtain ⟨calls, hcalls, ⟨hfails, heq⟩ | ⟨hconnects, heq⟩⟩ := connect_cases path reply s
    · rw [heq]
      exact .fail halive hfails hcalls
    · rw [heq, connect_eq hconnects.1.2]
      dsimp only
      split
      case isTrue hjoinable => exact .overwrite halive hconnects hcalls hjoinable
      case isFalse hfree => exact .connect halive hconnects hcalls (Bool.eq_false_iff.2 hfree)
  | accept handle =>
    obtain ⟨rfl, ⟨⟩⟩ := Option.ite_none_right_eq_some.1 hs
    by_cases hvalid : handle = invalidHandleValue
    · subst hvalid
      exact .acceptInvalid rfl
    · rw [connect_eq hvalid]
      exact .accept rfl hvalid
  | close =>
    obtain ⟨hlife, ⟨⟩⟩ := Option.ite_none_right_eq_some.1 hs
    rcases s.close_cases with ⟨hclosed, heq⟩ | ⟨hconnected, calls, hcalls, heq⟩
    · rw [heq]
      exact .closed hlife hclosed
    · rw [heq]
      exact .close hlife hconnected hcalls
  | disconnect =>
    unfold step at hs
    dsimp only at hs
    split at hs
    case h_1 => cases hs
    case h_2 n hclosing =>
      obtain ⟨hlife, ⟨⟩⟩ := Option.ite_none_right_eq_some.1 hs
      exact .disconnect hlife hclosing
  | destroy =>
    obtain ⟨⟨halive, hclosing⟩, ⟨⟩⟩ := Option.ite_none_right_eq_some.1 hs
    rcases s.close_cases with ⟨hclosed, heq⟩ | ⟨hconnected, calls, hcalls, heq⟩
    · rw [heq]
      exact .destroyClosed halive hclosing hclosed
    · rw [heq]
      exact .destroy halive hclosing hconnected hcalls
  | release =>
    obtain ⟨⟨hending, hclosing⟩, ⟨⟩⟩ := Option.ite_none_right_eq_some.1 hs
    cases hjoinable : s.task.joinable with
    | true =>
      unfold SocketObject.release
      rw [StdThread.destroy_of_joinable hjoinable]
      exact .abandon hending hclosing hjoinable
    | false =>
      unfold SocketObject.release
      rw [StdThread.destroy_of_not_joinable hjoinable]
      exact .release hending hclosing hjoinable

/-- Things happen to an object until it has ended. -/
theorem Stepped.life {l : Label} (h : Stepped s l s') : s.life = .alive ∨ s.life = .ending := by
  cases h with
  | fail halive | connect halive | overwrite halive | destroyClosed halive | destroy halive =>
    exact .inl halive
  | accept hnew | acceptInvalid hnew => exact .inl (congrArg SocketObject.life hnew)
  | closed hlife | close hlife | disconnect hlife => exact hlife
  | release hending | abandon hending => exact .inr hending

theorem Stepped.not_ended {l : Label} (h : Stepped s l s') : s.life ≠ .ended := by
  intro hended
  have hlife := h.life
  rw [hended] at hlife
  rcases hlife with hlife | hlife <;> cases hlife

/-! ## The handles of `CreateFileW` -/

/-- The handle that `connect` has put into the object. -/
def owned (s : SocketObject) : List HANDLE := if s.client then [s.socketHandle] else []

/-- The handles of `CreateFileW` that have to be closed when a step ends: one for which
`connect` fails, and that of an object which is connected again or destroyed. -/
def due (t : Transition SocketObject Label) : List HANDLE :=
  match t.label with
  | .connect path reply =>
      if ¬ Opens path reply then []
      else if reply.lastError = errorSuccess then t.src.owned else [reply.handle]
  | .release => t.src.owned
  | .accept _ | .close | .disconnect | .destroy => []

/-- How often a handle has been closed since `CreateFileW` has returned it last. -/
def closings (h : HANDLE) (calls : List PipeCall) : ℕ :=
  (calls.reverse.takeWhile (· ≠ .createFileW h)).count (.closeHandle h)

/-- What is due has been closed once, and nothing has been closed twice. -/
def ReleasesHandles (t : Transition SocketObject Label) : Prop :=
  (∀ h ∈ due t, closings h t.dst.calls = 1) ∧ ∀ h, closings h t.dst.calls ≤ 1

/-- No step closes a handle. -/
theorem Stepped.keeps {l : Label} (h : Stepped s l s') : Keeps s.calls s'.calls := by
  cases h with
  | fail _ _ hcalls | connect _ _ hcalls | overwrite _ _ hcalls | close _ _ hcalls
  | destroy _ _ _ hcalls => exact hcalls
  | accept | acceptInvalid | closed | disconnect | destroyClosed | release | abandon =>
    exact fun _ hmem ↦ hmem

theorem closings_eq_zero {h : HANDLE} {calls : List PipeCall} (hnone : .closeHandle h ∉ calls) :
    closings h calls = 0 := by
  refine List.count_eq_zero.2 fun hmem ↦ hnone ?_
  exact List.mem_reverse.1 ((List.takeWhile_sublist _).subset hmem)

/-- As no handle has been closed, a step is as it should be exactly if nothing falls due. -/
theorem releases_iff {t : Transition SocketObject Label} (hs : t.src.step t.label = some t.dst)
    (hnone : ∀ h, .closeHandle h ∉ t.src.calls) : ReleasesHandles t ↔ due t = [] := by
  have hzero : ∀ h, closings h t.dst.calls = 0 :=
    fun h ↦ closings_eq_zero fun hmem ↦ hnone h ((stepped hs).keeps h hmem)
  constructor
  · rintro ⟨hdue, -⟩
    refine List.eq_nil_iff_forall_not_mem.2 fun h hmem ↦ ?_
    exact Nat.zero_ne_one ((hzero h).symm.trans (hdue h hmem))
  · intro hempty
    refine ⟨fun h hmem ↦ ?_, fun h ↦ (hzero h).trans_le (Nat.zero_le 1)⟩
    rw [hempty] at hmem
    exact absurd hmem List.not_mem_nil

/-- An object that `connect` has connected remains one, and its handle falls due when it
is destroyed. -/
theorem Stepped.client {l : Label} (h : Stepped s l s')
    (hclient : s.client = true ∨ ∃ path reply, l = .connect path reply ∧ Connects path reply) :
    s'.client = true ∧ (s'.life = .ended → due ⟨s, l, s'⟩ ≠ []) := by
  have hother : (∀ path reply, l ≠ .connect path reply) → s.client = true := by
    intro hne
    rcases hclient with hclient | ⟨path, reply, hl, -⟩
    · exact hclient
    · exact absurd hl (hne path reply)
  have hgoes := h.not_ended
  cases h with
  | fail _ hfails =>
    refine ⟨?_, fun hended ↦ absurd hended hgoes⟩
    rcases hclient with hclient | ⟨_, _, ⟨⟩, hconnects⟩
    · exact hclient
    · exact absurd hconnects hfails
  | connect => exact ⟨rfl, fun hended ↦ absurd hended hgoes⟩
  | overwrite => exact ⟨rfl, by rintro ⟨⟩⟩
  | accept hnew | acceptInvalid hnew =>
    have hclient := hother fun _ _ ↦ by rintro ⟨⟩
    rw [hnew] at hclient
    cases hclient
  | closed | close | disconnect =>
    exact ⟨hother fun _ _ ↦ by rintro ⟨⟩, fun hended ↦ absurd hended hgoes⟩
  | destroyClosed | destroy | abandon => exact ⟨hother fun _ _ ↦ by rintro ⟨⟩, by rintro ⟨⟩⟩
  | release =>
    have hclient := hother fun _ _ ↦ by rintro ⟨⟩
    refine ⟨hclient, fun _ hempty ↦ ?_⟩
    have howned : s.owned = [] := hempty
    unfold owned at howned
    rw [if_pos hclient] at howned
    exact List.cons_ne_nil _ _ howned

/-- In every run in which `connect` has connected an object that is destroyed in the end, a
handle falls due. -/
theorem exists_due {ts : List (Transition SocketObject Label)} (hrun : Run step s ts s')
    (hlife : s.life ≠ .ended) (hended : s'.life = .ended)
    (hclient : s.client = true ∨ ∃ t ∈ ts, ∃ path reply, t.label = .connect path reply ∧ Connects path reply) :
    ∃ t ∈ ts, due t ≠ [] := by
  induction hrun with
  | nil => exact absurd hended hlife
  | @cons s₀ s₁ s₂ l ts hs hrest ih =>
    by_cases hnow : s₀.client = true ∨ ∃ path reply, l = .connect path reply ∧ Connects path reply
    · obtain ⟨hclient', hdue⟩ := (stepped hs).client hnow
      by_cases hlast : s₁.life = .ended
      · exact ⟨_, List.mem_cons_self, hdue hlast⟩
      · obtain ⟨t, ht, hmem⟩ := ih hlast hended (.inl hclient')
        exact ⟨t, List.mem_cons_of_mem _ ht, hmem⟩
    · obtain ⟨hnot, hnotl⟩ := not_or.1 hnow
      rcases hclient with hclient | ⟨t, ht, hlabel⟩
      · exact absurd hclient hnot
      · rcases List.mem_cons.1 ht with rfl | ht
        · exact absurd hlabel hnotl
        · have hgoes : s₁.life ≠ .ended := by
            cases hrest with
            | nil => exact absurd ht List.not_mem_nil
            | cons hs' _ => exact (stepped hs').not_ended
          obtain ⟨t', ht', hmem⟩ := ih hgoes hended (.inr ⟨t, ht, hlabel⟩)
          exact ⟨t', List.mem_cons_of_mem _ ht', hmem⟩

/-- **The handles of `CreateFileW`** are closed when they are due exactly if none is ever
due: if no `connect` fails with a handle, and no object that `connect` has connected is
connected again or destroyed. -/
theorem handles_released_iff {ts : List (Transition SocketObject Label)} (hrun : Run step {} ts s) :
    (∀ t ∈ ts, ReleasesHandles t) ↔ ∀ t ∈ ts, due t = [] :=
  hrun.forall_iff (I := fun s ↦ ∀ h, .closeHandle h ∉ s.calls) (H := fun _ ↦ True)
    (fun _ hs _ _ hnone h hmem ↦ hnone h ((stepped hs).keeps h hmem))
    (fun _ hs _ hnone ↦ releases_iff hs hnone) (fun _ ↦ List.not_mem_nil) fun _ _ ↦ trivial

/-- An attempt that fails, and a connection that is closed and kept. -/
theorem handles_released_iff_closed : ∃ ts s, Run step ({} : SocketObject) ts s ∧
    s.client = true ∧ s.isConnected = false ∧ ∀ t ∈ ts, ReleasesHandles t := by
  obtain ⟨ts, s, hrun, hdue, hclient, hclosed⟩ := Run.exists_of_trace step ({} : SocketObject)
    [.connect ['p'] { handle := invalidHandleValue, lastError := 2 }, .connect ['p'] { handle := 4 },
      .close, .disconnect, .close]
    (fun ts s ↦ (∀ t ∈ ts, due t = []) ∧ s.client = true ∧ s.isConnected = false) ⟨_, rfl, by decide⟩
  exact ⟨ts, s, hrun, hclient, hclosed, (handles_released_iff hrun).2 hdue⟩

/-- A client that connects, closes and is destroyed: its handle has not been closed. -/
theorem handle_leaked : ∃ ts s, Run step ({} : SocketObject) ts s ∧ s.life = .ended ∧
    .createFileW 4 ∈ s.calls ∧ .closeHandle 4 ∉ s.calls ∧ ∃ t ∈ ts, ¬ ReleasesHandles t := by
  obtain ⟨ts, s, hrun, hended, hopened, hclosed, hdue⟩ := Run.exists_of_trace step ({} : SocketObject)
    [.connect ['p'] { handle := 4 }, .close, .disconnect, .destroy, .release]
    (fun ts s ↦ s.life = .ended ∧ .createFileW 4 ∈ s.calls ∧ .closeHandle 4 ∉ s.calls ∧
      ∃ t ∈ ts, 4 ∈ due t ∧ closings 4 t.dst.calls = 0) ⟨_, rfl, by decide⟩
  obtain ⟨t, ht, hmem, hzero⟩ := hdue
  refine ⟨ts, s, hrun, hended, hopened, hclosed, t, ht, fun hreleases ↦ ?_⟩
  exact Nat.zero_ne_one (hzero.symm.trans (hreleases.1 4 hmem))

end SocketObject

end Datapath.Windows
