import Datapath.Windows.Kernel
import Datapath.Windows.Waitable

/-!
# Waiting for many objects

`waitable::wait` on an array of objects waits for all of them, and `wait_any` for one.
Both build a list of the handles of the objects that are there, and a list of their
positions; both lists are as long as the array, and end in zeros if entries are null.
The loop around `WaitForMultipleObjectsEx` is the one of `wait` on one object.

A result is a number.  What a null entry, or a position outside of a list, leads to is
undefined.
-/

namespace Datapath

open Windows (HANDLE)

def waitObject0 : ℕ := 0
def waitAbandoned0 : ℕ := 0x80
def waitIoCompletion : ℕ := 0xC0
def waitTimeout : ℕ := 0x102
def maximumWaitObjects : ℕ := 64

/-- What has become of a call. -/
inductive Outcome (R : Type*) where
  | waiting
  | returned (r : R)
  /-- A null entry has been dereferenced, or a list read outside of its bounds. -/
  | undefined
deriving DecidableEq, Repr

/-- Waitable objects in a world whose state is `σ`. -/
structure Waiters (O σ χ : Type*) where
  getWaitable : O → HANDLE
  /-- One call: its result, the nanoseconds that passed in it, the state after it. -/
  waitForMultipleObjectsEx : χ → List HANDLE → Bool → ℤ → σ → ℕ × ℤ × σ
  /-- The listeners of `_on_wait_success` of an object. -/
  onWaitSuccess : O → error → σ → σ
  /-- The listeners of `_on_wait_error` of an object. -/
  onWaitError : O → error → σ → σ

namespace Waiters

variable {O σ χ R : Type*}

/-- `handles`, `indexes` and `valid_handles`. -/
structure Translation where
  handles : List HANDLE
  indexes : List ℕ
  validHandles : ℕ
deriving DecidableEq, Repr

/-- A round of the loop that builds the lists. -/
def translateOne (w : Waiters O σ χ) (tr : Translation) : Option O × ℕ → Translation
  | (some obj, idx) => {
      handles := tr.handles.set tr.validHandles (w.getWaitable obj)
      indexes := tr.indexes.set tr.validHandles idx
      validHandles := tr.validHandles + 1 }
  | (none, _) => tr

/-- "Rebuild a valid obj+index translation list." -/
def translate (w : Waiters O σ χ) (objs : List (Option O)) : Translation :=
  objs.zipIdx.foldl w.translateOne
    ⟨List.replicate objs.length 0, List.replicate objs.length 0, 0⟩

/-- Call the listeners of one object. -/
def fire (event : O → σ → σ) (objs : List (Option O)) (idx : ℕ) (s : σ) : Option σ :=
  match objs[idx]? with
  | some (some obj) => some (event obj s)
  | some none | none => none

/-- Call the listeners of some objects, one after the other. -/
def fireAll (event : O → σ → σ) (objs : List (Option O)) : List ℕ → σ → Option σ
  | [], s => some s
  | idx :: rest, s => (fire event objs idx s).bind (fireAll event objs rest)

/-- Return with a result, unless the listeners could not be called. -/
def return_ (r : R) (s : σ) : Option σ → Outcome R × σ
  | some s' => (.returned r, s')
  | none => (.undefined, s)

/-- What `wait` does with a result of `WaitForMultipleObjectsEx`; `none` is to go on. -/
def answerAll (w : Waiters O σ χ) (objs : List (Option O)) (indexes : List ℕ) (result : ℕ) (s : σ) :
    Option (Outcome error × σ) :=
  if waitObject0 ≤ result ∧ result < waitObject0 + maximumWaitObjects then
    some (return_ .success s (fireAll (w.onWaitSuccess · .success) objs indexes s))
  else if waitAbandoned0 ≤ result ∧ result < waitAbandoned0 + maximumWaitObjects then
    some (return_ .closed s (fireAll (w.onWaitError · .closed) objs indexes s))
  else if result = waitTimeout then some (.returned .timedOut, s)
  else if result = waitIoCompletion then none
  else some (.returned .failure, s)

/-- `index = indexes[at]`, and the listeners of that object. -/
def fireAt (event : O → σ → σ) (objs : List (Option O)) (indexes : List ℕ) (at_ : ℕ) (e : error) (s : σ) :
    Outcome (error × ℕ) × σ :=
  match indexes[at_]? with
  | none => (.undefined, s)
  | some index => return_ (e, index) s (fire event objs index s)

/-- What `wait_any` does with a result of `WaitForMultipleObjectsEx`; `none` is to go on.
`index` is the caller's variable. -/
def answerAny (w : Waiters O σ χ) (objs : List (Option O)) (indexes : List ℕ) (index result : ℕ) (s : σ) :
    Option (Outcome (error × ℕ) × σ) :=
  if waitObject0 ≤ result ∧ result < waitObject0 + maximumWaitObjects then
    some (fireAt (w.onWaitSuccess · .success) objs indexes (result - waitObject0) .success s)
  else if waitAbandoned0 ≤ result ∧ result < waitAbandoned0 + maximumWaitObjects then
    some (fireAt (w.onWaitError · .closed) objs indexes (result - waitObject0) .closed s)
  else if result = waitTimeout then some (.returned (.timedOut, index), s)
  else if result = waitIoCompletion then none
  else some (.returned (.failure, index), s)

/-- The loop of both functions, fed with what the outside world does in each call. -/
def waitLoop (call : χ → ℤ → σ → ℕ × ℤ × σ) (answer : ℕ → σ → Option (Outcome R × σ))
    (timedOut : R) : ℤ → List χ → σ → Outcome R × σ
  | _, [], s => (.waiting, s)
  | timeout, c :: cs, s =>
      match call c timeout s with
      | (result, elapsed, s) =>
          match answer result s with
          | some r => r
          | none =>
              let timeout := timeout - Waiter.toMilliseconds elapsed
              let timeout := if timeout ≤ 0 then 0 else timeout
              if 0 ≤ timeout then waitLoop call answer timedOut timeout cs s
              else (.returned timedOut, s)

/-- `waitable::wait` on an array. -/
def wait (w : Waiters O σ χ) (objs : List (Option O)) (duration : ℤ) (cs : List χ) (s : σ) :
    Outcome error × σ :=
  let tr := w.translate objs
  waitLoop (fun c ↦ w.waitForMultipleObjectsEx c tr.handles true) (w.answerAll objs tr.indexes)
    .timedOut (Waiter.clampTimeout (Waiter.toMilliseconds duration)) cs s

/-- `waitable::wait_any`. -/
def waitAny (w : Waiters O σ χ) (objs : List (Option O)) (index : ℕ) (duration : ℤ) (cs : List χ)
    (s : σ) : Outcome (error × ℕ) × σ :=
  let tr := w.translate objs
  waitLoop (fun c ↦ w.waitForMultipleObjectsEx c tr.handles false) (w.answerAny objs tr.indexes index)
    (.timedOut, index) (Waiter.clampTimeout (Waiter.toMilliseconds duration)) cs s

/-! ## The lists -/

/-- The entries of objects that are there. -/
def present (entries : List (Option O × ℕ)) : List (O × ℕ) :=
  entries.filterMap fun e ↦ e.1.map (·, e.2)

/-- The objects that are there, with their positions. -/
def valid (objs : List (Option O)) : List (O × ℕ) := present objs.zipIdx

theorem length_valid (objs : List (Option O)) : (valid objs).length = objs.countP Option.isSome := by
  have hfst : objs.zipIdx.map Prod.fst = objs := List.zipIdx_map_fst 0 objs
  unfold valid present
  rw [List.length_filterMap_eq_countP]
  conv_rhs => rw [← hfst, List.countP_map]
  congr
  funext e
  exact Option.isSome_map

theorem length_valid_le (objs : List (Option O)) : (valid objs).length ≤ objs.length := by
  rw [length_valid]
  exact List.countP_le_length

/-- The loop that builds the lists: what is filled in so far, then zeros. -/
theorem foldl_translateOne (w : Waiters O σ χ) (entries : List (Option O × ℕ)) :
    ∀ (handles : List HANDLE) (indexes : List ℕ) (m : ℕ), indexes.length = handles.length →
      (present entries).length ≤ m →
      entries.foldl w.translateOne
          ⟨handles ++ List.replicate m 0, indexes ++ List.replicate m 0, handles.length⟩ = {
        handles := handles ++ (present entries).map (fun e ↦ w.getWaitable e.1) ++
          List.replicate (m - (present entries).length) 0
        indexes := indexes ++ (present entries).map Prod.snd ++
          List.replicate (m - (present entries).length) 0
        validHandles := handles.length + (present entries).length } := by
  induction entries with
  | nil =>
      intro handles indexes m _ _
      simp [present]
  | cons e entries ih =>
      intro handles indexes m hlength hm
      obtain ⟨obj, idx⟩ := e
      cases obj with
      | none => exact ih handles indexes m hlength hm
      | some obj =>
          have hpresent : present ((some obj, idx) :: entries) = (obj, idx) :: present entries := rfl
          rw [hpresent, List.length_cons] at hm
          obtain ⟨m, rfl⟩ : ∃ k, m = k + 1 := ⟨m - 1, by omega⟩
          have hround : w.translateOne ⟨handles ++ List.replicate (m + 1) 0,
              indexes ++ List.replicate (m + 1) 0, handles.length⟩ (some obj, idx) =
              ⟨(handles ++ [w.getWaitable obj]) ++ List.replicate m 0,
                (indexes ++ [idx]) ++ List.replicate m 0, (handles ++ [w.getWaitable obj]).length⟩ := by
            simp [translateOne, hlength, List.replicate_succ]
          rw [List.foldl_cons, hround, ih _ _ m (by simp [hlength]) (by omega), hpresent]
          simp
          omega

/-- The lists are those of the objects that are there, filled up with zeros. -/
theorem translate_eq (w : Waiters O σ χ) (objs : List (Option O)) :
    w.translate objs = {
      handles := (valid objs).map (fun e ↦ w.getWaitable e.1) ++
        List.replicate (objs.length - (valid objs).length) 0
      indexes := (valid objs).map Prod.snd ++ List.replicate (objs.length - (valid objs).length) 0
      validHandles := (valid objs).length } := by
  have hfold := w.foldl_translateOne objs.zipIdx [] [] objs.length rfl (length_valid_le objs)
  simpa [translate, valid] using hfold

/-! ## What is dereferenced -/

end Waiters

end Datapath
