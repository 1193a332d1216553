import Mathlib.Data.List.Basic

/-!
# What every platform shares: error codes and events

`error` is the result code of every operation of the library.  An `Event` is a
list of listeners; the library asks whether it has any (its conversion to
`bool`) before it dispatches, and dispatching calls each listener in the order
in which it was added.
-/

namespace Datapath

/-- The result codes of `error.hpp`. -/
inductive error where
  | unknown
  | success
  | failure
  | criticalFailure
  | closed
  | timedOut
  | invalidPath
  | notSupported
deriving DecidableEq, Repr

/-- `datapath::event`: the listeners registered, in the order they were added. -/
structure Event (F : Type*) where
  listeners : List F := []
deriving DecidableEq, Repr

namespace Event

variable {F : Type*}

/-- No listeners. -/
def empty (e : Event F) : Bool := e.listeners.isEmpty

/-- The conversion to `bool`: true when there is a listener. -/
def toBool (e : Event F) : Bool := !e.empty

def add (e : Event F) (listener : F) : Event F := { e with listeners := e.listeners ++ [listener] }

def clear (e : Event F) : Event F := { e with listeners := [] }

end Event

end Datapath
