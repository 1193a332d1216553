import Datapath.Lib.Simulation

/-!
# Channels

What a connection is for: messages that are sent are received once, in the order in which
they were sent, and nothing else is received.  The state of a channel is the list of the
messages that are on their way.
-/

namespace Datapath.Lib.Channel

variable {M : Type*}

/-- What can happen to a channel. -/
inductive Label (M : Type*) where
  | send (m : M)
  | receive (m : M)
deriving DecidableEq, Repr

/-- One step of a channel.  Only the message that has been on its way for longest can be
received. -/
def step [DecidableEq M] : List M → Label M → Option (List M)
  | queue, .send m => some (queue ++ [m])
  | [], .receive _ => none
  | m' :: queue, .receive m => if m = m' then some queue else none

/-- The message of a step that sends one. -/
def Label.sent? : Label M → Option M
  | .send m => some m
  | .receive _ => none

/-- The message of a step that receives one. -/
def Label.received? : Label M → Option M
  | .send _ => none
  | .receive m => some m

/-- The messages that are sent. -/
def sent (ls : List (Label M)) : List M := ls.filterMap Label.sent?

/-- The messages that are received. -/
def received (ls : List (Label M)) : List M := ls.filterMap Label.received?

@[simp] theorem received_map_receive (ms : List M) : received (ms.map .receive) = ms := by
  induction ms with
  | nil => rfl
  | cons m ms ih => exact congrArg (m :: ·) ih

theorem received_append (ls ls' : List (Label M)) : received (ls ++ ls') = received ls ++ received ls' :=
  List.filterMap_append

variable [DecidableEq M] {queue queue' : List M} {ls : List (Label M)}

/-- In one step, what was on its way and what is sent is what is received and what is on its
way then. -/
theorem queue_step {l : Label M} (h : step queue l = some queue') :
    queue ++ l.sent?.toList = l.received?.toList ++ queue' := by
  cases l with
  | send m =>
      cases h
      rfl
  | receive m =>
      cases queue with
      | nil => cases h
      | cons m' queue =>
          obtain ⟨rfl, hq⟩ := Option.ite_none_right_eq_some.1 h
          cases hq
          exact List.append_nil _

/-- **Nothing is lost, duplicated or reordered.**  What was on its way and what is sent is
what is received and, behind it, what is on its way at the end. -/
theorem in_order (h : Steps step queue ls queue') : queue ++ sent ls = received ls ++ queue' := by
  obtain ⟨ts, hrun, rfl⟩ := h
  have hqueue := hrun.queue id (fun t ↦ t.label.sent?.toList) (fun t ↦ t.label.received?.toList)
    fun t ht ↦ queue_step (hrun.step_of_mem ht)
  rw [sent, received, List.filterMap_map, List.filterMap_map, List.filterMap_eq_flatMap_toList,
    List.filterMap_eq_flatMap_toList]
  exact hqueue

/-- What a channel that was empty has received is the beginning of what it was sent. -/
theorem received_prefix (h : Steps step [] ls queue') : received ls <+: sent ls :=
  ⟨queue', (in_order h).symm⟩

/-- The messages in front can be received. -/
theorem steps_receive (ms queue : List M) : Steps step (ms ++ queue) (ms.map .receive) queue := by
  induction ms with
  | nil => exact .nil queue
  | cons m ms ih => exact .cons (if_pos rfl) ih

end Datapath.Lib.Channel
