import Mathlib.Data.List.Basic

/-! Oneshot channels, each with one sender that somebody owns. A receiver, and every clone
of it, completes once something is sent or the sender is gone. -/

set_option autoImplicit false

namespace Workbench.Library

structure Oneshot where
  sent : Bool
  senderAlive : Bool
  deriving DecidableEq, Repr

def Oneshot.new : Oneshot := ⟨false, true⟩

def Oneshot.completed (this : Oneshot) : Bool := this.sent || !this.senderAlive

/-- The channels opened so far. A sender or receiver is the index of its channel. -/
abbrev Oneshots := List Oneshot

namespace Oneshots

/-- Opens a channel, with its index. -/
def channel (this : Oneshots) : Nat × Oneshots := (this.length, this ++ [.new])

/-- Sends, which uses the sender up. -/
def send (this : Oneshots) (tx : Nat) : Oneshots := this.modify tx fun _ => ⟨true, false⟩

def dropSender (this : Oneshots) (tx : Nat) : Oneshots :=
  this.modify tx ({ · with senderAlive := false })

/-- Whether the future of a receiver is ready. -/
def completed (this : Oneshots) (rx : Nat) : Bool := this[rx]?.elim true Oneshot.completed

/-- A receiver that waits: nothing was sent, and the sender is there. -/
def Pending (this : Oneshots) (rx : Nat) : Prop := this[rx]? = some .new

variable {this : Oneshots} {tx rx : Nat}

theorem Pending.not_completed (pending : this.Pending rx) : this.completed rx = false := by
  rw [completed, pending]
  rfl

theorem Pending.lt (pending : this.Pending rx) : rx < this.length :=
  (List.getElem?_eq_some_iff.mp pending).1

theorem pending_channel (this : Oneshots) : this.channel.2.Pending this.channel.1 := by
  simp [channel, Pending]

theorem completed_channel (this : Oneshots) (differs : rx ≠ this.channel.1) :
    this.channel.2.completed rx = this.completed rx := by
  unfold channel completed
  rcases Nat.lt_or_gt_of_ne differs with before | after
  · rw [List.getElem?_append_left before]
  · have absent : this[rx]? = none := List.getElem?_eq_none (Nat.le_of_lt after)
    have absent' : (this ++ [Oneshot.new])[rx]? = none := by
      refine List.getElem?_eq_none ?_
      rw [List.length_append]
      exact after
    rw [absent, absent']

theorem completed_send (this : Oneshots) (tx rx : Nat) :
    (this.send tx).completed rx = (decide (tx = rx) || this.completed rx) := by
  unfold send completed
  rw [List.getElem?_modify]
  by_cases same : tx = rx
  · cases this[rx]? <;> simp [same, Oneshot.completed]
  · cases this[rx]? <;> simp [same]

theorem map_channel (this : Oneshots) :
    this.channel.2.map Oneshot.completed = this.map Oneshot.completed ++ [false] :=
  List.map_append

theorem map_send (this : Oneshots) (tx : Nat) :
    (this.send tx).map Oneshot.completed = (this.map Oneshot.completed).set tx true := by
  refine List.ext_getElem? fun rx => ?_
  unfold send
  rw [List.getElem?_map, List.getElem?_modify, List.getElem?_set, List.length_map, List.getElem?_map]
  by_cases same : tx = rx
  · subst same
    by_cases opened : tx < this.length
    · simp [opened, Oneshot.completed]
    · simp [opened]
  · simp [same]

end Oneshots

end Workbench.Library
