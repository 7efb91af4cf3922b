import Mathlib.Data.List.Basic

/-! Congestion controllers, and the one that is to react to ECN alone. A controller of the
transport is any state machine; the estimate of the round trip is its own business. -/

set_option autoImplicit false

namespace Workbench.Quinn

variable (Rtt : Type)

class Controller (State : Type) where
  onSent (now bytes lastPacketNumber : Nat) : State → State
  onAck (now sent bytes : Nat) (appLimited : Bool) (rtt : Rtt) : State → State
  onEndAcks (now inFlight : Nat) (appLimited : Bool) (largestPacketNumAcked : Option Nat) :
    State → State
  onCongestionEvent (now sent : Nat) (isPersistentCongestion isEcn : Bool) (lostBytes : Nat) :
    State → State
  onMtuUpdate (newMtu : Nat) : State → State
  window : State → Nat
  cloneBox : State → State
  initialWindow : State → Nat

/-- What the transport asks of a controller, which it may also replace by a clone. -/
inductive Callback where
  | onSent (now bytes lastPacketNumber : Nat)
  | onAck (now sent bytes : Nat) (appLimited : Bool) (rtt : Rtt)
  | onEndAcks (now inFlight : Nat) (appLimited : Bool) (largestPacketNumAcked : Option Nat)
  | onCongestionEvent (now sent : Nat) (isPersistentCongestion isEcn : Bool) (lostBytes : Nat)
  | onMtuUpdate (newMtu : Nat)
  | cloneBox

/-- A controller of some type. -/
structure BoxController where
  State : Type
  [controller : Controller Rtt State]
  state : State

instance (this : BoxController Rtt) : Controller Rtt this.State := this.controller

structure ControllerFactory where
  build (now currentMtu : Nat) : BoxController Rtt

variable {Rtt} {State : Type}

def Callback.call [Controller Rtt State] (state : State) : Callback Rtt → State
  | onSent now bytes lastPacketNumber => Controller.onSent Rtt now bytes lastPacketNumber state
  | onAck now sent bytes appLimited rtt => Controller.onAck now sent bytes appLimited rtt state
  | onEndAcks now inFlight appLimited largestPacketNumAcked =>
    Controller.onEndAcks Rtt now inFlight appLimited largestPacketNumAcked state
  | onCongestionEvent now sent isPersistentCongestion isEcn lostBytes =>
    Controller.onCongestionEvent Rtt now sent isPersistentCongestion isEcn lostBytes state
  | onMtuUpdate newMtu => Controller.onMtuUpdate Rtt newMtu state
  | cloneBox => Controller.cloneBox Rtt state

/-- A congestion event that loss triggers, and not ECN. -/
def Callback.isLoss : Callback Rtt → Bool
  | onCongestionEvent _ _ _ isEcn _ => !isEcn
  | _ => false

def BoxController.call (this : BoxController Rtt) (callback : Callback Rtt) : BoxController Rtt :=
  { this with state := callback.call this.state }

def BoxController.window (this : BoxController Rtt) : Nat :=
  Controller.window Rtt this.state

/-- The controller after a sequence of callbacks. -/
def BoxController.after (this : BoxController Rtt) (callbacks : List (Callback Rtt)) :
    BoxController Rtt :=
  callbacks.foldl call this

structure EcnCc (State : Type) where
  inner : State

/-- Ignores congestion events triggered by packet loss, forwards only those triggered by ECN. -/
instance EcnCc.controller [Controller Rtt State] : Controller Rtt (EcnCc State) where
  onSent now bytes lastPacketNumber this :=
    ⟨Controller.onSent Rtt now bytes lastPacketNumber this.inner⟩
  onAck now sent bytes appLimited rtt this :=
    ⟨Controller.onAck now sent bytes appLimited rtt this.inner⟩
  onEndAcks now inFlight appLimited largestPacketNumAcked this :=
    ⟨Controller.onEndAcks Rtt now inFlight appLimited largestPacketNumAcked this.inner⟩
  onCongestionEvent now sent isPersistentCongestion isEcn lostBytes this :=
    if isEcn then
      ⟨Controller.onCongestionEvent Rtt now sent isPersistentCongestion isEcn lostBytes this.inner⟩
    else this
  onMtuUpdate newMtu this := ⟨Controller.onMtuUpdate Rtt newMtu this.inner⟩
  window this := Controller.window Rtt this.inner
  cloneBox this := ⟨Controller.cloneBox Rtt this.inner⟩
  initialWindow this := Controller.initialWindow Rtt this.inner

structure EcnCcFactory (Rtt : Type) where
  factory : ControllerFactory Rtt

def EcnCcFactory.build (this : EcnCcFactory Rtt) (now currentMtu : Nat) : BoxController Rtt :=
  this.factory.build now currentMtu

/-! What the controllers make of losses. -/

/-- The same window is reported as without the losses. -/
def BoxController.IgnoresLoss (this : BoxController Rtt) (callbacks : List (Callback Rtt)) : Prop :=
  (this.after callbacks).window = (this.after (callbacks.filter (!·.isLoss))).window

/-- A wrapped controller stays as it is on a loss. -/
theorem EcnCc.call_loss [Controller Rtt State] (this : EcnCc State) {callback : Callback Rtt}
    (loss : callback.isLoss = true) : callback.call this = this := by
  cases callback with
  | onCongestionEvent now sent isPersistentCongestion isEcn lostBytes =>
      cases isEcn with
      | true => cases loss
      | false => rfl
  | _ => cases loss

/-- A controller of the wrapper's own type ignores losses, also across clones of it. -/
theorem EcnCc.ignoresLoss [Controller Rtt State] (this : EcnCc State)
    (callbacks : List (Callback Rtt)) :
    (BoxController.mk (EcnCc State) this).IgnoresLoss callbacks := by
  have same : (BoxController.mk (EcnCc State) this).after callbacks =
      (BoxController.mk (EcnCc State) this).after (callbacks.filter (!·.isLoss)) := by
    unfold BoxController.after
    induction callbacks generalizing this with
    | nil => rfl
    | cons callback callbacks ih =>
        have called : (BoxController.mk (EcnCc State) this).call callback =
            .mk (EcnCc State) (callback.call this) := rfl
        rw [List.foldl_cons, called, ih, List.filter_cons]
        cases loss : callback.isLoss with
        | true => simp [this.call_loss loss]
        | false => simp [called]
  exact congrArg BoxController.window same

/-- A controller that counts losses in its window. -/
structure Losses where
  count : Nat

instance Losses.controller : Controller Rtt Losses where
  onSent _ _ _ this := this
  onAck _ _ _ _ _ this := this
  onEndAcks _ _ _ _ this := this
  onCongestionEvent _ _ _ isEcn _ this := if isEcn then this else ⟨this.count + 1⟩
  onMtuUpdate _ this := this
  window this := this.count
  cloneBox this := this
  initialWindow _ := 0

def Losses.factory : ControllerFactory Rtt := ⟨fun _ _ => .mk Losses ⟨0⟩⟩

theorem Losses.window_after (count : Nat) (callbacks : List (Callback Rtt)) :
    ((BoxController.mk Losses ⟨count⟩).after callbacks).window =
      count + callbacks.countP (·.isLoss) := by
  unfold BoxController.after
  induction callbacks generalizing count with
  | nil => rfl
  | cons callback callbacks ih =>
      rw [List.foldl_cons, List.countP_cons]
      cases loss : callback.isLoss with
      | true =>
          have called : (BoxController.mk Losses ⟨count⟩).call callback = .mk Losses ⟨count + 1⟩ := by
            cases callback with
            | onCongestionEvent now sent isPersistentCongestion isEcn lostBytes =>
                cases isEcn with
                | true => cases loss
                | false => rfl
            | _ => cases loss
          rw [called, ih, if_pos rfl]
          omega
      | false =>
          have called : (BoxController.mk Losses ⟨count⟩).call callback = .mk Losses ⟨count⟩ := by
            cases callback with
            | onCongestionEvent now sent isPersistentCongestion isEcn lostBytes =>
                cases isEcn with
                | true => rfl
                | false => cases loss
            | _ => rfl
          rw [called, ih]
          simp

namespace EcnCcFactory

/-- The controllers that the factory builds ignore the losses of a sequence of callbacks,
whatever controller they are to wrap, exactly where there are none. -/
theorem build_ignoresLoss_iff (now currentMtu : Nat) (callbacks : List (Callback Rtt)) :
    (∀ inner : ControllerFactory Rtt,
        ((EcnCcFactory.mk inner).build now currentMtu).IgnoresLoss callbacks) ↔
      ∀ callback ∈ callbacks, callback.isLoss = false := by
  constructor
  · intro ignores
    have same : ((BoxController.mk Losses ⟨0⟩).after callbacks).window =
        ((BoxController.mk Losses ⟨0⟩).after (callbacks.filter (!·.isLoss))).window :=
      ignores Losses.factory
    have none : (callbacks.filter (!·.isLoss)).countP (·.isLoss) = 0 := by
      simp [List.countP_eq_zero]
    rw [Losses.window_after, Losses.window_after, none, Nat.zero_add, List.countP_eq_zero] at same
    simpa using same
  · intro lossless inner
    have kept : callbacks.filter (!·.isLoss) = callbacks := by
      simpa using lossless
    rw [BoxController.IgnoresLoss, kept]

/-- A controller that halves its window on a congestion event. -/
structure Halving where
  bytes : Nat

instance Halving.controller : Controller Unit Halving where
  onSent _ _ _ this := this
  onAck _ _ _ _ _ this := this
  onEndAcks _ _ _ _ this := this
  onCongestionEvent _ _ _ _ _ this := ⟨this.bytes / 2⟩
  onMtuUpdate _ this := this
  window this := this.bytes
  cloneBox this := this
  initialWindow this := this.bytes

/-- A loss halves the window of a controller that the factory built. -/
theorem build_reacts_to_loss :
    ¬ ∀ (inner : ControllerFactory Unit) (callbacks : List (Callback Unit)),
      ((EcnCcFactory.mk inner).build 0 1200).IgnoresLoss callbacks := by
  intro ignores
  have same : 6000 = 12000 :=
    ignores ⟨fun _ _ => .mk Halving ⟨12000⟩⟩ [.onCongestionEvent 7 3 false false 1200]
  cases same

end EcnCcFactory

end Workbench.Quinn
