import Workbench.Library.Oneshot
import Workbench.Network.Link

/-! The notifiers of links and nodes that are down.

Here a status owns the sender of its channel, as in the source, and is moved out, put back
or dropped. The rest of the model only keeps which channels have completed. -/

set_option autoImplicit false

namespace Workbench.Network

open Workbench.Library

/-- A status, of a link or of a node, that owns what it holds: the sender of a channel, and its
shared receiver. -/
inductive OwnedStatus where
  | up
  | down (upTx upRx : Nat)
  deriving DecidableEq, Repr

namespace OwnedStatus

def newDown (channels : Oneshots) : OwnedStatus × Oneshots :=
  let opened := channels.channel
  (.down opened.1 opened.1, opened.2)

/-- The sender goes with a status that is dropped. -/
def drop (this : OwnedStatus) (channels : Oneshots) : Oneshots :=
  match this with
  | .up => channels
  | .down upTx _ => channels.dropSender upTx

end OwnedStatus

/-- The place of a status, and the channels opened so far. -/
structure StatusCell where
  status : OwnedStatus
  channels : Oneshots
  deriving DecidableEq, Repr

namespace StatusCell

def new : StatusCell := ⟨.up, []⟩

def isDown (this : StatusCell) : Bool :=
  match this.status with
  | .up => false
  | .down _ _ => true

def notifierForUp (this : StatusCell) : Option Nat :=
  match this.status with
  | .up => none
  | .down _ upRx => some upRx

/-- `mem::replace`: moves the status out of its place, without dropping it. -/
def replace (this : StatusCell) (status : OwnedStatus) : OwnedStatus × StatusCell :=
  (this.status, { this with status })

/-- An assignment, which drops the status that was there. -/
def assign (this : StatusCell) (status : OwnedStatus) : StatusCell :=
  ⟨status, this.status.drop this.channels⟩

/-- The update that links and nodes share. -/
def updateStatus (this : StatusCell) (update : UpdateStatus) : StatusCell :=
  let (status, this) := this.replace .up
  match status, update with
  | .down upTx upRx, .down => this.assign (.down upTx upRx)
  | .up, .up => this.assign .up
  | .up, .down =>
    let (status, channels) := OwnedStatus.newDown this.channels
    { this with channels }.assign status
  | .down upTx _, .up =>
    let this := this.assign .up
    { this with channels := this.channels.send upTx }

theorem updateStatus_cases (this : StatusCell) (update : UpdateStatus) :
    this.updateStatus update = match this.status, update with
      | .down _ _, .down | .up, .up => this
      | .up, .down => ⟨.down this.channels.length this.channels.length, this.channels.channel.2⟩
      | .down upTx _, .up => ⟨.up, this.channels.send upTx⟩ := by
  obtain ⟨status, channels⟩ := this
  cases status <;> cases update <;> rfl

/-- The sender and the receiver of a status that is down are those of one channel, and it
has not completed. -/
def Owned (this : StatusCell) : Prop :=
  ∀ upTx upRx, this.status = .down upTx upRx → upTx = upRx ∧ this.channels.Pending upRx

theorem Owned.new : StatusCell.new.Owned := fun _ _ down => nomatch down

theorem Owned.updateStatus {this : StatusCell} (owned : this.Owned) (update : UpdateStatus) :
    (this.updateStatus update).Owned := by
  rw [updateStatus_cases]
  obtain ⟨status, channels⟩ := this
  cases status with
  | up =>
      cases update with
      | up => exact owned
      | down =>
          -- both ends are of the channel that the update creates
          rintro upTx upRx down
          obtain ⟨rfl, rfl⟩ := OwnedStatus.down.inj down
          exact ⟨rfl, Oneshots.pending_channel channels⟩
  | down upTx upRx =>
      cases update with
      | up => exact fun _ _ down => nomatch down
      | down => exact owned

theorem Owned.updates {this : StatusCell} (owned : this.Owned) (updates : List UpdateStatus) :
    (updates.foldl StatusCell.updateStatus this).Owned := by
  induction updates generalizing this with
  | nil => exact owned
  | cons update updates ih => exact ih (owned.updateStatus update)

theorem updateStatus_isDown (this : StatusCell) (update : UpdateStatus) :
    (this.updateStatus update).isDown = decide (update = .down) := by
  rw [updateStatus_cases]
  obtain ⟨status, channels⟩ := this
  cases status <;> cases update <;> rfl

/-- The last update decides whether the status is down. -/
theorem updates_isDown (updates : List UpdateStatus) :
    (updates.foldl updateStatus new).isDown = decide (updates.getLast? = some .down) := by
  cases updates using List.reverseRecOn with
  | nil => rfl
  | append_singleton updates update =>
      rw [List.foldl_concat, updateStatus_isDown, List.getLast?_concat]
      simp

variable {this : StatusCell} {notifier : Nat}

/-- An up completes a pending notifier, and a down leaves everything in its place. -/
theorem updateStatus_notifier (owned : this.Owned) (taken : this.notifierForUp = some notifier) :
    notifier < (this.updateStatus .up).channels.length ∧
      (this.updateStatus .up).channels.completed notifier = true ∧
      this.updateStatus .down = this ∧ this.channels.completed notifier = false := by
  rw [updateStatus_cases, updateStatus_cases]
  obtain ⟨status, channels⟩ := this
  cases status with
  | up => cases taken
  | down upTx upRx =>
      obtain rfl := Option.some.inj taken
      obtain ⟨rfl, pending⟩ := owned upTx upRx rfl
      exact ⟨by simpa [Oneshots.send] using pending.lt, by simp [Oneshots.completed_send], rfl,
        pending.not_completed⟩

/-- A completed notifier stays so. -/
theorem updateStatus_completed (opened : notifier < this.channels.length)
    (completed : this.channels.completed notifier = true) (update : UpdateStatus) :
    notifier < (this.updateStatus update).channels.length ∧
      (this.updateStatus update).channels.completed notifier = true := by
  rw [updateStatus_cases]
  obtain ⟨status, channels⟩ := this
  cases status with
  | up =>
      cases update with
      | up => exact ⟨opened, completed⟩
      | down =>
          refine ⟨?_, ?_⟩
          · change notifier < (channels ++ [Oneshot.new]).length
            rw [List.length_append]
            exact Nat.lt_add_right _ opened
          · exact (channels.completed_channel (Nat.ne_of_lt opened)).trans completed
  | down upTx upRx =>
      cases update with
      | up => exact ⟨by simpa [Oneshots.send] using opened, by simp [Oneshots.completed_send, completed]⟩
      | down => exact ⟨opened, completed⟩

theorem updates_completed (opened : notifier < this.channels.length)
    (completed : this.channels.completed notifier = true) (updates : List UpdateStatus) :
    (updates.foldl updateStatus this).channels.completed notifier = true := by
  induction updates generalizing this with
  | nil => exact completed
  | cons update updates ih =>
      obtain ⟨opened, completed⟩ := updateStatus_completed opened completed update
      exact ih opened completed

/-- A notifier completes with the first up after it was taken; until then it is the one
that the status has. -/
theorem updates_notifier (owned : this.Owned) (taken : this.notifierForUp = some notifier)
    (updates : List UpdateStatus) :
    (updates.foldl updateStatus this).channels.completed notifier = decide (.up ∈ updates) ∧
      (.up ∉ updates → updates.foldl updateStatus this = this) := by
  obtain ⟨opened, wakes, keeps, pending⟩ := updateStatus_notifier owned taken
  induction updates with
  | nil => exact ⟨pending, fun _ => rfl⟩
  | cons update updates ih =>
      cases update with
      | down =>
          rw [List.foldl_cons, keeps]
          simpa using ih
      | up =>
          -- once completed, it stays so whatever follows
          exact ⟨by simpa using updates_completed opened wakes updates, fun none => by simp at none⟩

/-- What notifiers promise of a status: of the updates before one is taken, and those after. -/
structure Notifies (before after : List UpdateStatus) (taken later : StatusCell) : Prop where
  down : taken.isDown = decide (before.getLast? = some .down)
  available : taken.notifierForUp.isSome = taken.isDown
  completes : ∀ notifier, taken.notifierForUp = some notifier →
    later.channels.completed notifier = decide (.up ∈ after)
  kept : taken.isDown = true → .up ∉ after → later = taken

theorem updates_notifies (before after : List UpdateStatus) :
    Notifies before after (before.foldl updateStatus new)
      (after.foldl updateStatus (before.foldl updateStatus new)) := by
  have owned := Owned.new.updates before
  have available : (before.foldl updateStatus new).notifierForUp.isSome =
      (before.foldl updateStatus new).isDown := by
    generalize before.foldl updateStatus new = taken
    obtain ⟨status, channels⟩ := taken
    cases status <;> rfl
  refine ⟨updates_isDown before, available, fun notifier taken => (updates_notifier owned taken after).1,
    fun down => ?_⟩
  obtain ⟨notifier, taken⟩ := Option.isSome_iff_exists.mp (available.trans down)
  exact (updates_notifier owned taken after).2

/-- What the rest of the model keeps of a status: its channel, and which ones completed. -/
def switch (this : StatusCell) : Switch where
  status :=
    match this.status with
    | .up => .up
    | .down upTx _ => .down upTx
  channels := this.channels.map Oneshot.completed

theorem updateStatus_switch (this : StatusCell) (update : UpdateStatus) :
    (this.updateStatus update).switch = this.switch.update update := by
  rw [updateStatus_cases]
  obtain ⟨status, channels⟩ := this
  cases status with
  | up =>
      cases update with
      | up => rfl
      | down => simp [switch, Switch.update, Oneshots.map_channel]
  | down upTx upRx =>
      cases update with
      | up => simp [switch, Switch.update, Oneshots.map_send]
      | down => rfl

theorem Owned.notifierForUp_switch {this : StatusCell} (owned : this.Owned) :
    this.switch.notifierForUp = this.notifierForUp := by
  obtain ⟨status, channels⟩ := this
  cases status with
  | up => rfl
  | down upTx upRx => exact congrArg some (owned upTx upRx rfl).1

end StatusCell

/-- The status of a link, and when it last went down. -/
structure OwnedLink where
  cell : StatusCell
  lastDown : Option Nat
  deriving DecidableEq, Repr

/-- `NetworkLink::update_status`, with the time of the update. -/
def OwnedLink.updateStatus (this : OwnedLink) (update : Nat × UpdateLinkStatus) : OwnedLink where
  cell := this.cell.updateStatus update.2
  lastDown := if !this.cell.isDown && update.2 = .down then some update.1 else this.lastDown

def OwnedLink.new : OwnedLink := ⟨.new, none⟩

/-- The status of a node. -/
structure OwnedNode where
  cell : StatusCell
  deriving DecidableEq, Repr

/-- `Node::update_status`. -/
def OwnedNode.updateStatus (this : OwnedNode) (update : UpdateNodeStatus) : OwnedNode :=
  ⟨this.cell.updateStatus update⟩

def OwnedNode.new : OwnedNode := ⟨.new⟩

theorem OwnedLink.updates_cell (this : OwnedLink) (updates : List (Nat × UpdateLinkStatus)) :
    (updates.foldl updateStatus this).cell =
      (updates.map Prod.snd).foldl StatusCell.updateStatus this.cell := by
  induction updates generalizing this with
  | nil => rfl
  | cons update updates ih => exact ih (this.updateStatus update)

theorem OwnedNode.updates_cell (this : OwnedNode) (updates : List UpdateNodeStatus) :
    (updates.foldl updateStatus this).cell = updates.foldl StatusCell.updateStatus this.cell := by
  induction updates generalizing this with
  | nil => rfl
  | cons update updates ih => exact ih (this.updateStatus update)

theorem StatusCell.isDown_switch (this : StatusCell) : this.switch.isDown = this.isDown := by
  obtain ⟨status, channels⟩ := this
  cases status <;> rfl

/-- The links and nodes of the network update their statuses in the same way. -/
theorem OwnedLink.updateStatus_refines {owned : OwnedLink} {this : LinkState}
    (status : this.status = owned.cell.switch) (lastDown : this.lastDown = owned.lastDown)
    (update : Nat × UpdateLinkStatus) :
    (this.updateStatus update.1 update.2).status = (owned.updateStatus update).cell.switch ∧
      (this.updateStatus update.1 update.2).lastDown = (owned.updateStatus update).lastDown := by
  have goesDown : owned.cell.switch.goesDown update.2 =
      (!owned.cell.isDown && decide (update.2 = .down)) := by
    rw [Switch.goesDown, StatusCell.isDown_switch]
  unfold LinkState.updateStatus
  rw [status, lastDown]
  refine ⟨(owned.cell.updateStatus_switch update.2).symm, ?_⟩
  simp only [OwnedLink.updateStatus, goesDown]

theorem OwnedNode.updateStatus_refines {owned : OwnedNode} {this : NodeState}
    (status : this.status = owned.cell.switch) (update : UpdateNodeStatus) :
    (this.updateStatus update).status = (owned.updateStatus update).cell.switch := by
  unfold NodeState.updateStatus
  rw [status]
  exact (owned.cell.updateStatus_switch update).symm

/-- The notifiers of links and of nodes complete with the first up after they were taken,
and are there exactly while the status is down. -/
theorem notifiers_exact :
    (∀ before after : List (Nat × UpdateLinkStatus),
      StatusCell.Notifies (before.map Prod.snd) (after.map Prod.snd)
        (before.foldl OwnedLink.updateStatus .new).cell
        (after.foldl OwnedLink.updateStatus (before.foldl OwnedLink.updateStatus .new)).cell) ∧
      ∀ before after : List UpdateNodeStatus,
        StatusCell.Notifies before after (before.foldl OwnedNode.updateStatus .new).cell
          (after.foldl OwnedNode.updateStatus (before.foldl OwnedNode.updateStatus .new)).cell := by
  constructor
  · intro before after
    simp only [OwnedLink.updates_cell]
    exact StatusCell.updates_notifies (before.map Prod.snd) (after.map Prod.snd)
  · intro before after
    simp only [OwnedNode.updates_cell]
    exact StatusCell.updates_notifies before after

end Workbench.Network
