import Workbench.Library.Json
import Workbench.Network.Simulator

/-! The replay log: the recorded steps as JSON, written by the derived
serializers and read back by the derived deserializers.

A struct is an object and a unit variant a string. The readers take objects
for structs, which is what the writers produce. -/

set_option autoImplicit false

namespace Workbench.Tracing

open Workbench.Network Workbench.Library Workbench.Library.Json Workbench.Library.Codec

/-- `util::is_false`. -/
def isFalse (value : Bool) : Bool := !value

/-- The texts that serde and its helpers give to the leaves of a step: ids and
packet uuids are strings, ratios are floating-point numbers. -/
structure Leaves where
  serdeArcStr : Codec Nat
  displayFromStr : Codec Uuid
  ratio : Codec Nat
  serdeArcStr_exact : ∀ id, serdeArcStr.Exact id
  displayFromStr_exact : ∀ id, displayFromStr.Exact id

/-- `DurationNanoSeconds`. -/
def durationNanoSeconds : Codec Nat := number

def nanosPerSec : Nat := 1000000000

/-- The serializer that serde itself has for a `Duration`. -/
def duration : Codec Nat :=
  record
    (fun value => number.put "secs" (value / nanosPerSec) ++ number.put "nanos" (value % nanosPerSec))
    (fun fields => do
      let secs ← number.take "secs" fields
      let nanos ← number.take "nanos" fields
      return secs * nanosPerSec + nanos)

def updateStatus : Codec UpdateStatus :=
  variants
    (fun
      | .up => "up"
      | .down => "down")
    (fun
      | "up" => some .up
      | "down" => some .down
      | _ => none)

def dropReason : Codec DropReason :=
  variants
    (fun
      | .random => "Random"
      | .zeroTtl => "ZeroTtl"
      | .bufferFull => "BufferFull"
      | .bufferCleared => "BufferCleared")
    (fun
      | "Random" => some .random
      | "ZeroTtl" => some .zeroTtl
      | "BufferFull" => some .bufferFull
      | "BufferCleared" => some .bufferCleared
      | _ => none)

theorem duration_exact (value : Nat) : duration.Exact value := by
  refine ⟨?_, record_present _ _ _⟩
  show (do
    let secs ← number.take "secs" _
    let nanos ← number.take "nanos" _
    return secs * nanosPerSec + nanos) = some value
  rw [take_of_exact (number_exact (value / nanosPerSec)) (by simp),
    take_of_exact (number_exact (value % nanosPerSec)) (by simp)]
  show some (value / nanosPerSec * nanosPerSec + value % nanosPerSec) = some value
  rw [Nat.div_add_mod']

theorem updateStatus_exact (status : UpdateStatus) : updateStatus.Exact status :=
  variants_exact (by intro status; cases status <;> rfl) status

theorem dropReason_exact (reason : DropReason) : dropReason.Exact reason :=
  variants_exact (by intro reason; cases reason <;> rfl) reason

namespace Leaves

variable (leaves : Leaves)

def nodeEventPayload : Codec NodeEventPayload :=
  record
    (fun payload =>
      leaves.serdeArcStr.put "node_id" payload.nodeId ++
      updateStatus.putSome "status" payload.status ++
      boolean.putUnless isFalse "clear_buffer" payload.clearBuffer)
    (fun fields => do
      let nodeId ← leaves.serdeArcStr.take "node_id" fields
      let status ← updateStatus.takeOption "status" fields
      let clearBuffer ← boolean.take "clear_buffer" fields
      return { nodeId, status, clearBuffer })

def linkEventPayload : Codec LinkEventPayload :=
  record
    (fun payload =>
      leaves.serdeArcStr.put "linkId" payload.linkId ++
      updateStatus.putSome "status" payload.status ++
      number.putSome "bandwidthBps" payload.bandwidthBps ++
      duration.putSome "delay" payload.delay ++
      duration.putSome "extraDelay" payload.extraDelay ++
      leaves.ratio.putSome "extraDelayRatio" payload.extraDelayRatio ++
      leaves.ratio.putSome "packetDuplicationRatio" payload.packetDuplicationRatio ++
      leaves.ratio.putSome "packetLossRatio" payload.packetLossRatio ++
      leaves.ratio.putSome "congestionEventRatio" payload.congestionEventRatio)
    (fun fields => do
      let linkId ← leaves.serdeArcStr.take "linkId" fields
      let status ← updateStatus.takeOption "status" fields
      let bandwidthBps ← number.takeOption "bandwidthBps" fields
      let delay ← duration.takeOption "delay" fields
      let extraDelay ← duration.takeOption "extraDelay" fields
      let extraDelayRatio ← leaves.ratio.takeOption "extraDelayRatio" fields
      let packetDuplicationRatio ← leaves.ratio.takeOption "packetDuplicationRatio" fields
      let packetLossRatio ← leaves.ratio.takeOption "packetLossRatio" fields
      let congestionEventRatio ← leaves.ratio.takeOption "congestionEventRatio" fields
      return { linkId, status, bandwidthBps, delay, extraDelay, extraDelayRatio,
               packetDuplicationRatio, packetLossRatio, congestionEventRatio })

def networkEvent : Codec NetworkEvent :=
  record
    (fun event =>
      leaves.linkEventPayload.putSome "link" event.link ++
      leaves.nodeEventPayload.putSome "node" event.node)
    (fun fields => do
      let link ← leaves.linkEventPayload.takeOption "link" fields
      let node ← leaves.nodeEventPayload.takeOption "node" fields
      return { link, node })

def genericPacketEvent : Codec GenericPacketEvent :=
  record
    (fun event =>
      leaves.displayFromStr.put "packet_id" event.packetId ++
      number.put "packet_number" event.packetNumber ++
      number.put "packet_size_bytes" event.packetSizeBytes ++
      leaves.serdeArcStr.put "node_id" event.nodeId)
    (fun fields => do
      let packetId ← leaves.displayFromStr.take "packet_id" fields
      let packetNumber ← number.take "packet_number" fields
      let packetSizeBytes ← number.take "packet_size_bytes" fields
      let nodeId ← leaves.serdeArcStr.take "node_id" fields
      return { packetId, packetNumber, packetSizeBytes, nodeId })

def packetInNode : Codec PacketInNode :=
  record
    (fun event =>
      leaves.displayFromStr.put "packet_id" event.packetId ++
      number.put "packet_number" event.packetNumber ++
      number.put "packet_size_bytes" event.packetSizeBytes ++
      leaves.serdeArcStr.put "node_id" event.nodeId ++
      boolean.putUnless isFalse "dropped_on_arrival" event.droppedOnArrival)
    (fun fields => do
      let packetId ← leaves.displayFromStr.take "packet_id" fields
      let packetNumber ← number.take "packet_number" fields
      let packetSizeBytes ← number.take "packet_size_bytes" fields
      let nodeId ← leaves.serdeArcStr.take "node_id" fields
      let droppedOnArrival ← boolean.take "dropped_on_arrival" fields
      return { packetId, packetNumber, packetSizeBytes, nodeId, droppedOnArrival })

def packetDropped : Codec PacketDropped :=
  record
    (fun event =>
      leaves.displayFromStr.put "packet_id" event.packetId ++
      leaves.serdeArcStr.put "node_id" event.nodeId ++
      dropReason.put "reason" event.reason)
    (fun fields => do
      let packetId ← leaves.displayFromStr.take "packet_id" fields
      let nodeId ← leaves.serdeArcStr.take "node_id" fields
      let reason ← dropReason.take "reason" fields
      return { packetId, nodeId, reason })

def packetHasExtraDelay : Codec PacketHasExtraDelay :=
  record
    (fun event =>
      leaves.displayFromStr.put "packet_id" event.packetId ++
      leaves.serdeArcStr.put "node_id" event.nodeId ++
      durationNanoSeconds.put "extra_delay_ns" event.extraDelay)
    (fun fields => do
      let packetId ← leaves.displayFromStr.take "packet_id" fields
      let nodeId ← leaves.serdeArcStr.take "node_id" fields
      let extraDelay ← durationNanoSeconds.take "extra_delay_ns" fields
      return { packetId, nodeId, extraDelay })

def packetInTransit : Codec PacketInTransit :=
  record
    (fun event =>
      leaves.displayFromStr.put "packet_id" event.packetId ++
      leaves.serdeArcStr.put "node_id" event.nodeId ++
      leaves.serdeArcStr.put "link_id" event.linkId)
    (fun fields => do
      let packetId ← leaves.displayFromStr.take "packet_id" fields
      let nodeId ← leaves.serdeArcStr.take "node_id" fields
      let linkId ← leaves.serdeArcStr.take "link_id" fields
      return { packetId, nodeId, linkId })

def packetLostInTransit : Codec PacketLostInTransit :=
  record
    (fun event =>
      leaves.displayFromStr.put "packet_id" event.packetId ++
      leaves.serdeArcStr.put "link_id" event.linkId)
    (fun fields => do
      let packetId ← leaves.displayFromStr.take "packet_id" fields
      let linkId ← leaves.serdeArcStr.take "link_id" fields
      return { packetId, linkId })

/-- The variants of `SimulationStepKind` in camel case, each with its data. -/
def putKind : SimulationStepKind → Object
  | .packetInNode event => putTagged "type" "data" "packetInNode" (leaves.packetInNode.write event)
  | .packetDropped event =>
    putTagged "type" "data" "packetDropped" (leaves.packetDropped.write event)
  | .packetLostInTransit event =>
    putTagged "type" "data" "packetLostInTransit" (leaves.packetLostInTransit.write event)
  | .packetDuplicated event =>
    putTagged "type" "data" "packetDuplicated" (leaves.genericPacketEvent.write event)
  | .packetExtraDelay event =>
    putTagged "type" "data" "packetExtraDelay" (leaves.packetHasExtraDelay.write event)
  | .packetCongestionEvent event =>
    putTagged "type" "data" "packetCongestionEvent" (leaves.genericPacketEvent.write event)
  | .packetInTransit event =>
    putTagged "type" "data" "packetInTransit" (leaves.packetInTransit.write event)
  | .packetDeliveredToApplication event =>
    putTagged "type" "data" "packetDeliveredToApplication" (leaves.genericPacketEvent.write event)
  | .networkEvent event =>
    putTagged "type" "data" "networkEvent" (leaves.networkEvent.write event)

def readKind (name : String) (data : Json) : Option SimulationStepKind :=
  match name with
  | "packetInNode" => (leaves.packetInNode.read data).map .packetInNode
  | "packetDropped" => (leaves.packetDropped.read data).map .packetDropped
  | "packetLostInTransit" => (leaves.packetLostInTransit.read data).map .packetLostInTransit
  | "packetDuplicated" => (leaves.genericPacketEvent.read data).map .packetDuplicated
  | "packetExtraDelay" => (leaves.packetHasExtraDelay.read data).map .packetExtraDelay
  | "packetCongestionEvent" => (leaves.genericPacketEvent.read data).map .packetCongestionEvent
  | "packetInTransit" => (leaves.packetInTransit.read data).map .packetInTransit
  | "packetDeliveredToApplication" =>
    (leaves.genericPacketEvent.read data).map .packetDeliveredToApplication
  | "networkEvent" => (leaves.networkEvent.read data).map .networkEvent
  | _ => none

def simulationStep : Codec SimulationStep :=
  record
    (fun step =>
      durationNanoSeconds.put "relative_time_ns" step.relativeTime ++ leaves.putKind step.kind)
    (fun fields => do
      let relativeTime ← durationNanoSeconds.take "relative_time_ns" fields
      let kind ← takeTagged "type" "data" leaves.readKind (without "relative_time_ns" fields)
      return { relativeTime, kind })

/-- The file `replay-log.json`. -/
def replayLog : Codec (List SimulationStep) := leaves.simulationStep.list

/-- The ratios of a link event that are written and read back without a loss. -/
structure RatiosExact (payload : LinkEventPayload) : Prop where
  extraDelay : ∀ ratio, payload.extraDelayRatio = some ratio → leaves.ratio.Exact ratio
  packetDuplication :
    ∀ ratio, payload.packetDuplicationRatio = some ratio → leaves.ratio.Exact ratio
  packetLoss : ∀ ratio, payload.packetLossRatio = some ratio → leaves.ratio.Exact ratio
  congestionEvent : ∀ ratio, payload.congestionEventRatio = some ratio → leaves.ratio.Exact ratio

section records

variable {leaves}

theorem genericPacketEvent_restores (event : GenericPacketEvent) :
    leaves.genericPacketEvent.Restores event := by
  unfold Restores genericPacketEvent record
  dsimp only
  rw [take_of_exact (leaves.displayFromStr_exact event.packetId) (by simp),
    take_of_exact (number_exact event.packetNumber) (by simp),
    take_of_exact (number_exact event.packetSizeBytes) (by simp),
    take_of_exact (leaves.serdeArcStr_exact event.nodeId) (by simp)]
  rfl

theorem packetDropped_restores (event : PacketDropped) : leaves.packetDropped.Restores event := by
  unfold Restores packetDropped record
  dsimp only
  rw [take_of_exact (leaves.displayFromStr_exact event.packetId) (by simp),
    take_of_exact (leaves.serdeArcStr_exact event.nodeId) (by simp),
    take_of_exact (dropReason_exact event.reason) (by simp)]
  rfl

theorem packetHasExtraDelay_restores (event : PacketHasExtraDelay) :
    leaves.packetHasExtraDelay.Restores event := by
  unfold Restores packetHasExtraDelay record durationNanoSeconds
  dsimp only
  rw [take_of_exact (leaves.displayFromStr_exact event.packetId) (by simp),
    take_of_exact (leaves.serdeArcStr_exact event.nodeId) (by simp),
    take_of_exact (number_exact event.extraDelay) (by simp)]
  rfl

theorem packetInTransit_restores (event : PacketInTransit) :
    leaves.packetInTransit.Restores event := by
  unfold Restores packetInTransit record
  dsimp only
  rw [take_of_exact (leaves.displayFromStr_exact event.packetId) (by simp),
    take_of_exact (leaves.serdeArcStr_exact event.nodeId) (by simp),
    take_of_exact (leaves.serdeArcStr_exact event.linkId) (by simp)]
  rfl

theorem packetLostInTransit_restores (event : PacketLostInTransit) :
    leaves.packetLostInTransit.Restores event := by
  unfold Restores packetLostInTransit record
  dsimp only
  rw [take_of_exact (leaves.displayFromStr_exact event.packetId) (by simp),
    take_of_exact (leaves.serdeArcStr_exact event.linkId) (by simp)]
  rfl

/-- The writer leaves `dropped_on_arrival` out where it is false, and the reader has no
default for it. -/
theorem packetInNode_restores_iff (event : PacketInNode) :
    leaves.packetInNode.Restores event ↔ event.droppedOnArrival = true := by
  unfold Restores packetInNode record
  dsimp only
  rw [take_of_exact (leaves.displayFromStr_exact event.packetId) (by simp),
    take_of_exact (number_exact event.packetNumber) (by simp),
    take_of_exact (number_exact event.packetSizeBytes) (by simp),
    take_of_exact (leaves.serdeArcStr_exact event.nodeId) (by simp)]
  cases dropped : event.droppedOnArrival with
  | true =>
    rw [take_of_values true (by simp [isFalse])]
    obtain ⟨packetId, packetNumber, packetSizeBytes, nodeId, droppedOnArrival⟩ := event
    cases dropped
    exact iff_of_true rfl rfl
  | false =>
    rw [take_of_absent (by simp [isFalse])]
    exact iff_of_false nofun nofun

/-- The same for `clear_buffer`. -/
theorem nodeEventPayload_restores_iff (payload : NodeEventPayload) :
    leaves.nodeEventPayload.Restores payload ↔ payload.clearBuffer = true := by
  unfold Restores nodeEventPayload record
  dsimp only
  rw [take_of_exact (leaves.serdeArcStr_exact payload.nodeId) (by simp),
    takeOption_of_exact (fun status _ => updateStatus_exact status)
      (show _ = payload.status.toList.map updateStatus.write by simp)]
  cases cleared : payload.clearBuffer with
  | true =>
    rw [take_of_values true (by simp [isFalse])]
    obtain ⟨nodeId, status, clearBuffer⟩ := payload
    cases cleared
    exact iff_of_true rfl rfl
  | false =>
    rw [take_of_absent (by simp [isFalse])]
    exact iff_of_false nofun nofun

theorem linkEventPayload_restores {payload : LinkEventPayload}
    (exact : leaves.RatiosExact payload) : leaves.linkEventPayload.Restores payload := by
  unfold Restores linkEventPayload record
  dsimp only
  rw [take_of_exact (leaves.serdeArcStr_exact payload.linkId) (by simp),
    takeOption_of_exact (fun status _ => updateStatus_exact status)
      (show _ = payload.status.toList.map updateStatus.write by simp),
    takeOption_of_exact (fun bandwidth _ => number_exact bandwidth)
      (show _ = payload.bandwidthBps.toList.map number.write by simp),
    takeOption_of_exact (fun delay _ => duration_exact delay)
      (show _ = payload.delay.toList.map duration.write by simp),
    takeOption_of_exact (fun delay _ => duration_exact delay)
      (show _ = payload.extraDelay.toList.map duration.write by simp),
    takeOption_of_exact exact.extraDelay (by simp),
    takeOption_of_exact exact.packetDuplication (by simp),
    takeOption_of_exact exact.packetLoss (by simp),
    takeOption_of_exact exact.congestionEvent (by simp)]
  rfl

theorem networkEvent_restores_iff {event : NetworkEvent}
    (ratios : ∀ payload, event.link = some payload → leaves.RatiosExact payload) :
    leaves.networkEvent.Restores event ↔
      ∀ payload, event.node = some payload → payload.clearBuffer = true := by
  obtain ⟨link, node⟩ := event
  have links : ∀ payload, link = some payload → leaves.linkEventPayload.Exact payload :=
    fun payload found => ⟨linkEventPayload_restores (ratios payload found), record_present _ _ _⟩
  unfold Restores networkEvent record
  dsimp only
  rw [takeOption_of_exact links (by simp)]
  cases node with
  | none =>
    rw [takeOption_of_absent (by simp)]
    exact iff_of_true rfl nofun
  | some payload =>
    have present : leaves.nodeEventPayload.write payload ≠ .null := record_present _ _ _
    rw [takeOption_of_values payload (by simp) present]
    constructor
    · intro restored payload' found
      cases found
      have read : leaves.nodeEventPayload.Restores payload := by
        simpa [Restores, Option.bind_eq_some_iff, Option.map_eq_some_iff] using restored
      exact (nodeEventPayload_restores_iff payload).mp read
    · intro cleared
      have restored : leaves.nodeEventPayload.Restores payload :=
        (nodeEventPayload_restores_iff payload).mpr (cleared payload rfl)
      rw [show leaves.nodeEventPayload.read _ = some payload from restored]
      rfl

end records

/-- The ratios that a step carries, which only a link event does. -/
def StepRatiosExact (step : SimulationStep) : Prop :=
  ∀ event payload, step.kind = .networkEvent event → event.link = some payload →
    leaves.RatiosExact payload

end Leaves

/-- Every boolean of a step is true, so that the writer leaves none out. -/
def SimulationStep.FlagsSet (step : SimulationStep) : Prop :=
  (∀ event, step.kind = .packetInNode event → event.droppedOnArrival = true) ∧
    ∀ event payload, step.kind = .networkEvent event → event.node = some payload →
      payload.clearBuffer = true

@[simp] theorem SimulationStep.flagsSet_packetInNode (time : Nat) (event : PacketInNode) :
    SimulationStep.FlagsSet ⟨time, .packetInNode event⟩ ↔ event.droppedOnArrival = true := by
  simp [SimulationStep.FlagsSet]

@[simp] theorem SimulationStep.flagsSet_networkEvent (time : Nat) (event : NetworkEvent) :
    SimulationStep.FlagsSet ⟨time, .networkEvent event⟩ ↔
      ∀ payload, event.node = some payload → payload.clearBuffer = true := by
  constructor
  · rintro ⟨-, cleared⟩ payload found
    exact cleared event payload rfl found
  · intro cleared
    refine ⟨nofun, fun event' payload same found => ?_⟩
    cases same
    exact cleared payload found

namespace Leaves

variable {leaves : Leaves}

/-- A step is restored iff the data of its variant is. -/
theorem simulationStep_restores {α : Type} (codec : Codec α) (variant : α → SimulationStepKind)
    (name : String) (injective : Function.Injective variant) (time : Nat) (event : α)
    (put : leaves.putKind (variant event) = putTagged "type" "data" name (codec.write event))
    (read : leaves.readKind name = fun data => (codec.read data).map variant) :
    leaves.simulationStep.Restores ⟨time, variant event⟩ ↔ codec.Restores event := by
  unfold Restores simulationStep record durationNanoSeconds
  dsimp only
  rw [take_of_exact (number_exact time) (by simp [put, putTagged]),
    takeTagged_of_values leaves.readKind name (codec.write event)
      (by rw [values_without _ (by decide)]; simp [put, putTagged])
      (by rw [values_without _ (by decide)]; simp [put, putTagged, raw]), read]
  dsimp only
  constructor
  · intro restored
    obtain ⟨kind, found, same⟩ : ∃ kind, (codec.read (codec.write event)).map variant = some kind ∧
        (⟨time, kind⟩ : SimulationStep) = ⟨time, variant event⟩ := by
      simpa [Option.bind_eq_some_iff] using restored
    cases same
    obtain ⟨back, read, same⟩ := Option.map_eq_some_iff.mp found
    exact read.trans (congrArg some (injective same))
  · intro restored
    rw [show codec.read (codec.write event) = some event from restored]
    rfl

theorem simulationStep_restores_iff {step : SimulationStep} (ratios : leaves.StepRatiosExact step) :
    leaves.simulationStep.Restores step ↔ step.FlagsSet := by
  obtain ⟨time, kind⟩ := step
  cases kind with
  | packetInNode event =>
    rw [simulationStep_restores leaves.packetInNode .packetInNode "packetInNode"
      (fun _ _ same => by cases same; rfl) time event rfl rfl,
      packetInNode_restores_iff, SimulationStep.flagsSet_packetInNode]
  | packetDropped event =>
    rw [simulationStep_restores leaves.packetDropped .packetDropped "packetDropped"
      (fun _ _ same => by cases same; rfl) time event rfl rfl]
    exact iff_of_true (packetDropped_restores event) (by simp [SimulationStep.FlagsSet])
  | packetLostInTransit event =>
    rw [simulationStep_restores leaves.packetLostInTransit .packetLostInTransit "packetLostInTransit"
      (fun _ _ same => by cases same; rfl) time event rfl rfl]
    exact iff_of_true (packetLostInTransit_restores event) (by simp [SimulationStep.FlagsSet])
  | packetDuplicated event =>
    rw [simulationStep_restores leaves.genericPacketEvent .packetDuplicated "packetDuplicated"
      (fun _ _ same => by cases same; rfl) time event rfl rfl]
    exact iff_of_true (genericPacketEvent_restores event) (by simp [SimulationStep.FlagsSet])
  | packetExtraDelay event =>
    rw [simulationStep_restores leaves.packetHasExtraDelay .packetExtraDelay "packetExtraDelay"
      (fun _ _ same => by cases same; rfl) time event rfl rfl]
    exact iff_of_true (packetHasExtraDelay_restores event) (by simp [SimulationStep.FlagsSet])
  | packetCongestionEvent event =>
    rw [simulationStep_restores leaves.genericPacketEvent .packetCongestionEvent "packetCongestionEvent"
      (fun _ _ same => by cases same; rfl) time event rfl rfl]
    exact iff_of_true (genericPacketEvent_restores event) (by simp [SimulationStep.FlagsSet])
  | packetInTransit event =>
    rw [simulationStep_restores leaves.packetInTransit .packetInTransit "packetInTransit"
      (fun _ _ same => by cases same; rfl) time event rfl rfl]
    exact iff_of_true (packetInTransit_restores event) (by simp [SimulationStep.FlagsSet])
  | packetDeliveredToApplication event =>
    rw [simulationStep_restores leaves.genericPacketEvent .packetDeliveredToApplication "packetDeliveredToApplication"
      (fun _ _ same => by cases same; rfl) time event rfl rfl]
    exact iff_of_true (genericPacketEvent_restores event) (by simp [SimulationStep.FlagsSet])
  | networkEvent event =>
    rw [simulationStep_restores leaves.networkEvent .networkEvent "networkEvent"
      (fun _ _ same => by cases same; rfl) time event rfl rfl,
      networkEvent_restores_iff fun payload => ratios event payload rfl,
      SimulationStep.flagsSet_networkEvent]

/-- The replay log reads back as the steps that it was written from iff none of
them has a boolean that is false. -/
theorem replayLog_restores_iff (leaves : Leaves) (steps : List SimulationStep)
    (ratios : ∀ step ∈ steps, leaves.StepRatiosExact step) :
    leaves.replayLog.Restores steps ↔ ∀ step ∈ steps, step.FlagsSet := by
  unfold replayLog
  rw [list_restores_iff]
  exact forall₂_congr fun step member => simulationStep_restores_iff (ratios step member)

/-- Numbers as strings of digits behind a fixed text, as a small uuid has behind its zeros. -/
def digitsAfter (before : String) : Codec Nat where
  write value := .string (before ++ .ofList (Nat.toDigits 10 value))
  read
    | .string text => some (Nat.ofDigitChars 10 (text.toList.drop before.length) 0)
    | _ => none

theorem digitsAfter_exact (before : String) (value : Nat) : (digitsAfter before).Exact value := by
  refine ⟨?_, nofun⟩
  have dropped : (before ++ String.ofList (Nat.toDigits 10 value)).toList.drop before.length =
      Nat.toDigits 10 value := by
    rw [String.toList_append, String.toList_ofList, ← String.length_toList, List.drop_left]
  show some (Nat.ofDigitChars 10 (List.drop _ _) 0) = some value
  rw [dropped, Nat.ofDigitChars_ten_toDigits]

/-- Node and link ids by their number, uuids with their first digits zero, ratios in per cent. -/
def byNumber : Leaves where
  serdeArcStr := digitsAfter ""
  displayFromStr := digitsAfter "00000000-0000-0000-0000-00000000000"
  ratio := digitsAfter ""
  serdeArcStr_exact := digitsAfter_exact _
  displayFromStr_exact := digitsAfter_exact _

theorem replayLog_restores_iff_cleared :
    let steps : List SimulationStep :=
      [⟨0, .packetInNode ⟨0, 0, 28, 0, true⟩⟩, ⟨5, .networkEvent ⟨none, some ⟨0, some .up, true⟩⟩⟩]
    byNumber.replayLog.Restores steps ∧ ∀ step ∈ steps, step.FlagsSet := by
  intro steps
  have set : ∀ step ∈ steps, step.FlagsSet := by
    intro step member
    rcases List.mem_pair.mp member with rfl | rfl
    · exact (SimulationStep.flagsSet_packetInNode _ _).mpr rfl
    · refine (SimulationStep.flagsSet_networkEvent _ _).mpr fun payload found => ?_
      cases found
      rfl
  refine ⟨(replayLog_restores_iff byNumber steps fun step member => ?_).mpr set, set⟩
  rcases List.mem_pair.mp member with rfl | rfl
  · intro event payload same
    cases same
  · intro event payload same found
    cases same
    cases found

/-- The first packet of a simulation is recorded as not dropped, and the log is unreadable. -/
theorem replayLog_unreadable : ∃ past s,
    Run (State.step (twoHosts none)) (State.initial (twoHosts none)) past s ∧
      s.trace = [⟨0, .packetInNode ⟨0, 0, 28, 0, false⟩⟩] ∧
      byNumber.replayLog.read (byNumber.replayLog.write s.trace) = none := by
  have run := (Run.start : Run (State.step (twoHosts none)) (State.initial (twoHosts none)) [] _)
    |>.next_of_isSome (.sendUdp 0 greeting 0) rfl
  have recorded : ((State.step (twoHosts none) (State.initial (twoHosts none))
      (.sendUdp 0 greeting 0)).get rfl).trace = [⟨0, .packetInNode ⟨0, 0, 28, 0, false⟩⟩] := rfl
  refine ⟨_, _, run, recorded, ?_⟩
  rw [recorded]
  rfl

end Leaves

end Workbench.Tracing
