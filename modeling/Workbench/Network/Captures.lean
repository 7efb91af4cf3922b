import Workbench.Network.KeyLog
import Workbench.Network.Provenance

/-! The network with the captures of its nodes. Whatever the order in which nodes send and read and
TLS logs its secrets, the file of a node has all of it. -/

set_option autoImplicit false

namespace Workbench.Network

open Workbench.Library

inductive PcapOptions where
  | disabled
  | withTlsKeys
  deriving DecidableEq, Repr

/-- What a node has for its capture. -/
structure NodeCapture where
  keylog : InMemoryKeyLog
  pcapExporter : PcapExporter
  deriving DecidableEq, Repr

namespace NodeCapture

def new (captureStart : Nat) : NodeCapture := ⟨⟨[]⟩, ⟨captureStart, 0, []⟩⟩

/-- The files that there are once the node is dropped. Without options for it, its exporter has
neither its id nor its log. -/
def finish (library : PcapLibrary) (options : PcapOptions) (id : NodeId) (this : NodeCapture) :
    PcapFiles :=
  match options with
  | .disabled => this.pcapExporter.finish library none none
  | .withTlsKeys => this.pcapExporter.finish library (some id) (some this.keylog)

def trackTransmit (pnet : Pnet) (correctTimestamp : Nat → Nat) (this : NodeCapture)
    (transmit : OwnedTransmit) (now : Nat) : Option NodeCapture := do
  let pcapExporter ← this.pcapExporter.writePcapngTransmit pnet correctTimestamp transmit now
  some { this with pcapExporter }

end NodeCapture

/-- The transmits that a step has exporters track: one that is sent, and those that are read from
a socket, until one is too large for the buffer that it is read to. -/
def State.tracked (s : State) : Action → List (NodeId × OwnedTransmit)
  | .sendUdp node transmit _ => [(node, transmit)]
  | .pollRecv node port slots bufferSize ties =>
      let delivery := (s.sockets node port).getD (.new slots)
      match (delivery.poll ((s.nodes node).udpEndpoints port) s.now ties 0).1 with
      | .pending => []
      | .ready delivered =>
          ((delivered.take slots).takeWhile (·.data.transmit.contents.length ≤ bufferSize)).map
            fun t => (node, t.data.transmit)
  | _ => []

/-- The network and the captures of its nodes. -/
structure Capturing where
  network : State
  captures : NodeId → NodeCapture

inductive CaptureAction where
  | simulate (action : Action)
  | log (node : NodeId) (secret : Secret)
  deriving DecidableEq, Repr

def CaptureAction.secret? (n : NodeId) : CaptureAction → Option Secret
  | .log node secret => if node = n then some secret else none
  | .simulate _ => none

namespace Capturing

def initial (net : InMemoryNetwork) (captureStart : Nat) : Capturing :=
  ⟨.initial net, fun _ => .new captureStart⟩

def trackAll (pnet : Pnet) (correctTimestamp : Nat → Nat) (now : Nat) :
    List (NodeId × OwnedTransmit) → (NodeId → NodeCapture) → Option (NodeId → NodeCapture)
  | [], captures => some captures
  | (n, transmit) :: rest, captures => do
      let capture ← (captures n).trackTransmit pnet correctTimestamp transmit now
      trackAll pnet correctTimestamp now rest (Function.update captures n capture)

/-- A step of the network, or a secret that TLS logs at a node. There is none where an exporter
panics. -/
def step (library : PcapLibrary) (pnet : Pnet) (correctTimestamp : Nat → Nat) (net : InMemoryNetwork)
    (s : Capturing) : CaptureAction → Option Capturing
  | .simulate action => do
      let network ← s.network.step net action
      let captures ← trackAll pnet correctTimestamp s.network.now (s.network.tracked action) s.captures
      some ⟨network, captures⟩
  | .log node secret =>
      let capture := s.captures node
      let keylog := KeyLog.log library capture.keylog secret
      some { s with captures := Function.update s.captures node { capture with keylog } }

/-- The steps of the network alone. -/
def simulated (past : List (Capturing × CaptureAction)) : List (State × Action) :=
  past.filterMap fun move =>
    match move.2 with
    | .simulate action => some (move.1.network, action)
    | .log _ _ => none

/-- What a step has the exporter of a node track. -/
def trackedBy (n : NodeId) (s : State) (action : Action) : List OwnedTransmit :=
  ((s.tracked action).filter (·.1 = n)).map Prod.snd

/-- The transmits that the exporter of a node tracked in a run, in order. -/
def trackedAt (n : NodeId) (past : List (State × Action)) : List OwnedTransmit :=
  past.reverse.flatMap fun move => trackedBy n move.1 move.2

/-- The secrets that TLS logged at a node in a run, in order. -/
def loggedAt (n : NodeId) (past : List (Capturing × CaptureAction)) : List Secret :=
  past.reverse.filterMap fun move => move.2.secret? n

end Capturing

/-- What a transmit is for its receiver, if it is between IPv4 addresses. -/
def OwnedTransmit.datagram? (transmit : OwnedTransmit) : Option Datagram :=
  match transmit.source.ip, transmit.destination.ip with
  | .v4 source, .v4 destination => some (PcapExporter.datagram transmit source destination)
  | _, _ => none

/-! Exporters. -/

section Exporters

variable {pnet : Pnet} {transmit : OwnedTransmit}

/-- An exporter that does not panic was given a transmit that fits. -/
theorem PcapExporter.fits_of_written (sizes : pnet.MeasuresTotalLength)
    (representable : Representable transmit) {correctTimestamp : Nat → Nat} {this this' : PcapExporter}
    {sent : Nat} (written : writePcapngTransmit pnet correctTimestamp this transmit sent = some this') :
    Fits transmit := by
  by_contra misfits
  by_cases bounded : transmit.contents.length ≤ 65507
  · rw [writePcapngTransmit_eq_none sizes representable misfits bounded] at written
    cases written
  · -- The lengths wrap around here, but the first payload already misses the buffer.
    have size : (List.replicate 2000 (0 : UInt8)).length = 2000 := List.length_replicate
    unfold writePcapngTransmit at written
    split at written
    · rw [wrapInUdp_eq_none (by omega)] at written
      cases written
    · cases written

/-- What is written can be read as the transmit. -/
theorem PcapExporter.writePcapngTransmit_reads (sizes : pnet.MeasuresTotalLength)
    (representable : Representable transmit) {correctTimestamp : Nat → Nat} {this this' : PcapExporter}
    {sent : Nat} (written : writePcapngTransmit pnet correctTimestamp this transmit sent = some this') :
    ∃ block, this'.tmpWriter = this.tmpWriter ++ [block] ∧
      Datagram.decode block.data = transmit.datagram? ∧ transmit.datagram?.isSome := by
  have fits := fits_of_written sizes representable written
  unfold OwnedTransmit.datagram?
  cases sender : transmit.source.ip with
  | v6 _ => simp [writePcapngTransmit, sender] at written
  | v4 source =>
      cases receiver : transmit.destination.ip with
      | v6 _ => simp [writePcapngTransmit, sender, receiver] at written
      | v4 destination =>
          obtain ⟨block, written', decoded⟩ := writePcapngTransmit_of_fits sizes sender receiver
            representable fits correctTimestamp this sent
          obtain rfl := Option.some.inj (written'.symm.trans written)
          exact ⟨block, rfl, decoded, rfl⟩

theorem PcapExporter.Representable.of_conveys {carried : OwnedTransmit}
    (representable : Representable transmit) (conveys : transmit.Conveys carried) :
    Representable carried where
  sourcePort := conveys.source ▸ representable.sourcePort
  destinationPort := conveys.destination ▸ representable.destinationPort
  ttl := Nat.lt_of_le_of_lt conveys.ttl representable.ttl

theorem PcapExporter.Fits.of_conveys {carried : OwnedTransmit} (fits : Fits transmit)
    (conveys : transmit.Conveys carried) : Fits carried := by
  rwa [Fits, conveys.contents, conveys.destination]

theorem OwnedTransmit.Conveys.datagram_isSome {carried : OwnedTransmit}
    (conveys : transmit.Conveys carried) (addressed : transmit.datagram?.isSome) :
    carried.datagram?.isSome := by
  unfold datagram? at addressed ⊢
  rw [conveys.source, conveys.destination]
  split
  · rfl
  · simp at addressed

end Exporters

namespace Capturing

variable {library : PcapLibrary} {pnet : Pnet} {correctTimestamp : Nat → Nat} {net : InMemoryNetwork}
  {captureStart : Nat} {past : List (Capturing × CaptureAction)} {s s' : Capturing}

/-- What the exporter of a node has written, as it can be read. -/
def written (captures : NodeId → NodeCapture) (n : NodeId) : List (Option Datagram) :=
  (captures n).pcapExporter.tmpWriter.map fun block => Datagram.decode block.data

theorem trackAll_writes (sizes : pnet.MeasuresTotalLength) {now : Nat}
    {tracked : List (NodeId × OwnedTransmit)} {captures captures' : NodeId → NodeCapture}
    (representable : ∀ p ∈ tracked, PcapExporter.Representable p.2)
    (done : trackAll pnet correctTimestamp now tracked captures = some captures') (n : NodeId) :
    (captures' n).keylog = (captures n).keylog ∧
      written captures' n =
        written captures n ++ ((tracked.filter (·.1 = n)).map Prod.snd).map OwnedTransmit.datagram? ∧
      ∀ p ∈ tracked, p.2.datagram?.isSome := by
  induction tracked generalizing captures with
  | nil =>
      obtain rfl := Option.some.inj done
      exact ⟨rfl, by simp, List.forall_mem_nil _⟩
  | cons p tracked ih =>
      obtain ⟨m, transmit⟩ := p
      obtain ⟨first, rest⟩ := List.forall_mem_cons.mp representable
      obtain ⟨capture, stored, later⟩ := Option.bind_eq_some_iff.mp done
      obtain ⟨pcapExporter, exported, same⟩ := Option.bind_eq_some_iff.mp stored
      obtain rfl := Option.some.inj same
      obtain ⟨block, grown, decoded, readable⟩ :=
        PcapExporter.writePcapngTransmit_reads sizes first exported
      obtain ⟨keylog, all, readables⟩ := ih rest later
      refine ⟨?_, ?_, List.forall_mem_cons.mpr ⟨readable, readables⟩⟩
      · rw [keylog]
        by_cases here : n = m
        · subst here
          rw [Function.update_self]
        · rw [Function.update_of_ne here]
      · rw [all]
        by_cases here : n = m
        · subst here
          simp [written, grown, decoded]
        · simp [written, Function.update_of_ne here, Ne.symm here]

/-- Where the transmits are between IPv4 addresses and fit, all are tracked. -/
theorem trackAll_eq_some (sizes : pnet.MeasuresTotalLength) (correctTimestamp : Nat → Nat) (now : Nat)
    {tracked : List (NodeId × OwnedTransmit)} (captures : NodeId → NodeCapture)
    (representable : ∀ p ∈ tracked, PcapExporter.Representable p.2)
    (readable : ∀ p ∈ tracked, p.2.datagram?.isSome)
    (fits : ∀ p ∈ tracked, PcapExporter.Fits p.2) :
    ∃ captures', trackAll pnet correctTimestamp now tracked captures = some captures' := by
  induction tracked generalizing captures with
  | nil => exact ⟨captures, rfl⟩
  | cons p tracked ih =>
      obtain ⟨m, transmit⟩ := p
      obtain ⟨first, rest⟩ := List.forall_mem_cons.mp representable
      obtain ⟨addressed, others⟩ := List.forall_mem_cons.mp readable
      obtain ⟨fit, fitting⟩ := List.forall_mem_cons.mp fits
      have stored : ∃ capture, (captures m).trackTransmit pnet correctTimestamp transmit now =
          some capture := by
        unfold OwnedTransmit.datagram? at addressed
        cases sender : transmit.source.ip with
        | v6 _ => simp [sender] at addressed
        | v4 source =>
            cases receiver : transmit.destination.ip with
            | v6 _ => simp [sender, receiver] at addressed
            | v4 destination =>
                obtain ⟨block, written, -⟩ := PcapExporter.writePcapngTransmit_of_fits sizes sender
                  receiver first fit correctTimestamp (captures m).pcapExporter now
                unfold NodeCapture.trackTransmit
                rw [written]
                exact ⟨_, rfl⟩
      obtain ⟨capture, stored⟩ := stored
      obtain ⟨captures', later⟩ := ih (Function.update captures m capture) rest others fitting
      refine ⟨captures', ?_⟩
      rw [trackAll, stored]
      exact later

/-! Runs. -/

theorem simulated_run
    (run : Run (step library pnet correctTimestamp net) (.initial net captureStart) past s) :
    Run (State.step net) (.initial net) (simulated past) s.network := by
  induction run with
  | start => exact .start
  | @next past s s' action run taken ih =>
      cases action with
      | simulate action =>
          obtain ⟨network, moved, rest⟩ := Option.bind_eq_some_iff.mp taken
          obtain ⟨captures, -, same⟩ := Option.bind_eq_some_iff.mp rest
          obtain rfl := Option.some.inj same
          exact .next ih moved
      | log node secret =>
          obtain rfl := Option.some.inj taken
          exact ih

theorem trackedAt_cons (n : NodeId) (past : List (State × Action)) (s : State) (action : Action) :
    trackedAt n ((s, action) :: past) = trackedAt n past ++ trackedBy n s action := by
  simp [trackedAt]

/-- What is sent is tracked where it is sent. -/
theorem tracked_of_sent {past : List (State × Action)} {n : NodeId} {transmit : OwnedTransmit}
    (sent : (n, transmit) ∈ sentOf past) : transmit ∈ trackedAt n past := by
  obtain ⟨⟨s, action⟩, member, here⟩ := List.mem_filterMap.mp sent
  apply List.mem_flatMap.mpr
  refine ⟨(s, action), member, ?_⟩
  cases action with
  | sendUdp node transmit' roll =>
      obtain ⟨rfl, rfl⟩ := Prod.mk.inj (Option.some.inj here)
      simp [trackedBy, State.tracked]
  | _ => cases here

/-- What a step has tracked is sent by it or is there to be read. -/
theorem tracked_only {P : InTransitData → Prop} {s : State} (only : State.Only net P s) {action : Action}
    {p : NodeId × OwnedTransmit} (tracked : p ∈ s.tracked action) :
    action.sent? = some p ∨ ∃ data, P data ∧ data.transmit = p.2 := by
  cases action with
  | sendUdp node transmit roll => exact .inl (List.mem_singleton.mp tracked ▸ rfl)
  | pollRecv node port slots bufferSize ties =>
      simp only [State.tracked] at tracked
      generalize polled : ((s.sockets node port).getD (.new slots)).poll
        ((s.nodes node).udpEndpoints port) s.now ties 0 = result at tracked
      obtain ⟨outcome, delivery, queue⟩ := result
      cases outcome with
      | pending => cases tracked
      | ready delivered =>
          obtain ⟨t, taken, rfl⟩ := List.mem_map.mp tracked
          have member := List.mem_of_mem_take ((List.takeWhile_sublist _).subset taken)
          have moved := (NextPacketDelivery.poll_ready polled).1
          obtain ⟨q, queued, rfl⟩ :=
            List.mem_map.mp (moved.mem_iff.mpr (List.mem_append_left _ member))
          exact .inr ⟨q.data, (only.queued node port q queued).1, rfl⟩
  | _ => cases tracked

/-- What a step of a run has tracked is what some node sent, by then or by that step. -/
theorem tracked_conveys {past : List (State × Action)} {s : State} {action : Action}
    (run : Run (State.step net) (.initial net) past s) {p : NodeId × OwnedTransmit}
    (tracked : p ∈ s.tracked action) :
    ∃ sent ∈ sentOf ((s, action) :: past), sent.2.Conveys p.2 := by
  obtain ⟨-, -, only⟩ := State.only_of_run run
  rw [sentOf_cons]
  rcases tracked_only only tracked with sent | ⟨data, ⟨transmit, found, conveys⟩, same⟩
  · have here : p ∈ action.sent?.toList := by rw [sent]; exact List.mem_singleton_self p
    exact ⟨p, List.mem_append_right _ here, rfl, rfl, rfl, rfl, le_rfl, .inl rfl⟩
  · exact ⟨(data.sourceId, transmit), List.mem_append_left _ (List.mem_of_getElem? found), same ▸ conveys⟩

/-- What the captures have at any time of a run: the lines of all secrets, and of each transmit that
was tracked a packet, which can be read and conveys what some node sent. -/
theorem captured_of_run (sizes : pnet.MeasuresTotalLength)
    (run : Run (step library pnet correctTimestamp net) (.initial net captureStart) past s)
    (representable : ∀ sent ∈ sentOf (simulated past), PcapExporter.Representable sent.2) (n : NodeId) :
    (s.captures n).keylog = ⟨(loggedAt n past).map (KeyLog.line library)⟩ ∧
      written s.captures n = (trackedAt n (simulated past)).map OwnedTransmit.datagram? ∧
      ∀ transmit ∈ trackedAt n (simulated past), transmit.datagram?.isSome ∧
        ∃ sent ∈ sentOf (simulated past), sent.2.Conveys transmit := by
  induction run with
  | start => exact ⟨rfl, rfl, List.forall_mem_nil _⟩
  | @next past s s' action run taken ih =>
      cases action with
      | simulate action =>
          obtain ⟨network, moved, rest⟩ := Option.bind_eq_some_iff.mp taken
          obtain ⟨captures, done, same⟩ := Option.bind_eq_some_iff.mp rest
          obtain rfl := Option.some.inj same
          have grown : simulated ((s, .simulate action) :: past) =
            (s.network, action) :: simulated past := rfl
          rw [grown] at representable ⊢
          have conveys {p} (tracked : p ∈ s.network.tracked action) :=
            tracked_conveys (simulated_run run) tracked
          have later : ∀ sent ∈ sentOf (simulated past),
              sent ∈ sentOf ((s.network, action) :: simulated past) := by
            intro sent before
            rw [sentOf_cons]
            exact List.mem_append_left _ before
          have fits : ∀ p ∈ s.network.tracked action, PcapExporter.Representable p.2 := by
            intro p tracked
            obtain ⟨sent, member, conveyed⟩ := conveys tracked
            exact (representable sent member).of_conveys conveyed
          obtain ⟨keylog, all, readable⟩ := trackAll_writes sizes fits done n
          obtain ⟨logged, before, conveyed⟩ := ih fun sent member => representable sent (later sent member)
          rw [trackedAt_cons]
          refine ⟨?_, ?_, fun transmit member => ?_⟩
          · rw [keylog, logged]
            simp [loggedAt, CaptureAction.secret?]
          · rw [all, before, List.map_append, trackedBy]
          · rcases List.mem_append.mp member with old | new
            · obtain ⟨addressed, sent, member, conveys⟩ := conveyed transmit old
              exact ⟨addressed, sent, later sent member, conveys⟩
            · obtain ⟨p, tracked, rfl⟩ := List.mem_map.mp new
              have tracked := (List.mem_filter.mp tracked).1
              exact ⟨readable p tracked, conveys tracked⟩
      | log node secret =>
          obtain rfl := Option.some.inj taken
          have still : simulated ((s, .log node secret) :: past) = simulated past := rfl
          rw [still] at representable ⊢
          obtain ⟨logged, before, conveyed⟩ := ih representable
          refine ⟨?_, ?_, conveyed⟩
          · by_cases here : node = n
            · subst here
              simp [loggedAt, CaptureAction.secret?, KeyLog.log, logged]
            · dsimp only
              rw [Function.update_of_ne (Ne.symm here), logged]
              simp [loggedAt, CaptureAction.secret?, here]
          · rw [← before]
            by_cases here : n = node
            · subst here
              simp only [written, Function.update_self]
            · simp only [written, Function.update_of_ne here]

/-- When the nodes are dropped, the file of each one has the secrets that TLS logged there, in a
block of its own before anything else, and then a packet for each transmit that it sent or read, in
order. Each packet can be read as its transmit, and was captured by the node that sent it, too. -/
theorem captures_everything (sizes : pnet.MeasuresTotalLength) (encodes : library.Encodes)
    (parses : library.Parses)
    (run : Run (step library pnet correctTimestamp net) (.initial net captureStart) past s)
    (representable : ∀ sent ∈ sentOf (simulated past), PcapExporter.Representable sent.2) (n : NodeId)
    (plain : ∀ secret ∈ loggedAt n past, secret.Plain)
    (fits : (PcapExporter.secretsText (s.captures n).keylog).length + 24 ≤ 2 ^ 32) :
    ∃ (body : List UInt8) (blocks : List EnhancedPacketBlock), (s.captures n).finish library .withTlsKeys n = {
        tmp := none
        final := some (.raw ⟨0x0000000A, 12 + body.length, body, 12 + body.length⟩ ::
          .interfaceDescription :: blocks.map Block.enhancedPacket) } ∧
      body.length % 4 = 0 ∧ Secret.decode body = some (loggedAt n past) ∧
      blocks.map (fun block => Datagram.decode block.data) =
        (trackedAt n (simulated past)).map OwnedTransmit.datagram? ∧
      ∀ transmit ∈ trackedAt n (simulated past), transmit.datagram?.isSome ∧
        ∃ m sent, (m, sent) ∈ sentOf (simulated past) ∧ sent ∈ trackedAt m (simulated past) ∧
          sent.Conveys transmit := by
  obtain ⟨keylog, all, conveyed⟩ := captured_of_run sizes run representable n
  obtain ⟨body, stored, whole, read⟩ :=
    PcapExporter.writeKeylogPcapBlock_reads encodes parses plain keylog fits
  refine ⟨body, (s.captures n).pcapExporter.tmpWriter, ?_, whole, read, all, fun transmit tracked => ?_⟩
  · unfold NodeCapture.finish PcapExporter.finish
    dsimp only
    rw [stored]
  · obtain ⟨addressed, ⟨m, sent⟩, member, conveys⟩ := conveyed transmit tracked
    exact ⟨addressed, m, sent, member, tracked_of_sent member, conveys⟩

/-- No exporter panics where all that nodes send is between IPv4 addresses and fits. -/
theorem run_of_simulated (library : PcapLibrary) (sizes : pnet.MeasuresTotalLength)
    (correctTimestamp : Nat → Nat) (captureStart : Nat) {past : List (State × Action)} {s : State}
    (run : Run (State.step net) (.initial net) past s)
    (fit : ∀ sent ∈ sentOf past, PcapExporter.Representable sent.2 ∧ sent.2.datagram?.isSome ∧
      PcapExporter.Fits sent.2) :
    ∃ past' captures, Run (step library pnet correctTimestamp net) (.initial net captureStart) past'
      ⟨s, captures⟩ ∧ simulated past' = past ∧ ∀ n, loggedAt n past' = [] := by
  induction run with
  | start => exact ⟨[], _, .start, rfl, fun _ => rfl⟩
  | @next past s s' action run taken ih =>
      have conveys {p} (tracked : p ∈ s.tracked action) := tracked_conveys run tracked
      obtain ⟨past', captures, earlier, same, silent⟩ := ih fun sent member => fit sent <| by
        rw [sentOf_cons]
        exact List.mem_append_left _ member
      have fine : ∀ p ∈ s.tracked action, PcapExporter.Representable p.2 ∧ p.2.datagram?.isSome ∧
          PcapExporter.Fits p.2 := by
        intro p tracked
        obtain ⟨sent, member, conveyed⟩ := conveys tracked
        obtain ⟨representable, addressed, fits⟩ := fit sent member
        exact ⟨representable.of_conveys conveyed, conveyed.datagram_isSome addressed,
          fits.of_conveys conveyed⟩
      obtain ⟨captures', done⟩ := trackAll_eq_some sizes correctTimestamp s.now captures
        (fun p member => (fine p member).1) (fun p member => (fine p member).2.1)
        fun p member => (fine p member).2.2
      refine ⟨(⟨s, captures⟩, .simulate action) :: past', captures', .next earlier ?_, ?_, fun n => ?_⟩
      · rw [step, taken, Option.bind_eq_bind, Option.bind_some, done]
        rfl
      · rw [← same]
        rfl
      · simpa [loggedAt, CaptureAction.secret?] using silent n

/-- A greeting, read where it was to go, and a secret of its sender. -/
theorem captures_everything_twoHosts : ∃ past s, Run (step .standard .standard id (twoHosts (some 1)))
    (.initial (twoHosts (some 1)) 0) past s ∧
      (∃ (body : List UInt8) (blocks : List EnhancedPacketBlock),
        ((s.captures 0).finish .standard .withTlsKeys 0).final = some (.raw
          ⟨0x0000000A, 12 + body.length, body, 12 + body.length⟩ :: .interfaceDescription ::
            blocks.map Block.enhancedPacket) ∧
        Secret.decode body = some [⟨[65], [1, 2], [255]⟩] ∧
        blocks.map (fun block => Datagram.decode block.data) = [greeting.datagram?]) := by
  let actions : List Action := [.sendUdp 0 greeting 0, .processBuffer 0 [], .pollLink 0, .advance 10,
    .pollForwarder 0 [] [], .pollRecv 1 4433 1 100 []]
  obtain ⟨s, reached⟩ := Option.isSome_iff_exists.mp <|
    show (attains (State.step (twoHosts (some 1))) (.initial (twoHosts (some 1))) actions).isSome = true
      by decide +kernel
  have sent : sentOf (moves (State.step (twoHosts (some 1))) (.initial (twoHosts (some 1)))
      actions).reverse = [(0, greeting)] := by decide +kernel
  obtain ⟨past, captures, run, same, silent⟩ := run_of_simulated .standard
    Pnet.standard_measuresTotalLength id 0 (Run.of_moves reached) <| by
      rw [sent, List.forall_mem_singleton]
      exact ⟨⟨by decide, by decide, by decide⟩, rfl, by decide⟩
  let secret : Secret := ⟨[65], [1, 2], [255]⟩
  have logging := Run.next run
    (show step .standard .standard id (twoHosts (some 1)) ⟨s, captures⟩ (.log 0 secret) = some _ from rfl)
  let past' := (⟨s, captures⟩, .log 0 secret) :: past
  have still : simulated past' = simulated past := rfl
  have logged : loggedAt 0 past' = [secret] := by
    have none : loggedAt 0 past = [] := silent 0
    simpa [past', loggedAt, CaptureAction.secret?] using none
  have tracked : trackedAt 0 (simulated past') = [greeting] := by
    rw [still, same]
    decide +kernel
  have representable : ∀ sent ∈ sentOf (simulated past'), PcapExporter.Representable sent.2 := by
    rw [still, same, sent, List.forall_mem_singleton]
    exact ⟨by decide, by decide, by decide⟩
  obtain ⟨keylog, -⟩ := captured_of_run Pnet.standard_measuresTotalLength logging representable 0
  obtain ⟨body, blocks, file, -, read, packets, -⟩ := captures_everything
    Pnet.standard_measuresTotalLength PcapLibrary.standard_encodes PcapLibrary.standard_parses logging
    representable 0 (by rw [logged]; decide) (by rw [keylog, logged]; decide)
  rw [logged] at read
  rw [tracked] at packets
  exact ⟨past', _, logging, body, blocks, congrArg PcapFiles.final file, read, packets⟩

end Capturing

end Workbench.Network
