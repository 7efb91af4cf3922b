import Workbench.Library.Machine
import Workbench.Library.Workers

/-! The client of the QUIC traffic pattern: a task that starts the connections and waits
for them, a task for each connection, and a task for each request.

All connections count down the same number of requests; each has a semaphore of its
own, whose permits go with the requests. What the transport answers, and when a task gets
its turn, is up to the environment. -/

set_option autoImplicit false

namespace Workbench.Quic

open Workbench.Library

structure QuicRequestResponseTraffic where
  startAtMs : Nat
  requests : Nat
  concurrentConnections : Nat
  concurrentStreamsPerConnection : Nat
  requestIntervalMs : Nat
  deriving DecidableEq, Repr

def millis (n : Nat) : Nat := n * 1000000

/-- What an error tells, from the outside to its cause. -/
inductive Context where
  | text (text : String)
  | failedToReadResponse (elapsed : Nat)
  deriving DecidableEq, Repr

def validateTraffic (opts : QuicRequestResponseTraffic) : Except (List Context) Unit :=
  if opts.requestIntervalMs ≠ 0 ∧ opts.concurrentStreamsPerConnection ≠ 1 then
    .error [.text <| "incompatible QUIC traffic options used: `request_interval_ms` is only valid " ++
      "when `concurrent_streams_per_connection` is set to `1` (its default value)"]
  else .ok ()

/-! Tasks. -/

/-- What an operation of the transport comes to. -/
inductive Answer where
  | succeeds
  | fails (error : String)
  | panics
  deriving DecidableEq, Repr

inductive Outcome where
  | ok
  | failed (contexts : List Context)
  | panicked
  deriving DecidableEq, Repr

def Answer.outcome (contexts : List Context) : Answer → Outcome
  | .succeeds => .ok
  | .fails error => .failed (contexts ++ [.text error])
  | .panics => .panicked

/-- What is wrong with a task that is waited for. -/
def Outcome.join (crashed errored : String) : Outcome → Option (List Context)
  | .ok => none
  | .failed contexts => some (.text errored :: contexts)
  | .panicked => some [.text crashed]

inductive RequestPhase where
  | spawned
  | opening
  | writing
  | reading
  | finished (outcome : Outcome)
  deriving DecidableEq, Repr

structure RequestTask where
  number : Int32
  phase : RequestPhase
  deriving DecidableEq

inductive ConnectionPhase where
  | spawned
  | connecting
  | checking
  | acquiring
  | sleeping (deadline : Nat)
  | joining (index : Nat)
  | finished (outcome : Outcome)
  deriving DecidableEq, Repr

structure Connection where
  name : Char
  phase : ConnectionPhase
  permits : Nat
  requestsMade : Int32
  requestTasks : List RequestTask
  deriving DecidableEq

inductive LogLine where
  | connect (connectionName : Char)
  | connected (connectionName : Char)
  | sleep (millis : Nat) (connectionName : Char)
  | get (connectionName : Char) (requestsMade : Int32)
  | done (connectionName : Char) (requestsMade : Int32)
  | allConnectionsClosed
  deriving DecidableEq

/-- What the tasks share: the clock since the start of the simulation, the requests
left, the permits of the semaphore for connections, and the log. -/
structure Shared where
  now : Nat
  requestsLeft : Nat
  connectionPermits : Nat
  log : List (Nat × LogLine)
  deriving DecidableEq

def Shared.writeln (this : Shared) (line : LogLine) : Shared :=
  { this with log := this.log ++ [(this.now, line)] }

def Connection.new (index : Nat) : Connection :=
  { name := .ofNat (index + 'A'.toNat), phase := .spawned, permits := 0, requestsMade := 0,
    requestTasks := [] }

/-! Requests. -/

/-- What a request does next: it opens a stream, writes to it and reads the response. -/
def RequestTask.step (now : Nat) (this : RequestTask) (answer : Answer) : Option RequestPhase :=
  match this.phase, answer with
  | .spawned, _ => some .opening
  | .opening, .succeeds => some .writing
  | .opening, answer => some (.finished (answer.outcome []))
  | .writing, .succeeds => some .reading
  | .writing, answer => some (.finished (answer.outcome []))
  | .reading, answer => some (.finished (answer.outcome [.failedToReadResponse now]))
  | .finished _, _ => none

def RequestPhase.isFinished : RequestPhase → Bool
  | .finished _ => true
  | _ => false

namespace Connection

/-- A turn of a request, which gives its permit back at its end, whatever that is. -/
def stepRequest (shared : Shared) (this : Connection) (j : Nat) (answer : Answer) :
    Option (Shared × Connection) :=
  this.requestTasks[j]?.bind fun task =>
    (task.step shared.now answer).map fun phase =>
      (if task.phase = .spawned then shared.writeln (.get this.name task.number) else shared,
        { this with
          permits := if phase.isFinished then this.permits + 1 else this.permits
          requestTasks := this.requestTasks.set j { task with phase } })

/-! Connections. -/

/-- The end of a connection's task, which gives the permit for it back. -/
def finish (shared : Shared) (this : Connection) (outcome : Outcome) : Shared × Connection :=
  ({ shared with connectionPermits := shared.connectionPermits + 1 },
    { this with phase := .finished outcome })

/-- Makes a request with the permit that was acquired for it. Where overflow is checked,
counting one request too many panics, and the permit is dropped. -/
def spawnRequest (overflowChecks : Bool) (shared : Shared) (this : Connection) :
    Shared × Connection :=
  if overflowChecks ∧ this.requestsMade = Int32.maxValue then
    finish shared { this with permits := this.permits + 1 } .panicked
  else
    let requestsMade := this.requestsMade + 1
    (shared, { this with
      phase := .checking
      requestsMade
      requestTasks := this.requestTasks ++ [⟨requestsMade, .spawned⟩] })

/-- A turn of a connection's own task. -/
def run (traffic : QuicRequestResponseTraffic) (overflowChecks : Bool) (shared : Shared)
    (this : Connection) (answer : Answer) : Option (Shared × Connection) :=
  match this.phase with
  | .spawned =>
    if shared.connectionPermits = 0 then none
    else
      let shared := { shared with connectionPermits := shared.connectionPermits - 1 }
      let shared := shared.writeln (.connect this.name)
      match answer with
      | .succeeds => some (shared, { this with phase := .connecting })
      | answer =>
        some (this.finish shared (answer.outcome [.text "failed to start connecting to server"]))
  | .connecting =>
    match answer with
    | .succeeds => some (shared.writeln (.connected this.name), { this with
        phase := .checking
        permits := traffic.concurrentStreamsPerConnection })
    | answer =>
      some (this.finish shared (answer.outcome [.text "client failed to connect to server"]))
  | .checking =>
    if shared.requestsLeft = 0 then some (shared, { this with phase := .joining 0 })
    else
      some ({ shared with requestsLeft := shared.requestsLeft - 1 },
        { this with phase := .acquiring })
  | .acquiring =>
    if this.permits = 0 then none
    else
      let this := { this with permits := this.permits - 1 }
      if (0 : Int32) < this.requestsMade ∧ traffic.requestIntervalMs ≠ 0 then
        some (shared.writeln (.sleep traffic.requestIntervalMs this.name),
          { this with phase := .sleeping (shared.now + millis traffic.requestIntervalMs) })
      else some (this.spawnRequest overflowChecks shared)
  | .sleeping deadline =>
    if shared.now < deadline then none else some (this.spawnRequest overflowChecks shared)
  | .joining index =>
    match this.requestTasks[index]? with
    | none => some (this.finish (shared.writeln (.done this.name this.requestsMade)) .ok)
    | some task =>
      match task.phase with
      | .finished outcome =>
        match outcome.join "client stream task crashed" "client stream task errored" with
        | none => some (shared, { this with phase := .joining (index + 1) })
        | some contexts => some (this.finish shared (.failed contexts))
      | _ => none
  | .finished _ => none

/-- A turn of the connection's task, or of one of its requests. -/
def step (traffic : QuicRequestResponseTraffic) (overflowChecks : Bool) (shared : Shared)
    (this : Connection) : Option Nat × Answer → Option (Shared × Connection)
  | (none, answer) => this.run traffic overflowChecks shared answer
  | (some j, answer) => this.stepRequest shared j answer

end Connection

/-! The traffic pattern. -/

inductive MainPhase where
  | waiting (deadline : Nat)
  | spawning (index : Nat)
  | pausing (index deadline : Nat)
  | joining (index : Nat)
  | returned (result : Except (List Context) Nat)
  deriving DecidableEq

structure Client extends Shared where
  connections : List Connection
  main : MainPhase
  deriving DecidableEq

inductive Action where
  | advance (time : Nat)
  | main
  | poll (connection : Nat) (request : Option Nat) (answer : Answer)
  deriving DecidableEq, Repr

/-- Connections are named by letters. -/
def maxConnections : Nat := 'Z'.toNat - 'A'.toNat

namespace Client

/-- The traffic pattern is run so long after the start of the simulation. -/
def runTrafficPattern (traffic : QuicRequestResponseTraffic) (elapsed : Nat) :
    Except (List Context) Client :=
  if maxConnections < traffic.concurrentConnections then
    .error [.text <| s!"The maximum number of concurrent connections is {maxConnections}, " ++
      s!"but {traffic.concurrentConnections} were configured"]
  else .ok {
    now := elapsed
    requestsLeft := traffic.requests
    connectionPermits := traffic.concurrentConnections
    log := []
    connections := []
    main := if elapsed < millis traffic.startAtMs then .waiting (millis traffic.startAtMs)
      else .spawning 0 }

/-- A turn of the pattern's own task. -/
def stepMain (traffic : QuicRequestResponseTraffic) (this : Client) : Option Client :=
  match this.main with
  | .waiting deadline => if this.now < deadline then none else some { this with main := .spawning 0 }
  | .spawning index =>
    if index < traffic.concurrentConnections then
      some { this with
        connections := this.connections ++ [.new index]
        main := .pausing index (this.now + millis 1) }
    else some { this with main := .joining 0 }
  | .pausing index deadline =>
    if this.now < deadline then none else some { this with main := .spawning (index + 1) }
  | .joining index =>
    match this.connections[index]? with
    | none =>
      some { this with
        toShared := this.writeln .allConnectionsClosed
        main := .returned (.ok this.connections.length) }
    | some connection =>
      match connection.phase with
      | .finished outcome =>
        match outcome.join "client connection task crashed" "client connection errored" with
        | none => some { this with main := .joining (index + 1) }
        | some contexts => some { this with main := .returned (.error contexts) }
      | _ => none
  | .returned _ => none

def step (traffic : QuicRequestResponseTraffic) (overflowChecks : Bool) (this : Client) :
    Action → Option Client
  | .advance time => some { this with now := this.now + time }
  | .main => this.stepMain traffic
  | .poll i request answer =>
    (Workers.step (Connection.step traffic overflowChecks) this.toShared this.connections i
      (request, answer)).map fun (toShared, connections) => { this with toShared, connections }

end Client

/-- The requests that were issued, by what the log has of them. -/
def requestsIssued (log : List (Nat × LogLine)) : Nat :=
  log.countP fun entry => match entry.2 with
    | .get _ _ => true
    | _ => false

def RequestTask.isOutstanding (this : RequestTask) : Bool := !this.phase.isFinished

/-- The requests of a connection that are not finished. -/
def Connection.outstanding (this : Connection) : Nat :=
  this.requestTasks.countP RequestTask.isOutstanding

end Workbench.Quic
