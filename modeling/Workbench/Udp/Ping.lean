import Workbench.Library.Machine
import Workbench.Library.Map
import Workbench.Library.Ticker
import Workbench.Network.Packet
import Workbench.Quic.Client

/-! The ping traffic pattern: a client that sends pings at an interval and reports each as received
or lost, and a server that echoes them. The network between them may lose, repeat, delay and
reorder what they send; it does not make up any packet. -/

set_option autoImplicit false

namespace Workbench.Udp

open Workbench.Library Workbench.Network Workbench.Quic

structure PingTraffic where
  startAtMs : Nat
  client : SocketAddr
  server : SocketAddr
  durationMs : Nat
  sendIntervalMs : Nat
  deadlineMs : Nat
  deriving DecidableEq, Repr

namespace PingTraffic

def pace (t : PingTraffic) : Pace := ⟨millis t.startAtMs, millis t.sendIntervalMs, millis t.durationMs⟩

def deadline (t : PingTraffic) : Nat := millis t.deadlineMs

end PingTraffic

/-- The eight bytes of a number, from the least significant one. -/
def toLeBytes (n : Nat) : List UInt8 := (List.range 8).map fun i => .ofNat (n / 256 ^ i)

/-- The number of eight bytes; nothing where there are more or fewer. -/
def fromLeBytes (bytes : List UInt8) : Option Nat :=
  if bytes.length = 8 then some (bytes.foldr (fun byte n => byte.toNat + 256 * n) 0) else none

/-- What a socket receives of a transmit. -/
structure UdpPacket where
  sourceAddr : SocketAddr
  payload : List UInt8
  deriving DecidableEq, Repr

/-- The traffic pattern, and the addresses of the sockets that it runs over: those that the nodes of
the client and of the server send from. -/
structure Setup where
  traffic : PingTraffic
  clientEndpoint : SocketAddr
  serverEndpoint : SocketAddr
  deriving DecidableEq, Repr

/-- What a client sends as a ping, and a server as its echo. -/
def Setup.request (this : Setup) (pingNr : Nat) : OwnedTransmit :=
  ⟨this.clientEndpoint, this.traffic.server, none, toLeBytes pingNr, none, defaultTtl⟩

def Setup.reply (this : Setup) (payload : List UInt8) : OwnedTransmit :=
  ⟨this.serverEndpoint, this.traffic.client, none, payload, none, defaultTtl⟩

inductive Listener where
  | running
  | returned
  | panicked
  deriving DecidableEq, Repr

inductive PingOutcome where
  | received
  | lost
  deriving DecidableEq, Repr

inductive LogLine where
  | ping (pingNr sent reported : Nat) (outcome : PingOutcome)
  | done (time : Nat)
  deriving DecidableEq, Repr

/-- The task that a ping is tracked by. It starts to sleep when it first runs. -/
structure Tracker where
  pingNr : Nat
  due : Option Nat
  deriving DecidableEq, Repr

structure Client where
  sender : Ticker
  pingNr : Nat
  inFlight : HashMap Nat Nat
  lost : List Nat
  trackers : List Tracker
  receiver : Listener
  log : List LogLine
  deriving DecidableEq

namespace Client

def new : Client := ⟨.new, 0, ∅, [], [], .running, []⟩

/-- Sends a ping at a tick, and tells the receiver and the log when it is done. -/
def pollSender (setup : Setup) (now : Nat) (this : Client) : Option (Client × List OwnedTransmit) :=
  (this.sender.poll setup.traffic.pace now).map fun sender =>
    if sender.phase = .done then ({ this with sender, log := this.log ++ [.done now] }, [])
    else
      ({ this with
          sender
          pingNr := this.pingNr + 1
          inFlight := this.inFlight.insert this.pingNr now
          trackers := this.trackers ++ [⟨this.pingNr, none⟩] },
        [setup.request this.pingNr])

/-- A ping that is still in flight is reported, and is not in flight any more. -/
def report (now pingNr : Nat) (outcome : PingOutcome) (this : Client) : Client :=
  match this.inFlight.lookup pingNr with
  | some sent =>
    { this with
      inFlight := this.inFlight.erase pingNr
      lost := if outcome = .lost then this.lost ++ [pingNr] else this.lost
      log := this.log ++ [.ping pingNr sent now outcome] }
  | none => this

def pollTracker (setup : Setup) (now i : Nat) (this : Client) : Option Client :=
  this.trackers[i]?.bind fun tracker =>
    match tracker.due with
    | none =>
      some { this with
        trackers := this.trackers.set i { tracker with due := some (now + setup.traffic.deadline) } }
    | some due =>
      if now < due then none
      else some (({ this with trackers := this.trackers.eraseIdx i }).report now tracker.pingNr .lost)

def receivePacket (setup : Setup) (now : Nat) (this : Client) (packet : UdpPacket) : Client :=
  if packet.sourceAddr ≠ setup.traffic.server then { this with receiver := .panicked }
  else
    match fromLeBytes packet.payload with
    | none => { this with receiver := .panicked }
    | some pingNr => this.report now pingNr .received

def receiveAll (setup : Setup) (now : Nat) (this : Client) : List UdpPacket → Client
  | [] => this
  | packet :: packets =>
    let this := this.receivePacket setup now packet
    if this.receiver = .panicked then this else this.receiveAll setup now packets

end Client

/-- The server echoes packets until one is not from the client. -/
def echoAll (setup : Setup) : List UdpPacket → Listener × List OwnedTransmit
  | [] => (.running, [])
  | packet :: packets =>
    if packet.sourceAddr ≠ setup.traffic.client then (.panicked, [])
    else
      let (server, replies) := echoAll setup packets
      (server, setup.reply packet.payload :: replies)

/-- Both parties, with all that they have sent so far. -/
structure Pinging where
  now : Nat
  client : Client
  server : Listener
  requests : List OwnedTransmit
  replies : List OwnedTransmit
  deriving DecidableEq

inductive PingAction where
  | advance (duration : Nat)
  | pollSender
  | pollTracker (i : Nat)
  | receive (packets : List UdpPacket)
  | stopReceiver
  | serve (packets : List UdpPacket)
  deriving DecidableEq, Repr

/-- The network only delivers what was sent. -/
def Sent (transmits : List OwnedTransmit) (packets : List UdpPacket) : Prop :=
  ∀ packet ∈ packets, ∃ transmit ∈ transmits, packet = ⟨transmit.source, transmit.contents⟩

instance (transmits : List OwnedTransmit) (packets : List UdpPacket) :
    Decidable (Sent transmits packets) :=
  inferInstanceAs (Decidable (∀ packet ∈ packets, ∃ transmit ∈ transmits,
    packet = ⟨transmit.source, transmit.contents⟩))

namespace Pinging

def start (created : Nat) : Pinging := ⟨created, .new, .running, [], []⟩

def step (setup : Setup) (this : Pinging) : PingAction → Option Pinging
  | .advance duration => some { this with now := this.now + duration }
  | .pollSender =>
    (this.client.pollSender setup this.now).map fun (client, requests) =>
      { this with client, requests := this.requests ++ requests }
  | .pollTracker i =>
    (this.client.pollTracker setup this.now i).map fun client => { this with client }
  | .receive packets =>
    if this.client.receiver = .running ∧ Sent this.replies packets then
      some { this with client := this.client.receiveAll setup this.now packets }
    else none
  | .stopReceiver =>
    if this.client.receiver = .running ∧ this.client.sender.phase = .done then
      some { this with client := { this.client with receiver := .returned } }
    else none
  | .serve packets =>
    if this.server = .running ∧ Sent this.requests packets then
      let (server, replies) := echoAll setup packets
      some { this with server, replies := this.replies ++ replies }
    else none

end Pinging

/-! Each ping is in flight, or reported once. -/

/-- The line reports on a ping. -/
def LogLine.reports (nr : Nat) : LogLine → Bool
  | .ping pingNr _ _ _ => pingNr = nr
  | .done _ => false

/-- The number of a ping that the line reports as lost. -/
def LogLine.lost? : LogLine → Option Nat
  | .ping pingNr _ _ .lost => some pingNr
  | _ => none

namespace Client

variable {setup : Setup} {now now' nr : Nat} {this next : Client} {requests : List OwnedTransmit}

/-- How often the log reports on a ping. -/
def reports (this : Client) (nr : Nat) : Nat := this.log.countP (·.reports nr)

/-- What the log has of a ping that was sent, and when. -/
def Reported (setup : Setup) (now : Nat) (ticks : List Nat) (line : LogLine) : Prop :=
  ∀ nr sent reported outcome, line = .ping nr sent reported outcome →
    ticks[nr]? = some sent ∧ sent ≤ reported ∧ reported ≤ now ∧
      (outcome = .lost → sent + setup.traffic.deadline ≤ reported)

/-- A ping that was sent is tracked for as long as it may be in flight. -/
def Tracked (setup : Setup) (ticks : List Nat) (tracker : Tracker) : Prop :=
  ∃ sent, ticks[tracker.pingNr]? = some sent ∧
    ∀ due, tracker.due = some due → sent + setup.traffic.deadline ≤ due

structure Accounts (setup : Setup) (now : Nat) (this : Client) : Prop where
  ticks : Ticker.Ticks setup.traffic.pace now this.sender
  numbered : this.pingNr = this.sender.ticks.length
  counted : ∀ nr, (if nr ∈ this.inFlight then 1 else 0) + this.reports nr =
    if nr < this.pingNr then 1 else 0
  sent : ∀ nr sent, this.inFlight.lookup nr = some sent → this.sender.ticks[nr]? = some sent
  past : ∀ t ∈ this.sender.ticks, t ≤ now
  lines : ∀ line ∈ this.log, Reported setup now this.sender.ticks line
  tracked : ∀ nr ∈ this.inFlight, ∃ tracker ∈ this.trackers, tracker.pingNr = nr
  trackers : ∀ tracker ∈ this.trackers, Tracked setup this.sender.ticks tracker
  lost : this.lost = this.log.filterMap LogLine.lost?

theorem accounts_new (setup : Setup) (created : Nat) : Accounts setup created new where
  ticks := .starting
  numbered := rfl
  counted nr := rfl
  sent nr sent found := by cases found
  past := List.forall_mem_nil _
  lines := List.forall_mem_nil _
  tracked nr inside := absurd inside (AList.notMem_empty nr)
  trackers := List.forall_mem_nil _
  lost := rfl

theorem Reported.later {ticks : List Nat} {line : LogLine} (reported : Reported setup now ticks line)
    (later : now ≤ now') : Reported setup now' ticks line := by
  intro nr sent at' outcome same
  obtain ⟨tick, after, passed, due⟩ := reported nr sent at' outcome same
  exact ⟨tick, after, passed.trans later, due⟩

theorem Accounts.wait (accounts : Accounts setup now this) (later : now ≤ now') :
    Accounts setup now' this :=
  { accounts with
    ticks := accounts.ticks.wait later
    past := fun t member => (accounts.past t member).trans later
    lines := fun line member => (accounts.lines line member).later later }

/-- The state of the receiver does not matter. -/
theorem Accounts.receiver (accounts : Accounts setup now this) (receiver : Listener) :
    Accounts setup now { this with receiver } :=
  { accounts with }

theorem Accounts.report (accounts : Accounts setup now this) (nr : Nat) (outcome : PingOutcome)
    (due : ∀ sent, this.inFlight.lookup nr = some sent → outcome = .lost →
      sent + setup.traffic.deadline ≤ now) : Accounts setup now (this.report now nr outcome) := by
  unfold Client.report
  cases found : this.inFlight.lookup nr with
  | none => exact accounts
  | some sent =>
      have tick := accounts.sent nr sent found
      have flying : nr ∈ this.inFlight := mem_of_lookup found
      refine { accounts with counted := ?_, sent := ?_, lines := ?_, tracked := ?_, lost := ?_ }
      · intro nr'
        have counted := accounts.counted nr'
        by_cases same : nr' = nr
        · subst same
          have gone : nr' ∉ this.inFlight.erase nr' := fun inside => (AList.mem_erase.mp inside).1 rfl
          rw [if_pos flying, reports] at counted
          rw [if_neg gone, reports, List.countP_append, List.countP_singleton, LogLine.reports,
            if_pos (decide_eq_true rfl), ← counted, Nat.zero_add, Nat.add_comm]
        · simpa [reports, LogLine.reports, AList.mem_erase, same, Ne.symm same] using counted
      · intro nr' sent' found'
        exact accounts.sent nr' sent' (of_lookup_erase found').2
      · intro line member
        rcases List.mem_append.mp member with old | new
        · exact accounts.lines line old
        · obtain rfl := List.mem_singleton.mp new
          intro nr' sent' reported outcome' same
          obtain ⟨rfl, rfl, rfl, rfl⟩ := LogLine.ping.inj same
          exact ⟨tick, accounts.past sent (List.mem_of_getElem? tick), le_rfl, due sent found⟩
      · intro nr' inside
        exact accounts.tracked nr' (AList.mem_erase.mp inside).2
      · rw [accounts.lost]
        cases outcome <;> simp [LogLine.lost?]

theorem Tracked.later {ticks : List Nat} {tracker : Tracker} (tracked : Tracked setup ticks tracker)
    (more : List Nat) : Tracked setup (ticks ++ more) tracker := by
  obtain ⟨sent, tick, due⟩ := tracked
  exact ⟨sent, List.getElem?_append_left (List.getElem?_eq_some_iff.mp tick).1 ▸ tick, due⟩

/-- A tick sends the next ping, which is in flight and tracked from then on. -/
theorem Accounts.pollSender (accounts : Accounts setup now this)
    (polled : this.pollSender setup now = some (next, requests)) : Accounts setup now next := by
  obtain ⟨sender, ticked, result⟩ := Option.map_eq_some_iff.mp polled
  have ticks := accounts.ticks.poll ticked
  rcases Ticker.poll_cases ticked with ⟨ended, same⟩ | ⟨more, grown⟩
  · rw [if_pos ended] at result
    obtain ⟨rfl, -⟩ := Prod.mk.inj result
    refine ⟨ticks, same ▸ accounts.numbered, fun nr => ?_, same ▸ accounts.sent, same ▸ accounts.past,
      fun line member => ?_, accounts.tracked, same ▸ accounts.trackers, ?_⟩
    · simpa [reports, LogLine.reports] using accounts.counted nr
    · rcases List.mem_append.mp member with old | new
      · exact same ▸ accounts.lines line old
      · obtain rfl := List.mem_singleton.mp new
        exact nofun
    · rw [accounts.lost]
      simp [LogLine.lost?]
  · rw [if_neg more] at result
    obtain ⟨rfl, -⟩ := Prod.mk.inj result
    have newest : sender.ticks[this.pingNr]? = some now := by
      rw [grown, accounts.numbered, List.getElem?_concat_length]
    have older {nr t : Nat} (tick : this.sender.ticks[nr]? = some t) : sender.ticks[nr]? = some t := by
      rw [grown, List.getElem?_append_left (List.getElem?_eq_some_iff.mp tick).1]
      exact tick
    refine ⟨ticks, ?_, fun nr => ?_, ?_, ?_, ?_, ?_, ?_, accounts.lost⟩
    · simp [grown, accounts.numbered]
    · have counted := accounts.counted nr
      change (if nr ∈ this.inFlight.insert this.pingNr now then 1 else 0) + this.reports nr =
        if nr < this.pingNr + 1 then 1 else 0
      simp only [AList.mem_insert]
      by_cases same : nr = this.pingNr
      · have unsent : ¬ nr < this.pingNr := same ▸ lt_irrefl _
        rw [if_neg unsent] at counted
        rw [if_pos (.inl same), if_pos (same ▸ Nat.lt_succ_self _),
          (Nat.add_eq_zero_iff.mp counted).2]
      · have before : nr < this.pingNr + 1 ↔ nr < this.pingNr := by omega
        simpa [same, before] using counted
    · intro nr sent found
      rcases of_lookup_insert found with ⟨rfl, rfl⟩ | ⟨-, found⟩
      · exact newest
      · exact older (accounts.sent nr sent found)
    · intro t member
      rw [grown] at member
      rcases List.mem_append.mp member with old | new
      · exact accounts.past t old
      · obtain rfl := List.mem_singleton.mp new
        exact le_rfl
    · intro line member nr sent reported outcome same
      obtain ⟨tick, rest⟩ := accounts.lines line member nr sent reported outcome same
      exact ⟨older tick, rest⟩
    · intro nr inside
      rcases (AList.mem_insert _).mp inside with rfl | inside
      · exact ⟨_, List.mem_append_right _ List.mem_cons_self, rfl⟩
      · obtain ⟨tracker, member, same⟩ := accounts.tracked nr inside
        exact ⟨tracker, List.mem_append_left _ member, same⟩
    · intro tracker member
      rcases List.mem_append.mp member with old | new
      · exact grown ▸ (accounts.trackers tracker old).later [now]
      · obtain rfl := List.mem_singleton.mp new
        exact ⟨now, newest, nofun⟩

theorem Accounts.retrack (accounts : Accounts setup now this) {trackers : List Tracker}
    (tracked : ∀ nr ∈ this.inFlight, ∃ tracker ∈ trackers, tracker.pingNr = nr)
    (all : ∀ tracker ∈ trackers, Tracked setup this.sender.ticks tracker) :
    Accounts setup now { this with trackers } :=
  { accounts with tracked := tracked, trackers := all }

/-- A ping is not in flight once it is reported. -/
theorem not_mem_report (this : Client) (outcome : PingOutcome) : nr ∉ (this.report now nr outcome).inFlight := by
  unfold Client.report
  cases found : this.inFlight.lookup nr with
  | none => exact AList.lookup_eq_none.mp found
  | some sent => exact fun inside => (AList.mem_erase.mp inside).1 rfl

theorem report_trackers (this : Client) (trackers : List Tracker) (outcome : PingOutcome) :
    ({ this with trackers }).report now nr outcome =
      { this.report now nr outcome with trackers } := by
  unfold Client.report
  dsimp only
  split <;> rfl

theorem report_keeps (this : Client) (now nr : Nat) (outcome : PingOutcome) :
    (this.report now nr outcome).trackers = this.trackers ∧
      (this.report now nr outcome).sender = this.sender := by
  unfold Client.report
  split <;> exact ⟨rfl, rfl⟩

theorem Accounts.pollTracker {i : Nat} (accounts : Accounts setup now this)
    (polled : this.pollTracker setup now i = some next) : Accounts setup now next := by
  obtain ⟨tracker, there, result⟩ := Option.bind_eq_some_iff.mp polled
  obtain ⟨sent, tick, due⟩ := accounts.trackers tracker (List.mem_of_getElem? there)
  cases waits : tracker.due with
  | none =>
      simp only [waits, Option.some.injEq] at result
      subst result
      have within := accounts.past sent (List.mem_of_getElem? tick)
      refine accounts.retrack (fun nr inside => ?_) fun other inside => ?_
      · obtain ⟨other, old, same⟩ := accounts.tracked nr inside
        obtain ⟨j, at'⟩ := List.mem_iff_getElem?.mp old
        by_cases here : j = i
        · subst here
          obtain rfl := Option.some.inj (there.symm.trans at')
          exact ⟨_, List.mem_set (List.getElem?_eq_some_iff.mp there).1 _, same⟩
        · refine ⟨other, List.mem_iff_getElem?.mpr ⟨j, ?_⟩, same⟩
          rw [List.getElem?_set_ne (Ne.symm here)]
          exact at'
      · rcases List.mem_or_eq_of_mem_set inside with old | rfl
        · exact accounts.trackers other old
        · refine ⟨sent, tick, fun due same => ?_⟩
          obtain rfl := Option.some.inj same
          exact Nat.add_le_add_right within _
  | some wake =>
      simp only [waits, Option.ite_none_left_eq_some, Option.some.injEq, not_lt] at result
      obtain ⟨passed, rfl⟩ := result
      have reported := accounts.report tracker.pingNr .lost fun sent' found _ => by
        obtain rfl := Option.some.inj (tick.symm.trans (accounts.sent _ sent' found))
        exact (due wake waits).trans passed
      rw [report_trackers]
      obtain ⟨trackers, sender⟩ := report_keeps this now tracker.pingNr .lost
      refine reported.retrack (fun nr inside => ?_) fun other inside => ?_
      · obtain ⟨other, old, same⟩ := reported.tracked nr inside
        rw [trackers] at old
        obtain ⟨j, at'⟩ := List.mem_iff_getElem?.mp old
        refine ⟨other, List.mem_eraseIdx_iff_getElem?.mpr ⟨j, fun here => ?_, at'⟩, same⟩
        subst here
        obtain rfl := Option.some.inj (there.symm.trans at')
        exact not_mem_report this .lost (same ▸ inside)
      · rw [sender]
        exact accounts.trackers other (List.mem_of_mem_eraseIdx inside)

theorem Accounts.receivePacket (accounts : Accounts setup now this) (packet : UdpPacket) :
    Accounts setup now (this.receivePacket setup now packet) := by
  unfold Client.receivePacket
  split
  · exact accounts.receiver .panicked
  · cases fromLeBytes packet.payload with
    | none => exact accounts.receiver .panicked
    | some nr => exact accounts.report nr .received fun _ _ => nofun

theorem Accounts.receiveAll (accounts : Accounts setup now this) (packets : List UdpPacket) :
    Accounts setup now (this.receiveAll setup now packets) := by
  induction packets generalizing this with
  | nil => exact accounts
  | cons packet packets ih =>
      have received := accounts.receivePacket packet
      unfold Client.receiveAll
      dsimp only
      split
      · exact received
      · exact ih received

end Client

namespace Pinging

variable {setup : Setup} {created : Nat} {s s' : Pinging} {action : PingAction}
  {past : List (Pinging × PingAction)}

theorem step_accounts (accounts : s.client.Accounts setup s.now)
    (taken : s.step setup action = some s') : s'.client.Accounts setup s'.now := by
  cases action with
  | advance duration =>
      obtain rfl := Option.some.inj taken
      exact accounts.wait (Nat.le_add_right _ _)
  | pollSender =>
      obtain ⟨⟨client, requests⟩, polled, rfl⟩ := Option.map_eq_some_iff.mp taken
      exact accounts.pollSender polled
  | pollTracker i =>
      obtain ⟨client, polled, rfl⟩ := Option.map_eq_some_iff.mp taken
      exact accounts.pollTracker polled
  | receive packets =>
      obtain ⟨-, result⟩ := Option.ite_none_right_eq_some.mp taken
      obtain rfl := Option.some.inj result
      exact accounts.receiveAll packets
  | stopReceiver =>
      obtain ⟨-, result⟩ := Option.ite_none_right_eq_some.mp taken
      obtain rfl := Option.some.inj result
      exact accounts.receiver .returned
  | serve packets =>
      obtain ⟨-, result⟩ := Option.ite_none_right_eq_some.mp taken
      obtain rfl := Option.some.inj result
      exact accounts

theorem accounts_of_run (run : Run (step setup) (start created) past s) :
    s.client.Accounts setup s.now :=
  run.invariant (fun s => s.client.Accounts setup s.now) (Client.accounts_new setup created)
    fun _ _ _ accounts taken => step_accounts accounts taken

/-- In every run, each ping that was sent is in flight or was reported, once, with the time at which
it was sent, and as lost only from its deadline on. One in flight has a task that tracks it, so all
were reported once no such task is left. -/
theorem each_reported_once (run : Run (step setup) (start created) past s) :
    (∀ nr, (if nr ∈ s.client.inFlight then 1 else 0) + s.client.reports nr =
      if nr < s.client.pingNr then 1 else 0) ∧
    (∀ nr sent reported outcome, .ping nr sent reported outcome ∈ s.client.log →
      s.client.sender.ticks[nr]? = some sent ∧ sent ≤ reported ∧ reported ≤ s.now ∧
        (outcome = .lost → sent + setup.traffic.deadline ≤ reported)) ∧
    s.client.lost = s.client.log.filterMap LogLine.lost? ∧
    (∀ nr ∈ s.client.inFlight, ∃ tracker ∈ s.client.trackers, tracker.pingNr = nr) ∧
    (s.client.trackers = [] → ∀ nr < s.client.pingNr, s.client.reports nr = 1) ∧
    (0 < setup.traffic.pace.interval →
      s.client.pingNr ≤ setup.traffic.pace.duration ⌈/⌉ setup.traffic.pace.interval) := by
  have accounts := accounts_of_run run
  refine ⟨accounts.counted, fun nr sent reported outcome member =>
    accounts.lines _ member nr sent reported outcome rfl, accounts.lost, accounts.tracked,
    fun untracked nr was => ?_, fun positive => ?_⟩
  · have landed : nr ∉ s.client.inFlight := by
      intro flying
      obtain ⟨tracker, member, -⟩ := accounts.tracked nr flying
      rw [untracked] at member
      cases member
    have counted := accounts.counted nr
    rwa [if_neg landed, if_pos was, Nat.zero_add] at counted
  · rw [accounts.numbered]
    exact accounts.ticks.length_le positive

/-- Two pings at an interval of a millisecond, each with a deadline of a millisecond. -/
def twice : Setup :=
  ⟨⟨0, ⟨.v4 1, 4433⟩, ⟨.v4 2, 4433⟩, 2, 1, 1⟩, ⟨.v4 1, 4433⟩, ⟨.v4 2, 4433⟩⟩

/-- The echo of the first ping arrives twice, and the second ping is lost. -/
def repeatedEcho : List PingAction :=
  let request : UdpPacket := ⟨⟨.v4 1, 4433⟩, toLeBytes 0⟩
  let reply : UdpPacket := ⟨⟨.v4 2, 4433⟩, toLeBytes 0⟩
  [.pollSender, .pollTracker 0, .serve [request], .receive [reply, reply], .advance (millis 1),
    .pollSender, .pollTracker 1, .pollTracker 0, .advance (millis 1), .pollSender, .pollTracker 0]

theorem each_reported_once_twice : ∃ past s, Run (step twice) (start 0) past s ∧
    s.client.reports 0 = 1 ∧ s.client.reports 1 = 1 ∧ s.client.lost = [1] := by
  obtain ⟨s, reached, holds⟩ := (Option.any_eq_true _ _).mp <|
    show (attains (step twice) (start 0) repeatedEcho).any (fun s => decide <|
      s.client.trackers = [] ∧ s.client.pingNr = 2 ∧ s.client.lost = [1]) = true by decide +kernel
  obtain ⟨untracked, count, lost⟩ := of_decide_eq_true holds
  have run := Run.of_moves reached
  obtain ⟨-, -, -, -, all, -⟩ := each_reported_once run
  exact ⟨_, s, run, all untracked 0 (by omega), all untracked 1 (by omega), lost⟩

end Pinging

end Workbench.Udp
