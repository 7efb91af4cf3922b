import Workbench.Udp.Ping

/-! Pings where no timer is late, as with the paused clock of a simulation: time only goes by while
every task sleeps, and up to the first one that wakes. -/

set_option autoImplicit false

namespace Workbench.Udp

open Workbench.Library Workbench.Network Workbench.Quic

variable {setup : Setup} {created : Nat}

/-- No time goes by over the head of a task that could go on. -/
def Pinging.Prompt (setup : Setup) (s : Pinging) : PingAction → Prop
  | .advance duration =>
    (∀ wake ∈ s.client.sender.wake? setup.traffic.pace, s.now + duration ≤ wake) ∧
      ∀ tracker ∈ s.client.trackers, ∃ due, tracker.due = some due ∧ s.now + duration ≤ due
  | .pollSender | .pollTracker _ | .receive _ | .stopReceiver | .serve _ => True

namespace Client

variable {now now' nr : Nat} {this next : Client} {requests : List OwnedTransmit}

/-- A line that reports a ping as lost at its deadline, or as received by then. -/
def InTime (setup : Setup) (line : LogLine) : Prop :=
  ∀ nr sent reported outcome, line = .ping nr sent reported outcome →
    reported ≤ sent + setup.traffic.deadline ∧
      (outcome = .lost → reported = sent + setup.traffic.deadline)

/-- A tracker that has not run yet was made just now, and any other one wakes at the deadline. -/
def Waits (setup : Setup) (now : Nat) (ticks : List Nat) (tracker : Tracker) : Prop :=
  ∃ sent, ticks[tracker.pingNr]? = some sent ∧ (tracker.due = none → sent = now) ∧
    ∀ due, tracker.due = some due → due = sent + setup.traffic.deadline ∧ now ≤ due

structure Prompt (setup : Setup) (created now : Nat) (this : Client) : Prop where
  accounts : this.Accounts setup now
  punctual : Ticker.Punctual setup.traffic.pace created now this.sender
  waits : ∀ tracker ∈ this.trackers, Waits setup now this.sender.ticks tracker
  lines : ∀ line ∈ this.log, InTime setup line

theorem Waits.bound {ticks : List Nat} {tracker : Tracker} {sent : Nat}
    (waits : Waits setup now ticks tracker) (tick : ticks[tracker.pingNr]? = some sent) :
    now ≤ sent + setup.traffic.deadline := by
  obtain ⟨sent', tick', fresh, due⟩ := waits
  obtain rfl := Option.some.inj (tick.symm.trans tick')
  cases wakes : tracker.due with
  | none =>
      rw [fresh wakes]
      exact Nat.le_add_right _ _
  | some wake =>
      obtain ⟨rfl, early⟩ := due wake wakes
      exact early

/-- What is reported while it is in flight is reported in time. -/
theorem Prompt.report_lines (prompt : Prompt setup created now this) (nr : Nat) (outcome : PingOutcome)
    (due : ∀ sent, this.inFlight.lookup nr = some sent → outcome = .lost →
      now = sent + setup.traffic.deadline) :
    ∀ line ∈ (this.report now nr outcome).log, InTime setup line := by
  unfold Client.report
  cases found : this.inFlight.lookup nr with
  | none => exact prompt.lines
  | some sent =>
      intro line member
      rcases List.mem_append.mp member with old | new
      · exact prompt.lines line old
      · obtain rfl := List.mem_singleton.mp new
        intro nr' sent' reported outcome' same
        obtain ⟨rfl, rfl, rfl, rfl⟩ := LogLine.ping.inj same
        obtain ⟨tracker, kept, rfl⟩ := prompt.accounts.tracked nr (mem_of_lookup found)
        exact ⟨(prompt.waits tracker kept).bound (prompt.accounts.sent _ sent found), due sent found⟩

theorem Prompt.report (prompt : Prompt setup created now this) (nr : Nat) :
    Prompt setup created now (this.report now nr .received) := by
  obtain ⟨trackers, sender⟩ := report_keeps this now nr .received
  refine ⟨prompt.accounts.report nr .received fun _ _ => nofun, ?_, ?_,
    prompt.report_lines nr .received fun _ _ => nofun⟩
  · rw [sender]
    exact prompt.punctual
  · rw [trackers, sender]
    exact prompt.waits

theorem Prompt.receiver (prompt : Prompt setup created now this) (receiver : Listener) :
    Prompt setup created now { this with receiver } :=
  { prompt with accounts := prompt.accounts.receiver receiver }

theorem Prompt.receivePacket (prompt : Prompt setup created now this) (packet : UdpPacket) :
    Prompt setup created now (this.receivePacket setup now packet) := by
  unfold Client.receivePacket
  split
  · exact prompt.receiver .panicked
  · cases fromLeBytes packet.payload with
    | none => exact prompt.receiver .panicked
    | some nr => exact prompt.report nr

theorem Prompt.receiveAll (prompt : Prompt setup created now this) (packets : List UdpPacket) :
    Prompt setup created now (this.receiveAll setup now packets) := by
  induction packets generalizing this with
  | nil => exact prompt
  | cons packet packets ih =>
      have received := prompt.receivePacket packet
      unfold Client.receiveAll
      dsimp only
      split
      · exact received
      · exact ih received

theorem Prompt.wait (prompt : Prompt setup created now this) (later : now ≤ now')
    (ticks : ∀ wake ∈ this.sender.wake? setup.traffic.pace, now' ≤ wake)
    (trackers : ∀ tracker ∈ this.trackers, ∃ due, tracker.due = some due ∧ now' ≤ due) :
    Prompt setup created now' this where
  accounts := prompt.accounts.wait later
  punctual := prompt.punctual.wait later ticks
  waits := by
    intro tracker member
    obtain ⟨sent, tick, -, due⟩ := prompt.waits tracker member
    obtain ⟨wake, wakes, early⟩ := trackers tracker member
    refine ⟨sent, tick, fun asleep => ?_, fun wake' wakes' => ⟨(due wake' wakes').1, ?_⟩⟩
    · rw [wakes] at asleep
      cases asleep
    · obtain rfl := Option.some.inj (wakes.symm.trans wakes')
      exact early
  lines := prompt.lines

theorem Prompt.pollSender (prompt : Prompt setup created now this)
    (polled : this.pollSender setup now = some (next, requests)) : Prompt setup created now next := by
  have accounts := prompt.accounts.pollSender polled
  obtain ⟨sender, ticked, result⟩ := Option.map_eq_some_iff.mp polled
  have punctual := prompt.punctual.poll ticked
  rcases Ticker.poll_cases ticked with ⟨ended, same⟩ | ⟨more, grown⟩
  · rw [if_pos ended] at result
    obtain ⟨rfl, -⟩ := Prod.mk.inj result
    refine ⟨accounts, punctual, same ▸ prompt.waits, fun line member => ?_⟩
    rcases List.mem_append.mp member with old | new
    · exact prompt.lines line old
    · obtain rfl := List.mem_singleton.mp new
      exact nofun
  · rw [if_neg more] at result
    obtain ⟨rfl, -⟩ := Prod.mk.inj result
    refine ⟨accounts, punctual, fun tracker member => ?_, prompt.lines⟩
    rcases List.mem_append.mp member with old | new
    · obtain ⟨sent, tick, rest⟩ := prompt.waits tracker old
      refine ⟨sent, ?_, rest⟩
      change sender.ticks[tracker.pingNr]? = some sent
      rw [grown, List.getElem?_append_left (List.getElem?_eq_some_iff.mp tick).1]
      exact tick
    · obtain rfl := List.mem_singleton.mp new
      refine ⟨now, ?_, fun _ => rfl, nofun⟩
      change sender.ticks[this.pingNr]? = some now
      rw [grown, prompt.accounts.numbered, List.getElem?_concat_length]

theorem Prompt.pollTracker {i : Nat} (prompt : Prompt setup created now this)
    (polled : this.pollTracker setup now i = some next) : Prompt setup created now next := by
  have accounts := prompt.accounts.pollTracker polled
  obtain ⟨tracker, there, result⟩ := Option.bind_eq_some_iff.mp polled
  obtain ⟨sent, tick, fresh, due⟩ := prompt.waits tracker (List.mem_of_getElem? there)
  cases waits : tracker.due with
  | none =>
      simp only [waits, Option.some.injEq] at result
      subst result
      refine ⟨accounts, prompt.punctual, fun other inside => ?_, prompt.lines⟩
      rcases List.mem_or_eq_of_mem_set inside with old | rfl
      · exact prompt.waits other old
      · refine ⟨sent, tick, nofun, fun wake wakes => ?_⟩
        obtain rfl := Option.some.inj wakes
        rw [fresh waits]
        exact ⟨rfl, Nat.le_add_right _ _⟩
  | some wake =>
      simp only [waits, Option.ite_none_left_eq_some, Option.some.injEq, not_lt] at result
      obtain ⟨passed, rfl⟩ := result
      obtain ⟨rfl, early⟩ := due wake waits
      have reported := prompt.report_lines tracker.pingNr .lost fun sent' found _ => by
        obtain rfl := Option.some.inj (tick.symm.trans (prompt.accounts.sent _ sent' found))
        exact le_antisymm early passed
      obtain ⟨-, sender⟩ := report_keeps this now tracker.pingNr .lost
      rw [report_trackers] at accounts ⊢
      refine ⟨accounts, sender.symm ▸ prompt.punctual, fun other inside => ?_, reported⟩
      rw [sender]
      exact prompt.waits other (List.mem_of_mem_eraseIdx inside)

end Client

namespace Pinging

variable {s s' : Pinging} {action : PingAction} {past : List (Pinging × PingAction)}

theorem step_prompt (prompt : s.client.Prompt setup created s.now) (meets : s.Prompt setup action)
    (taken : s.step setup action = some s') : s'.client.Prompt setup created s'.now := by
  cases action with
  | advance duration =>
      obtain rfl := Option.some.inj taken
      exact prompt.wait (Nat.le_add_right _ _) meets.1 meets.2
  | pollSender =>
      obtain ⟨⟨client, requests⟩, polled, rfl⟩ := Option.map_eq_some_iff.mp taken
      exact prompt.pollSender polled
  | pollTracker i =>
      obtain ⟨client, polled, rfl⟩ := Option.map_eq_some_iff.mp taken
      exact prompt.pollTracker polled
  | receive packets =>
      obtain ⟨-, result⟩ := Option.ite_none_right_eq_some.mp taken
      obtain rfl := Option.some.inj result
      exact prompt.receiveAll packets
  | stopReceiver =>
      obtain ⟨-, result⟩ := Option.ite_none_right_eq_some.mp taken
      obtain rfl := Option.some.inj result
      exact prompt.receiver .returned
  | serve packets =>
      obtain ⟨-, result⟩ := Option.ite_none_right_eq_some.mp taken
      obtain rfl := Option.some.inj result
      exact prompt

/-- In every run in which no timer is late, pings are sent at the multiples of the interval, as many
as begin in the duration once the client is done, and each ping is reported as received by its
deadline or as lost exactly at its deadline. -/
theorem prompt_pings (run : Run (step setup) (start created) past s)
    (prompt : ∀ move ∈ past, move.1.Prompt setup move.2) :
    (∃ count, s.client.sender.ticks = Ticker.progression
      (max created setup.traffic.pace.startAt) setup.traffic.pace.interval count) ∧
    (s.client.sender.phase = .done → s.client.sender.ticks = Ticker.progression
      (max created setup.traffic.pace.startAt) setup.traffic.pace.interval
      (setup.traffic.pace.duration ⌈/⌉ setup.traffic.pace.interval)) ∧
    ∀ nr sent reported outcome, .ping nr sent reported outcome ∈ s.client.log →
      sent = max created setup.traffic.pace.startAt + nr * setup.traffic.pace.interval ∧
        reported ≤ sent + setup.traffic.deadline ∧
        (outcome = .lost → reported = sent + setup.traffic.deadline) := by
  have kept : s.client.Prompt setup created s.now := by
    refine run.guarded (fun s => s.client.Prompt setup created s.now) (Prompt setup) ?_ prompt
      fun _ _ _ prompt meets taken => step_prompt prompt meets taken
    exact ⟨Client.accounts_new setup created, .starting le_rfl (le_max_left _ _),
      List.forall_mem_nil _, List.forall_mem_nil _⟩
  obtain ⟨⟨count, ticks⟩, ended⟩ := kept.punctual.ticks
  refine ⟨⟨count, ticks⟩, ended, fun nr sent reported outcome member => ⟨?_, ?_⟩⟩
  · have tick := (kept.accounts.lines _ member nr sent reported outcome rfl).1
    rw [ticks, Ticker.progression, List.getElem?_map, Option.map_eq_some_iff] at tick
    obtain ⟨k, at', rfl⟩ := tick
    obtain ⟨bound, rfl⟩ := List.getElem?_eq_some_iff.mp at'
    rw [List.getElem_range]
  · exact kept.lines _ member nr sent reported outcome rfl

instance (setup : Setup) (s : Pinging) (action : PingAction) : Decidable (s.Prompt setup action) :=
  match action with
  | .advance duration => inferInstanceAs <| Decidable <|
    (∀ wake ∈ s.client.sender.wake? setup.traffic.pace, s.now + duration ≤ wake) ∧
      ∀ tracker ∈ s.client.trackers, ∃ due, tracker.due = some due ∧ s.now + duration ≤ due
  | .pollSender | .pollTracker _ | .receive _ | .stopReceiver | .serve _ => isTrue trivial

theorem prompt_pings_twice : ∃ past s, Run (step twice) (start 0) past s ∧
    (∀ move ∈ past, move.1.Prompt twice move.2) ∧
    s.client.log = [.ping 0 0 0 .received, .done (millis 2), .ping 1 (millis 1) (millis 2) .lost] ∧
    s.client.sender.ticks = Ticker.progression 0 (millis 1) 2 := by
  obtain ⟨s, reached, holds⟩ := (Option.any_eq_true _ _).mp <|
    show (attains (step twice) (start 0) repeatedEcho).any (fun s => decide <|
      (∀ move ∈ (moves (step twice) (start 0) repeatedEcho).reverse, move.1.Prompt twice move.2) ∧
        s.client.sender.phase = .done ∧ s.client.log =
          [.ping 0 0 0 .received, .done (millis 2), .ping 1 (millis 1) (millis 2) .lost]) = true
      by decide +kernel
  obtain ⟨prompt, ended, log⟩ := of_decide_eq_true holds
  have run := Run.of_moves reached
  exact ⟨_, s, run, prompt, log, (prompt_pings run prompt).2.1 ended⟩

end Pinging

end Workbench.Udp
