import Workbench.Udp.Ping

/-! What the parties of a ping traffic pattern make of each other's packets. They check the source
address of a packet against the addresses of the traffic file, and the nodes send from their
canonical addresses: where the two differ, no ping is ever reported as received. -/

set_option autoImplicit false

namespace Workbench.Udp

open Workbench.Library Workbench.Network Workbench.Quic

theorem toLeBytes_length (n : Nat) : (toLeBytes n).length = 8 := by simp [toLeBytes]

/-- Eight bytes hold a number up to `2 ^ 64`. -/
theorem fromLeBytes_toLeBytes (n : Nat) : fromLeBytes (toLeBytes n) = some (n % 2 ^ 64) := by
  rw [fromLeBytes, if_pos (toLeBytes_length n)]
  refine congrArg some ?_
  simp only [toLeBytes, List.range, List.range.loop, List.map_cons, List.map_nil, List.foldr_cons,
    List.foldr_nil, UInt8.toNat_ofNat']
  omega

theorem toLeBytes_inj {n n' : Nat} (bound : n < 2 ^ 64) (bound' : n' < 2 ^ 64)
    (same : toLeBytes n = toLeBytes n') : n = n' := by
  have decoded := congrArg fromLeBytes same
  rw [fromLeBytes_toLeBytes, fromLeBytes_toLeBytes, Nat.mod_eq_of_lt bound, Nat.mod_eq_of_lt bound'] at decoded
  exact Option.some.inj decoded

variable {setup : Setup} {created : Nat} {s s' : Pinging} {packets : List UdpPacket}
  {replies : List OwnedTransmit} {action : PingAction} {past : List (Pinging × PingAction)}

/-- The pings that a client has sent. -/
def Setup.requests (setup : Setup) (count : Nat) : List OwnedTransmit :=
  (List.range count).map setup.request

/-- Replies are echoes of pings, to the address that they have come from. -/
structure Setup.Echoes (setup : Setup) (count : Nat) (replies : List OwnedTransmit) : Prop where
  accepted : replies ≠ [] → setup.clientEndpoint = setup.traffic.client
  echo : ∀ reply ∈ replies, ∃ nr < count, reply = setup.reply (toLeBytes nr)

theorem request_of_sent {count : Nat} (sent : Sent (setup.requests count) packets) :
    ∀ packet ∈ packets, ∃ nr < count, packet = ⟨setup.clientEndpoint, toLeBytes nr⟩ := by
  intro packet member
  obtain ⟨transmit, request, rfl⟩ := sent packet member
  obtain ⟨nr, below, rfl⟩ := List.mem_map.mp request
  exact ⟨nr, List.mem_range.mp below, rfl⟩

theorem Setup.Echoes.reply {count : Nat} (echoes : setup.Echoes count replies) (sent : Sent replies packets) :
    ∀ packet ∈ packets, ∃ nr < count, packet = ⟨setup.serverEndpoint, toLeBytes nr⟩ := by
  intro packet member
  obtain ⟨transmit, reply, rfl⟩ := sent packet member
  obtain ⟨nr, below, rfl⟩ := echoes.echo transmit reply
  exact ⟨nr, below, rfl⟩

/-- A server that expects other packets gives up at the first one, and any other one answers all. -/
theorem echoAll_exact {count : Nat}
    (sent : ∀ packet ∈ packets, ∃ nr < count, packet = ⟨setup.clientEndpoint, toLeBytes nr⟩) :
    setup.Echoes count (echoAll setup packets).2 ∧
      ((echoAll setup packets).1 = .panicked ↔
        packets ≠ [] ∧ setup.clientEndpoint ≠ setup.traffic.client) := by
  induction packets with
  | nil => exact ⟨⟨fun some => absurd rfl some, List.forall_mem_nil _⟩, by simp [echoAll]⟩
  | cons packet packets ih =>
      obtain ⟨first, later⟩ := List.forall_mem_cons.mp sent
      obtain ⟨nr, below, rfl⟩ := first
      obtain ⟨echoes, panics⟩ := ih later
      unfold echoAll
      split
      · next foreign =>
          exact ⟨⟨fun some => absurd rfl some, List.forall_mem_nil _⟩, by simpa using foreign⟩
      · next known =>
          have expected : setup.clientEndpoint = setup.traffic.client := not_not.mp known
          refine ⟨⟨fun _ => expected, ?_⟩, ?_⟩
          · intro reply member
            rcases List.mem_cons.mp member with rfl | member
            · exact ⟨nr, below, rfl⟩
            · exact echoes.echo reply member
          · rw [panics]
            simp [expected]

namespace Client

variable {now : Nat} {this : Client}

theorem report_receiver (this : Client) (now nr : Nat) (outcome : PingOutcome) :
    (this.report now nr outcome).receiver = this.receiver := by
  unfold Client.report
  split <;> rfl

theorem mem_report {nr nr' : Nat} {outcome : PingOutcome} :
    nr' ∈ (this.report now nr outcome).inFlight ↔ nr' ≠ nr ∧ nr' ∈ this.inFlight := by
  unfold Client.report
  cases found : this.inFlight.lookup nr with
  | none =>
      have absent := AList.lookup_eq_none.mp found
      refine ⟨fun inside => ⟨?_, inside⟩, And.right⟩
      rintro rfl
      exact absent inside
  | some sent => exact AList.mem_erase

/-- A client that expects the packets has none of their pings in flight afterwards, and any other one
gives up at the first packet. -/
theorem receiveAll_exact {count : Nat} (running : this.receiver = .running)
    (sent : ∀ packet ∈ packets, ∃ nr < count, packet = ⟨setup.serverEndpoint, toLeBytes nr⟩) :
    ((this.receiveAll setup now packets).receiver = .panicked ↔
      packets ≠ [] ∧ setup.serverEndpoint ≠ setup.traffic.server) ∧
    (setup.serverEndpoint ≠ setup.traffic.server →
      (this.receiveAll setup now packets).log = this.log ∧
        (this.receiveAll setup now packets).inFlight = this.inFlight) ∧
    (setup.serverEndpoint = setup.traffic.server → count ≤ 2 ^ 64 → ∀ nr < count,
      (nr ∈ (this.receiveAll setup now packets).inFlight ↔
        nr ∈ this.inFlight ∧ ∀ packet ∈ packets, packet.payload ≠ toLeBytes nr)) := by
  induction packets generalizing this with
  | nil => simp [receiveAll, running]
  | cons packet packets ih =>
      obtain ⟨first, later⟩ := List.forall_mem_cons.mp sent
      obtain ⟨nr, below, rfl⟩ := first
      by_cases expected : setup.serverEndpoint = setup.traffic.server
      · have received : this.receivePacket setup now ⟨setup.serverEndpoint, toLeBytes nr⟩ =
            this.report now (nr % 2 ^ 64) .received := by
          rw [receivePacket, if_neg (not_not.mpr expected), fromLeBytes_toLeBytes]
        have going := (report_receiver this now (nr % 2 ^ 64) .received).trans running
        obtain ⟨panics, -, lands⟩ := @ih (this.report now (nr % 2 ^ 64) .received) going later
        unfold receiveAll
        rw [received]
        dsimp only
        rw [if_neg (by rw [going]; decide)]
        refine ⟨?_, fun differs => absurd expected differs, fun _ small nr' below' => ?_⟩
        · rw [panics]
          simp [expected]
        · rw [lands expected small nr' below', mem_report, Nat.mod_eq_of_lt (below.trans_le small),
            List.forall_mem_cons]
          have other : nr' ≠ nr ↔ toLeBytes nr ≠ toLeBytes nr' := by
            refine not_congr ⟨fun same => same ▸ rfl, fun same => ?_⟩
            exact (toLeBytes_inj (below.trans_le small) (below'.trans_le small) same).symm
          rw [other]
          tauto
      · have refused : this.receiveAll setup now (⟨setup.serverEndpoint, toLeBytes nr⟩ :: packets) =
            { this with receiver := .panicked } := by
          rw [receiveAll, receivePacket, if_pos expected]
          exact if_pos rfl
        rw [refused]
        exact ⟨by simp [expected], fun _ => ⟨rfl, rfl⟩, fun same => absurd same expected⟩

theorem pollSender_sends {next : Client} {sent : List OwnedTransmit}
    (polled : this.pollSender setup now = some (next, sent)) :
    setup.requests this.pingNr ++ sent = setup.requests next.pingNr ∧
      this.pingNr ≤ next.pingNr ∧ next.receiver = this.receiver ∧
      ∀ nr sent reported outcome, .ping nr sent reported outcome ∈ next.log →
        .ping nr sent reported outcome ∈ this.log := by
  obtain ⟨sender, -, result⟩ := Option.map_eq_some_iff.mp polled
  split at result
  · obtain ⟨rfl, rfl⟩ := Prod.mk.inj result
    refine ⟨List.append_nil _, le_rfl, rfl, fun nr sent reported outcome member => ?_⟩
    simpa using member
  · obtain ⟨rfl, rfl⟩ := Prod.mk.inj result
    refine ⟨?_, Nat.le_succ _, rfl, fun _ _ _ _ member => member⟩
    simp [Setup.requests, List.range_succ]

theorem report_pingNr (this : Client) (now nr : Nat) (outcome : PingOutcome) :
    (this.report now nr outcome).pingNr = this.pingNr := by
  unfold Client.report
  split <;> rfl

theorem receiveAll_pingNr (setup : Setup) (now : Nat) (this : Client) (packets : List UdpPacket) :
    (this.receiveAll setup now packets).pingNr = this.pingNr := by
  induction packets generalizing this with
  | nil => rfl
  | cons packet packets ih =>
      have same : (this.receivePacket setup now packet).pingNr = this.pingNr := by
        unfold receivePacket
        split
        · rfl
        · cases fromLeBytes packet.payload with
          | none => rfl
          | some nr => exact report_pingNr this now nr .received
      unfold receiveAll
      dsimp only
      split
      · exact same
      · exact (ih _).trans same

theorem pollTracker_keeps {next : Client} {i : Nat} (polled : this.pollTracker setup now i = some next) :
    next.pingNr = this.pingNr ∧ next.receiver = this.receiver ∧
      ∀ nr sent reported, .ping nr sent reported .received ∈ next.log →
        .ping nr sent reported .received ∈ this.log := by
  obtain ⟨tracker, -, result⟩ := Option.bind_eq_some_iff.mp polled
  split at result
  · obtain rfl := Option.some.inj result
    exact ⟨rfl, rfl, fun _ _ _ member => member⟩
  · rw [Option.ite_none_left_eq_some, Option.some.injEq] at result
    obtain ⟨-, rfl⟩ := result
    refine ⟨report_pingNr _ _ _ _, report_receiver _ _ _ _, fun nr sent reported member => ?_⟩
    unfold Client.report at member
    dsimp only at member
    split at member
    · simpa using member
    · exact member

end Client

namespace Pinging

/-- What the parties have sent so far, and whether they go on. -/
structure Honest (setup : Setup) (s : Pinging) : Prop where
  requests : s.requests = setup.requests s.client.pingNr
  replies : setup.Echoes s.client.pingNr s.replies
  server : s.server = .panicked → setup.clientEndpoint ≠ setup.traffic.client
  receiver : s.client.receiver = .panicked → setup.serverEndpoint ≠ setup.traffic.server
  received : ∀ nr sent reported, .ping nr sent reported .received ∈ s.client.log →
    setup.clientEndpoint = setup.traffic.client ∧ setup.serverEndpoint = setup.traffic.server

theorem start_honest (setup : Setup) (created : Nat) : Honest setup (start created) where
  requests := rfl
  replies := ⟨fun some => absurd rfl some, List.forall_mem_nil _⟩
  server := nofun
  receiver := nofun
  received _ _ _ member := by cases member

theorem Honest.step (honest : Honest setup s) (taken : s.step setup action = some s') :
    Honest setup s' := by
  cases action with
  | advance duration =>
      obtain rfl := Option.some.inj taken
      exact { honest with }
  | pollSender =>
      obtain ⟨⟨client, requests⟩, polled, rfl⟩ := Option.map_eq_some_iff.mp taken
      obtain ⟨sends, more, receiver, same⟩ := Client.pollSender_sends polled
      refine ⟨?_, ⟨honest.replies.accepted, fun reply member => ?_⟩, honest.server,
        fun panics => honest.receiver (receiver ▸ panics), fun nr sent reported member =>
          honest.received nr sent reported (same nr sent reported .received member)⟩
      · rw [← sends, ← honest.requests]
      · obtain ⟨nr, below, echo⟩ := honest.replies.echo reply member
        exact ⟨nr, below.trans_le more, echo⟩
  | pollTracker i =>
      obtain ⟨client, polled, rfl⟩ := Option.map_eq_some_iff.mp taken
      obtain ⟨count, receiver, same⟩ := Client.pollTracker_keeps polled
      exact ⟨count ▸ honest.requests, count ▸ honest.replies, honest.server,
        fun panics => honest.receiver (receiver ▸ panics),
        fun nr sent reported member => honest.received nr sent reported (same nr sent reported member)⟩
  | receive packets =>
      obtain ⟨⟨running, sent⟩, result⟩ := Option.ite_none_right_eq_some.mp taken
      obtain rfl := Option.some.inj result
      have count := Client.receiveAll_pingNr setup s.now s.client packets
      obtain ⟨panics, stays, -⟩ := @Client.receiveAll_exact setup packets s.now s.client _ running
        (honest.replies.reply sent)
      refine ⟨count.symm ▸ honest.requests, count.symm ▸ honest.replies, honest.server,
        fun panicked => (panics.mp panicked).2, fun nr at' reported member => ?_⟩
      cases packets with
      | nil => exact honest.received nr at' reported member
      | cons packet packets =>
          by_cases expected : setup.serverEndpoint = setup.traffic.server
          · refine ⟨honest.replies.accepted fun silent => ?_, expected⟩
            obtain ⟨transmit, reply, -⟩ := sent packet List.mem_cons_self
            rw [silent] at reply
            cases reply
          · rw [(stays expected).1] at member
            exact honest.received nr at' reported member
  | stopReceiver =>
      obtain ⟨-, result⟩ := Option.ite_none_right_eq_some.mp taken
      obtain rfl := Option.some.inj result
      exact { honest with receiver := nofun }
  | serve packets =>
      obtain ⟨⟨running, sent⟩, result⟩ := Option.ite_none_right_eq_some.mp taken
      obtain rfl := Option.some.inj result
      rw [honest.requests] at sent
      obtain ⟨echoes, panics⟩ := echoAll_exact (request_of_sent sent)
      refine { honest with replies := ⟨?_, ?_⟩, server := fun panicked => (panics.mp panicked).2 }
      · intro some
        by_cases none : s.replies = []
        · exact echoes.accepted fun silent => some (by rw [none, silent, List.append_nil])
        · exact honest.replies.accepted none
      · intro reply member
        rcases List.mem_append.mp member with old | new
        · exact honest.replies.echo reply old
        · exact echoes.echo reply new

theorem honest_of_run (run : Run (step setup) (start created) past s) : Honest setup s :=
  run.invariant (Honest setup) (start_honest setup created) fun _ _ _ honest taken => honest.step taken

/-- The file has another address of the client than the one that its node sends from. -/
def foreign : Setup :=
  ⟨⟨0, ⟨.v4 3, 4433⟩, ⟨.v4 2, 4433⟩, 2, 1, 1⟩, ⟨.v4 1, 4433⟩, ⟨.v4 2, 4433⟩⟩

end Pinging

end Workbench.Udp
