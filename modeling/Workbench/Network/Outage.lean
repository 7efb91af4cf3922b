import Workbench.Library.Trace
import Workbench.Network.Conservation

/-! Packets on a link that goes down.

The forwarder of a link looks at a packet when it arrives, and only sees when the
link last went down. The log says what came between the sending and the arrival. -/

set_option autoImplicit false

namespace Workbench.Network

open Workbench.Library Workbench.Tracing

/-- When a packet was last sent over a link, and when the link went down since. -/
structure Crossing where
  sent : Nat
  outages : List Nat
  deriving DecidableEq, Repr

namespace Crossing

/-- The link went down at a later instant than the packet was sent. -/
def Overtaken (this : Crossing) : Prop := ∃ t ∈ this.outages, this.sent < t

instance (this : Crossing) : Decidable this.Overtaken := by
  unfold Overtaken
  infer_instance

end Crossing

namespace LogEntry

def cross (l : LinkId) (id : Uuid) (crossing : Option Crossing) : LogEntry → Option Crossing
  | .recorded ⟨t, .packetInTransit s⟩ =>
    if s.packetId = id ∧ s.linkId = l then some ⟨t, []⟩ else crossing
  | .wentDown l' t =>
    if l' = l then crossing.map fun c => { c with outages := c.outages ++ [t] } else crossing
  | _ => crossing

/-- The packet that an entry records in a node. -/
def entered? : LogEntry → Option Uuid
  | .recorded ⟨_, .packetInNode s⟩ => some s.packetId
  | _ => none

/-- The entry is about no link. -/
def Plain : LogEntry → Prop
  | .recorded ⟨_, .packetInTransit _⟩ | .wentDown _ _ | .arrived _ _ => False
  | _ => True

theorem Plain.cross {e : LogEntry} (plain : e.Plain) (l : LinkId) (id : Uuid)
    (crossing : Option Crossing) : e.cross l id crossing = crossing := by
  unfold LogEntry.cross
  split
  · exact plain.elim
  · exact plain.elim
  · rfl

end LogEntry

def crossing (l : LinkId) (id : Uuid) (log : List LogEntry) : Option Crossing :=
  log.foldl (LogEntry.cross l id) none

theorem crossing_concat (l : LinkId) (id : Uuid) (log : List LogEntry) (e : LogEntry) :
    crossing l id (log ++ [e]) = e.cross l id (crossing l id log) := by
  simp [crossing]

theorem crossing_plain (l : LinkId) (id : Uuid) (log : List LogEntry) {entries : List LogEntry}
    (plain : ∀ e ∈ entries, e.Plain) : crossing l id (log ++ entries) = crossing l id log := by
  induction entries generalizing log with
  | nil => simp
  | cons e entries ih =>
      have rest := ih (log ++ [e]) fun e' member => plain e' (List.mem_cons_of_mem _ member)
      rw [List.append_assoc, List.singleton_append] at rest
      rw [rest, crossing_concat, (plain e List.mem_cons_self).cross]

/-- What a link records right after the arrival of a packet that it lost, or did not lose. -/
def Follows (net : InMemoryNetwork) (l : LinkId) (id : Uuid) (lost : Prop) (next : LogEntry) :
    Prop :=
  (lost → ∃ t, next = .recorded ⟨t, .packetLostInTransit ⟨id, l⟩⟩) ∧
  (¬ lost → match net.nodesByAddr (net.links l).target with
    | some n => ∃ t number size dropped,
        next = .recorded ⟨t, .packetInNode ⟨id, number, size, n, dropped⟩⟩
    | none => next = .stranded l id)

namespace Moment

/-- A packet sent at some time is on a link, or in the hands of its forwarder. -/
def Flying (m : Moment) (l : LinkId) (id : Uuid) (sent : Nat) : Prop :=
  (∃ p ∈ (m.state.links l).inTransit.queue, p.data.id = id ∧ p.sent = sent) ∨
  ∃ held ∈ m.hand, held.stage = .flying l sent ∧ held.data.id = id

/-- What an effect does to the packets on links, and what it logs of them. -/
inductive Course (net : InMemoryNetwork) (m m' : Moment) : Prop where
  | noted (entries : List LogEntry) (log : m'.state.log = m.state.log ++ entries)
      (few : entries.length ≤ 1) (plain : ∀ e ∈ entries, e.Plain)
      (entered : ∀ e ∈ entries, ∀ id, e.entered? = some id → 0 < m.tally none id)
      (now : m.state.now ≤ m'.state.now)
      (lastDown : ∀ l, (m'.state.links l).lastDown = (m.state.links l).lastDown)
      (flying : ∀ l id sent, m'.Flying l id sent → m.Flying l id sent)
  | falls (l : LinkId) (log : m'.state.log = m.state.log ++ [.wentDown l m.state.now])
      (now : m'.state.now = m.state.now)
      (down : (m'.state.links l).lastDown = some m.state.now)
      (others : ∀ l', l' ≠ l → (m'.state.links l').lastDown = (m.state.links l').lastDown)
      (flying : ∀ l id sent, m'.Flying l id sent → m.Flying l id sent)
  | sends (l : LinkId) (id : Uuid) (n : NodeId)
      (log : m'.state.log =
        m.state.log ++ [.recorded ⟨m.state.now, .packetInTransit ⟨id, n, l⟩⟩])
      (waiting : 0 < m.tally (some (.waiting n)) id)
      (now : m'.state.now = m.state.now)
      (lastDown : ∀ l, (m'.state.links l).lastDown = (m.state.links l).lastDown)
      (flying : ∀ l' id' sent, m'.Flying l' id' sent →
        m.Flying l' id' sent ∨ l' = l ∧ id' = id ∧ sent = m.state.now)
  | arrives (l : LinkId) (id : Uuid) (sent : Nat) (next : LogEntry)
      (log : m'.state.log = m.state.log ++ [.arrived l id, next])
      (here : m.Flying l id sent) (held : 0 < m.tally none id) (plain : next.Plain)
      (entered : ∀ id', next.entered? = some id' → id' = id)
      (follows : Follows net l id ((m.state.links l).wasDownAfter sent = true) next)
      (now : m'.state.now = m.state.now)
      (lastDown : ∀ l, (m'.state.links l).lastDown = (m.state.links l).lastDown)
      (flying : ∀ l id sent, m'.Flying l id sent → m.Flying l id sent)

end Moment

namespace State

variable {net : InMemoryNetwork} {licence : Licence} {s s' t : State}

/-- Time does not go back, and the links stay as they are for the packets on them. -/
structure Steady (s s' : State) : Prop where
  now : s.now ≤ s'.now
  lastDown : ∀ l, (s'.links l).lastDown = (s.links l).lastDown
  inTransit : ∀ l, (s'.links l).inTransit.queue = (s.links l).inTransit.queue

theorem Steady.modifyLink (s : State) (l : LinkId) (change : LinkState → LinkState)
    (lastDown : (change (s.links l)).lastDown = (s.links l).lastDown)
    (inTransit : (change (s.links l)).inTransit.queue = (s.links l).inTransit.queue) :
    Steady s (s.modifyLink l change) := by
  refine ⟨Nat.le_refl _, fun l' => ?_, fun l' => ?_⟩
  all_goals by_cases here : l' = l
  · rw [here, modifyLink_self, lastDown]
  · rw [modifyLink_of_ne _ _ here]
  · rw [here, modifyLink_self, inTransit]
  · rw [modifyLink_of_ne _ _ here]

theorem Steady.of_links (now : s'.now = s.now) (links : s'.links = s.links) : Steady s s' :=
  ⟨now.ge, fun _ => by rw [links], fun _ => by rw [links]⟩

theorem Steady.trans {s s' s'' : State} (first : Steady s s') (second : Steady s' s'') :
    Steady s s'' where
  now := first.now.trans second.now
  lastDown l := (second.lastDown l).trans (first.lastDown l)
  inTransit l := (second.inTransit l).trans (first.inTransit l)

theorem Steady.endQueueTask (s : State) (l : LinkId) : Steady s (s.endQueueTask l) := by
  have ended := Steady.modifyLink s l (fun link => { link with
    task := .panicked, outgoingQueue := link.outgoingQueue.dropReceiver }) rfl rfl
  exact ended.trans (.of_links rfl rfl)

theorem Works.steady {l : LinkId} (works : Works s t l) : Steady s t := by
  refine ⟨works.now.ge, fun l' => ?_, works.sameCount.inTransit⟩
  by_cases here : l' = l
  · rw [here, works.lastDown]
  · rw [works.others l' here]

theorem Pushed.steady {n : NodeId} {packet : BufferedPacket} {flag : Nat} {links : List LinkId}
    (pushed : Pushed n packet flag links s s') : Steady s s' := by
  refine ⟨pushed.now.ge, fun l => ?_, fun l => ?_⟩
  all_goals
    obtain ⟨new, queue, -⟩ := pushed.queues l
    rw [queue]

/-- Each packet in flight in some hands is in others. -/
def Fewer (hand' hand : List Held) : Prop :=
  ∀ held ∈ hand', ∀ l sent, held.stage = .flying l sent →
    ∃ before ∈ hand, before.stage = .flying l sent ∧ before.data.id = held.data.id

theorem Fewer.refl (hand : List Held) : Fewer hand hand :=
  fun held member _ _ stage => ⟨held, member, stage, rfl⟩

theorem Fewer.drop (held : Held) (hand : List Held) : Fewer hand (held :: hand) :=
  fun held' member _ _ stage => ⟨held', List.mem_cons_of_mem _ member, stage, rfl⟩

/-- A packet that is not in flight comes in place of another one. -/
theorem Fewer.land (held : Held) {held' : Held} (hand : List Held)
    (landed : ∀ l sent, held'.stage ≠ .flying l sent) : Fewer (held' :: hand) (held :: hand) := by
  intro other member l sent stage
  rcases List.mem_cons.mp member with rfl | member
  · exact absurd stage (landed l sent)
  · exact Fewer.drop held hand other member l sent stage

theorem Steady.flying {hand hand' : List Held} (steady : Steady s s') (hands : Fewer hand' hand)
    (l : LinkId) (id : Uuid) (sent : Nat) (flying : Moment.Flying ⟨s', hand'⟩ l id sent) :
    Moment.Flying ⟨s, hand⟩ l id sent := by
  rcases flying with ⟨p, member, same⟩ | ⟨held, member, stage, same⟩
  · exact .inl ⟨p, steady.inTransit l ▸ member, same⟩
  · obtain ⟨before, inside, stage, same'⟩ := hands held member l sent stage
    exact .inr ⟨before, inside, stage, same'.trans same⟩

/-- Nothing is logged. -/
theorem Steady.silent {hand hand' : List Held} (steady : Steady s s') (log : s'.log = s.log)
    (hands : Fewer hand' hand) : Moment.Course net ⟨s, hand⟩ ⟨s', hand'⟩ :=
  .noted [] (by simpa using log) (by simp) (by simp) (by simp) steady.now steady.lastDown
    (steady.flying hands)

/-- An entry that is about no link is logged. -/
theorem Steady.entry {hand hand' : List Held} {e : LogEntry} (steady : Steady s s')
    (log : s'.log = s.log ++ [e]) (plain : e.Plain)
    (entered : ∀ id, e.entered? = some id → 0 < Moment.tally ⟨s, hand⟩ none id)
    (hands : Fewer hand' hand) : Moment.Course net ⟨s, hand⟩ ⟨s', hand'⟩ := by
  refine .noted [e] log (Nat.le_refl _) ?_ ?_ steady.now steady.lastDown (steady.flying hands)
  · simpa using plain
  · simpa using entered

/-- A packet in the hands of the forwarder is taken up. -/
theorem arrives_course {data : InTransitData} {l : LinkId} {sent : Nat} {hand hand' : List Held}
    {next : LogEntry} (plain : next.Plain)
    (entered : ∀ id, next.entered? = some id → id = data.id)
    (follows : Follows net l data.id ((s.links l).wasDownAfter sent = true) next)
    (hands : Fewer hand' (⟨data, .flying l sent⟩ :: hand)) :
    Moment.Course net ⟨s, ⟨data, .flying l sent⟩ :: hand⟩
      ⟨(s.takeUp data (.flying l sent)).note next, hand'⟩ := by
  refine .arrives l data.id sent next (by simp [takeUp, note])
    (.inr ⟨_, List.mem_cons_self, rfl, rfl⟩) (by simp [Moment.tally]) plain entered follows rfl
    (fun _ => rfl) (Steady.flying (.of_links rfl rfl) hands)

/-- A packet in hand is recorded in a node, from a link or not. -/
theorem enters_course {n : NodeId} {data : InTransitData} {stage : Stage} {hand hand' : List Held}
    (dropped : Bool) (reaches : s.Reaches net n stage) (hands : Fewer hand' (⟨data, stage⟩ :: hand)) :
    Moment.Course net ⟨s, ⟨data, stage⟩ :: hand⟩ ⟨(s.takeUp data stage).record
      (.packetInNode ⟨data.id, data.number, data.size, n, dropped⟩), hand'⟩ := by
  cases stage with
  | inside n' => exact reaches.elim
  | fresh =>
      refine Steady.entry (.of_links rfl rfl) rfl trivial (fun id same => ?_) hands
      obtain rfl := Option.some.inj same
      simp [Moment.tally]
  | flying l sent =>
      obtain ⟨-, target, up⟩ := reaches
      refine arrives_course trivial (fun id same => (Option.some.inj same).symm) ?_ hands
      refine ⟨fun down => by simp [up] at down, fun _ => ?_⟩
      rw [target]
      exact ⟨_, _, _, _, rfl⟩

/-- Every effect takes one of the courses. -/
theorem Competing.course {m m' : Moment} (competing : m.state.Competing net)
    (effect : Effect net licence m m') : Moment.Course net m m' := by
  cases effect with
  | quiet hand quiet =>
      exact Steady.silent ⟨quiet.now, quiet.lastDown, quiet.inTransit⟩ quiet.log (.refl hand)
  | crash s hand lost => exact Steady.silent (.of_links rfl rfl) rfl (.refl hand)
  | forget s held hand lost => exact Steady.silent (.of_links rfl rfl) rfl (.drop held hand)
  | outage s l hand up =>
      -- A link that goes down keeps what is in transit: it is lost on arrival.
      have settled := SameCount.modifyLink s l (·.updateStatus s.now .down) rfl
      have down : (s.links l).status.goesDown .down = true := by
        simpa [Switch.goesDown, LinkState.isDown] using up
      refine .falls l rfl rfl ?_ (fun l' differs => ?_) fun l' id sent flying => ?_
      · simp [LinkState.updateStatus, down]
      · simp [modifyLink_of_ne _ _ differs]
      · simpa only [Moment.Flying, note_links, settled.inTransit] using flying
  | event s e hand =>
      exact Steady.entry (.of_links rfl rfl) rfl trivial (by simp [LogEntry.entered?]) (.refl hand)
  | issue s data number before after id =>
      -- The new packet is in the hand, but not off a link.
      refine Steady.silent (.of_links rfl rfl) rfl fun held member l sent stage => ?_
      refine ⟨held, ?_, stage, rfl⟩
      simp only [List.mem_append, List.mem_cons] at member ⊢
      rcases member with member | rfl | member
      · exact .inl member
      · simp at stage
      · exact .inr member
  | enter s n data stage hand reaches up =>
      exact enters_course false reaches (.land _ hand (by simp))
  | refuse s n data stage hand reaches down => exact enters_course true reaches (.drop _ hand)
  | retouch s data data' stage hand id size =>
      refine Steady.silent (.of_links rfl rfl) rfl fun held member l sent same => ?_
      rcases List.mem_cons.mp member with rfl | member
      · exact ⟨_, List.mem_cons_self, same, id.symm⟩
      · exact ⟨held, List.mem_cons_of_mem _ member, same, rfl⟩
  | deliver s n data hand => exact Steady.silent (.of_links rfl rfl) rfl (.drop _ hand)
  | drop s n data reason hand full =>
      exact Steady.entry (.of_links rfl rfl) rfl trivial (by simp [LogEntry.entered?])
        (.drop _ hand)
  | buffer s n data since hand room sent =>
      exact Steady.entry (.of_links rfl rfl) rfl trivial (by simp [LogEntry.entered?])
        (.drop _ hand)
  | overbook s n data hand room lost =>
      exact Steady.entry (.of_links rfl rfl) rfl trivial (by simp [LogEntry.entered?])
        (.drop _ hand)
  | duplicate s n data hand known =>
      exact Steady.entry (.of_links rfl rfl) rfl trivial (by simp [LogEntry.entered?])
        (.land _ hand (by simp))
  | @dispatch s s' n packet rest links hand member queued some pushed =>
      have taken : Steady s ((s.takeBuffered n rest).openDispatch n packet links) :=
        .of_links rfl rfl
      exact (taken.trans pushed.steady).silent pushed.log (.refl hand)
  | endBuffer s n hand lost => exact Steady.silent (.of_links rfl rfl) rfl (.refl hand)
  | discard hand takes handled => exact takes.works.steady.silent takes.works.log (.refl hand)
  | @clear s t l k hand takes unhandled cleared licensed =>
      have log : (t.dropCleared l k).log = s.log ++
          [.recorded ⟨t.now, .packetDropped ⟨k.data.id, k.srcNode, .bufferCleared⟩⟩] := by
        rw [← takes.works.log]
        rfl
      exact Steady.entry (.trans takes.works.steady (.of_links rfl rfl)) log trivial
        (by simp [LogEntry.entered?]) (.refl hand)
  | @send s t l k data pacer hand member takes unhandled kept up marked =>
      obtain ⟨same, -⟩ := PacketAnomalies.mark_some marked
      have counts := takes.send_count competing unhandled pacer same (.waiting k.srcNode) k.data.id
      refine .sends l data.id k.srcNode ?_ ?_ takes.works.now (fun l' => ?_)
        fun l' id sent flying => ?_
      · rw [← takes.works.log, ← takes.works.now]
        rfl
      · rw [Moment.tally, same]
        simp only [reduceCtorEq, false_and, if_false, and_self, if_true, Nat.add_zero] at counts
        exact counts ▸ Nat.succ_pos _
      · rw [noteAct_links]
        by_cases here : l' = l
        · rw [here, carry_self]
          exact takes.works.lastDown
        · rw [carry_of_ne _ _ _ _ here]
          exact congrArg _ (takes.works.others l' here)
      · rcases flying with ⟨p, inside, rfl, rfl⟩ | held
        · rw [noteAct_links] at inside
          by_cases here : l' = l
          · subst here
            rw [carry_self, markHandled_links, takes.works.inTransit] at inside
            rcases List.mem_append.mp inside with inside | last
            · exact .inl (.inl ⟨p, inside, rfl, rfl⟩)
            · obtain rfl := List.mem_singleton.mp last
              exact .inr ⟨rfl, rfl, takes.works.now⟩
          · rw [carry_of_ne _ _ _ _ here, markHandled_links, takes.works.others l' here] at inside
            exact .inl (.inl ⟨p, inside, rfl, rfl⟩)
        · exact .inl (.inr held)
  | @taskPanics s t l hand works alive lost =>
      exact (works.steady.trans (.endQueueTask t l)).silent works.log (.refl hand)
  | @sendPanics s t l k hand takes unhandled lost =>
      have marked : Steady t (t.markHandled k) := .of_links rfl rfl
      exact ((takes.works.steady.trans marked).trans (.endQueueTask _ l)).silent takes.works.log
        (.refl hand)
  | collect s l delivered inTransit forwarder member moved =>
      refine .noted [] (List.append_nil _).symm (by simp) (by simp) (by simp) (Nat.le_refl _)
        (fun l' => ?_) fun l' id sent flying => ?_
      · by_cases here : l' = l
        · rw [here, modifyLink_self]
        · rw [modifyLink_of_ne _ _ here]
      have before (t : DeliveredTransmit)
          (inside : t ∈ delivered ++ inTransit.queue.map (·.delivered)) :
          Moment.Flying ⟨s, []⟩ l t.data.id t.sent := by
        obtain ⟨p, member, rfl⟩ := List.mem_map.mp (moved.mem_iff.mpr inside)
        exact .inl ⟨p, member, rfl, rfl⟩
      rcases flying with ⟨p, inside, rfl, rfl⟩ | ⟨held, inside, stage, rfl⟩
      · by_cases here : l' = l
        · subst here
          rw [modifyLink_self] at inside
          exact before p.delivered
            (List.mem_append_right _ (List.mem_map_of_mem (f := (·.delivered)) inside))
        · rw [modifyLink_of_ne _ _ here] at inside
          exact .inl ⟨p, inside, rfl, rfl⟩
      · obtain ⟨t, member, rfl⟩ := List.mem_map.mp inside
        simp only [Stage.flying.injEq] at stage
        obtain ⟨rfl, rfl⟩ := stage
        exact before t (List.mem_append_left _ member)
  | lose s l data sent hand down =>
      refine arrives_course trivial (by simp [LogEntry.entered?]) ?_ (.drop _ hand)
      exact ⟨fun _ => ⟨_, rfl⟩, fun up => absurd down up⟩
  | strand s l data sent hand up nowhere lost =>
      refine arrives_course trivial (by simp [LogEntry.entered?]) ?_ (.drop _ hand)
      refine ⟨fun down => by simp [up] at down, fun _ => ?_⟩
      rw [nowhere]
  | socket s n port delivery hand size => exact Steady.silent (.of_links rfl rfl) rfl (.refl hand)
  | fetch s n port delivered queue member moved =>
      refine Steady.silent (.of_links rfl rfl) rfl fun held member l sent stage => ?_
      obtain ⟨t, -, rfl⟩ := List.mem_map.mp member
      simp at stage
  | read s n data hand =>
      exact Steady.entry (.of_links rfl rfl) rfl trivial (by simp [LogEntry.entered?])
        (.drop _ hand)
  | check s n data hand =>
      exact Steady.entry (.of_links rfl rfl) rfl trivial (by simp [LogEntry.entered?])
        (.drop _ hand)

end State

/-! What the log says of a packet that arrives. -/

/-- The log of the packet's crossing agrees with what the forwarder of its link will see. -/
def State.Tracks (s : State) (l : LinkId) (id : Uuid) (sent : Nat) : Prop :=
  ∃ c, crossing l id s.log = some c ∧ c.sent = sent ∧
    ((s.links l).wasDownAfter sent = true ↔ c.Overtaken)

structure Judged (net : InMemoryNetwork) (m : Moment) : Prop where
  earlier : ∀ l t, (m.state.links l).lastDown = some t → t ≤ m.state.now
  tracks : ∀ l id sent, m.Flying l id sent → m.state.Tracks l id sent
  arrivals : ∀ before l id after, m.state.log = before ++ .arrived l id :: after →
    ∃ c next rest, crossing l id before = some c ∧ after = next :: rest ∧
      Follows net l id c.Overtaken next
  ended : ∀ before e after, m.state.log = before ++ e :: after →
    ∀ id o, e.outcome? = some (id, o) → ∀ later ∈ after, later.entered? ≠ some id

variable {net : InMemoryNetwork} {licence : Licence} {m m' : Moment} {s s' : State}

theorem Judged.initial : Judged net ⟨.initial net, []⟩ where
  earlier l t down := by simp [State.initial, LinkState.new] at down
  tracks l id sent flying := by
    simp [Moment.Flying, State.initial, LinkState.new, InboundQueue.new] at flying
  arrivals before l id after split := by simp [State.initial] at split
  ended before e after split := by simp [State.initial] at split

theorem Moment.Flying.tally_pos {l : LinkId} {id : Uuid} {sent : Nat}
    (flying : m.Flying l id sent) :
    0 < m.tally (some (.inTransit l)) id ∨ 0 < m.tally none id := by
  rcases flying with ⟨p, member, same, -⟩ | ⟨held, member, -, same⟩
  · exact .inl (List.countP_pos_iff.mpr ⟨p, member, by simpa using same⟩)
  · exact .inr (List.countP_pos_iff.mpr ⟨held, member, by simpa using same⟩)

theorem State.Tracks.of_same {l : LinkId} {id : Uuid} {sent : Nat} (tracks : s.Tracks l id sent)
    (log : crossing l id s'.log = crossing l id s.log)
    (lastDown : (s'.links l).lastDown = (s.links l).lastDown) : s'.Tracks l id sent := by
  obtain ⟨c, same, rest⟩ := tracks
  refine ⟨c, log.trans same, ?_⟩
  rwa [LinkState.wasDownAfter, lastDown]

/-- The link goes down while the packet is on it. -/
theorem State.Tracks.falls {l : LinkId} {id : Uuid} {sent now : Nat} (tracks : s.Tracks l id sent)
    (earlier : ∀ t, (s.links l).lastDown = some t → t ≤ now)
    (log : s'.log = s.log ++ [.wentDown l now]) (down : (s'.links l).lastDown = some now) :
    s'.Tracks l id sent := by
  obtain ⟨c, same, rfl, seen⟩ := tracks
  refine ⟨{ c with outages := c.outages ++ [now] }, ?_, rfl, ?_⟩
  · rw [log, crossing_concat, same]
    simp [LogEntry.cross]
  · have before : c.Overtaken → c.sent < now := by
      intro overtaken
      have lost := seen.mpr overtaken
      simp only [LinkState.wasDownAfter, Option.any_eq_true, decide_eq_true_eq] at lost
      obtain ⟨t, last, after⟩ := lost
      have := earlier t last
      omega
    simp only [LinkState.wasDownAfter, down, Option.any_some, decide_eq_true_eq,
      Crossing.Overtaken, List.mem_append, List.mem_singleton]
    constructor
    · exact fun after => ⟨now, .inr rfl, after⟩
    · rintro ⟨t, inside | rfl, after⟩
      · exact before ⟨t, inside, after⟩
      · exact after

theorem Judged.tracks_course (judged : Judged net m) (located : Located net False m)
    (course : Moment.Course net m m') {l : LinkId} {id : Uuid} {sent : Nat}
    (flying : m'.Flying l id sent) : m'.state.Tracks l id sent := by
  cases course with
  | noted entries log few plain entered now lastDown before =>
      exact (judged.tracks l id sent (before l id sent flying)).of_same
        (by rw [log, crossing_plain l id _ plain]) (lastDown l)
  | falls l' log now down others before =>
      have tracks := judged.tracks l id sent (before l id sent flying)
      by_cases here : l = l'
      · subst here
        exact tracks.falls (judged.earlier l) log down
      · refine tracks.of_same ?_ (others l here)
        rw [log, crossing_concat]
        simp [LogEntry.cross, Ne.symm here]
  | sends l' id' n log waiting now lastDown before =>
      rcases before l id sent flying with flying | ⟨rfl, rfl, rfl⟩
      · obtain ⟨ledger, described, -⟩ := located
        have differs : id' ≠ id := by
          rintro rfl
          have there := described.place_of_pos waiting
          rcases flying.tally_pos with positive | positive
          all_goals simp [described.place_of_pos positive] at there
        refine (judged.tracks l id sent flying).of_same ?_ (lastDown l)
        rw [log, crossing_concat]
        simp [LogEntry.cross, differs]
      · refine ⟨⟨m.state.now, []⟩, ?_, rfl, ?_⟩
        · rw [log, crossing_concat]
          simp [LogEntry.cross]
        · simp only [LinkState.wasDownAfter, lastDown, Option.any_eq_true, decide_eq_true_eq,
            Crossing.Overtaken, List.not_mem_nil, false_and, exists_false, iff_false]
          rintro ⟨t, last, after⟩
          have := judged.earlier l t last
          omega
  | arrives l' id' sent' next log here held plain entered follows now lastDown before =>
      refine (judged.tracks l id sent (before l id sent flying)).of_same ?_ (lastDown l)
      rw [log, List.append_cons, crossing_concat, plain.cross, crossing_concat]
      rfl

theorem Judged.arrivals_course (judged : Judged net m) (course : Moment.Course net m m')
    {before after : List LogEntry} {l : LinkId} {id : Uuid}
    (split : m'.state.log = before ++ .arrived l id :: after) :
    ∃ c next rest, crossing l id before = some c ∧ after = next :: rest ∧
      Follows net l id c.Overtaken next := by
  obtain ⟨new, log, found⟩ : ∃ new, m'.state.log = m.state.log ++ new ∧
      ∀ skipped after, new = skipped ++ .arrived l id :: after → ∃ c next rest,
        crossing l id (m.state.log ++ skipped) = some c ∧ after = next :: rest ∧
          Follows net l id c.Overtaken next := by
    cases course with
    | noted entries log few plain =>
        refine ⟨entries, log, fun skipped after same => ?_⟩
        exact (plain (.arrived l id) (by simp [same])).elim
    | falls l' log =>
        refine ⟨_, log, fun skipped after same => ?_⟩
        simp [List.singleton_eq_append_iff] at same
    | sends l' id' n log =>
        refine ⟨_, log, fun skipped after same => ?_⟩
        simp [List.singleton_eq_append_iff] at same
    | arrives l' id' sent next log here held plain entered follows =>
        refine ⟨_, log, fun skipped after same => ?_⟩
        cases skipped with
        | nil =>
            simp only [List.nil_append, List.cons.injEq, LogEntry.arrived.injEq] at same
            obtain ⟨⟨rfl, rfl⟩, rfl⟩ := same
            obtain ⟨c, crossed, -, seen⟩ := judged.tracks l' id' sent here
            exact ⟨c, next, [], by simpa using crossed, rfl, by simpa [seen] using follows⟩
        | cons first skipped =>
            simp only [List.cons_append, List.cons.injEq, List.singleton_eq_append_iff] at same
            rcases same.2 with ⟨-, same⟩ | ⟨-, same⟩
            · obtain ⟨rfl, -⟩ := same
              exact plain.elim
            · simp at same
  rw [log] at split
  rcases split_append split with ⟨rest, earlier, rfl⟩ | ⟨skipped, same, rfl⟩
  · obtain ⟨c, next, rest, crossed, rfl, follows⟩ := judged.arrivals before l id rest earlier
    exact ⟨c, next, rest ++ new, crossed, rfl, follows⟩
  · exact found skipped after same

/-- A packet in hand is not finished. -/
theorem Located.unfinished {whole : Prop} (located : Located net whole m) {id : Uuid}
    (held : 0 < m.tally none id) {e : LogEntry} (member : e ∈ m.state.log) (o : Outcome) :
    e.outcome? ≠ some (id, o) := by
  obtain ⟨ledger, described, -⟩ := located
  intro finishes
  have finished : 0 < m.tally (some (.finished o)) id :=
    List.countP_pos_iff.mpr ⟨e, member, by simpa using finishes⟩
  have there := described.place_of_pos held
  simp [described.place_of_pos finished] at there

theorem Judged.ended_course (judged : Judged net m) (located : Located net False m)
    (course : Moment.Course net m m') {before after : List LogEntry} {e : LogEntry}
    (split : m'.state.log = before ++ e :: after) {id : Uuid} {o : Outcome}
    (finishes : e.outcome? = some (id, o)) : ∀ later ∈ after, later.entered? ≠ some id := by
  obtain ⟨new, log, held, last⟩ : ∃ new, m'.state.log = m.state.log ++ new ∧
      (∀ e ∈ new, ∀ id, e.entered? = some id → 0 < m.tally none id) ∧
      ∀ skipped after, new = skipped ++ e :: after → after = [] := by
    have short {new : List LogEntry} (few : new.length ≤ 1) (skipped after : List LogEntry)
        (same : new = skipped ++ e :: after) : after = [] := by
      rw [same, List.length_append, List.length_cons] at few
      exact List.eq_nil_of_length_eq_zero (by omega)
    cases course with
    | noted entries log few plain entered => exact ⟨entries, log, entered, short few⟩
    | falls l log => exact ⟨_, log, by simp [LogEntry.entered?], short (by simp)⟩
    | sends l id' n log => exact ⟨_, log, by simp [LogEntry.entered?], short (by simp)⟩
    | arrives l id' sent next log here held plain entered =>
        refine ⟨_, log, ?_, fun skipped after same => ?_⟩
        · intro e' member id' same
          rcases List.mem_pair.mp member with rfl | rfl
          · simp [LogEntry.entered?] at same
          · exact entered id' same ▸ held
        · cases skipped with
          | nil =>
              obtain ⟨rfl, -⟩ := List.cons.inj same
              simp [LogEntry.outcome?] at finishes
          | cons first skipped => exact short (by simp) skipped after (List.cons.inj same).2
  rw [log] at split
  rcases split_append split with ⟨rest, earlier, rfl⟩ | ⟨skipped, same, rfl⟩
  · intro later member entered
    rcases List.mem_append.mp member with old | fresh
    · exact judged.ended before e rest earlier id o finishes later old entered
    · exact located.unfinished (held later fresh id entered) (by simp [earlier]) o finishes
  · simp [last skipped after same]

theorem Judged.course (judged : Judged net m) (located : Located net False m)
    (course : Moment.Course net m m') : Judged net m' where
  earlier l t down := by
    cases course with
    | noted entries log few plain entered now lastDown =>
        exact (judged.earlier l t (lastDown l ▸ down)).trans now
    | falls l' log now last others =>
        by_cases here : l = l'
        · subst here
          rw [last, Option.some.injEq] at down
          omega
        · exact now ▸ judged.earlier l t (others l here ▸ down)
    | sends l' id n log waiting now lastDown => exact now ▸ judged.earlier l t (lastDown l ▸ down)
    | arrives l' id sent next log here held plain entered follows now lastDown =>
        exact now ▸ judged.earlier l t (lastDown l ▸ down)
  tracks l id sent flying := judged.tracks_course located course flying
  arrivals before l id after split := judged.arrivals_course course split
  ended before e after split id o finishes := judged.ended_course located course split finishes

/-- What holds throughout a run of packets with fresh ids. -/
theorem judged_of_run (fresh : Function.Injective net.uuids) {past : List (State × Action)}
    (run : Run (State.step net) (.initial net) past s) : Judged net ⟨s, []⟩ := by
  have kept := run.invariant
    (fun s => s.Competing net ∧ Located net False ⟨s, []⟩ ∧ Judged net ⟨s, []⟩)
    ⟨.initial, .initial, .initial⟩ fun s action s' holds taken =>
      State.step_kept taken
        (fun m => m.state.Competing net ∧ Located net False m ∧ Judged net m) holds
        fun _ _ _ ⟨competing, located, judged⟩ effect =>
          ⟨competing.effect effect, located.effect fresh competing effect False.elim,
            judged.course located (competing.course effect)⟩
  exact kept.2.2

/-- After its arrival, a packet whose link went down since it was sent is recorded as
lost and never enters a node again, and any other one is forwarded to the target node. -/
def Decided (net : InMemoryNetwork) (l : LinkId) (id : Uuid) (c : Crossing)
    (after : List LogEntry) : Prop :=
  (c.outages ≠ [] →
    (∃ t, after.head? = some (.recorded ⟨t, .packetLostInTransit ⟨id, l⟩⟩)) ∧
      ∀ e ∈ after, e.entered? ≠ some id) ∧
  (c.outages = [] → ∃ n, net.nodesByAddr (net.links l).target = some n ∧
    ∃ t number size dropped, after.head? =
      some (.recorded ⟨t, .packetInNode ⟨id, number, size, n, dropped⟩⟩))

namespace State

/-- In every run, an arrival is decided as it should be exactly when no outage of the
link came after the packet was sent, and its target address has a node, or some
outage came at a later instant. -/
theorem decided_iff (fresh : Function.Injective net.uuids) {past : List (State × Action)}
    (run : Run (State.step net) (.initial net) past s) {before after : List LogEntry}
    {l : LinkId} {id : Uuid} (arrival : s.log = before ++ .arrived l id :: after) :
    ∃ c, crossing l id before = some c ∧
      (Decided net l id c after ↔
        (c.outages = [] ∧ (net.nodesByAddr (net.links l).target).isSome) ∨ c.Overtaken) := by
  have judged := judged_of_run fresh run
  obtain ⟨c, next, rest, crossed, rfl, lost, kept⟩ := judged.arrivals before l id after arrival
  refine ⟨c, crossed, ?_⟩
  rw [Decided, List.head?_cons]
  by_cases overtaken : c.Overtaken
  · obtain ⟨t, rfl⟩ := lost overtaken
    have ⟨out, inside, _⟩ := overtaken
    have some : c.outages ≠ [] := List.ne_nil_of_mem inside
    refine iff_of_true ⟨fun _ => ⟨⟨t, rfl⟩, ?_⟩, fun none => absurd none some⟩ (.inr overtaken)
    intro e member
    rcases List.mem_cons.mp member with rfl | later
    · simp [LogEntry.entered?]
    · exact judged.ended (before ++ [.arrived l id]) _ rest (by simpa using arrival) id
        .lostInTransit rfl e later
  · have follows := kept overtaken
    by_cases none : c.outages = []
    · cases target : net.nodesByAddr (net.links l).target with
      | none => simp [none, Crossing.Overtaken]
      | some n =>
          rw [target] at follows
          obtain ⟨t, number, size, dropped, rfl⟩ := follows
          simp [none]
    · refine iff_of_false (fun decided => ?_) (by simp [none, overtaken])
      obtain ⟨⟨t, same⟩, -⟩ := decided.1 none
      obtain rfl := Option.some.inj same
      cases target : net.nodesByAddr (net.links l).target <;> simp [target] at follows

theorem decided_iff_twoHosts : ∃ past s before after,
    Run (State.step (twoHosts (some 1))) (.initial (twoHosts (some 1))) past s ∧
      s.log = before ++ .arrived 0 0 :: after ∧
      ∃ c, crossing 0 0 before = some c ∧ (Decided (twoHosts (some 1)) 0 0 c after ↔
        (c.outages = [] ∧
          ((twoHosts (some 1)).nodesByAddr ((twoHosts (some 1)).links 0).target).isSome) ∨
        c.Overtaken) := by
  obtain ⟨past, run, -⟩ := Run.of_isSome (State.step (twoHosts (some 1)))
    (.initial (twoHosts (some 1)))
    [.sendUdp 0 greeting 0, .processBuffer 0 [], .pollLink 0, .advance 10,
      .pollForwarder 0 [] []] rfl
  exact ⟨past, _, _, _, run, split_at (i := 3) rfl,
    decided_iff (fun _ _ same => same) run (split_at (i := 3) rfl)⟩

/-- A packet is sent over a link that goes down at the same instant; the packet is
forwarded nevertheless. -/
theorem forwarded_after_outage : ∃ past s,
    Run (State.step (twoHosts (some 1))) (.initial (twoHosts (some 1))) past s ∧
      s.log[5]? = some (.arrived 0 0) ∧ crossing 0 0 (s.log.take 5) = some ⟨0, [0]⟩ ∧
      (s.log.drop 6).head? = some (.recorded ⟨10, .packetInNode ⟨0, 0, 28, 1, false⟩⟩) ∧
      ¬ Decided (twoHosts (some 1)) 0 0 ⟨0, [0]⟩ (s.log.drop 6) := by
  obtain ⟨past, run, -⟩ := Run.of_isSome (State.step (twoHosts (some 1)))
    (.initial (twoHosts (some 1)))
    [.sendUdp 0 greeting 0, .processBuffer 0 [], .pollLink 0,
      .linkEvent ⟨0, some .down, none, none, none, none, none, none, none⟩, .advance 10,
      .pollForwarder 0 [] []] rfl
  refine ⟨past, _, run, rfl, rfl, rfl, fun decided => ?_⟩
  obtain ⟨⟨t, lost⟩, -⟩ := decided.1 (by simp)
  cases lost

end State

end Workbench.Network
