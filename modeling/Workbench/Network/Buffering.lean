import Mathlib.Data.List.Count
import Workbench.Network.Competition

/-! The outbound buffer of a node: its free space, and the packets that take the rest. -/

set_option autoImplicit false

namespace Workbench.Network

open Workbench.Library Workbench.Tracing

def LogEntry.reservation? (n : NodeId) : LogEntry → Option InTransitData
  | .reserved node data => if node = n then some data else none
  | _ => none

def Dispatch.buffered? (n : NodeId) (d : Dispatch) : Option InTransitData :=
  if d.node = n then some d.packet.data else none

def Dispatch.departure? (n : NodeId) (d : Dispatch) : Option InTransitData :=
  if d.node = n ∧ d.acts ≠ [] then some d.packet.data else none

def totalSize (packets : List InTransitData) : Nat := (packets.map (·.size)).sum

@[simp] theorem totalSize_nil : totalSize [] = 0 := rfl

@[simp] theorem totalSize_cons (data : InTransitData) (packets : List InTransitData) :
    totalSize (data :: packets) = data.size + totalSize packets := by
  simp [totalSize]

theorem totalSize_append (first second : List InTransitData) :
    totalSize (first ++ second) = totalSize first + totalSize second := by
  simp [totalSize]

theorem totalSize_perm {first second : List InTransitData} (perm : first.Perm second) :
    totalSize first = totalSize second :=
  (perm.map _).sum_eq

namespace State

/-- The packets that reserved space in a node's outbound buffer. -/
def reservations (s : State) (n : NodeId) : List InTransitData :=
  s.log.filterMap (LogEntry.reservation? n)

/-- The packets that a link took from a node: sent, or dropped because of a buffer clear. -/
def departures (s : State) (n : NodeId) : List InTransitData :=
  s.dispatches.filterMap (Dispatch.departure? n)

/-- The packets that reserved space and have neither been sent nor dropped because
of a buffer clear. -/
def outstanding (s : State) (n : NodeId) : List InTransitData :=
  (s.reservations n).diff (s.departures n)

/-- The free space and the outstanding packets make up the buffer. -/
def Balanced (net : InMemoryNetwork) (s : State) (n : NodeId) : Prop :=
  (s.nodes n).outboundBuffer.availableCapacityBytes + totalSize (s.outstanding n) =
    (net.nodes n).bufferSizeBytes

/-- The packets that got into a node's outbound channel, but for those that ended with it. -/
def buffered (s : State) (n : NodeId) : List InTransitData :=
  (s.nodes n).outbound.messages.map (·.data) ++ s.dispatches.filterMap (Dispatch.buffered? n)

/-- What got into the channel had reserved space before. -/
def Accounted (s : State) : Prop := ∀ n, (s.buffered n).Subperm (s.reservations n)

theorem departures_sublist (n : NodeId) (ds : List Dispatch) :
    (ds.filterMap (Dispatch.departure? n)).Sublist (ds.filterMap (Dispatch.buffered? n)) := by
  induction ds with
  | nil => exact .slnil
  | cons d ds ih =>
      simp only [List.filterMap_cons, Dispatch.departure?, Dispatch.buffered?]
      by_cases here : d.node = n
      · by_cases unacted : d.acts = []
        · simpa [here, unacted] using ih.cons d.packet.data
        · simpa [here, unacted] using ih
      · simpa [here] using ih

theorem Accounted.departures {s : State} (accounted : s.Accounted) (n : NodeId) :
    (s.departures n).Subperm (s.reservations n) :=
  ((departures_sublist n s.dispatches).subperm.trans
    (List.sublist_append_right _ _).subperm).trans (accounted n)

/-- The balance in terms of all the packets that came and went. -/
theorem Accounted.balanced_eq {net : InMemoryNetwork} {s : State} (accounted : s.Accounted)
    (n : NodeId) : s.Balanced net n ↔
      (s.nodes n).outboundBuffer.availableCapacityBytes + totalSize (s.reservations n) =
        (net.nodes n).bufferSizeBytes + totalSize (s.departures n) := by
  have parts := List.subperm_append_diff_self_of_count_le
    (List.subperm_ext_iff.mp (accounted.departures n))
  have total := totalSize_perm parts
  rw [totalSize_append] at total
  rw [Balanced, outstanding]
  omega

/-- How the books of a node go from one state to another. -/
structure Posts (s s' : State) (n : NodeId) (taken left : List InTransitData) : Prop where
  reservations : (s'.reservations n).Perm (taken ++ s.reservations n)
  departures : (s'.departures n).Perm (left ++ s.departures n)
  buffered : (s'.buffered n).Subperm (taken ++ s.buffered n)

theorem Accounted.posts {s s' : State} (accounted : s.Accounted)
    (posts : ∀ n, ∃ taken left, Posts s s' n taken left) : s'.Accounted := by
  intro n
  obtain ⟨taken, left, posts⟩ := posts n
  refine posts.buffered.trans (.trans ?_ posts.reservations.symm.subperm)
  exact (List.subperm_append_left taken).mpr (accounted n)

/-- Space is taken by what comes and given back by what leaves. -/
def Settles (s s' : State) (n : NodeId) (taken left : List InTransitData) : Prop :=
  (s'.nodes n).outboundBuffer.availableCapacityBytes + totalSize taken =
    (s.nodes n).outboundBuffer.availableCapacityBytes + totalSize left

theorem Posts.settles_iff {net : InMemoryNetwork} {s s' : State} {n : NodeId}
    {taken left : List InTransitData} (posts : Posts s s' n taken left) (accounted : s.Accounted)
    (accounted' : s'.Accounted) (balanced : s.Balanced net n) :
    s'.Balanced net n ↔ Settles s s' n taken left := by
  rw [accounted.balanced_eq] at balanced
  have came := totalSize_perm posts.reservations
  have went := totalSize_perm posts.departures
  rw [totalSize_append] at came went
  rw [accounted'.balanced_eq, Settles]
  omega

/-! What the effects do to the books. -/

/-- The books of all nodes stay the same. -/
structure SameBooks (s s' : State) : Prop where
  buffer : ∀ n, (s'.nodes n).outboundBuffer = (s.nodes n).outboundBuffer
  reservations : ∀ n, s'.reservations n = s.reservations n
  departures : ∀ n, s'.departures n = s.departures n
  buffered : ∀ n, s'.buffered n = s.buffered n

theorem SameBooks.trans {s s' s'' : State} (first : SameBooks s s') (second : SameBooks s' s'') :
    SameBooks s s'' :=
  ⟨fun n => (second.buffer n).trans (first.buffer n),
    fun n => (second.reservations n).trans (first.reservations n),
    fun n => (second.departures n).trans (first.departures n),
    fun n => (second.buffered n).trans (first.buffered n)⟩

theorem SameBooks.note (s : State) {entry : LogEntry}
    (unreserved : ∀ n, entry.reservation? n = none) : SameBooks s (s.note entry) := by
  refine ⟨fun _ => rfl, fun n => ?_, fun _ => rfl, fun _ => rfl⟩
  simp [State.reservations, State.note, unreserved n]

theorem SameBooks.record (s : State) (kind : SimulationStepKind) : SameBooks s (s.record kind) :=
  .note s fun _ => rfl

theorem SameBooks.takeUp (s : State) (data : InTransitData) (stage : Stage) :
    SameBooks s (s.takeUp data stage) := by
  cases stage with
  | flying l sent => exact .note s fun _ => rfl
  | fresh | inside n => exact ⟨fun _ => rfl, fun _ => rfl, fun _ => rfl, fun _ => rfl⟩

theorem SameBooks.modifyNode (s : State) (n : NodeId) (change : NodeState → NodeState)
    (buffer : (change (s.nodes n)).outboundBuffer = (s.nodes n).outboundBuffer)
    (outbound : (change (s.nodes n)).outbound = (s.nodes n).outbound) :
    SameBooks s (s.modifyNode n change) := by
  refine ⟨fun n' => ?_, fun _ => rfl, fun _ => rfl, fun n' => ?_⟩
  all_goals by_cases same : n' = n
  · subst same
    simpa
  · rw [modifyNode_of_ne _ _ same]
  · subst same
    simp [State.buffered, outbound, State.modifyNode]
  · rw [State.buffered, State.buffered, modifyNode_of_ne _ _ same]
    rfl

theorem SameBooks.of_fields {s s' : State} (nodes : s'.nodes = s.nodes) (log : s'.log = s.log)
    (dispatches : s'.dispatches = s.dispatches) : SameBooks s s' := by
  refine ⟨fun n => ?_, fun n => ?_, fun n => ?_, fun n => ?_⟩
  · rw [nodes]
  · rw [State.reservations, log, State.reservations]
  · rw [State.departures, dispatches, State.departures]
  · rw [State.buffered, nodes, dispatches, State.buffered]

/-- The books of a node are settled, or something was dropped because of a buffer clear. -/
def Settled (licence : Licence) (s s' : State) (n : NodeId) : Prop :=
  ∃ taken left, Posts s s' n taken left ∧ (Settles s s' n taken left ∨ licence.clearing)

variable {net : InMemoryNetwork} {licence : Licence} {s s' t : State}

theorem SameBooks.settled (same : SameBooks s s') (n : NodeId) : Settled licence s s' n := by
  refine ⟨[], [], ⟨?_, ?_, ?_⟩, .inl ?_⟩
  · rw [same.reservations, List.nil_append]
  · rw [same.departures, List.nil_append]
  · rw [same.buffered, List.nil_append]
  · rw [Settles, same.buffer]

/-- A node's buffer takes a packet in. -/
theorem reserve_settled {n : NodeId} {data : InTransitData} {outboundBuffer : OutboundBuffer}
    (room : (s.nodes n).outboundBuffer.reserve data.size = some outboundBuffer)
    (outbound : Channel BufferedPacket) (came : List InTransitData)
    (queued : (outbound.messages.map (·.data)).Perm
      (came ++ (s.nodes n).outbound.messages.map (·.data)))
    (subset : came.Sublist [data])
    (nodes : s'.nodes n = { s.nodes n with outboundBuffer, outbound })
    (others : ∀ n', n' ≠ n → s'.nodes n' = s.nodes n')
    (log : s'.log = s.log ++ [.reserved n data]) (dispatches : s'.dispatches = s.dispatches)
    (n' : NodeId) : Settled licence s s' n' := by
  have departures : s'.departures n' = s.departures n' := by
    rw [State.departures, dispatches, State.departures]
  by_cases same : n' = n
  · subst same
    refine ⟨[data], [], ⟨?_, ?_, ?_⟩, .inl ?_⟩
    · simp [State.reservations, log, LogEntry.reservation?]
    · rw [departures, List.nil_append]
    · rw [State.buffered, State.buffered, nodes, dispatches, ← List.append_assoc]
      refine (queued.append_right _).subperm.trans ?_
      exact ((subset.append_right _).append_right _).subperm
    · rw [Settles, nodes]
      simpa using OutboundBuffer.reserve_some room
  · refine ⟨[], [], ⟨?_, ?_, ?_⟩, .inl ?_⟩
    · simp [State.reservations, log, LogEntry.reservation?, Ne.symm same]
    · rw [departures, List.nil_append]
    · rw [State.buffered, others n' same, dispatches, List.nil_append, State.buffered]
    · rw [Settles, others n' same]

/-- A link handles a copy that it took: with an act, the packet leaves its node. -/
theorem Takes.handled_books {l : LinkId} {k : OutgoingPacket} {u : State}
    (takes : s.Takes t l k) (competing : s.Competing net)
    (unhandled : s.handled k.handled = false) (acts : List (LinkId × Act))
    (dispatches : u.dispatches = t.dispatches.modify k.handled fun d =>
      { d with handled := true, acts := d.acts ++ acts }) (n : NodeId) :
    (u.departures n).Perm
      ((if acts ≠ [] ∧ k.srcNode = n then [k.data] else []) ++ s.departures n) ∧
    (u.dispatches.filterMap (Dispatch.buffered? n)).Perm
      (s.dispatches.filterMap (Dispatch.buffered? n)) := by
  obtain ⟨k₀, same, copies⟩ := takes.copies
  obtain ⟨-, node, data, -, flag⟩ := same.fields
  obtain ⟨d, found, copy⟩ := competing.copies l k₀ (copies ▸ List.mem_cons_self)
  obtain ⟨-, node', data', -⟩ := copy
  rw [← flag] at found
  have unacted : d.acts = [] :=
    (competing.fair k.handled d found).unhandled (by simpa [handled, found] using unhandled)
  rw [takes.works.dispatches] at dispatches
  obtain ⟨rest, before, after⟩ := modify_perm
    (fun d => { d with handled := true, acts := d.acts ++ acts }) found
  constructor
  · rw [State.departures, State.departures, dispatches]
    refine (after.filterMap _).trans (.trans ?_ (((before.filterMap _).symm).append_left _))
    simp only [List.filterMap_cons, Dispatch.departure?, unacted, List.nil_append, node.trans node',
      data.trans data', ne_eq, not_true_eq_false, and_false, if_false]
    by_cases acted : acts ≠ [] ∧ d.node = n
    · simp [acted.1, acted.2]
    · have none : ¬ (d.node = n ∧ ¬ acts = []) := fun both => acted both.symm
      simp [acted, none]
  · rw [dispatches]
    refine (after.filterMap _).trans (.trans ?_ ((before.filterMap _).symm))
    simp only [List.filterMap_cons, Dispatch.buffered?]
    exact .refl _

/-- A link sends a copy that it took, which gives the space back. -/
theorem Takes.send_settled {l : LinkId} {k : OutgoingPacket} (takes : s.Takes t l k)
    (competing : s.Competing net) (unhandled : s.handled k.handled = false)
    (data : InTransitData) (pacer : PacketPacer) (n : NodeId) :
    Settled licence s (((t.markHandled k).carry l k data pacer).noteAct k.handled l .sent) n := by
  generalize sent : ((t.markHandled k).carry l k data pacer).noteAct k.handled l .sent = u
  have dispatches : u.dispatches = t.dispatches.modify k.handled fun d =>
      { d with handled := true, acts := d.acts ++ [(l, .sent)] } := by
    rw [← sent]
    exact List.modify_modify_eq _ _ k.handled t.dispatches
  obtain ⟨left, kept⟩ := takes.handled_books competing unhandled _ dispatches n
  have log : u.log = s.log ++ [.recorded ⟨t.now, .packetInTransit ⟨data.id, k.srcNode, l⟩⟩] := by
    rw [← sent, ← takes.works.log]
    rfl
  have nodes : u.nodes = Function.update s.nodes k.srcNode { s.nodes k.srcNode with
      outboundBuffer := (s.nodes k.srcNode).outboundBuffer.release k.data.size } := by
    rw [← sent, ← takes.works.nodes]
    rfl
  refine ⟨[], _, ⟨?_, left, ?_⟩, .inl ?_⟩
  · simp [State.reservations, log, LogEntry.reservation?, List.filterMap_cons]
  · rw [State.buffered, State.buffered, nodes, List.nil_append]
    by_cases same : n = k.srcNode
    · subst same
      simpa using (kept.append_left _).subperm
    · simpa [Function.update_of_ne same] using (kept.append_left _).subperm
  · rw [Settles, nodes]
    by_cases same : n = k.srcNode
    · subst same
      simp [OutboundBuffer.release]
    · simp [Function.update_of_ne same, Ne.symm same]

/-- A link drops a copy that it took, which leaves the space taken. -/
theorem Takes.clear_posts {l : LinkId} {k : OutgoingPacket} (takes : s.Takes t l k)
    (competing : s.Competing net) (unhandled : s.handled k.handled = false) (n : NodeId) :
    Posts s (t.dropCleared l k) n [] (if k.srcNode = n then [k.data] else []) := by
  have dispatches : (t.dropCleared l k).dispatches = t.dispatches.modify k.handled fun d =>
      { d with handled := true, acts := d.acts ++ [(l, .cleared)] } :=
    List.modify_modify_eq _ _ k.handled t.dispatches
  obtain ⟨left, kept⟩ := takes.handled_books competing unhandled _ dispatches n
  refine ⟨?_, by simpa using left, ?_⟩
  · simp [State.reservations, dropCleared, trackDroppedByBufferClearEvent, trackDropped, record,
      note, noteAct, markHandled, modifyDispatch, takes.works.log, LogEntry.reservation?,
      List.filterMap_cons]
  · have nodes : (t.dropCleared l k).nodes = s.nodes := takes.works.nodes
    rw [State.buffered, State.buffered, nodes, List.nil_append]
    exact (kept.append_left _).subperm

/-- A dispatched packet goes from the channel to its links. -/
theorem dispatch_settled {n n' : NodeId} {packet : BufferedPacket} {rest : List BufferedPacket}
    {links : List LinkId} (queued : (s.nodes n).outbound.messages = packet :: rest)
    (pushed : Pushed n packet s.dispatches.length links
      ((s.takeBuffered n rest).openDispatch n packet links) s') : Settled licence s s' n' := by
  have dispatches : s'.dispatches = s.dispatches ++ [⟨n, packet, links, false, []⟩] :=
    pushed.dispatches
  have nodes : s'.nodes = (s.takeBuffered n rest).nodes := pushed.nodes
  have log : s'.log = s.log := pushed.log
  refine ⟨[], [], ⟨?_, ?_, ?_⟩, .inl ?_⟩
  · rw [State.reservations, log, List.nil_append, State.reservations]
  · simp [State.departures, dispatches, Dispatch.departure?]
  · rw [State.buffered, State.buffered, nodes, dispatches, List.nil_append, List.filterMap_append]
    by_cases same : n' = n
    · subst same
      rw [queued]
      simpa [takeBuffered, Dispatch.buffered?, ← List.append_assoc] using
        (List.perm_append_singleton packet.data _).subperm
    · simp [takeBuffered, modifyNode_of_ne _ _ same, Dispatch.buffered?, Ne.symm same, List.Subperm.refl]
  · rw [Settles, nodes]
    by_cases same : n' = n
    · subst same
      simp [takeBuffered]
    · simp [takeBuffered, modifyNode_of_ne _ _ same]

/-- Every effect settles the books of every node. -/
theorem Competing.settled {m m' : Moment} (competing : m.state.Competing net)
    (effect : Effect net licence m m') (n : NodeId) : Settled licence m.state m'.state n := by
  have still (same : SameBooks m.state m'.state) : Settled licence m.state m'.state n :=
    same.settled n
  cases effect with
  | @quiet s s' hand quiet =>
      refine still ⟨quiet.outboundBuffer, fun n => ?_, fun n => ?_, fun n => ?_⟩
      · exact congrArg (List.filterMap _) quiet.log
      · exact congrArg (List.filterMap _) quiet.dispatches
      · simp only [State.buffered, quiet.outbound, quiet.dispatches]
  | enter s n' data stage => exact still ((SameBooks.takeUp s data stage).trans (.record _ _))
  | refuse s n' data stage => exact still ((SameBooks.takeUp s data stage).trans (.record _ _))
  | lose s l data sent =>
      exact still ((SameBooks.takeUp s data (.flying l sent)).trans (.record _ _))
  | strand s l data sent =>
      exact still ((SameBooks.takeUp s data (.flying l sent)).trans (.note _ fun _ => rfl))
  | drop s n' data reason => exact still (.record s _)
  | duplicate s n' data => exact still (.record s _)
  | event s e => exact still (.record s _)
  | read s n' data => exact still (.record s _)
  | check s n' data => exact still (.note s fun _ => rfl)
  | outage s l hand up =>
      have marked : SameBooks s (s.note (.wentDown l s.now)) := .note s fun _ => rfl
      exact still ⟨marked.buffer, marked.reservations, marked.departures, marked.buffered⟩
  | deliver s n' data => exact still (.modifyNode s n' (·.deliverPacket s.now data) rfl rfl)
  | fetch s n' port delivered queue =>
      exact still (.modifyNode s n' (fun node => { node with
        udpEndpoints := Function.update node.udpEndpoints port queue }) rfl rfl)
  | @buffer s n' data since hand outboundBuffer outbound room sent =>
      -- What the packet reserves is booked together with its place in the channel.
      refine reserve_settled room outbound [data] ?_ (.refl _) ?_ (fun n differs => ?_) ?_ ?_ n
      · rw [Channel.unboundedSend_some sent]
        simp
      · simp
      · simp [modifyNode_of_ne _ _ differs]
      · rfl
      · rfl
  | overbook s n' data hand room lost =>
      -- The reservation is made, though nothing comes to wait.
      refine reserve_settled room (s.nodes n').outbound [] (.refl _) (List.nil_sublist _) ?_
        (fun n differs => ?_) ?_ ?_ n
      · simp
      · simp [modifyNode_of_ne _ _ differs]
      · rfl
      · rfl
  | dispatch n' packet rest links hand member queued some pushed =>
      exact dispatch_settled queued pushed
  | endBuffer s n' hand lost =>
      refine ⟨[], [], ⟨.refl _, .refl _, ?_⟩, .inl ?_⟩
      · by_cases same : n = n'
        · subst same
          simpa [State.buffered, endBufferProcessor, Channel.dropReceiver, modifyNode] using
            (List.sublist_append_right _ _).subperm
        · rw [State.buffered, endBufferProcessor, modifyNode_of_ne _ _ same]
          exact .refl _
      · by_cases same : n = n'
        · subst same
          simp [Settles, endBufferProcessor]
        · simp [Settles, endBufferProcessor, modifyNode_of_ne _ _ same]
  | discard hand takes handled =>
      exact still (.of_fields takes.works.nodes takes.works.log takes.works.dispatches)
  | clear hand takes unhandled cleared licensed =>
      exact ⟨_, _, takes.clear_posts competing unhandled n, .inr licensed⟩
  | send data pacer hand member takes unhandled kept up marked =>
      exact takes.send_settled competing unhandled data pacer n
  | taskPanics l hand works alive lost =>
      exact still (.of_fields works.nodes works.log works.dispatches)
  | @sendPanics s t l k hand takes unhandled lost =>
      have dispatches : ((t.markHandled k).endQueueTask l).dispatches =
          t.dispatches.modify k.handled fun d => { d with handled := true, acts := d.acts ++ [] } := by
        simp [endQueueTask, modifyLink, markHandled, modifyDispatch]
      obtain ⟨left, kept⟩ := takes.handled_books competing unhandled [] dispatches n
      have nodes : ((t.markHandled k).endQueueTask l).nodes = s.nodes := takes.works.nodes
      refine ⟨[], [], ⟨?_, by simpa using left, ?_⟩, .inl ?_⟩
      · exact .of_eq (congrArg (List.filterMap _) takes.works.log)
      · rw [State.buffered, State.buffered, nodes, List.nil_append]
        exact (kept.append_left _).subperm
      · rw [Settles, nodes]
  | _ => exact still ⟨fun _ => rfl, fun _ => rfl, fun _ => rfl, fun _ => rfl⟩

/-! Steps and runs. -/

/-- What the balance of a state rests on. -/
def Booked (net : InMemoryNetwork) (s : State) : Prop := s.Competing net ∧ s.Accounted

theorem Booked.effect {m m' : Moment} (booked : m.state.Booked net)
    (effect : Effect net licence m m') : m'.state.Booked net := by
  refine ⟨booked.1.effect effect, booked.2.posts fun n => ?_⟩
  obtain ⟨taken, left, posts, -⟩ := booked.1.settled effect n
  exact ⟨taken, left, posts⟩

theorem Booked.initial : (State.initial net).Booked net :=
  ⟨.initial, fun _ => List.Subperm.refl _⟩

theorem Booked.step {action : Action} (booked : s.Booked net)
    (taken : s.step net action = some s') : s'.Booked net :=
  step_kept taken (fun m => m.state.Booked net) booked fun _ _ _ booked effect => booked.effect effect

/-- A step without a drop because of a buffer clear keeps every node balanced. -/
theorem Booked.step_balanced {action : Action} (booked : s.Booked net)
    (balanced : ∀ n, s.Balanced net n) (taken : s.step net action = some s')
    (kept : ¬ s.Clears net action) (n : NodeId) : s'.Balanced net n := by
  let licence : Licence := ⟨action.slots, True, False⟩
  have effects : Effects net licence ⟨s, []⟩ ⟨s', []⟩ :=
    step_effects taken action.reads_slots (fun _ => trivial) kept
  have final := effects.invariant (fun m => m.state.Booked net ∧ ∀ n, m.state.Balanced net n)
    ⟨booked, balanced⟩ fun _ _ ⟨booked, balanced⟩ effect => by
      refine ⟨booked.effect effect, fun n => ?_⟩
      obtain ⟨taken, left, posts, settles⟩ := booked.1.settled effect n
      exact (posts.settles_iff booked.2 (booked.effect effect).2 (balanced n)).mpr
        (settles.resolve_right id)
  exact final.2 n

/-- A step that drops a packet because of a buffer clear. -/
theorem Clears.step {action : Action} (clears : s.Clears net action)
    (taken : s.step net action = some s') :
    ∃ l t k, s.Takes t l k ∧ s.handled k.handled = false ∧ s' = t.dropCleared l k := by
  obtain ⟨l, t, k, rfl, resumed, opened, cleared⟩ := clears
  have resumes := resume_resumes net s l
  rw [resumed] at resumes
  cases resumes with
  | ready takes =>
      refine ⟨l, t, k, takes, opened, ?_⟩
      have works := takes.works
      have still : t.handled k.handled = false := by
        rw [← opened, State.handled, State.handled, works.dispatches]
      have here : (t.modifyDispatch k.handled ({ · with handled := true })).clearedFromBuffer k =
          true := by
        rw [← cleared]
        simp only [clearedFromBuffer, modifyDispatch, works.nodes]
      simp only [State.step, pollLink, resumed, handle, still] at taken
      split at taken
      · simp at taken
      · rw [if_neg (by simp)] at taken
        exact (Option.some.inj taken).symm

/-- The space of a packet that was dropped because of a buffer clear is lost. -/
theorem Booked.step_unbalanced {action : Action} (booked : s.Booked net)
    (balanced : ∀ n, s.Balanced net n) (taken : s.step net action = some s')
    (clears : s.Clears net action) : ∃ n, ¬ s'.Balanced net n := by
  obtain ⟨l, t, k, takes, opened, rfl⟩ := clears.step taken
  have posts := takes.clear_posts booked.1 opened k.srcNode
  refine ⟨k.srcNode, fun still => ?_⟩
  have settles := (posts.settles_iff booked.2 (booked.step taken).2 (balanced _)).mp still
  have nodes : (t.dropCleared l k).nodes = s.nodes := takes.works.nodes
  have positive := k.data.transmit.packetSize_pos
  rw [Settles, nodes] at settles
  simp [InTransitData.size] at settles
  omega

/-- Throughout a run, free space and outstanding packets make up the buffer of every
node exactly when no packet is ever dropped because of a buffer clear. -/
theorem balanced_iff {past : List (State × Action)}
    (run : Run (State.step net) (.initial net) past s) :
    (∀ state ∈ visited past s, ∀ n, state.Balanced net n) ↔
      ∀ move ∈ past, ¬ move.1.Clears net move.2 := by
  refine run.everywhere_iff (·.Booked net) (fun state => ∀ n, state.Balanced net n)
    (fun state action => ¬ state.Clears net action) .initial (fun n => ?_)
    (fun _ _ _ booked taken => booked.step taken)
    fun state action state' booked balanced taken => ⟨fun still clears => ?_, fun kept n => ?_⟩
  · simp [Balanced, outstanding, reservations, departures, State.initial, NodeState.new,
      OutboundBuffer.new]
  · obtain ⟨n, unbalanced⟩ := booked.step_unbalanced balanced taken clears
    exact unbalanced (still n)
  · exact booked.step_balanced balanced taken kept n

/-- The link sends the packet, which frees its space, and the other one lets go of its copy. -/
theorem balanced_iff_twoHosts : ∃ past s,
    Run (State.step (twoHosts (some 1))) (.initial (twoHosts (some 1))) past s ∧
      past.reverse.map Prod.snd = [.sendUdp 0 greeting 0, .processBuffer 0 [], .pollLink 0, .pollLink 1] ∧
      (s.links 0).inTransit.queue ≠ [] ∧ ∀ state ∈ visited past s, ∀ n,
        state.Balanced (twoHosts (some 1)) n := by
  let actions : List Action := [.sendUdp 0 greeting 0, .processBuffer 0 [], .pollLink 0, .pollLink 1]
  obtain ⟨s, reached, holds⟩ := (Option.any_eq_true _ _).mp <|
    show (attains (State.step (twoHosts (some 1))) (.initial (twoHosts (some 1))) actions).any
      (fun s => decide <|
        (∀ move ∈ (moves (State.step (twoHosts (some 1))) (.initial (twoHosts (some 1))) actions).reverse,
          ¬ move.1.Clears (twoHosts (some 1)) move.2) ∧ (s.links 0).inTransit.queue ≠ []) = true
      by decide +kernel
  obtain ⟨kept, sent⟩ := of_decide_eq_true holds
  refine ⟨_, s, .of_moves reached, ?_, sent, (balanced_iff (.of_moves reached)).mpr kept⟩
  rw [List.reverse_reverse, moves_actions reached]

/-- A packet is dropped because of a buffer clear, and 28 of the 100 bytes stay taken
though nothing is outstanding. -/
theorem leaked_by_clear : ∃ past s,
    Run (State.step (twoHosts (some 1))) (.initial (twoHosts (some 1))) past s ∧
      s.outstanding 0 = [] ∧ (s.nodes 0).outboundBuffer.availableCapacityBytes = 72 ∧
      ¬ s.Balanced (twoHosts (some 1)) 0 := by
  obtain ⟨past, run, -⟩ := Run.of_isSome (State.step (twoHosts (some 1)))
    (.initial (twoHosts (some 1)))
    [.sendUdp 0 greeting 0, .processBuffer 0 [], .advance 1, .nodeEvent ⟨0, none, true⟩,
      .pollLink 0, .pollLink 1] rfl
  refine ⟨past, _, run, rfl, rfl, ?_⟩
  unfold Balanced
  decide

end State

end Workbench.Network
