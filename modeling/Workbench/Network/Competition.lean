import Workbench.Library.Machine
import Workbench.Network.Decomposition

/-! The links that compete for a packet.

The buffer processor gives a copy of a packet to each of its candidate links. At
most one of the copies is acted on, and as long as none is, every link has one. -/

set_option autoImplicit false

namespace Workbench.Network

open Workbench.Library

/-- A copy of a dispatched packet, in the hands of one of its links. -/
def OutgoingPacket.CopyOf (k : OutgoingPacket) (l : LinkId) (d : Dispatch) : Prop :=
  l ∈ d.links ∧ k.srcNode = d.node ∧ k.data = d.packet.data ∧
    k.inNodeSince = d.packet.inNodeSince

theorem OutgoingPacket.CopyOf.same {k k' : OutgoingPacket} {l : LinkId} {d : Dispatch}
    (copy : k.CopyOf l d) (same : k'.SameCopy k) : k'.CopyOf l d := by
  obtain ⟨since, node, data, -, -⟩ := same.fields
  exact ⟨copy.1, node.trans copy.2.1, data.trans copy.2.2.1, since.trans copy.2.2.2⟩

/-- What is never true of a dispatch whose links all live: that two copies are acted
on, that a copy is missing before, or that the packet counts as handled without an act. -/
structure Dispatch.Fair (s : State) (i : Nat) (d : Dispatch) : Prop where
  acts : d.acts.length ≤ 1
  actors : ∀ act ∈ d.acts, act.1 ∈ d.links
  unhandled : d.handled = false → d.acts = []
  abandoned : d.handled = true → d.acts = [] → ∃ l ∈ d.links, (s.links l).task = .panicked
  copies : d.handled = false → (∀ l ∈ d.links, (s.links l).task ≠ .panicked) →
    ∀ l ∈ d.links, ∃ k ∈ (s.links l).copies, k.handled = i

/-- The competition for the packets that were dispatched. -/
structure State.Competing (s : State) (net : InMemoryNetwork) : Prop where
  copies : ∀ l, ∀ k ∈ (s.links l).copies, ∃ d, s.dispatches[k.handled]? = some d ∧ k.CopyOf l d
  fair : ∀ (i : Nat) (d : Dispatch), s.dispatches[i]? = some d → d.Fair s i
  dispatched : ∀ d ∈ s.dispatches, d.node ∈ net.nodeIds ∧ d.links ≠ []
  receiver : ∀ l, (s.links l).outgoingQueue.receiverAlive = false → (s.links l).task = .panicked
  panicked : ∀ l, (s.links l).task = .panicked → s.panicked = true

namespace State

variable {net : InMemoryNetwork} {licence : Licence} {s s' t : State}

theorem Competing.initial : (State.initial net).Competing net := by
  refine ⟨fun l k member => ?_, fun i d found => ?_, fun d member => ?_, fun l gone => ?_,
    fun l gone => ?_⟩
  · simp [initial_copies] at member
  · simp [State.initial] at found
  · simp [State.initial] at member
  · simp [State.initial, LinkState.new, Channel.unbounded] at gone
  · simp [State.initial, LinkState.new] at gone

/-- The queues and tasks of the links, and what they compete for, stay the same. -/
structure SameQueues (s s' : State) : Prop where
  dispatches : s'.dispatches = s.dispatches
  queue : ∀ l, (s'.links l).outgoingQueue = (s.links l).outgoingQueue
  task : ∀ l, (s'.links l).task = (s.links l).task
  panicked : s.panicked = true → s'.panicked = true

theorem SameQueues.modifyLink (s : State) (l : LinkId) (change : LinkState → LinkState)
    (queue : (change (s.links l)).outgoingQueue = (s.links l).outgoingQueue)
    (task : (change (s.links l)).task = (s.links l).task) :
    s.SameQueues (s.modifyLink l change) := by
  refine ⟨rfl, fun l' => ?_, fun l' => ?_, id⟩
  all_goals by_cases same : l' = l
  all_goals try subst same
  · simpa
  · rw [modifyLink_of_ne _ _ same]
  · simpa
  · rw [modifyLink_of_ne _ _ same]

theorem SameQueues.copies (same : s.SameQueues s') (l : LinkId) :
    (s'.links l).copies = (s.links l).copies := by
  rw [LinkState.copies, LinkState.copies, same.queue l, same.task l]

theorem Competing.congr (competing : s.Competing net) (same : s.SameQueues s') :
    s'.Competing net := by
  refine ⟨fun l k member => ?_, fun i d found => ?_, fun d member => ?_, fun l gone => ?_,
    fun l gone => same.panicked (competing.panicked l (same.task l ▸ gone))⟩
  · rw [same.dispatches]
    exact competing.copies l k (same.copies l ▸ member)
  · rw [same.dispatches] at found
    have fair := competing.fair i d found
    refine ⟨fair.acts, fair.actors, fair.unhandled, ?_, ?_⟩
    · simpa only [same.task] using fair.abandoned
    · simpa only [same.task, same.copies] using fair.copies
  · exact competing.dispatched d (same.dispatches ▸ member)
  · rw [same.task]
    exact competing.receiver l (same.queue l ▸ gone)

theorem Competing.quiet (competing : s.Competing net) (quiet : s.Quiet s') :
    s'.Competing net := by
  refine ⟨fun l k member => ?_, fun i d found => ?_, fun d member => ?_, fun l gone => ?_,
    fun l gone => ?_⟩
  · obtain ⟨k₀, before, same⟩ := quiet.copy_before member
    obtain ⟨d, found, copy⟩ := competing.copies l k₀ before
    obtain ⟨-, -, -, -, flag⟩ := same.fields
    exact ⟨d, by rw [flag, quiet.dispatches]; exact found, copy.same same⟩
  · rw [quiet.dispatches] at found
    have fair := competing.fair i d found
    refine ⟨fair.acts, fair.actors, fair.unhandled, ?_, fun open' alive l member => ?_⟩
    · simpa only [quiet.alive] using fair.abandoned
    · obtain ⟨k, before, flag⟩ := fair.copies open' (by simpa only [ne_eq, quiet.alive] using alive)
        l member
      obtain ⟨k', after, same⟩ := quiet.copy_after before
      exact ⟨k', after, same.fields.2.2.2.2.trans flag⟩
  · exact competing.dispatched d (quiet.dispatches ▸ member)
  · exact (quiet.alive l).mpr (competing.receiver l (quiet.receiver l ▸ gone))
  · rw [quiet.panicked]
    exact competing.panicked l ((quiet.alive l).mp gone)

/-- The queues of the links but the task's own stay the same, and of its own copies
it drops none that is still to be handled, unless it panics. -/
structure Consumes (s s' : State) (l : LinkId) : Prop where
  others : ∀ l', l' ≠ l → (s'.links l').outgoingQueue = (s.links l').outgoingQueue ∧
    (s'.links l').task = (s.links l').task
  alive : (s.links l).task ≠ .panicked
  subset : ∀ k ∈ (s'.links l).copies, k ∈ (s.links l).copies
  kept : (s'.links l).task ≠ .panicked → ∀ k ∈ (s.links l).copies,
    s'.handled k.handled = false → k ∈ (s'.links l).copies
  receiver : (s'.links l).outgoingQueue.receiverAlive = false → (s'.links l).task = .panicked
  panicked : s.panicked = true ∨ (s'.links l).task = .panicked → s'.panicked = true

/-- A dispatch is handled by a link, by an act or by a panic. -/
def HandledBy (s' : State) (l : LinkId) (d d' : Dispatch) : Prop :=
  ∃ acts, d' = { d with handled := true, acts := d.acts ++ acts } ∧
    d.handled = false ∧ acts.length ≤ 1 ∧ (∀ act ∈ acts, act.1 = l) ∧
    (acts = [] → (s'.links l).task = .panicked)

theorem Competing.consume {l : LinkId} (competing : s.Competing net) (consumes : s.Consumes s' l)
    (dispatches : ∀ (i : Nat) d', s'.dispatches[i]? = some d' → ∃ d, s.dispatches[i]? = some d ∧
      (d' = d ∨ s'.HandledBy l d d' ∧ l ∈ d.links))
    (length : s'.dispatches.length = s.dispatches.length) : s'.Competing net := by
  have panicked {l' : LinkId} (gone : (s.links l').task = .panicked) :
      (s'.links l').task = .panicked := by
    by_cases same : l' = l
    · exact absurd (same ▸ gone) consumes.alive
    · rwa [(consumes.others l' same).2]
  have elsewhere {l' : LinkId} (differs : l' ≠ l) : (s'.links l').copies = (s.links l').copies := by
    rw [LinkState.copies, LinkState.copies, (consumes.others l' differs).1,
      (consumes.others l' differs).2]
  have subset {l' : LinkId} {k : OutgoingPacket} (member : k ∈ (s'.links l').copies) :
      k ∈ (s.links l').copies := by
    by_cases same : l' = l
    · subst same
      exact consumes.subset k member
    · exact elsewhere same ▸ member
  refine ⟨fun l' k member => ?_, fun i d' found => ?_, fun d' member => ?_, fun l' gone => ?_,
    fun l' gone => ?_⟩
  -- A copy is still one of its dispatch: handling that changes neither packet nor links.
  · obtain ⟨d, found, copy⟩ := competing.copies l' k (subset member)
    have bound : k.handled < s'.dispatches.length :=
      length ▸ (List.getElem?_eq_some_iff.mp found).1
    obtain ⟨d₀, before, change⟩ := dispatches k.handled _ (List.getElem?_eq_getElem bound)
    obtain rfl := Option.some.inj (found.symm.trans before)
    refine ⟨_, List.getElem?_eq_getElem bound, ?_⟩
    rcases change with same | ⟨⟨acts, same, -⟩, -⟩
    · exact same ▸ copy
    · exact same ▸ copy
  · obtain ⟨d, before, change⟩ := dispatches i d' found
    have fair := competing.fair i d before
    -- The one dispatch that changes was open, and it is closed by this link.
    rcases change with rfl | ⟨⟨acts, rfl, open', short, byLink, unacted⟩, member⟩
    · refine ⟨fair.acts, fair.actors, fair.unhandled, fun closed none => ?_,
        fun open' alive l' member => ?_⟩
      · obtain ⟨l', member, gone⟩ := fair.abandoned closed none
        exact ⟨l', member, panicked gone⟩
      · obtain ⟨k, there, flag⟩ := fair.copies open'
          (fun l' member gone => alive l' member (panicked gone)) l' member
        refine ⟨k, ?_, flag⟩
        by_cases same : l' = l
        · subst same
          refine consumes.kept (alive l' member) k there ?_
          simp [handled, flag, found, open']
        · exact elsewhere same ▸ there
    · have none := fair.unhandled open'
      refine ⟨by simpa [none] using short, ?_, by simp, fun _ done => ?_, by simp⟩
      · intro act inside
        rw [none, List.nil_append] at inside
        exact byLink act inside ▸ member
      · rw [none, List.nil_append] at done
        exact ⟨l, member, unacted done⟩
  · obtain ⟨i, found⟩ := List.mem_iff_getElem?.mp member
    obtain ⟨d, before, change⟩ := dispatches i d' found
    have origin := competing.dispatched d (List.mem_of_getElem? before)
    rcases change with rfl | ⟨⟨acts, rfl, -⟩, -⟩
    · exact origin
    · exact origin
  · by_cases same : l' = l
    · subst same
      exact consumes.receiver gone
    · rw [(consumes.others l' same).2]
      exact competing.receiver l' ((consumes.others l' same).1 ▸ gone)
  · by_cases same : l' = l
    · subst same
      exact consumes.panicked (.inr gone)
    · exact consumes.panicked (.inl (competing.panicked l' ((consumes.others l' same).2 ▸ gone)))

/-- Taking a copy consumes it, if it is handled afterwards. -/
theorem Takes.consumes {l : LinkId} {k : OutgoingPacket} {u : State} (takes : s.Takes t l k)
    (competing : s.Competing net)
    (others : ∀ l', l' ≠ l → u.links l' = t.links l')
    (closed : u.handled k.handled = true)
    (panicked : u.panicked = (t.panicked || decide ((u.links l).task = .panicked)))
    (own : (u.links l).task = .panicked ∧ (u.links l).copies = [] ∨
      (u.links l).task = .idle ∧ (u.links l).outgoingQueue = (t.links l).outgoingQueue) :
    s.Consumes u l := by
  obtain ⟨k₀, same, copies⟩ := takes.copies
  obtain ⟨-, -, -, -, flag⟩ := same.fields
  refine ⟨fun l' differs => ?_, takes.alive, fun k' member => ?_, fun alive k' member opened => ?_,
    fun gone => ?_, fun cause => ?_⟩
  · rw [others l' differs, takes.works.others l' differs]
    exact ⟨rfl, rfl⟩
  · rcases own with ⟨-, none⟩ | ⟨idle, queue⟩
    · simp [none] at member
    · rw [copies]
      simp only [LinkState.copies, idle, queue, QueueTask.packet?] at member
      exact List.mem_cons_of_mem _ member
  · rcases own with ⟨panicked, -⟩ | ⟨idle, queue⟩
    · exact absurd panicked alive
    · rw [copies] at member
      rcases List.mem_cons.mp member with rfl | member
      · rw [← flag, closed] at opened
        simp at opened
      · simpa [LinkState.copies, idle, queue, QueueTask.packet?] using member
  · rcases own with ⟨panicked, -⟩ | ⟨idle, queue⟩
    · exact panicked
    · rw [queue, takes.receiver] at gone
      exact absurd (competing.receiver l gone) takes.alive
  · rw [panicked, takes.works.panicked]
    simpa using cause

theorem modifyDispatch_handled {i : Nat} {change : Dispatch → Dispatch} {d : Dispatch}
    (found : s.dispatches[i]? = some d) (closes : (change d).handled = true) :
    (s.modifyDispatch i change).handled i = true := by
  simp [handled, modifyDispatch, found, closes]

/-- A link acts on the copy that it took, or panics over it. -/
theorem Competing.act {l : LinkId} {k : OutgoingPacket} {u : State} (competing : s.Competing net)
    (takes : s.Takes t l k) (unhandled : s.handled k.handled = false)
    (acts : List (LinkId × Act)) (short : acts.length ≤ 1) (byLink : ∀ act ∈ acts, act.1 = l)
    (dispatches : u.dispatches = t.dispatches.modify k.handled fun d =>
      { d with handled := true, acts := d.acts ++ acts })
    (others : ∀ l', l' ≠ l → u.links l' = t.links l')
    (panicked : u.panicked = (t.panicked || decide ((u.links l).task = .panicked)))
    (own : (u.links l).task = .panicked ∧ (u.links l).copies = [] ∨ acts ≠ [] ∧
      (u.links l).task = .idle ∧ (u.links l).outgoingQueue = (t.links l).outgoingQueue) :
    u.Competing net := by
  obtain ⟨k₀, same, copies⟩ := takes.copies
  obtain ⟨-, -, -, -, flag⟩ := same.fields
  obtain ⟨d, found, copy⟩ := competing.copies l k₀ (copies ▸ List.mem_cons_self)
  rw [← flag] at found
  have opened : d.handled = false := by simpa [handled, found] using unhandled
  have closed : u.handled k.handled = true := by
    simp [handled, dispatches, takes.works.dispatches, found]
  have consumes := takes.consumes competing others closed panicked (own.imp_right And.right)
  refine competing.consume consumes (fun i d' after => ?_) ?_
  · rw [dispatches, takes.works.dispatches, List.getElem?_modify] at after
    obtain ⟨d₀, before, rfl⟩ := Option.map_eq_some_iff.mp after
    refine ⟨d₀, before, ?_⟩
    by_cases this : k.handled = i
    · subst this
      obtain rfl := Option.some.inj (found.symm.trans before)
      refine .inr ⟨⟨acts, by simp, opened, short, byLink, fun none => ?_⟩, copy.1⟩
      rcases own with ⟨panicked, -⟩ | ⟨some, -⟩
      · exact panicked
      · exact absurd none some
    · exact .inl (by simp [this])
  · rw [dispatches, takes.works.dispatches, List.length_modify]

/-- Copies of a new packet are given to its links. -/
theorem Competing.dispatch {n : NodeId} {packet : BufferedPacket} {links : List LinkId}
    {rest : List BufferedPacket} (competing : s.Competing net) (member : n ∈ net.nodeIds)
    (some : links ≠ []) (pushed : Pushed n packet s.dispatches.length links
      ((s.takeBuffered n rest).openDispatch n packet links) s') : s'.Competing net := by
  have dispatches : s'.dispatches = s.dispatches ++ [⟨n, packet, links, false, []⟩] :=
    pushed.dispatches
  have earlier {i : Nat} {d : Dispatch} (found : s.dispatches[i]? = .some d) :
      s'.dispatches[i]? = .some d := by
    rw [dispatches, List.getElem?_append_left (List.getElem?_eq_some_iff.mp found).1, found]
  have newest : s'.dispatches[s.dispatches.length]? = .some ⟨n, packet, links, false, []⟩ := by
    rw [dispatches, List.getElem?_concat_length]
  have task (l : LinkId) : (s'.links l).task = (s.links l).task := by
    obtain ⟨new, queue, -⟩ := pushed.queues l
    rw [queue]
    rfl
  have copies (l : LinkId) : ∃ new, (s'.links l).copies = (s.links l).copies ++ new ∧
      ∀ k ∈ new, l ∈ links ∧ k.handled = s.dispatches.length ∧ k.srcNode = n ∧
        k.data = packet.data ∧ k.inNodeSince = packet.inNodeSince := by
    obtain ⟨new, queue, copies⟩ := pushed.queues l
    refine ⟨new, ?_, copies⟩
    rw [LinkState.copies, LinkState.copies, queue, List.append_assoc]
    rfl
  refine ⟨fun l k inside => ?_, fun i d found => ?_, fun d inside => ?_, fun l gone => ?_,
    fun l gone => ?_⟩
  -- A copy that is new belongs to the dispatch that was just opened.
  · obtain ⟨new, same, added⟩ := copies l
    rw [same] at inside
    rcases List.mem_append.mp inside with inside | inside
    · obtain ⟨d, found, copy⟩ := competing.copies l k inside
      exact ⟨d, earlier found, copy⟩
    · obtain ⟨candidate, flag, copy⟩ := added k inside
      exact ⟨_, flag ▸ newest, candidate, copy⟩
  · by_cases old : i < s.dispatches.length
    · have before : s.dispatches[i]? = .some d := by
        rw [← found, dispatches, List.getElem?_append_left old]
      have fair := competing.fair i d before
      refine ⟨fair.acts, fair.actors, fair.unhandled, by simpa only [task] using fair.abandoned,
        fun opened alive l candidate => ?_⟩
      obtain ⟨k, there, flag⟩ := fair.copies opened (by simpa only [task] using alive) l candidate
      obtain ⟨new, same, -⟩ := copies l
      exact ⟨k, same ▸ List.mem_append_left _ there, flag⟩
    · have last : i = s.dispatches.length := by
        have bound := (List.getElem?_eq_some_iff.mp found).1
        rw [dispatches, List.length_append, List.length_singleton] at bound
        omega
      subst last
      obtain rfl := Option.some.inj (newest.symm.trans found)
      refine ⟨by simp, by simp, by simp, by simp, fun _ alive l candidate => ?_⟩
      -- Every link has its copy, or a link failed to take it and its task is gone.
      rcases pushed.complete with all | ⟨l', candidate', gone⟩
      · obtain ⟨k, queued, flag⟩ := all l candidate
        exact ⟨k, List.mem_append_right _ queued, flag⟩
      · have panicked := competing.receiver l' gone
        exact absurd (task l' ▸ panicked) (alive l' candidate')
  · rw [dispatches] at inside
    rcases List.mem_append.mp inside with inside | inside
    · exact competing.dispatched d inside
    · rw [List.mem_singleton.mp inside]
      exact ⟨member, some⟩
  · obtain ⟨new, queue, -⟩ := pushed.queues l
    rw [queue] at gone
    rw [task]
    exact competing.receiver l gone
  · rw [pushed.panicked]
    exact competing.panicked l (task l ▸ gone)

/-- Every effect keeps the competition fair. -/
theorem Competing.effect {m m' : Moment} (competing : m.state.Competing net)
    (effect : Effect net licence m m') : m'.state.Competing net := by
  cases effect with
  | quiet hand quiet => exact competing.quiet quiet
  | dispatch n packet rest links hand member queued some pushed =>
      exact competing.dispatch member some pushed
  | discard hand takes handled =>
      have closed := handled
      rw [State.handled, ← takes.works.dispatches] at closed
      refine competing.consume (takes.consumes competing (fun _ _ => rfl) closed
        (by simp [takes.idle]) (.inr ⟨takes.idle, rfl⟩)) (fun i d' found => ⟨d', ?_, .inl rfl⟩) ?_
      · rw [← takes.works.dispatches, found]
      · rw [takes.works.dispatches]
  | @clear s t l k hand takes unhandled cleared licensed =>
      refine competing.act takes unhandled [(l, .cleared)] (by simp) (by simp) ?_
        (fun _ _ => rfl) ?_ (.inr ⟨by simp, takes.idle, rfl⟩)
      · exact List.modify_modify_eq _ _ k.handled t.dispatches
      · rw [dropCleared_links, takes.idle]
        exact (Bool.or_false _).symm
  | @send s t l k data pacer hand member takes unhandled kept up marked =>
      refine competing.act takes unhandled [(l, .sent)] (by simp) (by simp) ?_
        (fun l' differs => ?_) ?_ (.inr ⟨by simp, ?_, ?_⟩)
      · exact List.modify_modify_eq _ _ k.handled t.dispatches
      · rw [noteAct_links, carry_of_ne _ _ _ _ differs, markHandled_links]
      · rw [noteAct_links, carry_self, markHandled_links, takes.idle]
        exact (Bool.or_false _).symm
      · simpa using takes.idle
      · simp
  | @taskPanics s t l hand works alive lost =>
      refine competing.consume ⟨fun l' differs => ?_, alive, fun k member => ?_,
        fun living => ?_, ?_, fun _ => rfl⟩
        (fun i d' found => ⟨d', ?_, .inl rfl⟩) ?_
      · rw [endQueueTask_of_ne _ differs, works.others l' differs]
        exact ⟨rfl, rfl⟩
      · rw [endQueueTask_copies] at member
        simp at member
      · simp at living
      · simp
      · rw [← works.dispatches]
        exact found
      · exact congrArg List.length works.dispatches
  | @sendPanics s t l k hand takes unhandled lost =>
      refine competing.act takes unhandled [] (by simp) (by simp) ?_ (fun l' differs => ?_) ?_
        (.inl ⟨by simp, endQueueTask_copies _ l⟩)
      · simp [endQueueTask, modifyLink, markHandled, modifyDispatch]
      · rw [endQueueTask_of_ne _ differs, markHandled_links]
      · rw [endQueueTask_self]
        exact (Bool.or_true _).symm
  | outage s l hand up =>
      have same := SameQueues.modifyLink s l (·.updateStatus s.now .down) rfl rfl
      exact competing.congr ⟨same.dispatches, same.queue, same.task, id⟩
  | collect s l delivered inTransit forwarder member moved =>
      exact competing.congr (.modifyLink s l ({ · with inTransit, forwarder }) rfl rfl)
  | enter s n data stage => cases stage <;> exact competing.congr ⟨rfl, fun _ => rfl, fun _ => rfl, id⟩
  | refuse s n data stage => cases stage <;> exact competing.congr ⟨rfl, fun _ => rfl, fun _ => rfl, id⟩
  | crash s hand lost => exact competing.congr ⟨rfl, fun _ => rfl, fun _ => rfl, fun _ => rfl⟩
  | _ => exact competing.congr ⟨rfl, fun _ => rfl, fun _ => rfl, id⟩

theorem Competing.step {action : Action} (competing : s.Competing net)
    (taken : s.step net action = some s') : s'.Competing net :=
  step_kept taken (fun m => m.state.Competing net) competing
    fun _ _ _ competing effect => competing.effect effect

theorem Competing.of_run {past : List (State × Action)}
    (run : Run (State.step net) (.initial net) past s) : s.Competing net :=
  run.invariant (·.Competing net) .initial fun _ _ _ competing taken => competing.step taken

/-- Of the copies made of one packet, at most one is ever acted on, by one of its
links; and until then each of these has a copy, unless a task of theirs panicked. -/
theorem handled_once {past : List (State × Action)}
    (run : Run (State.step net) (.initial net) past s) {i : Nat} {d : Dispatch}
    (dispatched : s.dispatches[i]? = some d)
    (alive : ∀ l ∈ d.links, (s.links l).task ≠ .panicked) :
    d.acts.length ≤ 1 ∧ (∀ act ∈ d.acts, act.1 ∈ d.links) ∧
      (d.acts = [] → ∀ l ∈ d.links, ∃ k ∈ (s.links l).copies, k.handled = i) := by
  have fair := (Competing.of_run run).fair i d dispatched
  refine ⟨fair.acts, fair.actors, fun unacted => fair.copies ?_ alive⟩
  by_contra closed
  obtain ⟨l, member, panicked⟩ := fair.abandoned (by simpa using closed) unacted
  exact alive l member panicked

/-- Two links compete: the second one gives the first one a chance, which it has not taken yet. -/
theorem handled_once_twoHosts : ∃ past s,
    Run (State.step (twoHosts (some 1))) (.initial (twoHosts (some 1))) past s ∧
      s.dispatches.map (·.links) = [[0, 1]] ∧
      ∀ d, s.dispatches[0]? = some d → d.acts.length ≤ 1 ∧ (∀ act ∈ d.acts, act.1 ∈ d.links) ∧
        (d.acts = [] → ∀ l ∈ d.links, ∃ k ∈ (s.links l).copies, k.handled = 0) := by
  obtain ⟨past, run, -⟩ := Run.of_isSome (State.step (twoHosts (some 1)))
    (.initial (twoHosts (some 1))) [.sendUdp 0 greeting 0, .processBuffer 0 [], .pollLink 1] rfl
  refine ⟨past, _, run, rfl, fun d found => handled_once run found ?_⟩
  obtain rfl := Option.some.inj found
  decide

end State

end Workbench.Network
