import Workbench.Quic.Client

/-! The requests of a run of the traffic pattern: how many are issued until it returns,
and how many of a connection are outstanding.

A request that is counted down is claimed by its connection until its task is spawned,
so the requests left and those of all connections are always as many as configured. -/

set_option autoImplicit false

namespace Workbench.Quic

open Workbench.Library

/-! What a turn does. -/

theorem Answer.outcome_ne_ok {answer : Answer} (contexts : List Context)
    (wrong : answer ≠ .succeeds) : answer.outcome contexts ≠ .ok := by
  cases answer with
  | succeeds => exact absurd rfl wrong
  | fails error => simp [outcome]
  | panics => simp [outcome]

@[simp] theorem Outcome.join_eq_none {crashed errored : String} {outcome : Outcome} :
    outcome.join crashed errored = none ↔ outcome = .ok := by
  cases outcome <;> simp [join]

/-- The requests left are the same, and none is issued. -/
structure Shared.Quiet (this this' : Shared) : Prop where
  left : this'.requestsLeft = this.requestsLeft
  issued : requestsIssued this'.log = requestsIssued this.log

theorem RequestTask.step_of_finished {now : Nat} {this : RequestTask} {answer : Answer}
    {phase : RequestPhase} (taken : this.step now answer = some phase) :
    this.phase.isFinished = false := by
  unfold step at taken
  cases before : this.phase with
  | finished outcome => simp [before] at taken
  | spawned => rfl
  | opening => rfl
  | writing => rfl
  | reading => rfl

theorem RequestTask.step_ne_spawned {now : Nat} {this : RequestTask} {answer : Answer}
    {phase : RequestPhase} (taken : this.step now answer = some phase) : phase ≠ .spawned := by
  unfold step at taken
  rintro rfl
  split at taken <;> cases taken

def RequestTask.isStarted (this : RequestTask) : Bool := this.phase ≠ .spawned

namespace Connection

/-- Where a connection gets the permit from that it makes a request with: it acquires
one, or it has one since before it slept. -/
inductive Permitted (this : Connection) : Nat → Prop where
  | acquired {permits : Nat} : this.phase = .acquiring → this.permits = permits + 1 →
      Permitted this permits
  | held {deadline : Nat} : this.phase = .sleeping deadline → Permitted this this.permits

/-- All that a turn of a connection's own task can do. -/
inductive Ran (streams : Nat) (shared : Shared) (this : Connection) : Shared → Connection → Prop where
  | connecting {shared' : Shared} : this.phase = .spawned → shared.Quiet shared' →
      Ran streams shared this shared' { this with phase := .connecting }
  | connected {shared' : Shared} : this.phase = .connecting → shared.Quiet shared' →
      Ran streams shared this shared' { this with phase := .checking, permits := streams }
  | stopped : this.phase = .checking → shared.requestsLeft = 0 →
      Ran streams shared this shared { this with phase := .joining 0 }
  | claimed {requestsLeft : Nat} : this.phase = .checking → shared.requestsLeft = requestsLeft + 1 →
      Ran streams shared this { shared with requestsLeft } { this with phase := .acquiring }
  | slept {shared' : Shared} {permits deadline : Nat} : this.phase = .acquiring →
      this.permits = permits + 1 → shared.Quiet shared' →
      Ran streams shared this shared' { this with phase := .sleeping deadline, permits }
  | spawned {permits : Nat} {requestsMade : Int32} : this.Permitted permits →
      Ran streams shared this shared { this with
        phase := .checking
        permits
        requestsMade
        requestTasks := this.requestTasks ++ [⟨requestsMade, .spawned⟩] }
  | overflowed {shared' : Shared} {permits : Nat} : this.Permitted permits → shared.Quiet shared' →
      Ran streams shared this shared' { this with
        phase := .finished .panicked, permits := permits + 1 }
  | joined {index : Nat} {task : RequestTask} : this.phase = .joining index →
      this.requestTasks[index]? = some task → task.phase = .finished .ok →
      Ran streams shared this shared { this with phase := .joining (index + 1) }
  | done {shared' : Shared} {index : Nat} : this.phase = .joining index →
      this.requestTasks.length ≤ index → shared.Quiet shared' →
      Ran streams shared this shared' { this with phase := .finished .ok }
  | failed {shared' : Shared} {outcome : Outcome} : outcome ≠ .ok →
      this.phase = .spawned ∨ this.phase = .connecting ∨ (∃ index, this.phase = .joining index) →
      shared.Quiet shared' →
      Ran streams shared this shared' { this with phase := .finished outcome }

variable {traffic : QuicRequestResponseTraffic} {overflowChecks : Bool} {shared shared' : Shared}
  {this this' : Connection}

theorem ran_spawnRequest {permits : Nat} (permitted : this.Permitted permits) :
    Ran traffic.concurrentStreamsPerConnection shared this
      (spawnRequest overflowChecks shared { this with permits }).1
      (spawnRequest overflowChecks shared { this with permits }).2 := by
  unfold spawnRequest
  split
  · exact .overflowed permitted ⟨rfl, rfl⟩
  · exact .spawned permitted

theorem ran_of_run {answer : Answer}
    (taken : this.run traffic overflowChecks shared answer = some (shared', this')) :
    Ran traffic.concurrentStreamsPerConnection shared this shared' this' := by
  unfold run at taken
  cases phase : this.phase with
  | spawned =>
      simp only [phase] at taken
      split_ifs at taken
      have quiet (permits : Nat) : shared.Quiet
          ({ shared with connectionPermits := permits }.writeln (.connect this.name)) :=
        ⟨rfl, by simp [requestsIssued, Shared.writeln]⟩
      split at taken
      · obtain ⟨rfl, rfl⟩ := Prod.mk.inj (Option.some.inj taken)
        exact .connecting phase (quiet _)
      · next wrong =>
        obtain ⟨rfl, rfl⟩ := Prod.mk.inj (Option.some.inj taken)
        exact .failed (Answer.outcome_ne_ok _ wrong) (.inl phase) ⟨rfl, (quiet 0).issued⟩
  | connecting =>
      simp only [phase] at taken
      split at taken
      · obtain ⟨rfl, rfl⟩ := Prod.mk.inj (Option.some.inj taken)
        exact .connected phase ⟨rfl, by simp [requestsIssued, Shared.writeln]⟩
      · next wrong =>
        obtain ⟨rfl, rfl⟩ := Prod.mk.inj (Option.some.inj taken)
        exact .failed (Answer.outcome_ne_ok _ wrong) (.inr (.inl phase)) ⟨rfl, rfl⟩
  | checking =>
      simp only [phase] at taken
      split_ifs at taken with none
      · obtain ⟨rfl, rfl⟩ := Prod.mk.inj (Option.some.inj taken)
        exact .stopped phase none
      · obtain ⟨rfl, rfl⟩ := Prod.mk.inj (Option.some.inj taken)
        exact .claimed phase (by omega)
  | acquiring =>
      simp only [phase] at taken
      split_ifs at taken with none waits
      · obtain ⟨rfl, rfl⟩ := Prod.mk.inj (Option.some.inj taken)
        exact .slept phase (by omega) ⟨rfl, by simp [requestsIssued, Shared.writeln]⟩
      · obtain ⟨rfl, rfl⟩ := Prod.mk.inj (Option.some.inj taken)
        exact ran_spawnRequest (.acquired phase (by omega))
  | sleeping deadline =>
      simp only [phase] at taken
      split_ifs at taken
      obtain ⟨rfl, rfl⟩ := Prod.mk.inj (Option.some.inj taken)
      exact ran_spawnRequest (.held phase)
  | joining index =>
      simp only [phase] at taken
      cases found : this.requestTasks[index]? with
      | none =>
          simp only [found] at taken
          obtain ⟨rfl, rfl⟩ := Prod.mk.inj (Option.some.inj taken)
          exact .done phase (List.getElem?_eq_none_iff.mp found)
            ⟨rfl, by simp [requestsIssued, Shared.writeln]⟩
      | some task =>
          simp only [found] at taken
          split at taken
          · next outcome ended =>
            split at taken
            · next joined =>
              obtain ⟨rfl, rfl⟩ := Prod.mk.inj (Option.some.inj taken)
              obtain rfl := Outcome.join_eq_none.mp joined
              exact .joined phase found ended
            · obtain ⟨rfl, rfl⟩ := Prod.mk.inj (Option.some.inj taken)
              exact .failed (by simp) (.inr (.inr ⟨index, phase⟩)) ⟨rfl, rfl⟩
          · cases taken
  | finished outcome => simp [phase] at taken

/-! What every turn keeps. -/

/-- The permits that a connection's own task holds. -/
def held (this : Connection) : Nat :=
  match this.phase with
  | .sleeping _ => 1
  | _ => 0

/-- The requests that a connection has counted down: those of its tasks, and the one
that it is about to make. -/
def claimed (this : Connection) : Nat :=
  this.requestTasks.length + match this.phase with
    | .acquiring => 1
    | .sleeping _ => 1
    | _ => 0

def issued (this : Connection) : Nat := this.requestTasks.countP RequestTask.isStarted

/-- What holds of a connection between turns, given the streams that it may have and
the requests that are left. -/
structure Sound (streams requestsLeft : Nat) (this : Connection) : Prop where
  fresh : this.phase = .spawned ∨ this.phase = .connecting → this.requestTasks = []
  room : this.outstanding + this.held + this.permits ≤ streams
  joined : ∀ k, this.phase = .joining k →
    requestsLeft = 0 ∧ ∀ task ∈ this.requestTasks.take k, task.phase = .finished .ok
  done : this.phase = .finished .ok →
    requestsLeft = 0 ∧ ∀ task ∈ this.requestTasks, task.phase = .finished .ok

theorem Sound.later {streams requestsLeft requestsLeft' : Nat} (sound : Sound streams requestsLeft this)
    (fewer : requestsLeft' ≤ requestsLeft) : Sound streams requestsLeft' this where
  fresh := sound.fresh
  room := sound.room
  joined k phase := ⟨by have := (sound.joined k phase).1; omega, (sound.joined k phase).2⟩
  done phase := ⟨by have := (sound.done phase).1; omega, (sound.done phase).2⟩

/-- A turn keeps what a connection has of the requests, and what holds of it. -/
structure Turn (streams : Nat) (shared : Shared) (this : Connection) (shared' : Shared)
    (this' : Connection) : Prop where
  left_le : shared'.requestsLeft ≤ shared.requestsLeft
  claims : shared'.requestsLeft + this'.claimed = shared.requestsLeft + this.claimed ∨
    this'.phase = .finished .panicked
  issues : requestsIssued shared'.log + this.issued = requestsIssued shared.log + this'.issued
  finished : ∀ outcome, this.phase = .finished outcome → this'.phase = .finished outcome
  sound : Sound streams shared.requestsLeft this → Sound streams shared'.requestsLeft this'

theorem Permitted.claimed {permits : Nat} (permitted : this.Permitted permits) :
    this.claimed = this.requestTasks.length + 1 := by
  cases permitted with
  | acquired phase _ => simp [Connection.claimed, phase]
  | held phase => simp [Connection.claimed, phase]

theorem Permitted.permits {permits : Nat} (permitted : this.Permitted permits) :
    this.held + this.permits = permits + 1 := by
  cases permitted with
  | acquired phase some => simp [Connection.held, phase, some]
  | held phase => simp [Connection.held, phase, Nat.add_comm]

theorem Permitted.not_finished {permits : Nat} {outcome : Outcome}
    (permitted : this.Permitted permits) : this.phase ≠ .finished outcome := by
  cases permitted with
  | acquired phase _ => simp [phase]
  | held phase => simp [phase]

/-- The permit of a request passes from the connection to the request's task. -/
theorem outstanding_spawn (requestsMade : Int32) (phase : ConnectionPhase) (permits : Nat) :
    outstanding { this with
      phase, permits, requestsMade
      requestTasks := this.requestTasks ++ [⟨requestsMade, .spawned⟩] } = this.outstanding + 1 := by
  simp [outstanding, RequestTask.isOutstanding, RequestPhase.isFinished]

theorem Ran.turn {streams : Nat} (ran : Ran streams shared this shared' this') :
    Turn streams shared this shared' this' := by
  cases ran with
  | connecting phase quiet =>
      refine ⟨Nat.le_of_eq quiet.left, .inl ?_, by rw [quiet.issued]; rfl, by simp [phase], fun sound => ?_⟩
      · simp [Connection.claimed, phase, quiet.left]
      · have room := sound.room
        simp only [held, phase] at room
        exact ⟨fun _ => sound.fresh (.inl phase), room, by simp, by simp⟩
  | connected phase quiet =>
      refine ⟨Nat.le_of_eq quiet.left, .inl ?_, by rw [quiet.issued]; rfl, by simp [phase], fun sound => ?_⟩
      · simp [Connection.claimed, phase, quiet.left]
      · have none := sound.fresh (.inr phase)
        exact ⟨by simp, by simp [outstanding, held, none], by simp, by simp⟩
  | stopped phase left =>
      refine ⟨Nat.le_refl _, .inl ?_, rfl, by simp [phase], fun sound => ?_⟩
      · simp [Connection.claimed, phase]
      · have room := sound.room
        simp only [held, phase] at room
        exact ⟨by simp, room, by simp [left], by simp⟩
  | claimed phase left =>
      -- A request that is left becomes one that the connection is about to make.
      refine ⟨by simp [left], .inl ?_, rfl, by simp [phase], fun sound => ?_⟩
      · simp only [Connection.claimed, phase, left]
        omega
      · have room := sound.room
        simp only [held, phase] at room
        exact ⟨by simp, room, by simp, by simp⟩
  | slept phase permit quiet =>
      -- The permit is held over the sleep, so that no more requests become outstanding.
      refine ⟨Nat.le_of_eq quiet.left, .inl ?_, by rw [quiet.issued]; rfl, by simp [phase], fun sound => ?_⟩
      · simp [Connection.claimed, phase, quiet.left]
      · have room := sound.room
        simp only [held, phase, permit] at room
        refine ⟨by simp, ?_, by simp, by simp⟩
        simp only [held, outstanding] at room ⊢
        omega
  | spawned permitted =>
      refine ⟨Nat.le_refl _, .inl ?_, ?_, fun _ phase => absurd phase permitted.not_finished,
        fun sound => ?_⟩
      · rw [permitted.claimed]
        simp [Connection.claimed]
      · simp [issued, RequestTask.isStarted]
      · refine ⟨by simp, ?_, by simp, by simp⟩
        rw [outstanding_spawn]
        have room := sound.room
        have permits := permitted.permits
        simp only [held] at permits room ⊢
        omega
  | overflowed permitted quiet =>
      -- The request that was claimed is lost, but the connection panics, so that the
      -- pattern does not return a total.
      refine ⟨Nat.le_of_eq quiet.left, .inr rfl, by rw [quiet.issued]; rfl,
        fun _ phase => absurd phase permitted.not_finished, fun sound => ?_⟩
      refine ⟨by simp, ?_, by simp, by simp⟩
      have room := sound.room
      have permits := permitted.permits
      simp only [held, outstanding] at permits room ⊢
      omega
  | joined phase found ended =>
      -- Requests are waited for in order, so the first `k + 1` are finished now.
      refine ⟨Nat.le_refl _, .inl ?_, rfl, by simp [phase], fun sound => ?_⟩
      · simp [Connection.claimed, phase]
      · have room := sound.room
        simp only [held, phase] at room
        obtain ⟨left, earlier⟩ := sound.joined _ phase
        refine ⟨by simp, room, fun k same => ⟨left, ?_⟩, by simp⟩
        obtain rfl := ConnectionPhase.joining.inj same
        intro task member
        rw [List.take_add_one, found] at member
        rcases List.mem_append.mp member with old | new
        · exact earlier task old
        · obtain rfl := by simpa using new
          exact ended
  | done phase last quiet =>
      refine ⟨Nat.le_of_eq quiet.left, .inl ?_, by rw [quiet.issued]; rfl, by simp [phase], fun sound => ?_⟩
      · simp [Connection.claimed, phase, quiet.left]
      · have room := sound.room
        simp only [held, phase] at room
        obtain ⟨left, all⟩ := sound.joined _ phase
        rw [List.take_of_length_le last] at all
        exact ⟨by simp, room, by simp, fun _ => ⟨quiet.left.trans left, all⟩⟩
  | @failed _ outcome wrong phase quiet =>
      -- A connection fails only where it holds no claim of a request.
      have kept : this.claimed = this.requestTasks.length ∧ this.held = 0 ∧
          ∀ outcome, this.phase ≠ .finished outcome := by
        rcases phase with phase | phase | ⟨index, phase⟩ <;>
          simp [Connection.claimed, held, phase]
      refine ⟨Nat.le_of_eq quiet.left, .inl ?_, by rw [quiet.issued]; rfl,
        fun _ ended => absurd ended (kept.2.2 _), fun sound => ?_⟩
      · rw [kept.1, quiet.left]
        simp [Connection.claimed]
      · have room := sound.room
        rw [kept.2.1] at room
        exact ⟨by simp, room, by simp, fun same => absurd (by simpa using same) wrong⟩

/-- The permit of a request that is finished goes back to the connection. -/
theorem outstanding_set {j : Nat} {task : RequestTask} {next : RequestPhase}
    (found : this.requestTasks[j]? = some task) (unfinished : task.phase.isFinished = false) :
    (this.requestTasks.set j { task with phase := next }).countP RequestTask.isOutstanding +
        this.held + (if next.isFinished then this.permits + 1 else this.permits) =
      this.outstanding + this.held + this.permits := by
  have count := Workers.countP_set found RequestTask.isOutstanding { task with phase := next }
  rw [show task.isOutstanding = true by simp [RequestTask.isOutstanding, unfinished],
    show RequestTask.isOutstanding { task with phase := next } = !next.isFinished from rfl,
    ← outstanding] at count
  cases ended : next.isFinished with
  | true =>
      simp only [ended, Bool.not_true, Bool.toNat_true, Bool.toNat_false] at count
      simp only [if_true]
      omega
  | false =>
      simp only [ended, Bool.not_false, Bool.toNat_true] at count
      simp only [Bool.false_eq_true, if_false]
      omega

/-- A turn of a request: its first one issues it, and its last one gives the permit back. -/
theorem turn_of_stepRequest {j : Nat} {answer : Answer} (streams : Nat)
    (taken : this.stepRequest shared j answer = some (shared', this')) :
    Turn streams shared this shared' this' := by
  obtain ⟨task, found, moved⟩ := Option.bind_eq_some_iff.mp taken
  obtain ⟨next, went, same⟩ := Option.map_eq_some_iff.mp moved
  obtain ⟨rfl, rfl⟩ := Prod.mk.inj same
  have unfinished : task.phase.isFinished = false := RequestTask.step_of_finished went
  have left : (if task.phase = .spawned then shared.writeln (.get this.name task.number)
      else shared).requestsLeft = shared.requestsLeft := by
    split <;> rfl
  refine ⟨Nat.le_of_eq left, .inl ?_, ?_, fun _ phase => phase, fun sound => ?_⟩
  · simp [left, Connection.claimed]
  -- The first turn of a request is the only one that logs it as issued.
  · have count := Workers.countP_set found RequestTask.isStarted { task with phase := next }
    have started : next ≠ .spawned := RequestTask.step_ne_spawned went
    rw [show RequestTask.isStarted { task with phase := next } = true by
      simpa [RequestTask.isStarted] using started] at count
    simp only [issued]
    by_cases first : task.phase = .spawned
    · rw [show task.isStarted = false by simp [RequestTask.isStarted, first]] at count
      simp only [if_pos first, requestsIssued, Shared.writeln, List.countP_append,
        List.countP_singleton, if_true]
      simp only [Bool.toNat_false, Bool.toNat_true] at count
      omega
    · rw [show task.isStarted = true by simp [RequestTask.isStarted, first]] at count
      simp only [if_neg first]
      omega
  · have unsuccessful : task.phase ≠ .finished .ok := by
      intro ended
      simp [ended, RequestPhase.isFinished] at unfinished
    refine ⟨fun phase => ?_, ?_, fun k phase => ?_, fun phase => ?_⟩
    · simp [sound.fresh phase] at found
    · exact Nat.le_trans (Nat.le_of_eq (outstanding_set found unfinished)) sound.room
    · obtain ⟨none, earlier⟩ := sound.joined k phase
      refine ⟨left.trans none, ?_⟩
      -- The requests that were waited for are finished, so it is none of them.
      have behind : k ≤ j := by
        by_contra before
        refine unsuccessful (earlier task (List.mem_of_getElem? (i := j) ?_))
        rwa [List.getElem?_take_of_lt (Nat.lt_of_not_le before)]
      rwa [List.take_set_of_le behind]
    · obtain ⟨none, all⟩ := sound.done phase
      exact absurd (all task (List.mem_of_getElem? found)) unsuccessful

theorem turn_of_step {action : Option Nat × Answer}
    (taken : this.step traffic overflowChecks shared action = some (shared', this')) :
    Turn traffic.concurrentStreamsPerConnection shared this shared' this' := by
  obtain ⟨request, answer⟩ := action
  cases request with
  | none => exact (ran_of_run taken).turn
  | some j => exact turn_of_stepRequest _ taken

/-- A connection that succeeded has issued all it claimed. -/
theorem Sound.issued_eq_claimed {streams requestsLeft : Nat} (sound : Sound streams requestsLeft this)
    (succeeded : this.phase = .finished .ok) : this.issued = this.claimed := by
  have all : ∀ task ∈ this.requestTasks, task.isStarted = true := by
    intro task member
    simp [RequestTask.isStarted, (sound.done succeeded).2 task member]
  rw [issued, claimed, succeeded, List.countP_eq_length.mpr all]
  rfl

theorem sound_new (streams requestsLeft index : Nat) : Sound streams requestsLeft (new index) :=
  ⟨fun _ => rfl, Nat.zero_le _, by simp [new], by simp [new]⟩

end Connection

/-! Runs. -/

/-- How far the pattern's own task has come with its connections. -/
def MainPhase.Progress (concurrentConnections : Nat) (connections : List Connection) :
    MainPhase → Prop
  | .waiting _ => connections = []
  | .spawning index => connections.length = index ∧ index ≤ concurrentConnections
  | .pausing index _ => connections.length = index + 1 ∧ index < concurrentConnections
  | .joining index => connections.length = concurrentConnections ∧
      ∀ connection ∈ connections.take index, connection.phase = .finished .ok
  | .returned (.ok _) => connections.length = concurrentConnections ∧
      ∀ connection ∈ connections, connection.phase = .finished .ok
  | .returned (.error _) => True

theorem MainPhase.Progress.set {main : MainPhase} {concurrentConnections i : Nat}
    {connections : List Connection} {connection connection' : Connection}
    (progress : main.Progress concurrentConnections connections)
    (found : connections[i]? = some connection)
    (kept : ∀ outcome, connection.phase = .finished outcome → connection'.phase = .finished outcome) :
    main.Progress concurrentConnections (connections.set i connection') := by
  cases main with
  | waiting deadline =>
      obtain rfl : connections = [] := progress
      simp at found
  | spawning index => simpa [Progress] using progress
  | pausing index deadline => simpa [Progress] using progress
  | joining index =>
      obtain ⟨length, joined⟩ := progress
      refine ⟨by rwa [List.length_set], ?_⟩
      by_cases inside : i < index
      · have ended : connection.phase = .finished .ok := by
          refine joined connection (List.mem_of_getElem? (i := i) ?_)
          rwa [List.getElem?_take_of_lt inside]
        rw [List.take_set]
        exact Workers.forall_set joined (fun _ same => same) (kept _ ended)
      · rwa [List.take_set_of_le (Nat.le_of_not_lt inside)]
  | returned result =>
      cases result with
      | error contexts => trivial
      | ok total =>
          obtain ⟨length, ended⟩ := progress
          exact ⟨by rwa [List.length_set], Workers.forall_set ended (fun _ same => same)
            (kept _ (ended connection (List.mem_of_getElem? found)))⟩

namespace Client

structure Inv (traffic : QuicRequestResponseTraffic) (this : Client) : Prop where
  sound : ∀ connection ∈ this.connections,
    connection.Sound traffic.concurrentStreamsPerConnection this.requestsLeft
  claims : this.requestsLeft + (this.connections.map Connection.claimed).sum = traffic.requests ∨
    ∃ connection ∈ this.connections, connection.phase = .finished .panicked
  issues : requestsIssued this.log = (this.connections.map Connection.issued).sum
  progress : this.main.Progress traffic.concurrentConnections this.connections

variable {traffic : QuicRequestResponseTraffic} {overflowChecks : Bool} {this this' : Client}

theorem inv_runTrafficPattern {elapsed : Nat}
    (accepted : runTrafficPattern traffic elapsed = .ok this) : this.Inv traffic := by
  unfold runTrafficPattern at accepted
  split_ifs at accepted <;> obtain rfl := Except.ok.inj accepted <;>
    exact ⟨by simp, .inl rfl, rfl, by simp [MainPhase.Progress]⟩

/-- The pattern's own task starts a connection, or takes note of how one ended. -/
theorem Inv.stepMain (inv : this.Inv traffic) (taken : this.stepMain traffic = some this') :
    this'.Inv traffic := by
  have progress := inv.progress
  unfold Client.stepMain at taken
  cases main : this.main with
  | waiting deadline =>
      simp only [main, MainPhase.Progress] at taken progress
      split_ifs at taken
      obtain rfl := Option.some.inj taken
      exact ⟨inv.sound, inv.claims, inv.issues, by simp [MainPhase.Progress, progress]⟩
  | spawning index =>
      -- A connection is added without a request of its own, so the sums stay as they are.
      simp only [main, MainPhase.Progress] at taken progress
      split_ifs at taken with more
      · obtain rfl := Option.some.inj taken
        refine ⟨?_, ?_, ?_, by simp [progress.1], more⟩
        · intro connection member
          rcases List.mem_append.mp member with old | new
          · exact inv.sound connection old
          · obtain rfl := List.mem_singleton.mp new
            exact Connection.sound_new _ _ index
        · rcases inv.claims with claims | ⟨connection, member, panicked⟩
          · left
            simpa [Connection.claimed, Connection.new] using claims
          · exact .inr ⟨connection, List.mem_append_left _ member, panicked⟩
        · simpa [Connection.issued, Connection.new] using inv.issues
      · have all : this.connections.length = traffic.concurrentConnections := by omega
        obtain rfl := Option.some.inj taken
        exact ⟨inv.sound, inv.claims, inv.issues, all, by simp⟩
  | pausing index deadline =>
      simp only [main, MainPhase.Progress] at taken progress
      split_ifs at taken
      obtain rfl := Option.some.inj taken
      exact ⟨inv.sound, inv.claims, inv.issues, progress⟩
  | joining index =>
      -- Connections are waited for in order: those before the index have succeeded.
      simp only [main, MainPhase.Progress] at taken progress
      obtain ⟨length, joined⟩ := progress
      cases found : this.connections[index]? with
      | none =>
          simp only [found] at taken
          obtain rfl := Option.some.inj taken
          rw [List.take_of_length_le (List.getElem?_eq_none_iff.mp found)] at joined
          exact ⟨inv.sound, inv.claims, by simpa [requestsIssued, Shared.writeln] using inv.issues,
            length, joined⟩
      | some connection =>
          simp only [found] at taken
          split at taken
          · next outcome ended =>
            split at taken
            · next succeeded =>
              obtain rfl := Option.some.inj taken
              obtain rfl := Outcome.join_eq_none.mp succeeded
              refine ⟨inv.sound, inv.claims, inv.issues, length, ?_⟩
              intro other member
              rw [List.take_add_one, found] at member
              rcases List.mem_append.mp member with old | new
              · exact joined other old
              · obtain rfl := by simpa using new
                exact ended
            · obtain rfl := Option.some.inj taken
              exact ⟨inv.sound, inv.claims, inv.issues, trivial⟩
          · cases taken
  | returned result => simp [main] at taken

/-- A connection's turn moves requests between what is left and what it claims. -/
theorem Inv.poll {i : Nat} {action : Option Nat × Answer} {shared : Shared}
    {connections : List Connection} (inv : this.Inv traffic)
    (taken : Workers.step (Connection.step traffic overflowChecks) this.toShared this.connections i
      action = some (shared, connections)) :
    Inv traffic { this with toShared := shared, connections } := by
  obtain ⟨connection, connection', found, turned, rfl⟩ := Workers.step_eq_some taken
  have member := List.mem_of_getElem? found
  have turn := Connection.turn_of_step turned
  refine ⟨?_, ?_, ?_, inv.progress.set found turn.finished⟩
  · exact Workers.forall_set inv.sound (fun other sound => sound.later turn.left_le)
      (turn.sound (inv.sound connection member))
  · have claimed := Workers.sum_set found Connection.claimed connection'
    rcases inv.claims with claims | panicked
    · rcases turn.claims with same | panicked
      · left
        dsimp only
        omega
      · have inside : i < this.connections.length := (List.getElem?_eq_some_iff.mp found).1
        exact .inr ⟨connection', List.mem_set inside connection', panicked⟩
    · exact .inr (Workers.exists_set found panicked (turn.finished _))
  · have issued := Workers.sum_set found Connection.issued connection'
    have issues := turn.issues
    rw [inv.issues] at issues
    dsimp only
    omega

theorem Inv.step {action : Action} (inv : this.Inv traffic)
    (taken : this.step traffic overflowChecks action = some this') : this'.Inv traffic := by
  cases action with
  | advance time =>
      obtain rfl := Option.some.inj taken
      exact ⟨inv.sound, inv.claims, inv.issues, inv.progress⟩
  | main => exact inv.stepMain taken
  | poll i request answer =>
      obtain ⟨⟨shared, connections⟩, polled, rfl⟩ := Option.map_eq_some_iff.mp taken
      exact inv.poll polled

theorem inv_of_run {first final : Client} {elapsed : Nat} {past : List (Client × Action)}
    (accepted : runTrafficPattern traffic elapsed = .ok first)
    (run : Run (Client.step traffic overflowChecks) first past final) : final.Inv traffic :=
  run.invariant (Inv traffic) (inv_runTrafficPattern accepted) fun _ _ _ inv taken => inv.step taken

theorem Inv.outstanding_le (inv : this.Inv traffic) : ∀ connection ∈ this.connections,
    connection.outstanding ≤ traffic.concurrentStreamsPerConnection := by
  intro connection member
  have room := (inv.sound connection member).room
  omega

/-- When all connections have succeeded, what was not issued is left. -/
theorem Inv.issued_add_left {total : Nat} (inv : this.Inv traffic)
    (returned : this.main = .returned (.ok total)) :
    requestsIssued this.log + this.requestsLeft = traffic.requests := by
  have progress := inv.progress
  rw [returned] at progress
  have same : this.connections.map Connection.issued = this.connections.map Connection.claimed :=
    List.map_congr_left fun connection member =>
      (inv.sound connection member).issued_eq_claimed (progress.2 connection member)
  rcases inv.claims with claims | ⟨connection, member, panicked⟩
  · rw [inv.issues, same]
    omega
  · rw [progress.2 connection member] at panicked
    cases panicked

theorem Inv.left_eq_zero {total : Nat} (inv : this.Inv traffic)
    (returned : this.main = .returned (.ok total)) (some : 0 < traffic.concurrentConnections) :
    this.requestsLeft = 0 := by
  have progress := inv.progress
  rw [returned] at progress
  obtain ⟨connection, member⟩ := List.exists_mem_of_length_pos (progress.1.symm ▸ some)
  exact ((inv.sound connection member).done (progress.2 connection member)).1

/-- In every run, all requests are issued when the pattern returns without an error, and
no connection has more of them outstanding than it may have streams. -/
def MakesAllRequests (traffic : QuicRequestResponseTraffic) : Prop :=
  ∀ elapsed overflowChecks first past final, runTrafficPattern traffic elapsed = .ok first →
    Run (Client.step traffic overflowChecks) first past final →
      (∀ total, final.main = .returned (.ok total) →
        requestsIssued final.log = traffic.requests) ∧
      ∀ connection ∈ final.connections,
        connection.outstanding ≤ traffic.concurrentStreamsPerConnection

/-- Without connections, the pattern returns at once. -/
theorem returns_without_connections (traffic : QuicRequestResponseTraffic)
    (overflowChecks : Bool) (none : traffic.concurrentConnections = 0) :
    ∃ first past final, runTrafficPattern traffic (millis traffic.startAtMs) = .ok first ∧
      Run (Client.step traffic overflowChecks) first past final ∧
      final.main = .returned (.ok 0) ∧ requestsIssued final.log = 0 := by
  let first : Client := ⟨⟨millis traffic.startAtMs, traffic.requests, 0, []⟩, [], .spawning 0⟩
  have accepted : runTrafficPattern traffic (millis traffic.startAtMs) = .ok first := by
    simp [runTrafficPattern, first, none]
  let joining : Client := { first with main := .joining 0 }
  have spawned : Client.step traffic overflowChecks first .main = some joining := by
    simp [Client.step, Client.stepMain, first, joining, none]
  let final : Client :=
    { joining with toShared := joining.writeln .allConnectionsClosed, main := .returned (.ok 0) }
  have joined : Client.step traffic overflowChecks joining .main = some final := rfl
  exact ⟨first, _, final, accepted, (Run.start.next spawned).next joined, rfl, rfl⟩

theorem makesAllRequests_iff (traffic : QuicRequestResponseTraffic) :
    MakesAllRequests traffic ↔ 0 < traffic.concurrentConnections ∨ traffic.requests = 0 := by
  constructor
  · intro always
    by_cases some : 0 < traffic.concurrentConnections
    · exact .inl some
    · obtain ⟨first, past, final, accepted, run, returned, issued⟩ :=
        returns_without_connections traffic true (by omega)
      exact .inr (((always _ _ first past final accepted run).1 0 returned).symm.trans issued)
  · intro some elapsed overflowChecks first past final accepted run
    have inv := inv_of_run accepted run
    refine ⟨fun total returned => ?_, inv.outstanding_le⟩
    have issued := inv.issued_add_left returned
    rcases some with some | none
    · have left := inv.left_eq_zero returned some
      omega
    · omega

/-- One connection, which makes one request. -/
example : (attains (Client.step ⟨0, 1, 1, 1, 0⟩ true) ⟨⟨0, 1, 1, []⟩, [], .spawning 0⟩
    ([.main] ++ .replicate 4 (.poll 0 none .succeeds) ++
      .replicate 4 (.poll 0 (some 0) .succeeds) ++ .replicate 3 (.poll 0 none .succeeds) ++
      [.advance (millis 1)] ++ .replicate 4 .main)).map
    (fun this => (this.main, requestsIssued this.log)) = some (.returned (.ok 1), 1) := by
  decide +kernel

/-- Ten requests, as by default, and no connection to make them: an accepted
configuration of which no request is made. -/
theorem not_makesAllRequests : validateTraffic ⟨0, 10, 0, 1, 0⟩ = .ok () ∧
    (∃ first, runTrafficPattern ⟨0, 10, 0, 1, 0⟩ 0 = .ok first ∧
      ∃ past final, Run (Client.step ⟨0, 10, 0, 1, 0⟩ true) first past final ∧
        final.main = .returned (.ok 0) ∧ requestsIssued final.log = 0) ∧
    ¬ MakesAllRequests ⟨0, 10, 0, 1, 0⟩ := by
  obtain ⟨first, past, final, accepted, run, returned, issued⟩ :=
    returns_without_connections ⟨0, 10, 0, 1, 0⟩ true rfl
  refine ⟨rfl, ⟨first, accepted, past, final, run, returned, issued⟩, fun always => ?_⟩
  have all := (always _ _ first past final accepted run).1 0 returned
  rw [issued] at all
  cases all

end Client

end Workbench.Quic
