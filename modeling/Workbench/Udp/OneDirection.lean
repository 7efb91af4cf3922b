import Workbench.Library.Machine
import Workbench.Library.Ticker
import Workbench.Network.Packet
import Workbench.Quic.Client

/-! The one-direction traffic pattern: a sender that transmits a payload at an interval, in chunks. -/

set_option autoImplicit false

namespace Workbench.Udp

open Workbench.Library Workbench.Network Workbench.Quic

/-- The sizes of the chunks that some bytes are sent in, none above a limit. -/
def chunkSizes (limit : Nat) (pending : Nat) : List Nat :=
  if 0 < min pending limit then
    min pending limit :: chunkSizes limit (pending - min pending limit)
  else []
termination_by pending

/-- The chunks carry all bytes, none is empty or too large, and there are as few as possible. -/
theorem chunkSizes_exact {limit : Nat} (positive : 0 < limit) (pending : Nat) :
    (chunkSizes limit pending).sum = pending ∧ (∀ size ∈ chunkSizes limit pending, 0 < size ∧ size ≤ limit) ∧
      (chunkSizes limit pending).length = pending ⌈/⌉ limit := by
  induction pending using Nat.strong_induction_on with
  | _ pending ih =>
      unfold chunkSizes
      by_cases more : 0 < min pending limit
      · obtain ⟨sum, sizes, count⟩ := ih (pending - min pending limit) (by omega)
        rw [if_pos more, List.sum_cons, sum, List.length_cons, count]
        refine ⟨by omega, List.forall_mem_cons.mpr ⟨⟨more, min_le_right _ _⟩, sizes⟩, ?_⟩
        have whole : pending ⌈/⌉ limit = (pending - 1) / limit + 1 := by
          rw [Nat.ceilDiv_eq_add_pred_div, ← Nat.add_div_right _ positive]
          congr 1
          omega
        rw [whole]
        congr 1
        rcases le_total pending limit with last | further
        · rw [min_eq_left last, Nat.sub_self, zero_ceilDiv, Nat.div_eq_of_lt (by omega)]
        · rw [min_eq_right further, Nat.ceilDiv_eq_add_pred_div, Nat.sub_add_cancel further]
      · obtain rfl : pending = 0 := by omega
        rw [if_neg more, zero_ceilDiv]
        exact ⟨rfl, List.forall_mem_nil _, rfl⟩

structure UdpOneDirectionTraffic where
  startAtMs : Nat
  client : SocketAddr
  server : SocketAddr
  payloadBytes : Nat
  sendIntervalMs : Nat
  durationMs : Nat
  deriving DecidableEq, Repr

def payloadChunkSizeBytes : Nat := 1200

namespace UdpOneDirectionTraffic

def pace (t : UdpOneDirectionTraffic) : Pace :=
  ⟨millis t.startAtMs, millis t.sendIntervalMs, millis t.durationMs⟩

/-- The transmits that the payload is sent in each time. -/
def batch (t : UdpOneDirectionTraffic) : List OwnedTransmit :=
  (chunkSizes payloadChunkSizeBytes t.payloadBytes).map fun size =>
    ⟨t.client, t.server, none, List.replicate size 0, none, defaultTtl⟩

end UdpOneDirectionTraffic

/-- The sender of the pattern, with the transmits that it passed to the network, and when. -/
structure OneDirection where
  now : Nat
  sender : Ticker
  sent : List (Nat × OwnedTransmit)
  deriving DecidableEq, Repr

inductive SenderAction where
  | advance (duration : Nat)
  | poll
  deriving DecidableEq, Repr

/-- The bytes that some transmits carry. -/
def bytesSent (sent : List (Nat × OwnedTransmit)) : Nat :=
  (sent.map fun p => p.2.contents.length).sum

namespace OneDirection

def start (created : Nat) : OneDirection := ⟨created, .new, []⟩

def step (t : UdpOneDirectionTraffic) (this : OneDirection) : SenderAction → Option OneDirection
  | .advance duration => some { this with now := this.now + duration }
  | .poll =>
    (this.sender.poll t.pace this.now).map fun sender =>
      { this with
        sender
        sent := if sender.phase = .done then this.sent
          else this.sent ++ t.batch.map fun transmit => (this.now, transmit) }

/-- The sender is not late when time goes by. -/
def Prompt (t : UdpOneDirectionTraffic) (this : OneDirection) : SenderAction → Prop
  | .advance duration => ∀ wake ∈ this.sender.wake? t.pace, this.now + duration ≤ wake
  | .poll => True

variable {t : UdpOneDirectionTraffic} {created : Nat} {s s' : OneDirection} {action : SenderAction}
  {past : List (OneDirection × SenderAction)}

/-- At each tick, the sender has sent its batch. -/
structure Batches (t : UdpOneDirectionTraffic) (s : OneDirection) : Prop where
  ticks : Ticker.Ticks t.pace s.now s.sender
  sent : s.sent = Ticker.batches t.batch s.sender.ticks

theorem Batches.step (batches : Batches t s) (taken : s.step t action = some s') : Batches t s' := by
  cases action with
  | advance duration =>
      obtain rfl := Option.some.inj taken
      exact ⟨batches.ticks.wait (Nat.le_add_right _ _), batches.sent⟩
  | poll =>
      obtain ⟨sender, polled, rfl⟩ := Option.map_eq_some_iff.mp taken
      refine ⟨batches.ticks.poll polled, ?_⟩
      rcases Ticker.poll_cases polled with ⟨ended, same⟩ | ⟨more, grown⟩
      · simp only [if_pos ended, same]
        exact batches.sent
      · simp only [if_neg more, grown, Ticker.batches_concat]
        rw [batches.sent]

/-- What is sent at some of the ticks. -/
theorem bytesSent_ticks (t : UdpOneDirectionTraffic) (test : Nat → Bool) (ticks : List Nat) :
    bytesSent ((Ticker.batches t.batch ticks).filter (test ·.1)) =
      (ticks.filter test).length * t.payloadBytes := by
  have total := (@chunkSizes_exact payloadChunkSizeBytes (by decide) t.payloadBytes).1
  have contents : t.batch.map (·.contents.length) = chunkSizes payloadChunkSizeBytes t.payloadBytes := by
    rw [UdpOneDirectionTraffic.batch, List.map_map]
    refine (List.map_congr_left fun size _ => ?_).trans (List.map_id _)
    simp
  rw [Ticker.filter_batches]
  refine (Ticker.sum_batches t.batch (ticks.filter test) (·.contents.length)).trans ?_
  rw [contents, total]

theorem batches_of_run (run : Run (step t) (start created) past s) : Batches t s :=
  run.invariant (Batches t) ⟨.starting, rfl⟩ fun _ _ _ batches taken => batches.step taken

theorem punctual_of_run (run : Run (step t) (start created) past s)
    (prompt : ∀ move ∈ past, move.1.Prompt t move.2) : Ticker.Punctual t.pace created s.now s.sender := by
  refine run.guarded (fun s => Ticker.Punctual t.pace created s.now s.sender) (Prompt t)
    (.starting le_rfl (le_max_left _ _)) prompt fun s action s' punctual meets taken => ?_
  cases action with
  | advance duration =>
      obtain rfl := Option.some.inj taken
      exact punctual.wait (Nat.le_add_right _ _) meets
  | poll =>
      obtain ⟨sender, polled, rfl⟩ := Option.map_eq_some_iff.mp taken
      exact punctual.poll polled

instance (t : UdpOneDirectionTraffic) (s : OneDirection) (action : SenderAction) :
    Decidable (s.Prompt t action) :=
  match action with
  | .advance duration =>
    inferInstanceAs (Decidable (∀ wake ∈ s.sender.wake? t.pace, s.now + duration ≤ wake))
  | .poll => isTrue trivial

/-- Three thousand bytes each millisecond, for two. -/
def twoBatches : UdpOneDirectionTraffic := ⟨0, ⟨.v4 1, 4433⟩, ⟨.v4 2, 4433⟩, 3000, 1, 2⟩

end OneDirection

end Workbench.Udp
