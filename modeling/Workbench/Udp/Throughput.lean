import Mathlib.Tactic.Ring
import Workbench.Tracing.Bandwidth
import Workbench.Udp.OneDirection

/-! The throughput test: a sender that never stops by itself, a receiver that notes what arrives and
when, and the highest throughput that is reported in the end, smoothed over a window. -/

set_option autoImplicit false

namespace Workbench.Udp

open Workbench.Library Workbench.Network Workbench.Tracing Workbench.Quic

/-- The loop over the packets that arrived, by their times and sizes. -/
structure Smoothing where
  window : List (Nat × Nat)
  bytesInWindow : Nat
  maxSmoothedThroughputBps : Nat
  deriving DecidableEq, Repr

def windowDuration : Nat := millis 100

namespace Smoothing

def new : Smoothing := ⟨[], 0, 0⟩

/-- Nothing where the subtraction of what left the window overflows. -/
def add (this : Smoothing) (packet : Nat × Nat) : Option Smoothing := do
  let (arrivalTime, bytes) := packet
  let (bytesInWindow, window) ← ReplayedLink.dropExpired windowDuration arrivalTime
    this.bytesInWindow this.window
  let bytesInWindow := bytesInWindow + bytes
  let smoothedThroughputBps := bytesInWindow * 8 * 10
  some ⟨window ++ [(arrivalTime, bytes)], bytesInWindow,
    max this.maxSmoothedThroughputBps smoothedThroughputBps⟩

end Smoothing

def maxSmoothedThroughputBps (packets : List (Nat × Nat)) : Option Nat :=
  (packets.foldlM Smoothing.add .new).map (·.maxSmoothedThroughputBps)

/-- The throughput over a window that ends at some time, for a second. -/
def throughput (packets : List (Nat × Nat)) (time : Nat) : Nat :=
  ((packets.filter fun p => time ≤ p.1 + windowDuration ∧ p.1 ≤ time).map Prod.snd).sum * 8 * 10

/-- The throughput that the loop computes at a packet, after others. -/
def smoothed (m : List (Nat × Nat) × Nat × Nat) : Nat :=
  (((m.1 ++ [m.2]).filter fun p => m.2.1 ≤ p.1 + windowDuration).map Prod.snd).sum * 8 * 10

/-- What the loop has, after some packets. -/
structure Smoothing.Covers (this : Smoothing) (packets : List (Nat × Nat)) : Prop where
  window : ∃ last, (∀ p ∈ packets, p.1 ≤ last) ∧ (packets = [] ∨ last ∈ packets.map Prod.fst) ∧
    this.window = packets.filter fun p => last ≤ p.1 + windowDuration
  bytes : this.bytesInWindow = ReplayedLink.bits this.window
  most : this.maxSmoothedThroughputBps = ((moments packets).map smoothed).foldl max 0

theorem Smoothing.Covers.add {this : Smoothing} {packets : List (Nat × Nat)} (covers : this.Covers packets)
    (packet : Nat × Nat) (sorted : ((packets ++ [packet]).map Prod.fst).Pairwise (· ≤ ·)) :
    ∃ next, this.add packet = some next ∧ next.Covers (packets ++ [packet]) := by
  obtain ⟨time, bytes⟩ := packet
  obtain ⟨last, bound, stamped, window⟩ := covers.window
  rw [List.map_append, List.pairwise_append] at sorted
  obtain ⟨before, -, after⟩ := sorted
  have later : ∀ p ∈ packets, p.1 ≤ time := fun p member =>
    after p.1 (List.mem_map_of_mem member) time (by simp)
  have kept : (this.window.dropWhile fun p => p.1 + windowDuration < time) =
      packets.filter fun p => time ≤ p.1 + windowDuration := by
    have order : this.window.Pairwise fun a b =>
        decide (b.1 + windowDuration < time) = true → decide (a.1 + windowDuration < time) = true := by
      rw [window]
      rw [List.pairwise_map] at before
      refine (before.filter _).imp fun {a b} le => ?_
      simp only [decide_eq_true_eq]
      omega
    have past : ∀ p ∈ packets, last ≤ time := by
      intro p member
      rcases stamped with empty | stamped
      · rw [empty] at member
        cases member
      · obtain ⟨q, inside, rfl⟩ := List.mem_map.mp stamped
        exact later q inside
    rw [dropWhile_eq_filter order, window, List.filter_filter]
    refine List.filter_congr fun p member => ?_
    have := past p member
    simp only [Bool.and_eq_decide, ← decide_not, decide_eq_true_eq, not_lt]
    rw [decide_eq_decide]
    omega
  have grown : (packets ++ [(time, bytes)]).filter (fun p => time ≤ p.1 + windowDuration) =
      (packets.filter fun p => time ≤ p.1 + windowDuration) ++ [(time, bytes)] := by
    rw [List.filter_append]
    simp
  have dropped := ReplayedLink.dropExpired_eq windowDuration time this.window
  rw [← covers.bytes, kept] at dropped
  refine ⟨_, by rw [Smoothing.add, dropped]; rfl, ⟨time, ?_, .inr (by simp), grown.symm⟩, ?_, ?_⟩
  · intro p member
    rcases List.mem_append.mp member with old | new
    · exact later p old
    · obtain rfl := List.mem_singleton.mp new
      exact le_rfl
  · simp [ReplayedLink.bits]
  · rw [moments_concat, List.map_append, List.foldl_append, ← covers.most, List.map_singleton,
      List.foldl_cons, List.foldl_nil, smoothed]
    dsimp only
    rw [grown]
    simp [ReplayedLink.bits]

theorem smoothing_covers (packets : List (Nat × Nat)) (sorted : (packets.map Prod.fst).Pairwise (· ≤ ·)) :
    ∃ smoothing, packets.foldlM Smoothing.add .new = some smoothing ∧ smoothing.Covers packets := by
  induction packets using List.reverseRecOn with
  | nil => exact ⟨.new, rfl, ⟨0, List.forall_mem_nil _, .inl rfl, rfl⟩, rfl, rfl⟩
  | append_singleton packets packet ih =>
      have early := sorted
      rw [List.map_append, List.pairwise_append] at early
      obtain ⟨smoothing, folded, covers⟩ := ih early.1
      obtain ⟨next, added, covers'⟩ := covers.add packet sorted
      refine ⟨next, ?_, covers'⟩
      rw [List.foldlM_append, folded]
      simpa using added

/-- The most that is computed over some packets. -/
def peakSmoothed (packets : List (Nat × Nat)) : Nat := ((moments packets).map smoothed).foldl max 0

theorem peakSmoothed_concat (packets : List (Nat × Nat)) (packet : Nat × Nat) :
    peakSmoothed (packets ++ [packet]) = max (peakSmoothed packets) (smoothed (packets, packet)) := by
  simp [peakSmoothed]

theorem throughput_concat (packets : List (Nat × Nat)) (packet : Nat × Nat) (time : Nat) :
    throughput (packets ++ [packet]) time = throughput packets time +
      if time ≤ packet.1 + windowDuration ∧ packet.1 ≤ time then packet.2 * 8 * 10 else 0 := by
  unfold throughput
  rw [List.filter_append, List.map_append, List.sum_append]
  split
  · next inside => simp [inside, Nat.add_mul]
  · next outside => simp [outside]

/-- Nothing has arrived yet after the newest packet. -/
theorem throughput_le_smoothed {packets : List (Nat × Nat)} {packet : Nat × Nat} {time : Nat}
    (bound : packet.1 ≤ time) : throughput (packets ++ [packet]) time ≤ smoothed (packets, packet) := by
  unfold throughput smoothed
  dsimp only
  have fewer : ((packets ++ [packet]).filter fun p => time ≤ p.1 + windowDuration ∧ p.1 ≤ time).Sublist
      ((packets ++ [packet]).filter fun p => packet.1 ≤ p.1 + windowDuration) := by
    apply List.monotone_filter_right
    intro p inside
    simp only [decide_eq_true_eq] at inside ⊢
    omega
  have sums := (fewer.map Prod.snd).sum_le_sum fun _ _ => Nat.zero_le _
  omega

theorem smoothed_eq_throughput {packets : List (Nat × Nat)} {packet : Nat × Nat}
    (sorted : ((packets ++ [packet]).map Prod.fst).Pairwise (· ≤ ·)) :
    smoothed (packets, packet) = throughput (packets ++ [packet]) packet.1 := by
  rw [List.map_append, List.pairwise_append] at sorted
  unfold throughput smoothed
  congr 4
  refine List.filter_congr fun p member => ?_
  have bound : p.1 ≤ packet.1 := by
    rcases List.mem_append.mp member with old | new
    · exact sorted.2.2 p.1 (List.mem_map_of_mem old) packet.1 (by simp)
    · obtain rfl := List.mem_singleton.mp new
      exact le_rfl
  simp [bound]

theorem throughput_le_peak {packets : List (Nat × Nat)}
    (sorted : (packets.map Prod.fst).Pairwise (· ≤ ·)) (time : Nat) :
    throughput packets time ≤ peakSmoothed packets := by
  induction packets using List.reverseRecOn with
  | nil => exact Nat.zero_le _
  | append_singleton packets packet ih =>
      rw [peakSmoothed_concat]
      by_cases bound : packet.1 ≤ time
      · exact (throughput_le_smoothed bound).trans (le_max_right _ _)
      · rw [throughput_concat, if_neg fun inside => bound inside.2]
        rw [List.map_append, List.pairwise_append] at sorted
        exact (ih sorted.1).trans (le_max_left _ _)

/-- The peak is the throughput at the time at which some packet arrives. -/
theorem peak_attained {packets : List (Nat × Nat)}
    (sorted : (packets.map Prod.fst).Pairwise (· ≤ ·)) (some : packets ≠ []) :
    ∃ p ∈ packets, peakSmoothed packets = throughput packets p.1 := by
  induction packets using List.reverseRecOn with
  | nil => exact absurd rfl some
  | append_singleton packets packet ih =>
      have early := sorted
      rw [List.map_append, List.pairwise_append] at early
      rcases le_total (peakSmoothed packets) (smoothed (packets, packet)) with newer | older
      · refine ⟨packet, by simp, ?_⟩
        rw [peakSmoothed_concat, max_eq_right newer, smoothed_eq_throughput sorted]
      · rcases List.eq_nil_or_concat' packets with rfl | ⟨others, last, rfl⟩
        · refine ⟨packet, by simp, ?_⟩
          have none : smoothed ([], packet) = 0 := Nat.le_zero.mp older
          rw [peakSmoothed_concat, none, ← smoothed_eq_throughput sorted, none]
          rfl
        · obtain ⟨p, member, same⟩ := ih early.1 (by simp)
          refine ⟨p, List.mem_append_left _ member, ?_⟩
          apply le_antisymm
          · rw [peakSmoothed_concat, max_eq_left older, same, throughput_concat _ packet]
            exact Nat.le_add_right _ _
          · exact throughput_le_peak sorted p.1

/-! The test as a whole. -/

def sendInterval : Nat := millis 50

/-- What is sent in each interval, in bytes. -/
def sendBytesPerInterval (sendBps : Nat) : Nat := sendBps / 8 / (1000 / 50)

def maxBytesPerTransmit : Nat := 1200

/-- The test while it runs: the time at which its sender wakes, and the times and sizes of the packets
that were sent and that arrived. -/
structure Throughput where
  now : Nat
  wake : Option Nat
  cancelled : Bool
  ticks : List Nat
  sent : List (Nat × Nat)
  arrivedPackets : List (Nat × Nat)
  deriving DecidableEq, Repr

inductive ThroughputAction where
  | advance (duration : Nat)
  | pollSender
  | receive (sizes : List Nat)
  | cancel
  deriving DecidableEq, Repr

namespace Throughput

def start (created : Nat) : Throughput := ⟨created, some created, false, [], [], []⟩

def step (sendBps : Nat) (this : Throughput) : ThroughputAction → Option Throughput
  | .advance duration => some { this with now := this.now + duration }
  | .pollSender =>
    this.wake.bind fun wake =>
      if this.now < wake then none
      else if this.cancelled then some { this with wake := none }
      else
        let sizes := chunkSizes maxBytesPerTransmit (sendBytesPerInterval sendBps)
        some { this with
          wake := some (this.now + sendInterval)
          ticks := this.ticks ++ [this.now]
          sent := this.sent ++ sizes.map fun size => (this.now, size) }
  | .receive sizes =>
    if this.cancelled then none
    else some { this with
      arrivedPackets := this.arrivedPackets ++ sizes.map fun size => (this.now, size) }
  | .cancel => some { this with cancelled := true }

variable {sendBps created : Nat} {s s' : Throughput} {action : ThroughputAction}
  {past : List (Throughput × ThroughputAction)}

/-- The sender keeps its pace, and packets arrive in the order of time. -/
structure Keeps (sendBps : Nat) (s : Throughput) : Prop where
  apart : s.ticks.Pairwise fun t t' => t + sendInterval ≤ t'
  wakes : ∀ wake, s.wake = some wake → ∀ t ∈ s.ticks, t + sendInterval ≤ wake
  sent : s.sent = Ticker.batches
    (chunkSizes maxBytesPerTransmit (sendBytesPerInterval sendBps)) s.ticks
  sorted : (s.arrivedPackets.map Prod.fst).Pairwise (· ≤ ·)
  arrived : ∀ p ∈ s.arrivedPackets, p.1 ≤ s.now

theorem Keeps.step (keeps : Keeps sendBps s) (taken : s.step sendBps action = some s') :
    Keeps sendBps s' := by
  cases action with
  | advance duration =>
      obtain rfl := Option.some.inj taken
      exact { keeps with arrived := fun p member => (keeps.arrived p member).trans (Nat.le_add_right _ _) }
  | pollSender =>
      obtain ⟨wake, asleep, result⟩ := Option.bind_eq_some_iff.mp taken
      rw [Option.ite_none_left_eq_some, not_lt] at result
      obtain ⟨due, result⟩ := result
      split at result
      · obtain rfl := Option.some.inj result
        exact { keeps with wakes := nofun }
      · obtain rfl := Option.some.inj result
        have later : ∀ t ∈ s.ticks, t + sendInterval ≤ s.now := fun t member =>
          (keeps.wakes wake asleep t member).trans due
        refine { keeps with apart := ?_, wakes := ?_, sent := ?_ }
        · rw [List.pairwise_append]
          exact ⟨keeps.apart, List.pairwise_singleton _ _, by simpa using later⟩
        · intro wake' same t member
          obtain rfl := Option.some.inj same
          rcases List.mem_append.mp member with old | new
          · exact (later t old).trans (Nat.le_add_right _ _)
          · obtain rfl := List.mem_singleton.mp new
            exact le_rfl
        · rw [Ticker.batches_concat, ← keeps.sent]
  | receive sizes =>
      obtain ⟨-, result⟩ := Option.ite_none_left_eq_some.mp taken
      obtain rfl := Option.some.inj result
      have now : ∀ p ∈ sizes.map (fun size => (s.now, size)), p.1 = s.now := by
        intro p member
        obtain ⟨size, -, rfl⟩ := List.mem_map.mp member
        rfl
      refine { keeps with sorted := ?_, arrived := ?_ }
      · rw [List.map_append, List.map_map, List.pairwise_append]
        refine ⟨keeps.sorted, ?_, ?_⟩
        · exact List.pairwise_map.mpr (List.pairwise_of_forall fun _ _ => le_rfl)
        · intro t old t' new
          obtain ⟨p, member, rfl⟩ := List.mem_map.mp old
          obtain ⟨size, -, rfl⟩ := List.mem_map.mp new
          exact keeps.arrived p member
      · intro p member
        rcases List.mem_append.mp member with old | new
        · exact keeps.arrived p old
        · exact (now p new).le
  | cancel =>
      obtain rfl := Option.some.inj taken
      exact { keeps with }

theorem keeps_of_run (run : Run (step sendBps) (start created) past s) : Keeps sendBps s :=
  run.invariant (Keeps sendBps)
    ⟨.nil, fun _ _ => List.forall_mem_nil _, rfl, .nil, List.forall_mem_nil _⟩
    fun _ _ _ keeps taken => keeps.step taken

/-- The bytes of the packets that were sent within some time. -/
def bytesWithin (s : Throughput) (first length : Nat) : Nat :=
  ((s.sent.filter fun p => first ≤ p.1 ∧ p.1 ≤ first + length).map Prod.snd).sum

/-- Each tick sends what an interval allows. -/
theorem bytesWithin_eq (keeps : Keeps sendBps s) (first length : Nat) :
    s.bytesWithin first length = (s.ticks.filter fun t =>
      first ≤ t ∧ t ≤ first + length).length * sendBytesPerInterval sendBps := by
  have whole := (@chunkSizes_exact maxBytesPerTransmit (by decide) (sendBytesPerInterval sendBps)).1
  have within := Ticker.filter_batches
    (chunkSizes maxBytesPerTransmit (sendBytesPerInterval sendBps)) s.ticks
    fun t => first ≤ t ∧ t ≤ first + length
  have sum := Ticker.sum_batches (chunkSizes maxBytesPerTransmit (sendBytesPerInterval sendBps))
    (s.ticks.filter fun t => first ≤ t ∧ t ≤ first + length) id
  rw [List.map_id, whole] at sum
  rw [bytesWithin, keeps.sent, ← sum, ← within]
  rfl

/-- What the intervals of some time allow is within the rate, with one interval more. -/
theorem rate_le {length count : Nat} (near : count ≤ length / sendInterval + 1) :
    nanosPerSecond * (8 * (count * sendBytesPerInterval sendBps)) ≤ sendBps * (length + sendInterval) := by
  have intervals : count * sendInterval ≤ length + sendInterval := by
    calc count * sendInterval ≤ (length / sendInterval + 1) * sendInterval := Nat.mul_le_mul_right _ near
      _ = length / sendInterval * sendInterval + sendInterval := Nat.succ_mul _ _
      _ ≤ length + sendInterval := Nat.add_le_add_right (Nat.div_mul_le_self _ _) _
  have share : 8 * sendBytesPerInterval sendBps * 20 ≤ sendBps := by
    unfold sendBytesPerInterval
    omega
  have second : nanosPerSecond = sendInterval * 20 := by decide
  calc nanosPerSecond * (8 * (count * sendBytesPerInterval sendBps))
      = (8 * sendBytesPerInterval sendBps * 20) * (count * sendInterval) := by rw [second]; ring
    _ ≤ sendBps * (length + sendInterval) := Nat.mul_le_mul share intervals

/-- In every run of the test, no more is sent within some time than the rate allows for it and one
more interval, and the throughput that is reported is the highest one over any window: it is
never exceeded, and it is attained as some packet arrives. -/
theorem measures (run : Run (step sendBps) (start created) past s) :
    (∀ first length, nanosPerSecond * (8 * s.bytesWithin first length) ≤
      sendBps * (length + sendInterval)) ∧
    ∃ peak, maxSmoothedThroughputBps s.arrivedPackets = some peak ∧
      (∀ time, throughput s.arrivedPackets time ≤ peak) ∧
      (s.arrivedPackets ≠ [] → ∃ p ∈ s.arrivedPackets, peak = throughput s.arrivedPackets p.1) := by
  have keeps := keeps_of_run run
  constructor
  · intro first length
    have near := @Ticker.length_of_apart sendInterval length first (by decide) s.ticks keeps.apart
    rw [bytesWithin_eq keeps]
    generalize (s.ticks.filter fun t => first ≤ t ∧ t ≤ first + length).length = count at near
    exact rate_le near
  · obtain ⟨smoothing, folded, covers⟩ := smoothing_covers s.arrivedPackets keeps.sorted
    have peak : maxSmoothedThroughputBps s.arrivedPackets = some (peakSmoothed s.arrivedPackets) := by
      rw [maxSmoothedThroughputBps, folded, Option.map_some, covers.most, peakSmoothed]
    exact ⟨_, peak, throughput_le_peak keeps.sorted, peak_attained keeps.sorted⟩

/-- Three thousand bytes in each interval, of which two packets arrive, one of them later. -/
theorem measures_twoPackets : ∃ past s, Run (step 480000) (start 0) past s ∧
    s.bytesWithin 0 sendInterval = 6000 ∧
    nanosPerSecond * (8 * 6000) ≤ 480000 * (sendInterval + sendInterval) ∧
    ∃ p ∈ s.arrivedPackets, maxSmoothedThroughputBps s.arrivedPackets =
      some (throughput s.arrivedPackets p.1) := by
  let actions : List ThroughputAction := [.pollSender, .advance (millis 10), .receive [1200],
    .advance (millis 40), .pollSender, .receive [1200], .cancel]
  obtain ⟨s, reached, holds⟩ := (Option.any_eq_true _ _).mp <|
    show (attains (step 480000) (start 0) actions).any (fun s => decide <|
      s.bytesWithin 0 sendInterval = 6000 ∧ s.arrivedPackets ≠ []) = true by decide +kernel
  obtain ⟨bytes, arrived⟩ := of_decide_eq_true holds
  have run := Run.of_moves reached
  obtain ⟨rate, peak, reported, -, attained⟩ := measures run
  obtain ⟨p, member, same⟩ := attained arrived
  exact ⟨_, s, run, bytes, bytes ▸ rate 0 sendInterval, p, member, reported.trans (congrArg some same)⟩

end Throughput

end Workbench.Udp
