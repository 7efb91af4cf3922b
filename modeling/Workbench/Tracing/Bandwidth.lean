import Mathlib.Algebra.Order.Group.Unbundled.Int
import Mathlib.Tactic.Linarith
import Workbench.Library.Trace
import Workbench.Network.Pacer
import Workbench.Tracing.Consistency

/-! The verifier's bandwidth check over the sends that a pacer lets through.

The check counts the packets of a window that is closed at both ends and as long as
the time in which the link sends what its bandwidth allows, so the packet at one end
comes on top of what fills the rest. -/

set_option autoImplicit false

namespace Workbench.Tracing

open Workbench.Library Workbench.Network

/-- The link after a replay of sends, by their times and sizes. -/
def ReplayedLink.replay (bandwidth : Nat) (sent : List (Nat × Nat)) : Option ReplayedLink :=
  sent.foldlM (fun link p => (link.packetSent p.1 p.2 bandwidth).map Prod.snd) .new

/-- A replay of the sends never finds more bandwidth used than the link has. -/
def WithinBandwidth (bandwidth : Nat) (sent : List (Nat × Nat)) : Prop :=
  ∀ before time size after, sent = before ++ (time, size) :: after →
    ∃ link used link', ReplayedLink.replay bandwidth before = some link ∧
      link.packetSent time size bandwidth = some (used, link') ∧ used ≤ bandwidth

/-- The window of the bandwidth check, in nanoseconds. -/
def window (bandwidth : Nat) : Nat := ReplayedLink.windowSeconds bandwidth * nanosPerSecond

/-- The bits of the packets sent since a time, that time included. -/
def bitsSince (first : Nat) (sent : List (Nat × Nat)) : Nat :=
  ((sent.filter fun p => first ≤ p.1).map fun p => p.2 * 8).sum

theorem windowSeconds_pos (bandwidth : Nat) : 0 < ReplayedLink.windowSeconds bandwidth := by
  unfold ReplayedLink.windowSeconds
  split <;> omega

namespace ReplayedLink

/-- What a link has in its window after some sends, the last of them at a time. -/
structure Slid (bandwidth last : Nat) (sent : List (Nat × Nat)) (link : ReplayedLink) : Prop where
  consistent : link.Consistent
  packets : link.packetsInBandwidthWindow =
    (sent.filter fun p => last ≤ p.1 + window bandwidth).map fun p => (p.1, p.2 * 8)

theorem slide_slid {length last now bits : Nat} {sent : List (Nat × Nat)} {size : Nat}
    (sorted : (sent.map Prod.fst).Pairwise (· ≤ ·)) (later : last ≤ now) (same : bits = size * 8) :
    slide length now bits ((sent.filter fun p => last ≤ p.1 + length).map fun p => (p.1, p.2 * 8)) =
      ((sent ++ [(now, size)]).filter fun p => now ≤ p.1 + length).map fun p => (p.1, p.2 * 8) := by
  have order : ((sent.filter fun p => last ≤ p.1 + length).map fun p => (p.1, p.2 * 8)).Pairwise
      fun a b => decide (b.1 + length < now) = true → decide (a.1 + length < now) = true := by
    rw [List.pairwise_map] at sorted ⊢
    refine (sorted.filter _).imp fun {a b} le => ?_
    simp only [decide_eq_true_eq]
    omega
  unfold slide
  rw [dropWhile_eq_filter order, List.filter_map, List.filter_filter, List.filter_append,
    List.map_append]
  congr 1
  · congr 1
    refine List.filter_congr fun p _ => ?_
    simp only [Function.comp, Bool.and_eq_decide, ← decide_not, decide_eq_true_eq, not_lt]
    rw [decide_eq_decide]
    omega
  · simp [same]

theorem Slid.packetSent {bandwidth last now : Nat} {sent : List (Nat × Nat)}
    {link : ReplayedLink} (slid : Slid bandwidth last sent link)
    (sorted : (sent.map Prod.fst).Pairwise (· ≤ ·)) (later : last ≤ now) (size : Nat) :
    ∃ link', link.packetSent now size bandwidth =
        some (bitsSince (now - window bandwidth) (sent ++ [(now, size)]) / windowSeconds bandwidth,
          link') ∧
      Slid bandwidth now (sent ++ [(now, size)]) link' := by
  have replayed := slid.consistent.packetSent now size bandwidth
  dsimp only at replayed
  rw [slid.packets, show windowSeconds bandwidth * nanosPerSecond = window bandwidth from rfl,
    slide_slid sorted later rfl] at replayed
  have total : bits (((sent ++ [(now, size)]).filter fun p => now ≤ p.1 + window bandwidth).map
      fun p => (p.1, p.2 * 8)) = bitsSince (now - window bandwidth) (sent ++ [(now, size)]) := by
    unfold bits bitsSince
    rw [List.map_map]
    congr 2
    refine List.filter_congr fun p _ => ?_
    rw [decide_eq_decide]
    omega
  rw [total] at replayed
  exact ⟨_, replayed, rfl, rfl⟩

theorem replay_slid (bandwidth : Nat) {last : Nat} {sent : List (Nat × Nat)}
    (sorted : (sent.map Prod.fst).Pairwise (· ≤ ·)) (bound : ∀ p ∈ sent, p.1 ≤ last) :
    ∃ link earlier, earlier ≤ last ∧ replay bandwidth sent = some link ∧
      Slid bandwidth earlier sent link := by
  induction sent using List.reverseRecOn generalizing last with
  | nil => exact ⟨.new, 0, Nat.zero_le _, rfl, consistent_new, rfl⟩
  | append_singleton sent p ih =>
      rw [List.map_append, List.pairwise_append] at sorted
      obtain ⟨link, earlier, before, replayed, slid⟩ := ih sorted.1 fun q member =>
        sorted.2.2 q.1 (List.mem_map_of_mem member) p.1 (by simp)
      obtain ⟨link', next, slid'⟩ := slid.packetSent sorted.1 before p.2
      refine ⟨link', p.1, bound p (by simp), ?_, slid'⟩
      rw [replay, List.foldlM_append, ← replay, replayed]
      simp [next]

/-- The values that a sequence of calls returns, and the link after them. -/
def calls (bandwidth : Nat) (this : ReplayedLink) :
    List (Nat × Nat) → Option (List Nat × ReplayedLink)
  | [] => some ([], this)
  | (time, size) :: sent => do
      let (used, this) ← this.packetSent time size bandwidth
      let (values, this) ← this.calls bandwidth sent
      some (used :: values, this)

/-- The bits of the packets sent from one time to another, both included. -/
def bitsWithin (first last : Nat) (sent : List (Nat × Nat)) : Nat :=
  ((sent.filter fun p => first ≤ p.1 ∧ p.1 ≤ last).map fun p => p.2 * 8).sum

theorem bitsWithin_eq {first last : Nat} {sent : List (Nat × Nat)}
    (bound : ∀ p ∈ sent, p.1 ≤ last) : bitsWithin first last sent = bitsSince first sent := by
  unfold bitsWithin bitsSince
  congr 2
  refine List.filter_congr fun p member => ?_
  simp [bound p member]

theorem packetSent_max {this link : ReplayedLink} {time size bandwidth used : Nat}
    (sent : this.packetSent time size bandwidth = some (used, link)) :
    link.maxBandwidthUsageBps = max this.maxBandwidthUsageBps used := by
  unfold packetSent at sent
  obtain ⟨⟨usage, window⟩, -, rest⟩ := Option.bind_eq_some_iff.mp sent
  obtain ⟨rfl, rfl⟩ := Prod.mk.inj (Option.some.inj rest)
  rfl

section Calls

variable {bandwidth last : Nat} {past : List (Nat × Nat)} {link : ReplayedLink}

/-- A word that holds the bits of all packets sent holds the usage as well. -/
theorem Slid.usage_le (slid : Slid bandwidth last past link) :
    link.bandwidthUsageBps ≤ (past.map fun p => p.2 * 8).sum := by
  rw [show link.bandwidthUsageBps = _ from slid.consistent, slid.packets, bits, List.map_map]
  exact (List.filter_sublist.map _).sum_le_sum fun _ _ => Nat.zero_le _

/-- One call after others, none of them later. -/
theorem Slid.call (slid : Slid bandwidth last past link) {time : Nat} (size : Nat)
    (sorted : ((past ++ [(time, size)]).map Prod.fst).Pairwise (· ≤ ·)) (later : last ≤ time) :
    ∃ used link', link.packetSent time size bandwidth = some (used, link') ∧
      used = bitsWithin (time - window bandwidth) time (past ++ [(time, size)]) /
        windowSeconds bandwidth ∧
      Slid bandwidth time (past ++ [(time, size)]) link' := by
  rw [List.map_append, List.pairwise_append] at sorted
  obtain ⟨link', sent, slid'⟩ := slid.packetSent sorted.1 later size
  refine ⟨_, link', sent, ?_, slid'⟩
  rw [bitsWithin_eq]
  intro p member
  rcases List.mem_append.mp member with old | new
  · exact sorted.2.2 p.1 (List.mem_map_of_mem old) time (by simp)
  · obtain rfl := List.mem_singleton.mp new
    exact le_rfl

/-- The calls after others: what they return counts the packets of those as well. -/
theorem Slid.calls (slid : Slid bandwidth last past link) (sent : List (Nat × Nat))
    (sorted : ((past ++ sent).map Prod.fst).Pairwise (· ≤ ·)) (later : ∀ p ∈ sent, last ≤ p.1) :
    ∃ values link', link.calls bandwidth sent = some (values, link') ∧
      (∃ last, Slid bandwidth last (past ++ sent) link') ∧
      link'.maxBandwidthUsageBps = values.foldl max link.maxBandwidthUsageBps ∧
      values.length = sent.length ∧
      ∀ before time size after, sent = before ++ (time, size) :: after →
        values[before.length]? = some (bitsWithin (time - window bandwidth) time
          (past ++ before ++ [(time, size)]) / windowSeconds bandwidth) := by
  induction sent generalizing last past link with
  | nil => exact ⟨[], link, rfl, ⟨last, by simpa using slid⟩, rfl, rfl, by simp⟩
  | cons p sent ih =>
      obtain ⟨now, length⟩ := p
      rw [List.append_cons] at sorted
      have order := sorted
      rw [List.map_append, List.pairwise_append] at order
      have next : last ≤ now := later _ List.mem_cons_self
      obtain ⟨used, link₁, first, counted, slid₁⟩ := slid.call length order.1 next
      obtain ⟨values, link', rest, slid', highest, same, exact⟩ := ih slid₁ sorted
        fun q member => order.2.2 now (by simp) q.1 (List.mem_map_of_mem member)
      rw [← List.append_cons] at slid'
      refine ⟨used :: values, link', ?_, slid', ?_, by simp [same], ?_⟩
      · simp [ReplayedLink.calls, first, rest]
      · rw [List.foldl_cons, ← packetSent_max first, highest]
      · intro before time size after split
        cases before with
        | nil =>
            obtain ⟨rfl, rfl⟩ := Prod.mk.inj (List.cons.inj split).1
            simp [counted]
        | cons q before =>
            obtain ⟨rfl, others⟩ := List.cons.inj split
            simpa using exact before time size after others

end Calls

/-- The window is exact: a call returns the bits of all packets sent so far that its
window holds by their times, the usage is the sum of what the link has stored of them,
and the maximum is that of all values returned. No sum exceeds that of all packets. -/
theorem calls_exact {bandwidth : Nat} {sent : List (Nat × Nat)}
    (sorted : (sent.map Prod.fst).Pairwise (· ≤ ·)) :
    ∃ values link, new.calls bandwidth sent = some (values, link) ∧
      link.bandwidthUsageBps = bits link.packetsInBandwidthWindow ∧
      link.bandwidthUsageBps ≤ (sent.map fun p => p.2 * 8).sum ∧
      link.maxBandwidthUsageBps = values.foldl max 0 ∧ values.length = sent.length ∧
      ∀ before time size after, sent = before ++ (time, size) :: after →
        values[before.length]? = some (bitsWithin (time - window bandwidth) time
          (before ++ [(time, size)]) / windowSeconds bandwidth) := by
  have slid : Slid bandwidth 0 [] new := ⟨consistent_new, rfl⟩
  obtain ⟨values, link, called, ⟨last, slid'⟩, highest, same, exact⟩ :=
    slid.calls sent sorted fun _ _ => Nat.zero_le _
  exact ⟨values, link, called, slid'.consistent, slid'.usage_le, highest, same, exact⟩

/-- Two packets at one instant, a third at the end of their window, a fourth after it. -/
theorem calls_exact_burst : ∃ values link,
    new.calls 10000 [(0, 125), (0, 125), (1000000000, 250), (3000000000, 125)] =
        some (values, link) ∧
      link.bandwidthUsageBps = bits link.packetsInBandwidthWindow ∧
      link.bandwidthUsageBps ≤ 5000 ∧
      link.maxBandwidthUsageBps = values.foldl max 0 ∧ values.length = 4 ∧
      ∀ before time size after,
        [(0, 125), (0, 125), (1000000000, 250), (3000000000, 125)] =
          before ++ (time, size) :: after →
        values[before.length]? = some (bitsWithin (time - window 10000) time
          (before ++ [(time, size)]) / windowSeconds 10000) :=
  calls_exact (by decide)

example : (new.calls 10000 [(0, 125), (0, 125), (1000000000, 250), (3000000000, 125)]).map
    Prod.fst = some [1000, 2000, 4000, 1000] := by decide

end ReplayedLink

/-- The check finds the bandwidth exceeded where a closed window holds more than it. -/
theorem withinBandwidth_of_sorted {bandwidth : Nat} {sent : List (Nat × Nat)}
    (sorted : (sent.map Prod.fst).Pairwise (· ≤ ·)) : WithinBandwidth bandwidth sent ↔
      ∀ before time size after, sent = before ++ (time, size) :: after →
        bitsSince (time - window bandwidth) (before ++ [(time, size)]) <
          (bandwidth + 1) * ReplayedLink.windowSeconds bandwidth := by
  have used (before after : List (Nat × Nat)) (time size : Nat)
      (split : sent = before ++ (time, size) :: after) :
      ∃ link link', ReplayedLink.replay bandwidth before = some link ∧
        link.packetSent time size bandwidth =
          some (bitsSince (time - window bandwidth) (before ++ [(time, size)]) /
            ReplayedLink.windowSeconds bandwidth, link') := by
    have order := sorted
    rw [split, List.map_append, List.pairwise_append] at order
    obtain ⟨link, earlier, first, replayed, slid⟩ := ReplayedLink.replay_slid bandwidth
      order.1 fun p member => order.2.2 p.1 (List.mem_map_of_mem member) time (by simp)
    obtain ⟨link', next, -⟩ := slid.packetSent order.1 first size
    exact ⟨link, link', replayed, next⟩
  constructor
  · intro within before time size after split
    obtain ⟨link, link', replayed, sent⟩ := used before after time size split
    obtain ⟨link₀, amount, _, replayed₀, sent₀, bounded⟩ := within before time size after split
    obtain rfl := Option.some.inj (replayed.symm.trans replayed₀)
    obtain ⟨rfl, -⟩ := Prod.mk.inj (Option.some.inj (sent.symm.trans sent₀))
    exact (Nat.div_lt_iff_lt_mul (windowSeconds_pos bandwidth)).mp (Nat.lt_succ_of_le bounded)
  · intro fits before time size after split
    obtain ⟨link, link', replayed, sent⟩ := used before after time size split
    refine ⟨link, _, link', replayed, sent, Nat.le_of_lt_succ ?_⟩
    exact (Nat.div_lt_iff_lt_mul (windowSeconds_pos bandwidth)).mpr
      (fits before time size after split)

end Workbench.Tracing

namespace Workbench.Network.PacerHistory

open Workbench.Library Workbench.Tracing

/-- The slots of the packets in the closed window that ends with the last one. -/
def recent (bandwidth : Nat) (earlier : List Slot) (last : Slot) : List Slot :=
  (earlier ++ [last]).filter fun slot => last.sent ≤ slot.sent + window bandwidth

/-- By how much the bits of some packets exceed those that the bandwidth lets through in their
slots, which take whole nanoseconds. -/
def excess (bandwidth : Nat) (slots : List Slot) : Int :=
  (slots.map fun slot => (slot.size * 8 * nanosPerSecond : Int) - bandwidth * slot.length).sum

/-- From the start of the first of some slots to the end of the last one, the pacer is idle for
about as long as that is longer than the window. -/
def Rests (bandwidth : Nat) (slots : List Slot) : Prop :=
  bandwidth * ((span (slots.map Slot.time) : Nat) : Int) + excess bandwidth slots <
    bandwidth * ((idle (slots.map Slot.time) : Nat) : Int) + (bandwidth + 1) * window bandwidth

instance (bandwidth : Nat) (slots : List Slot) : Decidable (Rests bandwidth slots) :=
  inferInstanceAs (Decidable (_ < _))

/-- The delay of a packet is the time that its bits take at the bandwidth, up to a nanosecond. -/
def Accurate (bandwidth : Nat) (packetDelay : Nat → Nat) (size : Nat) : Prop :=
  |(size * 8 * nanosPerSecond : Int) - bandwidth * packetDelay size| ≤ bandwidth

instance (bandwidth : Nat) (packetDelay : Nat → Nat) (size : Nat) :
    Decidable (Accurate bandwidth packetDelay size) := inferInstanceAs (Decidable (_ ≤ _))

section Slots

variable {bandwidth : Nat} {packetDelay : Nat → Nat} {slots earlier : List Slot} {last : Slot}

/-- The bits of some packets are what the bandwidth lets through in their slots, and the excess. -/
theorem bits_eq (bandwidth : Nat) (slots : List Slot) :
    (((slots.map fun slot => slot.size * 8).sum : Nat) : Int) * nanosPerSecond =
      bandwidth * ((busy (slots.map Slot.time) : Nat) : Int) + excess bandwidth slots := by
  induction slots with
  | nil => simp [busy, excess]
  | cons slot slots ih =>
      simp only [busy, excess, List.map_cons, List.sum_cons, Slot.time] at ih ⊢
      push_cast at ih ⊢
      linarith

theorem abs_excess_le (accurate : ∀ slot ∈ slots, Accurate bandwidth packetDelay slot.size)
    (prompt : ∀ slot ∈ slots, slot.Prompt packetDelay) :
    |excess bandwidth slots| ≤ bandwidth * slots.length := by
  induction slots with
  | nil => simp [excess]
  | cons slot slots ih =>
      obtain ⟨near, others⟩ := List.forall_mem_cons.mp accurate
      obtain ⟨first, later⟩ := List.forall_mem_cons.mp prompt
      have rest := ih others later
      rw [Accurate, ← first.length] at near
      have both := abs_add_le ((slot.size * 8 * nanosPerSecond : Int) - bandwidth * slot.length)
        (excess bandwidth slots)
      rw [excess, List.map_cons, List.sum_cons, ← excess, List.length_cons]
      push_cast
      linarith

/-- The bits of the window stay below the bandwidth exactly where the pacer rests. -/
theorem bitsSince_lt_iff (bandwidth : Nat) (inTurn : InTurn ((earlier ++ [last]).map Slot.time)) :
    bitsSince (last.sent - window bandwidth)
        ((earlier ++ [last]).map fun slot => (slot.sent, slot.size)) <
          (bandwidth + 1) * ReplayedLink.windowSeconds bandwidth ↔
      Rests bandwidth (recent bandwidth earlier last) := by
  have bits : bitsSince (last.sent - window bandwidth)
      ((earlier ++ [last]).map fun slot => (slot.sent, slot.size)) =
        ((recent bandwidth earlier last).map fun slot => slot.size * 8).sum := by
    rw [bitsSince, recent, List.filter_map, List.map_map]
    congr 2
    refine List.filter_congr fun slot _ => ?_
    rw [Function.comp_apply, decide_eq_decide]
    omega
  have total := bits_eq bandwidth (recent bandwidth earlier last)
  have split := busy_add_idle (List.Pairwise.sublist (List.filter_sublist.map Slot.time) inTurn :
    InTurn ((recent bandwidth earlier last).map Slot.time))
  have positive : (0 : Int) < nanosPerSecond := by decide
  rw [bits, Rests, ← split, window]
  push_cast at total ⊢
  constructor
  · intro below
    have scaled := Int.mul_lt_mul_of_pos_right (Int.ofNat_lt.mpr below) positive
    push_cast at scaled
    linarith
  · intro rests
    apply Int.ofNat_lt.mp
    refine lt_of_mul_lt_mul_right ?_ positive.le
    push_cast
    linarith

/-- The slots of a window reach over it by the delay of a batch, or of its last packet. -/
theorem span_recent_le (prompt : ∀ slot ∈ earlier ++ [last], slot.Prompt packetDelay) :
    span ((recent bandwidth earlier last).map Slot.time) ≤
      window bandwidth + max batchMaxDelay last.length := by
  have ends : (recent bandwidth earlier last).getLast? = some last := by
    rw [recent, List.filter_append]
    simp
  cases slots : recent bandwidth earlier last with
  | nil => simp [span]
  | cons first rest =>
      have member : first ∈ recent bandwidth earlier last := slots ▸ List.mem_cons_self
      obtain ⟨inside, within⟩ := List.mem_filter.mp member
      have started := (prompt first inside).sent_le
      have ended := (prompt last (by simp)).finish_le
      rw [slots] at ends
      rw [span, List.getLast?_map, ends]
      simp only [List.map_cons, List.head?_cons, Option.map_some, Slot.time, Slot.finish,
        decide_eq_true_eq] at within ended ⊢
      omega

end Slots

/-- A packet of half a second, and another one once the link has been idle for a while. -/
def spaced : List PacerUse :=
  [.canSend 0 625, .canSend 0 100, .trackSend 0 625, .canSend 100 500, .durationUntilCanSend 600000000 500,
    .canSend 700000000 500, .trackSend 700000000 500]

end Workbench.Network.PacerHistory
