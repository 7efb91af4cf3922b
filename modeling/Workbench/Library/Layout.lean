import Mathlib.Algebra.Order.Ring.Nat
import Mathlib.Data.List.GetD

/-! Packets of bytes with a layout of bit fields, as protocol headers have them.

A field holds a number with its highest bit first, the order in which a packet's bits
are sent. Setting a field leaves all bits outside it as they are, so fields that lie
apart do not disturb each other, in whatever order they are set. -/

set_option autoImplicit false

namespace Workbench.Library

/-- The bit of a packet at a place, counted from the highest bit of its first byte. -/
def bitAt (packet : List UInt8) (i : Nat) : Bool :=
  (packet.getD (i / 8) 0).toNat.testBit (7 - i % 8)

/-- The place of a field: its first bit, and how many bits it has. -/
structure BitField where
  offset : Nat
  width : Nat
  deriving DecidableEq, Repr

namespace BitField

def endsBy (field : BitField) (i : Nat) : Prop := field.offset + field.width ≤ i

/-- No bit belongs to both fields. -/
def Apart (f g : BitField) : Prop := f.endsBy g.offset ∨ g.endsBy f.offset

instance (field : BitField) (i : Nat) : Decidable (field.endsBy i) :=
  inferInstanceAs (Decidable (_ ≤ _))

instance (f g : BitField) : Decidable (f.Apart g) := inferInstanceAs (Decidable (_ ∨ _))

/-- Fields that a header of some bytes has room for side by side. -/
def Layout (n : Nat) (fields : List BitField) : Prop :=
  fields.Pairwise Apart ∧ ∀ f ∈ fields, f.endsBy (8 * n)

instance (n : Nat) (fields : List BitField) : Decidable (Layout n fields) :=
  inferInstanceAs (Decidable (_ ∧ _))

/-- The number that a packet has in a field. -/
def get (field : BitField) (packet : List UInt8) : Nat :=
  Nat.ofBits fun j : Fin field.width => bitAt packet (field.offset + field.width - 1 - j)

/-- The packet with the lowest bits of a number in a field. -/
def set (field : BitField) (value : Nat) (packet : List UInt8) : List UInt8 :=
  packet.mapIdx fun k byte => .ofNat <| Nat.ofBits fun j : Fin 8 =>
    let i := 8 * k + (7 - j)
    if field.offset ≤ i ∧ i < field.offset + field.width
    then value.testBit (field.offset + field.width - 1 - i)
    else byte.toNat.testBit j

variable {f g : BitField} {packet : List UInt8} {value : Nat}

@[simp] theorem length_set : (f.set value packet).length = packet.length := List.length_mapIdx

theorem bitAt_set {i : Nat} (inside : i < 8 * packet.length) :
    bitAt (f.set value packet) i =
      if f.offset ≤ i ∧ i < f.offset + f.width then value.testBit (f.offset + f.width - 1 - i)
      else bitAt packet i := by
  have byte : i / 8 < packet.length := by omega
  have place : 8 * (i / 8) + (7 - (7 - i % 8)) = i := by omega
  have small : 7 - i % 8 < 8 := by omega
  unfold bitAt set
  rw [List.getD_eq_getElem _ _ (by simpa using byte), List.getD_eq_getElem _ _ byte,
    List.getElem_mapIdx, UInt8.toNat_ofNat', Nat.mod_eq_of_lt (Nat.ofBits_lt_two_pow _),
    Nat.testBit_ofBits_lt _ _ small]
  simp only [place]

theorem bitAt_of_le {i : Nat} (outside : 8 * packet.length ≤ i) : bitAt packet i = false := by
  have byte : packet.length ≤ i / 8 := by omega
  rw [bitAt, List.getD_eq_default _ _ byte]
  exact Nat.zero_testBit _

/-- A field depends on its own bits only. -/
theorem get_congr {packet packet' : List UInt8}
    (same : ∀ i, f.offset ≤ i → i < f.offset + f.width → bitAt packet i = bitAt packet' i) :
    f.get packet = f.get packet' := by
  unfold get
  congr 1
  funext j
  exact same _ (by omega) (by omega)

theorem get_set (inside : f.endsBy (8 * packet.length)) (fits : value < 2 ^ f.width) :
    f.get (f.set value packet) = value := by
  refine Nat.eq_of_testBit_eq fun j => ?_
  unfold endsBy at inside
  by_cases low : j < f.width
  · rw [get, Nat.testBit_ofBits_lt _ _ low, bitAt_set (by dsimp only; omega),
      if_pos (by dsimp only; omega)]
    congr 1
    dsimp only
    omega
  · rw [get, Nat.testBit_ofBits_ge _ _ (by omega), Nat.testBit_lt_two_pow]
    exact Nat.lt_of_lt_of_le fits (Nat.pow_le_pow_right Nat.zero_lt_two (by omega))

theorem get_set_of_apart (apart : f.Apart g) : f.get (g.set value packet) = f.get packet := by
  refine get_congr fun i first last => ?_
  unfold Apart endsBy at apart
  by_cases inside : i < 8 * packet.length
  · rw [bitAt_set inside, if_neg (by omega)]
  · rw [bitAt_of_le (by simp; omega), bitAt_of_le (by omega)]

theorem get_take {n : Nat} (inside : f.endsBy (8 * n)) : f.get (packet.take n) = f.get packet := by
  refine get_congr fun i _ last => ?_
  unfold endsBy at inside
  have byte : i / 8 < n := by omega
  simp [bitAt, List.getD_eq_getElem?_getD, byte]

/-- Setting a field leaves the bytes after it. -/
theorem drop_set {n : Nat} (before : f.endsBy (8 * n)) :
    (f.set value packet).drop n = packet.drop n := by
  refine List.ext_getElem (by simp) fun k inside _ => ?_
  rw [List.getElem_drop, List.getElem_drop]
  unfold endsBy at before
  unfold set
  rw [List.getElem_mapIdx]
  refine UInt8.toNat_inj.mp (Nat.eq_of_testBit_eq fun j => ?_)
  rw [UInt8.toNat_ofNat', Nat.mod_eq_of_lt (Nat.ofBits_lt_two_pow _)]
  by_cases low : j < 8
  · rw [Nat.testBit_ofBits_lt _ _ low, if_neg (by dsimp only; omega)]
  · rw [Nat.testBit_ofBits_ge _ _ (by omega), Nat.testBit_lt_two_pow]
    exact Nat.lt_of_lt_of_le (UInt8.toNat_lt _) (Nat.pow_le_pow_right Nat.zero_lt_two (by omega))

end BitField

open BitField

/-! Several fields. -/

/-- The packet after fields are set, in their order. -/
def write (values : List (BitField × Nat)) (packet : List UInt8) : List UInt8 :=
  values.foldl (fun packet value => value.1.set value.2 packet) packet

section Write

variable {f : BitField} {values : List (BitField × Nat)} {packet : List UInt8}

@[simp] theorem length_write : (write values packet).length = packet.length := by
  induction values generalizing packet with
  | nil => rfl
  | cons value values ih => exact ih.trans length_set

theorem get_write_of_apart (apart : ∀ value ∈ values, f.Apart value.1) :
    f.get (write values packet) = f.get packet := by
  induction values generalizing packet with
  | nil => rfl
  | cons value values ih =>
      have first : f.Apart value.1 := apart value List.mem_cons_self
      exact (ih fun v member => apart v (List.mem_cons_of_mem _ member)).trans
        (get_set_of_apart first)

/-- Fields that lie apart all have what was written into them. -/
theorem get_write {value : Nat} (member : (f, value) ∈ values)
    (apart : values.Pairwise fun v v' => v.1.Apart v'.1) (inside : f.endsBy (8 * packet.length))
    (fits : value < 2 ^ f.width) : f.get (write values packet) = value := by
  induction values generalizing packet with
  | nil => cases member
  | cons v values ih =>
      rw [List.pairwise_cons] at apart
      rcases List.mem_cons.mp member with rfl | later
      · exact (get_write_of_apart apart.1).trans (get_set inside fits)
      · exact ih later apart.2 (by rwa [length_set])

theorem drop_write {n : Nat} (before : ∀ value ∈ values, value.1.endsBy (8 * n)) :
    (write values packet).drop n = packet.drop n := by
  induction values generalizing packet with
  | nil => rfl
  | cons value values ih =>
      have first : value.1.endsBy (8 * n) := before value List.mem_cons_self
      exact (ih fun v member => before v (List.mem_cons_of_mem _ member)).trans (drop_set first)

end Write

/-! Payloads. -/

/-- Copies bytes to a place in the packet, which must have room for them. -/
def overwrite (n : Nat) (bytes packet : List UInt8) : Option (List UInt8) :=
  if n + bytes.length ≤ packet.length
  then some (packet.take n ++ bytes ++ packet.drop (n + bytes.length))
  else none

/-- The first bytes of the packet, which must have as many. -/
def slice (n : Nat) (packet : List UInt8) : Option (List UInt8) :=
  if n ≤ packet.length then some (packet.take n) else none

section Overwrite

variable {f : BitField} {n : Nat} {bytes packet packet' : List UInt8}

theorem overwrite_eq_none (large : packet.length < n + bytes.length) :
    overwrite n bytes packet = none := if_neg (Nat.not_le_of_lt large)

/-- What is copied comes back, and what was before it stays. -/
theorem overwrite_eq_some (room : n + bytes.length ≤ packet.length) :
    ∃ packet', overwrite n bytes packet = some packet' ∧ packet'.length = packet.length ∧
      (packet'.drop n).take bytes.length = bytes ∧
      ∀ f : BitField, f.endsBy (8 * n) → f.get packet' = f.get packet := by
  have before : (packet.take n).length = n := by simp; omega
  refine ⟨_, if_pos room, by simp; omega, ?_, fun f inside => ?_⟩
  · rw [List.append_assoc, List.drop_left' before, List.take_left]
  · rw [← get_take inside, List.append_assoc, List.take_left' before, get_take inside]

/-- A part is replaced by one of the same length. -/
theorem overwrite_middle {before part after : List UInt8} (place : before.length = n)
    (same : bytes.length = part.length) :
    overwrite n bytes (before ++ part ++ after) = some (before ++ bytes ++ after) := by
  have room : n + bytes.length ≤ (before ++ part ++ after).length := by
    simp only [List.length_append]
    omega
  have end' : (before ++ part).length = n + bytes.length := by
    rw [List.length_append]
    omega
  rw [overwrite, if_pos room, List.drop_left' end', List.append_assoc before, List.take_left' place]

theorem slice_eq_some (room : n ≤ packet.length) : slice n packet = some (packet.take n) :=
  if_pos room

end Overwrite

/-! Packets. -/

/-- A packet with a header of some bytes, and a payload after it. -/
structure Framed (n : Nat) (header : List (BitField × Nat)) (payload packet : List UInt8) :
    Prop where
  length : packet.length = n + payload.length
  payload : packet.drop n = payload
  header : ∀ value ∈ header, value.2 < 2 ^ value.1.width → value.1.get packet = value.2

/-- The payload may be copied between the fields of the header: all of them are in the
packet in the end, whatever the buffer held before. -/
theorem framed_of_overwrite (early : List (BitField × Nat)) {n : Nat}
    {payload buffer : List UInt8} (room : n + payload.length ≤ buffer.length) :
    ∃ copy, overwrite n payload (write early buffer) = some copy ∧
      copy.length = buffer.length ∧
      ∀ later, Layout n ((early ++ later).map Prod.fst) →
        Framed n (early ++ later) payload ((write later copy).take (n + payload.length)) := by
  have enough : n + payload.length ≤ (write early buffer).length := by rwa [length_write]
  obtain ⟨copy, copied, length, same, frame⟩ := overwrite_eq_some enough
  rw [length_write] at length
  refine ⟨copy, copied, length, fun later ⟨apart, ends⟩ => ?_⟩
  rw [List.pairwise_map, List.pairwise_append] at apart
  have inside (value : BitField × Nat) (member : value ∈ early ++ later) :
      value.1.endsBy (8 * n) := ends value.1 (List.mem_map_of_mem member)
  have whole : (write later copy).length = buffer.length := length_write.trans length
  refine ⟨?_, ?_, fun value member fits => ?_⟩
  · rw [List.length_take, whole, Nat.min_eq_left room]
  · have before := fun value member => inside value (List.mem_append_right early member)
    rw [List.drop_take, drop_write before, Nat.add_sub_cancel_left, same]
  · have ends {size : Nat} (large : n ≤ size) : value.1.endsBy (8 * size) :=
      Nat.le_trans (inside value member) (by omega)
    rw [get_take (ends (by omega))]
    rcases List.mem_append.mp member with first | last
    · rw [get_write_of_apart (apart.2.2 value first), frame value.1 (ends (Nat.le_refl n))]
      exact get_write first apart.1 (ends (by omega)) fits
    · exact get_write last apart.2.1 (ends (by omega)) fits

end Workbench.Library
