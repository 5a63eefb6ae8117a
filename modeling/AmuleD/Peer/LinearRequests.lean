import AmuleD.Intervals.Tiles
import AmuleD.Peer.Transfer

open tiling

namespace amuled.peer

/-- A slot of a linear request, which is padding where the region ends before it. -/
def linear_slot (first bound : Nat) : Nat × Nat :=
  if first < bound then (first, min (first + EMBLOCK_SIZE) bound) else (0, 0)

/-- How far a round of requests reaches. -/
def round_size : Nat := 3 * EMBLOCK_SIZE

section Slots

variable {first bound : Nat}

theorem linear_slots (file_hash : Bytes) (first bound : Nat) :
    (padded_request file_hash (linear_ranges first bound)).slots =
      [linear_slot first bound, linear_slot (first + EMBLOCK_SIZE) bound,
        linear_slot (first + 2 * EMBLOCK_SIZE) bound] := by
  have hblock : 0 < EMBLOCK_SIZE := by decide
  by_cases hfirst : first < bound
  · by_cases hsecond : first + EMBLOCK_SIZE < bound
    · by_cases hthird : first + 2 * EMBLOCK_SIZE < bound
      · simp [padded_request, linear_ranges, linear_slot, RequestParts.slots, hfirst, hsecond, hthird]
      · simp [padded_request, linear_ranges, linear_slot, RequestParts.slots, hfirst, hsecond, hthird]
    · have hthird : ¬ first + 2 * EMBLOCK_SIZE < bound := by omega
      simp [padded_request, linear_ranges, linear_slot, RequestParts.slots, hfirst, hsecond, hthird]
  · have hsecond : ¬ first + EMBLOCK_SIZE < bound := by omega
    have hthird : ¬ first + 2 * EMBLOCK_SIZE < bound := by omega
    simp [padded_request, linear_ranges, linear_slot, RequestParts.slots, hfirst, hsecond, hthird]

theorem linear_slot_ordered (first bound : Nat) :
    (linear_slot first bound).1 ≤ (linear_slot first bound).2 ∧ (linear_slot first bound).2 ≤ bound := by
  unfold linear_slot
  split
  · constructor
    · exact Nat.le_min.mpr ⟨Nat.le_add_right _ _, by omega⟩
    · exact Nat.min_le_right _ _
  · exact ⟨Nat.le_refl 0, Nat.zero_le bound⟩

/-- The ranges of a linear request are in order and end inside the region. -/
theorem linear_slots_ordered (first bound : Nat) (file_hash : Bytes) :
    ∀ slot ∈ (padded_request file_hash (linear_ranges first bound)).slots, slot.1 ≤ slot.2 ∧ slot.2 ≤ bound := by
  rw [linear_slots]
  intro slot hslot
  simp only [List.mem_cons, List.not_mem_nil, or_false] at hslot
  rcases hslot with rfl | rfl | rfl <;> exact linear_slot_ordered _ bound

theorem requested_bytes_of_slots {request : RequestParts} {one two three : Nat × Nat}
    (hslots : request.slots = [one, two, three]) :
    requested_bytes request = (one.2 - one.1) + ((two.2 - two.1) + (three.2 - three.1)) := by
  have hslot : ∀ slot : Nat × Nat, (if slot.1 < slot.2 then slot.2 - slot.1 else 0) = slot.2 - slot.1 := by
    intro slot
    split <;> omega
  simp only [requested_bytes, hslots, hslot, List.map_cons, List.map_nil, List.sum_cons, List.sum_nil,
    Nat.add_zero]

theorem linear_slot_length (first bound : Nat) :
    (linear_slot first bound).2 - (linear_slot first bound).1 =
      min (first + EMBLOCK_SIZE) bound - min first bound := by
  unfold linear_slot
  by_cases hfirst : first < bound
  · rw [if_pos hfirst, Nat.min_eq_left (Nat.le_of_lt hfirst)]
  · rw [if_neg hfirst]
    generalize EMBLOCK_SIZE = size
    omega

/-- What a linear request asks for reaches up to three blocks or to the end of the region. -/
theorem requested_bytes_linear (file_hash : Bytes) (hfirst : first < bound) :
    requested_bytes (padded_request file_hash (linear_ranges first bound)) =
      min (first + round_size) bound - first := by
  rw [requested_bytes_of_slots (linear_slots file_hash first bound), linear_slot_length, linear_slot_length,
    linear_slot_length, round_size]
  generalize EMBLOCK_SIZE = size
  omega

/-- What tiles a slot tiles its part of the region. -/
theorem tiles_linear_slot {content : Bytes} {writes : List (Nat × Bytes)}
    (htiles : Tiles content (linear_slot first bound).1 (linear_slot first bound).2 writes) :
    Tiles content (min first bound) (min (first + EMBLOCK_SIZE) bound) writes := by
  unfold linear_slot at htiles
  by_cases hfirst : first < bound
  · rw [if_pos hfirst] at htiles
    rw [Nat.min_eq_left (Nat.le_of_lt hfirst)]
    exact htiles
  · rw [if_neg hfirst] at htiles
    have hstart : min first bound = bound := by omega
    have hstop : min (first + EMBLOCK_SIZE) bound = bound := by omega
    rw [htiles.eq_nil, hstart, hstop]
    exact .nil bound

/-- What tiles the slots of a linear request in turn tiles the region from its start on. -/
theorem tiles_linear_slots {content file_hash : Bytes} {writes : List (List (Nat × Bytes))}
    (hfirst : first < bound)
    (htiles : List.Forall₂ (fun slot tiles => Tiles content slot.1 slot.2 tiles)
      (padded_request file_hash (linear_ranges first bound)).slots writes) :
    Tiles content first (min (first + round_size) bound) writes.flatten := by
  rw [linear_slots] at htiles
  rcases htiles with _ | ⟨hone, _ | ⟨htwo, _ | ⟨hthree, _ | _⟩⟩⟩
  have hfront := tiles_linear_slot hone
  have hback := (tiles_linear_slot htwo)
  have hlast := (tiles_linear_slot hthree)
  have hmiddle : first + EMBLOCK_SIZE + EMBLOCK_SIZE = first + 2 * EMBLOCK_SIZE := by omega
  have hend : first + 2 * EMBLOCK_SIZE + EMBLOCK_SIZE = first + round_size := by
    rw [round_size]
    omega
  rw [Nat.min_eq_left (Nat.le_of_lt hfirst)] at hfront
  rw [hmiddle] at hback
  rw [hend] at hlast
  have hall := hfront.append (hback.append hlast)
  simpa using hall

end Slots

/-- The request that a peer reads from a packet. -/
def read_request_packet (packet : UInt8 × Bytes) : Except Exc RequestParts :=
  if packet.1 = REQUESTPARTS_I64 then parse_request_parts_i64 packet.2 else parse_request_parts packet.2

/-- A request of ordered ranges below 2^64 is sent, and read by the peer as it was. -/
theorem request_packet_eq (request : RequestParts) (hhash : request.file_hash.length = 16)
    (hordered : ∀ slot ∈ request.slots, slot.1 ≤ slot.2) (hends : ∀ slot ∈ request.slots, slot.2 < 2 ^ 64) :
    ∃ packet, request_packet request = .ok packet ∧ read_request_packet packet = .ok request := by
  unfold request_packet
  split
  · obtain ⟨hbuild, hparse⟩ := parse_request_built (⟨hhash, hordered, hends⟩ : request.Fits 8) "OP_REQUESTPARTS_I64"
    refine ⟨(REQUESTPARTS_I64, request_payload 8 request), ?_, ?_⟩
    · rw [build_request_parts_i64_payload, hbuild, ok_bind]
    · rw [read_request_packet, if_pos rfl, parse_request_parts_i64, hparse]
  · rename_i hnarrow
    have hsmall : ∀ slot ∈ request.slots, slot.2 < 256 ^ 4 := by
      simp only [List.any_eq_true, not_exists, not_and, decide_eq_true_eq, List.mem_append,
        RequestParts.values, List.mem_cons, List.not_mem_nil, or_false] at hnarrow
      intro slot hslot
      simp only [RequestParts.slots, List.mem_cons, List.not_mem_nil, or_false] at hslot
      rcases hslot with rfl | rfl | rfl
      · have hvalue := hnarrow request.ends.1 (.inr (.inl rfl))
        omega
      · have hvalue := hnarrow request.ends.2.1 (.inr (.inr (.inl rfl)))
        omega
      · have hvalue := hnarrow request.ends.2.2 (.inr (.inr (.inr rfl)))
        omega
    obtain ⟨hbuild, hparse⟩ := parse_request_built (⟨hhash, hordered, hsmall⟩ : request.Fits 4) "OP_REQUESTPARTS"
    have hopcode : REQUESTPARTS ≠ REQUESTPARTS_I64 := by decide
    refine ⟨(REQUESTPARTS, request_payload 4 request), ?_, ?_⟩
    · rw [build_request_parts_payload, hbuild, ok_bind]
    · rw [read_request_packet, if_neg hopcode, parse_request_parts, hparse]

end amuled.peer
