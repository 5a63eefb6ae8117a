import AmuleD.Download.Ics.Exhausted
import AmuleD.Download.Ics.SessionRanges
import AmuleD.Intervals.Cover
import Mathlib.Data.List.Sort
import Mathlib.Data.Prod.Lex

open intervals leasing

namespace amuled.download.ics

/-- The ranges of some blocks. -/
def written (blocks : List (Int × Bytes)) : List Range := blocks.map fun block => (block.1, block.1 + block.2.length - 1)

/-- What a peer sends for a request: data, and `OP_OUTOFPARTREQS` where it stops before the end. -/
structure Answer where
  parts : List (Int × Bytes)
  out_of_parts : Bool

def Answer.packets (answer : Answer) : List Packet :=
  (answer.parts.map fun part => .part part.1 part.2) ++ if answer.out_of_parts then [.out_of_part_reqs] else []

/-- No byte is sent twice and none that was not asked for. All are sent exactly if the peer does not give up. -/
structure Answer.Honest (answer : Answer) (ranges : List Range) : Prop where
  nonempty : ∀ part ∈ answer.parts, part.2 ≠ []
  apart : (written answer.parts).Pairwise Apart
  inside : ∀ x, Covered (written answer.parts) x → Covered ranges x
  full : answer.out_of_parts = false → ∀ x, Covered ranges x → Covered (written answer.parts) x
  short : answer.out_of_parts = true → ∃ x, Covered ranges x ∧ ¬ Covered (written answer.parts) x

/-- Everything that the code leaves open in a transfer: the answers of the peer to the requests of each round, and
what the selector finds in its calls. With a rate limit, some of the blocks of the rounds before are written by then. -/
structure Schedule where
  client : Source
  clients : Nat → List Source
  order : Nat → SetOrder
  ties : Nat → Nat → Nat
  late : Nat → List (Int × Bytes) → List (Int × Bytes)
  late_subset : ∀ round blocks, late round blocks ⊆ blocks
  answers : Nat → List Range → Answer
  honest : ∀ round ranges, (∀ range ∈ ranges, range.1 ≤ range.2) → ranges.Pairwise Apart →
    (answers round ranges).Honest ranges

def Schedule.peers (schedule : Schedule) (round : Nat) : Peers :=
  ⟨schedule.clients round, schedule.client, schedule.order round, schedule.ties round⟩

/-- The ranges of a request, cut to the file, as far as anything is left of them. -/
def wire_ranges (target : Target) (ranges : List Range) : List Range :=
  (ranges.map fun (rstart, rend) => (max rstart 0, min rend (target.size - 1))).filter fun range => range.1 ≤ range.2

/-- A transfer and the blocks that it has passed to `write_block`. -/
structure Exchange where
  swarm : Swarm
  writes : List (Int × Bytes)

namespace Exchange

section Steps

variable (target : Target) (max_blocks id : Nat) (schedule : Schedule) (ex : Exchange)

/-- A packet of the peer. -/
def receive (packet : Packet) : Exchange where
  swarm := ex.swarm.step target (.packet id packet)
  writes :=
    match ex.swarm.sessions.get id, packet with
    | some session, .part start data => if session.expected_bytes > 0 then ex.writes ++ [(start, data)] else ex.writes
    | _, _ => ex.writes

/-- The detached writes until the selector is called. -/
def settled (round : Nat) : Swarm :=
  if target.download_bytes_per_sec > 0 then
    ex.swarm.run target ((schedule.late round ex.writes).map fun block => .write block.1 block.2)
  else ex.swarm

/-- The transfer after the head of its outer loop. -/
def begun (round : Nat) : Swarm :=
  let swarm := ex.settled target schedule round
  match swarm.sessions.get id with
  | none => swarm
  | some session =>
    if session.expected_bytes > 0 then swarm
    else swarm.begin_round_within target max_blocks id session (schedule.peers round)

/-- The ranges that the request of a round asks for. -/
def asked (round : Nat) : List Range :=
  match ex.swarm.sessions.get id, (ex.begun target max_blocks id schedule round).sessions.get id with
  | some before, some after => wire_ranges target (after.issued_ranges.drop before.issued_ranges.length)
  | _, _ => []

/-- The peer's answer to it. -/
def answer (round : Nat) : Answer := schedule.answers round (ex.asked target max_blocks id schedule round)

/-- A round: the request and the answer. -/
def round (round : Nat) : Exchange :=
  (ex.answer target max_blocks id schedule round).packets.foldl (receive target id)
    ⟨ex.begun target max_blocks id schedule round, ex.writes⟩

end Steps

end Exchange

section Blocks

variable {blocks more : List (Int × Bytes)} {start : Int} {data : Bytes}

theorem written_append (blocks more : List (Int × Bytes)) : written (blocks ++ more) = written blocks ++ written more :=
  List.map_append

theorem written_singleton (start : Int) (data : Bytes) : written [(start, data)] = [(start, start + data.length - 1)] := rfl

theorem covered_written_of_mem (hmem : (start, data) ∈ blocks) {x : Int}
    (hx : InRange (start, start + data.length - 1) x) : Covered (written blocks) x :=
  ⟨(start, start + data.length - 1), List.mem_map_of_mem hmem, hx⟩

/-- Blocks with data are ranges with bytes. -/
theorem written_nonempty (hdata : ∀ block ∈ blocks, block.2 ≠ []) : ∀ range ∈ written blocks, range.1 ≤ range.2 := by
  intro range hrange
  obtain ⟨block, hblock, rfl⟩ := List.mem_map.mp hrange
  have hlength := List.length_pos_of_ne_nil (hdata block hblock)
  simp only
  omega

end Blocks

/-- A session between two events, alone on its file: what it was passed, what it has asked for, and what the queue
still misses of the gaps there were when it began. -/
structure Exchange.Carried (target : Target) (others : Dict Bytes (Finset Range)) (id : Nat) (available : List Nat)
    (gaps : List Range) (ex : Exchange) (session : Session) : Prop where
  live : ex.swarm.sessions.get id = some session
  alone : ∀ other, other ≠ id → ex.swarm.sessions.get other = none
  tracked : ex.swarm.Tracked target others
  left : ∃ raw_gaps, ex.swarm.queue.gap_ranges target.file_hash = .ok raw_gaps ∧
    (∀ x, Covered (inclusive_gaps raw_gaps) x → Covered gaps x) ∧
    (∀ x, Covered gaps x → ¬ Covered (written ex.writes) x → Covered (inclusive_gaps raw_gaps) x) ∧
    (target.download_bytes_per_sec ≤ 0 → ∀ x, Covered (written ex.writes) x → ¬ Covered (inclusive_gaps raw_gaps) x)
  received : (session.received : Int) = total (written ex.writes)
  blocks : session.blocks = ex.writes.length
  nonempty : ∀ range ∈ written ex.writes, range.1 ≤ range.2
  apart : (written ex.writes).Pairwise Apart
  passed : ∀ x, Covered (written ex.writes) x → Covered session.issued_ranges x
  wanted : ∀ x, Covered session.issued_ranges x → Wanted target.size available gaps x

/-- A session that waits for nothing: it is at the head of its outer loop. -/
structure Exchange.Between (target : Target) (others : Dict Bytes (Finset Range)) (id : Nat) (available : List Nat)
    (gaps : List Range) (ex : Exchange) (session : Session) : Prop
    extends Exchange.Carried target others id available gaps ex session where
  idle : session.expected_bytes ≤ 0

namespace Exchange

section Carried

variable {target : Target} {others : Dict Bytes (Finset Range)} {id : Nat} {available : List Nat} {gaps : List Range}
  {ex : Exchange} {session : Session} {start : Int} {data : Bytes}

/-- The registry holds what the session has asked for. -/
theorem Carried.mem_bucket_iff (h : Carried target others id available gaps ex session) (range : Range) :
    range ∈ ex.swarm.bucket target ↔ range ∈ session.issued_ranges := by
  rw [h.tracked.leased.mem_iff]
  constructor
  · rintro ⟨owner, howner⟩
    by_cases hsame : owner = id
    · rwa [hsame, Swarm.held_of_get h.live, List.mem_toFinset] at howner
    · rw [Swarm.held_of_none (h.alone owner hsame)] at howner
      exact absurd howner (Finset.notMem_empty range)
  · intro hrange
    refine ⟨id, ?_⟩
    rwa [Swarm.held_of_get h.live, List.mem_toFinset]

theorem Carried.covered_bucket_iff (h : Carried target others id available gaps ex session) (order : SetOrder) (x : Int) :
    Covered (order.list (ex.swarm.bucket target)) x ↔ Covered session.issued_ranges x := by
  refine exists_congr fun range => and_congr_left fun _ => ?_
  rw [order.mem_list, h.mem_bucket_iff]

/-- A detached write of a block that was passed. -/
theorem Carried.write (h : Carried target others id available gaps ex session)
    (hlimited : target.download_bytes_per_sec > 0) (hmem : (start, data) ∈ ex.writes) :
    Carried target others id available gaps ⟨ex.swarm.step target (.write start data), ex.writes⟩ session := by
  have htracked := h.tracked.step (.write start data)
  obtain ⟨raw_gaps, hgaps, hinside, hmissing, _⟩ := h.left
  simp only [Swarm.step] at htracked ⊢
  split at htracked
  · exact h
  · rename_i queue hrecord
    obtain ⟨rest, hrest, hcovered⟩ := covered_gaps_of_record_block hgaps hrecord
    refine ⟨h.live, h.alone, htracked, ⟨rest, hrest, ?_, ?_, ?_⟩, h.received, h.blocks, h.nonempty, h.apart, h.passed,
      h.wanted⟩
    · exact fun x hx => hinside x ((hcovered x).mp hx).1
    · intro x hx hfree
      exact (hcovered x).mpr ⟨hmissing x hx hfree, fun hin => hfree (covered_written_of_mem hmem hin)⟩
    · exact fun hunlimited => absurd hlimited (not_lt.mpr hunlimited)

theorem Carried.run_writes (h : Carried target others id available gaps ex session)
    (hlimited : target.download_bytes_per_sec > 0) {late : List (Int × Bytes)} (hlate : late ⊆ ex.writes) :
    Carried target others id available gaps
      ⟨ex.swarm.run target (late.map fun block => .write block.1 block.2), ex.writes⟩ session := by
  induction late generalizing ex with
  | nil => exact h
  | cons block rest ih =>
    rw [List.cons_subset] at hlate
    exact ih (h.write hlimited hlate.1) hlate.2

theorem Carried.settled (h : Carried target others id available gaps ex session) (schedule : Schedule) (round : Nat) :
    Carried target others id available gaps ⟨ex.settled target schedule round, ex.writes⟩ session := by
  unfold Exchange.settled
  split_ifs with hlimited
  · exact h.run_writes hlimited (schedule.late_subset round ex.writes)
  · exact h

theorem receive_none (hnone : ex.swarm.sessions.get id = none) (packet : Packet) :
    ex.receive target id packet = ex := by
  simp only [Exchange.receive, Swarm.step, hnone]

/-- A transfer that has returned receives nothing. -/
theorem foldl_receive_none (hnone : ex.swarm.sessions.get id = none) (packets : List Packet) :
    packets.foldl (receive target id) ex = ex := by
  induction packets with
  | nil => rfl
  | cons packet rest ih => rw [List.foldl_cons, receive_none hnone, ih]

/-- The counters of a session behind some data. -/
def Passed (session next : Session) (blocks : List (Int × Bytes)) : Prop :=
  next.issued_ranges = session.issued_ranges ∧ next.expected_bytes = session.expected_bytes - total (written blocks) ∧
    next.outofpart_retries = session.outofpart_retries

/-- A block that was asked for and not sent before is passed to `write_block`, and the queue takes it. -/
theorem Carried.part (h : Carried target others id available gaps ex session) (hexpected : 0 < session.expected_bytes)
    (hdata : data ≠ []) (hasked : ∀ x, InRange (start, start + data.length - 1) x → Covered session.issued_ranges x)
    (hfresh : ∀ x, InRange (start, start + data.length - 1) x → ¬ Covered (written ex.writes) x) :
    (ex.receive target id (.part start data)).writes = ex.writes ++ [(start, data)] ∧
      ∃ next, Carried target others id available gaps (ex.receive target id (.part start data)) next ∧
        Passed session next [(start, data)] := by
  have hwrites : (ex.receive target id (.part start data)).writes = ex.writes ++ [(start, data)] := by
    simp only [Exchange.receive, h.live]
    exact if_pos hexpected
  let next : Session := { session with
    received := session.received + data.length
    blocks := session.blocks + 1
    expected_bytes := session.expected_bytes - data.length }
  have htracked := h.tracked.step (.packet id (.part start data))
  obtain ⟨raw_gaps, hgaps, hinside, hmissing, hrecorded⟩ := h.left
  have hone : written (ex.writes ++ [(start, data)]) = written ex.writes ++ [(start, start + data.length - 1)] :=
    written_append _ _
  have hcovered : ∀ x, Covered (written (ex.writes ++ [(start, data)])) x ↔
      Covered (written ex.writes) x ∨ InRange (start, start + data.length - 1) x := by
    intro x
    rw [hone, covered_append, covered_singleton]
  have hswarm : ∃ queue rest, (ex.receive target id (.part start data)).swarm =
      ⟨queue, ex.swarm.requested_ranges, ex.swarm.sessions.set id next⟩ ∧
      queue.gap_ranges target.file_hash = .ok rest ∧
      (∀ x, Covered (inclusive_gaps rest) x → Covered (inclusive_gaps raw_gaps) x) ∧
      (∀ x, Covered (inclusive_gaps raw_gaps) x → ¬ InRange (start, start + data.length - 1) x →
        Covered (inclusive_gaps rest) x) ∧
      (target.download_bytes_per_sec ≤ 0 → ∀ x, InRange (start, start + data.length - 1) x →
        ¬ Covered (inclusive_gaps rest) x) := by
    by_cases hlimited : target.download_bytes_per_sec > 0
    · refine ⟨ex.swarm.queue, raw_gaps, ?_, hgaps, fun x hx => hx, fun x hx _ => hx, ?_⟩
      · simp only [Exchange.receive, Swarm.step, h.live, if_pos hexpected, Swarm.on_packet, if_pos hlimited, next]
      · exact fun hunlimited => absurd hlimited (not_lt.mpr hunlimited)
    · -- The bytes are missing from the queue, so the block lies in the file.
      obtain ⟨queue, hrecord⟩ := exists_record_block hgaps hdata fun x hx =>
        hmissing x (h.wanted x (hasked x hx)).choose_spec.2.2.2 (hfresh x hx)
      obtain ⟨rest, hrest, hiff⟩ := covered_gaps_of_record_block hgaps hrecord
      refine ⟨queue, rest, ?_, hrest, fun x hx => ((hiff x).mp hx).1, fun x hx hout => (hiff x).mpr ⟨hx, hout⟩, ?_⟩
      · simp only [Exchange.receive, Swarm.step, h.live, if_pos hexpected, Swarm.on_packet, if_neg hlimited, hrecord, next]
      · exact fun _ x hx hin => ((hiff x).mp hin).2 hx
  obtain ⟨queue, rest, hswarm, hrest, hless, hkept, hdone⟩ := hswarm
  have hstep : ex.swarm.step target (.packet id (.part start data)) =
      ⟨queue, ex.swarm.requested_ranges, ex.swarm.sessions.set id next⟩ := hswarm
  have hex : ex.receive target id (.part start data) =
      ⟨⟨queue, ex.swarm.requested_ranges, ex.swarm.sessions.set id next⟩, ex.writes ++ [(start, data)]⟩ := by
    rw [← hswarm, ← hwrites]
  have htotal : total [(start, start + (data.length : Int) - 1)] = data.length := by
    rw [total_cons, total_nil]
    omega
  refine ⟨hwrites, next, ?_, rfl, ?_, rfl⟩
  · rw [hstep] at htracked
    rw [hex]
    refine ⟨Dict.get_set_self _ _ _, ?_, htracked, ⟨rest, hrest, ?_, ?_, ?_⟩, ?_, ?_, ?_, ?_, ?_, h.wanted⟩
    · intro other hother
      exact (Dict.get_set_of_ne hother _ _).trans (h.alone other hother)
    · exact fun x hx => hinside x (hless x hx)
    · intro x hx hfree
      rw [hcovered, not_or] at hfree
      exact hkept x (hmissing x hx hfree.1) hfree.2
    · intro hunlimited x hx
      exact ((hcovered x).mp hx).elim (fun hold hin => hrecorded hunlimited x hold (hless x hin)) (hdone hunlimited x)
    · simp only [next]
      rw [hone, total_append, htotal, Nat.cast_add, h.received]
    · simp only [next]
      rw [h.blocks, List.length_append]
      rfl
    · rw [hone, List.forall_mem_append]
      have hlength := List.length_pos_of_ne_nil hdata
      refine ⟨h.nonempty, List.forall_mem_singleton.mpr ?_⟩
      simp only
      omega
    · rw [hone, List.pairwise_append]
      refine ⟨h.apart, List.pairwise_singleton _ _, fun range hrange last hlast x hx => ?_⟩
      obtain rfl := List.mem_singleton.mp hlast
      exact hfresh x hx.2 ⟨range, hrange, hx.1⟩
    · intro x hx
      exact ((hcovered x).mp hx).elim (h.passed x) (hasked x)
  · rw [written_singleton, htotal]

/-- All the data of an answer is passed to `write_block`. -/
theorem Carried.parts (h : Carried target others id available gaps ex session) {parts : List (Int × Bytes)}
    (hdata : ∀ part ∈ parts, part.2 ≠ []) (hapart : (written parts).Pairwise Apart)
    (hasked : ∀ x, Covered (written parts) x → Covered session.issued_ranges x)
    (hfresh : ∀ x, Covered (written parts) x → ¬ Covered (written ex.writes) x)
    (hexpected : total (written parts) ≤ session.expected_bytes) :
    let done := (parts.map fun part => Packet.part part.1 part.2).foldl (receive target id) ex
    done.writes = ex.writes ++ parts ∧
      ∃ next, Carried target others id available gaps done next ∧ Passed session next parts := by
  induction parts generalizing ex session with
  | nil =>
    refine ⟨(List.append_nil _).symm, session, h, rfl, ?_, rfl⟩
    exact (Int.sub_zero _).symm
  | cons part rest ih =>
    obtain ⟨start, data⟩ := part
    rw [List.forall_mem_cons] at hdata
    have hcons : written ((start, data) :: rest) = (start, start + data.length - 1) :: written rest := rfl
    rw [hcons, List.pairwise_cons] at hapart
    rw [hcons, total_cons] at hexpected
    simp only [hcons, covered_cons] at hasked hfresh
    have hlength : 0 < data.length := List.length_pos_of_ne_nil hdata.1
    have hnonneg := total_nonneg (written_nonempty hdata.2)
    obtain ⟨hwrites, next, hnext, hissued, hleft, hretries⟩ := h.part (by omega) hdata.1
      (fun x hx => hasked x (.inl hx)) fun x hx => hfresh x (.inl hx)
    have hone : total (written [(start, data)]) = data.length := by
      rw [written_singleton, total_cons, total_nil]
      omega
    rw [hone] at hleft
    have hlater : ∀ x, Covered (written rest) x →
        ¬ Covered (written (ex.receive target id (.part start data)).writes) x := by
      intro x hx hbefore
      rw [hwrites, written_append, covered_append, written_singleton, covered_singleton] at hbefore
      rcases hbefore with hold | hin
      · exact hfresh x (.inr hx) hold
      · obtain ⟨range, hrange, hinRange⟩ := hx
        exact hapart.1 range hrange x ⟨hin, hinRange⟩
    obtain ⟨hall, last, hlast, hissued', hleft', hretries'⟩ := ih hnext hdata.2 hapart.2
      (fun x hx => hissued.symm ▸ hasked x (.inr hx)) hlater (by omega)
    refine ⟨?_, last, hlast, hissued'.trans hissued, ?_, hretries'.trans hretries⟩
    · rw [List.map_cons, List.foldl_cons, hall, hwrites, List.append_assoc]
      rfl
    · rw [hleft', hleft, hcons, total_cons]
      omega

/-- A peer out of parts: the session goes on to its next round, or returns when it has tried often enough. What it
has asked for stays asked for. -/
theorem Carried.out_of_part_reqs (h : Carried target others id available gaps ex session)
    (hexpected : 0 < session.expected_bytes) :
    let next := ex.receive target id .out_of_part_reqs
    next.writes = ex.writes ∧ (next.swarm.sessions.get id = none ∨
      session.outofpart_retries + 1 ≤ _OUTOFPART_MAX_RETRIES ∧
        Carried target others id available gaps next
          { session with outofpart_retries := session.outofpart_retries + 1, expected_bytes := 0 }) := by
  intro next
  have hwrites : next.writes = ex.writes := by simp only [next, Exchange.receive, h.live]
  have htracked := h.tracked.step (.packet id .out_of_part_reqs)
  refine ⟨hwrites, ?_⟩
  by_cases hretries : session.outofpart_retries + 1 > _OUTOFPART_MAX_RETRIES
  · left
    simp only [next, Exchange.receive, Swarm.step, h.live, if_pos hexpected, Swarm.on_packet, if_pos hretries, Swarm.close]
    exact Dict.get_erase_self _ _
  · right
    refine ⟨not_lt.mp hretries, ?_⟩
    have hswarm : next.swarm = { ex.swarm with sessions := ex.swarm.sessions.set id { session with
        outofpart_retries := session.outofpart_retries + 1, expected_bytes := 0 } } := by
      simp only [next, Exchange.receive, Swarm.step, h.live, if_pos hexpected, Swarm.on_packet, if_neg hretries]
    have hstep : ex.swarm.step target (.packet id .out_of_part_reqs) = next.swarm := rfl
    rw [hstep, hswarm] at htracked
    have hex : next = ⟨{ ex.swarm with sessions := ex.swarm.sessions.set id { session with
        outofpart_retries := session.outofpart_retries + 1, expected_bytes := 0 } }, ex.writes⟩ := by
      rw [← hswarm, ← hwrites]
    rw [hex]
    refine ⟨Dict.get_set_self _ _ _, ?_, htracked, h.left, h.received, h.blocks, h.nonempty, h.apart, h.passed, h.wanted⟩
    intro other hother
    exact (Dict.get_set_of_ne hother _ _).trans (h.alone other hother)

/-- New ranges of a request: none of their bytes was asked for before. -/
structure Asking (session : Session) (ranges : List Range) : Prop where
  some : ranges ≠ []
  nonempty : ∀ range ∈ ranges, range.1 ≤ range.2
  apart : ranges.Pairwise Apart
  fresh : ∀ x, Covered ranges x → ¬ Covered session.issued_ranges x

/-- Ranges of the file go over the wire as they are, and their bytes are those that the round waits for. -/
theorem wire_ranges_eq {ranges : List Range} (hnonempty : ∀ range ∈ ranges, range.1 ≤ range.2)
    (hinside : ∀ x, Covered ranges x → 0 ≤ x ∧ x < target.size) :
    wire_ranges target ranges = ranges ∧ Swarm.round_bytes target ranges = total ranges := by
  have hbounds : ∀ range ∈ ranges, range.1 ≤ range.2 ∧ 0 ≤ range.1 ∧ range.2 < target.size := by
    intro range hrange
    have hne := hnonempty range hrange
    exact ⟨hne, (hinside range.1 ⟨range, hrange, le_refl _, hne⟩).1, (hinside range.2 ⟨range, hrange, hne, le_refl _⟩).2⟩
  constructor
  · have hcut : ranges.map (fun (rstart, rend) => (max rstart 0, min rend (target.size - 1))) = ranges := by
      refine (List.map_congr_left fun range hrange => ?_).trans (List.map_id ranges)
      obtain ⟨_, hlow, hhigh⟩ := hbounds range hrange
      exact Prod.ext (max_eq_left hlow) (min_eq_left (Int.le_sub_one_of_lt hhigh))
    rw [wire_ranges, hcut, List.filter_eq_self]
    exact fun range hrange => decide_eq_true (hbounds range hrange).1
  · rw [Swarm.round_bytes, total]
    refine congrArg List.sum (List.map_congr_left fun range hrange => ?_)
    obtain ⟨hne, hlow, hhigh⟩ := hbounds range hrange
    simp only
    omega

/-- The head of a round: the transfer returns, with the whole file or because the selector finds nothing, or it asks
for new bytes. -/
theorem Between.begun {schedule : Schedule}
    (h : Between target others id (schedule.client.available target.size) gaps ex session) {max_blocks : Nat}
    (hblocks : ex.writes.length < max_blocks) (round : Nat) :
    let settled := ex.settled target schedule round
    let begun := ex.begun target max_blocks id schedule round
    (begun.sessions.get id = none ∧ ex.asked target max_blocks id schedule round = [] ∧
      (target.size ≤ session.received ∨ ∃ raw_gaps, settled.queue.gap_ranges target.file_hash = .ok raw_gaps ∧
        settled.selected target session (schedule.peers round) raw_gaps 3 = [])) ∨
      session.received < target.size ∧ ∃ next, Asking session (ex.asked target max_blocks id schedule round) ∧
        Carried target others id (schedule.client.available target.size) gaps ⟨begun, ex.writes⟩ next ∧
        next.issued_ranges = session.issued_ranges ++ ex.asked target max_blocks id schedule round ∧
        next.expected_bytes = total (ex.asked target max_blocks id schedule round) ∧
        next.outofpart_retries = session.outofpart_retries ∧
        ∃ raw_gaps, settled.queue.gap_ranges target.file_hash = .ok raw_gaps ∧
          ex.asked target max_blocks id schedule round =
            settled.selected target session (schedule.peers round) raw_gaps 3 := by
  intro settled begun
  have hsettled := h.settled schedule round
  have hbegun : begun = settled.begin_round_within target max_blocks id session (schedule.peers round) := by
    simp only [begun, Exchange.begun]
    rw [hsettled.live]
    exact if_neg (not_lt.mpr h.idle)
  have hreturned : begun = settled.close target id → begun.sessions.get id = none ∧
      ex.asked target max_blocks id schedule round = [] := by
    intro hclose
    have hnone : begun.sessions.get id = none := by
      rw [hclose, Swarm.close, hsettled.live]
      exact Dict.get_erase_self _ _
    refine ⟨hnone, ?_⟩
    have hafter : (ex.begun target max_blocks id schedule round).sessions.get id = none := hnone
    unfold asked
    rw [h.live, hafter]
  have hbudget : ¬ session.blocks ≥ max_blocks := by
    rw [h.blocks]
    exact not_le.mpr hblocks
  by_cases hdone : session.received ≥ target.size
  · left
    rw [Swarm.begin_round_within, if_pos (.inr hdone)] at hbegun
    obtain ⟨hnone, hasked⟩ := hreturned hbegun
    exact ⟨hnone, hasked, .inl hdone⟩
  · rw [Swarm.begin_round_within, if_neg (not_or.mpr ⟨hbudget, hdone⟩)] at hbegun
    obtain ⟨raw_gaps, hgaps, hinside, _, _⟩ := hsettled.left
    obtain ⟨hempty, hclose⟩ | ⟨hnonempty, last_new, hround⟩ :=
      Swarm.select_round_cases target id session (schedule.peers round) hgaps
    · left
      obtain ⟨hnone, hasked⟩ := hreturned (hbegun.trans hclose)
      exact ⟨hnone, hasked, .inr ⟨raw_gaps, hgaps, hempty⟩⟩
    · right
      have htracked := hsettled.tracked.select_round hsettled.live (schedule.peers round)
      have hsound := (hsettled.tracked.selected session (schedule.peers round) hgaps 3).1
      have hwanted : ∀ x, Covered (settled.selected target session (schedule.peers round) raw_gaps 3) x →
          Wanted target.size (schedule.client.available target.size) gaps x := by
        intro x hx
        obtain ⟨part, havailable, hcount, hbounds, hgap⟩ := wanted_of_issued hx
        exact ⟨part, havailable, hcount, hbounds, hinside x hgap⟩
      have hranges : ∀ range ∈ settled.selected target session (schedule.peers round) raw_gaps 3, range.1 ≤ range.2 :=
        fun range hrange => (hsound.placed range hrange).1
      have hfresh : ∀ x, Covered (settled.selected target session (schedule.peers round) raw_gaps 3) x →
          ¬ Covered session.issued_ranges x := by
        rintro x ⟨range, hrange, hin⟩ hissued
        obtain ⟨taken, htaken, hx⟩ := (hsettled.covered_bucket_iff (schedule.peers round).order x).mpr hissued
        exact hsound.fresh range hrange taken htaken x ⟨hin, hx⟩
      have hapart := hsound.apart
      rw [← hbegun] at hround
      have htracked' : begun.Tracked target others := hbegun ▸ htracked
      generalize hselected : settled.selected target session (schedule.peers round) raw_gaps 3 = ranges at *
      obtain ⟨hwire, hbytes⟩ := wire_ranges_eq hranges fun x hx => (hwanted x hx).bounds
      let next : Session := { session with
        own_issued := ranges.foldl (fun own_issued range => insert range own_issued) session.own_issued
        last_part_box := last_new
        issued_ranges := session.issued_ranges ++ ranges
        expected_bytes := Swarm.round_bytes target ranges }
      have hlive : begun.sessions.get id = some next := by
        rw [hround]
        exact Dict.get_set_self _ _ _
      have hasked : ex.asked target max_blocks id schedule round = ranges := by
        have hafter : (ex.begun target max_blocks id schedule round).sessions.get id = some next := hlive
        unfold asked
        rw [h.live, hafter]
        simp only [next]
        rw [List.drop_left, hwire]
      rw [hasked]
      refine ⟨not_le.mp hdone, next, ⟨hnonempty, hranges, hapart, hfresh⟩, ?_, rfl, hbytes, rfl, raw_gaps, hgaps, hselected.symm⟩
      refine ⟨hlive, ?_, htracked', ?_, hsettled.received, hsettled.blocks, h.nonempty, h.apart, ?_, ?_⟩
      · intro other hother
        rw [hround]
        exact (Dict.get_set_of_ne hother _ _).trans (hsettled.alone other hother)
      · rw [hround]
        exact hsettled.left
      · intro x hx
        exact (covered_append _ _ x).mpr (.inl (h.passed x hx))
      · intro x hx
        exact ((covered_append _ _ x).mp hx).elim (h.wanted x) (hwanted x)

/-- A round in which the transfer returns before it asks for anything. -/
structure Ends (target : Target) (max_blocks id : Nat) (schedule : Schedule) (ex : Exchange) (session : Session)
    (round : Nat) : Prop where
  returned : (ex.round target max_blocks id schedule round).swarm.sessions.get id = none
  writes : (ex.round target max_blocks id schedule round).writes = ex.writes
  asked : ex.asked target max_blocks id schedule round = []
  cause : target.size ≤ session.received ∨ ∃ raw_gaps,
    (ex.settled target schedule round).queue.gap_ranges target.file_hash = .ok raw_gaps ∧
      (ex.settled target schedule round).selected target session (schedule.peers round) raw_gaps 3 = []

/-- A round with a request and its answer. -/
structure Serves (target : Target) (others : Dict Bytes (Finset Range)) (max_blocks id : Nat) (schedule : Schedule)
    (gaps : List Range) (ex : Exchange) (session : Session) (round : Nat) : Prop where
  unfinished : session.received < target.size
  asking : Asking session (ex.asked target max_blocks id schedule round)
  wanted : ∀ x, Covered (ex.asked target max_blocks id schedule round) x →
    Wanted target.size (schedule.client.available target.size) gaps x
  selected : ∃ raw_gaps, (ex.settled target schedule round).queue.gap_ranges target.file_hash = .ok raw_gaps ∧
    ex.asked target max_blocks id schedule round =
      (ex.settled target schedule round).selected target session (schedule.peers round) raw_gaps 3
  honest : (ex.answer target max_blocks id schedule round).Honest (ex.asked target max_blocks id schedule round)
  writes : (ex.round target max_blocks id schedule round).writes =
    ex.writes ++ (ex.answer target max_blocks id schedule round).parts
  outcome : (ex.answer target max_blocks id schedule round).out_of_parts = true ∧
      (ex.round target max_blocks id schedule round).swarm.sessions.get id = none ∨
    ∃ next, Between target others id (schedule.client.available target.size) gaps
        (ex.round target max_blocks id schedule round) next ∧
      next.issued_ranges = session.issued_ranges ++ ex.asked target max_blocks id schedule round ∧
      ((ex.answer target max_blocks id schedule round).out_of_parts = false ∧
          next.outofpart_retries = session.outofpart_retries ∨
        (ex.answer target max_blocks id schedule round).out_of_parts = true ∧
          next.outofpart_retries = session.outofpart_retries + 1 ∧
          next.outofpart_retries ≤ _OUTOFPART_MAX_RETRIES)

/-- What a round does with a live transfer. -/
theorem Between.round_cases {schedule : Schedule}
    (h : Between target others id (schedule.client.available target.size) gaps ex session) {max_blocks : Nat}
    (hblocks : ex.writes.length < max_blocks) (round : Nat) :
    Ends target max_blocks id schedule ex session round ∨
      Serves target others max_blocks id schedule gaps ex session round := by
  obtain ⟨hnone, hasked, hcause⟩ |
      ⟨hunfinished, next, hasking, hnext, hissued, hexpected, hretries, hselected⟩ := h.begun hblocks round
  · left
    have hround : ex.round target max_blocks id schedule round =
        ⟨ex.begun target max_blocks id schedule round, ex.writes⟩ := foldl_receive_none hnone _
    exact ⟨by rw [hround]; exact hnone, by rw [hround], hasked, hcause⟩
  · right
    have hhonest := schedule.honest round _ hasking.nonempty hasking.apart
    have hwanted : ∀ x, Covered (ex.asked target max_blocks id schedule round) x →
        Wanted target.size (schedule.client.available target.size) gaps x := by
      intro x hx
      apply hnext.wanted
      rw [hissued, covered_append]
      exact .inr hx
    have hround : ex.round target max_blocks id schedule round =
        (ex.answer target max_blocks id schedule round).packets.foldl (receive target id)
          ⟨ex.begun target max_blocks id schedule round, ex.writes⟩ := rfl
    change (ex.answer target max_blocks id schedule round).Honest _ at hhonest
    generalize hanswer : ex.answer target max_blocks id schedule round = answer at hhonest hround
    have hparts := written_nonempty hhonest.nonempty
    have hfits := total_le_total hparts hhonest.apart hasking.nonempty hasking.apart hhonest.inside
    obtain ⟨hwrites, last, hlast, hissued', hleft, hretries'⟩ := hnext.parts hhonest.nonempty hhonest.apart
      (fun x hx => by
        rw [hissued, covered_append]
        exact .inr (hhonest.inside x hx))
      (fun x hx hbefore => hasking.fresh x (hhonest.inside x hx) (h.passed x hbefore)) (hexpected ▸ hfits)
    rw [Answer.packets, List.foldl_append] at hround
    generalize (answer.parts.map fun part => Packet.part part.1 part.2).foldl (receive target id)
      ⟨ex.begun target max_blocks id schedule round, ex.writes⟩ = served at hwrites hlast hround
    have hall := hissued'.trans hissued
    have htries := hretries'.trans hretries
    cases hout : answer.out_of_parts with
    | false =>
      rw [hout, if_neg Bool.false_ne_true, List.foldl_nil] at hround
      refine ⟨hunfinished, hasking, hwanted, hselected, hanswer ▸ hhonest, ?_, .inr ⟨last, ?_, hall, .inl ⟨hanswer ▸ hout, htries⟩⟩⟩
      · rw [hround, hanswer]
        exact hwrites
      · rw [hround]
        have hlong := total_le_total hasking.nonempty hasking.apart hparts hhonest.apart (hhonest.full hout)
        exact ⟨hlast, by omega⟩
    | true =>
      rw [hout, if_pos rfl, List.foldl_cons, List.foldl_nil] at hround
      -- A byte is missing from the answer, so the round still waits when the peer gives up.
      have hwaits : 0 < last.expected_bytes := by
        obtain ⟨x, hx, hunsent⟩ := hhonest.short hout
        have hlong : ¬ total (ex.asked target max_blocks id schedule round) ≤ total (written answer.parts) :=
          fun hle => hunsent (covered_of_total_le hparts hhonest.apart hasking.nonempty hasking.apart hhonest.inside hle hx)
        omega
      obtain ⟨hsame, hafter⟩ := hlast.out_of_part_reqs hwaits
      refine ⟨hunfinished, hasking, hwanted, hselected, hanswer ▸ hhonest, ?_, ?_⟩
      · rw [hround, hanswer, hsame]
        exact hwrites
      · rw [hround, hanswer]
        rcases hafter with hnone | ⟨hle, hcarried⟩
        · exact .inl ⟨hout, hnone⟩
        · refine .inr ⟨_, ⟨hcarried, le_refl _⟩, hall, .inr ⟨hout, ?_, ?_⟩⟩
          · exact congrArg (· + 1) htries
          · exact hle

end Carried

section Returned

variable {target : Target} {max_blocks id : Nat} {schedule : Schedule} {ex : Exchange}

theorem sessions_run_writes (swarm : Swarm) (late : List (Int × Bytes)) :
    (swarm.run target (late.map fun block => .write block.1 block.2)).sessions = swarm.sessions := by
  induction late generalizing swarm with
  | nil => rfl
  | cons block rest ih =>
    refine (ih _).trans ?_
    simp only [Swarm.step]
    split <;> rfl

theorem sessions_settled (ex : Exchange) (round : Nat) :
    (ex.settled target schedule round).sessions = ex.swarm.sessions := by
  unfold Exchange.settled
  split_ifs
  · exact sessions_run_writes ex.swarm _
  · rfl

/-- Nothing is asked for or passed to `write_block` after the return. -/
theorem round_of_returned (hnone : ex.swarm.sessions.get id = none) (round : Nat) :
    (ex.round target max_blocks id schedule round).swarm.sessions.get id = none ∧
      (ex.round target max_blocks id schedule round).writes = ex.writes ∧
      ex.asked target max_blocks id schedule round = [] := by
  have hsettled : (ex.settled target schedule round).sessions.get id = none := by
    rw [sessions_settled]
    exact hnone
  have hbegun : (ex.begun target max_blocks id schedule round).sessions.get id = none := by
    simp only [Exchange.begun, hsettled]
  have hround : ex.round target max_blocks id schedule round =
      ⟨ex.begun target max_blocks id schedule round, ex.writes⟩ := foldl_receive_none hbegun _
  refine ⟨by rw [hround]; exact hbegun, by rw [hround], ?_⟩
  unfold asked
  rw [hnone]

end Returned

section Loss

variable {target : Target} {others : Dict Bytes (Finset Range)} {max_blocks id : Nat} {schedule : Schedule}
  {gaps : List Range} {ex : Exchange} {session : Session} {turn : Nat} {x : Int}

/-- A byte that was not passed to `write_block` and that no request will ask for again. -/
def Missed (id : Nat) (ex : Exchange) (x : Int) : Prop :=
  ¬ Covered (written ex.writes) x ∧
    ∀ session, ex.swarm.sessions.get id = some session → Covered session.issued_ranges x

theorem Serves.covered_writes_iff (h : Serves target others max_blocks id schedule gaps ex session turn) (x : Int) :
    Covered (written (ex.round target max_blocks id schedule turn).writes) x ↔ Covered (written ex.writes) x ∨
      Covered (written (ex.answer target max_blocks id schedule turn).parts) x := by
  rw [h.writes, written_append, covered_append]

/-- What was asked for once is not asked for again. -/
theorem Missed.after_round (hmissed : Missed id ex x)
    (hcarried : Between target others id (schedule.client.available target.size) gaps ex session)
    (hblocks : ex.writes.length < max_blocks) : Missed id (ex.round target max_blocks id schedule turn) x := by
  have hissued := hmissed.2 session hcarried.live
  obtain hends | hserves := hcarried.round_cases hblocks turn
  · refine ⟨hends.writes.symm ▸ hmissed.1, fun next hnext => ?_⟩
    rw [hends.returned] at hnext
    cases hnext
  · refine ⟨?_, fun found hfound => ?_⟩
    · rw [hserves.covered_writes_iff, not_or]
      exact ⟨hmissed.1, fun hsent => hserves.asking.fresh x (hserves.honest.inside x hsent) hissued⟩
    · obtain ⟨_, hnone⟩ | ⟨next, hnext, hall, _⟩ := hserves.outcome
      · rw [hnone] at hfound
        cases hfound
      · obtain rfl := Option.some.inj (hnext.live.symm.trans hfound)
        rw [hall, covered_append]
        exact .inl hissued

/-- A peer that gives up in a round leaves a byte of it behind. -/
theorem Serves.missed (h : Serves target others max_blocks id schedule gaps ex session turn)
    (hcarried : Between target others id (schedule.client.available target.size) gaps ex session)
    (hout : (ex.answer target max_blocks id schedule turn).out_of_parts = true) :
    ∃ x, Covered (ex.asked target max_blocks id schedule turn) x ∧
      Missed id (ex.round target max_blocks id schedule turn) x := by
  obtain ⟨x, hx, hunsent⟩ := h.honest.short hout
  refine ⟨x, hx, ?_, fun found hfound => ?_⟩
  · rw [h.covered_writes_iff, not_or]
    exact ⟨fun hbefore => h.asking.fresh x hx (hcarried.passed x hbefore), hunsent⟩
  · obtain ⟨_, hnone⟩ | ⟨next, hnext, hall, _⟩ := h.outcome
    · rw [hnone] at hfound
      cases hfound
    · obtain rfl := Option.some.inj (hnext.live.symm.trans hfound)
      rw [hall, covered_append]
      exact .inr hx

/-- The bytes a transfer may still receive, and the times the peer may still give up. -/
def remaining (target : Target) (session : Session) : Nat :=
  (target.size - session.received).toNat + (_OUTOFPART_MAX_RETRIES + 1 - session.outofpart_retries)

/-- A round with a request brings data, or uses up one retry. -/
theorem Serves.remaining_lt (h : Serves target others max_blocks id schedule gaps ex session turn)
    (hcarried : Between target others id (schedule.client.available target.size) gaps ex session) {next : Session}
    (hnext : Between target others id (schedule.client.available target.size) gaps
      (ex.round target max_blocks id schedule turn) next) :
    remaining target next < remaining target session := by
  have hparts := written_nonempty h.honest.nonempty
  have hsum : (next.received : Int) =
      session.received + total (written (ex.answer target max_blocks id schedule turn).parts) := by
    rw [hnext.received, h.writes, written_append, total_append, hcarried.received]
  have hnonneg := total_nonneg hparts
  have hunfinished := h.unfinished
  obtain ⟨_, hnone⟩ | ⟨found, hfound, _, hretries⟩ := h.outcome
  · have hlive := hnext.live
    rw [hnone] at hlive
    cases hlive
  · obtain rfl := Option.some.inj (hfound.live.symm.trans hnext.live)
    rcases hretries with ⟨hfull, hsame⟩ | ⟨_, hmore, hle⟩
    · have hlong := total_le_total h.asking.nonempty h.asking.apart hparts h.honest.apart (h.honest.full hfull)
      have hasked := total_pos h.asking.nonempty h.asking.some
      unfold remaining
      omega
    · unfold remaining
      omega

end Loss

end Exchange

/-- A transfer through the selector that is the only session of its file, with everything it depends on. -/
structure Solo where
  target : Target
  max_blocks : Nat
  id : Nat
  schedule : Schedule
  queue : DownloadQueue
  others : Dict Bytes (Finset Range)

namespace Solo

variable (solo : Solo)

def start : Exchange := ⟨(Swarm.idle solo.target solo.queue solo.others).step solo.target (.join solo.id), []⟩

/-- The transfer after some rounds. -/
def after : Nat → Exchange
  | 0 => solo.start
  | rounds + 1 => (after rounds).round solo.target solo.max_blocks solo.id solo.schedule rounds

/-- The ranges of the request of a round. -/
def asked (round : Nat) : List Range :=
  (solo.after round).asked solo.target solo.max_blocks solo.id solo.schedule round

/-- The answer to it. -/
def answer (round : Nat) : Answer :=
  (solo.after round).answer solo.target solo.max_blocks solo.id solo.schedule round

def Returned (rounds : Nat) : Prop := (solo.after rounds).swarm.sessions.get solo.id = none

def available : List Nat := solo.schedule.client.available solo.target.size

/-- The transfer does not return before every gap byte of the available parts was passed to `write_block`. -/
def Delivers (raw_gaps : List (Int × Int)) : Prop :=
  ∀ rounds, solo.Returned rounds → ∀ x, Wanted solo.target.size solo.available (inclusive_gaps raw_gaps) x →
    Covered (written (solo.after rounds).writes) x

/-- No request is answered with `OP_OUTOFPARTREQS`. -/
def AnswersAll : Prop := ∀ round, (solo.answer round).out_of_parts = false

/-- Some call of the selector has bytes to ask for, but not in the first three parts that it visits. -/
def Starves : Prop :=
  ∃ round session raw_gaps,
    let swarm := (solo.after round).settled solo.target solo.schedule round
    swarm.sessions.get solo.id = some session ∧ swarm.queue.gap_ranges solo.target.file_hash = .ok raw_gaps ∧
      (swarm.catalog solo.target session (solo.schedule.peers round) raw_gaps).Starved session.last_part_box
        ((solo.schedule.order round).list (swarm.bucket solo.target)) 3

section Runs

variable {solo} {raw_gaps : List (Int × Int)} {n : Nat} {x : Int}

/-- The state between two rounds. -/
abbrev Carries (solo : Solo) (raw_gaps : List (Int × Int)) (n : Nat) (session : Session) : Prop :=
  (solo.after n).Between solo.target solo.others solo.id solo.available (inclusive_gaps raw_gaps) session

theorem carries_zero (hgaps : solo.queue.gap_ranges solo.target.file_hash = .ok raw_gaps) :
    solo.Carries raw_gaps 0 .new := by
  have hstart : solo.after 0 =
      ⟨⟨solo.queue, solo.others.erase solo.target.file_hash_bytes, Dict.empty.set solo.id .new⟩, []⟩ := by
    simp only [after, start, Swarm.step, Swarm.idle, Dict.get_empty]
  have htracked := (Swarm.tracked_idle solo.target solo.queue solo.others).step (.join solo.id)
  change (solo.after 0).swarm.Tracked solo.target solo.others at htracked
  rw [hstart] at htracked
  rw [Carries, hstart]
  refine ⟨⟨Dict.get_set_self _ _ _, ?_, htracked, ⟨raw_gaps, hgaps, fun _ hx => hx, fun _ hx _ => hx, ?_⟩, rfl, rfl,
    List.forall_mem_nil _, List.Pairwise.nil, ?_, ?_⟩, le_refl _⟩
  · intro other hother
    exact (Dict.get_set_of_ne hother _ _).trans (Dict.get_empty other)
  · exact fun _ x hx => absurd hx (not_covered_nil x)
  · exact fun x hx => absurd hx (not_covered_nil x)
  · exact fun x hx => absurd hx (not_covered_nil x)

theorem Returned.succ (hreturned : solo.Returned n) :
    solo.Returned (n + 1) ∧ (solo.after (n + 1)).writes = (solo.after n).writes := by
  obtain ⟨hnone, hwrites, _⟩ := Exchange.round_of_returned hreturned n
  exact ⟨hnone, hwrites⟩

theorem Returned.add (hreturned : solo.Returned n) (more : Nat) : solo.Returned (n + more) := by
  induction more with
  | zero => exact hreturned
  | succ more ih => exact ih.succ.1

/-- Every round starts with a session between two events, or behind the return. -/
theorem carries_or_returned (hgaps : solo.queue.gap_ranges solo.target.file_hash = .ok raw_gaps)
    (hbudget : ∀ rounds, (solo.after rounds).writes.length < solo.max_blocks) (n : Nat) :
    (∃ session, solo.Carries raw_gaps n session) ∨ solo.Returned n := by
  induction n with
  | zero => exact .inl ⟨_, carries_zero hgaps⟩
  | succ n ih =>
    obtain ⟨session, hcarries⟩ | hreturned := ih
    · obtain hends | hserves := hcarries.round_cases (hbudget n) n
      · exact .inr hends.returned
      · obtain ⟨_, hnone⟩ | ⟨next, hnext, _⟩ := hserves.outcome
        · exact .inr hnone
        · exact .inl ⟨next, hnext⟩
    · exact .inr hreturned.succ.1

theorem Carries.exists_returned (hbudget : ∀ rounds, (solo.after rounds).writes.length < solo.max_blocks)
    {session : Session} (hcarries : solo.Carries raw_gaps n session) : ∃ rounds, solo.Returned rounds := by
  induction hleft : Exchange.remaining solo.target session using Nat.strong_induction_on generalizing n session with
  | h bound ih =>
    obtain hends | hserves := hcarries.round_cases (hbudget n) n
    · exact ⟨n + 1, hends.returned⟩
    · obtain ⟨_, hnone⟩ | ⟨next, hnext, _⟩ := hserves.outcome
      · exact ⟨n + 1, hnone⟩
      · have hless := hserves.remaining_lt hcarries hnext
        rw [hleft] at hless
        exact ih _ hless (n := n + 1) hnext rfl

theorem missed_add (hgaps : solo.queue.gap_ranges solo.target.file_hash = .ok raw_gaps)
    (hbudget : ∀ rounds, (solo.after rounds).writes.length < solo.max_blocks)
    (hmissed : Exchange.Missed solo.id (solo.after n) x) (more : Nat) :
    Exchange.Missed solo.id (solo.after (n + more)) x := by
  induction more with
  | zero => exact hmissed
  | succ more ih =>
    obtain ⟨session, hcarries⟩ | hreturned := carries_or_returned hgaps hbudget (n + more)
    · exact ih.after_round hcarries (hbudget (n + more))
    · obtain ⟨hnone, hwrites⟩ := hreturned.succ
      refine ⟨?_, fun session hsession => ?_⟩
      · rw [← Nat.add_assoc, hwrites]
        exact ih.1
      · rw [← Nat.add_assoc, hnone] at hsession
        cases hsession

theorem not_out_of_parts_of_asked_nil (hasked : solo.asked n = []) : (solo.answer n).out_of_parts = false := by
  have hhonest := solo.schedule.honest n [] (List.forall_mem_nil _) List.Pairwise.nil
  have hanswer : solo.answer n = solo.schedule.answers n [] := congrArg (solo.schedule.answers n) hasked
  rw [hanswer, ← Bool.not_eq_true]
  intro hout
  obtain ⟨x, hx, _⟩ := hhonest.short hout
  exact not_covered_nil x hx

/-- Where a peer gives up, a byte that it could have sent is missing in the end. -/
theorem answersAll_of_delivers (hgaps : solo.queue.gap_ranges solo.target.file_hash = .ok raw_gaps)
    (hbudget : ∀ rounds, (solo.after rounds).writes.length < solo.max_blocks) (hdelivers : solo.Delivers raw_gaps) :
    solo.AnswersAll := by
  intro n
  rw [← Bool.not_eq_true]
  intro hout
  obtain ⟨session, hcarries⟩ | hreturned := carries_or_returned hgaps hbudget n
  · obtain hends | hserves := hcarries.round_cases (hbudget n) n
    · exact absurd hout (Bool.not_eq_true _ ▸ not_out_of_parts_of_asked_nil hends.asked)
    · obtain ⟨x, hx, hmissed⟩ := hserves.missed hcarries hout
      obtain ⟨last, hlast⟩ := (carries_zero hgaps).exists_returned hbudget
      have hend : solo.Returned (n + 1 + last) := by
        rw [Nat.add_comm]
        exact hlast.add (n + 1)
      exact (missed_add (n := n + 1) hgaps hbudget hmissed last).1 (hdelivers _ hend x (hserves.wanted x hx))
  · obtain ⟨_, _, hasked⟩ := Exchange.round_of_returned hreturned n
    exact absurd hout (Bool.not_eq_true _ ▸ not_out_of_parts_of_asked_nil hasked)

/-- Where the selector is starved, the transfer returns without bytes that it could have asked for. -/
theorem not_starves_of_delivers (hgaps : solo.queue.gap_ranges solo.target.file_hash = .ok raw_gaps)
    (hbudget : ∀ rounds, (solo.after rounds).writes.length < solo.max_blocks) (hdelivers : solo.Delivers raw_gaps) :
    ¬ solo.Starves := by
  rintro ⟨n, session, left, hsession, hleft, ⟨x, hwanted, hfree⟩, hexhausted⟩
  obtain ⟨found, hcarries⟩ | hreturned := carries_or_returned hgaps hbudget n
  · have hsettled := hcarries.settled solo.schedule n
    obtain rfl := Option.some.inj (hsettled.live.symm.trans hsession)
    have hnil := select_blocks_eq_nil_iff.mpr hexhausted
    obtain hends | hserves := hcarries.round_cases (hbudget n) n
    · obtain ⟨again, hagain, hinside, _⟩ := hsettled.left
      obtain rfl : again = left := Except.ok.inj (hagain.symm.trans hleft)
      obtain ⟨part, havailable, hcount, hbounds, hgap⟩ := hwanted
      have hpassed := hdelivers (n + 1) hends.returned x ⟨part, havailable, hcount, hbounds, hinside x hgap⟩
      rw [show (solo.after (n + 1)).writes = (solo.after n).writes from hends.writes] at hpassed
      exact hfree ((hsettled.covered_bucket_iff (solo.schedule.order n) x).mpr (hcarries.passed x hpassed))
    · obtain ⟨again, hagain, hasked⟩ := hserves.selected
      obtain rfl : again = left := Except.ok.inj (hagain.symm.trans hleft)
      exact hserves.asking.some (hasked.trans hnil)
  · rw [Exchange.sessions_settled, show (solo.after n).swarm.sessions.get solo.id = none from hreturned] at hsession
    cases hsession

/-- What was asked for was passed to `write_block`. -/
def Whole (ex : Exchange) (session : Session) : Prop :=
  ∀ x, Covered session.issued_ranges x → Covered (written ex.writes) x

/-- A round in which the transfer returns without loss: all gap bytes of the available parts were passed. -/
theorem delivered_of_ends {session : Session} (hcarries : solo.Carries raw_gaps n session)
    (hwhole : Whole (solo.after n) session) (hfed : solo.target.download_bytes_per_sec > 0 → ¬ solo.Starves)
    (hends : Exchange.Ends solo.target solo.max_blocks solo.id solo.schedule (solo.after n) session n)
    (hx : Wanted solo.target.size solo.available (inclusive_gaps raw_gaps) x) :
    Covered (written (solo.after n).writes) x := by
  obtain hall | ⟨left, hleft, hnil⟩ := hends.cause
  · -- As many bytes as the file has were received, each of them once.
    have hbounds := hx.bounds
    have hfile : ∀ y, Covered [((0 : Int), solo.target.size - 1)] y ↔ 0 ≤ y ∧ y ≤ solo.target.size - 1 :=
      fun y => covered_singleton _ y
    have hnonempty : ∀ range ∈ [((0 : Int), solo.target.size - 1)], range.1 ≤ range.2 := by
      rw [List.forall_mem_singleton]
      exact Int.le_sub_one_of_lt (lt_of_le_of_lt hbounds.1 hbounds.2)
    have hinside : ∀ y, Covered (written (solo.after n).writes) y → Covered [((0 : Int), solo.target.size - 1)] y := by
      intro y hy
      have hin := (hcarries.wanted y (hcarries.passed y hy)).bounds
      exact (hfile y).mpr ⟨hin.1, Int.le_sub_one_of_lt hin.2⟩
    have hlong : total [((0 : Int), solo.target.size - 1)] ≤ total (written (solo.after n).writes) := by
      rw [← hcarries.received, total_cons, total_nil]
      omega
    exact covered_of_total_le hcarries.nonempty hcarries.apart hnonempty (List.pairwise_singleton _ _) hinside hlong
      ((hfile x).mpr ⟨hbounds.1, Int.le_sub_one_of_lt hbounds.2⟩)
  · have hsettled := hcarries.settled solo.schedule n
    obtain ⟨again, hagain, _, hmissing, hrecorded⟩ := hsettled.left
    obtain rfl : again = left := Except.ok.inj (hagain.symm.trans hleft)
    have hissued := hsettled.covered_bucket_iff (solo.schedule.order n)
    have hstarved : ¬ ((((solo.after n).settled solo.target solo.schedule n).catalog solo.target session
        (solo.schedule.peers n) again).Starved session.last_part_box
          ((solo.schedule.order n).list (((solo.after n).settled solo.target solo.schedule n).bucket solo.target)) 3) := by
      by_cases hlimited : solo.target.download_bytes_per_sec > 0
      · exact fun hstarved => hfed hlimited ⟨n, session, again, hsettled.live, hagain, hstarved⟩
      · refine not_starved_of_free (by decide) fun y hy hrequested => ?_
        exact hrecorded (not_lt.mp hlimited) y (hwhole y ((hissued y).mp hrequested)) hy
    by_contra hfree
    obtain ⟨part, havailable, hcount, hbounds, hgap⟩ := hx
    have hcovered := covered_of_not_starved hstarved hnil
      ⟨part, havailable, hcount, hbounds, hmissing x hgap hfree⟩
    exact hfree (hwhole x ((hissued x).mp hcovered))

theorem whole_or_delivered (hgaps : solo.queue.gap_ranges solo.target.file_hash = .ok raw_gaps)
    (hbudget : ∀ rounds, (solo.after rounds).writes.length < solo.max_blocks) (hanswers : solo.AnswersAll)
    (hfed : solo.target.download_bytes_per_sec > 0 → ¬ solo.Starves) (n : Nat) :
    (∃ session, solo.Carries raw_gaps n session ∧ Whole (solo.after n) session) ∨
      solo.Returned n ∧ ∀ x, Wanted solo.target.size solo.available (inclusive_gaps raw_gaps) x →
        Covered (written (solo.after n).writes) x := by
  induction n with
  | zero => exact .inl ⟨_, carries_zero hgaps, fun x hx => absurd hx (not_covered_nil x)⟩
  | succ n ih =>
    obtain ⟨session, hcarries, hwhole⟩ | ⟨hreturned, hall⟩ := ih
    · obtain hends | hserves := hcarries.round_cases (hbudget n) n
      · right
        refine ⟨hends.returned, fun x hx => ?_⟩
        rw [show (solo.after (n + 1)).writes = (solo.after n).writes from hends.writes]
        exact delivered_of_ends hcarries hwhole hfed hends hx
      · have hfull := hanswers n
        obtain ⟨hout, _⟩ | ⟨next, hnext, hissued, _⟩ := hserves.outcome
        · exact absurd (hout.symm.trans hfull) Bool.true_eq_false_eq_False
        · left
          refine ⟨next, hnext, fun x hx => ?_⟩
          rw [hissued, covered_append] at hx
          exact (hserves.covered_writes_iff x).mpr (hx.imp (hwhole x) (hserves.honest.full hfull x))
    · obtain ⟨hagain, hwrites⟩ := hreturned.succ
      refine .inr ⟨hagain, fun x hx => ?_⟩
      rw [hwrites]
      exact hall x hx

/-- The transfer returns; and when it does, all gap bytes of the available parts were passed to `write_block`, exactly
if the peer answered every request in full. With a rate limit, blocks stay among the gaps for a while after they were
passed; then the selector must also not spend its three turns on parts of which everything is requested. -/
theorem delivers_iff (solo : Solo) {raw_gaps : List (Int × Int)}
    (hgaps : solo.queue.gap_ranges solo.target.file_hash = .ok raw_gaps)
    (hbudget : ∀ rounds, (solo.after rounds).writes.length < solo.max_blocks) :
    (∃ rounds, solo.Returned rounds) ∧
      (solo.Delivers raw_gaps ↔
        solo.AnswersAll ∧ (solo.target.download_bytes_per_sec > 0 → ¬ solo.Starves)) := by
  refine ⟨(carries_zero hgaps).exists_returned hbudget, ?_, ?_⟩
  · exact fun hdelivers => ⟨answersAll_of_delivers hgaps hbudget hdelivers,
      fun _ => not_starves_of_delivers hgaps hbudget hdelivers⟩
  · rintro ⟨hanswers, hfed⟩ rounds hreturned x hx
    obtain ⟨session, hcarries, _⟩ | ⟨_, hall⟩ := whole_or_delivered hgaps hbudget hanswers hfed rounds
    · have hlive := hcarries.live
      rw [show (solo.after rounds).swarm.sessions.get solo.id = none from hreturned] at hlive
      cases hlive
    · exact hall x hx

/-- With the default of `max_blocks` the transfer is a run of the sessions of its file. -/
theorem exists_run (hmax : solo.max_blocks = MAX_BLOCKS) (n : Nat) :
    ∃ events, (solo.after n).swarm = (Swarm.idle solo.target solo.queue solo.others).run solo.target events := by
  have hpackets : ∀ (packets : List Packet) (ex : Exchange),
      (packets.foldl (Exchange.receive solo.target solo.id) ex).swarm =
        ex.swarm.run solo.target (packets.map (.packet solo.id)) := by
    intro packets
    induction packets with
    | nil => exact fun _ => rfl
    | cons packet rest ih => exact fun ex => ih (ex.receive solo.target solo.id packet)
  have happend : ∀ (swarm : Swarm) (first second : List Event),
      swarm.run solo.target (first ++ second) = (swarm.run solo.target first).run solo.target second :=
    fun _ _ _ => List.foldl_append
  induction n with
  | zero => exact ⟨[.join solo.id], rfl⟩
  | succ n ih =>
    obtain ⟨events, hevents⟩ := ih
    have hlate : ∃ late, (solo.after n).settled solo.target solo.schedule n =
        (solo.after n).swarm.run solo.target late := by
      unfold Exchange.settled
      split_ifs
      · exact ⟨_, rfl⟩
      · exact ⟨[], rfl⟩
    obtain ⟨late, hlate⟩ := hlate
    have hbegun : (solo.after n).begun solo.target solo.max_blocks solo.id solo.schedule n =
        ((solo.after n).swarm.run solo.target late).run solo.target [.round solo.id (solo.schedule.peers n)] := by
      rw [← hlate, hmax]
      rfl
    refine ⟨events ++ late ++ [.round solo.id (solo.schedule.peers n)] ++
      (solo.answer n).packets.map (.packet solo.id), ?_⟩
    rw [happend, happend, happend, ← hevents, ← hbegun]
    exact hpackets _ _

theorem writes_lt_of_returned (hreturned : solo.Returned n)
    (hbefore : ∀ rounds ≤ n, (solo.after rounds).writes.length < solo.max_blocks) (rounds : Nat) :
    (solo.after rounds).writes.length < solo.max_blocks := by
  obtain hle | hlater := le_total rounds n
  · exact hbefore rounds hle
  · induction rounds, hlater using Nat.le_induction with
    | base => exact hbefore n (le_refl n)
    | succ rounds hlater ih =>
      have hthen : solo.Returned rounds := Nat.add_sub_cancel' hlater ▸ hreturned.add (rounds - n)
      rw [hthen.succ.2]
      exact ih

end Runs

end Solo

section Samples

/-- The ranges in the order of their starts. -/
def sort_ranges (ranges : List Range) : List Range := ((ranges.map toLex).insertionSort (· ≤ ·)).map ofLex

theorem perm_sort_ranges (ranges : List Range) : (sort_ranges ranges).Perm ranges := by
  have hperm := (List.perm_insertionSort (· ≤ ·) (ranges.map toLex)).map ofLex
  rwa [List.map_map, show (ofLex ∘ toLex : Range → Range) = id from rfl, List.map_id] at hperm

theorem sort_ranges_eq_of_perm {first second : List Range} (hperm : first.Perm second) :
    sort_ranges first = sort_ranges second := by
  have hsorted := ((List.perm_insertionSort (· ≤ ·) _).trans (hperm.map toLex)).trans
    (List.perm_insertionSort (· ≤ ·) (second.map toLex)).symm
  exact congrArg (List.map ofLex)
    (hsorted.eq_of_pairwise' (List.pairwise_insertionSort _ _) (List.pairwise_insertionSort _ _))

def sampleOrder : SetOrder where
  list := fun ranges => ranges.1.liftOn sort_ranges fun _ _ => sort_ranges_eq_of_perm
  mem_list := by
    rintro ⟨ranges, hnodup⟩ range
    induction ranges using Quotient.inductionOn with
    | h ranges => exact (perm_sort_ranges ranges).mem_iff
  nodup := by
    rintro ⟨ranges, hnodup⟩
    induction ranges using Quotient.inductionOn with
    | h ranges => exact (perm_sort_ranges ranges).nodup_iff.mpr hnodup

/-- Nothing at all, or every range as a whole. -/
def sampleAnswer (gives_up : Bool) (ranges : List Range) : Answer :=
  if gives_up ∧ ranges ≠ [] then ⟨[], true⟩
  else ⟨ranges.map fun range => (range.1, List.replicate (range.2 + 1 - range.1).toNat 0), false⟩

theorem honest_sampleAnswer (gives_up : Bool) {ranges : List Range} (hnonempty : ∀ range ∈ ranges, range.1 ≤ range.2)
    (hapart : ranges.Pairwise Apart) : (sampleAnswer gives_up ranges).Honest ranges := by
  unfold sampleAnswer
  split_ifs with hgives
  · refine ⟨List.forall_mem_nil _, List.Pairwise.nil, fun x hx => absurd hx (not_covered_nil x), nofun, fun _ => ?_⟩
    obtain ⟨range, rest, rfl⟩ := List.exists_cons_of_ne_nil hgives.2
    have hfirst := hnonempty range List.mem_cons_self
    exact ⟨range.1, ⟨range, List.mem_cons_self, le_refl _, hfirst⟩, not_covered_nil _⟩
  · have hsame : written (ranges.map fun range => (range.1, List.replicate (range.2 + 1 - range.1).toNat (0 : UInt8))) =
        ranges := by
      rw [written, List.map_map]
      refine (List.map_congr_left fun range hrange => ?_).trans (List.map_id ranges)
      have hlength := hnonempty range hrange
      refine Prod.ext rfl ?_
      simp only [Function.comp, List.length_replicate, id]
      omega
    refine ⟨?_, hsame.symm ▸ hapart, fun x hx => hsame ▸ hx, fun _ x hx => hsame.symm ▸ hx, nofun⟩
    intro part hpart
    obtain ⟨range, hrange, rfl⟩ := List.mem_map.mp hpart
    have hlength := hnonempty range hrange
    rw [ne_eq, List.replicate_eq_nil_iff]
    omega

/-- A peer with the whole file that gives up in some of the rounds. -/
def sampleSchedule (gives_up : Nat → Bool) : Schedule where
  client := ⟨true, none⟩
  clients := fun _ => [⟨true, none⟩]
  order := fun _ => sampleOrder
  ties := fun _ _ => 0
  late := fun _ _ => []
  late_subset := fun _ blocks => List.nil_subset blocks
  answers := fun round => sampleAnswer (gives_up round)
  honest := fun round _ => honest_sampleAnswer (gives_up round)

/-- A file of twenty bytes of which two pieces are missing. -/
def sampleMissing : DownloadQueue where
  rows := .ofList [(sampleHash '0', ⟨"a", 20, ["a.part"], .DOWNLOADING, 5⟩)]
  files := .ofList [(["a.part"], List.replicate 20 0)]
  sidecars := .ofList [(["a.part"], ⟨20, [⟨0, 5⟩, ⟨10, 20⟩]⟩)]
  moved := []

def sampleSolo (gives_up : Nat → Bool) : Solo where
  target := ⟨sampleHash '0', List.replicate 16 0, 20, 0⟩
  max_blocks := 100000
  id := 0
  schedule := sampleSchedule gives_up
  queue := sampleMissing
  others := .empty

theorem gap_ranges_sampleMissing : sampleMissing.gap_ranges (sampleHash '0') = .ok [(0, 5), (10, 20)] := by decide +kernel

/-- Both pieces arrive in the first round, and the second one finds nothing to ask for. -/
theorem delivers_iff_twenty_bytes :
    (∃ rounds, (sampleSolo fun _ => false).Returned rounds) ∧
      ((sampleSolo fun _ => false).Delivers [(0, 5), (10, 20)] ↔ (sampleSolo fun _ => false).AnswersAll ∧
        ((sampleSolo fun _ => false).target.download_bytes_per_sec > 0 → ¬ (sampleSolo fun _ => false).Starves)) := by
  have hreturned : (sampleSolo fun _ => false).Returned 2 := by
    unfold Solo.Returned
    decide +kernel
  have hbefore : ∀ rounds ≤ 2, ((sampleSolo fun _ => false).after rounds).writes.length <
      (sampleSolo fun _ => false).max_blocks := by decide +kernel
  exact Solo.delivers_iff (sampleSolo fun _ => false) gap_ranges_sampleMissing
    (Solo.writes_lt_of_returned hreturned hbefore)

/-- The peer gives up as often as it may. -/
def Solo.GivesUpWithin (solo : Solo) : Prop :=
  ∀ n, ((List.range n).countP fun round => (solo.answer round).out_of_parts) ≤ _OUTOFPART_MAX_RETRIES

/-- A peer that has the whole file gives up in the first round only, before it has sent anything. Its second request
would be for the same bytes, which are still registered: the selector finds nothing, and the transfer returns without
a byte. -/
theorem sampleSolo_not_delivered :
    ¬ ∀ (solo : Solo) (raw_gaps : List (Int × Int)), solo.queue.gap_ranges solo.target.file_hash = .ok raw_gaps →
      (∀ rounds, (solo.after rounds).writes.length < solo.max_blocks) → solo.GivesUpWithin →
        solo.Delivers raw_gaps := by
  intro hall
  let solo := sampleSolo fun round => round = 0
  have hreturned : solo.Returned 2 := by
    unfold Solo.Returned
    decide +kernel
  have hbefore : ∀ rounds ≤ 2, (solo.after rounds).writes.length < solo.max_blocks := by decide +kernel
  have honce : solo.GivesUpWithin := by
    intro n
    have hfirst : ∀ round ∈ List.range n, (solo.answer round).out_of_parts = true → (round == 0) = true := by
      intro round _ hout
      by_contra hlater
      have hsends : solo.answer round = sampleAnswer false (solo.asked round) :=
        congrArg (sampleAnswer · (solo.asked round)) (decide_eq_false (mt beq_iff_eq.mpr hlater))
      rw [hsends, sampleAnswer, if_neg (by simp)] at hout
      cases hout
    have hcount := List.countP_mono_left hfirst
    have hone : (List.range n).countP (fun round => round == 0) ≤ 1 :=
      List.nodup_iff_count_le_one.mp List.nodup_range 0
    exact le_trans hcount (le_trans hone (by decide))
  have hdelivers := hall solo [(0, 5), (10, 20)] gap_ranges_sampleMissing (Solo.writes_lt_of_returned hreturned hbefore)
    honce 2 hreturned 0
  have hwrites : (solo.after 2).writes = [] := by decide +kernel
  rw [hwrites] at hdelivers
  refine not_covered_nil 0 (hdelivers ⟨0, ?_, ?_, ⟨?_, ?_⟩, (0, 4), ?_, ?_⟩)
  · decide +kernel
  · decide +kernel
  · decide +kernel
  · decide +kernel
  · decide +kernel
  · exact ⟨le_refl _, by decide⟩

end Samples

end amuled.download.ics
