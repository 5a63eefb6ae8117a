import AmuleD.Intervals.HalfOpen
import AmuleD.Peer.Transfer

open halfopen

namespace amuled.peer

/-- What `write_block` writes of a part. -/
def SendingPart.span (part : SendingPart) : Span Nat := ⟨part.start, part.start + part.data.length⟩

/-- The region that a transfer downloads. -/
def TransferArgs.region (args : TransferArgs) : Span Nat := ⟨args.start_offset, args.bound⟩

/-- A part of the requested file that lies in the region and was not written yet. -/
structure New (args : TransferArgs) (transfer : Transfer) (part : SendingPart) : Prop where
  hash : part.file_hash = args.file_hash
  inside : args.region.start ≤ part.span.start ∧ part.span.stop ≤ args.region.stop
  apart : ∀ earlier ∈ transfer.parts, ∀ x, earlier.span.Holds x → ¬ part.span.Holds x

/-- What has been counted was written: parts of the requested file, each of them once. -/
structure Counted (args : TransferArgs) (transfer : Transfer) : Prop where
  hash : ∀ part ∈ transfer.parts, part.file_hash = args.file_hash
  inside : ∀ part ∈ transfer.parts, args.region.start ≤ part.span.start ∧ part.span.stop ≤ args.region.stop
  apart : transfer.parts.Pairwise fun earlier later => ∀ x, earlier.span.Holds x → ¬ later.span.Holds x
  received : transfer.received = (transfer.parts.map fun part => part.data.length).sum

section Counted

variable {args : TransferArgs} {transfer next : Transfer} {part : SendingPart}

theorem Counted.frame (h : Counted args transfer) (hparts : next.parts = transfer.parts)
    (hreceived : next.received = transfer.received) : Counted args next := by
  constructor
  · rw [hparts]
    exact h.hash
  · rw [hparts]
    exact h.inside
  · rw [hparts]
    exact h.apart
  · rw [hparts, hreceived]
    exact h.received

theorem Counted.write (h : Counted args transfer) (hnew : New args transfer part)
    (hparts : next.parts = transfer.parts ++ [part])
    (hreceived : next.received = transfer.received + part.data.length) : Counted args next := by
  constructor
  · rw [hparts]
    intro other hother
    rcases List.mem_append.mp hother with hother | hother
    · exact h.hash other hother
    · rw [List.mem_singleton.mp hother]
      exact hnew.hash
  · rw [hparts]
    intro other hother
    rcases List.mem_append.mp hother with hother | hother
    · exact h.inside other hother
    · rw [List.mem_singleton.mp hother]
      exact hnew.inside
  · rw [hparts, List.pairwise_append]
    refine ⟨h.apart, List.pairwise_singleton _ _, ?_⟩
    intro earlier hearlier later hlater
    rw [List.mem_singleton.mp hlater]
    exact hnew.apart earlier hearlier
  · rw [hparts, hreceived, h.received, List.map_append, List.sum_append]
    simp

/-- Where as much was counted as the region is long, all of it was written. -/
theorem Counted.covers (h : Counted args transfer)
    (hreceived : args.bound ≤ args.start_offset + transfer.received) {x : Nat} (hx : args.region.Holds x) :
    Covers (transfer.parts.map SendingPart.span) x := by
  have hinside : ∀ span ∈ transfer.parts.map SendingPart.span,
      args.region.start ≤ span.start ∧ span.stop ≤ args.region.stop := by
    intro span hspan
    obtain ⟨part, hpart, rfl⟩ := List.mem_map.mp hspan
    exact h.inside part hpart
  refine covers_of_sum_length hinside ?_ ?_ hx
  · rw [List.pairwise_map]
    exact h.apart
  · have hlengths : (transfer.parts.map SendingPart.span).map (fun span => span.stop - span.start) =
        transfer.parts.map fun part => part.data.length := by
      rw [List.map_map]
      refine List.map_congr_left fun part _ => ?_
      simp only [Function.comp_apply, SendingPart.span, Nat.add_sub_cancel_left]
    rw [hlengths, ← h.received]
    simp only [TransferArgs.region]
    omega

end Counted

/-- A transfer reports what it has counted. -/
def Progress.Reports (args : TransferArgs) : Progress → Prop
  | .finished outcome transfer =>
    (outcome.complete = true ↔ args.bound ≤ args.start_offset + transfer.received)
  | _ => True

/-- A progress that leaves the counter and the written parts as they were. -/
structure Keeps (args : TransferArgs) (transfer : Transfer) (progress : Progress) : Prop where
  parts : progress.transfer.parts = transfer.parts
  received : progress.transfer.received = transfer.received
  reports : progress.Reports args

section Steps

variable {decompress : Bytes → Except String Bytes} (args : TransferArgs) (transfer : Transfer)

theorem reports_finished (detail : String) :
    (Progress.finished (download_outcome args transfer detail) transfer).Reports args := by
  simp only [Progress.Reports, download_outcome, decide_eq_true_eq]

theorem keeps_begin_round : Keeps args transfer (begin_round args transfer) := by
  unfold begin_round
  by_cases hround : transfer.blocks < args.max_blocks ∧ args.start_offset + transfer.received < args.bound
  · simp only [if_pos hround]
    cases request_packet
        (padded_request args.file_hash (linear_ranges (args.start_offset + transfer.received) args.bound)) with
    | error e => exact ⟨rfl, rfl, trivial⟩
    | ok packet => exact ⟨rfl, rfl, trivial⟩
  · simp only [if_neg hround]
    exact ⟨rfl, rfl, reports_finished args transfer _⟩

theorem keeps_out_of_part_reqs : Keeps args transfer (on_out_of_part_reqs args transfer) := by
  simp only [on_out_of_part_reqs]
  split
  · exact ⟨rfl, rfl, reports_finished args _ _⟩
  · exact ⟨(keeps_begin_round args _).parts, (keeps_begin_round args _).received, (keeps_begin_round args _).reports⟩

theorem keeps_queue_rank (payload : Bytes) : Keeps args transfer (on_queue_rank args transfer payload) := by
  unfold on_queue_rank
  cases parse_queue_rank payload with
  | error e => exact ⟨rfl, rfl, trivial⟩
  | ok rank => exact ⟨rfl, rfl, reports_finished args transfer _⟩

theorem keeps_other (packet : Packet) : Keeps args transfer (on_other transfer packet) := by
  unfold on_other
  cases collect_answer_sources packet with
  | error e => exact ⟨rfl, rfl, trivial⟩
  | ok entries => exact ⟨rfl, rfl, trivial⟩

/-- A progress that counts and writes one part more. -/
structure Writes (args : TransferArgs) (transfer : Transfer) (part : SendingPart) (progress : Progress) :
    Prop where
  parts : progress.transfer.parts = transfer.parts ++ [part]
  received : progress.transfer.received = transfer.received + part.data.length
  reports : progress.Reports args

theorem writes_write_part (part : SendingPart) : Writes args transfer part (write_part args transfer part) := by
  simp only [write_part]
  split
  · exact ⟨rfl, rfl, trivial⟩
  · exact ⟨(keeps_begin_round args _).parts, (keeps_begin_round args _).received,
      (keeps_begin_round args _).reports⟩

/-- An arrival is the packet that completes a part. -/
inductive Completes (decompress : Bytes → Except String Bytes) (transfer : Transfer) :
    Arrival → SendingPart → Prop where
  | intro {packet : Packet} {part : SendingPart} {pending : Pending}
      (hprotocol : packet.protocol = EDONKEY ∨ packet.protocol = EMULE) (hdata : IsData packet.opcode)
      (hread : read_part decompress transfer.pending_compressed packet.opcode packet.payload =
        .ok (some part, pending)) : Completes decompress transfer (.packet packet) part

theorem on_packet_cases (decompress : Bytes → Except String Bytes) (packet : Packet) :
    Keeps args transfer (on_packet decompress args transfer packet) ∨
      ∃ part, Completes decompress transfer (.packet packet) part ∧
        Writes args transfer part (on_packet decompress args transfer packet) := by
  unfold on_packet
  by_cases hprotocol : packet.protocol ≠ EDONKEY ∧ packet.protocol ≠ EMULE
  · rw [if_pos hprotocol]
    exact .inl ⟨rfl, rfl, trivial⟩
  rw [if_neg hprotocol]
  by_cases hdata : IsData packet.opcode
  · rw [if_pos hdata, on_data]
    cases hread : read_part decompress transfer.pending_compressed packet.opcode packet.payload with
    | error e => exact .inl ⟨rfl, rfl, trivial⟩
    | ok read =>
      obtain ⟨part, pending⟩ := read
      cases part with
      | none => exact .inl ⟨rfl, rfl, trivial⟩
      | some part =>
        have hwrites := writes_write_part args { transfer with pending_compressed := pending } part
        have hknown : packet.protocol = EDONKEY ∨ packet.protocol = EMULE := by
          rw [not_and_or, not_not, not_not] at hprotocol
          exact hprotocol
        exact .inr ⟨part, .intro hknown hdata hread, hwrites.parts, hwrites.received, hwrites.reports⟩
  rw [if_neg hdata]
  left
  split_ifs
  · exact ⟨(keeps_begin_round args _).parts, (keeps_begin_round args _).received,
      (keeps_begin_round args _).reports⟩
  · exact keeps_out_of_part_reqs args transfer
  · exact keeps_queue_rank args transfer packet.payload
  · exact keeps_other args transfer packet

/-- A receive leaves what was counted and written as it was, or completes one part. -/
theorem on_arrival_cases (decompress : Bytes → Except String Bytes) (arrival : Arrival) :
    Keeps args transfer (on_arrival decompress args (.waiting transfer) arrival) ∨
      ∃ part, Completes decompress transfer arrival part ∧
        Writes args transfer part (on_arrival decompress args (.waiting transfer) arrival) := by
  cases arrival with
  | packet packet => exact on_packet_cases args transfer decompress packet
  | idle => exact .inl ⟨rfl, rfl, reports_finished args transfer _⟩
  | failed e => exact .inl ⟨rfl, rfl, trivial⟩

end Steps

section Runs

variable (decompress : Bytes → Except String Bytes) (args : TransferArgs)

/-- Every part that an arrival completes is new. -/
def Progress.Takes (args : TransferArgs) : Progress → Arrival → Prop
  | .waiting transfer, arrival => ∀ part, Completes decompress transfer arrival part → New args transfer part
  | _, _ => True

/-- Every part that one of the arrivals completes is new when it comes. -/
def EachNew (progress : Progress) : List Arrival → Prop
  | [] => True
  | arrival :: arrivals =>
    progress.Takes decompress args arrival ∧ EachNew (on_arrival decompress args progress arrival) arrivals

/-- A transfer writes data of the requested file only, and is complete only where it wrote every
byte of the region. -/
structure Progress.Safe (progress : Progress) : Prop where
  hash : ∀ part ∈ progress.transfer.parts, part.file_hash = args.file_hash
  complete : ∀ outcome transfer, progress = .finished outcome transfer → outcome.complete = true →
    ∀ x, args.region.Holds x → Covers (transfer.parts.map SendingPart.span) x

variable {decompress args} {progress : Progress}

theorem counted_on_arrival {arrival : Arrival} (hcounted : Counted args progress.transfer)
    (hreports : progress.Reports args) (htakes : progress.Takes decompress args arrival) :
    Counted args (on_arrival decompress args progress arrival).transfer ∧
      (on_arrival decompress args progress arrival).Reports args := by
  cases progress with
  | waiting transfer =>
    rcases on_arrival_cases args transfer decompress arrival with hkeeps | ⟨part, hcompletes, hwrites⟩
    · exact ⟨hcounted.frame hkeeps.parts hkeeps.received, hkeeps.reports⟩
    · exact ⟨hcounted.write (htakes part hcompletes) hwrites.parts hwrites.received, hwrites.reports⟩
  | finished outcome transfer => exact ⟨hcounted, hreports⟩
  | raised e transfer => exact ⟨hcounted, trivial⟩

theorem counted_transfer_run {arrivals : List Arrival} (hcounted : Counted args progress.transfer)
    (hreports : progress.Reports args) (hnew : EachNew decompress args progress arrivals) :
    Counted args (transfer_run decompress args progress arrivals).transfer ∧
      (transfer_run decompress args progress arrivals).Reports args := by
  induction arrivals generalizing progress with
  | nil => exact ⟨hcounted, hreports⟩
  | cons arrival arrivals ih =>
    obtain ⟨htakes, hrest⟩ := hnew
    obtain ⟨hnext, hreportsNext⟩ := counted_on_arrival hcounted hreports htakes
    exact ih hnext hreportsNext hrest

/-- A transfer in which every part that arrives is new is safe. -/
theorem new_parts_transfer_safe (decompress : Bytes → Except String Bytes) (args : TransferArgs)
    (arrivals : List Arrival) (hnew : EachNew decompress args (begin_transfer args) arrivals) :
    (transfer_run decompress args (begin_transfer args) arrivals).Safe args := by
  have hkeeps := keeps_begin_round args ⟨0, 0, .empty, 0, 0, [], []⟩
  have hempty : Counted args ⟨0, 0, .empty, 0, 0, [], []⟩ :=
    ⟨by simp, by simp, List.Pairwise.nil, rfl⟩
  have hbegin : Counted args (begin_transfer args).transfer := hempty.frame hkeeps.parts hkeeps.received
  obtain ⟨hcounted, hreports⟩ := counted_transfer_run hbegin hkeeps.reports hnew
  refine ⟨hcounted.hash, ?_⟩
  intro outcome transfer hfinished hcomplete x hx
  rw [hfinished] at hcounted hreports
  exact hcounted.covers (hreports.mp hcomplete) hx

end Runs

/-- One packet with data of a file. -/
def data_arrival (file_hash : Bytes) (start : Nat) (data : Bytes) : Arrival :=
  .packet ⟨EDONKEY, (plain_packet file_hash false start data).1, (plain_packet file_hash false start data).2⟩

/-- The only part that a packet with data completes is that data. -/
theorem completes_data_arrival {decompress : Bytes → Except String Bytes} {transfer : Transfer}
    {file_hash : Bytes} {start : Nat} {data : Bytes} {part : SendingPart} (hhash : file_hash.length = 16)
    (hstop : start + data.length < 256 ^ 4)
    (hcompletes : Completes decompress transfer (data_arrival file_hash start data) part) :
    part = ⟨file_hash, start, start + data.length, data⟩ := by
  cases hcompletes with
  | intro hprotocol hdata hread =>
    rw [read_part_plain decompress hhash hstop, Except.ok.injEq, Prod.mk.injEq, Option.some.injEq] at hread
    exact hread.1.symm

/-- A file of two bytes that arrives in one packet. -/
theorem new_parts_transfer_safe_two_bytes :
    (transfer_run (fun _ => .error "") ⟨List.replicate 16 1, 2, 100000, 0, none⟩
      (begin_transfer ⟨List.replicate 16 1, 2, 100000, 0, none⟩)
      [data_arrival (List.replicate 16 1) 0 [5, 6]]).Safe ⟨List.replicate 16 1, 2, 100000, 0, none⟩ := by
  refine new_parts_transfer_safe (fun _ => .error "") ⟨List.replicate 16 1, 2, 100000, 0, none⟩
    [data_arrival (List.replicate 16 1) 0 [5, 6]] ⟨?_, trivial⟩
  intro part hcompletes
  obtain rfl := completes_data_arrival rfl (by decide) hcompletes
  exact ⟨rfl, by decide, fun _ hearlier => absurd hearlier List.not_mem_nil⟩

/-- The same byte twice completes a file of two bytes, and so do two bytes of another file. -/
theorem repeated_and_foreign_parts_complete :
    ¬ (transfer_run (fun _ => .error "") ⟨List.replicate 16 1, 2, 100000, 0, none⟩
      (begin_transfer ⟨List.replicate 16 1, 2, 100000, 0, none⟩)
      [data_arrival (List.replicate 16 1) 0 [5], data_arrival (List.replicate 16 1) 0 [5]]).Safe
        ⟨List.replicate 16 1, 2, 100000, 0, none⟩ ∧
      ¬ (transfer_run (fun _ => .error "") ⟨List.replicate 16 1, 2, 100000, 0, none⟩
        (begin_transfer ⟨List.replicate 16 1, 2, 100000, 0, none⟩)
        [data_arrival (List.replicate 16 2) 0 [5, 6]]).Safe ⟨List.replicate 16 1, 2, 100000, 0, none⟩ := by
  refine ⟨fun hsafe => ?_, fun hsafe => ?_⟩
  · have huncovered := hsafe.complete _ _ rfl rfl 1 (by decide)
    revert huncovered
    decide
  · have hforeign := hsafe.hash ⟨List.replicate 16 2, 0, 2, [5, 6]⟩ (List.mem_singleton.mpr rfl)
    revert hforeign
    decide

end amuled.peer
