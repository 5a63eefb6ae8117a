import AmuleD.Kad.Callback

open exactread littleendian

namespace amuled.kad

/-- What comes next for `_relay_loop`: a stop, the idle timeout, or what a frame needs, with what `dial_back` does. -/
inductive RelayTurn where
  | stop
  | timeout
  | read (dialed : Except Exc Unit)

def RelayTurn.isRead : RelayTurn → Bool
  | .read _ => true
  | _ => false

/-- Where `_relay_loop` is after the turns. -/
inductive RelayEnd where
  | waiting
  | stopped
  | timeout
  | disconnected
  | raised (e : Exc)
deriving DecidableEq

/-- `_relay_loop` on what a channel carries until it is closed: the calls of `dial_back`, and how it ends. -/
def relay_turns : List RelayTurn → Bytes → List (String × Nat) × RelayEnd
  | [], _ => ([], .waiting)
  | .stop :: _, _ => ([], .stopped)
  | .timeout :: _, _ => ([], .timeout)
  | .read dialed :: turns, stream =>
    match resume read_frame stream with
    | (.take _ _, _) => ([], .disconnected)
    | (.done frame, rest) =>
      match answer_frame frame with
      | .error e => ([], .raised e)
      | .ok dials =>
        match dialed with
        | .ok () => (dials ++ (relay_turns turns rest).1, (relay_turns turns rest).2)
        | .error _ => (dials ++ (relay_turns turns rest).1, (relay_turns turns rest).2)

/-- A frame on the relay channel, with the number in its length field. -/
structure RelayFrame where
  protocol : UInt8
  opcode : UInt8
  length : Nat
  body : Bytes
  length_lt : length < 2 ^ 32
  body_length : body.length = length - 1

namespace RelayFrame

def wire (frame : RelayFrame) : Bytes :=
  [frame.protocol] ++ encode 4 frame.length ++ [frame.opcode] ++ frame.body

/-- The requester of a frame that holds the full payload: four octets from the last to the first, and the port. -/
def requester (frame : RelayFrame) : Option (String × Nat) :=
  match frame.body.drop 32 with
  | a :: b :: c :: d :: low :: high :: _ =>
    if frame.opcode = OP_CALLBACK then
      some (s!"{d.toNat}.{c.toNat}.{b.toNat}.{a.toNat}", low.toNat + 256 * high.toNat)
    else none
  | _ => none

/-- The body ends inside the port. -/
def Clipped (frame : RelayFrame) : Prop :=
  frame.opcode = OP_CALLBACK ∧ (frame.body.length = 36 ∨ frame.body.length = 37)

instance (frame : RelayFrame) : Decidable frame.Clipped :=
  inferInstanceAs (Decidable (_ ∧ _))

end RelayFrame

/-- What a buddy sends: frames, and the front of a frame at which the channel is closed. -/
structure RelayChannel where
  frames : List RelayFrame
  broken : RelayFrame
  sent : Fin broken.wire.length

def RelayChannel.stream (channel : RelayChannel) : Bytes :=
  (channel.frames.map RelayFrame.wire).flatten ++ channel.broken.wire.take channel.sent

/-- The frames that are read before a stop or a timeout. -/
def reached (turns : List RelayTurn) (frames : List RelayFrame) : List RelayFrame :=
  frames.take (turns.takeWhile RelayTurn.isRead).length

/-- How the loop ends where no frame ends it. -/
def calm_end : List RelayTurn → List RelayFrame → RelayEnd
  | [], _ => .waiting
  | .stop :: _, _ => .stopped
  | .timeout :: _, _ => .timeout
  | .read _ :: _, [] => .disconnected
  | .read _ :: turns, _ :: frames => calm_end turns frames

/-- Each frame with the full payload is dialed back once, in order, and no frame ends the loop. -/
structure Relays (turns : List RelayTurn) (channel : RelayChannel) : Prop where
  dialed : (relay_turns turns channel.stream).1 = (reached turns channel.frames).filterMap RelayFrame.requester
  ended : (relay_turns turns channel.stream).2 = calm_end turns channel.frames

section RelayLoop

variable {frame : RelayFrame} {frames : List RelayFrame} {turns : List RelayTurn}

theorem resume_wire (frame : RelayFrame) (rest : Bytes) :
    resume read_frame (frame.wire ++ rest) = (.done (frame.opcode :: frame.body), rest) :=
  resume_read_frame frame.opcode frame.protocol frame.length_lt frame.body_length rest

/-- A frame that the channel cuts is not read. -/
theorem resume_broken (channel : RelayChannel) :
    ∃ count next, (resume read_frame (channel.broken.wire.take channel.sent)).1 = .take count next := by
  have hfull : resume read_frame
      (channel.broken.wire.take channel.sent ++ channel.broken.wire.drop channel.sent) =
      (.done (channel.broken.opcode :: channel.broken.body), []) := by
    rw [List.take_append_drop]
    have hwhole := resume_wire channel.broken []
    rwa [List.append_nil] at hwhole
  have hback : channel.broken.wire.drop channel.sent ≠ [] := by
    intro hnil
    have hshort := List.drop_eq_nil_iff.mp hnil
    have hsent := channel.sent.isLt
    omega
  cases hread : (resume read_frame (channel.broken.wire.take channel.sent)).1 with
  | done early => exact absurd hread (not_done_of_front hfull hback early)
  | take count next => exact ⟨count, next, rfl⟩

/-- The number in four bytes, written in dotted form. -/
theorem ip_to_str_decode (a b c d : UInt8) :
    ip_to_str (decode [a, b, c, d]) = s!"{d.toNat}.{c.toNat}.{b.toNat}.{a.toNat}" := by
  have hsum : decode [a, b, c, d] = d.toNat * 2 ^ 24 + c.toNat * 2 ^ 16 + b.toNat * 2 ^ 8 + a.toNat := by
    simp only [decode]
    omega
  rw [hsum, ip_to_str_octets d.toNat_lt c.toNat_lt b.toNat_lt a.toNat_lt]

theorem exists_six {bytes : Bytes} (hlength : 6 ≤ bytes.length) :
    ∃ a b c d low high more, bytes = a :: b :: c :: d :: low :: high :: more := by
  rcases bytes with _ | ⟨a, _ | ⟨b, _ | ⟨c, _ | ⟨d, _ | ⟨low, _ | ⟨high, more⟩⟩⟩⟩⟩⟩
  case cons.cons.cons.cons.cons.cons => exact ⟨a, b, c, d, low, high, more, rfl⟩
  all_goals
    simp only [List.length_cons, List.length_nil] at hlength
    omega

/-- A frame whose body does not end inside the port is answered with the dial-back that it asks for, if any. -/
theorem answer_of_not_clipped (hwhole : ¬ frame.Clipped) :
    answer_frame (frame.opcode :: frame.body) = .ok frame.requester.toList := by
  by_cases hopcode : frame.opcode = OP_CALLBACK
  · by_cases hshort : frame.body.length < 36
    · have hnone : frame.requester = none := by
        have hdrop : (frame.body.drop 32).length < 6 := by
          rw [List.length_drop]
          omega
        rw [RelayFrame.requester]
        split
        · next hbytes =>
          rw [hbytes] at hdrop
          simp only [List.length_cons] at hdrop
          omega
        · rfl
      rw [answer_frame, if_pos hopcode, if_pos hshort, hnone, Option.toList_none]
    · have hlong : ¬ frame.body.length < 38 := by
        intro hlt
        exact hwhole ⟨hopcode, by omega⟩
      obtain ⟨a, b, c, d, low, high, more, hbytes⟩ :
          ∃ a b c d low high more, frame.body.drop 32 = a :: b :: c :: d :: low :: high :: more := by
        apply exists_six
        rw [List.length_drop]
        omega
      have hip : frame.body.extract 32 36 = [a, b, c, d] := by
        rw [List.extract_eq_take_drop, hbytes]
        rfl
      have hport : frame.body.extract 36 38 = [low, high] := by
        rw [List.extract_eq_take_drop, ← List.drop_drop (i := 4), hbytes]
        rfl
      have hdecode : decode [low, high] = low.toNat + 256 * high.toNat := by
        simp only [decode]
        omega
      have hrequester : frame.requester =
          some (s!"{d.toNat}.{c.toNat}.{b.toNat}.{a.toNat}", low.toNat + 256 * high.toNat) := by
        rw [RelayFrame.requester, hbytes]
        exact if_pos hopcode
      rw [answer_frame, if_pos hopcode, if_neg hshort, if_neg hlong, hip, hport, ip_to_str_decode, hdecode,
        hrequester, Option.toList_some]
  · have hnone : frame.requester = none := by
      rw [RelayFrame.requester]
      split
      · rw [if_neg hopcode]
      · rfl
    rw [answer_frame, if_neg hopcode, hnone, Option.toList_none]

/-- A frame whose body ends inside the port passes the guard, and the port is not there. -/
theorem answer_of_clipped (hclipped : frame.Clipped) :
    answer_frame (frame.opcode :: frame.body) = .error .StructError := by
  obtain ⟨hopcode, hlength⟩ := hclipped
  rw [answer_frame, if_pos hopcode, if_neg (by omega), if_pos (by omega)]

theorem relay_turns_of_not_clipped (hwhole : ¬ frame.Clipped) (dialed : Except Exc Unit) (turns : List RelayTurn)
    (rest : Bytes) :
    relay_turns (.read dialed :: turns) (frame.wire ++ rest) =
      (frame.requester.toList ++ (relay_turns turns rest).1, (relay_turns turns rest).2) := by
  rw [relay_turns, resume_wire]
  simp only [answer_of_not_clipped hwhole]
  cases dialed with
  | ok _ => rfl
  | error _ => rfl

theorem relay_turns_of_clipped (hclipped : frame.Clipped) (dialed : Except Exc Unit) (turns : List RelayTurn)
    (rest : Bytes) :
    relay_turns (.read dialed :: turns) (frame.wire ++ rest) = ([], .raised .StructError) := by
  rw [relay_turns, resume_wire]
  simp only [answer_of_clipped hclipped]

theorem calm_end_ne_raised (turns : List RelayTurn) (frames : List RelayFrame) (e : Exc) :
    calm_end turns frames ≠ .raised e := by
  fun_induction calm_end turns frames with
  | case1 => exact RelayEnd.noConfusion
  | case2 => exact RelayEnd.noConfusion
  | case3 => exact RelayEnd.noConfusion
  | case4 => exact RelayEnd.noConfusion
  | case5 dialed turns frame frames ih => exact ih

theorem reached_read (dialed : Except Exc Unit) :
    reached (.read dialed :: turns) (frame :: frames) = frame :: reached turns frames := rfl

/-- The loop dials back every full frame that it reaches, and is ended by none of them, exactly where none of them ends
inside the port. -/
theorem relays_iff (turns : List RelayTurn) (channel : RelayChannel) :
    Relays turns channel ↔ ∀ frame ∈ reached turns channel.frames, ¬ frame.Clipped := by
  obtain ⟨frames, broken, sent⟩ := channel
  induction turns generalizing frames with
  | nil => exact ⟨fun _ _ hframe => absurd hframe List.not_mem_nil, fun _ => ⟨rfl, rfl⟩⟩
  | cons turn turns ih =>
    cases turn with
    | stop => exact ⟨fun _ _ hframe => absurd hframe List.not_mem_nil, fun _ => ⟨rfl, rfl⟩⟩
    | timeout => exact ⟨fun _ _ hframe => absurd hframe List.not_mem_nil, fun _ => ⟨rfl, rfl⟩⟩
    | read dialed =>
      cases frames with
      | nil =>
        obtain ⟨count, next, hbroken⟩ := resume_broken ⟨[], broken, sent⟩
        have hclosed : relay_turns (.read dialed :: turns) (broken.wire.take sent) = ([], .disconnected) := by
          rw [relay_turns]
          cases hread : resume read_frame (broken.wire.take sent) with
          | mk reader rest =>
            rw [hread] at hbroken
            cases hbroken
            rfl
        constructor
        · intro _ frame hframe
          exact absurd hframe List.not_mem_nil
        · intro _
          constructor
          · exact congrArg Prod.fst hclosed
          · exact congrArg Prod.snd hclosed
      | cons frame frames =>
        have hstream : (RelayChannel.mk (frame :: frames) broken sent).stream =
            frame.wire ++ (RelayChannel.mk frames broken sent).stream := by
          rw [RelayChannel.stream, List.map_cons, List.flatten_cons, List.append_assoc]
          rfl
        rw [reached_read, List.forall_mem_cons]
        by_cases hclipped : frame.Clipped
        · have hraised := relay_turns_of_clipped hclipped dialed turns
            (RelayChannel.mk frames broken sent).stream
          constructor
          · intro h
            have hended := h.ended
            rw [hstream, hraised] at hended
            exact absurd hended.symm (calm_end_ne_raised _ _ _)
          · intro h
            exact absurd hclipped h.1
        · have hstep := relay_turns_of_not_clipped hclipped dialed turns
            (RelayChannel.mk frames broken sent).stream
          have hdials : (reached (.read dialed :: turns) (frame :: frames)).filterMap RelayFrame.requester =
              frame.requester.toList ++ (reached turns frames).filterMap RelayFrame.requester := by
            rw [reached_read, List.filterMap_cons]
            cases frame.requester with
            | none => rfl
            | some asked => rfl
          rw [and_iff_right hclipped, ← ih frames]
          constructor
          · intro h
            have hdialed := h.dialed
            have hended := h.ended
            rw [hstream, hstep, hdials] at hdialed
            rw [hstream, hstep] at hended
            exact ⟨List.append_cancel_left hdialed, hended⟩
          · intro h
            constructor
            · rw [hstream, hstep, hdials, h.dialed]
            · rw [hstream, hstep]
              exact h.ended

/-- A frame with the port cut to one byte, in front of a full one. -/
def sampleRelay : RelayChannel where
  frames :=
    [⟨0xC5, OP_CALLBACK, 38, List.replicate 37 1, by decide, rfl⟩,
      ⟨0xC5, OP_CALLBACK, 39, List.replicate 38 1, by decide, rfl⟩]
  broken := ⟨0xC5, OP_CALLBACK, 1, [], by decide, rfl⟩
  sent := ⟨0, by decide⟩

/-- The loop raises, and nobody dials the requester of the full frame. -/
theorem sampleRelay_dropped :
    (reached [.read (.ok ()), .read (.ok ())] sampleRelay.frames).filterMap RelayFrame.requester =
        [("1.1.1.1", 257)] ∧
      relay_turns [.read (.ok ()), .read (.ok ())] sampleRelay.stream = ([], .raised .StructError) ∧
      ¬ Relays [.read (.ok ()), .read (.ok ())] sampleRelay := by
  have hraised : relay_turns [.read (.ok ()), .read (.ok ())] sampleRelay.stream = ([], .raised .StructError) := by
    decide +kernel
  refine ⟨by decide +kernel, hraised, ?_⟩
  intro h
  have hended := h.ended
  rw [hraised] at hended
  cases hended

end RelayLoop

end amuled.kad
