import WhirlpoolAc.MqttQueue
import WhirlpoolAc.MqttWire

/-!
# What the server reads

As long as the connection takes what it has room for, the wire carries whole packets and a
part of the head, in the order of the queue. Whatever enters the queue while a connection
lasts comes out once: what is added at the back in the order of its addition, and an
acknowledgement that is inserted, behind the head of its time.

Two things can spoil that, both on the server's side: an acknowledgement that is to be
inserted into an empty queue, and an answer to the connection request that empties the
queue while its head is half sent.
-/

namespace WhirlpoolAc.MqttQueue

open ByteStrings RemainingLength MqttPackets MqttReceiver

/-- The frames at the front of a stream. -/
def frames : Nat → Bytes → List Bytes
  | 0, _ => []
  | fuel + 1, stream =>
      match readFrame stream with
      | some (frame, rest) => frame :: frames fuel rest
      | none => []

/-- Length bytes that all have the mark denote no length. -/
theorem decodeRounds_unfinished (marked : Bytes) (multiplier value : Nat)
    (continues : ∀ byte ∈ marked, Continues byte) :
    decodeRounds marked multiplier value = none := by
  induction marked generalizing multiplier value with
  | nil => rfl
  | cons byte rest ih =>
    obtain ⟨first, others⟩ := List.forall_mem_cons.mp continues
    rw [decodeRounds_marked byte rest multiplier value first, ih _ _ others]

/-- A part of a frame is not read as one. -/
theorem readFrame_part (data part : Bytes) (framed : Framed data) (cut : part <+: data)
    (short : part ≠ data) : readFrame part = none := by
  obtain ⟨first, body, rfl, small⟩ := framed
  cases part with
  | nil => rfl
  | cons byte part =>
    rw [List.cons_append] at cut short
    obtain ⟨rfl, inner⟩ := List.cons_prefix_cons.mp cut
    have different : part ≠ encodeRemainingLength body.length ++ body := fun same =>
      short (by rw [same])
    obtain ⟨front, last, shape, marked, plain, _⟩ := encode_shape body.length small
    obtain ⟨behind, same⟩ := inner
    rcases List.append_eq_append_iff.mp same with ⟨gap, whole, _⟩ | ⟨piece, rfl, inBody⟩
    · rcases eq_or_ne part (encodeRemainingLength body.length) with rfl | shorter
      · have present : body ≠ [] := by
          rintro rfl
          exact different (by rw [List.append_nil])
        have decoded := decode_encode body.length [] (by omega)
        have bytes := lengthBytes_shape front last [] marked plain
        have positive := List.length_pos_iff.mpr present
        rw [← shape] at bytes
        rw [List.append_nil] at decoded
        simp only [readFrame, decoded, bytes, Option.bind_eq_bind, Option.bind_some]
        rw [if_neg (by omega)]
      · have inLength : part <+: front ++ [last] := ⟨gap, whole.symm.trans shape⟩
        rw [List.prefix_concat_iff] at inLength
        rcases inLength with whole | inFront
        · exact absurd (whole.trans shape.symm) shorter
        · have unfinished := decodeRounds_unfinished part 1 0 fun byte member =>
            marked byte (inFront.subset member)
          have none_read : decodeRemainingLength part = none := unfinished
          simp [readFrame, none_read]
    · have decoded := decode_encode body.length piece (by omega)
      have bytes := lengthBytes_shape front last piece marked plain
      have regrouped : front ++ last :: piece = encodeRemainingLength body.length ++ piece := by
        rw [shape]
        simp
      rw [regrouped, ← shape] at bytes
      have less : piece.length < body.length := by
        have more : behind ≠ [] := by
          rintro rfl
          exact different (by rw [inBody, List.append_nil])
        have positive := List.length_pos_iff.mpr more
        rw [inBody, List.length_append]
        omega
      simp only [readFrame, decoded, bytes, Option.bind_eq_bind, Option.bind_some,
        List.length_append]
      rw [if_neg (by omega)]

/-- Whole frames and a part of another one are read as the whole frames. -/
theorem frames_flatten (whole : List Bytes) (part : Bytes) (fuel : Nat)
    (framed : ∀ data ∈ whole, Framed data) (rest : readFrame part = none)
    (enough : whole.length < fuel) : frames fuel (whole.flatten ++ part) = whole := by
  induction whole generalizing fuel with
  | nil =>
    cases fuel with
    | zero => cases enough
    | succ fuel => simp [frames, rest]
  | cons data others ih =>
    cases fuel with
    | zero => cases enough
    | succ fuel =>
      obtain ⟨first, later⟩ := List.forall_mem_cons.mp framed
      have read := readFrame_framed data (others.flatten ++ part) first
      rw [List.flatten_cons, List.append_assoc, frames, read]
      have again := ih fuel later (Nat.lt_of_succ_lt_succ enough)
      exact congrArg (data :: ·) again

/-- What happens to the line on a connection: some packets come to its back and some are
inserted, none gets lost or doubled, and the old ones keep their order. -/
structure Moves (before after : Sender) (behind inserted : List Bytes) : Prop where
  perm : after.lineData.Perm (before.lineData ++ behind ++ inserted)
  order : (before.lineData ++ behind).Sublist after.lineData
  wire : before.wire <+: after.wire
  connected : after.connected = before.connected

/-- A line that stays as it is. -/
theorem Moves.same {before after : Sender} (line : after.lineData = before.lineData)
    (wire : before.wire <+: after.wire) (connected : after.connected = before.connected) :
    Moves before after [] [] := by
  refine ⟨?_, ?_, wire, connected⟩
  · rw [line, List.append_nil, List.append_nil]
  · rw [line, List.append_nil]

/-- Where nothing comes, the line stays as it is. -/
theorem Moves.line {before after : Sender} (moves : Moves before after [] []) :
    after.lineData = before.lineData := by
  have perm := moves.perm
  have order := moves.order
  rw [List.append_nil] at order
  rw [List.append_nil, List.append_nil] at perm
  exact (order.eq_of_length perm.length_eq.symm).symm

/-- Moves compose. -/
theorem Moves.trans {before middle after : Sender} {behind inserted later more : List Bytes}
    (first : Moves before middle behind inserted) (second : Moves middle after later more) :
    Moves before after (behind ++ later) (inserted ++ more) where
  perm := by
    have moved := (first.perm.append_right later).append_right more
    have regrouped : (before.lineData ++ behind ++ inserted ++ later ++ more).Perm
        (before.lineData ++ (behind ++ later) ++ (inserted ++ more)) := by
      have swap : (inserted ++ later).Perm (later ++ inserted) := List.perm_append_comm
      have inner := (swap.append_left (before.lineData ++ behind)).append_right more
      simpa [List.append_assoc] using inner
    exact (second.perm.trans moved).trans regrouped
  order := by
    have grown := (first.order.append_right later).trans second.order
    simpa [List.append_assoc] using grown
  wire := first.wire.trans second.wire
  connected := second.connected.trans first.connected

/-- The first half of a round keeps the wire sound and all else as it was. -/
theorem write_sound (sender : Sender) (head : OutPacket) (rest : List OutPacket)
    (answer : Answer) (sound : Sound sender) (connected : sender.connected = true)
    (packets : sender.packets = head :: rest) (accepted : answer.accepted = true) :
    Sound (sender.write head answer) ∧ (sender.write head answer).connected = true ∧
      (sender.write head answer).packets = head :: rest ∧
      (sender.write head answer).finished = sender.finished ∧
      sender.wire <+: (sender.write head answer).wire := by
  obtain ⟨inside, _, wire⟩ := sound
  rw [packets] at inside
  by_cases more : head.data.length > sender.sent
  · let willSend := min (head.data.length - sender.sent) answer.space
    have bound : willSend ≤ head.data.length - sender.sent := Nat.min_le_left _ _
    have written : sender.write head answer =
        { sender with
          sent := sender.sent + willSend
          wire := sender.wire ++ (head.data.drop sender.sent).take willSend
          closing := sender.closing || packetType head = 14 } := by
      simp [Sender.write, more, accepted, willSend]
    rw [written]
    refine ⟨⟨?_, ?_, fun _ => ?_⟩, connected, packets, rfl, List.prefix_append _ _⟩
    · simp only [packets, List.head?_cons, Option.elim_some]
      omega
    · intro apart
      rw [connected] at apart
      cases apart
    · have grown : ((head :: rest).flatMap OutPacket.data).take (sender.sent + willSend) =
          ((head :: rest).flatMap OutPacket.data).take sender.sent ++
            (head.data.drop sender.sent).take willSend := by
        have room : willSend ≤ (head.data.drop sender.sent).length := by
          rw [List.length_drop]
          exact bound
        rw [List.take_add, List.flatMap_cons, List.drop_append_of_le_length inside,
          List.take_append_of_le_length room]
      simp only [packets]
      rw [grown, wire connected, packets, List.append_assoc]
  · rw [Sender.write, if_neg more]
    exact ⟨⟨packets ▸ inside, fun apart => absurd connected (by simp [apart]), wire⟩, connected,
      packets, rfl, List.prefix_rfl⟩

/-- The loop comes to its end, and the line stays as it is. Induction on the answers. -/
theorem handleRounds_sound (sender : Sender) (answers : List Answer) (sound : Sound sender)
    (connected : sender.connected = true)
    (accepted : ∀ answer ∈ answers, answer.accepted = true) :
    ∃ next, sender.handleRounds answers = some next ∧ Sound next ∧ next.connected = true ∧
      Moves sender next [] [] := by
  induction answers generalizing sender with
  | nil => exact ⟨sender, rfl, sound, connected, .same rfl List.prefix_rfl rfl⟩
  | cons answer answers ih =>
    obtain ⟨first, others⟩ := List.forall_mem_cons.mp accepted
    have still : Moves sender sender [] [] := .same rfl List.prefix_rfl rfl
    cases packets : sender.packets with
    | nil =>
      refine ⟨sender, ?_, sound, connected, still⟩
      rw [Sender.handleRounds, packets]
    | cons head rest =>
      rw [Sender.handleRounds, packets]
      by_cases full : answer.space ≤ 10
      · exact ⟨sender, if_pos full, sound, connected, still⟩
      · obtain ⟨written, open', same, finished, grown⟩ :=
          write_sound sender head rest answer sound connected packets first
        have line : (sender.write head answer).lineData = sender.lineData := by
          rw [Sender.lineData, Sender.line, same, finished, ← packets]
          rfl
        have moved : Moves sender (sender.write head answer) [] [] :=
          .same line grown (open'.trans connected.symm)
        have inside := written.inside
        rw [same, List.head?_cons, Option.elim_some] at inside
        simp only [if_neg full]
        by_cases whole : head.data.length = (sender.write head answer).sent
        · rw [if_pos whole]
          by_cases released : head.released = true
          · rw [if_pos released]
            have wire := written.wire open'
            rw [same, finished, ← whole, List.flatMap_cons, List.take_left] at wire
            let popped : Sender :=
              { sender.write head answer with
                packets := rest, sent := 0
                finished := (sender.write head answer).finished ++ [head] }
            have poppedSound : Sound popped :=
              ⟨Nat.zero_le _, fun _ => rfl, fun _ => by simp [popped, wire, finished]⟩
            have moves : Moves (sender.write head answer) popped [] [] :=
              .same (by simp [popped, Sender.lineData, Sender.line, same]) List.prefix_rfl rfl
            obtain ⟨next, result, nextSound, nextOpen, later⟩ :=
              ih popped poppedSound open' others
            exact ⟨next, result, nextSound, nextOpen, moved.trans (moves.trans later)⟩
          · rw [if_neg released]
            exact ⟨_, rfl, written, open', moved⟩
        · have short : ¬ head.data.length < (sender.write head answer).sent := by omega
          rw [if_neg whole, if_neg short]
          obtain ⟨next, result, nextSound, nextOpen, later⟩ := ih _ written open' others
          exact ⟨next, result, nextSound, nextOpen, moved.trans later⟩

/-- So does the whole routine. -/
theorem handleQueue_sound (sender : Sender) (answers : List Answer) (sound : Sound sender)
    (accepted : ∀ answer ∈ answers, answer.accepted = true) :
    ∃ next, sender.handleQueue answers = some next ∧ Sound next ∧ Moves sender next [] [] := by
  by_cases connected : sender.connected = true
  · obtain ⟨next, result, nextSound, _, moves⟩ :=
      handleRounds_sound sender answers sound connected accepted
    refine ⟨next, ?_, nextSound, moves⟩
    rw [Sender.handleQueue, if_pos connected, result]
  · refine ⟨sender, ?_, sound, .same rfl List.prefix_rfl rfl⟩
    rw [Sender.handleQueue, if_neg connected]

/-- Packets behind the head do not matter for what has been sent, nor do the marks of the
head. -/
theorem Sound.requeue {sender : Sender} (sound : Sound sender) (packets : List OutPacket)
    (kept : ∀ head rest, sender.packets = head :: rest →
      ∃ same later, packets = same :: later ∧ same.data = head.data) :
    Sound { sender with packets } := by
  obtain ⟨inside, apart, wire⟩ := sound
  cases old : sender.packets with
  | nil =>
    rw [old] at inside
    have nothing : sender.sent = 0 := Nat.le_zero.mp inside
    refine ⟨nothing.trans_le (Nat.zero_le _), apart, fun connected => ?_⟩
    have start := wire connected
    simp only [nothing, List.take_zero] at start ⊢
    exact start
  | cons head rest =>
    obtain ⟨same, later, rfl, data⟩ := kept head rest old
    rw [old] at inside
    refine ⟨?_, apart, fun connected => ?_⟩
    · rw [List.head?_cons, Option.elim_some, data]
      exact inside
    · have start := wire connected
      rw [old, List.flatMap_cons, List.take_append_of_le_length inside] at start
      rw [List.flatMap_cons, data, List.take_append_of_le_length inside]
      exact start

/-- A packet at the back. -/
theorem addBack_sound (sender : Sender) (packet : OutPacket) (sound : Sound sender) :
    Sound (sender.addBack packet) ∧ Moves sender (sender.addBack packet) [packet.data] [] := by
  refine ⟨sound.requeue _ fun head rest old => ⟨head, rest ++ [packet], ?_, rfl⟩, ?_⟩
  · rw [old, List.cons_append]
  · have line : (sender.addBack packet).lineData = sender.lineData ++ [packet.data] := by
      simp [Sender.lineData, Sender.line, Sender.addBack]
    refine ⟨?_, ?_, List.prefix_rfl, rfl⟩
    · rw [line, List.append_nil]
    · rw [line]

/-- A packet behind the head. -/
theorem insert_sound (sender : Sender) (packet : OutPacket) (sound : Sound sender)
    (present : sender.packets ≠ []) :
    ∃ next, sender.insert packet = some next ∧ Sound next ∧
      Moves sender next [] [packet.data] := by
  obtain ⟨head, rest, packets⟩ := List.exists_cons_of_ne_nil present
  refine ⟨{ sender with packets := head :: packet :: rest }, ?_, ?_, ?_, ?_, List.prefix_rfl, rfl⟩
  · rw [Sender.insert, packets]
  · refine sound.requeue _ fun old others same => ⟨head, packet :: rest, rfl, ?_⟩
    rw [packets] at same
    rw [(List.cons.inj same).1]
  · have inner : (packet.data :: rest.map OutPacket.data).Perm
        (rest.map OutPacket.data ++ [packet.data]) := (List.perm_append_singleton _ _).symm
    have whole := (inner.cons head.data).append_left (sender.finished.map OutPacket.data)
    simpa [Sender.lineData, Sender.line, packets] using whole
  · simp [Sender.lineData, Sender.line, packets]

/-- A released head is sent like any other. -/
theorem release_sound (sender : Sender) (packetId : Nat) (sound : Sound sender) :
    Sound (sender.release packetId) ∧ Moves sender (sender.release packetId) [] [] ∧
      (sender.packets ≠ [] → (sender.release packetId).packets ≠ []) := by
  have still : Moves sender sender [] [] := .same rfl List.prefix_rfl rfl
  unfold Sender.release
  split
  · next head rest packets =>
    split
    · refine ⟨sound.requeue _ fun old others same =>
        ⟨{ head with released := true }, rest, rfl, ?_⟩, .same ?_ List.prefix_rfl rfl, by simp⟩
      · rw [packets] at same
        rw [← (List.cons.inj same).1]
      · simp [Sender.lineData, Sender.line, packets]
    · exact ⟨sound, still, id⟩
  · exact ⟨sound, still, id⟩

/-- An empty queue is sound where the head was not half sent. -/
theorem clearQueue_sound (sender : Sender) (sound : Sound sender)
    (whole : sender.sent = 0 ∨ ∀ head ∈ sender.packets.head?, head.data.length = sender.sent) :
    Sound (sender.clearQueue false) := by
  refine ⟨Nat.zero_le _, fun _ => rfl, fun connected => ?_⟩
  have wire := sound.wire connected
  have nothing : (sender.clearQueue false).packets = [] := rfl
  rw [nothing, List.flatMap_nil, List.take_nil, List.append_nil]
  show sender.wire = _
  rw [wire]
  cases packets : sender.packets with
  | nil => simp [Sender.clearQueue, packets]
  | cons head rest =>
    rw [packets] at whole
    by_cases complete : head.data.length = sender.sent
    · simp [Sender.clearQueue, packets, ← complete]
    · have untouched : sender.sent = 0 := whole.resolve_right fun every =>
        complete (every head rfl)
      have different : ¬ head.data.length = 0 := fun zero => complete (zero.trans untouched.symm)
      simp [Sender.clearQueue, packets, untouched, different]

/-- What one operation does. -/
theorem step_sound (sender : Sender) (operation : Operation) (answers : List Answer)
    (sound : Sound sender) (regular : sender.Regular operation)
    (accepted : ∀ answer ∈ answers, answer.accepted = true) :
    ∃ next, sender.step answers operation = some next ∧ Sound next ∧
      (operation.Lasts → ∃ inserted, inserted.Sublist operation.inserts ∧
        Moves sender next operation.behind inserted) := by
  have still : Moves sender sender [] [] := .same rfl List.prefix_rfl rfl
  cases operation with
  | connected packet =>
    have fresh : Sound ({ sender with
        connected := true, wire := [], finished := [] }.addFront packet) := by
      have nothing := sound.apart regular
      refine ⟨nothing.trans_le (Nat.zero_le _), fun _ => nothing, fun _ => ?_⟩
      simp [Sender.addFront, nothing]
    obtain ⟨next, result, nextSound, _⟩ := handleQueue_sound _ answers fresh accepted
    exact ⟨next, result, nextSound, False.elim⟩
  | addBack packet =>
    obtain ⟨added, moves⟩ := addBack_sound sender packet sound
    obtain ⟨next, result, nextSound, later⟩ := handleQueue_sound _ answers added accepted
    exact ⟨next, result, nextSound, fun _ => ⟨[], List.nil_sublist _, moves.trans later⟩⟩
  | handle =>
    obtain ⟨next, result, nextSound, later⟩ := handleQueue_sound _ answers sound accepted
    exact ⟨next, result, nextSound, fun _ => ⟨[], List.nil_sublist _, later⟩⟩
  | reaction effect =>
    cases effect with
    | clearQueue keepSessionData =>
      cases keepSessionData with
      | true =>
        refine ⟨_, rfl, ⟨Nat.zero_le _, fun _ => rfl, fun connected => ?_⟩, False.elim⟩
        cases connected
      | false => exact ⟨_, rfl, clearQueue_sound sender sound regular, False.elim⟩
    | addBack ack =>
      obtain ⟨added, moves⟩ := addBack_sound sender (PubAckOutPacket ack) sound
      obtain ⟨next, result, nextSound, later⟩ := handleQueue_sound _ answers added accepted
      exact ⟨next, result, nextSound, fun _ => ⟨[], List.nil_sublist _, moves.trans later⟩⟩
    | release packetId =>
      obtain ⟨released, moves, _⟩ := release_sound sender packetId sound
      exact ⟨_, rfl, released, fun _ => ⟨[], List.nil_sublist _, moves⟩⟩
    | answer ack =>
      cases packets : sender.packets with
      | nil =>
        refine ⟨sender, ?_, sound, fun _ => ⟨[], List.nil_sublist _, still⟩⟩
        simp only [Sender.step, packets]
      | cons head rest =>
        by_cases same : head.packetId = ack.packetId
        · obtain ⟨released, moves, kept⟩ := release_sound sender ack.packetId sound
          obtain ⟨between, insertion, betweenSound, more⟩ := insert_sound
            (sender.release ack.packetId) (PubAckOutPacket ack) released (kept (by simp [packets]))
          obtain ⟨next, result, nextSound, later⟩ :=
            handleQueue_sound between answers betweenSound accepted
          refine ⟨next, ?_, nextSound, fun _ =>
            ⟨_, List.Sublist.refl _, moves.trans (more.trans later)⟩⟩
          simp only [Sender.step, packets, if_pos same, insertion, Option.bind_some, result]
        · refine ⟨sender, ?_, sound, fun _ => ⟨[], List.nil_sublist _, still⟩⟩
          simp only [Sender.step, packets, if_neg same]
    | insert ack =>
      obtain ⟨between, insertion, betweenSound, more⟩ :=
        insert_sound sender (PubAckOutPacket ack) sound regular
      obtain ⟨next, result, nextSound, later⟩ :=
        handleQueue_sound between answers betweenSound accepted
      refine ⟨next, ?_, nextSound, fun _ => ⟨_, List.Sublist.refl _, more.trans later⟩⟩
      simp only [Sender.step, insertion, Option.bind_some, result]
    | handleQueue =>
      obtain ⟨next, result, nextSound, later⟩ := handleQueue_sound _ answers sound accepted
      exact ⟨next, result, nextSound, fun _ => ⟨[], List.nil_sublist _, later⟩⟩
    | _ => exact ⟨sender, rfl, sound, fun _ => ⟨[], List.nil_sublist _, still⟩⟩

/-- Every regular run comes to its end with a sound wire. -/
theorem run_sound (sender : Sender) (operations : List (Operation × List Answer))
    (sound : Sound sender) (regular : sender.RunsRegularly operations) :
    ∃ final, sender.run operations = some final ∧ Sound final ∧
      ((∀ operation ∈ operations, operation.1.Lasts) →
        ∃ inserted, inserted.Sublist (operations.flatMap fun operation => operation.1.inserts) ∧
          Moves sender final (operations.flatMap fun operation => operation.1.behind)
            inserted) := by
  induction operations generalizing sender with
  | nil => exact ⟨sender, rfl, sound, fun _ =>
      ⟨[], List.nil_sublist _, .same rfl List.prefix_rfl rfl⟩⟩
  | cons operation rest ih =>
    obtain ⟨operation, answers⟩ := operation
    obtain ⟨first, accepted, later⟩ := regular
    obtain ⟨next, result, nextSound, moves⟩ :=
      step_sound sender operation answers sound first accepted
    obtain ⟨final, runs, finalSound, more⟩ := ih next nextSound (later next result)
    refine ⟨final, ?_, finalSound, fun lasts => ?_⟩
    · rw [Sender.run, result, Option.bind_some, runs]
    · obtain ⟨here, others⟩ := List.forall_mem_cons.mp lasts
      obtain ⟨inserted, among, moved⟩ := moves here
      obtain ⟨further, amongOthers, movedOn⟩ := more others
      exact ⟨inserted ++ further, among.append amongOthers, moved.trans movedOn⟩

/-- Frames are not empty. -/
theorem length_le_flatten (whole : List Bytes) (framed : ∀ data ∈ whole, Framed data) :
    whole.length ≤ whole.flatten.length := by
  induction whole with
  | nil => exact Nat.le_refl 0
  | cons data others ih =>
    obtain ⟨⟨first, body, rfl, _⟩, later⟩ := List.forall_mem_cons.mp framed
    have rest := ih later
    rw [List.flatten_cons, List.length_append, List.cons_append, List.length_cons,
      List.length_cons]
    omega

/-- What a server reads off a sound wire: the packets that have been sent whole. -/
theorem frames_wire (sender : Sender) (sound : Sound sender)
    (connected : sender.connected = true) (framed : ∀ data ∈ sender.lineData, Framed data) :
    frames (sender.wire.length + 1) sender.wire = sender.sentWhole := by
  have sizes (whole : List Bytes) (part : Bytes) (all : ∀ data ∈ whole, Framed data)
      (bytes : sender.wire = whole.flatten ++ part) :
      whole.length < sender.wire.length + 1 := by
    have least := length_le_flatten whole all
    rw [bytes, List.length_append]
    omega
  have finished : ∀ data ∈ sender.finished.map OutPacket.data, Framed data := fun data member =>
    framed data (by simpa [Sender.lineData, Sender.line] using .inl (List.mem_map.mp member))
  have wire := sound.wire connected
  rw [List.flatMap_def (l := sender.finished)] at wire
  cases packets : sender.packets with
  | nil =>
    rw [packets, List.flatMap_nil, List.take_nil] at wire
    have enough := sizes _ _ finished wire
    have read := frames_flatten _ [] _ finished rfl enough
    rw [← wire] at read
    rw [read, Sender.sentWhole, packets, List.append_nil]
  | cons head rest =>
    have inside := sound.inside
    rw [packets, List.head?_cons, Option.elim_some] at inside
    rw [packets, List.flatMap_cons, List.take_append_of_le_length inside] at wire
    have headFramed : Framed head.data :=
      framed head.data (by simp [Sender.lineData, Sender.line, packets])
    by_cases whole : head.data.length = sender.sent
    · have all : ∀ data ∈ sender.finished.map OutPacket.data ++ [head.data], Framed data :=
        List.forall_mem_append.mpr ⟨finished, List.forall_mem_singleton.mpr headFramed⟩
      rw [← whole, List.take_length] at wire
      have bytes : sender.wire =
          (sender.finished.map OutPacket.data ++ [head.data]).flatten ++ [] := by
        simpa using wire
      have enough := sizes _ _ all bytes
      have read := frames_flatten _ [] _ all rfl enough
      rw [← bytes] at read
      simp only [read, Sender.sentWhole, packets, whole, if_true]
    · have part : readFrame (head.data.take sender.sent) = none :=
        readFrame_part head.data _ headFramed (List.take_prefix _ _) fun same => by
          have size := congrArg List.length same
          rw [List.length_take] at size
          omega
      have enough := sizes _ _ finished wire
      have read := frames_flatten _ _ _ finished part enough
      rw [← wire] at read
      simp only [read, Sender.sentWhole, packets, if_neg whole, List.append_nil]

/-- What has been sent whole is the front of the line. -/
theorem sentWhole_prefix (sender : Sender) : sender.sentWhole <+: sender.lineData := by
  rw [Sender.lineData, Sender.line, List.map_append, Sender.sentWhole]
  apply (List.prefix_append_right_inj _).mpr
  split
  · next head rest packets =>
    rw [packets]
    split
    · exact ⟨rest.map OutPacket.data, rfl⟩
    · exact List.nil_prefix
  · exact List.nil_prefix

/-- For every regular run on a lasting connection, with any answers about its room: the run
comes to its end, the bytes on the wire only grow, and what the server reads off it are
whole packets, a front of a line that holds every packet of the run once, those added at the
back in their order. -/
theorem sent_once_in_order (sender : Sender) (operations : List (Operation × List Answer))
    (sound : Sound sender) (connected : sender.connected = true)
    (regular : sender.RunsRegularly operations)
    (lasts : ∀ operation ∈ operations, operation.1.Lasts)
    (framed : ∀ data ∈ sender.lineData ++
      (operations.flatMap fun operation => operation.1.behind) ++
      (operations.flatMap fun operation => operation.1.inserts), Framed data) :
    ∃ final inserted, sender.run operations = some final ∧ sender.wire <+: final.wire ∧
      frames (final.wire.length + 1) final.wire = final.sentWhole ∧
      final.sentWhole <+: final.lineData ∧
      final.lineData.Perm (sender.lineData ++
        (operations.flatMap fun operation => operation.1.behind) ++ inserted) ∧
      inserted.Sublist (operations.flatMap fun operation => operation.1.inserts) ∧
      (sender.lineData ++ operations.flatMap fun operation => operation.1.behind).Sublist
        final.lineData := by
  obtain ⟨final, result, finalSound, moves⟩ := run_sound sender operations sound regular
  obtain ⟨inserted, among, moved⟩ := moves lasts
  have all : ∀ data ∈ final.lineData, Framed data := by
    intro data member
    apply framed
    rcases List.mem_append.mp (moved.perm.mem_iff.mp member) with old | new
    · exact List.mem_append_left _ old
    · exact List.mem_append_right _ (among.subset new)
  exact ⟨final, inserted, result, moved.wire,
    frames_wire final finalSound (moved.connected.trans connected) all, sentWhole_prefix final,
    moved.perm, among, moved.order⟩

/-- A status message, the answer to a message of the server and a subscription, while the
connection takes the bytes in portions. -/
theorem sent_once_in_order_status :
    let status := PublishOutPacket ⟨[0x74], by decide⟩ 0 true (some [0x32, 0x31]) 0 1
    let subscription := SubscribeOutPacket ⟨[0x74], by decide⟩ 2 2
    let ack : PendingAck := ⟨5, 0x00, 7⟩
    let sender : Sender := ⟨[], 0, true, false, [], []⟩
    ∃ final inserted,
      sender.run [(.addBack status, [⟨11, true⟩]), (.reaction (.addBack ack), []),
        (.addBack subscription, []), (.handle, [⟨20, true⟩, ⟨11, true⟩])] = some final ∧
      frames (final.wire.length + 1) final.wire = final.sentWhole ∧
      final.sentWhole <+: final.lineData ∧ inserted.Sublist [] ∧
      final.lineData.Perm
        ([status.data, (PubAckOutPacket ack).data, subscription.data] ++ inserted) := by
  intro status subscription ack sender
  obtain ⟨final, inserted, result, _, read, whole, line, among, _⟩ :=
    sent_once_in_order sender [(.addBack status, [⟨11, true⟩]), (.reaction (.addBack ack), []),
      (.addBack subscription, []), (.handle, [⟨20, true⟩, ⟨11, true⟩])]
      ⟨by decide, by decide, by decide⟩ rfl
      (by simp [Sender.RunsRegularly, Sender.Regular]) (by simp [Operation.Lasts])
      (by
        have message : Framed status.data := framed_publish _ _ _ _ _ _ (by decide) (by decide)
        have answer : Framed (PubAckOutPacket ack).data := framed_ack ack
        have order : Framed subscription.data := framed_subscribe _ _ _
        simp [sender, Sender.lineData, Sender.line, Operation.behind, Operation.inserts, message,
          answer, order])
  exact ⟨final, inserted, result, read, whole, among, line⟩

/-- Enough rounds with room send everything in front of the first packet that waits for an
acknowledgement, and that one too. Induction on the answers; each takes a byte or a packet
off what is still to be sent. -/
theorem handleRounds_finishes (sender : Sender) (answers : List Answer) (sound : Sound sender)
    (connected : sender.connected = true)
    (roomy : ∀ answer ∈ answers, answer.accepted = true ∧ 10 < answer.space)
    (enough : (sender.packets.map fun packet => packet.data.length + 1).sum ≤
      answers.length + sender.sent) :
    ∃ next, sender.handleRounds answers = some next ∧
      next.packets = sender.packets.dropWhile (·.released) ∧
      ∀ head ∈ next.packets.head?, head.data.length = next.sent := by
  induction answers generalizing sender with
  | nil =>
    cases packets : sender.packets with
    | nil => exact ⟨sender, rfl, packets, by simp [packets]⟩
    | cons head rest =>
      have inside := sound.inside
      rw [packets, List.head?_cons, Option.elim_some] at inside
      rw [packets, List.map_cons, List.sum_cons, List.length_nil] at enough
      omega
  | cons answer answers ih =>
    obtain ⟨⟨accepted, room⟩, others⟩ := List.forall_mem_cons.mp roomy
    cases packets : sender.packets with
    | nil =>
      refine ⟨sender, ?_, packets, by simp [packets]⟩
      rw [Sender.handleRounds, packets]
    | cons head rest =>
      rw [Sender.handleRounds, packets]
      simp only [if_neg (Nat.not_le_of_lt room)]
      obtain ⟨written, open', same, finished, _⟩ :=
        write_sound sender head rest answer sound connected packets accepted
      have inside := written.inside
      rw [same, List.head?_cons, Option.elim_some] at inside
      rw [packets, List.map_cons, List.sum_cons, List.length_cons] at enough
      by_cases whole : head.data.length = (sender.write head answer).sent
      · rw [if_pos whole]
        by_cases released : head.released = true
        · rw [if_pos released]
          have wire := written.wire open'
          rw [same, finished, ← whole, List.flatMap_cons, List.take_left] at wire
          have old := sound.inside
          rw [packets, List.head?_cons, Option.elim_some] at old
          obtain ⟨next, result, left, complete⟩ :=
            ih { sender.write head answer with
              packets := rest, sent := 0
              finished := (sender.write head answer).finished ++ [head] }
              ⟨Nat.zero_le _, fun _ => rfl, fun _ => by simp [wire, finished]⟩ open' others (by
                show (rest.map fun packet => packet.data.length + 1).sum ≤ answers.length + 0
                omega)
          refine ⟨next, result, ?_, complete⟩
          rw [left, List.dropWhile_cons_of_pos released]
        · rw [if_neg released]
          refine ⟨_, rfl, ?_, ?_⟩
          · rw [same, List.dropWhile_cons_of_neg released]
          · intro first found
            rw [same, List.head?_cons, Option.mem_some_iff] at found
            rw [← found]
            exact whole
      · have short : ¬ head.data.length < (sender.write head answer).sent := by omega
        have progress : sender.sent < (sender.write head answer).sent := by
          have old := sound.inside
          rw [packets, List.head?_cons, Option.elim_some] at old
          unfold Sender.write at whole inside ⊢
          split at whole
          · next more =>
            rw [if_pos more] at inside ⊢
            dsimp only at inside whole ⊢
            omega
          · omega
        rw [if_neg whole, if_neg short]
        obtain ⟨next, result, left, complete⟩ := ih _ written open' others (by
          rw [same, List.map_cons, List.sum_cons]
          omega)
        refine ⟨next, result, ?_, complete⟩
        rw [left, same]

/-- For every sound queue on a connection that has room often enough: the loop ends with
exactly the packets behind the last released one at the front, the first of which has been
sent whole, so nothing is held back but by an acknowledgement. -/
theorem handleQueue_finishes (sender : Sender) (answers : List Answer) (sound : Sound sender)
    (connected : sender.connected = true)
    (roomy : ∀ answer ∈ answers, answer.accepted = true ∧ 10 < answer.space)
    (enough : (sender.packets.map fun packet => packet.data.length + 1).sum ≤ answers.length) :
    ∃ next, sender.handleQueue answers = some next ∧
      next.packets = sender.packets.dropWhile (·.released) ∧ next.lineData = sender.lineData ∧
      next.wire = next.finished.flatMap OutPacket.data ++
        (next.packets.head?.elim [] fun head => head.data) := by
  have accepted : ∀ answer ∈ answers, answer.accepted = true := fun answer member =>
    (roomy answer member).1
  obtain ⟨next, result, left, complete⟩ :=
    handleRounds_finishes sender answers sound connected roomy (by omega)
  obtain ⟨other, again, otherSound, otherOpen, moves⟩ :=
    handleRounds_sound sender answers sound connected accepted
  cases result.symm.trans again
  refine ⟨next, ?_, left, ?_, ?_⟩
  · rw [Sender.handleQueue, if_pos connected, result]
  · exact moves.line
  · rw [otherSound.wire otherOpen]
    cases packets : next.packets with
    | nil => simp
    | cons head rest =>
      have whole := complete head (by rw [packets]; rfl)
      rw [← whole, List.flatMap_cons, List.take_left]
      rfl

/-- A subscription that waits for its answer, in front of a status message. -/
theorem handleQueue_finishes_subscription :
    let topic : CString := ⟨[0x74], by decide⟩
    let packets := [PingReqOutPacket, SubscribeOutPacket topic 2 1,
      PublishOutPacket topic 0 true (some [0x32, 0x31]) 0 1]
    ∃ next, (⟨packets, 0, true, false, [], []⟩ : Sender).handleQueue
        (List.replicate 20 ⟨11, true⟩) = some next ∧ next.packets = packets.drop 1 := by
  intro topic packets
  obtain ⟨next, result, left, _⟩ := handleQueue_finishes ⟨packets, 0, true, false, [], []⟩
    (List.replicate 20 ⟨11, true⟩) ⟨by decide, by decide, by decide⟩ rfl (by decide) (by decide)
  exact ⟨next, result, left⟩

/-- The number of the first byte of an encoded length, up to its lowest three bits. -/
theorem encodeRemainingLength_low (length : Nat) :
    (((encodeRemainingLength length).getD 0 0).toNat &&& 0x06) >>> 1 = length % 8 / 2 := by
  have bits : ∀ value < 256, (value &&& 0x06) >>> 1 = value % 8 / 2 := by decide +kernel
  by_cases digit : length < 128
  · have value : ((encodeRemainingLength length).getD 0 0).toNat = length := by
      rw [encodeRemainingLength, encodeRounds_digit 4 length digit]
      exact plain_digit length digit
    rw [value, bits length (by omega)]
  · have value : ((encodeRemainingLength length).getD 0 0).toNat = length % 128 + 128 := by
      rw [encodeRemainingLength, encodeRounds_marked 4 length (by omega)]
      exact (marked_byte length).1
    rw [value, bits (length % 128 + 128) (by omega)]
    omega

/-- What the queue takes for the quality of service of a message comes from its length. -/
theorem message_level (topic : CString) (level : Nat) (retain : Bool) (text : Bytes)
    (length nextPacketId : Nat) (inside : length ≤ text.length)
    (small : text.length + 2 ^ 16 + 4 ≤ 2 ^ 28) :
    let packet := PublishOutPacket topic level retain (some text) length nextPacketId
    packetType packet = 3 ∧
      qos packet =
        (publishBody topic level nextPacketId (payloadBytes text length)).length % 8 / 2 := by
  intro packet
  obtain ⟨data, _⟩ := publish_data topic level retain text length nextPacketId inside small
  change packet.data = _ at data
  generalize (publishBody topic level nextPacketId (payloadBytes text length)) = body at data ⊢
  have type : packetType packet = 3 := by
    rw [packetType, data, fixedHeader, List.cons_append, List.headD_cons]
    obtain flag | flag | flag :
        qosFlag level = 0x02 ∨ qosFlag level = 0x04 ∨ qosFlag level = 0x00 := by
      unfold qosFlag
      split <;> simp
    all_goals
      rw [flag]
      cases retain <;> decide
  have second : packet.data.getD 1 0 = (encodeRemainingLength body.length).getD 0 0 := by
    obtain ⟨first, rest, shape⟩ : ∃ first rest, encodeRemainingLength body.length =
        first :: rest := by
      apply List.exists_cons_of_ne_nil
      unfold encodeRemainingLength encodeRounds
      dsimp only
      split <;> simp
    rw [data, fixedHeader, shape]
    rfl
  exact ⟨type, by rw [qos, if_pos type, second, encodeRemainingLength_low]⟩

/-- The packet of a message. -/
def outgoing (message : Publication) : OutPacket :=
  PublishOutPacket message.topic message.qos message.retain (some message.payload)
    message.payload.length message.packetId

/-- The bytes behind the length of a message. -/
def outgoingBody (message : Publication) : Bytes :=
  publishBody message.topic message.qos message.packetId
    (payloadBytes message.payload message.payload.length)

/-- A message that is marked as sent before is a frame. -/
theorem framed_setDup (packet : OutPacket) (framed : Framed packet.data) :
    Framed packet.setDup.data := by
  obtain ⟨first, body, data, small⟩ := framed
  refine ⟨first ||| 0x08, body, ?_, small⟩
  rw [OutPacket.setDup, data]
  rfl

/-- Whatever happened before, a connection that follows a broken one begins with its request
and goes on with the messages that survived: those whose length behind the header has a
remainder of at least two by eight, in their order, and marked as sent before if they are
not larger than what had been sent of the old head. The server reads a front of that. If it
answers that it has no session, what is left of the queue is dropped and not written. -/
theorem messages_survive_by_length (sender : Sender) (messages : List Publication)
    (packets : sender.packets = messages.map outgoing)
    (small : ∀ message ∈ messages, message.payload.length + 2 ^ 16 + 4 ≤ 2 ^ 28)
    (request : OutPacket) (framed : Framed request.data) (answers : List Answer)
    (accepted : ∀ answer ∈ answers, answer.accepted = true) :
    ∃ final, sender.run [(.reaction (.clearQueue true), []), (.connected request, answers)] =
        some final ∧
      final.lineData = request.data ::
        (messages.filter fun message => 2 ≤ (outgoingBody message).length % 8).map (fun message =>
          if (outgoing message).data.length ≤ sender.sent then (outgoing message).setDup.data
          else (outgoing message).data) ∧
      frames (final.wire.length + 1) final.wire = final.sentWhole ∧
      final.sentWhole <+: final.lineData ∧
      ∃ cleared, final.step [] (.reaction (.clearQueue false)) = some cleared ∧
        cleared.packets = [] ∧ cleared.wire = final.wire := by
  let apart : Sender := { sender.clearQueue true with connected := false }
  let fresh : Sender := { apart with
    connected := true, wire := [], finished := [] }.addFront request
  have freshSound : Sound fresh := by
    refine ⟨Nat.zero_le _, fun _ => rfl, fun _ => ?_⟩
    simp [fresh, apart, Sender.addFront, Sender.clearQueue]
  obtain ⟨final, result, finalSound, finalOpen, moves⟩ :=
    handleRounds_sound fresh answers freshSound rfl accepted
  have same : final.lineData = fresh.lineData := moves.line
  have levels : ∀ message ∈ messages, packetType (outgoing message) = 3 ∧
      qos (outgoing message) = (outgoingBody message).length % 8 / 2 := fun message member =>
    message_level message.topic message.qos message.retain message.payload
      message.payload.length message.packetId (Nat.le_refl _) (small message member)
  have each : ∀ message ∈ messages, survives (outgoing message) =
      decide (2 ≤ (outgoingBody message).length % 8) := by
    intro message member
    obtain ⟨type, level⟩ := levels message member
    simp only [survives, type, level, decide_eq_decide]
    omega
  have survivors : (messages.map outgoing).filter survives =
      (messages.filter fun message => 2 ≤ (outgoingBody message).length % 8).map outgoing := by
    rw [List.filter_map]
    exact congrArg (List.map outgoing) (List.filter_congr each)
  have line : fresh.lineData = request.data ::
      (messages.filter fun message => 2 ≤ (outgoingBody message).length % 8).map (fun message =>
        if (outgoing message).data.length ≤ sender.sent then (outgoing message).setDup.data
        else (outgoing message).data) := by
    have kept : fresh.lineData = request.data ::
        (((sender.packets.filter survives).map fun packet =>
          if 0 < qos packet ∧ packet.data.length ≤ sender.sent then packet.setDup else packet).map
            OutPacket.data) := rfl
    rw [kept, packets, survivors, List.map_map, List.map_map]
    congr 1
    apply List.map_congr_left
    intro message member
    obtain ⟨among, long⟩ := List.mem_filter.mp member
    have level : 0 < qos (outgoing message) := by
      have long := of_decide_eq_true long
      rw [(levels message among).2]
      omega
    by_cases fits : (outgoing message).data.length ≤ sender.sent
    · simp [level, fits]
    · simp [fits]
  have all : ∀ data ∈ final.lineData, Framed data := by
    intro data member
    rw [same, line] at member
    rcases List.mem_cons.mp member with rfl | old
    · exact framed
    · obtain ⟨message, kept, rfl⟩ := List.mem_map.mp old
      have whole : Framed (outgoing message).data :=
        framed_publish _ _ _ _ _ _ (Nat.le_refl _) (small message (List.mem_filter.mp kept).1)
      split
      · exact framed_setDup _ whole
      · exact whole
  refine ⟨final, ?_, same.trans line, frames_wire final finalSound finalOpen all,
    sentWhole_prefix final, _, rfl, rfl, rfl⟩
  show (fresh.handleRounds answers).bind _ = _
  rw [result]
  rfl

/-- Two status messages, of which the second is lost with the connection. -/
theorem messages_survive_by_length_lost :
    let topic : CString := ⟨[0x74], by decide⟩
    let messages : List Publication :=
      [⟨topic, 0, false, true, 1, lit "21"⟩, ⟨topic, 0, false, true, 1, lit "Sense"⟩]
    let request := ConnectOutPacket true none none 15 topic
    ∃ final, (⟨messages.map outgoing, 7, true, false, [], []⟩ : Sender).run
        [(.reaction (.clearQueue true), []), (.connected request, [⟨40, true⟩])] = some final ∧
      final.lineData = [request.data, [0x39, 5, 0, 1, 0x74, 0x32, 0x31]] := by
  intro topic messages request
  obtain ⟨final, result, line, _⟩ := messages_survive_by_length
    ⟨messages.map outgoing, 7, true, false, [], []⟩ messages rfl (by decide) request
    (framed_connect _ _ _ _ _) [⟨40, true⟩] (by decide)
  exact ⟨final, result, line.trans (congrArg (request.data :: ·) (by decide))⟩

end WhirlpoolAc.MqttQueue
