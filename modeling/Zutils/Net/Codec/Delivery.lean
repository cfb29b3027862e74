import Zutils.Net.Codec.PacketFrames
import Zutils.Net.Codec.PacketStream
import Zutils.Net.Senders

/-!
# Packets from one end of a connection to the other

`SendPacket` hands the bytes of a packet to `SendData`, from any thread; the handler passes them to the kernel at once,
or by `write_buf_` and `OnWrite`, or by a task that waits in the loop. At the other end the handler reads whatever
pieces of the stream have arrived, and the codec makes packets of them again.

The packets delivered are the first ones of an order of the packets sent that keeps the order of each thread, and the
frames of the others are, without a gap, what is in the receive buffer, on the wire, in `write_buf_` and in the queue of
the loop (`packets_in_order`). Since a call of the codec delivers at most one packet, a packet that has arrived may
still be waiting; it is not when no packet is sent before the last one has been delivered (`stop_and_wait`).
-/

namespace Zutils.Net

open Zutils.Lib

/-! ### Packets that are sent -/

/-- A packet as its sender makes it: the constructor, and the body copied in. The receiver accepts no larger body. -/
def Packet.Made (p : Packet) : Prop :=
  ∃ (mem : Mem) (cmdType : UInt16) (body : List UInt8) (p₀ : Packet), body.length ≤ 2 * 1024 * 1024 ∧
    Packet.new mem cmdType (UInt32.ofNat body.length) = .ok p₀ ∧ p₀.copyBody body = .ok p

/-- The bytes at `GetRawdataConstBuffer()`. -/
def TeamTalkPacket.getRawdata (p : TeamTalkPacket) : List UInt8 := p.data.take p.getRawdataLength.toNat

/-- As above; here the limit includes the header. -/
def TeamTalkPacket.Made (p : TeamTalkPacket) : Prop :=
  ∃ (mem : Mem) (messageType : UInt32) (reserved : UInt16) (body : List UInt8) (p₀ : TeamTalkPacket),
    body.length + 12 ≤ 64 * 1024 * 1024 ∧
    TeamTalkPacket.new mem messageType reserved (UInt32.ofNat body.length) = .ok p₀ ∧ p₀.copyBody body = .ok p

section Frames

lemma ofNat_length {body : List UInt8} (h : body.length < 2 ^ 32) :
    (UInt32.ofNat body.length).toNat = body.length := by
  simpa using h

lemma field_take {frame : List UInt8} {size off n : ℕ} (hsize : size ≤ frame.length) (h : off + n ≤ size) :
    field (frame.take size) off n = field frame off n := by
  conv_rhs => rw [← List.take_append_drop size frame]
  rw [field_append (by rw [List.length_take]; omega)]

/-- A ZNet packet whose body is as long as its header says, and not too long, is a frame. -/
lemma Packet.isFrame {p : Packet} (hlen : p.data.length = 8 + p.getBodyLength.toNat)
    (hmax : p.getBodyLength.toNat ≤ 2 * 1024 * 1024) : znetFraming.IsFrame p.getRawdata p.content := by
  have hfield : field p.data 4 4 = p.getBodyLength.toNat := (get32_eq_field (by omega)).symm
  have htype : field p.data 2 2 = p.getCmdType.toNat := (get16_eq_field (by omega)).symm
  have hraw : p.getRawdata = p.data := by
    rw [Packet.getRawdata, Packet.getRawdataLength, UInt32.toNat_add, show kPacketHeaderSize.toNat = 8 from rfl,
      Nat.mod_eq_of_lt (by omega)]
    exact List.take_of_length_le (by omega)
  have hcontent : znetContent p.data = p.content := by
    rw [znetContent, hfield, htype, Packet.content, Packet.getBodyData,
      List.take_of_length_le (by rw [List.length_drop, hlen]; exact Nat.le_of_eq (Nat.add_sub_cancel_left 8 _))]
    rfl
  rw [Framing.IsFrame, hraw]
  refine Framing.headerFront_eq_frame.2 ⟨p.getBodyLength.toNat, ?_, hlen, le_rfl, ?_⟩
  · rw [znetBodyLength, field_take (by omega) (by omega), hfield, if_pos hmax]
  · rw [List.take_of_length_le le_rfl, hcontent]

lemma Packet.Made.frame {p : Packet} (h : p.Made) : znetFraming.IsFrame p.getRawdata p.content := by
  obtain ⟨mem, cmdType, body, p₀, hlen, hnew, hcopy⟩ := h
  have hto := @ofNat_length body (by omega)
  rw [Packet.new_eq mem cmdType (by omega)] at hnew
  obtain rfl := Except.ok.inj hnew
  rw [Packet.copyBody_eq (by simp [hto])] at hcopy
  obtain rfl := Except.ok.inj hcopy
  apply Packet.isFrame
  · rw [Packet.getBodyLength_eq, hto, List.length_append, Packet.header_length]
  · rw [Packet.getBodyLength_eq, hto]
    exact hlen

/-- A TeamTalk packet of the version 1 that is as long as its header says, and not too long, is a frame. -/
lemma TeamTalkPacket.isFrame {p : TeamTalkPacket} (hlen : p.data.length = p.getRawdataLength.toNat)
    (hmin : 12 ≤ p.getRawdataLength.toNat) (hmax : p.getRawdataLength.toNat ≤ 64 * 1024 * 1024)
    (hversion : p.getVersion = kPacketVersion) : teamTalkFraming.IsFrame p.getRawdata p.content := by
  have hfield : field p.data 0 4 = p.getRawdataLength.toNat := (get32_eq_field (by omega)).symm
  have htype : field p.data 4 4 = p.getMessageType.toNat := (get32_eq_field (by omega)).symm
  have hreserved : field p.data 10 2 = p.getReserved.toNat := (get16_eq_field (by omega)).symm
  have hone : field p.data 8 2 = 1 := by
    rw [← get16_eq_field (by omega)]
    exact congrArg UInt16.toNat hversion
  have hbodyLength : p.getBodyLength.toNat = p.getRawdataLength.toNat - 12 := by
    rw [TeamTalkPacket.getBodyLength, UInt32.toNat_sub_of_le]
    · rfl
    · exact UInt32.le_iff_toNat_le.2 hmin
  have hraw : p.getRawdata = p.data := List.take_of_length_le hlen.le
  have hcontent : teamTalkContent p.data = p.content := by
    rw [teamTalkContent, hfield, htype, hreserved, TeamTalkPacket.content, hbodyLength, TeamTalkPacket.getBodyData,
      List.take_of_length_le (by rw [List.length_drop, hbodyLength, hlen]; exact le_rfl)]
    rfl
  rw [Framing.IsFrame, hraw]
  refine Framing.headerFront_eq_frame.2 ⟨p.getRawdataLength.toNat - 12, ?_, by omega, le_rfl, ?_⟩
  · rw [teamTalkBodyLength, field_take (by omega) (by omega), field_take (by omega) (by omega), hone, hfield,
      if_pos ⟨rfl, hmin, hmax⟩]
  · rw [List.take_of_length_le le_rfl, hcontent]

lemma TeamTalkPacket.Made.frame {p : TeamTalkPacket} (h : p.Made) :
    teamTalkFraming.IsFrame p.getRawdata p.content := by
  obtain ⟨mem, messageType, reserved, body, p₀, hlen, hnew, hcopy⟩ := h
  have hto := @ofNat_length body (by omega)
  rw [TeamTalkPacket.new_eq mem messageType reserved (by omega)] at hnew
  obtain rfl := Except.ok.inj hnew
  rw [TeamTalkPacket.copyBody_eq (by simp [hto])] at hcopy
  obtain rfl := Except.ok.inj hcopy
  have hsum : (UInt32.ofNat body.length + kPacketHeaderSize).toNat = body.length + 12 := by
    rw [UInt32.toNat_add, hto, show kPacketHeaderSize.toNat = 12 from rfl, Nat.mod_eq_of_lt (by omega)]
  apply TeamTalkPacket.isFrame
  · rw [TeamTalkPacket.getRawdataLength_eq, hsum, List.length_append, Nat.add_comm]
    rfl
  · rw [TeamTalkPacket.getRawdataLength_eq, hsum]
    omega
  · rw [TeamTalkPacket.getRawdataLength_eq, hsum]
    exact hlen
  · exact TeamTalkPacket.getVersion_eq _ _ _ _

end Frames

/-! ### A connection with both its ends -/

/-- What `SendPacket` and its receiver need of a kind of packets. -/
structure PacketPeer (H P : Type) where
  codec : PacketCodec H P
  /-- The bytes at `GetRawdataConstBuffer()`, as many as `GetRawdataLength()` says. -/
  getRawdata : P → List UInt8
  Made : P → Prop

def znetPeer : PacketPeer UInt16 Packet := ⟨znetCodec, Packet.getRawdata, Packet.Made⟩

def teamTalkPeer : PacketPeer (UInt32 × UInt16) TeamTalkPacket :=
  ⟨teamTalkCodec, TeamTalkPacket.getRawdata, TeamTalkPacket.Made⟩

/-- A connection: the threads and the handler at one end, the handler and the codec at the other. -/
structure Link (τ P : Type) where
  senders : Senders τ
  /-- The packets `SendPacket` was called with, in call order. -/
  packets : List (τ × P)
  /-- How many bytes the receiver has read. -/
  received : ℕ
  receiver : PacketCodec.State P

namespace Link

variable {τ H P : Type}

def new (τ P : Type) (socket : ℤ) : Link τ P := ⟨Senders.new τ socket, [], 0, ⟨0, [], .new 64⟩⟩

/-- What the kernel has accepted and the receiver has not read. -/
def inFlight (l : Link τ P) : List UInt8 := l.senders.kernel.drop l.received

/-- What lies between the codec and the senders, in the order of the stream. -/
def pending (l : Link τ P) : List UInt8 :=
  l.inFlight ++ l.senders.handler.writeBuf.readable ++ payload l.senders.tasks

end Link

/-- An event, with the answer of the `send` it makes if it makes one. -/
inductive LinkEvent (τ P : Type) where
  | sendPacket (t : τ) (p : P) (r : SendResult)
  | runTask (r : SendResult)
  | onWrite (r : SendResult)
  /-- `ReadFd` takes `n` of the bytes that are on the wire. -/
  | read (n : ℕ)

section Steps

variable {τ H P : Type} [DecidableEq τ] (peer : PacketPeer H P) (delegate : List P → ℤ) (loop : τ)

/-- An event of the connection. The result of the `send` in `OnWrite` is an `int`. -/
def Linked (l : Link τ P) (e : LinkEvent τ P) (l' : Link τ P) : Prop :=
  match e with
  | .sendPacket t p r => peer.Made p ∧ ∃ s, Sends loop l.senders (.sendData t (peer.getRawdata p) r) s ∧
      l' = { l with senders := s, packets := l.packets ++ [(t, p)] }
  | .runTask r => ∃ s, Sends loop l.senders (.runTask r) s ∧ l' = { l with senders := s }
  | .onWrite r => r.ret < 2 ^ 31 ∧ ∃ s, Sends loop l.senders (.onWrite r) s ∧ l' = { l with senders := s }
  | .read n => 0 < n ∧ n ≤ l.inFlight.length ∧
      ∃ s, peer.codec.Reads delegate l.receiver (l.inFlight.take n) s ∧
        l' = { l with received := l.received + n, receiver := s }

/-- No packet is sent before the last one has been delivered. -/
def StopsAndWaits (l : Link τ P) (e : LinkEvent τ P) (l' : Link τ P) : Prop :=
  Linked peer delegate loop l e l' ∧
    ∀ t p r, e = .sendPacket t p r → l.packets.length = l.receiver.seen.length

end Steps

/-- The packets delivered are the first ones of an order of the packets sent, which keeps the order of each thread, and
the bytes that have not become packets yet are the frames of the others. -/
def Link.InOrder {τ P : Type} [DecidableEq τ] (F : Framing UInt8 Content) (content : P → Content) (l : Link τ P) : Prop :=
  ∃ (order : List (τ × Content)) (frames : List (List UInt8)),
    order.Perm (l.packets.map fun m => (m.1, content m.2)) ∧
    (∀ t, order.filter (·.1 = t) = (l.packets.map fun m => (m.1, content m.2)).filter (·.1 = t)) ∧
    List.Forall₂ F.IsFrame frames (order.map (·.2)) ∧
    l.receiver.seen.map content = (order.map (·.2)).take l.receiver.seen.length ∧
    l.receiver.data.readable ++ l.pending = (frames.drop l.receiver.seen.length).flatten

/-! ### What holds of a connection -/

section Invariant

variable {τ H P : Type} [DecidableEq τ] {peer : PacketPeer H P} {delegate : List P → ℤ} {loop : τ}
  {size : ℕ} {bodyLength : List UInt8 → Option ℕ} {wire : List UInt8 → Content} {content : P → Content}
  {l l' : Link τ P}

/-- What holds of a connection whose frames are those of `F`. -/
structure Delivering (peer : PacketPeer H P) (delegate : List P → ℤ) (loop : τ) (F : Framing UInt8 Content)
    (content : P → Content) (l : Link τ P) : Prop where
  whole : Whole loop l.senders
  calls_eq : l.senders.calls = l.packets.map fun m => (m.1, peer.getRawdata m.2)
  made : ∀ m ∈ l.packets, peer.Made m.2
  received_le : l.received ≤ l.senders.kernel.length
  ok : l.receiver.data.Ok
  /-- The receiver has made packets of what it has read. -/
  reads : F.Reads (l.senders.kernel.take l.received) (l.receiver.seen.map content) l.receiver.data.readable
  /-- The codec itself refuses nothing. -/
  ret_eq : l.receiver.ret = 0 ∨ l.receiver.ret = delegate l.receiver.seen

omit [DecidableEq τ] in
lemma send_adds {m : Message τ} {r : SendResult} {s s' : Senders τ} (h : Senders.send m r s = .ok s') :
    ∃ out, s'.kernel = s.kernel ++ out ∧ s'.calls = s.calls ∧ s'.done = s.done ++ [m] ∧ s'.tasks = s.tasks := by
  obtain ⟨⟨h', out⟩, -, h⟩ := bind_eq_ok.1 h
  obtain rfl := Except.ok.inj h
  exact ⟨out, rfl, rfl, rfl, rfl⟩

/-- The call of `SendData` that an event is. -/
def SenderEvent.calls : SenderEvent τ → List (Message τ)
  | sendData t data _ => [(t, data)]
  | runTask _ | onWrite _ => []

/-- An event of the senders adds to what the kernel has accepted, and to the calls; the messages are in call order if
a call meets an empty queue. -/
lemma Sends.adds {s s' : Senders τ} {e : SenderEvent τ} (h : Sends loop s e s') :
    ∃ out, s'.kernel = s.kernel ++ out ∧ s'.calls = s.calls ++ e.calls ∧
      (s.tasks = [] ∨ e.calls = [] → s'.done ++ s'.tasks = s.done ++ s.tasks ++ e.calls) := by
  obtain ⟨-, he⟩ := h
  cases e with
  | sendData t data r =>
    rw [SenderEvent.exec] at he
    by_cases ht : t = loop
    · rw [if_pos ht] at he
      obtain ⟨out, hk, hc, hd, htasks⟩ := send_adds he
      refine ⟨out, hk, hc, fun hnil => ?_⟩
      have hnil : s.tasks = [] := hnil.resolve_right (List.cons_ne_nil _ _)
      rw [hd, htasks, hnil, List.append_nil, List.append_nil]
      rfl
    · rw [if_neg ht] at he
      obtain rfl := Except.ok.inj he
      exact ⟨[], (List.append_nil _).symm, rfl, fun _ => (List.append_assoc _ _ _).symm⟩
  | runTask r =>
    rcases htasks : s.tasks with _ | ⟨m, tasks⟩
    · simp only [SenderEvent.exec, htasks] at he
      obtain rfl := Except.ok.inj he
      exact ⟨[], (List.append_nil _).symm, (List.append_nil _).symm, fun _ => by simp [SenderEvent.calls, htasks]⟩
    · simp only [SenderEvent.exec, htasks] at he
      obtain ⟨out, hk, hc, hd, htasks'⟩ := send_adds he
      refine ⟨out, hk, hc.trans (List.append_nil _).symm, fun _ => ?_⟩
      rw [hd, htasks']
      simp [SenderEvent.calls]
  | onWrite r =>
    obtain ⟨⟨h', out⟩, -, h⟩ := bind_eq_ok.1 he
    obtain rfl := Except.ok.inj h
    exact ⟨out, rfl, (List.append_nil _).symm, fun _ => (List.append_nil _).symm⟩

/-- **An event of the senders** leaves the other end alone. -/
lemma Delivering.sends {F : Framing UInt8 Content} (h : Delivering peer delegate loop F content l) {s : Senders τ}
    {e : SenderEvent τ} (ps : List (τ × P)) (hs : Sends loop l.senders e s) (hfit : e.Fits l.senders)
    (hcalls : e.calls = ps.map fun m => (m.1, peer.getRawdata m.2)) (hmade : ∀ m ∈ ps, peer.Made m.2) :
    Delivering peer delegate loop F content { l with senders := s, packets := l.packets ++ ps } := by
  obtain ⟨s', he, hw⟩ := h.whole.step hs.1 hfit
  obtain rfl := Except.ok.inj (hs.2.symm.trans he)
  obtain ⟨out, hk, hc, -⟩ := hs.adds
  refine ⟨hw, ?_, ?_, ?_, h.ok, ?_, h.ret_eq⟩
  · show s.calls = _
    rw [hc, h.calls_eq, hcalls, List.map_append]
  · intro m hm
    rcases List.mem_append.1 hm with hm | hm
    · exact h.made m hm
    · exact hmade m hm
  · show l.received ≤ s.kernel.length
    rw [hk, List.length_append]
    exact Nat.le_trans h.received_le (Nat.le_add_right _ _)
  · show F.Reads (s.kernel.take l.received) _ _
    rw [hk, List.take_append_of_le_length h.received_le]
    exact h.reads

section Frames

variable (hpos : 0 < size) (L : peer.codec.Lawful size bodyLength wire content)
  (hframe : ∀ p, peer.Made p → (Framing.ofHeader size hpos bodyLength wire).IsFrame (peer.getRawdata p) (content p))

lemma front_nil_wait : (Framing.ofHeader size hpos bodyLength wire).front [] = .wait :=
  Framing.headerFront_eq_wait.2 (.inl hpos)

lemma wire_eq {raw : List UInt8} {x : Content} (h : (Framing.ofHeader size hpos bodyLength wire).IsFrame raw x) :
    wire raw = x := by
  obtain ⟨m, -, -, -, hx⟩ := Framing.headerFront_eq_frame.1 h
  rw [hx, List.take_of_length_le le_rfl]

/-- The stream is the messages handed over and queued. -/
lemma Delivering.stream {F : Framing UInt8 Content} (h : Delivering peer delegate loop F content l) :
    l.senders.kernel.take l.received ++ l.pending = ((l.senders.done ++ l.senders.tasks).map (·.2)).flatten := by
  have hstream := h.whole.stream
  unfold payload at hstream
  rw [Link.pending, Link.inFlight, List.append_assoc, ← List.append_assoc, List.take_append_drop,
    ← List.append_assoc, hstream, payload, List.map_append, List.flatten_append]

lemma Delivering.length_eq {F : Framing UInt8 Content} (h : Delivering peer delegate loop F content l) :
    (l.senders.done ++ l.senders.tasks).length = l.packets.length := by
  rw [h.whole.perm.length_eq, h.calls_eq, List.length_map]

include hframe

lemma Delivering.frames (h : Delivering peer delegate loop (.ofHeader size hpos bodyLength wire) content l) :
    List.Forall₂ (Framing.ofHeader size hpos bodyLength wire).IsFrame
      ((l.senders.done ++ l.senders.tasks).map (·.2)) ((l.senders.done ++ l.senders.tasks).map fun m => wire m.2) := by
  rw [List.forall₂_map_left_iff, List.forall₂_map_right_iff, List.forall₂_same]
  intro m hm
  have hmem := h.whole.perm.mem_iff.1 hm
  rw [h.calls_eq, List.mem_map] at hmem
  obtain ⟨⟨t, p⟩, hp, rfl⟩ := hmem
  have hp' := hframe p (h.made _ hp)
  rw [wire_eq hpos hp']
  exact hp'

/-- What has not been made into packets is the frames that have not been delivered. -/
lemma Delivering.rest (h : Delivering peer delegate loop (.ofHeader size hpos bodyLength wire) content l) :
    l.receiver.seen.map content =
        ((l.senders.done ++ l.senders.tasks).map fun m => wire m.2).take l.receiver.seen.length ∧
      l.receiver.data.readable ++ l.pending =
        (((l.senders.done ++ l.senders.tasks).map (·.2)).drop l.receiver.seen.length).flatten ∧
      List.Forall₂ (Framing.ofHeader size hpos bodyLength wire).IsFrame
        (((l.senders.done ++ l.senders.tasks).map (·.2)).drop l.receiver.seen.length)
        (((l.senders.done ++ l.senders.tasks).map fun m => wire m.2).drop l.receiver.seen.length) := by
  have hread := h.reads.of_frames h.stream (h.frames hpos hframe)
  rwa [List.length_map] at hread

lemma Delivering.inOrder (h : Delivering peer delegate loop (.ofHeader size hpos bodyLength wire) content l) :
    l.InOrder (.ofHeader size hpos bodyLength wire) content := by
  obtain ⟨hseen, hrest, -⟩ := h.rest hpos hframe
  have hcalls : l.senders.calls.map (fun m => (m.1, wire m.2)) = l.packets.map fun m => (m.1, content m.2) := by
    rw [h.calls_eq, List.map_map]
    apply List.map_congr_left
    intro m hm
    show (m.1, wire (peer.getRawdata m.2)) = _
    rw [wire_eq hpos (hframe m.2 (h.made m hm))]
  refine ⟨(l.senders.done ++ l.senders.tasks).map fun m => (m.1, wire m.2),
    (l.senders.done ++ l.senders.tasks).map (·.2), ?_, ?_, ?_, ?_, hrest⟩
  · rw [← hcalls]
    exact h.whole.perm.map _
  · intro t
    rw [← hcalls, List.filter_map, List.filter_map]
    exact congrArg _ (h.whole.fifo t)
  · rw [List.map_map]
    exact h.frames hpos hframe
  · rw [List.map_map]
    exact hseen

/-- When everything has been delivered, nothing is left to be made into packets, and no message is queued. -/
lemma Delivering.idle (h : Delivering peer delegate loop (.ofHeader size hpos bodyLength wire) content l)
    (hall : l.packets.length ≤ l.receiver.seen.length) : l.receiver.data.readable = [] ∧ l.senders.tasks = [] := by
  obtain ⟨-, hrest, -⟩ := h.rest hpos hframe
  rw [List.drop_eq_nil_of_le (by rw [List.length_map, h.length_eq]; exact hall), List.flatten_nil,
    List.append_eq_nil_iff, Link.pending, List.append_eq_nil_iff] at hrest
  refine ⟨hrest.1, List.eq_nil_iff_forall_not_mem.2 fun m hm => ?_⟩
  -- a message is a frame, and no frame is empty
  have hframes := h.frames hpos hframe
  rw [List.forall₂_map_left_iff, List.forall₂_map_right_iff, List.forall₂_same] at hframes
  have hlen := (hframes m (List.mem_append_right _ hm)).pos
  have hnil : m.2 = [] := List.flatten_eq_nil_iff.1 hrest.2.2 _ (List.mem_map_of_mem hm)
  rw [hnil] at hlen
  exact Nat.lt_irrefl _ hlen

include L

/-- **A read** makes at most one packet of what has arrived, and refuses nothing. -/
lemma Delivering.read (h : Delivering peer delegate loop (.ofHeader size hpos bodyLength wire) content l) {n : ℕ}
    {s : PacketCodec.State P} (hn : n ≤ l.inFlight.length)
    (hr : peer.codec.Reads delegate l.receiver (l.inFlight.take n) s) :
    Delivering peer delegate loop (.ofHeader size hpos bodyLength wire) content
        { l with received := l.received + n, receiver := s } ∧
      (s.seen = l.receiver.seen ∧ (Framing.ofHeader size hpos bodyLength wire).front s.data.readable = .wait ∨
        s.seen.length = l.receiver.seen.length + 1) := by
  have hflight : n ≤ l.senders.kernel.length - l.received := by
    rwa [Link.inFlight, List.length_drop] at hn
  have hle := h.received_le
  have hreceived : l.received + n ≤ l.senders.kernel.length := by omega
  have htake : l.senders.kernel.take (l.received + n) = l.senders.kernel.take l.received ++ l.inFlight.take n :=
    List.take_add
  obtain ⟨hok, hreads⟩ := hr.frames hpos L h.ok h.reads
  rw [← htake] at hreads
  obtain ⟨b, e, hturn⟩ := hr.turn hpos L h.ok
  -- what the codec looks at is the front of the frames that are left
  have hbad : (Framing.ofHeader size hpos bodyLength wire).front b.readable ≠ .bad := by
    obtain ⟨-, hrest, hall⟩ := h.rest hpos hframe
    have hsplit : l.pending = l.inFlight.take n ++
        (l.inFlight.drop n ++ l.senders.handler.writeBuf.readable ++ payload l.senders.tasks) := by
      rw [← List.append_assoc, ← List.append_assoc, List.take_append_drop, Link.pending]
    rw [hsplit, ← List.append_assoc, ← e.queue] at hrest
    exact Framing.front_ne_bad (front_nil_wait hpos) hrest hall
  unfold PacketCodec.Turn at hturn
  rcases hf : (Framing.ofHeader size hpos bodyLength wire).front b.readable with _ | _ | ⟨k, x⟩
  · rw [hf] at hturn
    obtain rfl := hturn
    exact ⟨⟨h.whole, h.calls_eq, h.made, hreceived, hok, hreads, .inl rfl⟩, .inl ⟨rfl, hf⟩⟩
  · exact absurd hf hbad
  · rw [hf] at hturn
    obtain ⟨p, -, hret, hseen, -, -⟩ := hturn
    refine ⟨⟨h.whole, h.calls_eq, h.made, hreceived, hok, hreads, .inr ?_⟩, .inr ?_⟩
    · show s.ret = delegate s.seen
      rw [hret, hseen]
    · rw [hseen, List.length_append, List.length_singleton]

omit hframe in
/-- The length of a frame is far below what the lengths of `SendData` can say. -/
lemma frame_length_lt {raw : List UInt8} {x : Content}
    (h : (Framing.ofHeader size hpos bodyLength wire).IsFrame raw x) : raw.length < 2 ^ 32 := by
  obtain ⟨m, hm, hlen, -, -⟩ := Framing.headerFront_eq_frame.1 h
  have hhead : (raw.take size).length = size := by
    rw [List.length_take]
    omega
  obtain ⟨-, -, hlt⟩ := L.valid _ m hhead hm
  omega

/-- **One event** keeps what holds of a connection. -/
lemma Delivering.step (h : Delivering peer delegate loop (.ofHeader size hpos bodyLength wire) content l)
    {e : LinkEvent τ P} (he : Linked peer delegate loop l e l') :
    Delivering peer delegate loop (.ofHeader size hpos bodyLength wire) content l' := by
  cases e with
  | sendPacket t p r =>
    obtain ⟨hmade, s, hs, rfl⟩ := he
    refine h.sends [(t, p)] hs (frame_length_lt hpos L (hframe p hmade)) rfl ?_
    simpa using hmade
  | runTask r =>
    obtain ⟨s, hs, rfl⟩ := he
    simpa using h.sends [] hs trivial rfl (by simp)
  | onWrite r =>
    obtain ⟨hr, s, hs, rfl⟩ := he
    simpa using h.sends [] hs (fun _ => hr) rfl (by simp)
  | read n =>
    obtain ⟨-, hn, s, hr, rfl⟩ := he
    exact (h.read hpos L hframe hn hr).1

omit hframe L in
lemma delivering_new (socket : ℤ) :
    Delivering peer delegate loop (.ofHeader size hpos bodyLength wire) content (Link.new τ P socket) where
  whole := whole_of_run .nil
  calls_eq := rfl
  made := by simp [Link.new]
  received_le := Nat.zero_le _
  ok := IOBuffer.new_ok 64
  reads := .nil _
  ret_eq := .inl rfl

lemma delivering_of_run {socket : ℤ} {es : List (LinkEvent τ P)}
    (h : Run (Linked peer delegate loop) (Link.new τ P socket) es l) :
    Delivering peer delegate loop (.ofHeader size hpos bodyLength wire) content l :=
  h.inv (P := fun _ l => Delivering peer delegate loop (.ofHeader size hpos bodyLength wire) content l)
    (delivering_new hpos socket) fun _ _ _ _ hd he => hd.step hpos L hframe he

/-- What holds where nothing is sent before the last packet has been delivered: one packet at most is on its way, it is
not complete in the receive buffer, and the messages are in call order. -/
structure OneOnItsWay (peer : PacketPeer H P) (delegate : List P → ℤ) (loop : τ) (F : Framing UInt8 Content)
    (content : P → Content) (l : Link τ P) : Prop where
  delivering : Delivering peer delegate loop F content l
  one : l.packets.length ≤ l.receiver.seen.length + 1
  wait : F.front l.receiver.data.readable = .wait
  in_order : l.senders.done ++ l.senders.tasks = l.senders.calls

lemma OneOnItsWay.step (h : OneOnItsWay peer delegate loop (.ofHeader size hpos bodyLength wire) content l)
    {e : LinkEvent τ P} (he : StopsAndWaits peer delegate loop l e l') :
    OneOnItsWay peer delegate loop (.ofHeader size hpos bodyLength wire) content l' := by
  obtain ⟨hd, hone, hwait, horder⟩ := h
  obtain ⟨he, hstop⟩ := he
  have hd' := hd.step hpos L hframe he
  cases e with
  | sendPacket t p r =>
    have hall := hstop t p r rfl
    obtain ⟨-, s, hs, rfl⟩ := he
    obtain ⟨out, -, hc, ho⟩ := hs.adds
    refine ⟨hd', by simp [hall], hwait, ?_⟩
    show s.done ++ s.tasks = s.calls
    rw [ho (.inl (hd.idle hpos hframe hall.le).2), hc, horder]
  | runTask r =>
    obtain ⟨s, hs, rfl⟩ := he
    obtain ⟨out, -, hc, ho⟩ := hs.adds
    refine ⟨hd', hone, hwait, ?_⟩
    show s.done ++ s.tasks = s.calls
    rw [ho (.inr rfl), hc, horder]
  | onWrite r =>
    obtain ⟨-, s, hs, rfl⟩ := he
    obtain ⟨out, -, hc, ho⟩ := hs.adds
    refine ⟨hd', hone, hwait, ?_⟩
    show s.done ++ s.tasks = s.calls
    rw [ho (.inr rfl), hc, horder]
  | read n =>
    obtain ⟨-, hn, s, hr, rfl⟩ := he
    rcases (hd.read hpos L hframe hn hr).2 with ⟨hseen, hwait'⟩ | hseen
    · refine ⟨hd', ?_, hwait', horder⟩
      show l.packets.length ≤ s.seen.length + 1
      rw [hseen]
      exact hone
    · -- the packet that was on its way has been delivered, and nothing is behind it
      have hall : l.packets.length ≤ s.seen.length := by omega
      refine ⟨hd', Nat.le_succ_of_le hall, ?_, horder⟩
      rw [(hd'.idle hpos hframe hall).1]
      exact front_nil_wait hpos

lemma delivered_of_run {socket : ℤ} {es : List (LinkEvent τ P)}
    (h : Run (Linked peer delegate loop) (Link.new τ P socket) es l) :
    l.InOrder (.ofHeader size hpos bodyLength wire) content ∧
      (l.receiver.ret = 0 ∨ l.receiver.ret = delegate l.receiver.seen) ∧
      (l.receiver.ret = 0 → 0 < l.inFlight.length → ∃ n l', Linked peer delegate loop l (.read n) l') := by
  have hd := delivering_of_run hpos L hframe h
  refine ⟨hd.inOrder hpos hframe, hd.ret_eq, ?_⟩
  intro h0 hflight
  obtain ⟨s, hs⟩ := @PacketCodec.reads_total _ _ _ _ _ _ _ delegate _ hpos L hd.ok h0 (l.inFlight.take l.inFlight.length)
  exact ⟨_, _, hflight, le_rfl, s, hs, rfl⟩

lemma all_delivered {socket : ℤ} {es : List (LinkEvent τ P)}
    (h : Run (StopsAndWaits peer delegate loop) (Link.new τ P socket) es l) (hpending : l.pending = []) :
    l.receiver.seen.map content = l.packets.map (fun m => content m.2) ∧ l.receiver.data.readable = [] := by
  have hone : OneOnItsWay peer delegate loop (.ofHeader size hpos bodyLength wire) content l :=
    h.inv (P := fun _ l => OneOnItsWay peer delegate loop (.ofHeader size hpos bodyLength wire) content l)
      ⟨delivering_new hpos socket, Nat.zero_le _, front_nil_wait hpos, rfl⟩
      fun _ _ _ _ ho he => ho.step hpos L hframe he
  have hd := hone.delivering
  obtain ⟨hseen, hrest, hall⟩ := hd.rest hpos hframe
  rw [hpending, List.append_nil] at hrest
  -- the front of what is left waits, so that no frame is left
  have hnone := Framing.eq_nil_of_wait (by rw [← hrest]; exact hone.wait) hall
  have hle := List.drop_eq_nil_iff.1 hnone
  refine ⟨?_, by rw [hrest, hnone, List.flatten_nil]⟩
  rw [hseen, List.take_of_length_le (by simpa using hle), hone.in_order, hd.calls_eq, List.map_map]
  apply List.map_congr_left
  intro m hm
  exact wire_eq hpos (hframe m.2 (hd.made m hm))

end Frames

end Invariant

/-- **Packets arrive in order**, for both codecs. In every run of a connection, with packets sent by any threads, any
interleaving of the tasks and writes of the loop with the reads at the other end, and any pieces that the kernels take
and give: the packets delivered are the first ones of an order of the packets sent, in which those of each thread are
in the order of its calls, and the bytes between the delegate and the senders are the frames of the others. The codec
refuses nothing itself, and while the delegate has not refused anything, what is on the wire can be read. -/
theorem packets_in_order {τ : Type} [DecidableEq τ] {loop : τ} {socket : ℤ} :
    (∀ delegate es l, Run (Linked znetPeer delegate loop) (Link.new τ Packet socket) es l →
      l.InOrder znetFraming Packet.content ∧ (l.receiver.ret = 0 ∨ l.receiver.ret = delegate l.receiver.seen) ∧
      (l.receiver.ret = 0 → 0 < l.inFlight.length → ∃ n l', Linked znetPeer delegate loop l (.read n) l')) ∧
    (∀ delegate es l, Run (Linked teamTalkPeer delegate loop) (Link.new τ TeamTalkPacket socket) es l →
      l.InOrder teamTalkFraming TeamTalkPacket.content ∧
      (l.receiver.ret = 0 ∨ l.receiver.ret = delegate l.receiver.seen) ∧
      (l.receiver.ret = 0 → 0 < l.inFlight.length → ∃ n l', Linked teamTalkPeer delegate loop l (.read n) l')) := by
  constructor
  · intro delegate es l h
    exact delivered_of_run (by omega) znet_lawful (fun _ => Packet.Made.frame) h
  · intro delegate es l h
    exact delivered_of_run (by omega) teamTalk_lawful (fun _ => TeamTalkPacket.Made.frame) h

/-- A ZNet packet of the type 5 with a body of one byte. -/
def onePacket : Packet := ⟨[0, 0, 0, 5, 0, 0, 0, 1, 7]⟩

lemma onePacket_made : onePacket.Made := ⟨fun _ => 0, 5, [7], ⟨[0, 0, 0, 5, 0, 0, 0, 1, 0]⟩, by decide, rfl, rfl⟩

lemma onePacket_run : ∃ l, Run (StopsAndWaits znetPeer (fun _ => 0) 0) (Link.new ℕ Packet 5)
    [.sendPacket 1 onePacket (.accepted 0), .runTask (.accepted 9), .read 9] l ∧ l.pending = [] := by
  have h : Run (StopsAndWaits znetPeer (fun _ => 0) 0) (Link.new ℕ Packet 5)
      [.sendPacket 1 onePacket (.accepted 0), .runTask (.accepted 9)] _ :=
    (Run.nil.snoc ⟨⟨onePacket_made, _, ⟨fun _ hm => (by cases hm), rfl⟩, rfl⟩, fun _ _ _ _ => rfl⟩).snoc
      ⟨⟨_, ⟨fun _ hm _ => ⟨9, rfl, by cases hm; decide⟩, rfl⟩, rfl⟩, fun _ _ _ he => (by cases he)⟩
  obtain ⟨s, hs⟩ : ∃ s, znetCodec.Reads (fun _ => 0) ⟨0, [], .new 64⟩ onePacket.data s :=
    PacketCodec.reads_total (show 0 < 8 by omega) znet_lawful (IOBuffer.new_ok 64) rfl _
  exact ⟨_, h.snoc ⟨⟨by decide, by decide, s, hs, rfl⟩, fun _ _ _ he => (by cases he)⟩, rfl⟩

theorem packets_in_order_run : ∃ l, Run (Linked znetPeer (fun _ => 0) 0) (Link.new ℕ Packet 5)
    [.sendPacket 1 onePacket (.accepted 0), .runTask (.accepted 9), .read 9] l ∧
    l.InOrder znetFraming Packet.content := by
  obtain ⟨l, h, -⟩ := onePacket_run
  have hrun := h.mono fun _ _ _ he => he.1
  exact ⟨l, hrun, (packets_in_order.1 _ _ _ hrun).1⟩

/-- **A sender that waits for each packet to be delivered is never left waiting**, for both codecs: once nothing is in
the queue of the loop, in `write_buf_` or on the wire, everything that was sent has been delivered. -/
theorem stop_and_wait {τ : Type} [DecidableEq τ] {loop : τ} {socket : ℤ} :
    (∀ delegate es l, Run (StopsAndWaits znetPeer delegate loop) (Link.new τ Packet socket) es l →
      l.pending = [] → l.receiver.seen.map Packet.content = l.packets.map (fun m => m.2.content) ∧
        l.receiver.data.readable = []) ∧
    (∀ delegate es l, Run (StopsAndWaits teamTalkPeer delegate loop) (Link.new τ TeamTalkPacket socket) es l →
      l.pending = [] → l.receiver.seen.map TeamTalkPacket.content = l.packets.map (fun m => m.2.content) ∧
        l.receiver.data.readable = []) := by
  constructor
  · intro delegate es l h
    exact all_delivered (by omega) znet_lawful (fun _ => Packet.Made.frame) h
  · intro delegate es l h
    exact all_delivered (by omega) teamTalk_lawful (fun _ => TeamTalkPacket.Made.frame) h

theorem stop_and_wait_run : ∃ l, Run (StopsAndWaits znetPeer (fun _ => 0) 0) (Link.new ℕ Packet 5)
    [.sendPacket 1 onePacket (.accepted 0), .runTask (.accepted 9), .read 9] l ∧ l.pending = [] ∧
    l.receiver.seen.map Packet.content = l.packets.map (fun m => m.2.content) := by
  obtain ⟨l, h, hpending⟩ := onePacket_run
  exact ⟨l, h, hpending, (stop_and_wait.1 _ _ _ h hpending).1⟩

end Zutils.Net
