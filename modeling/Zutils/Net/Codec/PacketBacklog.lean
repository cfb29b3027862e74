import Zutils.Lib.Backlog
import Zutils.Net.Codec.PacketFrames

/-!
# Frames left waiting by the packet codecs

The `while` loop of `OnDataReceived` returns behind the first packet, so that a call delivers at most one frame,
however many the read completed. A call that returns 0 leaves no complete frame exactly when the buffer did not start
with two, and over a connection the frames are served like a queue that is served once a read: they have all been
delivered after the last read exactly when the reads keep up (`KeepsUp`). `IOHandler::Read` closes the connection
when a call returns nonzero, and then nothing is read any more.
-/

namespace Zutils.Net

open Zutils.Lib

namespace PacketCodec

/-! ### What is left waiting -/

section Framing

variable (F : Framing UInt8 Content)

/-- A complete frame with a valid header stands at the front. -/
def FrameLeft (s : List UInt8) : Prop := ∃ n x, F.front s = .frame n x

/-- Two of them do. -/
def StartsWithTwo (s : List UInt8) : Prop := ∃ n x, F.front s = .frame n x ∧ FrameLeft F (s.drop n)

/-- The number of frames that the first `j` reads complete. -/
def arrived (chunks : List (List UInt8)) (j : ℕ) : ℕ := (F.frames (chunks.take j).flatten).length

/-- From no read on do the reads complete more frames than there are reads. -/
def KeepsUp (chunks : List (List UInt8)) : Prop :=
  ∀ j ≤ chunks.length, arrived F chunks chunks.length ≤ arrived F chunks j + (chunks.length - j)

variable {F}

lemma front_nil (n : ℕ) (x : Content) : F.front [] ≠ .frame n x := by
  intro h
  have hpos := F.pos h
  have hle := F.le h
  rw [List.length_nil] at hle
  omega

lemma arrived_zero (chunks : List (List UInt8)) : arrived F chunks 0 = 0 := by
  rw [arrived, List.take_zero, List.flatten_nil, Framing.frames_eq_nil front_nil]
  rfl

lemma arrived_snoc {chunks : List (List UInt8)} {chunk : List UInt8} {j : ℕ} (h : j ≤ chunks.length) :
    arrived F (chunks ++ [chunk]) j = arrived F chunks j := by
  rw [arrived, arrived, List.take_append_of_le_length h]

lemma arrived_length (chunks : List (List UInt8)) :
    arrived F chunks chunks.length = (F.frames chunks.flatten).length := by
  rw [arrived, List.take_length]

lemma served_snoc (chunks : List (List UInt8)) (chunk : List UInt8) :
    served (arrived F (chunks ++ [chunk])) (chunks ++ [chunk]).length =
      min (served (arrived F chunks) chunks.length + 1) (F.frames (chunks ++ [chunk]).flatten).length := by
  have hlen : (chunks ++ [chunk]).length = chunks.length + 1 := by simp
  rw [← arrived_length, hlen, served, served_congr fun j hj => arrived_snoc hj]

end Framing

variable {H P : Type} {codec : PacketCodec H P} {size : ℕ} {bodyLength : List UInt8 → Option ℕ}
  {wire : List UInt8 → Content} {content : P → Content}

/-! ### One call -/

/-- A call with a delegate that returns 0 and itself returns 0 leaves no complete frame exactly when the buffer did
not start with two. -/
lemma frameLeft_iff {b : IOBuffer} {mem : Mem} {seen : List P} (hpos : 0 < size)
    (L : codec.Lawful size bodyLength wire content) (hok : b.Ok) :
    ∃ s, (∀ fuel, 0 < fuel → codec.onDataReceived mem (fun _ => 0) fuel seen b = some (.ok s)) ∧
      ((s.ret = 0 → ¬ FrameLeft (.ofHeader size hpos bodyLength wire) s.data.readable) ↔
        ¬ StartsWithTwo (.ofHeader size hpos bodyLength wire) b.readable) := by
  obtain ⟨s, hs, hturn⟩ := onDataReceived_spec hpos L mem (fun _ => 0) seen hok
  refine ⟨s, hs, ?_⟩
  generalize Framing.ofHeader size hpos bodyLength wire = F at hturn ⊢
  unfold Turn at hturn
  rcases hf : F.front b.readable with _ | _ | ⟨n, x⟩
  · rw [hf] at hturn
    obtain rfl := hturn
    simp [FrameLeft, StartsWithTwo, hf]
  · rw [hf] at hturn
    obtain rfl := hturn
    simp [FrameLeft, StartsWithTwo, hf]
  · rw [hf] at hturn
    obtain ⟨p, -, hret, -, -, hrest⟩ := hturn
    rw [hrest]
    simp [StartsWithTwo, hf, hret]

/-! ### All reads of a connection -/

/-- A read of an open connection whose delegate returns 0; a closed one reads nothing. -/
def Serves (codec : PacketCodec H P) (s : State P) (chunk : List UInt8) (s' : State P) : Prop :=
  codec.Reads (fun _ => 0) s chunk s' ∨ s.ret ≠ 0 ∧ s' = s

/-- What holds after some reads. `rest` is what was received and not consumed, dropped bytes included. -/
structure Backlog (F : Framing UInt8 Content) (content : P → Content) (chunks : List (List UInt8)) (s : State P)
    (rest : List UInt8) : Prop where
  ok : s.data.Ok
  frames : F.Reads chunks.flatten (s.seen.map content) rest
  opened : s.ret = 0 → rest = s.data.readable
  closed : s.ret ≠ 0 → F.front rest = .bad
  /-- One frame was served a read. -/
  length_eq : s.seen.length = served (arrived F chunks) chunks.length

lemma Backlog.frames_length {F : Framing UInt8 Content} {chunks : List (List UInt8)} {s : State P}
    {rest : List UInt8} (h : Backlog F content chunks s rest) :
    (F.frames chunks.flatten).length = s.seen.length + (F.frames rest).length := by
  rw [h.frames.frames, List.length_append, List.length_map]

lemma Backlog.length_idle {F : Framing UInt8 Content} {chunks : List (List UInt8)} {chunk : List UInt8} {s : State P}
    {rest : List UInt8} (h : Backlog F content chunks s rest)
    (hall : F.frames (chunks ++ [chunk]).flatten = s.seen.map content) :
    s.seen.length = served (arrived F (chunks ++ [chunk])) (chunks ++ [chunk]).length := by
  rw [served_snoc, hall, List.length_map, ← h.length_eq, Nat.min_eq_right (Nat.le_succ _)]

/-- **One read serves one frame**, if one is complete. -/
lemma Backlog.serves {chunks : List (List UInt8)} {chunk : List UInt8} {s s' : State P} {rest : List UInt8}
    (hpos : 0 < size) (L : codec.Lawful size bodyLength wire content)
    (h : Backlog (.ofHeader size hpos bodyLength wire) content chunks s rest) (hs : codec.Serves s chunk s') :
    ∃ rest', Backlog (.ofHeader size hpos bodyLength wire) content (chunks ++ [chunk]) s' rest' := by
  have hflat : (chunks ++ [chunk]).flatten = chunks.flatten ++ chunk := by
    rw [List.flatten_append, List.flatten_singleton]
  have happ := h.frames.append chunk
  rw [← hflat] at happ
  have hcount := happ.frames
  rcases hs with hr | ⟨hret, rfl⟩
  · obtain ⟨b, e, hturn⟩ := hr.turn hpos L h.ok
    generalize Framing.ofHeader size hpos bodyLength wire = F at h happ hcount hturn ⊢
    rw [h.opened hr.1, ← e.queue] at happ hcount
    unfold Turn at hturn
    rcases hf : F.front b.readable with _ | _ | ⟨n, x⟩
    · rw [hf] at hturn
      obtain rfl := hturn
      refine ⟨b.readable, e.ok, happ, fun _ => rfl, fun hne => absurd rfl hne, ?_⟩
      rw [Framing.frames_eq_nil (s := b.readable) (by simp [hf]), List.append_nil] at hcount
      exact h.length_idle hcount
    · rw [hf] at hturn
      obtain rfl := hturn
      refine ⟨b.readable, e.ok, happ, fun _ => rfl, fun _ => hf, ?_⟩
      rw [Framing.frames_eq_nil (s := b.readable) (by simp [hf]), List.append_nil] at hcount
      exact h.length_idle hcount
    · rw [hf] at hturn
      obtain ⟨p, hcontent, hret, hseen, hok, hrest⟩ := hturn
      refine ⟨s'.data.readable, hok, ?_, fun _ => rfl, fun hne => absurd hret hne, ?_⟩
      · rw [hseen, hrest, List.map_append, List.map_singleton, hcontent]
        exact happ.snoc hf
      · rw [served_snoc, hcount, Framing.frames_frame hf, ← h.length_eq, hseen, Nat.min_eq_left]
        · simp
        · simp only [List.length_append, List.length_cons, List.length_map]
          omega
  · generalize Framing.ofHeader size hpos bodyLength wire = F at h happ hcount ⊢
    have hbad := F.bad_append chunk (h.closed hret)
    refine ⟨rest ++ chunk, h.ok, happ, fun h0 => absurd h0 hret, fun _ => hbad, ?_⟩
    rw [Framing.frames_eq_nil (s := rest ++ chunk) (by simp [hbad]), List.append_nil] at hcount
    exact h.length_idle hcount

lemma backlog_of_run {n : ℕ} {chunks : List (List UInt8)} {s : State P} (hpos : 0 < size)
    (L : codec.Lawful size bodyLength wire content) (h : Run codec.Serves ⟨0, [], .new n⟩ chunks s) :
    ∃ rest, Backlog (.ofHeader size hpos bodyLength wire) content chunks s rest := by
  refine h.inv (P := fun chunks s => ∃ rest, Backlog (.ofHeader size hpos bodyLength wire) content chunks s rest) ?_ ?_
  · refine ⟨[], IOBuffer.new_ok n, .nil _, ?_, fun hne => absurd rfl hne, rfl⟩
    intro _
    rw [IOBuffer.new_readable]
  · rintro chunks s chunk s' ⟨rest, hb⟩ hs
    exact hb.serves hpos L hs

lemma serves_total {n : ℕ} {chunks : List (List UInt8)} {s : State P} (hpos : 0 < size)
    (L : codec.Lawful size bodyLength wire content) (h : Run codec.Serves ⟨0, [], .new n⟩ chunks s)
    (chunk : List UInt8) : ∃ s', codec.Serves s chunk s' := by
  obtain ⟨rest, hb⟩ := backlog_of_run hpos L h
  by_cases h0 : s.ret = 0
  · obtain ⟨s', hs'⟩ := reads_total hpos L hb.ok h0 chunk
    exact ⟨s', .inl hs'⟩
  · exact ⟨s, .inr ⟨h0, rfl⟩⟩

/-- All complete frames have been delivered exactly when the reads kept up. -/
lemma delivered_iff {n : ℕ} {chunks : List (List UInt8)} {s : State P} (hpos : 0 < size)
    (L : codec.Lawful size bodyLength wire content) (h : Run codec.Serves ⟨0, [], .new n⟩ chunks s) :
    s.seen.map content = (Framing.ofHeader size hpos bodyLength wire).frames chunks.flatten ↔
      KeepsUp (.ofHeader size hpos bodyLength wire) chunks := by
  obtain ⟨rest, hb⟩ := backlog_of_run hpos L h
  generalize Framing.ofHeader size hpos bodyLength wire = F at hb ⊢
  have hall := hb.frames.frames
  have hiff := served_eq_iff (arrived_zero (F := F) chunks) chunks.length
  rw [KeepsUp, ← hiff, ← hb.length_eq, arrived_length]
  constructor
  · intro he
    rw [← he, List.length_map]
  · intro hlen
    have hrest : F.frames rest = [] := by
      apply List.eq_nil_of_length_eq_zero
      have := hb.frames_length
      omega
    rw [hall, hrest, List.append_nil]

end PacketCodec

open PacketCodec

/-- **When no complete frame is left waiting**, for both codecs and delegates that return 0: a call that returns 0
leaves no complete frame exactly when the buffer did not start with two; and after the last read of a connection the
packets delivered are all complete frames before the first invalid header exactly when the reads kept up. -/
theorem frames_left_waiting (mem : Mem) {b : IOBuffer} (hok : b.Ok) (n : ℕ) (chunks : List (List UInt8)) :
    ((∀ seen : List Packet,
        ∃ s, (∀ fuel, 0 < fuel → znetCodec.onDataReceived mem (fun _ => 0) fuel seen b = some (.ok s)) ∧
          ((s.ret = 0 → ¬ FrameLeft znetFraming s.data.readable) ↔ ¬ StartsWithTwo znetFraming b.readable)) ∧
      ∀ s, Run znetCodec.Serves ⟨0, [], .new n⟩ chunks s →
        (s.seen.map Packet.content = znetFraming.frames chunks.flatten ↔ KeepsUp znetFraming chunks)) ∧
    (∀ seen : List TeamTalkPacket,
        ∃ s, (∀ fuel, 0 < fuel → teamTalkCodec.onDataReceived mem (fun _ => 0) fuel seen b = some (.ok s)) ∧
          ((s.ret = 0 → ¬ FrameLeft teamTalkFraming s.data.readable) ↔ ¬ StartsWithTwo teamTalkFraming b.readable)) ∧
      ∀ s, Run teamTalkCodec.Serves ⟨0, [], .new n⟩ chunks s →
        (s.seen.map TeamTalkPacket.content = teamTalkFraming.frames chunks.flatten ↔
          KeepsUp teamTalkFraming chunks) := by
  constructor
  · constructor
    · intro seen
      exact frameLeft_iff (by omega) znet_lawful hok
    · intro s h
      exact delivered_iff (by omega) znet_lawful h
  · constructor
    · intro seen
      exact frameLeft_iff (by omega) teamTalk_lawful hok
    · intro s h
      exact delivered_iff (by omega) teamTalk_lawful h

/-- Two ZNet frames without a body, of the types 1 and 2. -/
def twoFrames : List UInt8 := [0, 0, 0, 1, 0, 0, 0, 0, 0, 0, 0, 2, 0, 0, 0, 0]

/-- The two frames in two reads. -/
theorem frames_left_waiting_run : ∃ s : State Packet,
    Run znetCodec.Serves ⟨0, [], .new 64⟩ [twoFrames.take 8, twoFrames.drop 8] s ∧
    s.seen.map Packet.content = [⟨1, none, 0, []⟩, ⟨2, none, 0, []⟩] := by
  have hnil : Run znetCodec.Serves ⟨0, [], .new 64⟩ [] ⟨0, [], .new 64⟩ := .nil
  obtain ⟨s₁, h₁⟩ := serves_total (show 0 < 8 by omega) znet_lawful hnil (twoFrames.take 8)
  obtain ⟨s₂, h₂⟩ := serves_total (show 0 < 8 by omega) znet_lawful (hnil.snoc h₁) (twoFrames.drop 8)
  have hrun := (hnil.snoc h₁).snoc h₂
  have hiff := (frames_left_waiting (fun _ => 0) (IOBuffer.new_ok 64) 64 _).1.2 s₂ hrun
  refine ⟨s₂, hrun, hiff.2 ?_⟩
  intro j hj
  have hj : j = 0 ∨ j = 1 ∨ j = 2 := by simp at hj; omega
  rcases hj with rfl | rfl | rfl <;> decide

/-- **Two frames in one read**: the call returns 0, and one of them is left waiting. -/
theorem second_frame_left_waiting : ∃ s : State Packet,
    Run znetCodec.Serves ⟨0, [], .new 64⟩ [twoFrames] s ∧ s.ret = 0 ∧
    FrameLeft znetFraming s.data.readable ∧ s.seen.map Packet.content ≠ znetFraming.frames twoFrames := by
  obtain ⟨s, h⟩ : ∃ s, znetCodec.Reads (fun _ => 0) ⟨0, [], .new 64⟩ twoFrames s :=
    reads_total (show 0 < 8 by omega) znet_lawful (IOBuffer.new_ok 64) rfl twoFrames
  obtain ⟨b, e, hturn⟩ := h.turn (show 0 < 8 by omega) znet_lawful (IOBuffer.new_ok 64)
  have hb : b.readable = twoFrames := e.queue
  have hf : znetFraming.front twoFrames = .frame 8 ⟨1, none, 0, []⟩ := by rfl
  unfold Turn at hturn
  rw [hb, show (Framing.ofHeader 8 _ znetBodyLength znetContent).front twoFrames = _ from hf] at hturn
  obtain ⟨p, -, hret, hseen, -, hrest⟩ := hturn
  refine ⟨s, Run.nil.snoc (.inl h), hret, ⟨8, ⟨2, none, 0, []⟩, ?_⟩, ?_⟩
  · rw [hrest]
    rfl
  · intro hall
    have hlen : (znetFraming.frames twoFrames).length = 2 := by rfl
    rw [← hall, hseen] at hlen
    cases hlen

end Zutils.Net
