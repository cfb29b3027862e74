import Zutils.Net.Codec.LengthHeader

/-!
# What becomes of a refusal

When a delegate of the length-header codec returns a nonzero value, no further frame should be delivered, and
`OnDataReceived` should return nonzero, so that `IOHandler::Read` closes the connection. The loop leaves for -1 only, and
every turn overwrites the result. So a refusal with another value is lost if there is another frame behind it
(`refusal_heeded_iff`).
-/

namespace Zutils.Net

open Zutils.Lib

namespace LengthHeaderCodec

variable (codec : LengthHeaderCodec)

/-- `IOHandler::Read` with this delegate: what there is after it, and whether it calls `Close()`. -/
def read (fuel : ℕ) (r : ReadResult) (seen : List (List UInt8)) (readBuf : IOBuffer) :
    Option (Except Fault (State × Bool)) :=
  match readBuf.readFd r with
  | .error e => some (.error e)
  | .ok (n, readBuf) =>
    if n > 0 then (codec.onDataReceived fuel seen readBuf).map fun call => call.map fun s => (s, s.ret != 0)
    else some (.ok (⟨0, seen, readBuf⟩, true))

/-- Of the messages that are delivered when `seen` have been before, the first that is refused is the last, and what
follows from a refusal does. -/
def Heeded (seen messages : List (List UInt8)) (consequence : Prop) : Prop :=
  ∀ pre message post, messages = pre ++ message :: post → codec.delegate (seen ++ (pre ++ [message])) ≠ 0 →
    post = [] ∧ consequence

/-- The first of these frames that the delegate refuses, if there is one, is refused with -1, or is the last. -/
def RefusesInTime (seen frames : List (List UInt8)) : Prop :=
  ∀ pre message post, frames = pre ++ message :: post →
    (∀ p, p ≠ [] → p <+: pre → codec.delegate (seen ++ p) = 0) →
    codec.delegate (seen ++ (pre ++ [message])) = 0 ∨ codec.delegate (seen ++ (pre ++ [message])) = -1 ∨ post = []

section Lists

variable {codec} {seen messages frames : List (List UInt8)} {message : List UInt8} {consequence : Prop}

lemma heeded_nil : codec.Heeded seen [] consequence := by
  intro pre message post h
  exact absurd h.symm (List.append_ne_nil_of_right_ne_nil _ (List.cons_ne_nil _ _))

lemma heeded_cons : codec.Heeded seen (message :: messages) consequence ↔
    (codec.delegate (seen ++ [message]) ≠ 0 → messages = [] ∧ consequence) ∧
      codec.Heeded (seen ++ [message]) messages consequence := by
  constructor
  · intro h
    refine ⟨fun hne => h [] message messages rfl hne, fun pre m post hm hne => ?_⟩
    refine h (message :: pre) m post (by rw [hm, List.cons_append]) ?_
    rwa [List.append_assoc] at hne
  · rintro ⟨hfirst, hrest⟩ pre m post hm hne
    rcases pre with _ | ⟨a, pre⟩
    · obtain ⟨rfl, rfl⟩ := List.cons.inj hm
      exact hfirst hne
    · obtain ⟨rfl, rfl⟩ := List.cons.inj hm
      refine hrest pre m post rfl ?_
      rwa [List.append_assoc]

lemma refusesInTime_nil : codec.RefusesInTime seen [] := by
  intro pre message post h
  exact absurd h.symm (List.append_ne_nil_of_right_ne_nil _ (List.cons_ne_nil _ _))

lemma refusesInTime_cons : codec.RefusesInTime seen (message :: frames) ↔
    (codec.delegate (seen ++ [message]) = 0 ∨ codec.delegate (seen ++ [message]) = -1 ∨ frames = []) ∧
      (codec.delegate (seen ++ [message]) = 0 → codec.RefusesInTime (seen ++ [message]) frames) := by
  constructor
  · intro h
    refine ⟨h [] message frames rfl fun p hp hpre => absurd (List.prefix_nil.1 hpre) hp, fun h0 pre m post hm hall => ?_⟩
    rw [List.append_assoc]
    refine h (message :: pre) m post (by rw [hm, List.cons_append]) fun p hp hpre => ?_
    rcases List.prefix_cons_iff.1 hpre with rfl | ⟨t, rfl, ht⟩
    · exact absurd rfl hp
    by_cases hnil : t = []
    · rw [hnil]
      exact h0
    · have hzero := hall t hnil ht
      rwa [List.append_assoc] at hzero
  · rintro ⟨hfirst, hrest⟩ pre m post hm hall
    rcases pre with _ | ⟨a, pre⟩
    · obtain ⟨rfl, rfl⟩ := List.cons.inj hm
      exact hfirst
    · obtain ⟨rfl, rfl⟩ := List.cons.inj hm
      have h0 := hall [message] (List.cons_ne_nil _ _) (List.prefix_cons_iff.2 (.inr ⟨[], rfl, List.nil_prefix⟩))
      have hcut := hrest h0 pre m post rfl fun p hp hpre => ?_
      · rwa [List.append_assoc] at hcut
      · rw [List.append_assoc]
        exact hall (message :: p) (List.cons_ne_nil _ _) (List.prefix_cons_iff.2 (.inr ⟨p, rfl, hpre⟩))

/-- A nonzero result is not lost where no frame follows. -/
lemma verdict_kept {ret : ℤ} {o : Framing.Outcome UInt8 (List UInt8)} (hitems : o.items = seen) (hret : ret ≠ 0) :
    codec.verdict ret seen o ≠ 0 := by
  unfold verdict
  rw [if_pos hitems]
  cases o.stopped with
  | true => exact show (-1 : ℤ) ≠ 0 by decide
  | false => exact hret

/-- **In a stream of frames**: what is delivered heeds the refusals exactly if they are in time. -/
theorem heeded_parse_iff {F : Framing UInt8 (List UInt8)} {s : List UInt8} (ret : ℤ)
    (h : (F.parse codec.accepts seen s).items = seen ++ messages) :
    codec.Heeded seen messages (codec.verdict ret seen (F.parse codec.accepts seen s) ≠ 0) ↔
      codec.RefusesInTime seen (F.frames s) := by
  induction s using F.front_induction generalizing seen messages ret with
  | wait s hf =>
    rw [F.frames_eq_nil (fun n x h => by rw [hf] at h; cases h)]
    rw [Framing.parse_wait hf] at h
    rw [List.append_right_eq_self.1 h.symm]
    exact iff_of_true heeded_nil refusesInTime_nil
  | bad s hf =>
    rw [F.frames_eq_nil (fun n x h => by rw [hf] at h; cases h)]
    rw [Framing.parse_bad hf] at h
    rw [List.append_right_eq_self.1 h.symm]
    exact iff_of_true heeded_nil refusesInTime_nil
  | frame s n message hf ih =>
    rw [Framing.frames_frame hf, refusesInTime_cons]
    by_cases h1 : codec.delegate (seen ++ [message]) = -1
    · -- the loop leaves
      rw [Framing.parse_refused hf (by simp [accepts, h1])] at h ⊢
      obtain rfl := List.append_cancel_left h
      rw [heeded_cons, verdict_stopped]
      refine iff_of_true ⟨fun _ => ⟨rfl, by decide⟩, heeded_nil⟩ ⟨.inr (.inl h1), fun h0 => ?_⟩
      rw [h1] at h0
      cases h0
    · -- the loop goes on
      rw [Framing.parse_frame hf (by simp [accepts, h1])] at h ⊢
      obtain ⟨rest, hrest⟩ := F.parse_extends codec.accepts (seen ++ [message]) (s.drop n)
      have hitems : message :: rest = messages := by
        rw [hrest, List.append_assoc] at h
        exact List.append_cancel_left h
      subst hitems
      rw [heeded_cons, verdict_frame, ih _ hrest]
      by_cases h0 : codec.delegate (seen ++ [message]) = 0
      · simp only [h0, ne_eq, not_true_eq_false, false_imp_iff, true_and, true_or, true_imp_iff]
      simp only [h0, h1, ne_eq, not_false_eq_true, true_imp_iff, false_imp_iff, and_true, false_or]
      have hnone : rest = [] ↔ F.frames (s.drop n) = [] := by
        rw [← Framing.parse_items_eq_iff (F := F), hrest]
        exact List.append_right_eq_self.symm
      rw [hnone]
      constructor
      · exact fun hh => hh.1.1
      · intro hh
        refine ⟨⟨hh, ?_⟩, ?_⟩
        · exact verdict_kept (by rw [hrest, hnone.2 hh, List.append_nil]) h0
        · rw [hh]
          exact refusesInTime_nil

end Lists

/-! ### Calls -/

/-- `OnDataReceived` returns, and heeds the refusals of the delegate. -/
def CallHeeds (seen : List (List UInt8)) (data : IOBuffer) : Prop :=
  ∃ s messages, (∀ fuel, data.readableBytes < fuel → codec.onDataReceived fuel seen data = some (.ok s)) ∧
    s.seen = seen ++ messages ∧ codec.Heeded seen messages (s.ret ≠ 0)

/-- `IOHandler::Read` returns, and closes the connection if the delegate refuses. -/
def ReadHeeds (seen : List (List UInt8)) (readBuf : IOBuffer) (bytes : List UInt8) : Prop :=
  ∃ s closes messages, (∀ fuel, readBuf.readableBytes + bytes.length < fuel →
      codec.read fuel (.bytes bytes) seen readBuf = some (.ok (s, closes))) ∧
    s.seen = seen ++ messages ∧ codec.Heeded seen messages (closes = true)

section Calls

variable {codec} {b : IOBuffer}

lemma callHeeds_iff (hlen : 4 ≤ codec.headerLen) (hok : b.Ok) (seen : List (List UInt8)) :
    codec.CallHeeds seen b ↔ codec.RefusesInTime seen ((lengthFraming codec.headerLen hlen).frames b.readable) := by
  obtain ⟨s, stopped, hcall, -, hparse, hret⟩ := onDataReceived_outcome hlen seen hok
  obtain ⟨messages, hitems⟩ := (lengthFraming codec.headerLen hlen).parse_extends codec.accepts seen b.readable
  have hiff := heeded_parse_iff 0 hitems
  rw [hparse] at hitems hiff
  rw [← hiff, ← hret]
  constructor
  · rintro ⟨s', messages', hcall', hseen, hheeded⟩
    have heq := (hcall' _ (Nat.lt_succ_self _)).symm.trans (hcall _ (Nat.lt_succ_self _))
    obtain rfl := Except.ok.inj (Option.some.inj heq)
    obtain rfl := List.append_cancel_left (hseen.symm.trans hitems)
    exact hheeded
  · exact fun hheeded => ⟨s, messages, hcall, hitems, hheeded⟩

lemma readHeeds_iff (hlen : 4 ≤ codec.headerLen) (hok : b.Ok) (seen : List (List UInt8)) {bytes : List UInt8}
    (hfit : bytes.length ≤ b.offered) (hpos : 0 < bytes.length) (hint : bytes.length < 2 ^ 31) :
    codec.ReadHeeds seen b bytes ↔
      codec.RefusesInTime seen ((lengthFraming codec.headerLen hlen).frames (b.readable ++ bytes)) := by
  obtain ⟨b', hread, e⟩ := IOBuffer.readFd_bytes_spec hok hfit
  have hn : (bytes.length : ℤ).bmod (2 ^ 32) > 0 := by
    rw [Int.bmod_eq_of_le (by omega) (by omega)]
    omega
  have hsize : b'.readableBytes = b.readableBytes + bytes.length := by
    rw [← e.ok.readable_length, e.queue, List.length_append, hok.readable_length]
  have hcodec : ∀ fuel, codec.read fuel (.bytes bytes) seen b =
      (codec.onDataReceived fuel seen b').map fun call => call.map fun s => (s, s.ret != 0) := by
    intro fuel
    unfold read
    rw [hread]
    exact if_pos hn
  rw [← e.queue, ← callHeeds_iff hlen e.ok seen]
  obtain ⟨s, -, hcall, -⟩ := onDataReceived_outcome hlen seen e.ok
  constructor
  · rintro ⟨s', closes, messages, hreads, hseen, hheeded⟩
    have heq := hreads _ (Nat.lt_succ_self _)
    rw [hcodec, hcall _ (by rw [hsize]; exact Nat.lt_succ_self _)] at heq
    obtain ⟨rfl, rfl⟩ := Prod.mk.inj (Except.ok.inj (Option.some.inj heq))
    refine ⟨s, messages, hcall, hseen, fun pre m post hm hne => ?_⟩
    obtain ⟨hpost, hcloses⟩ := hheeded pre m post hm hne
    exact ⟨hpost, bne_iff_ne.1 hcloses⟩
  · rintro ⟨s', messages, hcall', hseen, hheeded⟩
    refine ⟨s', s'.ret != 0, messages, fun fuel hfuel => ?_, hseen, fun pre m post hm hne => ?_⟩
    · rw [hcodec, hcall' fuel (by rw [hsize]; exact hfuel)]
      rfl
    · obtain ⟨hpost, hret⟩ := hheeded pre m post hm hne
      exact ⟨hpost, bne_iff_ne.2 hret⟩

/-- **A refusal is heeded exactly if it is -1 or is that of the last frame**: by `OnDataReceived`, and by the `Read` that
has called it. -/
theorem refusal_heeded_iff (hlen : 4 ≤ codec.headerLen) (hok : b.Ok) (seen : List (List UInt8)) :
    (codec.CallHeeds seen b ↔
      codec.RefusesInTime seen ((lengthFraming codec.headerLen hlen).frames b.readable)) ∧
    ∀ bytes : List UInt8, bytes.length ≤ b.offered → 0 < bytes.length → bytes.length < 2 ^ 31 →
      (codec.ReadHeeds seen b bytes ↔
        codec.RefusesInTime seen ((lengthFraming codec.headerLen hlen).frames (b.readable ++ bytes))) :=
  ⟨callHeeds_iff hlen hok seen, fun _ hfit hpos hint => readHeeds_iff hlen hok seen hfit hpos hint⟩

/-- The first of two empty messages is refused with -1, and the connection is closed. -/
theorem refusal_heeded_iff_read :
    (LengthHeaderCodec.mk (fun _ => -1) 4).ReadHeeds [] (.new 64) [0, 0, 0, 0, 0, 0, 0, 0] := by
  have hok : (IOBuffer.new 64).Ok := IOBuffer.new_ok 64
  have hiff := (@refusal_heeded_iff ⟨fun _ => -1, 4⟩ (.new 64) (Nat.le_refl 4) hok []).2
  refine (hiff _ (by decide) (by decide) (by decide)).2 ?_
  intro pre message post _ _
  exact .inr (.inl rfl)

/-- **A refusal with 3 is lost** if the next frame is accepted: the connection stays open. -/
theorem refusal_overwritten :
    let codec : LengthHeaderCodec := ⟨fun seen => if seen.length = 1 then 3 else 0, 4⟩
    (∃ s, codec.read 9 (.bytes [0, 0, 0, 0, 0, 0, 0, 0]) [] (.new 64) = some (.ok (s, false)) ∧ s.seen = [[], []] ∧
      s.ret = 0) ∧
    ¬ codec.ReadHeeds [] (.new 64) [0, 0, 0, 0, 0, 0, 0, 0] := by
  have hread : ∃ s, (LengthHeaderCodec.mk (fun seen => if seen.length = 1 then 3 else 0) 4).read 9
      (.bytes [0, 0, 0, 0, 0, 0, 0, 0]) [] (.new 64) = some (.ok (s, false)) ∧ s.seen = [[], []] ∧ s.ret = 0 :=
    ⟨_, rfl, rfl, rfl⟩
  refine ⟨hread, ?_⟩
  rintro ⟨s', closes, messages, hreads, hseen, hheeded⟩
  obtain ⟨s, hs, hmessages, -⟩ := hread
  obtain ⟨rfl, rfl⟩ := Prod.mk.inj (Except.ok.inj (Option.some.inj ((hreads 9 (by decide)).symm.trans hs)))
  rw [hmessages, List.nil_append] at hseen
  obtain ⟨-, hcloses⟩ := hheeded [] [] [[]] hseen.symm (by decide)
  cases hcloses

end Calls

end LengthHeaderCodec

end Zutils.Net
