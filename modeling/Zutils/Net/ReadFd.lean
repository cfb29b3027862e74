import Zutils.Net.IoBufferSpec

/-!
# `ReadFd` on the two platforms

On POSIX the kernel stores into the free part of the vector and then into a stack buffer, on Windows into a stack buffer
only. The two should not be told apart by what they return and by the content: what was there, and the bytes that were
received. They are alike for every number of bytes but one, the size of the stack buffer of Windows, which is taken for
impossible there (`platforms_agree_iff`).
-/

namespace Zutils.Net

/-- The bytes that the kernel has handed over. -/
def ReadResult.data : ReadResult → List UInt8
  | .error => []
  | .bytes data => data

namespace IOBuffer

/-- **The two platforms agree** on a read: they return the same `n`, and the bytes received are behind what was there,
so nothing has changed where there are none. -/
def PlatformsAgree (b : IOBuffer) (savedErrno : ℤ) (r : ReadResult) : Prop :=
  ∃ n savedErrno' b₁ b₂, b.readFd r = .ok (n, b₁) ∧ b.readFdWin savedErrno r = .ok (n, savedErrno', b₂) ∧
    b₁.readable = b.readable ++ r.data ∧ b₂.readable = b.readable ++ r.data

section Platforms

variable {b : IOBuffer} {savedErrno : ℤ} {r : ReadResult} {data : List UInt8}

/-- Whatever the free space is, the kernel is offered room for the stack buffer. -/
lemma kExtraBuf_le_offered (b : IOBuffer) : kExtraBuf ≤ b.offered := by
  unfold offered
  split <;> omega

lemma bmod_length (hlen : data.length ≤ kRecvBuf) : (data.length : ℤ).bmod (2 ^ 32) = data.length := by
  unfold kRecvBuf at hlen
  apply Int.bmod_eq_of_le <;> omega

lemma readFd_spec (h : b.Ok) (hlen : data.length ≤ kRecvBuf) :
    ∃ b', b.readFd (.bytes data) = .ok ((data.length : ℤ), b') ∧ b'.readable = b.readable ++ data := by
  obtain ⟨b', hr, e⟩ := readFd_bytes_spec h (Nat.le_trans hlen (kExtraBuf_le_offered b))
  rw [bmod_length hlen] at hr
  exact ⟨b', hr, e.queue⟩

/-- On Windows fewer bytes than the stack buffer has are written behind the content. -/
lemma readFdWin_spec (savedErrno : ℤ) (h : b.Ok) (hlen : data.length < kRecvBuf) :
    ∃ savedErrno' b', b.readFdWin savedErrno (.bytes data) = .ok ((data.length : ℤ), savedErrno', b') ∧
      b'.readable = b.readable ++ data := by
  by_cases hpos : (0 : ℤ) < data.length
  · obtain ⟨b', hw, e⟩ := write_spec h data
    refine ⟨savedErrno, b', ?_, e.queue⟩
    have hfull : ¬ (data.length : ℤ) = 65536 := by
      unfold kRecvBuf at hlen
      omega
    simp only [readFdWin, if_neg (Nat.lt_asymm hlen), if_pos hpos, if_neg hfull, hw]
    rfl
  · have hnil : data = [] := List.length_eq_zero_iff.1 (by omega)
    rw [hnil, List.append_nil]
    exact ⟨0, b, rfl, rfl⟩

/-- A stack buffer that is full is dropped. -/
lemma readFdWin_full (hfull : data.length = 65536) :
    b.readFdWin savedErrno (.bytes data) = .ok (65536, savedErrno, b) := by
  simp only [readFdWin, hfull]
  rfl

/-- **The platforms agree exactly on the reads that do not fill the stack buffer of Windows.** -/
theorem platforms_agree_iff (h : b.Ok) (hlen : r.data.length ≤ 65536) :
    b.PlatformsAgree savedErrno r ↔ r.data.length ≠ 65536 := by
  cases r with
  | error =>
    refine iff_of_true ⟨-1, -1, b, b, rfl, rfl, ?_, ?_⟩ (by decide)
    · exact (List.append_nil _).symm
    · exact (List.append_nil _).symm
  | bytes data =>
    simp only [ReadResult.data] at hlen
    constructor
    · rintro ⟨n, e, b₁, b₂, -, hwin, -, hq⟩ hfull
      simp only [ReadResult.data] at hfull hq
      rw [readFdWin_full hfull] at hwin
      cases hwin
      -- the content is what it was, and 65536 bytes were to be behind it
      have hnil : data = [] := List.append_right_eq_self.1 hq.symm
      rw [hnil] at hfull
      cases hfull
    · intro hne
      simp only [ReadResult.data] at hne
      obtain ⟨b₁, hposix, h₁⟩ := readFd_spec h hlen
      obtain ⟨e, b₂, hwin, h₂⟩ := readFdWin_spec savedErrno h (Nat.lt_of_le_of_ne hlen hne)
      exact ⟨_, e, b₁, b₂, hposix, hwin, h₁, h₂⟩

theorem platforms_agree_three : (new 2).PlatformsAgree 0 (.bytes [1, 2, 3]) :=
  (platforms_agree_iff (new_ok 2) (by decide)).2 (by decide)

/-- A read of as many bytes as were asked for. -/
theorem full_read_dropped : ¬ (new 1024).PlatformsAgree 0 (.bytes (List.replicate 65536 7)) := by
  rintro ⟨n, e, b₁, b₂, -, hwin, -, hq⟩
  rw [readFdWin_full List.length_replicate] at hwin
  cases hwin
  have hnil : List.replicate 65536 (7 : UInt8) = [] := List.append_right_eq_self.1 hq.symm
  rw [List.replicate_eq_nil_iff] at hnil
  omega

end Platforms

end IOBuffer

end Zutils.Net
