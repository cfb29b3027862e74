import Zutils.Net.IoBuffer
import Mathlib.Tactic.Common

/-!
# What each operation of the byte buffer does to its content

`Ok` is the representation invariant of the header comment of the source, `0 ≤ reader ≤ writer ≤ size`, with the
eight bytes every buffer starts with. A buffer that is `Ok` is `layout pre q post` for its content `q`, and on a
layout every operation is an equation about appended lists. Each operation then has one lemma, in the form
`∃ b', b.op … = .ok b' ∧ Effect b b' q`: no check fails, the invariant is kept, the content is now `q`, and at
least `kCheapPrepend` bytes stay prependable if that many were.
-/

namespace Zutils.Net

namespace IOBuffer

/-- The representation invariant. -/
structure Ok (b : IOBuffer) : Prop where
  le_writer : b.readerIndex ≤ b.writerIndex
  le_size : b.writerIndex ≤ b.buffer.length
  cheap_le : kCheapPrepend ≤ b.buffer.length

/-- The buffer `b'` comes from `b` by an operation that leaves the content `q`. -/
structure Effect (b b' : IOBuffer) (q : List UInt8) : Prop where
  ok : b'.Ok
  queue : b'.readable = q
  cheap : kCheapPrepend ≤ b.prependableBytes → kCheapPrepend ≤ b'.prependableBytes

/-- The buffer whose vector is `pre`, the content `q` and the writable bytes `post`. -/
def layout (pre q post : List UInt8) : IOBuffer := ⟨pre ++ q ++ post, pre.length, pre.length + q.length⟩

section Layout

variable {pre q post : List UInt8}

@[simp] lemma layout_readableBytes : (layout pre q post).readableBytes = q.length := by
  simp [layout, readableBytes]

@[simp] lemma layout_writableBytes : (layout pre q post).writableBytes = post.length := by
  simp [layout, writableBytes]; omega

@[simp] lemma layout_prependableBytes : (layout pre q post).prependableBytes = pre.length := rfl

lemma layout_peek {n : ℕ} (h : n ≤ q.length) : (layout pre q post).peek n = q.take n := by
  simp [layout, peek, List.take_append_of_le_length h]

@[simp] lemma layout_readable : (layout pre q post).readable = q := by
  rw [readable, layout_readableBytes, layout_peek le_rfl, List.take_length]

lemma layout_ok (h : kCheapPrepend ≤ pre.length + q.length + post.length) :
    (layout pre q post).Ok where
  le_writer := Nat.le_add_right _ _
  le_size := by simp [layout]
  cheap_le := by simp [layout]; omega

/-- Storing `data` behind the content overwrites the first writable bytes. -/
lemma layout_fill (pre q post : List UInt8) {data : List UInt8} (h : data.length ≤ post.length) :
    (layout pre q post).fill data = .ok { layout pre q post with
      buffer := pre ++ q ++ data ++ post.drop data.length } := by
  have hw : (layout pre q post).writerIndex = (pre ++ q).length := by simp [layout]
  have hcopy : copyAt (layout pre q post).buffer (layout pre q post).writerIndex data =
      .ok (pre ++ q ++ data ++ post.drop data.length) := by
    rw [hw]
    exact copyAt_append data h
  rw [fill, hcopy]
  rfl

end Layout

section Specs

variable {b : IOBuffer}

lemma Ok.eq_layout (h : b.Ok) : ∃ pre post, b = layout pre b.readable post ∧
    kCheapPrepend ≤ pre.length + b.readable.length + post.length := by
  obtain ⟨buf, r, w⟩ := b
  obtain ⟨h1, h2, h3⟩ := h
  simp only at h1 h2 h3
  have hr : (IOBuffer.mk buf r w).readable = (buf.drop r).take (w - r) := rfl
  have hlen : ((buf.drop r).take (w - r)).length = w - r := by simp; omega
  refine ⟨buf.take r, buf.drop w, ?_, by rw [hr, hlen]; simp; omega⟩
  have hbuf : buf.take r ++ (buf.drop r).take (w - r) ++ buf.drop w = buf := by
    rw [← List.take_add, Nat.add_sub_cancel' h1, List.take_append_drop]
  rw [hr, layout, hbuf, hlen, List.length_take, Nat.min_eq_left (by omega)]
  simp; omega

lemma Ok.readable_length (h : b.Ok) : b.readable.length = b.readableBytes := by
  obtain ⟨pre, post, hb, -⟩ := h.eq_layout
  rw [hb]; simp

lemma new_ok (n : ℕ) : (new n).Ok := by
  constructor <;> simp [new]

@[simp] lemma new_readable (n : ℕ) : (new n).readable = [] := by
  simp [readable, peek, readableBytes, new]

@[simp] lemma new_writableBytes (n : ℕ) : (new n).writableBytes = n := by
  simp [writableBytes, new]

/-! ### Taking bytes out -/

lemma peek_eq_take {n : ℕ} (hn : n ≤ b.readableBytes) : b.peek n = b.readable.take n := by
  rw [readable, peek, peek, List.take_take, Nat.min_eq_left hn]

lemma retrieveAll_spec (h : b.Ok) : Effect b b.retrieveAll [] where
  ok := ⟨le_rfl, h.cheap_le, h.cheap_le⟩
  queue := by simp [readable, peek, readableBytes, retrieveAll]
  cheap _ := le_rfl

lemma retrieve_spec (h : b.Ok) {len : ℕ} (hlen : len ≤ b.readableBytes) :
    ∃ b', b.retrieve len = .ok b' ∧ Effect b b' (b.readable.drop len) := by
  obtain ⟨pre, post, hb, hc⟩ := h.eq_layout
  generalize b.readable = q at hb hc ⊢
  subst hb
  simp only [layout_readableBytes] at hlen
  by_cases hlt : len < q.length
  · refine ⟨layout (pre ++ q.take len) (q.drop len) post, ?_, ?_⟩
    · simp only [retrieve, layout_readableBytes, dcheck_true hlen, ok_bind, if_pos hlt]
      simp [layout, pure, Except.pure]
      omega
    · refine ⟨layout_ok (by simp; omega), by simp, ?_⟩
      intro hp
      simp only [layout_prependableBytes, List.length_append] at hp ⊢
      omega
  · refine ⟨(layout pre q post).retrieveAll, ?_, ?_⟩
    · simp only [retrieve, layout_readableBytes, dcheck_true hlen, ok_bind, if_neg hlt]
      rfl
    · rw [List.drop_eq_nil_of_le (by omega)]
      exact retrieveAll_spec h

/-- A call that returns has found enough bytes. -/
lemma of_retrieve_eq_ok (h : b.Ok) {len : ℕ} {b' : IOBuffer} (hr : b.retrieve len = .ok b') :
    len ≤ b.readableBytes ∧ Effect b b' (b.readable.drop len) := by
  by_cases hlen : len ≤ b.readableBytes
  · obtain ⟨b'', hr', e⟩ := retrieve_spec h hlen
    rw [Except.ok.inj (hr.symm.trans hr')]
    exact ⟨hlen, e⟩
  · rw [retrieve, dcheck_false hlen] at hr
    cases hr

lemma retrieveUntil_spec (h : b.Ok) {off : ℕ} (hoff : off ≤ b.readableBytes) :
    ∃ b', b.retrieveUntil (b.readerIndex + off) = .ok b' ∧ Effect b b' (b.readable.drop off) := by
  have hw := h.le_writer
  have h2 : b.readerIndex + off ≤ b.writerIndex := by unfold readableBytes at hoff; omega
  simp only [retrieveUntil, dcheck_true (Nat.le_add_right _ off), dcheck_true h2, ok_bind,
    Nat.add_sub_cancel_left]
  exact retrieve_spec h hoff

lemma retrieveAsString_spec (h : b.Ok) {len : ℕ} (hlen : len ≤ b.readableBytes) :
    ∃ b', b.retrieveAsString len = .ok (b.readable.take len, b') ∧
      Effect b b' (b.readable.drop len) := by
  obtain ⟨b', hr, he⟩ := retrieve_spec h hlen
  refine ⟨b', ?_, he⟩
  simp only [retrieveAsString, dcheck_true hlen, ok_bind, hr, peek_eq_take hlen]
  rfl

lemma unwrite_spec (h : b.Ok) {len : ℕ} (hlen : len ≤ b.readableBytes) :
    ∃ b', b.unwrite len = .ok b' ∧
      Effect b b' (b.readable.take (b.readable.length - len)) := by
  obtain ⟨pre, post, hb, hc⟩ := h.eq_layout
  generalize b.readable = q at hb hc ⊢
  subst hb
  simp only [layout_readableBytes] at hlen
  refine ⟨layout pre (q.take (q.length - len)) (q.drop (q.length - len) ++ post), ?_, ?_⟩
  · simp only [unwrite, layout_readableBytes, dcheck_true hlen, ok_bind]
    have hq : pre ++ (q.take (q.length - len) ++ (q.drop (q.length - len) ++ post)) = pre ++ (q ++ post) := by
      rw [← List.append_assoc (q.take _), List.take_append_drop]
    simp [layout, pure, Except.pure, hq]
    omega
  · exact ⟨layout_ok (by simp; omega), by simp, id⟩

/-! ### Making space -/

/-- **`MakeSpace` keeps the content**, whether it resizes or moves, and `DCHECK(kCheapPrepend < reader_index_)`
holds whenever it moves: too few bytes are writable, yet with the prependable ones there are
`len + kCheapPrepend`. -/
theorem makeSpace_spec (h : b.Ok) {len : ℕ} (hlen : b.writableBytes < len) :
    ∃ b', b.makeSpace len = .ok b' ∧ Effect b b' b.readable ∧ len ≤ b'.writableBytes := by
  obtain ⟨pre, post, hb, hc⟩ := h.eq_layout
  generalize b.readable = q at hb hc ⊢
  subst hb
  simp only [layout_writableBytes] at hlen
  by_cases hsp : post.length + pre.length < len + kCheapPrepend
  · refine ⟨layout pre q (post ++ List.replicate (len - post.length) 0), ?_, ?_, by simp; omega⟩
    · simp only [makeSpace, layout_writableBytes, layout_prependableBytes, if_pos hsp]
      have hz : pre.length + q.length + len - (pre.length + (q.length + post.length)) =
          len - post.length := by omega
      have ht : (pre ++ (q ++ post)).take (pre.length + q.length + len) = pre ++ (q ++ post) :=
        List.take_of_length_le (by simp; omega)
      simp [layout, resize, pure, Except.pure, hz, ht]
    · exact ⟨layout_ok (by simp; omega), by simp, id⟩
  · have hcheap : kCheapPrepend < (layout pre q post).readerIndex := by simp [layout]; omega
    have hpre : kCheapPrepend < pre.length := hcheap
    -- the moved content lands behind the first bytes of `pre` and overwrites the rest of `pre`
    have htake : (pre.take kCheapPrepend).length = kCheapPrepend := by simp; omega
    have hcopy : copyAt (layout pre q post).buffer kCheapPrepend q =
        .ok (pre.take kCheapPrepend ++ q ++ (pre.drop kCheapPrepend ++ q ++ post).drop q.length) := by
      have hbuf : (layout pre q post).buffer =
          pre.take kCheapPrepend ++ (pre.drop kCheapPrepend ++ q ++ post) := by
        simp [layout, ← List.append_assoc]
      have := copyAt_append (u := pre.take kCheapPrepend) (v := pre.drop kCheapPrepend ++ q ++ post) q
        (by simp; omega)
      rwa [htake, ← hbuf] at this
    have hlay : ∀ rest, IOBuffer.mk (pre.take kCheapPrepend ++ q ++ rest) kCheapPrepend
        (kCheapPrepend + q.length) = layout (pre.take kCheapPrepend) q rest := by
      intro rest
      rw [layout, htake]
    refine ⟨layout (pre.take kCheapPrepend) q ((pre.drop kCheapPrepend ++ q ++ post).drop q.length),
      ?_, ?_, ?_⟩
    · simp only [makeSpace, layout_writableBytes, layout_prependableBytes, if_neg hsp,
        dcheck_true hcheap, ok_bind, layout_readable, hcopy, layout_readableBytes, hlay, dcheck_true]
      rfl
    · refine ⟨layout_ok (by simp; omega), by simp, ?_⟩
      intro _
      rw [layout_prependableBytes, htake]
    · simp
      omega

lemma ensureWritableBytes_spec (h : b.Ok) (len : ℕ) :
    ∃ b', b.ensureWritableBytes len = .ok b' ∧ Effect b b' b.readable ∧ len ≤ b'.writableBytes := by
  by_cases hlt : b.writableBytes < len
  · obtain ⟨b', hm, he, hl⟩ := makeSpace_spec h hlt
    refine ⟨b', ?_, he, hl⟩
    simp only [ensureWritableBytes, if_pos hlt, hm, ok_bind, dcheck_true hl]
    rfl
  · refine ⟨b, ?_, ⟨h, rfl, id⟩, by omega⟩
    simp only [ensureWritableBytes, if_neg hlt, pure_bind, dcheck_true (Nat.le_of_not_lt hlt), ok_bind]
    rfl

/-! ### Putting bytes in -/

lemma fill_hasWritten_spec (h : b.Ok) {data : List UInt8} (hlen : data.length ≤ b.writableBytes) :
    ∃ b', (b.fill data >>= fun b' => b'.hasWritten data.length) = .ok b' ∧
      Effect b b' (b.readable ++ data) := by
  obtain ⟨pre, post, hb, hc⟩ := h.eq_layout
  generalize b.readable = q at hb hc ⊢
  subst hb
  simp only [layout_writableBytes] at hlen
  refine ⟨layout pre (q ++ data) (post.drop data.length), ?_, ?_⟩
  · rw [layout_fill _ _ _ hlen, ok_bind, hasWritten, dcheck_true (by simp [layout, writableBytes]; omega)]
    simp [layout, pure, Except.pure]
    omega
  · exact ⟨layout_ok (by simp; omega), by simp, id⟩

lemma write_spec (h : b.Ok) (data : List UInt8) :
    ∃ b', b.write data = .ok b' ∧ Effect b b' (b.readable ++ data) := by
  obtain ⟨b₁, h₁, e₁, hl⟩ := ensureWritableBytes_spec h data.length
  obtain ⟨b₂, h₂, e₂⟩ := fill_hasWritten_spec e₁.ok hl
  refine ⟨b₂, by rw [write, h₁, ok_bind, h₂], e₂.ok, by rw [e₂.queue, e₁.queue], fun hp => e₂.cheap (e₁.cheap hp)⟩

lemma prepend_spec (h : b.Ok) {data : List UInt8} (hlen : data.length ≤ b.prependableBytes) :
    ∃ b', b.prepend data = .ok b' ∧ b'.Ok ∧ b'.readable = data ++ b.readable := by
  obtain ⟨pre, post, hb, hc⟩ := h.eq_layout
  generalize b.readable = q at hb hc ⊢
  subst hb
  simp only [layout_prependableBytes] at hlen
  refine ⟨layout (pre.take (pre.length - data.length)) (data ++ q) post, ?_,
    layout_ok (by simp; omega), by simp⟩
  have htake : (pre.take (pre.length - data.length)).length = pre.length - data.length := by simp
  have hrest : (pre.drop (pre.length - data.length)).length = data.length := by simp; omega
  have hcopy : copyAt (layout pre q post).buffer ((layout pre q post).readerIndex - data.length) data =
      .ok (pre.take (pre.length - data.length) ++ data ++ (q ++ post)) := by
    have hbuf : (layout pre q post).buffer = pre.take (pre.length - data.length) ++
        (pre.drop (pre.length - data.length) ++ (q ++ post)) := by
      simp [layout, ← List.append_assoc]
    have := copyAt_append (u := pre.take (pre.length - data.length))
      (v := pre.drop (pre.length - data.length) ++ (q ++ post)) data (by simp; omega)
    rw [htake, ← hbuf, List.drop_left' hrest] at this
    exact this
  rw [prepend, dcheck_true (by exact hlen), ok_bind, hcopy, ok_bind]
  simp [layout, pure, Except.pure]
  omega

lemma readFd_bytes_spec (h : b.Ok) {data : List UInt8} (hlen : data.length ≤ b.offered) :
    ∃ b', b.readFd (.bytes data) = .ok ((data.length : ℤ).bmod (2 ^ 32), b') ∧ Effect b b' (b.readable ++ data) := by
  obtain ⟨pre, post, hb, hc⟩ := h.eq_layout
  generalize b.readable = q at hb hc ⊢
  subst hb
  have hfill := layout_fill pre q post (show (data.take post.length).length ≤ post.length by simp)
  by_cases hle : data.length ≤ post.length
  · refine ⟨layout pre (q ++ data) (post.drop data.length), ?_, layout_ok (by simp; omega), by simp, id⟩
    rw [List.take_of_length_le hle] at hfill
    simp only [readFd, if_neg (Nat.not_lt.2 hlen), layout_writableBytes, List.take_of_length_le hle,
      hfill, ok_bind, if_pos hle]
    simp [layout, pure, Except.pure]
    omega
  · -- the vector is full now; the rest goes through `Write`
    have htl : (data.take post.length).length = post.length := by simp; omega
    have hfull : layout pre (q ++ data.take post.length) [] =
        { layout pre q post with
          buffer := pre ++ q ++ data.take post.length
          writerIndex := (pre ++ q ++ data.take post.length).length } := by
      simp [layout]
    have hfok : (layout pre (q ++ data.take post.length) []).Ok := layout_ok (by simp; omega)
    obtain ⟨b', hw, he⟩ := write_spec hfok (data.drop post.length)
    refine ⟨b', ?_, he.ok, by rw [he.queue]; simp, he.cheap⟩
    rw [htl, List.drop_length, List.append_nil] at hfill
    rw [hfull] at hw
    simp only [readFd, if_neg (Nat.not_lt.2 hlen), layout_writableBytes, hfill, ok_bind, if_neg hle, hw]
    rfl

/-- A read has put `data` behind the content, by `ReadFd` or by `Write`. -/
def Appends (b : IOBuffer) (data : List UInt8) (b' : IOBuffer) : Prop :=
  b.write data = .ok b' ∨ ∃ n, b.readFd (.bytes data) = .ok (n, b')

lemma Appends.spec {data : List UInt8} {b' : IOBuffer} (ha : b.Appends data b') (h : b.Ok) :
    Effect b b' (b.readable ++ data) := by
  rcases ha with hw | ⟨n, hr⟩
  · obtain ⟨b'', hw', he⟩ := write_spec h data
    rw [hw] at hw'
    cases hw'
    exact he
  · have hle : data.length ≤ b.offered := by
      by_contra hlt
      rw [readFd, if_pos (by omega)] at hr
      cases hr
    obtain ⟨b'', hr', he⟩ := readFd_bytes_spec h hle
    rw [hr] at hr'
    rw [(Prod.mk.inj (Except.ok.inj hr')).2]
    exact he

/-- The cast to `int` keeps the length of the content exactly below `2 ^ 31`, within the `max_size()` of a vector
of `char`. -/
lemma pieceLength_eq_iff (h : b.readableBytes < 2 ^ 63) :
    b.pieceLength = b.readableBytes ↔ b.readableBytes < 2 ^ 31 := by
  unfold pieceLength
  have h1 := Int.bmod_lt (x := (b.readableBytes : ℤ)) (m := 2 ^ 32) (by omega)
  have h2 := Int.le_bmod (x := (b.readableBytes : ℤ)) (m := 2 ^ 32) (by omega)
  constructor
  · intro he
    omega
  · intro hlt
    rw [Int.bmod_eq_of_le (by omega) (by omega)]
    omega

lemma pieceLength_wrap (h : b.readableBytes = 2 ^ 32) : b.pieceLength = 0 := by
  have hint : (b.readableBytes : ℤ) = 2 ^ 32 := by omega
  unfold pieceLength
  rw [hint]
  rfl

/-- What `Shrink` copies is the content as long as its length survives the cast. -/
lemma toStringPiece_eq (h : b.Ok) (hlen : b.readableBytes < 2 ^ 31) :
    b.toStringPiece = .ok b.readable := by
  have hcast := (pieceLength_eq_iff (b := b) (by omega)).2 hlen
  have hr := h.le_writer
  have hs := h.le_size
  rw [toStringPiece, hcast, if_pos (by unfold readableBytes; omega)]
  rfl

lemma length_of_toStringPiece {piece : List UInt8} (h : b.toStringPiece = .ok piece) :
    piece.length = b.pieceLength := by
  unfold toStringPiece at h
  split at h
  · rw [← Except.ok.inj h]
    simp only [peek, List.length_take, List.length_drop]
    omega
  · cases h

lemma shrink_eq (reserve : ℕ) {piece : List UInt8} (hp : b.toStringPiece = .ok piece) :
    ∃ b', b.shrink reserve = .ok b' ∧ b'.Ok ∧ b'.readable = piece ∧
      kCheapPrepend ≤ b'.prependableBytes := by
  obtain ⟨b₁, h₁, e₁, -⟩ := ensureWritableBytes_spec (new_ok kInitialSize) (b.readableBytes + reserve)
  obtain ⟨b₂, h₂, e₂⟩ := write_spec e₁.ok piece
  refine ⟨b₂, ?_, e₂.ok, by rw [e₂.queue, e₁.queue, new_readable, List.nil_append],
    e₂.cheap (e₁.cheap le_rfl)⟩
  simp only [shrink, h₁, ok_bind, hp, h₂]
  rfl

lemma shrink_spec (h : b.Ok) (reserve : ℕ) (hlen : b.readableBytes < 2 ^ 31) :
    ∃ b', b.shrink reserve = .ok b' ∧ Effect b b' b.readable := by
  obtain ⟨b', hs, hok, hq, hc⟩ := shrink_eq reserve (toStringPiece_eq h hlen)
  exact ⟨b', hs, hok, hq, fun _ => hc⟩

/-- **`Shrink` keeps the content exactly below `2 ^ 31` readable bytes.** -/
theorem shrink_keeps_iff (h : b.Ok) (hmax : b.buffer.length < 2 ^ 63) (reserve : ℕ) :
    (∃ b', b.shrink reserve = .ok b' ∧ b'.readable = b.readable) ↔ b.readableBytes < 2 ^ 31 := by
  constructor
  · rintro ⟨b', hs, hq⟩
    obtain ⟨piece, hp⟩ : ∃ piece, b.toStringPiece = .ok piece := by
      simp only [shrink] at hs
      obtain ⟨other, -, hs⟩ := bind_eq_ok.1 hs
      obtain ⟨piece, hp, -⟩ := bind_eq_ok.1 hs
      exact ⟨piece, hp⟩
    obtain ⟨b'', hs', -, hq', -⟩ := shrink_eq reserve hp
    have hb : b'' = b' := by rw [hs] at hs'; cases hs'; rfl
    have hlen : piece.length = b.readableBytes := by rw [← hq', hb, hq, h.readable_length]
    refine (pieceLength_eq_iff ?_).1 (length_of_toStringPiece hp ▸ hlen)
    have := h.le_size
    unfold readableBytes
    omega
  · intro hlen
    obtain ⟨b', hs, e⟩ := shrink_spec h reserve hlen
    exact ⟨b', hs, e.queue⟩

end Specs

end IOBuffer

end Zutils.Net
