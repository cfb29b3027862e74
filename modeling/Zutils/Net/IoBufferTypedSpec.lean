import Zutils.Lib.Wire
import Zutils.Net.IoBufferSpec
import Zutils.Net.IoBufferTyped

/-!
# What is written, prepended and read of a typed integer

An integer has `bytes`, in the order that its type names: a `Write` member appends them, a `Prepend` member puts them in
front and a `Read` member takes them off, on either host. Each of the three is one lemma over all the types. The type
`LittleEndianInt16` falls out of the last two: its `Read` takes two bytes more, and its `Prepend` has the other order.

From the lemmas follow the round trip of a list (`roundTrips_iff`) and of one integer in front of a content
(`prepends_iff`), each with exactly this type left out.
-/

namespace Zutils.Net.IOBuffer.OnHost

open Lib

/-- `sizeof` of the type. -/
def IntType.width : IntType → ℕ
  | .bigEndianInt64 | .bigEndianUint64 | .littleEndianInt64 | .littleEndianUint64 => 8
  | .bigEndianInt32 | .bigEndianUint32 | .littleEndianInt32 | .littleEndianUint32 => 4
  | .bigEndianInt16 | .bigEndianUint16 | .littleEndianInt16 | .littleEndianUint16 => 2
  | .int8 | .uint8 => 1

/-- The bytes of the integer, in the order of its type. -/
def bytes : TypedInt → List UInt8
  | ⟨.bigEndianInt64, x⟩ => Host.big (Int64.toUInt64 x)
  | ⟨.bigEndianUint64, x⟩ => @Host.big UInt64 _ x
  | ⟨.littleEndianInt64, x⟩ => Host.little (Int64.toUInt64 x)
  | ⟨.littleEndianUint64, x⟩ => @Host.little UInt64 _ x
  | ⟨.bigEndianInt32, x⟩ => Host.big (Int32.toUInt32 x)
  | ⟨.bigEndianUint32, x⟩ => @Host.big UInt32 _ x
  | ⟨.littleEndianInt32, x⟩ => Host.little (Int32.toUInt32 x)
  | ⟨.littleEndianUint32, x⟩ => @Host.little UInt32 _ x
  | ⟨.bigEndianInt16, x⟩ => Host.big (Int16.toUInt16 x)
  | ⟨.bigEndianUint16, x⟩ => @Host.big UInt16 _ x
  | ⟨.littleEndianInt16, x⟩ => Host.little (Int16.toUInt16 x)
  | ⟨.littleEndianUint16, x⟩ => @Host.little UInt16 _ x
  | ⟨.int8, x⟩ => Host.little (Int8.toUInt8 x)
  | ⟨.uint8, x⟩ => @Host.little UInt8 _ x

@[simp] lemma bytes_length (v : TypedInt) : (bytes v).length = v.1.width := by
  obtain ⟨t, x⟩ := v
  cases t
  case bigEndianInt64 | bigEndianUint64 | bigEndianInt32 | bigEndianUint32 | bigEndianInt16 | bigEndianUint16 =>
    exact Host.big_length _
  all_goals exact Host.little_length _

lemma flatMap_bytes_length (vs : List TypedInt) :
    (vs.flatMap bytes).length = (vs.map fun v => v.1.width).sum := by
  simp [List.length_flatMap]

/-- The buffer is one, and its content is `q`. -/
def Ahead (b : IOBuffer) (q : List UInt8) : Prop := b.Ok ∧ b.readable = q

section Members

variable {host : Host} {b : IOBuffer} {W : Type} [Word W]

/-! ### Writing and prepending -/

lemma writeWord_toBig (x : W) : writeWord host b (host.toBig x) = b.write (Host.big x) := by
  rw [writeWord, Host.store_toBig]

lemma writeWord_toLittle (x : W) : writeWord host b (host.toLittle x) = b.write (Host.little x) := by
  rw [writeWord, Host.store_toLittle]

lemma prependWord_toBig (x : W) : prependWord host b (host.toBig x) = b.prepend (Host.big x) := by
  rw [prependWord, Host.store_toBig]

lemma prependWord_toLittle (x : W) : prependWord host b (host.toLittle x) = b.prepend (Host.little x) := by
  rw [prependWord, Host.store_toLittle]

lemma toLittle_byte (x : UInt8) : host.toLittle x = x := by
  cases host <;> rfl

/-- **Every `Write` member appends the bytes of the integer.** -/
lemma write_eq (v : TypedInt) : write host b v = b.write (bytes v) := by
  obtain ⟨t, x⟩ := v
  cases t
  case bigEndianInt64 | bigEndianUint64 | bigEndianInt32 | bigEndianUint32 | bigEndianInt16 | bigEndianUint16 =>
    exact writeWord_toBig _
  case int8 | uint8 => exact (congrArg (writeWord host b) (toLittle_byte _)).symm.trans (writeWord_toLittle _)
  all_goals exact writeWord_toLittle _

/-- **Every `Prepend` member but one** prepends the bytes of the integer. -/
lemma prepend_eq {v : TypedInt} (hv : v.1 ≠ .littleEndianInt16) : prepend host b v = b.prepend (bytes v) := by
  obtain ⟨t, x⟩ := v
  cases t
  case littleEndianInt16 => exact absurd rfl hv
  case bigEndianInt64 | bigEndianUint64 | bigEndianInt32 | bigEndianUint32 | bigEndianInt16 | bigEndianUint16 =>
    exact prependWord_toBig _
  case int8 | uint8 => exact (congrArg (prependWord host b) (toLittle_byte _)).symm.trans (prependWord_toLittle _)
  all_goals exact prependWord_toLittle _

/-! ### Reading -/

variable {q rest bs : List UInt8}

lemma peekWord_eq (h : Ahead b (bs ++ rest)) (hlen : bs.length = Word.size W) :
    peekWord host b W = .ok (host.load bs) := by
  have hsize : Word.size W ≤ b.readableBytes := by
    rw [← h.1.readable_length, h.2, List.length_append]
    omega
  rw [peekWord, dcheck_true hsize, ok_bind, peek_eq_take hsize, h.2, ← hlen, List.take_left]
  rfl

lemma peekBig_eq {x : W} (h : Ahead b (Host.big x ++ rest)) :
    (do return host.toBig (← peekWord host b W)) = (Except.ok x : Except Fault W) := by
  rw [peekWord_eq h (Host.big_length x), ok_bind, Host.toBig_load]
  rfl

lemma peekLittle_eq {x : W} (h : Ahead b (Host.little x ++ rest)) :
    (do return host.toLittle (← peekWord host b W)) = (Except.ok x : Except Fault W) := by
  rw [peekWord_eq h (Host.little_length x), ok_bind, Host.toLittle_load]
  rfl

lemma peekByte_eq {x : UInt8} (h : Ahead b (Host.little x ++ rest)) : peekWord host b UInt8 = .ok x := by
  have hpeek := @peekLittle_eq host b UInt8 _ rest x h
  simpa only [toLittle_byte, bind_pure] using hpeek

lemma peekSigned_eq {α β : Type} {value : Except Fault α} {x : α} (f : α → β) (h : value = .ok x) :
    (do return f (← value)) = (Except.ok (f x) : Except Fault β) := by
  rw [h]
  rfl

/-- **Every `Peek` member** gives the integer whose bytes the content begins with. -/
lemma peek_spec {v : TypedInt} (h : Ahead b (bytes v ++ rest)) : peek host b v.1 = .ok v.2 := by
  obtain ⟨t, x⟩ := v
  cases t with
  | bigEndianInt64 => exact peekSigned_eq UInt64.toInt64 (peekBig_eq h)
  | bigEndianUint64 => exact peekBig_eq h
  | littleEndianInt64 => exact peekSigned_eq UInt64.toInt64 (peekLittle_eq h)
  | littleEndianUint64 => exact peekLittle_eq h
  | bigEndianInt32 => exact peekSigned_eq UInt32.toInt32 (peekBig_eq h)
  | bigEndianUint32 => exact peekBig_eq h
  | littleEndianInt32 => exact peekSigned_eq UInt32.toInt32 (peekLittle_eq h)
  | littleEndianUint32 => exact peekLittle_eq h
  | bigEndianInt16 => exact peekSigned_eq UInt16.toInt16 (peekBig_eq h)
  | bigEndianUint16 => exact peekBig_eq h
  | littleEndianInt16 => exact peekSigned_eq UInt16.toInt16 (peekLittle_eq h)
  | littleEndianUint16 => exact peekLittle_eq h
  | int8 => exact peekSigned_eq UInt8.toInt8 (peekByte_eq h)
  | uint8 => exact peekByte_eq h

lemma readBy_peeked {α : Type} {peek : Except Fault α} {x : α} (h : Ahead b (bs ++ rest)) (hp : peek = .ok x) :
    ∃ b', readBy (peeked b peek) (fun b => b.retrieve bs.length) = .ok (x, b') ∧ Ahead b' rest := by
  have hlen : bs.length ≤ b.readableBytes := by
    rw [← h.1.readable_length, h.2, List.length_append]
    omega
  obtain ⟨b', hr, he⟩ := retrieve_spec h.1 hlen
  refine ⟨b', ?_, he.ok, by rw [he.queue, h.2, List.drop_left]⟩
  rw [hp]
  simp only [readBy, peeked, ok_bind, pure_bind, hr]
  rfl

/-- Every `Read` member but one peeks and retrieves the width of its type. -/
lemma read_eq {t : IntType} (ht : t ≠ .littleEndianInt16) :
    read host b t = typed t (readBy (peeked b (peek host b t)) (fun b => b.retrieve t.width)) := by
  cases t
  case littleEndianInt16 => exact absurd rfl ht
  all_goals rfl

/-- **Every `Read` member but one** takes the bytes of the integer off the content. -/
lemma read_spec {v : TypedInt} (hv : v.1 ≠ .littleEndianInt16) (h : Ahead b (bytes v ++ rest)) :
    ∃ b', read host b v.1 = .ok (v, b') ∧ Ahead b' rest := by
  have hpeek : peek host b v.1 = .ok v.2 := peek_spec h
  obtain ⟨b', hr, ha⟩ := readBy_peeked h hpeek
  rw [bytes_length] at hr
  refine ⟨b', ?_, ha⟩
  rw [read_eq hv, typed, hr]
  rfl

lemma of_readBy_eq_ok {α : Type} {value : Except Fault (α × IOBuffer)} {retrieve : IOBuffer → Except Fault IOBuffer}
    {x : α} {b' : IOBuffer} (hr : readBy value retrieve = .ok (x, b')) :
    ∃ b₁, value = .ok (x, b₁) ∧ retrieve b₁ = .ok b' := by
  obtain ⟨⟨y, b₁⟩, hvalue, hrest⟩ := bind_eq_ok.1 hr
  obtain ⟨b₂, hretrieve, heq⟩ := bind_eq_ok.1 hrest
  cases heq
  exact ⟨b₁, hvalue, hretrieve⟩

/-- **`ReadLittleEndianInt16` takes four bytes**, and there must be four. -/
lemma read_littleEndianInt16 {v : TypedInt} {b' : IOBuffer} (h : Ahead b q)
    (hr : read host b .littleEndianInt16 = .ok (v, b')) : 4 ≤ q.length ∧ Ahead b' (q.drop 4) := by
  obtain ⟨⟨x, b₁⟩, hread, hv⟩ := bind_eq_ok.1 hr
  obtain ⟨⟨y, b₂⟩, htwice, hx⟩ := bind_eq_ok.1 hread
  cases hv
  cases hx
  obtain ⟨b₃, hfirst, hsecond⟩ := of_readBy_eq_ok htwice
  obtain ⟨b₄, hpeek, hretrieve⟩ := of_readBy_eq_ok hfirst
  obtain ⟨z, -, hz⟩ := bind_eq_ok.1 hpeek
  cases hz
  -- the two calls of `RetrieveInt16`
  obtain ⟨hlen₁, e₁⟩ := of_retrieve_eq_ok h.1 hretrieve
  obtain ⟨hlen₂, e₂⟩ := of_retrieve_eq_ok e₁.ok hsecond
  rw [← e₁.ok.readable_length, e₁.queue, h.2, List.length_drop] at hlen₂
  refine ⟨by omega, e₂.ok, ?_⟩
  rw [e₂.queue, e₁.queue, h.2, List.drop_drop]

end Members

/-! ### A list that is written and read back -/

/-- Reading for the types of the list in turn gives the list, each read takes the width of its type off the content,
and `post` is what is left. -/
def ReadsBack (host : Host) : IOBuffer → List TypedInt → List UInt8 → Prop
  | b, [], post => b.readable = post
  | b, v :: vs, post => ∃ b', read host b v.1 = .ok (v, b') ∧ b'.readable = b.readable.drop v.1.width ∧
      ReadsBack host b' vs post

/-- **The round trip of a list.** The list is written behind what the buffer has, `post` is written behind the list,
what was in front is taken out, and the list is read back. -/
def RoundTrips (host : Host) (b : IOBuffer) (vs : List TypedInt) (post : List UInt8) : Prop :=
  ∃ b₁ b₂ b₃ written, vs.foldlM (write host) b = .ok b₁ ∧ b₁.readable = b.readable ++ written ∧
    written.length = (vs.map fun v => v.1.width).sum ∧
    b₁.write post = .ok b₂ ∧ b₂.readable = b.readable ++ written ++ post ∧
    b₂.retrieve b.readable.length = .ok b₃ ∧ b₃.readable = written ++ post ∧ ReadsBack host b₃ vs post

section Lists

variable {host : Host} {b : IOBuffer} {vs : List TypedInt} {post : List UInt8}

lemma write_appends (host : Host) (q : List UInt8) (v : TypedInt) :
    Lib.Appends bytes (fun b written => Ahead b (q ++ written)) (fun _ => True) (write host) v := by
  intro b written h _
  obtain ⟨b', hw, he⟩ := write_spec h.1 (bytes v)
  refine ⟨b', by rw [write_eq, hw], he.ok, ?_⟩
  rw [he.queue, h.2, List.append_assoc]

/-- **What is ahead is read back exactly without a `LittleEndianInt16`**: that read takes two bytes too many. -/
theorem readsBack_iff (h : Ahead b (vs.flatMap bytes ++ post)) :
    ReadsBack host b vs post ↔ ∀ v ∈ vs, v.1 ≠ .littleEndianInt16 := by
  induction vs generalizing b with
  | nil =>
    rw [List.flatMap_nil, List.nil_append] at h
    exact iff_of_true h.2 (by simp)
  | cons v vs ih =>
    rw [List.flatMap_cons, List.append_assoc] at h
    rw [List.forall_mem_cons, ReadsBack]
    constructor
    · rintro ⟨b', hread, hdrop, hrest⟩
      have hv : v.1 ≠ .littleEndianInt16 := by
        intro hv
        rw [hv] at hread hdrop
        obtain ⟨hlen, ha⟩ := read_littleEndianInt16 h hread
        -- four bytes are gone, and only two were to go
        have hlengths := congrArg List.length (ha.2.symm.trans hdrop)
        rw [h.2, List.length_drop, List.length_drop] at hlengths
        simp only [IntType.width] at hlengths
        omega
      obtain ⟨b'', hread', ha⟩ := read_spec hv h
      rw [hread] at hread'
      cases hread'
      exact ⟨hv, (ih ha).1 hrest⟩
    · rintro ⟨hv, hvs⟩
      obtain ⟨b', hread, ha⟩ := read_spec hv h
      refine ⟨b', hread, ?_, (ih ha).2 hvs⟩
      rw [ha.2, h.2, ← bytes_length v, List.drop_left]

/-- **Typed integers are read back as they were written exactly without a `LittleEndianInt16`.** -/
theorem roundTrips_iff (h : b.Ok) : RoundTrips host b vs post ↔ ∀ v ∈ vs, v.1 ≠ .littleEndianInt16 := by
  -- writing and taking out what was in front succeed for every list
  obtain ⟨b₁, hwrite, h₁⟩ := Lib.Appends.list (fun _ _ _ => trivial) vs
    (fun v _ => write_appends host b.readable v) b [] ⟨h, by simp⟩ trivial
  rw [List.nil_append] at h₁
  obtain ⟨b₂, hpost, e₂⟩ := write_spec h₁.1 post
  rw [h₁.2] at e₂
  have hlen : b.readable.length ≤ b₂.readableBytes := by
    rw [← e₂.ok.readable_length, e₂.queue, List.append_assoc, List.length_append]
    omega
  obtain ⟨b₃, hretrieve, e₃⟩ := retrieve_spec e₂.ok hlen
  rw [e₂.queue, List.append_assoc, List.drop_left] at e₃
  have hback : ReadsBack host b₃ vs post ↔ ∀ v ∈ vs, v.1 ≠ .littleEndianInt16 := readsBack_iff ⟨e₃.ok, e₃.queue⟩
  rw [← hback]
  constructor
  · rintro ⟨c₁, c₂, c₃, written, hc₁, -, -, hc₂, -, hc₃, -, hreads⟩
    cases hc₁.symm.trans hwrite
    cases hc₂.symm.trans hpost
    cases hc₃.symm.trans hretrieve
    exact hreads
  · intro hreads
    exact ⟨b₁, b₂, b₃, vs.flatMap bytes, hwrite, h₁.2, flatMap_bytes_length vs, hpost, e₂.queue, hretrieve,
      e₃.queue, hreads⟩

theorem roundTrips_three : RoundTrips .bigEndian (.new 0)
    [⟨.littleEndianUint16, (0x0102 : UInt16)⟩, ⟨.bigEndianInt64, (-1 : Int64)⟩, ⟨.int8, (-3 : Int8)⟩] [7] :=
  (roundTrips_iff (new_ok 0)).2 (by decide)

/-- The first read takes the bytes of both numbers. -/
theorem littleEndianInt16_twice : ¬ RoundTrips .littleEndian (.new 0)
    [⟨.littleEndianInt16, (0x0102 : Int16)⟩, ⟨.littleEndianInt16, (3 : Int16)⟩] [] := by
  rintro ⟨b₁, b₂, b₃, written, h₁, -, -, h₂, -, h₃, -, b₄, hread, -, b₅, hread', -⟩
  cases h₁
  cases h₂
  cases h₃
  cases hread
  cases hread'

end Lists

/-! ### An integer in front of a content -/

/-- What `Prepend` puts in front, `Read` of the same name takes off again. -/
def ReadsPrepended (host : Host) (b : IOBuffer) (v : TypedInt) : Prop :=
  ∃ b₁ b₂, prepend host b v = .ok b₁ ∧ read host b₁ v.1 = .ok (v, b₂) ∧ b₂.readable = b.readable

/-- `Prepend` leaves what writing the integer into an empty buffer, and the old content behind it, leaves. -/
def PrependsAsWritten (host : Host) (b : IOBuffer) (v : TypedInt) : Prop :=
  ∃ b₁, prepend host b v = .ok b₁ ∧ ∀ empty : IOBuffer, empty.Ok → empty.readable = [] →
    ∃ e₁ e₂, write host empty v = .ok e₁ ∧ e₁.write b.readable = .ok e₂ ∧ e₂.readable = b₁.readable

section Prepending

variable {host : Host} {b : IOBuffer} {v : TypedInt}

lemma IntType.width_le (t : IntType) : t.width ≤ 8 := by
  cases t <;> decide

/-- No type is too wide for the eight bytes. -/
lemma prepend_ahead (host : Host) (h : b.Ok) (hroom : 8 ≤ b.prependableBytes) (hv : v.1 ≠ .littleEndianInt16) :
    ∃ b', prepend host b v = .ok b' ∧ Ahead b' (bytes v ++ b.readable) := by
  have hwidth := v.1.width_le
  obtain ⟨b', hp, hok, hq⟩ := @prepend_spec b h (bytes v) (by rw [bytes_length]; omega)
  exact ⟨b', by rw [prepend_eq hv, hp], hok, hq⟩

/-- `PrependLittleEndianInt16` puts two bytes in front as well, in the other order. -/
lemma prepend_littleEndianInt16 (host : Host) (h : b.Ok) (hroom : 8 ≤ b.prependableBytes) (x : Int16) :
    ∃ b', prepend host b ⟨.littleEndianInt16, x⟩ = .ok b' ∧ Ahead b' (Host.big x.toUInt16 ++ b.readable) := by
  have hlen : (Host.big x.toUInt16).length ≤ b.prependableBytes := by
    rw [Host.big_length]
    exact Nat.le_trans (by decide : Word.size UInt16 ≤ 8) hroom
  obtain ⟨b', hp, hok, hq⟩ := prepend_spec h hlen
  exact ⟨b', (prependWord_toBig x.toUInt16).trans hp, hok, hq⟩

/-- **`Prepend` agrees with `Read` and with `Write` exactly for the types other than `LittleEndianInt16`.** -/
theorem prepends_iff (h : b.Ok) (hroom : 8 ≤ b.prependableBytes) :
    ReadsPrepended host b v ∧ PrependsAsWritten host b v ↔ v.1 ≠ .littleEndianInt16 := by
  constructor
  · rintro ⟨⟨b₁, b₂, hp, hread, hq⟩, -⟩ hv
    obtain ⟨t, x⟩ := v
    cases hv
    obtain ⟨b', hp', ha⟩ := prepend_littleEndianInt16 host h hroom x
    cases hp.symm.trans hp'
    -- four bytes are read, and two were put in front
    obtain ⟨hlen, ha'⟩ := read_littleEndianInt16 ha hread
    have hlengths := congrArg List.length (ha'.2.symm.trans hq)
    rw [List.length_append, Host.big_length] at hlen
    rw [List.length_drop, List.length_append, Host.big_length] at hlengths
    simp only [Word.size] at hlen hlengths
    omega
  · intro hv
    obtain ⟨b₁, hp, ha⟩ := prepend_ahead host h hroom hv
    obtain ⟨b₂, hread, ha'⟩ := read_spec hv ha
    refine ⟨⟨b₁, b₂, hp, hread, ha'.2⟩, b₁, hp, ?_⟩
    intro empty hempty hnil
    obtain ⟨e₁, hw₁, he₁⟩ := write_spec hempty (bytes v)
    obtain ⟨e₂, hw₂, he₂⟩ := write_spec he₁.ok b.readable
    refine ⟨e₁, e₂, by rw [write_eq, hw₁], hw₂, ?_⟩
    rw [he₂.queue, he₁.queue, hnil, List.nil_append, ha.2]

theorem prepends_minus_two : ReadsPrepended .littleEndian (.new 0) ⟨.littleEndianInt32, (-2 : Int32)⟩ ∧
    PrependsAsWritten .littleEndian (.new 0) ⟨.littleEndianInt32, (-2 : Int32)⟩ :=
  (prepends_iff (new_ok 0) (by decide)).2 (by decide)

/-- The two bytes of the number are in the wrong order, and there are no two more to take. -/
theorem prepended_swapped : ¬ (ReadsPrepended .littleEndian (.new 0) ⟨.littleEndianInt16, (0x0102 : Int16)⟩ ∧
    PrependsAsWritten .littleEndian (.new 0) ⟨.littleEndianInt16, (0x0102 : Int16)⟩) := by
  rintro ⟨-, b₁, hp, hwritten⟩
  cases hp
  obtain ⟨e₁, e₂, h₁, h₂, hq⟩ := hwritten (.new 0) (new_ok 0) (new_readable 0)
  cases h₁
  cases h₂
  revert hq
  decide

end Prepending

end Zutils.Net.IOBuffer.OnHost
