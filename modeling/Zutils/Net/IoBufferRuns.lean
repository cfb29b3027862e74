import Zutils.Lib.Run
import Zutils.Net.IoBufferSpec
import Mathlib.Logic.Function.Basic

/-!
# Byte buffers refine byte queues

Any number of buffers, named by `ι`, each made by `IOBuffer(n)`, and any finite sequence of calls on them; `Swap`
exchanges two of them. The abstract side is one list of bytes for each name, and `Call.onQueues` says what a call
means there. `Call.Pre` is what the caller owes by the `DCHECK` of the method it calls, and nothing more.

`Shrink` copies through `ToStringPiece`, which casts the length of the content to `int`: from `2 ^ 31` readable
bytes on, `Shrink` loses content (`shrink_keeps_iff`). In the runs without such a `Shrink` the buffers refine the
queues (`buffers_refine_queues`).
-/

namespace Zutils.Net

open Zutils.Lib

/-- A call of one buffer with its arguments; `fill` is a store of `data` at `BeginWrite()` followed by
`HasWritten`, and the argument of `retrieveUntil` is the offset of `end` from `Peek()`. -/
inductive Op where
  | write (data : List UInt8)
  | ensureWritableBytes (len : ℕ)
  | fill (data : List UInt8)
  | unwrite (len : ℕ)
  | retrieve (len : ℕ)
  | retrieveUntil (off : ℕ)
  | retrieveAll
  | retrieveAsString (len : ℕ)
  | prepend (data : List UInt8)
  | shrink (reserve : ℕ)
  | readFd (r : ReadResult)
  deriving DecidableEq, Repr

namespace Op

def exec : Op → IOBuffer → Except Fault IOBuffer
  | write data, b => b.write data
  | ensureWritableBytes len, b => b.ensureWritableBytes len
  | fill data, b => b.fill data >>= fun b' => b'.hasWritten data.length
  | unwrite len, b => b.unwrite len
  | retrieve len, b => b.retrieve len
  | retrieveUntil off, b => b.retrieveUntil (b.readerIndex + off)
  | retrieveAll, b => .ok b.retrieveAll
  | retrieveAsString len, b => b.retrieveAsString len >>= fun r => .ok r.2
  | prepend data, b => b.prepend data
  | shrink reserve, b => b.shrink reserve
  | readFd r, b => b.readFd r >>= fun x => .ok x.2

/-- What the caller owes: the `DCHECK` of the method, and of the kernel that it fills no more than `readv` offers. -/
def Pre : Op → IOBuffer → Prop
  | fill data, b => data.length ≤ b.writableBytes
  | unwrite len, b | retrieve len, b | retrieveUntil len, b | retrieveAsString len, b => len ≤ b.readableBytes
  | prepend data, b => data.length ≤ b.prependableBytes
  | readFd (.bytes data), b => data.length ≤ b.offered
  | _, _ => True

instance : ∀ (op : Op) (b : IOBuffer), Decidable (op.Pre b)
  | fill _, _ | unwrite _, _ | retrieve _, _ | retrieveUntil _, _ | retrieveAsString _, _ | prepend _, _
  | readFd (.bytes _), _ => inferInstanceAs (Decidable (_ ≤ _))
  | write _, _ | ensureWritableBytes _, _ | retrieveAll, _ | shrink _, _ | readFd .error, _ =>
    inferInstanceAs (Decidable True)

/-- The length of the content survives the cast in `Shrink`. -/
def Fits : Op → IOBuffer → Prop
  | shrink _, b => b.readableBytes < 2 ^ 31
  | _, _ => True

/-- The meaning of a call on a plain byte queue. -/
def onQueue : Op → List UInt8 → List UInt8
  | write data, q | fill data, q => q ++ data
  | ensureWritableBytes _, q | shrink _, q | readFd .error, q => q
  | unwrite len, q => q.take (q.length - len)
  | retrieve len, q | retrieveUntil len, q | retrieveAsString len, q => q.drop len
  | retrieveAll, _ => []
  | prepend data, q => data ++ q
  | readFd (.bytes data), q => q ++ data

def isPrepend : Op → Bool
  | prepend _ => true
  | _ => false

/-- **One call**: it meets no failing check and does on the content what it means on the queue. -/
theorem exec_spec {op : Op} {b : IOBuffer} (h : b.Ok) (hpre : op.Pre b) (hfit : op.Fits b) :
    ∃ b', op.exec b = .ok b' ∧ b'.Ok ∧ b'.readable = op.onQueue b.readable ∧
      (op.isPrepend = false → IOBuffer.kCheapPrepend ≤ b.prependableBytes →
        IOBuffer.kCheapPrepend ≤ b'.prependableBytes) := by
  have effect : ∀ {b' : IOBuffer} {q : List UInt8}, IOBuffer.Effect b b' q → b'.Ok ∧ b'.readable = q ∧
      (op.isPrepend = false → IOBuffer.kCheapPrepend ≤ b.prependableBytes →
        IOBuffer.kCheapPrepend ≤ b'.prependableBytes) :=
    fun e => ⟨e.ok, e.queue, fun _ => e.cheap⟩
  cases op with
  | write data =>
    obtain ⟨b', he, e⟩ := IOBuffer.write_spec h data
    exact ⟨b', he, effect e⟩
  | ensureWritableBytes len =>
    obtain ⟨b', he, e, -⟩ := IOBuffer.ensureWritableBytes_spec h len
    exact ⟨b', he, effect e⟩
  | fill data =>
    obtain ⟨b', he, e⟩ := IOBuffer.fill_hasWritten_spec h hpre
    exact ⟨b', he, effect e⟩
  | unwrite len =>
    obtain ⟨b', he, e⟩ := IOBuffer.unwrite_spec h hpre
    exact ⟨b', he, effect e⟩
  | retrieve len =>
    obtain ⟨b', he, e⟩ := IOBuffer.retrieve_spec h hpre
    exact ⟨b', he, effect e⟩
  | retrieveUntil off =>
    obtain ⟨b', he, e⟩ := IOBuffer.retrieveUntil_spec h hpre
    exact ⟨b', he, effect e⟩
  | retrieveAll => exact ⟨_, rfl, effect (IOBuffer.retrieveAll_spec h)⟩
  | retrieveAsString len =>
    obtain ⟨b', he, e⟩ := IOBuffer.retrieveAsString_spec h hpre
    exact ⟨b', by rw [exec, he]; rfl, effect e⟩
  | prepend data =>
    obtain ⟨b', he, hok, hq⟩ := IOBuffer.prepend_spec h hpre
    exact ⟨b', he, hok, hq, by simp [isPrepend]⟩
  | shrink reserve =>
    obtain ⟨b', he, e⟩ := IOBuffer.shrink_spec h reserve hfit
    exact ⟨b', he, effect e⟩
  | readFd r =>
    cases r with
    | error => exact ⟨b, rfl, h, rfl, fun _ => id⟩
    | bytes data =>
      obtain ⟨b', he, e⟩ := IOBuffer.readFd_bytes_spec h hpre
      exact ⟨b', by rw [exec, he]; rfl, effect e⟩

end Op

/-! ### Many buffers -/

variable {ι : Type} [DecidableEq ι]

/-- A call on the buffer `i`, or `i.Swap(j)`. -/
inductive Call (ι : Type) where
  | on (i : ι) (op : Op)
  | swap (i j : ι)

namespace Call

def exec : Call ι → (ι → IOBuffer) → Except Fault (ι → IOBuffer)
  | on i op, s => op.exec (s i) >>= fun b => .ok (Function.update s i b)
  | swap i j, s => .ok (Function.update (Function.update s i ((s i).swap (s j)).1) j ((s i).swap (s j)).2)

def Pre : Call ι → (ι → IOBuffer) → Prop
  | on i op, s => op.Pre (s i)
  | swap _ _, _ => True

instance : ∀ (c : Call ι) (s : ι → IOBuffer), Decidable (c.Pre s)
  | on i op, s => inferInstanceAs (Decidable (op.Pre (s i)))
  | swap _ _, _ => inferInstanceAs (Decidable True)

def Fits : Call ι → (ι → IOBuffer) → Prop
  | on i op, s => op.Fits (s i)
  | swap _ _, _ => True

def onQueues : Call ι → (ι → List UInt8) → ι → List UInt8
  | on i op, q => Function.update q i (op.onQueue (q i))
  | swap i j, q => Function.update (Function.update q i (q j)) j (q i)

def isPrepend : Call ι → Bool
  | on _ op => op.isPrepend
  | swap _ _ => false

end Call

/-- The queues after the calls `cs`. -/
def queues (cs : List (Call ι)) : ι → List UInt8 := cs.foldl (fun q c => c.onQueues q) fun _ => []

/-- A call that respects the precondition of its method. -/
def Calls (s : ι → IOBuffer) (c : Call ι) (s' : ι → IOBuffer) : Prop := c.Pre s ∧ c.exec s = .ok s'

/-- The same, without a `Shrink` of `2 ^ 31` readable bytes or more. -/
def CallsFit (s : ι → IOBuffer) (c : Call ι) (s' : ι → IOBuffer) : Prop := Calls s c s' ∧ c.Fits s

/-- What holds of all buffers after the calls `cs`. -/
structure Refines (cs : List (Call ι)) (s : ι → IOBuffer) : Prop where
  ok : ∀ i, (s i).Ok
  queue : ∀ i, (s i).readable = queues cs i
  cheap : (∀ c ∈ cs, c.isPrepend = false) → ∀ i, IOBuffer.kCheapPrepend ≤ (s i).prependableBytes

lemma queues_append (cs : List (Call ι)) (c : Call ι) : queues (cs ++ [c]) = c.onQueues (queues cs) := by
  simp [queues]

/-- **One call keeps the refinement**, and no check fails in it. -/
theorem Refines.step {cs : List (Call ι)} {s : ι → IOBuffer} (h : Refines cs s) {c : Call ι}
    (hpre : c.Pre s) (hfit : c.Fits s) : ∃ s', c.exec s = .ok s' ∧ Refines (cs ++ [c]) s' := by
  have hnp : (∀ c' ∈ cs ++ [c], c'.isPrepend = false) →
      (∀ c' ∈ cs, c'.isPrepend = false) ∧ c.isPrepend = false := fun hall =>
    ⟨fun c' hc' => hall c' (by simp [hc']), hall c (by simp)⟩
  cases c with
  | on i op =>
    obtain ⟨b', he, hok, hq, hc⟩ := Op.exec_spec (h.ok i) hpre hfit
    refine ⟨Function.update s i b', by rw [Call.exec, he]; rfl, ?_, ?_, ?_⟩
    · intro k
      by_cases hk : k = i
      · subst hk; simpa using hok
      · simpa [hk] using h.ok k
    · intro k
      rw [queues_append, Call.onQueues]
      by_cases hk : k = i
      · subst hk; simp [hq, h.queue]
      · simp [hk, h.queue]
    · intro hall k
      obtain ⟨hcs, hop⟩ := hnp hall
      by_cases hk : k = i
      · subst hk; simpa using hc hop (h.cheap hcs k)
      · simpa [hk] using h.cheap hcs k
  | swap i j =>
    -- every buffer of the new state is one of the old ones
    have hold : ∀ k, ∃ k', Function.update (Function.update s i ((s i).swap (s j)).1) j
        ((s i).swap (s j)).2 k = s k' := by
      intro k
      by_cases hj : k = j
      · exact ⟨i, by subst hj; simp [IOBuffer.swap]⟩
      · by_cases hi : k = i
        · exact ⟨j, by subst hi; simp [hj, IOBuffer.swap]⟩
        · exact ⟨k, by simp [hj, hi]⟩
    refine ⟨_, rfl, ?_, ?_, ?_⟩
    · intro k
      obtain ⟨k', hk'⟩ := hold k
      rw [hk']; exact h.ok k'
    · intro k
      rw [queues_append, Call.onQueues]
      by_cases hj : k = j
      · subst hj; simp [IOBuffer.swap, h.queue]
      · by_cases hi : k = i
        · subst hi; simp [hj, IOBuffer.swap, h.queue]
        · simp [hj, hi, h.queue]
    · intro hall k
      obtain ⟨k', hk'⟩ := hold k
      rw [hk']; exact h.cheap (hnp hall).1 k'

lemma refines_new (n : ι → ℕ) : Refines [] fun i => IOBuffer.new (n i) where
  ok i := IOBuffer.new_ok (n i)
  queue i := by simp [queues]
  cheap _ _ := le_rfl

lemma refines_of_run {n : ι → ℕ} {cs : List (Call ι)} {s : ι → IOBuffer}
    (h : Run CallsFit (fun i => IOBuffer.new (n i)) cs s) : Refines cs s := by
  refine h.inv_of_exec (fun c s => c.Pre s ∧ c.Fits s) Call.exec ?_ (refines_new n) ?_
  · rintro s c s' ⟨⟨hpre, hexec⟩, hfit⟩
    exact ⟨⟨hpre, hfit⟩, hexec⟩
  · rintro cs s c href ⟨hpre, hfit⟩
    exact href.step hpre hfit

/-- **Byte buffers refine byte queues** in every run without a `Shrink` of `2 ^ 31` readable bytes or more: the
indices are ordered, the content is the queue, `EnsureWritableBytes` delivers, no check of a call that respects
its own precondition fails, and without a `Prepend` eight bytes stay prependable. -/
theorem buffers_refine_queues {n : ι → ℕ} {cs : List (Call ι)} {s : ι → IOBuffer}
    (h : Run CallsFit (fun i => IOBuffer.new (n i)) cs s) :
    (∀ i, (s i).readerIndex ≤ (s i).writerIndex ∧ (s i).writerIndex ≤ (s i).buffer.length) ∧
    (∀ i, (s i).readable = queues cs i) ∧
    (∀ i len, ∃ b, (s i).ensureWritableBytes len = .ok b ∧ len ≤ b.writableBytes) ∧
    (∀ c : Call ι, c.Pre s → c.Fits s → ∃ s', c.exec s = .ok s') ∧
    ((∀ c ∈ cs, c.isPrepend = false) → ∀ i, 8 ≤ (s i).prependableBytes) := by
  have href := refines_of_run h
  refine ⟨fun i => ⟨(href.ok i).le_writer, (href.ok i).le_size⟩, href.queue, ?_, ?_, href.cheap⟩
  · intro i len
    obtain ⟨b, he, -, hl⟩ := IOBuffer.ensureWritableBytes_spec (href.ok i) len
    exact ⟨b, he, hl⟩
  · intro c hpre hfit
    obtain ⟨s', he, -⟩ := href.step hpre hfit
    exact ⟨s', he⟩

theorem buffers_refine_queues_run : ∃ s : Unit → IOBuffer,
    Run CallsFit (fun _ => IOBuffer.new 0) [.on () (.write [1, 2, 3]), .on () (.retrieve 2)] s ∧
    (s ()).readable = [3] := by
  have h : Run CallsFit (fun _ : Unit => IOBuffer.new 0) [.on () (.write [1, 2, 3]), .on () (.retrieve 2)] _ :=
    (Run.nil.snoc ⟨⟨trivial, rfl⟩, trivial⟩).snoc ⟨⟨by decide, rfl⟩, trivial⟩
  exact ⟨_, h, (buffers_refine_queues h).2.1 ()⟩

/-- `2 ^ 32` readable bytes are `0` as an `int`: `Shrink` leaves nothing of them. -/
theorem shrink_loses_content : ∃ s : Unit → IOBuffer,
    Run Calls (fun _ => IOBuffer.new 0) [.on () (.write (List.replicate (2 ^ 32) 0)), .on () (.shrink 0)] s ∧
    (s ()).readable = [] ∧
    queues [.on () (.write (List.replicate (2 ^ 32) 0)), .on () (.shrink 0)] () ≠ [] := by
  generalize hd : List.replicate (2 ^ 32) (0 : UInt8) = data
  have hlen : data.length = 2 ^ 32 := by rw [← hd, List.length_replicate]
  obtain ⟨b, hw, e⟩ := IOBuffer.write_spec (IOBuffer.new_ok 0) data
  have hread : b.readable = data := by rw [e.queue, IOBuffer.new_readable, List.nil_append]
  have hbytes : b.readableBytes = 2 ^ 32 := by rw [← e.ok.readable_length, hread, hlen]
  have hpiece : b.toStringPiece = .ok [] := by
    have hle := Nat.le_trans e.ok.le_writer e.ok.le_size
    rw [IOBuffer.toStringPiece, IOBuffer.pieceLength_wrap hbytes, Nat.add_zero, if_pos hle]
    simp [IOBuffer.peek]
  obtain ⟨b', hs, -, hq, -⟩ := IOBuffer.shrink_eq 0 hpiece
  have hwrite : Calls (fun _ : Unit => IOBuffer.new 0) (.on () (.write data)) fun _ => b :=
    ⟨trivial, by rw [Call.exec, Op.exec, hw]; rfl⟩
  have hshrink : Calls (fun _ : Unit => b) (.on () (.shrink 0)) fun _ => b' :=
    ⟨trivial, by rw [Call.exec, Op.exec, hs]; rfl⟩
  refine ⟨fun _ => b', (Run.nil.snoc hwrite).snoc hshrink, hq, ?_⟩
  intro hnil
  have hdata : queues [.on () (.write data), .on () (.shrink 0)] () = data := by
    simp [queues, Call.onQueues, Op.onQueue]
  rw [← hdata, hnil] at hlen
  simp at hlen

end Zutils.Net
