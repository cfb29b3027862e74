import Mathlib.Data.List.Induction
import Zutils.Base.ByteStreamChecks

/-!
# The failure of a read is not sticky

Once `Fail()` is true, `>>` should do nothing, and a `>>` that fails should leave the cursor and its variable alone. For
the numbers of more than one byte this is so: `ReadRawData` tests `failed_` first. The operators for one byte do not
test it, and go on reading (`byte_read_after_failure`). A string is read in two steps, and when its characters are not
there the cursor stays behind its length.

`StickyAt` says where an operator keeps to the rule, of a stream in any state, and a list of reads does exactly if each
of them does (`reads_sticky_iff`).
-/

namespace Zutils.ByteStream

open Zutils.Lib

/-- A failure stays, and what fails changes neither the cursor nor the variable. -/
structure Sticky (s : ByteStream) (dest v : Value) (s' : ByteStream) : Prop where
  stays : s.failed = true → s'.failed = true
  keeps : s'.failed = true → v = dest ∧ s'.currentPos = s.currentPos

/-- Where the operator for a type keeps to the rule. One byte is read from a stream that has not failed, or not at all;
the characters of a string that pass the check of its length pass their own; and what passes a check is in the block. -/
def StickyAt (s : ByteStream) : FieldType → Prop
  | .bool | .char | .uint8 => s.RejectsByte ∨ s.failed = false ∧ s.Holds 1
  | .int16 | .uint16 => s.failed = true ∨ s.Rejects 2 ∨ s.Holds 2
  | .int32 | .uint32 => s.failed = true ∨ s.Rejects 4 ∨ s.Holds 4
  | .string => s.failed = true ∨ s.Rejects 4 ∨
      s.Holds 4 ∧ ¬ (s.advance 4).Rejects s.stringLength ∧ (s.advance 4).Holds s.stringLength.toNat

section Step

variable {s s' : ByteStream} {t : FieldType} {n : UInt32} {dest : Value}

lemma stickyAt_byte (ht : t.isByte = true) : s.StickyAt t ↔ s.RejectsByte ∨ s.failed = false ∧ s.Holds 1 := by
  cases t <;> first | rfl | cases ht

lemma stickyAt_raw (ht : t.rawSize = some n) : s.StickyAt t ↔ s.failed = true ∨ s.Rejects n ∨ s.Holds n.toNat := by
  cases t <;> first | (cases ht; rfl) | cases ht

lemma sticky_none (hpos : s'.currentPos = s.currentPos) (hf : s.failed = true → s'.failed = true) :
    Sticky s dest (assign dest none) s' :=
  ⟨hf, fun _ => ⟨rfl, hpos⟩⟩

lemma sticky_of_not_failed (hf : s.failed = false) (hf' : s'.failed = s.failed) (v : Value) : Sticky s dest v s' := by
  constructor
  · intro h
    rw [hf] at h
    cases h
  · intro h
    rw [hf', hf] at h
    cases h

/-- The operator returns, and keeps to the rule. -/
def KeepsRule (s : ByteStream) (dest : Value) : Prop := ∃ v s', s.extract dest = .ok (v, s') ∧ Sticky s dest v s'

lemma keepsRule_of_fetch {r : Option (List UInt8)} (h : s.fetch dest.1 = .ok (r, s')) :
    s.KeepsRule dest ↔ Sticky s dest (assign dest r) s' := by
  have hex : s.extract dest = .ok (assign dest r, s') := by
    rw [extract_eq, h]
    rfl
  constructor
  · rintro ⟨v, s'', hex', hs⟩
    obtain ⟨rfl, rfl⟩ := Prod.mk.inj (Except.ok.inj (hex.symm.trans hex'))
    exact hs
  · exact fun hs => ⟨_, _, hex, hs⟩

lemma not_keepsRule_of_fault {e : StreamFault} (h : s.fetch dest.1 = .error e) : ¬ s.KeepsRule dest := by
  rintro ⟨v, s', hex, -⟩
  rw [extract_eq, h] at hex
  cases hex

/-- A failure that moves the cursor. -/
lemma not_sticky_of_moved {v : Value} (hf : s'.failed = true) (hpos : s'.currentPos ≠ s.currentPos) :
    ¬ Sticky s dest v s' := fun hs => hpos (hs.keeps hf).2

lemma keepsRule_byte_iff (ht : dest.1.isByte = true) :
    s.KeepsRule dest ↔ s.RejectsByte ∨ s.failed = false ∧ s.Holds 1 := by
  by_cases hrej : s.RejectsByte
  · have hfetch : s.fetch dest.1 = .ok (none, { s with failed := true }) := by
      rw [fetch_byte ht, readByte_rejected hrej]
      rfl
    rw [keepsRule_of_fetch hfetch]
    exact iff_of_true (sticky_none rfl fun _ => rfl) (.inl hrej)
  by_cases hmem : s.Holds 1
  · have hfetch : s.fetch dest.1 = .ok (some [(s.front 1).getD 0 0], s.advance 1) := by
      rw [fetch_byte ht, readByte_held hrej hmem]
      rfl
    rw [keepsRule_of_fetch hfetch]
    rcases hf : s.failed with _ | _
    · exact iff_of_true (sticky_of_not_failed hf (advance_failed _ _) _) (.inr ⟨rfl, hmem⟩)
    · refine iff_of_false (not_sticky_of_moved hf (advance_ne (by decide))) ?_
      rintro (h | ⟨h, -⟩)
      · exact hrej h
      · cases h
  · have hfetch : s.fetch dest.1 = .error .outOfRange := by
      rw [fetch_byte ht, readByte_outside hrej hmem]
      rfl
    exact iff_of_false (not_keepsRule_of_fault hfetch) (fun h => h.elim hrej fun h => hmem h.2)

lemma keepsRule_raw_iff (ht : dest.1.rawSize = some n) :
    s.KeepsRule dest ↔ s.failed = true ∨ s.Rejects n ∨ s.Holds n.toNat := by
  rcases hf : s.failed with _ | _
  · have h0 := rawSize_ne_zero ht
    have hfetch := fetch_raw (s := s) ht
    by_cases hrej : s.Rejects n
    · rw [readRawData_rejected hf hrej] at hfetch
      rw [keepsRule_of_fetch hfetch]
      exact iff_of_true (sticky_none rfl fun _ => rfl) (.inr (.inl hrej))
    by_cases hmem : s.Holds n.toNat
    · rw [readRawData_held hf hrej h0 hmem] at hfetch
      rw [keepsRule_of_fetch hfetch]
      exact iff_of_true (sticky_of_not_failed hf (advance_failed _ _) _) (.inr (.inr hmem))
    · rw [readRawData_outside hf hrej h0 hmem] at hfetch
      refine iff_of_false (not_keepsRule_of_fault hfetch) ?_
      rintro (h | h | h)
      · cases h
      · exact hrej h
      · exact hmem h
  · have hfetch := fetch_raw (s := s) ht
    rw [readRawData_failed hf] at hfetch
    rw [keepsRule_of_fetch hfetch]
    exact iff_of_true (sticky_none rfl id) (.inl rfl)

lemma keepsRule_string_iff (ht : dest.1 = .string) :
    s.KeepsRule dest ↔ s.failed = true ∨ s.Rejects 4 ∨
      s.Holds 4 ∧ ¬ (s.advance 4).Rejects s.stringLength ∧ (s.advance 4).Holds s.stringLength.toNat := by
  have hfetch : s.fetch dest.1 = s.readString := by rw [ht]; rfl
  rcases hf : s.failed with _ | _
  · by_cases hrej : s.Rejects 4
    · rw [readString_rejected hf hrej] at hfetch
      rw [keepsRule_of_fetch hfetch]
      exact iff_of_true (sticky_none rfl fun _ => rfl) (.inr (.inl hrej))
    by_cases hmem : s.Holds 4
    · rw [readString_held hf hrej hmem] at hfetch
      by_cases hrej' : (s.advance 4).Rejects s.stringLength
      · -- the length has been read, and the characters are refused
        rw [readChars_rejected hrej'] at hfetch
        rw [keepsRule_of_fetch hfetch]
        refine iff_of_false (not_sticky_of_moved rfl (advance_ne (by decide))) ?_
        rintro (h | h | ⟨-, h, -⟩)
        · cases h
        · exact hrej h
        · exact h hrej'
      by_cases hmem' : (s.advance 4).Holds s.stringLength.toNat
      · rw [readChars_held hrej' hmem'] at hfetch
        rw [keepsRule_of_fetch hfetch]
        exact iff_of_true (sticky_of_not_failed hf ((advance_failed _ _).trans (advance_failed _ _)) _) (.inr (.inr ⟨hmem, hrej', hmem'⟩))
      · rw [readChars_outside hrej' hmem'] at hfetch
        refine iff_of_false (not_keepsRule_of_fault hfetch) ?_
        rintro (h | h | ⟨-, -, h⟩)
        · cases h
        · exact hrej h
        · exact hmem' h
    · rw [readString_outside hf hrej hmem] at hfetch
      refine iff_of_false (not_keepsRule_of_fault hfetch) ?_
      rintro (h | h | ⟨h, -⟩)
      · cases h
      · exact hrej h
      · exact hmem h
  · rw [readString_failed hf] at hfetch
    rw [keepsRule_of_fetch hfetch]
    exact iff_of_true (sticky_none rfl id) (.inl rfl)

/-- **One operator keeps to the rule exactly where `StickyAt` says.** -/
theorem keepsRule_iff (s : ByteStream) (dest : Value) : s.KeepsRule dest ↔ s.StickyAt dest.1 := by
  rcases dest.1.cases with ht | ⟨n, ht⟩ | ht
  · rw [keepsRule_byte_iff ht, stickyAt_byte ht]
  · rw [keepsRule_raw_iff ht, stickyAt_raw ht]
  · rw [keepsRule_string_iff ht, ht]
    rfl

end Step

/-! ### Lists of reads -/

section Runs

variable {s₀ : ByteStream} {dests : List Value}

lemma readAll_of_keepsRule
    (h : ∀ pre dest vs s, pre ++ [dest] <+: dests → readAll extract s₀ pre = .ok (vs, s) → s.KeepsRule dest) :
    ∀ pre, pre <+: dests → ∃ vs s, readAll extract s₀ pre = .ok (vs, s) := by
  intro pre
  induction pre using List.reverseRec with
  | nil => exact fun _ => ⟨[], s₀, rfl⟩
  | append_singleton pre dest ih =>
    intro hpre
    obtain ⟨vs, s, hrun⟩ := ih ((List.prefix_append pre [dest]).trans hpre)
    obtain ⟨v, s', hex, -⟩ := h pre dest vs s hpre hrun
    exact ⟨vs ++ [v], s', readAll_append.2 ⟨vs, [v], s, hrun, readAll_singleton hex, rfl⟩⟩

lemma readAll_failed {pre suf : List Value} {vs : List Value} {s : ByteStream}
    (h : ∀ pre dest vs s, pre ++ [dest] <+: dests → readAll extract s₀ pre = .ok (vs, s) → s.KeepsRule dest)
    (hdests : pre ++ suf = dests) (hrun : readAll extract s₀ pre = .ok (vs, s)) (hf : s.failed = true) :
    ∃ s', readAll extract s suf = .ok (suf, s') ∧ s'.failed = true ∧ s'.currentPos = s.currentPos := by
  induction suf generalizing pre vs s with
  | nil => exact ⟨s, rfl, hf, rfl⟩
  | cons dest suf ih =>
    have hpre : pre ++ [dest] ++ suf = dests := by rw [List.append_assoc]; exact hdests
    obtain ⟨v, s₁, hex, hsticky⟩ := h pre dest vs s ⟨suf, hpre⟩ hrun
    have hf₁ := hsticky.stays hf
    obtain ⟨rfl, hpos⟩ := hsticky.keeps hf₁
    have hrun₁ := readAll_append.2 ⟨vs, [v], s, hrun, readAll_singleton hex, rfl⟩
    obtain ⟨s', hrest, hf', hpos'⟩ := ih hpre hrun₁ hf₁
    refine ⟨s', ?_, hf', hpos'.trans hpos⟩
    rw [readAll, hex]
    dsimp only
    rw [hrest]

end Runs

/-- **A list of reads keeps to the rule exactly if each of them is where `StickyAt` says.** The stream may be in any
state. If they keep to the rule, all that follow a failure change neither the cursor nor their variables, and `Fail()`
is true at the end. -/
theorem reads_sticky_iff (s₀ : ByteStream) (dests : List Value) :
    ((∀ pre dest, pre ++ [dest] <+: dests → ∃ vs s v s', readAll extract s₀ pre = .ok (vs, s) ∧
        s.extract dest = .ok (v, s') ∧ Sticky s dest v s') ↔
      ∀ pre dest vs s, pre ++ [dest] <+: dests → readAll extract s₀ pre = .ok (vs, s) → s.StickyAt dest.1) ∧
    ((∀ pre dest vs s, pre ++ [dest] <+: dests → readAll extract s₀ pre = .ok (vs, s) → s.StickyAt dest.1) →
      ∀ pre suf vs s, pre ++ suf = dests → readAll extract s₀ pre = .ok (vs, s) → s.failed = true →
        ∃ s', readAll extract s suf = .ok (suf, s') ∧ s'.failed = true ∧ s'.currentPos = s.currentPos) := by
  have hkeeps : (∀ pre dest vs s, pre ++ [dest] <+: dests → readAll extract s₀ pre = .ok (vs, s) →
      s.StickyAt dest.1) → ∀ pre dest vs s, pre ++ [dest] <+: dests → readAll extract s₀ pre = .ok (vs, s) →
        s.KeepsRule dest :=
    fun h pre dest vs s hpre hrun => (keepsRule_iff s dest).2 (h pre dest vs s hpre hrun)
  refine ⟨⟨?_, ?_⟩, fun h pre suf vs s => readAll_failed (hkeeps h)⟩
  · intro h pre dest vs s hpre hrun
    obtain ⟨vs', s₁, v, s', hrun', hex, hsticky⟩ := h pre dest hpre
    obtain ⟨rfl, rfl⟩ := Prod.mk.inj (Except.ok.inj (hrun.symm.trans hrun'))
    exact (keepsRule_iff s dest).1 ⟨v, s', hex, hsticky⟩
  · intro h pre dest hpre
    obtain ⟨vs, s, hrun⟩ := readAll_of_keepsRule (hkeeps h) pre ((List.prefix_append pre [dest]).trans hpre)
    obtain ⟨v, s', hex, hsticky⟩ := hkeeps h pre dest vs s hpre hrun
    exact ⟨vs, s, v, s', hrun, hex, hsticky⟩

/-- **One byte is read after a failure.** The buffer has one byte; two of them are not there, and then one of them is
read all the same. A string of nine characters of which one is there leaves the cursor behind its length. -/
theorem byte_read_after_failure :
    (¬ ∀ pre dest, pre ++ [dest] <+: [(⟨.uint16, 0⟩ : Value), ⟨.uint8, 0⟩] → ∃ vs s v s',
      readAll extract (ofBuffer (some [7]) 0 1) pre = .ok (vs, s) ∧ s.extract dest = .ok (v, s') ∧
        Sticky s dest v s') ∧
    ¬ ∀ pre dest, pre ++ [dest] <+: [(⟨.string, []⟩ : Value)] → ∃ vs s v s',
      readAll extract (ofBuffer (some [0, 0, 0, 9, 7]) 0 5) pre = .ok (vs, s) ∧ s.extract dest = .ok (v, s') ∧
        Sticky s dest v s' := by
  constructor
  · intro h
    obtain ⟨vs, s, v, s', hrun, hex, hsticky⟩ := h [⟨.uint16, 0⟩] ⟨.uint8, 0⟩ (List.prefix_refl _)
    obtain ⟨-, rfl⟩ := Prod.mk.inj (Except.ok.inj hrun)
    obtain ⟨-, rfl⟩ := Prod.mk.inj (Except.ok.inj hex)
    exact absurd (hsticky.keeps rfl).2 (by decide)
  · intro h
    obtain ⟨vs, s, v, s', hrun, hex, hsticky⟩ := h [] ⟨.string, []⟩ (List.prefix_refl _)
    obtain ⟨-, rfl⟩ := Prod.mk.inj (Except.ok.inj hrun)
    obtain ⟨-, rfl⟩ := Prod.mk.inj (Except.ok.inj hex)
    exact absurd (hsticky.keeps rfl).2 (by decide)

end Zutils.ByteStream
