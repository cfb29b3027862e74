import Mathlib.Logic.Relation
import Zutils.Db.QueryStringSpec

/-!
# The scan of `MakeQueryString` stays inside its inputs

For every template and every list of parameters, every read of the template should be at its NUL or in front of it, the
scan should end, and every index of a parameter should be in the list. The bound on the index is `param->size() - 1`,
which is the largest `size_t` for an empty list: then the first marker that the scan sees reads a parameter that is not
there (`stays_inside_iff`). The scan sees the markers that are not at the start.

How much memory there is behind the pointer of a parameter is not the concern of the scan: a fault there is let be.
-/

namespace Zutils.Db

open Zutils.Lib

section Bounds

variable (platform : Platform) (query : CString) (params : List QueryParamItem)

/-- The states that the scan comes to. -/
def Scans : QueryScan → Prop :=
  Relation.ReflTransGen (fun s s' => scanRound platform query params s = .ok (.inl s')) ⟨0, 0, 0, []⟩

/-- A fault in the memory of a parameter: the scan meets it in a turn in which its reads of the template are inside it
and the index is in the list, and what faults is the read at the pointer of the parameter. -/
def ParamFault (e : Fault) : Prop :=
  ∃ s item text next, Scans platform query params s ∧ scanRound platform query params s = .error e ∧
    params[s.i.toNat]? = some item ∧
    query.slice s.pprev (s.sp + 1) = .ok text ∧ query.get (s.sp + 2) = .ok next ∧
    appendParam platform next item (s.queryString ++ text) = .error e

/-- **`MakeQueryString` stays inside its inputs**: it ends, and a fault that it meets is one of `ParamFault`. -/
def StaysInside (lmt : UInt32) (before : List UInt8) : Prop :=
  ∃ r, (∀ fuel, query.bytes.length < fuel →
      makeQueryString platform fuel (some query) (some params) lmt (some before) = some r) ∧
    ∀ e, r = .error e → ParamFault platform query params e

/-- How the loop may end. -/
def InsideDone : Except Fault (Option QueryScan) → Prop
  | .error e => ParamFault platform query params e
  | .ok none => True
  | .ok (some s) => s.pprev ≤ query.bytes.length

variable {platform query params} {s : QueryScan}

/-- The pointers are inside the template. -/
structure Inside (platform : Platform) (query : CString) (params : List QueryParamItem) (s : QueryScan) : Prop where
  scans : Scans platform query params s
  sp_le : s.sp ≤ query.bytes.length
  pprev_le : s.pprev ≤ s.sp

lemma inside_start : Inside platform query params ⟨0, 0, 0, []⟩ :=
  ⟨Relation.ReflTransGen.refl, Nat.zero_le _, Nat.le_refl _⟩

/-- The byte behind the one at `sp`; at the end of the template it is the NUL, which is no marker. -/
lemma get_next (hsp : s.sp < query.bytes.length) : ∃ c, query.get (s.sp + 1) = .ok c ∧
    (isMarker c = true → ∃ h : s.sp + 1 < query.bytes.length, query.bytes[s.sp + 1] = c) := by
  by_cases h : s.sp + 1 < query.bytes.length
  · exact ⟨_, CString.get_of_lt h, fun _ => ⟨h, rfl⟩⟩
  · have hend : s.sp + 1 = query.bytes.length := by omega
    refine ⟨0, by rw [hend]; exact CString.get_length, fun hm => ?_⟩
    cases hm

lemma sp_le_of_run {i : ℕ} (h : i ≤ query.bytes.length) : i + runLength (query.bytes.drop i) ≤ query.bytes.length := by
  have hrun : runLength (query.bytes.drop i) ≤ query.bytes.length - i := by
    rw [runLength_eq, ← List.length_drop]
    exact (List.takeWhile_prefix _).length_le
  omega

lemma lt_of_not_gt_lastIndex (hne : params ≠ []) (hi : ¬ s.i.toNat > lastIndex params) :
    s.i.toNat < params.length := by
  have hlength : params.length ≠ 0 := fun h => hne (List.length_eq_zero_iff.1 h)
  rw [lastIndex, if_neg hlength] at hi
  omega

/-- A marker, where there are parameters: the scan fails, or meets a fault of the parameter, or goes on behind it. -/
lemma Inside.marker (hs : Inside platform query params s) (hne : params ≠ []) (hsp : s.sp + 1 < query.bytes.length)
    (hm : isMarker query.bytes[s.sp + 1] = true) :
    (∃ e, scanRound platform query params s = .error e ∧ ParamFault platform query params e) ∨
    scanRound platform query params s = .ok (.inr none) ∨
    ∃ s', scanRound platform query params s = .ok (.inl s') ∧ Inside platform query params s' ∧ s.sp < s'.sp := by
  have hround : scanRound platform query params s = _ := scanRound_eq hsp hm
  by_cases hi : s.i.toNat > lastIndex params
  · exact .inr (.inl (hround.trans (if_pos hi)))
  have hlt := lt_of_not_gt_lastIndex hne hi
  obtain ⟨next, hget, -⟩ := get_behind_marker hsp
  have hslice := CString.slice_eq (hs.pprev_le.trans (Nat.le_succ _)) (Nat.le_of_lt hsp)
  rw [if_neg hi, paramAt, List.getElem?_eq_getElem hlt, hslice, hget] at hround
  simp only [ok_bind] at hround
  rcases happend : appendParam platform next params[s.i.toNat]
      (s.queryString ++ (query.bytes.drop s.pprev).take (s.sp + 1 - s.pprev)) with e | queryString
  · rw [happend] at hround
    exact .inl ⟨e, hround, s, _, _, next, hs.scans, hround, List.getElem?_eq_getElem hlt, hslice, hget, happend⟩
  · rw [happend] at hround
    refine .inr (.inr ⟨_, hround, ⟨hs.scans.tail hround, sp_le_of_run (i := s.sp + 2) (by omega), Nat.le_refl _⟩, ?_⟩)
    show s.sp < s.sp + 2 + _
    omega

/-- **One turn of the loop** stays inside. -/
lemma Inside.step (hs : Inside platform query params s)
    (h : params ≠ [] ∨ ∀ c ∈ query.bytes.tail, isMarker c = false) :
    (∃ e, scanRound platform query params s = .error e ∧ InsideDone platform query params (.error e)) ∨
    (∃ b, scanRound platform query params s = .ok (.inr b) ∧ InsideDone platform query params (.ok b)) ∨
    ∃ s', scanRound platform query params s = .ok (.inl s') ∧ Inside platform query params s' ∧
      query.bytes.length - s'.sp < query.bytes.length - s.sp := by
  by_cases hsp : s.sp < query.bytes.length
  · obtain ⟨c, hc, hmark⟩ := get_next hsp
    cases hm : isMarker c with
    | false =>
      have hround : scanRound platform query params s = _ := scanRound_skip hsp hc hm
      have hpprev := hs.pprev_le
      refine .inr (.inr ⟨_, hround, ⟨hs.scans.tail hround, hsp, ?_⟩, ?_⟩)
      · show s.pprev ≤ s.sp + 1
        omega
      · show query.bytes.length - (s.sp + 1) < _
        omega
    | true =>
      obtain ⟨hlt, rfl⟩ := hmark hm
      have hne : params ≠ [] := by
        refine h.resolve_right fun hnone => ?_
        have hmem : query.bytes[s.sp + 1] ∈ query.bytes.tail := by
          rw [← List.getElem_tail (by rw [List.length_tail]; omega)]
          exact List.getElem_mem _
        rw [hnone _ hmem] at hm
        cases hm
      rcases hs.marker hne hlt hm with hfault | hnone | ⟨s', hround, hs', hmore⟩
      · exact .inl hfault
      · exact .inr (.inl ⟨none, hnone, trivial⟩)
      · exact .inr (.inr ⟨s', hround, hs', by omega⟩)
  · have hend := Nat.le_antisymm hs.sp_le (Nat.le_of_not_lt hsp)
    exact .inr (.inl ⟨_, scanRound_nul hend, hs.pprev_le.trans hs.sp_le⟩)

/-- **Without parameters, a marker is a fault**: the scan comes to it, and reads a parameter that is not there. -/
lemma rounds_no_params {c : UInt8} (hc : c ∈ query.bytes.tail) (hm : isMarker c = true) {fuel : ℕ}
    (hfuel : query.bytes.length < fuel) :
    rounds (scanRound platform query []) fuel ⟨0, 0, 0, []⟩ = some (.error .outOfRange) := by
  obtain ⟨j, hj, rfl⟩ := List.getElem_of_mem hc
  rw [List.getElem_tail] at hm
  rw [List.length_tail] at hj
  let Q : Except Fault (Option QueryScan) → Prop := fun r => r = .error .outOfRange
  -- the marker stays in front of the scan
  have hround : ∀ s : QueryScan, s.sp < j + 1 →
      (∃ e, scanRound platform query [] s = .error e ∧ Q (.error e)) ∨
      (∃ b, scanRound platform query [] s = .ok (.inr b) ∧ Q (.ok b)) ∨
      ∃ s', scanRound platform query [] s = .ok (.inl s') ∧ s'.sp < j + 1 ∧
        query.bytes.length - s'.sp < query.bytes.length - s.sp := by
    intro s hs
    have hsp : s.sp + 1 < query.bytes.length := by omega
    cases hmark : isMarker query.bytes[s.sp + 1] with
    | true =>
      have hi : ¬ s.i.toNat > lastIndex [] := by
        have hlt := s.i.toNat_lt
        have hlast : lastIndex [] = 2 ^ 64 - 1 := rfl
        omega
      refine .inl ⟨.outOfRange, ?_, rfl⟩
      rw [scanRound_eq hsp hmark, if_neg hi]
      rfl
    | false =>
      have hnext : s.sp + 1 < j + 1 := by
        by_contra hge
        obtain rfl : j = s.sp := by omega
        rw [hm] at hmark
        cases hmark
      refine .inr (.inr ⟨_, scanRound_skip (by omega) (CString.get_of_lt hsp) hmark, hnext, ?_⟩)
      show query.bytes.length - (s.sp + 1) < _
      omega
  obtain ⟨r, hr, hrounds⟩ := rounds_ends (fun s : QueryScan => query.bytes.length - s.sp) hround ⟨0, 0, 0, []⟩
    (Nat.succ_pos j)
  rw [hrounds fuel hfuel, show r = _ from hr]

lemma staysInside_of (lmt : UInt32) (before : List UInt8)
    (h : params ≠ [] ∨ ∀ c ∈ query.bytes.tail, isMarker c = false) :
    StaysInside platform query params lmt before := by
  obtain ⟨r, hdone, hrounds⟩ := rounds_ends (fun s : QueryScan => query.bytes.length - s.sp)
    (fun s (hs : Inside platform query params s) => hs.step h) ⟨0, 0, 0, []⟩ inside_start
  rcases r with e | s
  · refine ⟨.error e, fun fuel hfuel => ?_, ?_⟩
    · rw [makeQueryString, hrounds fuel hfuel]
      rfl
    · rintro e' ⟨⟩
      exact hdone
  rcases s with _ | s
  · refine ⟨.ok (false, some []), fun fuel hfuel => ?_, fun e he => by cases he⟩
    rw [makeQueryString, hrounds fuel hfuel]
    rfl
  · refine ⟨.ok (if s.i.toNat ≠ params.length then (false, some [])
      else (true, some (s.queryString ++ query.bytes.drop s.pprev ++ limitClause lmt))), fun fuel hfuel => ?_,
      fun e he => by cases he⟩
    rw [makeQueryString, hrounds fuel hfuel]
    simp only [Option.map_some, ok_bind, CString.offset_eq (show s.pprev ≤ query.bytes.length from hdone)]
    split <;> rfl

/-- **The scan stays inside its inputs exactly if there is a parameter, or no marker but at the start.** -/
theorem stays_inside_iff (platform : Platform) (query : CString) (params : List QueryParamItem) (lmt : UInt32)
    (before : List UInt8) : StaysInside platform query params lmt before ↔
      params ≠ [] ∨ ∀ c ∈ query.bytes.tail, isMarker c = false := by
  refine ⟨fun h => ?_, staysInside_of lmt before⟩
  obtain ⟨r, hr, hfault⟩ := h
  by_contra hnot
  obtain ⟨hnil, hmarker⟩ := not_or.1 hnot
  obtain rfl := not_not.1 hnil
  obtain ⟨c, hc, hm⟩ : ∃ c ∈ query.bytes.tail, isMarker c = true := by
    by_contra hno
    refine hmarker fun c hc => ?_
    by_contra hm
    exact hno ⟨c, hc, Bool.eq_true_of_not_eq_false hm⟩
  have hcall := hr _ (Nat.lt_succ_self _)
  rw [makeQueryString, rounds_no_params hc hm (Nat.lt_succ_self _)] at hcall
  obtain rfl := Option.some.inj hcall
  obtain ⟨s, item, -, -, -, -, hitem, -⟩ := hfault .outOfRange rfl
  cases hitem

end Bounds

/-- `"a:1"` -/
def letterTemplate : CString := ⟨[0x61, 0x3A, 0x31], by decide⟩

/-- **With an empty list of parameters the first one is read.** -/
theorem empty_list_read :
    makeQueryString hostPlatform 4 (some letterTemplate) (some []) 0 (some []) = some (.error .outOfRange) ∧
    ¬ StaysInside hostPlatform letterTemplate [] 0 [] := by
  have hcall : makeQueryString hostPlatform 4 (some letterTemplate) (some []) 0 (some []) =
      some (.error .outOfRange) := by decide
  refine ⟨hcall, ?_⟩
  rintro ⟨r, hr, hfault⟩
  obtain rfl := Option.some.inj ((hr 4 (by decide)).symm.trans hcall)
  obtain ⟨s, item, -, -, -, -, hitem, -⟩ := hfault .outOfRange rfl
  cases hitem

end Zutils.Db
