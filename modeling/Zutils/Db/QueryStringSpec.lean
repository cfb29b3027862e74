import Zutils.Base.ByteOrder
import Zutils.Db.QueryString

/-!
# What `MakeQueryString` substitutes

`rendering` is what is put in for a parameter, and `scanned` what the code takes for the pieces of a template. With them
the loop computes a filled template (`makeQueryString_eq`); the invariant is that what has been written, the text since
the last placeholder, and the rest of the template, filled with the parameters that are left, are the whole.

The template is filled as its pieces ask for if and only if the scan finds them (`substitutes_iff`).
-/

namespace Zutils.Db

open Zutils.Lib TemplatePiece

/-! ### Parameters -/

/-- What `StringAppendQ` appends for `v`. -/
def escape (v : List UInt8) : List UInt8 := v.flatMap fun c => if isEscaped c then [kBackslash, c] else [c]

def quoted (v : List UInt8) : List UInt8 := kQuote :: escape v ++ [kQuote]

/-- How many bytes are read at `param`. -/
def QueryParamItem.size (item : QueryParamItem) : ℕ :=
  match item.type with
  | .strEsc | .str | .blob => item.len.toNat
  | .str2 => (twice item.len).toNat
  | .int32 | .uint32 | .float => 4
  | .double => 8

/-- `param` is null, or points to enough memory. -/
def QueryParamItem.Readable (item : QueryParamItem) : Prop := ∀ p, item.param = some p → item.size ≤ p.length

/-- The text of a parameter. A string is not quoted in a placeholder that begins with `s`. -/
def rendering (platform : Platform) (next : UInt8) (item : QueryParamItem) : List UInt8 :=
  match item.param with
  | none => ascii ['N', 'U', 'L', 'L']
  | some p =>
    let v := p.take item.size
    match item.type with
    | .strEsc | .blob | .str2 => quoted v
    | .str => if next ≠ 0x73 then quoted v else escape v
    | .int32 => decimalInt (platform.int32 v)
    | .uint32 => decimal (platform.uint32 v).toNat
    | .float => platform.float v
    | .double => platform.double v

/-- The template with the parameters in its placeholders. -/
def fillParams (platform : Platform) : List (TemplatePiece UInt8) → List QueryParamItem → List UInt8 :=
  fill fun bs item => rendering platform (bs.getD 1 0) item

section Param

variable {platform : Platform} {item : QueryParamItem}

lemma stringAppendQ_eq {src : List UInt8} {count : ℕ} (h : count ≤ src.length) (dest : List UInt8) :
    stringAppendQ dest src count = .ok (dest ++ escape (src.take count)) := by
  induction count generalizing src dest with
  | zero => rw [stringAppendQ, List.take_zero, escape, List.flatMap_nil, List.append_nil]
  | succ count ih =>
    cases src with
    | nil => cases h
    | cons c src =>
      rw [stringAppendQ, ih (Nat.le_of_succ_le_succ h), List.take_succ_cons, escape, escape, List.flatMap_cons]
      split <;> simp

lemma readObject_eq {p : List UInt8} {n : ℕ} (h : n ≤ p.length) : readObject p n = .ok (p.take n) := if_pos h

/-- The text between the quotes; there is no call for the length 0. -/
lemma appendText_eq {p dest : List UInt8} {len count : ℤ} (hn : count.toNat ≤ p.length)
    (hlen : len = 0 → count.toNat = 0) :
    appendText dest p len count = .ok (dest ++ escape (p.take count.toNat)) := by
  rw [appendText]
  split
  · exact stringAppendQ_eq hn dest
  · rename_i h
    rw [hlen (not_not.1 h), List.take_zero, escape, List.flatMap_nil, List.append_nil]

lemma twice_zero : twice 0 = 0 := by decide

/-- **What is appended for a parameter** is its text. -/
lemma appendParam_eq (h : item.Readable) (next : UInt8) (dest : List UInt8) :
    appendParam platform next item dest = .ok (dest ++ rendering platform next item) := by
  obtain ⟨type, len, param⟩ := item
  cases param with
  | none => rfl
  | some p =>
    have hsize := h p rfl
    have hlen : len = 0 → len.toNat = 0 := fun h => by rw [h]; rfl
    have htwice : len = 0 → (twice len).toNat = 0 := fun h => by rw [h, twice_zero]; rfl
    cases type with
    | strEsc | blob =>
      simp only [appendParam, rendering, quoted, QueryParamItem.size] at hsize ⊢
      rw [appendText_eq hsize hlen]
      simp [pure, Except.pure]
    | str2 =>
      simp only [appendParam, rendering, quoted, QueryParamItem.size] at hsize ⊢
      rw [appendText_eq hsize htwice]
      simp [pure, Except.pure]
    | str =>
      simp only [appendParam, rendering, quoted, QueryParamItem.size] at hsize ⊢
      rw [appendText_eq hsize hlen]
      split <;> simp [pure, Except.pure]
    | int32 | uint32 | float | double =>
      simp only [appendParam, rendering, QueryParamItem.size] at hsize ⊢
      rw [readObject_eq hsize]
      rfl

/-- Of the byte behind the marker, it matters only whether it is an `s`. -/
lemma rendering_congr {a b : UInt8} (h : a = 0x73 ↔ b = 0x73) :
    rendering platform a item = rendering platform b item := by
  simp only [rendering, ne_eq, h]

end Param

/-! ### The loop -/

lemma runLength_eq (cs : List UInt8) : runLength cs = (cs.takeWhile isRun).length := by
  induction cs with
  | nil => rfl
  | cons c cs ih =>
    rw [runLength, List.takeWhile_cons]
    split
    · rw [ih, List.length_cons]
    · rfl

lemma scanned_next {marker run : UInt8 → Bool} (c : UInt8) {bs : List UInt8} (h : ∀ b ∈ bs.head?, marker b = false) :
    scanned marker run true (c :: bs) = text c :: scanned marker run true bs := by
  rw [scanned_skip]
  cases bs with
  | nil => rw [scanned_nil, scanned_nil]
  | cons b bs => rw [scanned_text (h b rfl), scanned_skip]

section Loop

variable (platform : Platform) (query : CString) (params : List QueryParamItem)

/-- What the scan takes for the pieces of the template from an index on. -/
def scannedFrom (i : ℕ) : List (TemplatePiece UInt8) := scanned isMarker isRun true (query.bytes.drop i)

/-- **The invariant of the loop.** With more parameters than `i` can count, nothing is said about the text. -/
structure ScanInv (s : QueryScan) : Prop where
  sp_le : s.sp ≤ query.bytes.length
  pprev_le : s.pprev ≤ s.sp
  i_le : params.length < 2 ^ 32 → s.i.toNat ≤ params.length
  holes_eq : params.length < 2 ^ 32 → s.i.toNat + holes (scannedFrom query s.sp) = holes (scannedFrom query 0)
  filled : params.length < 2 ^ 32 → s.queryString ++ (query.bytes.drop s.pprev).take (s.sp - s.pprev) ++
    fillParams platform (scannedFrom query s.sp) (params.drop s.i.toNat) = fillParams platform (scannedFrom query 0) params

/-- What is so when the loop is left. -/
def ScanDone : Option QueryScan → Prop
  | none => params.length < 2 ^ 32 → params.length < holes (scannedFrom query 0)
  | some s => s.pprev ≤ query.bytes.length ∧ (params.length < 2 ^ 32 → s.i.toNat = holes (scannedFrom query 0) ∧
      s.queryString ++ query.bytes.drop s.pprev = fillParams platform (scannedFrom query 0) params)

variable {platform query params} {s : QueryScan}

lemma scannedFrom_of_lt {i : ℕ} (h : i < query.bytes.length)
    (hnext : ∀ b, query.get (i + 1) = .ok b → isMarker b = false) :
    scannedFrom query i = text query.bytes[i] :: scannedFrom query (i + 1) := by
  rw [scannedFrom, List.drop_eq_getElem_cons h, scanned_next]
  · rfl
  · intro b hb
    apply hnext
    have hlt : i + 1 < query.bytes.length := by
      by_contra hge
      rw [List.drop_eq_nil_of_le (by omega)] at hb
      cases hb
    rw [List.drop_eq_getElem_cons hlt] at hb
    rw [CString.get_of_lt hlt, ← Option.some.inj hb]

/-- A placeholder at `i + 1` is taken to extend over the run behind it. -/
lemma scannedFrom_of_marker {i : ℕ} (h : i + 1 < query.bytes.length) (hm : isMarker query.bytes[i + 1] = true) :
    scannedFrom query i = text query.bytes[i] ::
      placeholder (query.bytes[i + 1] :: (query.bytes.drop (i + 2)).takeWhile isRun) ::
        scannedFrom query (i + 2 + runLength (query.bytes.drop (i + 2))) := by
  have hsplit := List.takeWhile_append_dropWhile (p := isRun) (l := query.bytes.drop (i + 2))
  have hrest : query.bytes.drop (i + 2 + runLength (query.bytes.drop (i + 2))) =
      (query.bytes.drop (i + 2)).dropWhile isRun := by
    rw [← List.drop_drop, runLength_eq]
    calc _ = ((query.bytes.drop (i + 2)).takeWhile isRun ++ (query.bytes.drop (i + 2)).dropWhile isRun).drop
          ((query.bytes.drop (i + 2)).takeWhile isRun).length := by rw [hsplit]
      _ = _ := List.drop_left' rfl
  rw [scannedFrom, List.drop_eq_getElem_cons (by omega), List.drop_eq_getElem_cons h, scanned_skip,
    scanned_marker hm, scannedFrom, hrest]

lemma ScanInv.init : ScanInv platform query params ⟨0, 0, 0, []⟩ where
  sp_le := Nat.zero_le _
  pprev_le := Nat.le_refl _
  i_le _ := Nat.zero_le _
  holes_eq _ := Nat.zero_add _
  filled _ := rfl

lemma scanRound_nul (hsp : s.sp = query.bytes.length) :
    scanRound platform query params s = .ok (.inr (some { s with sp := s.sp + 1 })) := by
  rw [scanRound, hsp, CString.get_length, ok_bind, if_pos rfl]
  rfl

lemma scanRound_skip (hsp : s.sp < query.bytes.length) {c : UInt8} (hc : query.get (s.sp + 1) = .ok c)
    (hm : isMarker c = false) : scanRound platform query params s = .ok (.inl { s with sp := s.sp + 1 }) := by
  rw [scanRound, CString.get_of_lt hsp, ok_bind, if_neg (CString.getElem_ne_zero hsp), hc, ok_bind,
    if_neg (Bool.eq_false_iff.1 hm)]
  rfl

lemma scanRound_end (hinv : ScanInv platform query params s) (hsp : s.sp = query.bytes.length) :
    ∃ r, scanRound platform query params s = .ok (.inr r) ∧ ScanDone platform query params r := by
  refine ⟨some { s with sp := s.sp + 1 }, scanRound_nul hsp, hinv.pprev_le.trans hinv.sp_le, fun hlt => ?_⟩
  have hempty : scannedFrom query s.sp = [] := by
    rw [scannedFrom, List.drop_eq_nil_of_le (Nat.le_of_eq hsp.symm), scanned_nil]
  have hholes := hinv.holes_eq hlt
  have hfilled := hinv.filled hlt
  rw [hempty, holes_nil, Nat.add_zero] at hholes
  rw [hempty, fillParams, fill, List.append_nil, List.take_of_length_le (by rw [List.length_drop]; omega)] at hfilled
  exact ⟨hholes, hfilled⟩

lemma take_drop_snoc {q : List UInt8} {i j : ℕ} (hij : i ≤ j) (hj : j < q.length) :
    (q.drop i).take (j + 1 - i) = (q.drop i).take (j - i) ++ [q[j]] := by
  have hlt : j - i < (q.drop i).length := by
    rw [List.length_drop]
    omega
  rw [Nat.succ_sub hij, List.take_succ_eq_append_getElem hlt, List.getElem_drop]
  simp only [Nat.add_sub_cancel' hij]

lemma scanRound_text (hinv : ScanInv platform query params s) (hsp : s.sp < query.bytes.length) {c : UInt8}
    (hc : query.get (s.sp + 1) = .ok c) (hm : isMarker c = false) :
    scanRound platform query params s = .ok (.inl { s with sp := s.sp + 1 }) ∧
      ScanInv platform query params { s with sp := s.sp + 1 } := by
  have hscan := scannedFrom_of_lt hsp fun b hb => by
    rw [← Except.ok.inj (hc.symm.trans hb)]
    exact hm
  refine ⟨scanRound_skip hsp hc hm, hsp, hinv.pprev_le.trans (Nat.le_succ _), hinv.i_le, fun hlt => ?_, fun hlt => ?_⟩
  · rw [← hinv.holes_eq hlt, hscan, holes_text]
  · rw [← hinv.filled hlt, hscan, fillParams, fill, take_drop_snoc hinv.pprev_le hsp, List.append_assoc,
      List.append_assoc, List.append_assoc]
    rfl

lemma scanRound_eq (hsp : s.sp + 1 < query.bytes.length) (hm : isMarker query.bytes[s.sp + 1] = true) :
    scanRound platform query params s =
      if s.i.toNat > lastIndex params then .ok (.inr none)
      else do
        let item ← paramAt params s.i
        let queryString := s.queryString ++ (← query.slice s.pprev (s.sp + 1))
        let queryString ← appendParam platform (← query.get (s.sp + 2)) item queryString
        let sp := s.sp + 2 + runLength (query.bytes.drop (s.sp + 2))
        return .inl ⟨sp, sp, s.i + 1, queryString⟩ := by
  rw [scanRound, CString.get_of_lt (by omega), ok_bind, if_neg (CString.getElem_ne_zero _), CString.get_of_lt hsp,
    ok_bind, if_pos hm]
  dsimp only
  rw [CString.offset_eq (by omega), ok_bind, if_neg (by omega)]
  rfl

/-- The byte behind a marker is an `s` when its placeholder begins with one. -/
lemma get_behind_marker {i : ℕ} (h : i + 1 < query.bytes.length) : ∃ next, query.get (i + 2) = .ok next ∧
    (next = 0x73 ↔ (query.bytes[i + 1] :: (query.bytes.drop (i + 2)).takeWhile isRun).getD 1 0 = 0x73) := by
  by_cases hlt : i + 2 < query.bytes.length
  · refine ⟨_, CString.get_of_lt hlt, ?_⟩
    rw [List.drop_eq_getElem_cons hlt, List.takeWhile_cons]
    split
    · rfl
    · rename_i hrun
      refine iff_of_false (fun hs => hrun ?_) (show ¬ (0 : UInt8) = 0x73 by decide)
      rw [hs]
      decide
  · obtain hend : query.bytes.length = i + 2 := by omega
    refine ⟨0, by rw [← hend]; exact CString.get_length, ?_⟩
    rw [List.drop_eq_nil_of_le (by omega), List.takeWhile_nil]
    exact iff_of_false (by decide) (show ¬ (0 : UInt8) = 0x73 by decide)

lemma ScanInv.put (hinv : ScanInv platform query params s) (hsp : s.sp + 1 < query.bytes.length)
    (hm : isMarker query.bytes[s.sp + 1] = true) (hi : s.i.toNat < params.length) {next : UInt8}
    (hnext : next = 0x73 ↔
      (query.bytes[s.sp + 1] :: (query.bytes.drop (s.sp + 2)).takeWhile isRun).getD 1 0 = 0x73) {sp : ℕ}
    (hsp' : sp = s.sp + 2 + runLength (query.bytes.drop (s.sp + 2))) :
    ScanInv platform query params ⟨sp, sp, s.i + 1, s.queryString ++
      (query.bytes.drop s.pprev).take (s.sp + 1 - s.pprev) ++ rendering platform next params[s.i.toNat]⟩ := by
  have hscan := scannedFrom_of_marker hsp hm
  rw [← hsp'] at hscan
  have hrun : runLength (query.bytes.drop (s.sp + 2)) ≤ query.bytes.length - (s.sp + 2) := by
    rw [runLength_eq, ← List.length_drop]
    exact (List.takeWhile_prefix _).length_le
  have hsucc : params.length < 2 ^ 32 → (s.i + 1).toNat = s.i.toNat + 1 := fun h32 => by
    rw [UInt32.toNat_add, UInt32.toNat_one]
    omega
  refine ⟨?_, Nat.le_refl _, fun h32 => ?_, fun h32 => ?_, fun h32 => ?_⟩
  · show sp ≤ _
    omega
  · rw [hsucc h32]
    exact hi
  · rw [hsucc h32, ← hinv.holes_eq h32, hscan, holes_text, holes_placeholder, Nat.add_assoc, Nat.add_comm 1]
  · rw [hsucc h32, ← hinv.filled h32, hscan, Nat.sub_self, List.take_zero, List.append_nil,
      take_drop_snoc hinv.pprev_le (by omega), rendering_congr hnext, List.drop_eq_getElem_cons hi]
    simp only [fillParams, fill, List.append_assoc, List.cons_append, List.nil_append]

/-- A marker is taken for a placeholder; without a parameter for it `MakeQueryString` fails. -/
lemma scanRound_marker (hne : params ≠ []) (hread : ∀ p ∈ params, p.Readable)
    (hinv : ScanInv platform query params s) (hsp : s.sp + 1 < query.bytes.length)
    (hm : isMarker query.bytes[s.sp + 1] = true) :
    (∃ r, scanRound platform query params s = .ok (.inr r) ∧ ScanDone platform query params r) ∨
      ∃ s', scanRound platform query params s = .ok (.inl s') ∧ ScanInv platform query params s' ∧ s.sp < s'.sp := by
  have hlength : params.length ≠ 0 := fun h => hne (List.length_eq_zero_iff.1 h)
  rw [scanRound_eq hsp hm, lastIndex, if_neg hlength]
  by_cases hi : s.i.toNat > params.length - 1
  · refine .inl ⟨none, if_pos hi, fun h32 => ?_⟩
    have hholes := hinv.holes_eq h32
    rw [scannedFrom_of_marker hsp hm, holes_text, holes_placeholder] at hholes
    omega
  · have hlt : s.i.toNat < params.length := by omega
    obtain ⟨next, hget, hnext⟩ := get_behind_marker hsp
    refine .inr ⟨_, ?_, hinv.put hsp hm hlt hnext rfl, by show s.sp < s.sp + 2 + _; omega⟩
    rw [if_neg hi, paramAt, List.getElem?_eq_getElem hlt, CString.slice_eq (hinv.pprev_le.trans (Nat.le_succ _))
      (Nat.le_of_lt hsp), hget]
    simp only [ok_bind]
    rw [appendParam_eq (hread _ (List.getElem_mem hlt)), ok_bind]
    rfl

/-- **One turn of the loop** leaves it, or goes on in the invariant. -/
lemma scanRound_step (hne : params ≠ []) (hread : ∀ p ∈ params, p.Readable) (s : QueryScan)
    (hinv : ScanInv platform query params s) :
    (∃ r, scanRound platform query params s = .ok (.inr r) ∧ ScanDone platform query params r) ∨
      ∃ s', scanRound platform query params s = .ok (.inl s') ∧ ScanInv platform query params s' ∧
        query.bytes.length - s'.sp < query.bytes.length - s.sp := by
  by_cases hsp : s.sp < query.bytes.length
  · by_cases hsp1 : s.sp + 1 < query.bytes.length
    · cases hm : isMarker query.bytes[s.sp + 1] with
      | true =>
        refine (scanRound_marker hne hread hinv hsp1 hm).imp id ?_
        rintro ⟨s', hround, hinv', hlt⟩
        exact ⟨s', hround, hinv', by omega⟩
      | false =>
        obtain ⟨hround, hinv'⟩ := scanRound_text hinv hsp (CString.get_of_lt hsp1) hm
        exact .inr ⟨_, hround, hinv', by show query.bytes.length - (s.sp + 1) < _; omega⟩
    · have hend : s.sp + 1 = query.bytes.length := by omega
      obtain ⟨hround, hinv'⟩ := scanRound_text hinv hsp (by rw [hend]; exact CString.get_length) rfl
      exact .inr ⟨_, hround, hinv', by show query.bytes.length - (s.sp + 1) < _; omega⟩
  · exact .inl (scanRound_end hinv (Nat.le_antisymm hinv.sp_le (Nat.le_of_not_lt hsp)))

/-- **The loop ends**, and what it leaves is what the scan has found. -/
lemma rounds_scanRound (hne : params ≠ []) (hread : ∀ p ∈ params, p.Readable) {fuel : ℕ}
    (hfuel : query.bytes.length < fuel) : ∃ r, ScanDone platform query params r ∧
      rounds (scanRound platform query params) fuel ⟨0, 0, 0, []⟩ = some (.ok r) := by
  obtain ⟨r, hr, hrounds⟩ := rounds_total (fun s : QueryScan => query.bytes.length - s.sp) (scanRound_step hne hread)
    ⟨0, 0, 0, []⟩ (ScanInv.init : ScanInv platform query params _)
  exact ⟨r, hr, hrounds fuel hfuel⟩

/-- **What `MakeQueryString` computes** for parameters that can be read, as the scan has it. -/
theorem makeQueryString_eq (platform : Platform) (query : CString) (hne : params ≠ [])
    (hread : ∀ p ∈ params, p.Readable) (lmt : UInt32) (before : List UInt8) {fuel : ℕ} (hfuel : query.bytes.length < fuel) :
    makeQueryString platform fuel (some query) (some params) lmt (some before) = some (.ok
      (if params.length < 2 ^ 32 ∧ holes (scannedFrom query 0) = params.length then
        (true, some (fillParams platform (scannedFrom query 0) params ++ limitClause lmt))
      else (false, some []))) := by
  obtain ⟨r, hr, hrounds⟩ : ∃ r, ScanDone platform query params r ∧
      rounds (scanRound platform query params) fuel ⟨0, 0, 0, []⟩ = some (.ok r) := rounds_scanRound hne hread hfuel
  rw [makeQueryString, hrounds]
  cases r with
  | none =>
    have hfail : ¬ (params.length < 2 ^ 32 ∧ holes (scannedFrom query 0) = params.length) := fun ⟨h32, heq⟩ => by
      have hlt := hr h32
      omega
    rw [if_neg hfail]
    rfl
  | some s =>
    obtain ⟨hpprev, hdone⟩ := hr
    have hi := s.i.toNat_lt
    simp only [Option.map_some, ok_bind, CString.offset_eq hpprev]
    by_cases h : params.length < 2 ^ 32 ∧ holes (scannedFrom query 0) = params.length
    · obtain ⟨hcount, hfilled⟩ := hdone h.1
      rw [if_pos h, if_neg (by omega), hfilled]
      rfl
    · have hcount : s.i.toNat ≠ params.length := fun heq => by
        have h32 : params.length < 2 ^ 32 := by omega
        exact h ⟨h32, (hdone h32).1.symm.trans heq⟩
      rw [if_neg h, if_pos hcount]
      rfl

end Loop

/-! ### The substitution -/

section Substitution

variable (platform : Platform) (query : CString) (lmt : UInt32)

/-- The pieces of the template. -/
def templateOf : List (TemplatePiece UInt8) := pieces isMarker isRun query.bytes

/-- What is asked of `MakeQueryString`: with one parameter for each placeholder the result is the filled template, with
a `LIMIT` behind it for `lmt`, and otherwise it fails and leaves nothing. -/
def Substitutes : Prop :=
  ∀ params, params ≠ [] → (∀ p ∈ params, p.Readable) → ∀ before fuel, query.bytes.length < fuel →
    makeQueryString platform fuel (some query) (some params) lmt (some before) = some (.ok
      (if holes (templateOf query) = params.length then
        (true, some (fillParams platform (templateOf query) params ++ limitClause lmt))
      else (false, some [])))

/-- An empty blob. -/
def emptyBlob : QueryParamItem := ⟨.blob, 0, some []⟩

variable {platform query lmt}

lemma emptyBlob_readable {n : ℕ} : ∀ p ∈ List.replicate n emptyBlob, p.Readable := by
  intro p hp
  rw [List.eq_of_mem_replicate hp]
  rintro _ ⟨⟩
  exact Nat.le_refl _

lemma replicate_ne_nil {n : ℕ} (h : n ≠ 0) : List.replicate n emptyBlob ≠ [] := fun hnil =>
  h (by rw [← List.length_replicate (n := n) (a := emptyBlob), hnil, List.length_nil])

lemma Substitutes.emptyBlobs (h : Substitutes platform query lmt) {n : ℕ} (hn : n ≠ 0) :
    (if holes (templateOf query) = n then
      (true, some (fillParams platform (templateOf query) (List.replicate n emptyBlob) ++ limitClause lmt))
    else (false, some [])) =
    (if n < 2 ^ 32 ∧ holes (scannedFrom query 0) = n then
      (true, some (fillParams platform (scannedFrom query 0) (List.replicate n emptyBlob) ++ limitClause lmt))
    else (false, some [])) := by
  have hcode := makeQueryString_eq platform query (replicate_ne_nil hn) emptyBlob_readable lmt []
    (Nat.lt_succ_self _)
  have hspec := h _ (replicate_ne_nil hn) emptyBlob_readable [] _ (Nat.lt_succ_self _)
  simpa using hspec.symm.trans hcode

/-- **The template is filled as it should be** if and only if its placeholders are fewer than `2 ^ 32` and separated;
or it has none, and the scan takes so many other markers for one that it fails with each number of parameters. -/
theorem substitutes_iff (platform : Platform) (query : CString) (lmt : UInt32) :
    Substitutes platform query lmt ↔
      Separated isMarker true (templateOf query) ∧ holes (templateOf query) < 2 ^ 32 ∨
        holes (templateOf query) = 0 ∧ 2 ^ 32 ≤ holes (scannedFrom query 0) := by
  have hscan : scannedFrom query 0 = templateOf query ↔ Separated isMarker true (templateOf query) :=
    scanned_eq_pieces_iff true query.bytes
  constructor
  · intro h
    by_cases hzero : holes (templateOf query) = 0
    · by_cases hfound : holes (scannedFrom query 0) = 0
      · refine .inl ⟨hscan.1 ?_, by omega⟩
        rw [eq_map_text hzero, eq_map_text hfound, templateOf, pieces_bytes, scannedFrom, scanned_bytes]
        rfl
      · -- as many parameters as the scan finds placeholders
        refine .inr ⟨hzero, ?_⟩
        by_contra hlt
        have heq := h.emptyBlobs hfound
        rw [if_neg (by omega), if_pos ⟨by omega, rfl⟩] at heq
        cases heq
    · have heq := h.emptyBlobs hzero
      rw [if_pos rfl] at heq
      have hcond : holes (templateOf query) < 2 ^ 32 ∧ holes (scannedFrom query 0) = holes (templateOf query) := by
        by_contra hnot
        rw [if_neg hnot] at heq
        cases heq
      rw [if_pos hcond] at heq
      refine .inl ⟨hscan.1 ?_, hcond.1⟩
      have hfill := List.append_cancel_right (Option.some.inj (Prod.mk.inj heq).2)
      refine scanned_eq_of_fill_eq (fun bs item => rendering platform (bs.getD 1 0) item) emptyBlob
        (fun _ => rfl) ⟨kQuote, [kQuote], rfl, by decide⟩ true query.bytes ?_
      have hholes := hcond.2
      rw [scannedFrom, List.drop_zero] at hholes hfill
      rw [hholes]
      exact hfill.symm
  · rintro (⟨hsep, h32⟩ | ⟨hzero, h32⟩) params hne hread before fuel hfuel
    · rw [makeQueryString_eq platform query hne hread lmt before hfuel, hscan.2 hsep]
      by_cases h : holes (templateOf query) = params.length
      · rw [if_pos ⟨by omega, h⟩, if_pos h]
      · rw [if_neg (fun hand => h hand.2), if_neg h]
    · have hlength : params.length ≠ 0 := fun h => hne (List.length_eq_zero_iff.1 h)
      rw [makeQueryString_eq platform query hne hread lmt before hfuel, if_neg (by omega), if_neg (by omega)]

end Substitution

/-- A little-endian host, without floating point. -/
def hostPlatform : Platform where
  uint32 p := UInt32.ofNat (beNat (p.take 4).reverse)
  float _ := []
  double _ := []

/-- `":1"` -/
def startTemplate : CString := ⟨[0x3A, 0x31], by decide⟩

/-- `" :1:2"` -/
def touchingTemplate : CString := ⟨[0x20, 0x3A, 0x31, 0x3A, 0x32], by decide⟩

/-- `"a%b:1"` -/
def bareTemplate : CString := ⟨[0x61, 0x25, 0x62, 0x3A, 0x31], by decide⟩

def nullParam : QueryParamItem := ⟨.str, 0, none⟩

/-- **What the scan does not see**: a placeholder at the start, and the second of two that touch. A `%` by itself is
taken for one. -/
theorem placeholders_missed :
    makeQueryString hostPlatform 6 (some startTemplate) (some [nullParam]) 0 (some []) = some (.ok (false, some [])) ∧
    makeQueryString hostPlatform 6 (some touchingTemplate) (some [nullParam, nullParam]) 0 (some []) =
      some (.ok (false, some [])) ∧
    makeQueryString hostPlatform 6 (some bareTemplate) (some [nullParam]) 0 (some []) = some (.ok (false, some [])) ∧
    ¬ Substitutes hostPlatform startTemplate 0 := by
  refine ⟨by decide, by decide, by decide, fun h => ?_⟩
  have hread : ∀ p ∈ [nullParam], p.Readable := by
    intro p hp
    rw [List.mem_singleton.1 hp]
    rintro _ ⟨⟩
  have hpieces : templateOf startTemplate = [placeholder [0x3A, 0x31]] := by
    rw [templateOf, startTemplate, pieces_placeholder (by decide)]
    exact congrArg _ (by rw [List.dropWhile_cons_of_pos (by decide), List.dropWhile_nil, pieces])
  have hone := h [nullParam] (List.cons_ne_nil _ _) hread [] 6 (by decide)
  rw [hpieces] at hone
  revert hone
  decide

end Zutils.Db
