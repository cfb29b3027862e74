import Zutils.Base.StringNumber

/-!
# Connection strings (`base2/config_file_util.cc`)

`ParseFromConnString` goes over the memory behind a pointer until it finds a NUL; the length of the string piece is not
looked at. `b` is the begin of a segment, which ends at a `@` or a `/`, and `s` is its last `:`. So a string is parsed
segment by segment (`scan_segments`), and what `PrintDebugString` prints is read back (`parse_connString`).
-/

namespace Zutils.Config

/-- `DBAddrInfo`, as far as connection strings go. -/
structure DBAddrInfo where
  host : List UInt8 := []
  port : ℤ := 0
  user : List UInt8 := []
  passwd : List UInt8 := []
  dbName : List UInt8 := []
  deriving DecidableEq

/-- `base::StringPiece`: `length` bytes of a memory from `data` on. -/
structure StringPiece where
  memory : List UInt8
  data : ℕ
  length : ℕ

namespace DBAddrInfo

/-- `assign(b, e - b)`. -/
def slice (memory : List UInt8) (b e : ℕ) : List UInt8 := (memory.drop b).take (e - b)

/-- What is done at a `@`. -/
def assignUser (info : DBAddrInfo) (memory : List UInt8) (p b s : ℕ) : DBAddrInfo :=
  if s = b then { info with user := slice memory b p }
  else { info with user := slice memory b s, passwd := slice memory (s + 1) p }

/-- What is done at a `/`, with the `result` when there is a port. -/
def assignHostOrName (info : DBAddrInfo) (memory : List UInt8) (p b s : ℕ) : Bool × DBAddrInfo :=
  if info.host = [] then
    if s = b then (true, { info with host := slice memory b p })
    else
      let result := stringToInt (slice memory (s + 1) p) info.port
      (result.1, { info with host := slice memory b s, port := result.2 })
  else (true, { info with dbName := slice memory b p })

/-- The loop of `ParseFromConnString`, at `p` with the bytes from there on. -/
def scan (memory : List UInt8) (p b s : ℕ) (info : DBAddrInfo) : List UInt8 → Except Fault (Bool × DBAddrInfo)
  | [] => .error .outOfRange
  | c :: rest =>
    if c = 0 then .ok (true, info)
    else if c = 0x3A then scan memory (p + 1) b p info rest
    else if c = 0x40 then scan memory (p + 1) (p + 1) (p + 1) (info.assignUser memory p b s) rest
    else if c = 0x2F then
      match memory[b]? with
      | none => .error .outOfRange
      | some first =>
        if first = 0 then .ok (true, info)
        else
          let assigned := info.assignHostOrName memory p b s
          if assigned.1 then scan memory (p + 1) (p + 1) (p + 1) assigned.2 rest else .ok assigned
    else scan memory (p + 1) b s info rest

/-- `ParseFromConnString`. -/
def parseFromConnString (connString : StringPiece) (info : DBAddrInfo) : Except Fault (Bool × DBAddrInfo) :=
  scan connString.memory connString.data connString.data connString.data info
    (connString.memory.drop connString.data)

/-- What `PrintDebugString` prints, without the end of the line. -/
def debugString (info : DBAddrInfo) : List UInt8 :=
  info.user ++ 0x3A :: info.passwd ++ 0x40 :: info.host ++ 0x3A :: decimalInt info.port ++ 0x2F :: info.dbName ++ [0x2F]

end DBAddrInfo

/-! ### Segments -/

/-- What ends at a `@` or at a `/`, with the place of its last `:`. A `:` at the begin is taken for none. -/
structure Segment where
  isUser : Bool
  bytes : List UInt8
  colon : ℕ
  deriving DecidableEq

namespace Segment

/-- What stands in front of the last `:`. -/
def name (g : Segment) : List UInt8 := if g.colon = 0 then g.bytes else g.bytes.take g.colon

/-- What stands behind it. -/
def value (g : Segment) : Option (List UInt8) := if g.colon = 0 then none else some (g.bytes.drop (g.colon + 1))

/-- What a segment changes, and whether it has no bad port. -/
def assign (info : DBAddrInfo) (g : Segment) : Bool × DBAddrInfo :=
  if g.isUser then (true, { info with user := g.name, passwd := g.value.getD info.passwd })
  else if info.host = [] then
    match g.value with
    | none => (true, { info with host := g.name })
    | some port =>
      let result := stringToInt port info.port
      (result.1, { info with host := g.name, port := result.2 })
  else (true, { info with dbName := g.bytes })

/-- The segments one after the other, up to a bad port. -/
def assignAll (info : DBAddrInfo) : List Segment → Bool × DBAddrInfo
  | [] => (true, info)
  | g :: rest => if (g.assign info).1 then assignAll (g.assign info).2 rest else g.assign info

end Segment

/-- The segments of a text behind the begin `cur` of a segment with its last `:`. -/
def segmentsFrom (cur : List UInt8) (colon : ℕ) : List UInt8 → List Segment
  | [] => []
  | c :: rest =>
    if c = 0x3A then segmentsFrom (cur ++ [c]) cur.length rest
    else if c = 0x40 then ⟨true, cur, colon⟩ :: segmentsFrom [] 0 rest
    else if c = 0x2F then ⟨false, cur, colon⟩ :: segmentsFrom [] 0 rest
    else segmentsFrom (cur ++ [c]) colon rest

/-- The segments of a text. -/
def segmentsOf (text : List UInt8) : List Segment := segmentsFrom [] 0 text

namespace DBAddrInfo

section Scan

variable {memory u cur w : List UInt8} {info : DBAddrInfo} {colon : ℕ}

lemma slice_append (u v w : List UInt8) : slice (u ++ (v ++ w)) u.length (u.length + v.length) = v := by
  rw [slice, List.drop_left, Nat.add_sub_cancel_left, List.take_left]

lemma slice_colon (hcolon : colon < cur.length) :
    slice (u ++ (cur ++ w)) u.length (u.length + colon) = cur.take colon ∧
      slice (u ++ (cur ++ w)) (u.length + colon + 1) (u.length + cur.length) = cur.drop (colon + 1) := by
  constructor
  · have hslice := slice_append u (cur.take colon) (cur.drop colon ++ w)
    rwa [← List.append_assoc (cur.take colon), List.take_append_drop, List.length_take_of_le hcolon.le] at hslice
  · have hslice := slice_append (u ++ cur.take (colon + 1)) (cur.drop (colon + 1)) w
    have hlen : (u ++ cur.take (colon + 1)).length = u.length + colon + 1 := by
      rw [List.length_append, List.length_take_of_le hcolon, Nat.add_assoc]
    have hend : u.length + colon + 1 + (cur.drop (colon + 1)).length = u.length + cur.length := by
      rw [List.length_drop]
      omega
    rwa [hlen, hend, List.append_assoc, ← List.append_assoc (cur.take (colon + 1)), List.take_append_drop] at hslice

lemma assignUser_segment (hcolon : colon = 0 ∨ colon < cur.length) :
    info.assignUser (u ++ (cur ++ w)) (u.length + cur.length) u.length (u.length + colon) =
      (Segment.assign info ⟨true, cur, colon⟩).2 := by
  rw [assignUser, Segment.assign, if_pos rfl, Segment.name, Segment.value]
  by_cases h0 : colon = 0
  · subst h0
    rw [if_pos (Nat.add_zero _), if_pos rfl, if_pos rfl, slice_append]
    rfl
  · obtain ⟨hname, hvalue⟩ := slice_colon (hcolon.resolve_left h0) (u := u) (w := w)
    rw [if_neg (by omega), if_neg h0, if_neg h0, hname, hvalue]
    rfl

lemma assignHostOrName_segment (hcolon : colon = 0 ∨ colon < cur.length) :
    info.assignHostOrName (u ++ (cur ++ w)) (u.length + cur.length) u.length (u.length + colon) =
      Segment.assign info ⟨false, cur, colon⟩ := by
  rw [assignHostOrName, Segment.assign, if_neg Bool.false_ne_true, Segment.name, Segment.value]
  by_cases hhost : info.host = []
  · rw [if_pos hhost, if_pos hhost]
    by_cases h0 : colon = 0
    · subst h0
      rw [if_pos (Nat.add_zero _), if_pos rfl, if_pos rfl, slice_append]
    · obtain ⟨hname, hvalue⟩ := slice_colon (hcolon.resolve_left h0) (u := u) (w := w)
      rw [if_neg (by omega), if_neg h0, if_neg h0, hname, hvalue]
  · rw [if_neg hhost, if_neg hhost, slice_append]

lemma segment_head {memory text : List UInt8} {c : UInt8} (hmemory : memory = u ++ (cur ++ c :: text))
    (hcur : 0 ∉ cur) (hc : c ≠ 0) : ∃ first, memory[u.length]? = some first ∧ first ≠ 0 := by
  rw [hmemory, List.getElem?_append_right le_rfl, Nat.sub_self]
  cases cur with
  | nil => exact ⟨c, rfl, hc⟩
  | cons first cur => exact ⟨first, rfl, fun h0 => hcur (h0 ▸ List.mem_cons_self)⟩

/-- **The scan goes segment by segment**, up to a bad port, or to the end of the text with a NUL or the end of the memory
behind it. -/
lemma scan_segments {text rest : List UInt8} (hrest : rest = [] ∨ ∃ r, rest = 0 :: r) (htext : 0 ∉ text)
    (hcur : 0 ∉ cur) (hcolon : colon = 0 ∨ colon < cur.length) (info : DBAddrInfo) {p s : ℕ}
    (hmemory : memory = u ++ (cur ++ (text ++ rest))) (hp : p = u.length + cur.length) (hs : s = u.length + colon) :
    scan memory p u.length s info (text ++ rest) =
      if (Segment.assignAll info (segmentsFrom cur colon text)).1 = true ∧ rest = [] then .error .outOfRange
      else .ok (Segment.assignAll info (segmentsFrom cur colon text)) := by
  induction text generalizing u cur colon info p s with
  | nil =>
    obtain rfl | ⟨r, rfl⟩ := hrest
    · rfl
    · simp [scan, segmentsFrom, Segment.assignAll]
  | cons c text ih =>
    have hc : c ≠ 0 := fun h0 => htext (h0 ▸ List.mem_cons_self)
    have htext' : 0 ∉ text := fun h0 => htext (List.mem_cons_of_mem c h0)
    have hsnoc : 0 ∉ cur ++ [c] := by simp [hcur, hc.symm]
    -- behind a separator a new segment begins
    have hnext : ∀ info', scan memory (p + 1) (p + 1) (p + 1) info' (text ++ rest) =
        if (Segment.assignAll info' (segmentsFrom [] 0 text)).1 = true ∧ rest = [] then .error .outOfRange
        else .ok (Segment.assignAll info' (segmentsFrom [] 0 text)) := fun info' => by
      have hlen : p + 1 = (u ++ cur ++ [c]).length := by
        rw [List.length_append, List.length_append, hp]
        rfl
      rw [hlen]
      exact ih (u := u ++ cur ++ [c]) htext' List.not_mem_nil (.inl rfl) info' (by simp [hmemory]) rfl rfl
    rw [List.cons_append, scan, if_neg hc, segmentsFrom]
    by_cases hcol : c = 0x3A
    · rw [if_pos hcol, if_pos hcol]
      exact ih htext' hsnoc (.inr (by simp)) info (by simp [hmemory]) (by simp [hp, Nat.add_assoc]) hp
    · rw [if_neg hcol, if_neg hcol]
      by_cases hat : c = 0x40
      · have hassign : info.assignUser memory p u.length s = (Segment.assign info ⟨true, cur, colon⟩).2 := by
          rw [hp, hs, hmemory, assignUser_segment hcolon]
        rw [if_pos hat, if_pos hat, hassign, hnext]
        rfl
      · rw [if_neg hat, if_neg hat]
        by_cases hslash : c = 0x2F
        · obtain ⟨first, hfirst, hne⟩ := segment_head hmemory hcur hc
          have hassign : info.assignHostOrName memory p u.length s = Segment.assign info ⟨false, cur, colon⟩ := by
            rw [hp, hs, hmemory, assignHostOrName_segment hcolon]
          rw [if_pos hslash, if_pos hslash, hfirst, Segment.assignAll]
          dsimp only
          rw [if_neg hne, hassign, hnext]
          cases hgood : (Segment.assign info ⟨false, cur, colon⟩).1 with
          | true => rfl
          | false => simp [hgood]
        · rw [if_neg hslash, if_neg hslash]
          exact ih htext' hsnoc (hcolon.imp_right fun h => by simp; omega) info (by simp [hmemory])
            (by simp [hp, Nat.add_assoc]) hs

/-- **Parsing is assigning the segments of the text in front of the NUL.** Without a NUL only a bad port keeps the scan
from running out of the memory. -/
lemma parse_segments {text rest : List UInt8} (hrest : rest = [] ∨ ∃ r, rest = 0 :: r) (htext : 0 ∉ text)
    (before : List UInt8) (length : ℕ) (info : DBAddrInfo) :
    parseFromConnString ⟨before ++ (text ++ rest), before.length, length⟩ info =
      if (Segment.assignAll info (segmentsOf text)).1 = true ∧ rest = [] then .error .outOfRange
      else .ok (Segment.assignAll info (segmentsOf text)) := by
  rw [parseFromConnString, List.drop_left]
  exact scan_segments hrest htext List.not_mem_nil (.inl rfl) info rfl rfl rfl

end Scan

end DBAddrInfo

/-! ### The format that is printed -/

section Print

/-- The bytes that end a segment, or part it. -/
def separators : List UInt8 := [0x3A, 0x40, 0x2F]

lemma segmentsFrom_plain {text : List UInt8} (htext : ∀ c ∈ text, c ∉ separators) (cur : List UInt8) (colon : ℕ)
    (rest : List UInt8) : segmentsFrom cur colon (text ++ rest) = segmentsFrom (cur ++ text) colon rest := by
  induction text generalizing cur with
  | nil => rw [List.nil_append, List.append_nil]
  | cons c text ih =>
    obtain ⟨hc, htext⟩ := List.forall_mem_cons.1 htext
    simp only [separators, List.mem_cons, List.not_mem_nil, or_false, not_or] at hc
    rw [List.cons_append, segmentsFrom, if_neg hc.1, if_neg hc.2.1, if_neg hc.2.2, ih htext, List.append_assoc]
    rfl

lemma segmentsFrom_pair {name value : List UInt8} (hname : ∀ c ∈ name, c ∉ separators)
    (hvalue : ∀ c ∈ value, c ∉ separators) (rest : List UInt8) :
    segmentsOf (name ++ 0x3A :: (value ++ 0x40 :: rest)) = ⟨true, name ++ 0x3A :: value, name.length⟩ :: segmentsOf rest ∧
      segmentsOf (name ++ 0x3A :: (value ++ 0x2F :: rest)) =
        ⟨false, name ++ 0x3A :: value, name.length⟩ :: segmentsOf rest := by
  constructor
  · rw [segmentsOf, segmentsFrom_plain hname, segmentsFrom, if_pos rfl, segmentsFrom_plain hvalue, segmentsFrom,
      if_neg (by decide), if_pos rfl]
    simp [segmentsOf]
  · rw [segmentsOf, segmentsFrom_plain hname, segmentsFrom, if_pos rfl, segmentsFrom_plain hvalue, segmentsFrom,
      if_neg (by decide), if_neg (by decide), if_pos rfl]
    simp [segmentsOf]

lemma decimalInt_plain (n : ℤ) : ∀ c ∈ decimalInt n, c ∉ separators := by
  intro c hc hsep
  simp only [separators, List.mem_cons, List.not_mem_nil, or_false] at hsep
  rcases decimalInt_mem hc with rfl | hdigit
  · revert hsep
    decide
  · rcases hsep with rfl | rfl | rfl
    · exact absurd hdigit.2 (by decide)
    · exact absurd hdigit.2 (by decide)
    · exact absurd hdigit.1 (by decide)

variable {info : DBAddrInfo}

/-- What is printed has a segment for the user, one for the host, and one for the name of the database. -/
lemma segmentsOf_debugString (huser : ∀ c ∈ info.user, c ∉ separators) (hpasswd : ∀ c ∈ info.passwd, c ∉ separators)
    (hhost : ∀ c ∈ info.host, c ∉ separators) (hname : ∀ c ∈ info.dbName, c ∉ separators) :
    segmentsOf info.debugString =
      [⟨true, info.user ++ 0x3A :: info.passwd, info.user.length⟩,
        ⟨false, info.host ++ 0x3A :: decimalInt info.port, info.host.length⟩, ⟨false, info.dbName, 0⟩] := by
  have hlast : segmentsOf (info.dbName ++ [0x2F]) = [⟨false, info.dbName, 0⟩] := by
    rw [segmentsOf, segmentsFrom_plain hname]
    rfl
  have htext : info.debugString = info.user ++ 0x3A :: (info.passwd ++ 0x40 ::
      (info.host ++ 0x3A :: (decimalInt info.port ++ 0x2F :: (info.dbName ++ [0x2F])))) := by
    simp [DBAddrInfo.debugString]
  rw [htext, (segmentsFrom_pair huser hpasswd _).1, (segmentsFrom_pair hhost (decimalInt_plain _) _).2, hlast]

lemma Segment.name_value (isUser : Bool) {name : List UInt8} (hname : name ≠ []) (value : List UInt8) :
    Segment.name ⟨isUser, name ++ 0x3A :: value, name.length⟩ = name ∧
      Segment.value ⟨isUser, name ++ 0x3A :: value, name.length⟩ = some value := by
  have hlen : name.length ≠ 0 := fun h => hname (List.length_eq_zero_iff.1 h)
  constructor
  · rw [Segment.name, if_neg hlen, List.take_left]
  · rw [Segment.value, if_neg hlen]
    simp

/-- **Connection strings round trip**: what is printed of an address, with a NUL behind it, is parsed into a fresh object
as that address. -/
theorem parse_connString (huser : info.user ≠ []) (hhost : info.host ≠ [])
    (hbytes : ∀ c ∈ info.user ++ info.passwd ++ info.host ++ info.dbName, c ∉ separators ∧ c ≠ 0)
    (hport : -2 ^ 31 ≤ info.port ∧ info.port < 2 ^ 31) (before after : List UInt8) :
    DBAddrInfo.parseFromConnString
      ⟨before ++ (info.debugString ++ 0 :: after), before.length, info.debugString.length⟩ {} = .ok (true, info) := by
  have hplain : ∀ part ∈ [info.user, info.passwd, info.host, info.dbName], ∀ c ∈ part, c ∉ separators ∧ c ≠ 0 := by
    intro part hpart c hc
    refine hbytes c ?_
    simp only [List.mem_cons, List.not_mem_nil, or_false] at hpart
    rcases hpart with rfl | rfl | rfl | rfl <;> simp [hc]
  have hsep : ∀ part ∈ [info.user, info.passwd, info.host, info.dbName], ∀ c ∈ part, c ∉ separators :=
    fun part hpart c hc => (hplain part hpart c hc).1
  have hnul : ∀ part ∈ [info.user, info.passwd, info.host, info.dbName], 0 ∉ part :=
    fun part hpart h0 => (hplain part hpart 0 h0).2 rfl
  have htext : 0 ∉ info.debugString := by
    simp [DBAddrInfo.debugString, hnul, decimalInt_nul_free]
  have hnumber : stringToInt (decimalInt info.port) 0 = (true, info.port) := by
    rw [stringToInt_decimalInt, if_neg (by omega), if_neg (by omega)]
  rw [DBAddrInfo.parse_segments (.inr ⟨after, rfl⟩) htext, if_neg (by simp),
    segmentsOf_debugString (hsep _ (by simp)) (hsep _ (by simp)) (hsep _ (by simp)) (hsep _ (by simp))]
  obtain ⟨hu, hv⟩ := Segment.name_value true huser info.passwd
  obtain ⟨hh, hp⟩ := Segment.name_value false hhost (decimalInt info.port)
  simp [Segment.assignAll, Segment.assign, hu, hv, hh, hp, hnumber, hhost]

/-- `root:@db:-5/pool/`. -/
def rootAddr : DBAddrInfo := ⟨ascii ['d', 'b'], -5, ascii ['r', 'o', 'o', 't'], [], ascii ['p', 'o', 'o', 'l']⟩

/-- No password, a negative port, and something behind the NUL. -/
theorem parse_connString_rootAddr :
    DBAddrInfo.parseFromConnString ⟨[] ++ (rootAddr.debugString ++ 0 :: [0x2F]), 0, rootAddr.debugString.length⟩ {} =
      .ok (true, rootAddr) :=
  parse_connString (by decide) (by decide) (by simp [rootAddr, separators, ascii]) (by decide) [] [0x2F]

end Print

end Zutils.Config
