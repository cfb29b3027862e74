import Zutils.Db.MySqlAnswer
import Zutils.Lib.Since

/-!
# The cursor of an answer

A cursor has a current row after a `FetchRow` that returned true, and none before the first and after one that returned
false. `CHECK_IS_FETCH` asks only whether `FetchRow` was called at all. So the accessors do what those of a cursor do
as long as `FetchRow` was not called more often than there are rows, and no accessor is safe after that
(`cursor_safe_iff`).
-/

namespace Zutils.Db

open Zutils.Lib

/-- An accessor, with what `*val` is before. -/
inductive Access (F : Type) where
  | string (val : List UInt8)
  | uint64 (val : ℤ)
  | int64 (val : ℤ)
  | uint32 (val : ℤ)
  | int (val : ℤ)
  | float (val : F)
  | bool (val : Bool)
  | length
  | isNull

/-- A call of `FetchRow`, or of an accessor with the index of a column. -/
inductive AnswerOp (F : Type) where
  | fetchRow
  | access (clm : ℕ) (acc : Access F)

/-- What is returned, and `*val` then. -/
inductive AnswerOut (F : Type) where
  | fetched (ok : Bool)
  | text (ok : Bool) (val : List UInt8)
  | number (ok : Bool) (val : ℤ)
  | real (ok : Bool) (val : F)
  | flag (ok : Bool) (val : Bool)
  | length (length : ℕ)
  | isNull (isNull : Bool)

variable {F : Type} (p : FloatParser F)

/-- A call of an accessor. -/
def MySQLAnswer.access (a : MySQLAnswer) (clm : ℕ) : Access F → Except AnswerFault (AnswerOut F)
  | .string val => (a.getColumnString clm val).map fun r => .text r.1 r.2
  | .uint64 val => (a.getColumnUint64 clm val).map fun r => .number r.1 r.2
  | .int64 val => (a.getColumnInt64 clm val).map fun r => .number r.1 r.2
  | .uint32 val => (a.getColumnUint32 clm val).map fun r => .number r.1 r.2
  | .int val => (a.getColumnInt clm val).map fun r => .number r.1 r.2
  | .float val => (a.getColumnFloat clm p val).map fun r => .real r.1 r.2
  | .bool val => (a.getColumnBool clm val).map fun r => .flag r.1 r.2
  | .length => (a.getColumnLength clm).map .length
  | .isNull => (a.columnIsNull clm).map .isNull

/-- One call, after some with their results. -/
def answerStep (s : MySQLAnswer × List (AnswerOut F)) :
    AnswerOp F → Except AnswerFault (MySQLAnswer × List (AnswerOut F))
  | .fetchRow => .ok (s.1.fetchRow.1, s.2 ++ [.fetched s.1.fetchRow.2])
  | .access clm acc => do
    let out ← s.1.access p clm acc
    return (s.1, s.2 ++ [out])

/-! ### The cursor -/

/-- The rows to come, and the current row. -/
structure Cursor where
  todo : List ResultRow
  current : Option ResultRow

/-- What an accessor reports when there is no current row. -/
def Access.failed : Access F → AnswerOut F
  | .string val => .text false val
  | .uint64 val | .int64 val | .uint32 val | .int val => .number false val
  | .float val => .real false val
  | .bool val => .flag false val
  | .length => .length 0
  | .isNull => .isNull false

/-- The value of a column as another type; `null` stands for a column that is NULL. -/
def valueAs {α : Type} (convert : List UInt8 → α → Bool × α) (null val : α) (column : Option (List UInt8)) : Bool × α :=
  match column with
  | some text => convert (CString.ofString text).bytes val
  | none => (false, null)

/-- What an accessor reports of a column of the current row. A string stays as it is when the column is NULL. -/
def Access.report (column : Option (List UInt8)) : Access F → AnswerOut F
  | .string val => .text true (column.getD val)
  | .uint64 val => let r := valueAs MySQLAnswer.toUint64 0 val column; .number r.1 r.2
  | .int64 val => let r := valueAs stringToInt64 0 val column; .number r.1 r.2
  | .uint32 val => let r := valueAs stringToUint 0 val column; .number r.1 r.2
  | .int val => let r := valueAs stringToInt 0 val column; .number r.1 r.2
  | .float val => let r := valueAs (MySQLAnswer.toFloat p) p.zero val column; .real r.1 r.2
  | .bool val => let r := valueAs MySQLAnswer.toBool false val column; .flag r.1 r.2
  | .length => .length ((column.map List.length).getD 0 % 2 ^ 32)
  | .isNull => .isNull column.isNone

namespace Cursor

/-- The next row is the current one. -/
def fetch (c : Cursor) : Cursor × Bool :=
  match c.todo with
  | [] => (⟨[], none⟩, false)
  | row :: todo => (⟨todo, some row⟩, true)

/-- One call. -/
def step (c : Cursor) : AnswerOp F → Cursor × AnswerOut F
  | .fetchRow => (c.fetch.1, .fetched c.fetch.2)
  | .access clm acc => (c, match c.current with
    | none => acc.failed
    | some row => acc.report p (row.getD clm none))

/-- Some calls, with the results of those before. -/
def run (s : Cursor × List (AnswerOut F)) (ops : List (AnswerOp F)) : Cursor × List (AnswerOut F) :=
  ops.foldl (fun s op => ((s.1.step p op).1, s.2 ++ [(s.1.step p op).2])) s

end Cursor

/-- **The answer is a cursor**: the calls return, with the results that those of a cursor have. -/
def RefinesCursor (rs : ResultSet) (ops : List (AnswerOp F)) : Prop :=
  ∃ a, ops.foldlM (answerStep p) ({ res := rs }, []) = .ok (a, (Cursor.run p (⟨rs.rows, none⟩, []) ops).2)

/-- How often `FetchRow` is called. -/
def fetches (ops : List (AnswerOp F)) : ℕ :=
  ops.countP fun op => match op with
    | .fetchRow => true
    | .access _ _ => false

/-- An accessor is safe before the first row, and for a column of a row. -/
def AnswerSafe (rs : ResultSet) (before : List (AnswerOp F)) : AnswerOp F → Prop
  | .fetchRow => True
  | .access clm _ => fetches before = 0 ∨ fetches before ≤ rs.rows.length ∧ clm < rs.columnCount

/-! ### The accessors -/

namespace MySQLAnswer

variable {a : MySQLAnswer} {clm : ℕ}

lemma checkIsFetch_false {α : Type} (h : a.isFetched = false) (failed : α) (next : Except AnswerFault α) :
    a.checkIsFetch failed next = .ok failed := by
  rw [checkIsFetch, h, if_neg Bool.false_ne_true]

lemma checkIsFetch_true {α : Type} (h : a.isFetched = true) (failed : α) (next : Except AnswerFault α) :
    a.checkIsFetch failed next = next := if_pos h

lemma access_unfetched (h : a.isFetched = false) (acc : Access F) : a.access p clm acc = .ok acc.failed := by
  cases acc <;>
    simp only [access, getColumnString, getColumnUint64, getColumnInt64, getColumnUint32, getColumnInt, getColumnFloat,
      getColumnBool, getColumnAs, getColumnLength, columnIsNull, checkIsFetch_false h] <;> rfl

/-- Without a row all accessors use a null pointer. -/
lemma access_fault (h : a.isFetched = true) {e : AnswerFault} (hrow : a.rowAt clm = .error e)
    (acc : Access F) : ∃ e', a.access p clm acc = .error e' := by
  have hlength : ∃ e', a.lengthAt clm = .error e' := by
    rw [lengthAt, hrow]
    split
    · exact ⟨e, rfl⟩
    · exact ⟨_, rfl⟩
  obtain ⟨e', hlength⟩ := hlength
  by_cases hcheck : clm < a.res.columnCount
  · cases acc <;>
      simp [access, getColumnString, getColumnUint64, getColumnInt64, getColumnUint32, getColumnInt, getColumnFloat,
        getColumnBool, getColumnAs, getColumnLength, columnIsNull, checkIsFetch_true h, check, hcheck, hrow, hlength,
        Except.map]
  · cases acc <;>
      simp [access, getColumnString, getColumnUint64, getColumnInt64, getColumnUint32, getColumnInt, getColumnFloat,
        getColumnBool, getColumnAs, getColumnLength, columnIsNull, checkIsFetch_true h, check, hcheck, hrow, Except.map]

lemma getColumnAs_eq {α : Type} (h : a.isFetched = true) (hclm : clm < a.res.columnCount)
    {column : Option (List UInt8)} (hrow : a.rowAt clm = .ok column) (convert : List UInt8 → α → Bool × α)
    (null val : α) : a.getColumnAs clm convert null val = .ok (valueAs convert null val column) := by
  rw [getColumnAs, checkIsFetch_true h, check, if_pos hclm, hrow]
  cases column <;> rfl

lemma access_current (h : a.isFetched = true) (hclm : clm < a.res.columnCount) {column : Option (List UInt8)}
    (hrow : a.rowAt clm = .ok column) (hsome : a.lengths.isSome) (hlengths : a.lengths = a.row) (acc : Access F) :
    a.access p clm acc = .ok (acc.report p column) := by
  have hlength : a.lengthAt clm = .ok ((column.map List.length).getD 0) := by
    rw [lengthAt, if_pos ⟨hsome, hlengths⟩, hrow]
    rfl
  cases acc with
  | string val =>
    rw [access, getColumnString, checkIsFetch_true h, check, if_pos hclm, hrow, hlength]
    cases column with
    | none => rfl
    | some text => exact congrArg (fun t => Except.ok (AnswerOut.text true t)) List.take_length
  | uint64 val => rw [access, getColumnUint64, getColumnAs_eq h hclm hrow]; rfl
  | int64 val => rw [access, getColumnInt64, getColumnAs_eq h hclm hrow]; rfl
  | uint32 val => rw [access, getColumnUint32, getColumnAs_eq h hclm hrow]; rfl
  | int val => rw [access, getColumnInt, getColumnAs_eq h hclm hrow]; rfl
  | float val => rw [access, getColumnFloat, getColumnAs_eq h hclm hrow]; rfl
  | bool val => rw [access, getColumnBool, getColumnAs_eq h hclm hrow]; rfl
  | length =>
    rw [access, getColumnLength, checkIsFetch_true h, check, if_pos hclm, hlength]
    rfl
  | isNull =>
    rw [access, columnIsNull, checkIsFetch_true h, hrow]
    rfl

end MySQLAnswer

/-! ### The calls -/

section Calls

variable {p} {rs : ResultSet} {before : List (AnswerOp F)} {op : AnswerOp F}
  {s s' : MySQLAnswer × List (AnswerOut F)}

@[simp] lemma fetches_nil : fetches ([] : List (AnswerOp F)) = 0 := rfl

@[simp] lemma fetches_fetchRow : fetches (before ++ [.fetchRow]) = fetches before + 1 := by
  rw [fetches, List.countP_append]
  rfl

@[simp] lemma fetches_access (clm : ℕ) (acc : Access F) : fetches (before ++ [.access clm acc]) = fetches before := by
  rw [fetches, List.countP_append]
  rfl

lemma Cursor.run_concat (c : Cursor × List (AnswerOut F)) : Cursor.run p c (before ++ [op]) =
    (((Cursor.run p c before).1.step p op).1, (Cursor.run p c before).2 ++ [((Cursor.run p c before).1.step p op).2]) := by
  rw [Cursor.run, List.foldl_append]
  rfl

/-- The cursor after some calls: as many rows have been taken as `FetchRow` was called. -/
lemma Cursor.run_fst (rows : List ResultRow) (before : List (AnswerOp F)) :
    (Cursor.run p (⟨rows, none⟩, []) before).1 =
      ⟨rows.drop (fetches before), if fetches before = 0 then none else rows[fetches before - 1]?⟩ := by
  induction before using List.reverseRecOn with
  | nil => rfl
  | append_singleton before op ih =>
    rw [Cursor.run_concat, ih]
    cases op with
    | access clm acc => rw [fetches_access]; rfl
    | fetchRow =>
      rw [fetches_fetchRow, if_neg (Nat.succ_ne_zero _), Nat.add_sub_cancel]
      simp only [Cursor.step, Cursor.fetch]
      cases hdrop : rows.drop (fetches before) with
      | nil =>
        have hlen := List.drop_eq_nil_iff.1 hdrop
        rw [List.drop_eq_nil_of_le (by omega), List.getElem?_eq_none hlen]
      | cons row todo =>
        have hget : rows[fetches before]? = some row := by
          rw [← List.head?_drop, hdrop]
          rfl
        rw [hget, ← List.drop_drop, hdrop]
        rfl

/-- The state says how often `FetchRow` was called. -/
structure AnswerInv (p : FloatParser F) (rs : ResultSet) (before : List (AnswerOp F))
    (s : MySQLAnswer × List (AnswerOut F)) : Prop where
  res : s.1.res = rs
  dataCursor : s.1.dataCursor = min (fetches before) rs.rows.length
  row : s.1.row = if 0 < fetches before ∧ fetches before ≤ rs.rows.length then some (fetches before - 1) else none
  lengths : 0 < fetches before ∧ fetches before ≤ rs.rows.length → s.1.lengths = some (fetches before - 1)
  isFetched : s.1.isFetched = decide (0 < fetches before)
  outs : s.2 = (Cursor.run p (⟨rs.rows, none⟩, []) before).2

lemma answerInv_nil : AnswerInv p rs [] ({ res := rs }, []) where
  res := rfl
  dataCursor := by simp
  row := by simp
  lengths h := by simp at h
  isFetched := rfl
  outs := rfl

lemma Cursor.fetch_snd (c : Cursor) : c.fetch.2 = decide (0 < c.todo.length) := by
  obtain ⟨_ | ⟨row, todo⟩, current⟩ := c
  · rfl
  · simp [Cursor.fetch]

lemma AnswerInv.fetchRow (hs : AnswerInv p rs before s) :
    AnswerInv p rs (before ++ [.fetchRow]) (s.1.fetchRow.1, s.2 ++ [.fetched s.1.fetchRow.2]) := by
  have houts : ∀ ok : Bool, ok = decide (fetches before < rs.rows.length) → s.2 ++ [.fetched ok] =
      (Cursor.run p (⟨rs.rows, none⟩, []) (before ++ [.fetchRow])).2 := by
    rintro ok rfl
    rw [Cursor.run_concat, hs.outs, Cursor.run_fst, Cursor.step, Cursor.fetch_snd, List.length_drop]
    simp only [tsub_pos_iff_lt]
  have hcursor := hs.dataCursor
  rw [MySQLAnswer.fetchRow]
  by_cases hmore : fetches before < rs.rows.length
  · have hlt : s.1.dataCursor < s.1.res.rows.length := by
      rw [hs.res]
      omega
    have hcur : s.1.dataCursor = fetches before := by omega
    dsimp only
    rw [if_pos hlt]
    exact
      { res := hs.res
        dataCursor := by
          rw [fetches_fetchRow]
          show s.1.dataCursor + 1 = _
          omega
        row := by
          rw [fetches_fetchRow, if_pos (by omega), Nat.add_sub_cancel]
          exact congrArg some hcur
        lengths := fun _ => by
          rw [fetches_fetchRow, Nat.add_sub_cancel]
          exact congrArg some hcur
        isFetched := by simp
        outs := houts true (by simp [hmore]) }
  · have hge : ¬ s.1.dataCursor < s.1.res.rows.length := by
      rw [hs.res]
      omega
    dsimp only
    rw [if_neg hge]
    exact
      { res := hs.res
        dataCursor := by
          rw [fetches_fetchRow]
          show s.1.dataCursor = _
          omega
        row := by rw [fetches_fetchRow, if_neg (by omega)]
        lengths := fun h => by
          rw [fetches_fetchRow] at h
          omega
        isFetched := by simp
        outs := houts false (by simp [hmore]) }

/-- An accessor is safe if and only if it returns, and then what the cursor reports. -/
lemma AnswerInv.access (hs : AnswerInv p rs before s) (clm : ℕ) (acc : Access F) :
    (AnswerSafe rs before (.access clm acc) →
      s.1.access p clm acc = .ok ((Cursor.run p (⟨rs.rows, none⟩, []) before).1.step p (.access clm acc)).2) ∧
    (¬ AnswerSafe rs before (.access clm acc) → ∃ e, s.1.access p clm acc = .error e) := by
  rw [Cursor.run_fst]
  simp only [AnswerSafe, Cursor.step]
  by_cases hzero : fetches before = 0
  · have hfetched : s.1.isFetched = false := by simp [hs.isFetched, hzero]
    refine ⟨fun _ => ?_, fun hnot => (hnot (.inl hzero)).elim⟩
    rw [MySQLAnswer.access_unfetched p hfetched, if_pos hzero]
  · have hfetched : s.1.isFetched = true := by
      rw [hs.isFetched]
      exact decide_eq_true (Nat.pos_of_ne_zero hzero)
    simp only [hzero, false_or, if_false]
    by_cases hlen : fetches before ≤ rs.rows.length
    · -- the row is the one that was fetched last
      have hcur : 0 < fetches before ∧ fetches before ≤ rs.rows.length := ⟨Nat.pos_of_ne_zero hzero, hlen⟩
      have hlt : fetches before - 1 < rs.rows.length := by omega
      have hrow := hs.row
      rw [if_pos hcur] at hrow
      have hwidth : rs.rows[fetches before - 1].length = rs.columnCount := rs.width _ (List.getElem_mem hlt)
      rw [List.getElem?_eq_getElem hlt]
      by_cases hclm : clm < rs.columnCount
      · have hcolumn : s.1.rowAt clm = .ok (rs.rows[fetches before - 1].getD clm none) := by
          simp [MySQLAnswer.rowAt, hrow, hs.res, hlt, hwidth, hclm]
        have hcheck : clm < s.1.res.columnCount := by rwa [hs.res]
        have hlengths := hs.lengths hcur
        refine ⟨fun _ => ?_, fun hnot => (hnot ⟨hlen, hclm⟩).elim⟩
        exact MySQLAnswer.access_current p hfetched hcheck hcolumn (by simp [hlengths]) (hlengths.trans hrow.symm) acc
      · have hcolumn : s.1.rowAt clm = .error .outOfRange := by
          simp [MySQLAnswer.rowAt, hrow, hs.res, hlt, hwidth, hclm]
        refine ⟨fun hsafe => (hclm hsafe.2).elim, fun _ => ?_⟩
        exact MySQLAnswer.access_fault p hfetched hcolumn acc
    · -- `FetchRow` has returned false
      have hrow := hs.row
      rw [if_neg fun h => hlen h.2] at hrow
      have hnull : s.1.rowAt clm = .error .nullRow := by
        rw [MySQLAnswer.rowAt, hrow]
        rfl
      refine ⟨fun hsafe => (hlen hsafe.1).elim, fun _ => ?_⟩
      exact MySQLAnswer.access_fault p hfetched hnull acc

/-- **The calls return if and only if each accessor is safe**, and then the answer is a cursor. -/
lemma refinesCursor_iff_safe (p : FloatParser F) (rs : ResultSet) (ops : List (AnswerOp F)) :
    RefinesCursor p rs ops ↔ SafeAll (AnswerSafe rs) ops := by
  have hsafe : ∀ before s op, AnswerInv p rs before s →
      (AnswerSafe rs before op ↔ ∃ s', answerStep p s op = .ok s') := by
    intro before s op hs
    cases op with
    | fetchRow => exact iff_of_true trivial ⟨_, rfl⟩
    | access clm acc =>
      obtain ⟨hok, herror⟩ := hs.access clm acc
      constructor
      · intro h
        rw [answerStep, hok h]
        exact ⟨_, rfl⟩
      · rintro ⟨s', hstep⟩
        by_contra h
        obtain ⟨e, he⟩ := herror h
        rw [answerStep, he] at hstep
        cases hstep
  have hinv : ∀ before s op s', AnswerInv p rs before s → answerStep p s op = .ok s' →
      AnswerInv p rs (before ++ [op]) s' := by
    intro before s op s' hs hstep
    cases op with
    | fetchRow =>
      cases hstep
      exact hs.fetchRow
    | access clm acc =>
      have hout := (hs.access clm acc).1 ((hsafe _ _ _ hs).2 ⟨s', hstep⟩)
      rw [answerStep, hout] at hstep
      cases hstep
      exact
        { res := hs.res
          dataCursor := by rw [fetches_access]; exact hs.dataCursor
          row := by rw [fetches_access]; exact hs.row
          lengths := fun h => by
            rw [fetches_access] at h ⊢
            exact hs.lengths h
          isFetched := by rw [fetches_access]; exact hs.isFetched
          outs := by rw [Cursor.run_concat, hs.outs] }
  obtain ⟨hall, hiff⟩ := foldlM_ok_iff (answerInv_nil (p := p)) hsafe hinv ops
  rw [← hiff, RefinesCursor]
  constructor
  · rintro ⟨a, ha⟩
    exact ⟨_, ha⟩
  · rintro ⟨s, hs⟩
    refine ⟨s.1, ?_⟩
    rw [hs, ← (hall s hs).outs]

end Calls

/-- **The answer is a safe cursor if and only if no accessor is called after `FetchRow` has returned false**, which it
does when it is called more often than there are rows. -/
theorem cursor_safe_iff (p : FloatParser F) (rs : ResultSet) (ops : List (AnswerOp F))
    (hops : ∀ clm acc, .access clm acc ∈ ops → clm < rs.columnCount) :
    RefinesCursor p rs ops ↔ ∀ a clm acc b, ops = a ++ .access clm acc :: b → fetches a ≤ rs.rows.length := by
  rw [refinesCursor_iff_safe]
  constructor
  · intro hsafe a clm acc b hab
    rcases hsafe a _ b hab with hzero | ⟨hlen, -⟩
    · omega
    · exact hlen
  · intro hlen a op b hab
    cases op with
    | fetchRow => trivial
    | access clm acc =>
      refine .inr ⟨hlen a clm acc b hab, hops clm acc ?_⟩
      rw [hab]
      exact List.mem_append_right _ List.mem_cons_self

/-- A parser that reads nothing. -/
def noFloats : FloatParser ℕ := ⟨fun _ => none, 0⟩

/-- One row with one column. -/
def oneRow : ResultSet := ⟨1, [[some [0x37]]], by decide⟩

/-- No row. -/
def noRows : ResultSet := ⟨1, [], by decide⟩

def readInt : List (AnswerOp ℕ) := [.access 0 (.int 5), .fetchRow, .access 0 (.int 5)]

/-- Reading before and after the row was fetched. -/
theorem cursor_safe_oneRow : RefinesCursor noFloats oneRow readInt := by
  refine (cursor_safe_iff noFloats oneRow readInt (by simp [readInt, oneRow])).2 fun a clm acc b hab => ?_
  have hle : fetches a ≤ fetches readInt := by
    rw [hab, fetches, fetches, List.countP_append]
    exact Nat.le_add_right _ _
  exact hle

/-- Reading a column of an answer without rows after `FetchRow` has returned false. -/
theorem cursor_unsafe_noRows :
    ¬ ∀ rs (ops : List (AnswerOp ℕ)), (∀ clm acc, .access clm acc ∈ ops → clm < rs.columnCount) →
      RefinesCursor noFloats rs ops := by
  intro hall
  obtain ⟨a, ha⟩ := hall noRows readInt (by simp [readInt, noRows])
  have hfault : readInt.foldlM (answerStep noFloats) ({ res := noRows }, []) = .error .nullRow := rfl
  rw [hfault] at ha
  cases ha

end Zutils.Db
