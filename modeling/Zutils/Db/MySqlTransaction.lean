import Zutils.Db.MySqlSpec
import Zutils.Lib.Run

/-!
# A transaction whose connection is lost

When a statement of a transaction is lost, its session ends and what has run is rolled back; `SafeQuery` sends the
statement once more, in a new session where no transaction is open, so that it is committed at once and reports success.
So the statements are committed together, by the transaction that `BeginTransaction` opened, if and only if no first
attempt of one is lost, and that of `COMMIT` is not lost before the server has executed it (`committed_together_iff`).
-/

namespace Zutils.Db

open Zutils.Lib

/-! ### The calls of a transaction -/

/-- How a statement is called. -/
inductive StatementMethod where
  | execute
  | executeInsertID
  | query
  deriving DecidableEq, Repr

/-- A statement, and what the client library answers in its call. -/
structure StatementCall (σ : Type) where
  method : StatementMethod
  statement : σ
  queries : List QueryAnswer
  connects : List ConnectAnswer
  deriving DecidableEq, Repr

section

variable {σ : Type} {d d' : MySQLDatabase σ} {c : StatementCall σ}

/-- The call of a statement, and whether it reports success: at least 0 rows, an id, or an answer. -/
def StatementCall.exec (c : StatementCall σ) (d : MySQLDatabase σ) : Except MySqlFault (MySQLDatabase σ × Bool) :=
  let d := d.withAnswers c.queries c.connects
  match c.method with
  | .execute => do
    let (d, r) ← d.execute (.statement c.statement)
    return (d, decide (0 ≤ r))
  | .executeInsertID => do
    let (d, id) ← d.executeInsertID (.statement c.statement)
    return (d, decide (id ≠ 0))
  | .query => d.query (.statement c.statement)

/-- A statement is called and reports success. -/
def StatementSucceeds (d : MySQLDatabase σ) (c : StatementCall σ) (d' : MySQLDatabase σ) : Prop :=
  c.exec d = .ok (d', true)

/-- The first attempt of the statement is lost. -/
def StatementCall.FirstLost (c : StatementCall σ) : Prop := MySQLDatabase.FirstLost c.queries

lemma checkedQuery_of_execute {q : Query σ} {r : ℤ} (h : d.execute q = .ok (d', r)) (hr : 0 ≤ r) :
    ∃ res, d.checkedQuery MySQLDatabase.buildConnection q = .ok (d', some (.ok res)) := by
  obtain ⟨⟨d₁, res⟩, hchecked, hret⟩ := bind_eq_ok.1 h
  obtain ⟨rfl, hr'⟩ := Prod.mk.inj (Except.ok.inj hret)
  rcases res with _ | _ | res
  · simp only at hr'
    omega
  · simp only at hr'
    omega
  · exact ⟨res, hchecked⟩

/-- **A statement that reports success** succeeded. -/
lemma StatementSucceeds.checkedQuery (h : StatementSucceeds d c d') : ∃ res,
    (d.withAnswers c.queries c.connects).checkedQuery MySQLDatabase.buildConnection (.statement c.statement) =
      .ok (d', some (.ok res)) := by
  unfold StatementSucceeds StatementCall.exec at h
  rcases hm : c.method with _ | _ | _
  · simp only [hm] at h
    obtain ⟨⟨d₁, r⟩, hexec, hret⟩ := bind_eq_ok.1 h
    obtain ⟨rfl, hr⟩ := Prod.mk.inj (Except.ok.inj hret)
    exact checkedQuery_of_execute hexec (of_decide_eq_true hr)
  · simp only [hm] at h
    obtain ⟨⟨d₁, r⟩, hexec, hret⟩ := bind_eq_ok.1 h
    obtain ⟨rfl, hr⟩ := Prod.mk.inj (Except.ok.inj hret)
    obtain ⟨⟨d₂, res⟩, hchecked, hret⟩ := bind_eq_ok.1 hexec
    obtain ⟨rfl, rfl⟩ := Prod.mk.inj (Except.ok.inj hret)
    rcases res with _ | _ | res
    · simp at hr
    · simp at hr
    · exact ⟨res, hchecked⟩
  · simp only [hm] at h
    obtain ⟨⟨d₂, res⟩, hchecked, hret⟩ := bind_eq_ok.1 h
    obtain ⟨rfl, hr⟩ := Prod.mk.inj (Except.ok.inj hret)
    rcases res with _ | _ | res
    · simp at hr
    · simp at hr
    · exact ⟨res, hchecked⟩

/-! ### The run of a transaction -/

/-- **Where a transaction is** after the calls `es`: its statements wait in it, or it is lost, and what was committed
since comes from no transaction. -/
def TransactionAt (t : ℕ) (before : List (Option ℕ × List σ)) (es : List (StatementCall σ)) (d : MySQLDatabase σ) :
    Prop :=
  d.my = true ∧
  ((∀ c ∈ es, ¬ c.FirstLost) ∧ d.server.session = some (some (t, es.map (·.statement))) ∧ d.server.commits = before ∨
  (∃ c ∈ es, c.FirstLost) ∧ d.server.session = some none ∧ ∃ batches, batches ≠ [] ∧ (∀ b ∈ batches, b.1 = none) ∧
    d.server.commits = before ++ batches)

variable {t : ℕ} {before : List (Option ℕ × List σ)} {es : List (StatementCall σ)}

/-- There is a session as long as no statement fails. -/
lemma TransactionAt.session_ne (h : TransactionAt t before es d) : d.server.session ≠ none := by
  rcases h with ⟨-, ⟨-, hs, -⟩ | ⟨-, hs, -⟩⟩ <;> rw [hs] <;> exact Option.some_ne_none _

/-- A statement outside of a transaction is one more batch from none. -/
lemma TransactionAt.of_auto {s : Server σ} {c : StatementCall σ} (batches : List (Option ℕ × List σ))
    (hmy : d.my = true) (hlost : ∃ e ∈ es ++ [c], e.FirstLost) (hs : s.session = some none)
    (hcommits : s.commits = before ++ batches) (hall : ∀ b ∈ batches, b.1 = none)
    (hserver : d.server = s.run (.statement c.statement)) : TransactionAt t before (es ++ [c]) d := by
  rw [Server.run_statement_auto hs] at hserver
  refine ⟨hmy, .inr ⟨hlost, by rw [hserver]; exact hs, batches ++ [(none, [c.statement])], by simp, ?_, ?_⟩⟩
  · exact List.forall_mem_append.2 ⟨hall, List.forall_mem_singleton.2 rfl⟩
  · rw [hserver, ← List.append_assoc, ← hcommits]

/-- **A statement that reports success** moves the transaction on. -/
lemma TransactionAt.step {c : StatementCall σ} (h : TransactionAt t before es d) (hc : StatementSucceeds d c d') :
    TransactionAt t before (es ++ [c]) d' := by
  obtain ⟨res, hchecked⟩ := hc.checkedQuery
  obtain ⟨hmy', -⟩ := MySQLDatabase.checkedQuery_ok hchecked
  have hne : (d.withAnswers c.queries c.connects).server.session ≠ none := h.session_ne
  obtain ⟨hmy, ⟨hnone, hs, hcommits⟩ | ⟨⟨e, he, hlost⟩, hs, batches, -, hall, hcommits⟩⟩ := h
  · rcases MySQLDatabase.withAnswers_checkedQuery_cases hmy hne hchecked with
      ⟨hfirst, hserver⟩ | ⟨errno, executed, hhead, herrno, s, hs', hcommits', hserver⟩
    · refine ⟨hmy', .inl ⟨?_, ?_, ?_⟩⟩
      · exact List.forall_mem_append.2 ⟨hnone, List.forall_mem_singleton.2 hfirst⟩
      · rw [hserver, Server.run_statement_open hs, List.map_append]
        rfl
      · rw [hserver, Server.run_statement_open hs]
        exact hcommits
    · -- lost: whether it was executed or not, what ran in the transaction is rolled back
      refine .of_auto [] hmy' ⟨c, by simp, errno, executed, hhead, herrno⟩ hs' ?_ (by simp) hserver
      rw [hcommits', List.append_nil]
      split
      · rw [Server.run_statement_open hs]
        exact hcommits
      · exact hcommits
  · have hlost' : ∃ e ∈ es ++ [c], e.FirstLost := ⟨e, List.mem_append_left _ he, hlost⟩
    rcases MySQLDatabase.withAnswers_checkedQuery_cases hmy hne hchecked with
      ⟨-, hserver⟩ | ⟨errno, executed, -, -, s, hs', hcommits', hserver⟩
    · exact .of_auto batches hmy' hlost' hs hcommits hall hserver
    · cases executed with
      | false => exact .of_auto batches hmy' hlost' hs' (hcommits'.trans hcommits) hall hserver
      | true =>
        rw [if_pos rfl, Server.run_statement_auto hs] at hcommits'
        refine .of_auto (batches ++ [(none, [c.statement])]) hmy' hlost' hs' ?_ ?_ hserver
        · rw [hcommits', ← List.append_assoc, ← hcommits]
        · exact List.forall_mem_append.2 ⟨hall, List.forall_mem_singleton.2 rfl⟩

lemma transactionAt_of_run {d₁ : MySQLDatabase σ} (hmy : d₁.my = true) (hs : d₁.server.session = some (some (t, [])))
    (h : Run StatementSucceeds d₁ es d) : TransactionAt t d₁.server.commits es d := by
  refine h.inv (P := fun es d => TransactionAt t d₁.server.commits es d) ⟨hmy, .inl ⟨by simp, hs, rfl⟩⟩ ?_
  intro es d c d' h hc
  exact h.step hc

/-- The calls of `BeginTransaction` and `CommitTransaction`, with their answers. -/
def BeginsTransaction (d : MySQLDatabase σ) (queries : List QueryAnswer) (connects : List ConnectAnswer)
    (d' : MySQLDatabase σ) : Prop := (d.withAnswers queries connects).beginTransaction = .ok (d', true)

@[inherit_doc BeginsTransaction]
def CommitsTransaction (d : MySQLDatabase σ) (queries : List QueryAnswer) (connects : List ConnectAnswer)
    (d' : MySQLDatabase σ) : Prop := (d.withAnswers queries connects).commitTransaction = .ok (d', true)

lemma BeginsTransaction.opens {queries : List QueryAnswer} {connects : List ConnectAnswer}
    (h : BeginsTransaction d queries connects d') :
    d'.my = true ∧ ∃ t, d'.server.session = some (some (t, [])) := by
  obtain ⟨⟨d₁, r⟩, hexec, hret⟩ := bind_eq_ok.1 h
  obtain ⟨rfl, hr⟩ := Prod.mk.inj (Except.ok.inj hret)
  obtain ⟨res, hchecked⟩ := checkedQuery_of_execute hexec (Int.le_of_eq (of_decide_eq_true hr))
  obtain ⟨hmy, s, hs, hserver⟩ := MySQLDatabase.checkedQuery_ok hchecked
  refine ⟨hmy, s.nextTransaction, ?_⟩
  rw [hserver, Server.run_startTransaction hs]

lemma CommitsTransaction.checkedQuery {queries : List QueryAnswer} {connects : List ConnectAnswer}
    (h : CommitsTransaction d queries connects d') : ∃ res,
    (d.withAnswers queries connects).checkedQuery MySQLDatabase.buildConnection .commit = .ok (d', some (.ok res)) := by
  obtain ⟨⟨d₁, r⟩, hexec, hret⟩ := bind_eq_ok.1 h
  obtain ⟨rfl, hr⟩ := Prod.mk.inj (Except.ok.inj hret)
  exact checkedQuery_of_execute hexec (Int.le_of_eq (of_decide_eq_true hr))

/-- The statements of the calls `es` were committed together, by the transaction that was open in `d₁`. -/
def CommittedTogether (d₁ : MySQLDatabase σ) (es : List (StatementCall σ)) (d₃ : MySQLDatabase σ) : Prop :=
  ∃ t, d₁.server.session = some (some (t, [])) ∧
    d₃.server.commits = d₁.server.commits ++ [(some t, es.map (·.statement))]

/-- **Statements are committed together** by calls that all report success if and only if no first attempt of a statement
is lost, and the first attempt of the commit is not lost before it is executed. -/
theorem committed_together_iff {d₀ d₁ d₂ d₃ : MySQLDatabase σ} {queries₁ queries₂ : List QueryAnswer}
    {connects₁ connects₂ : List ConnectAnswer} (hbegin : BeginsTransaction d₀ queries₁ connects₁ d₁)
    (hrun : Run StatementSucceeds d₁ es d₂) (hcommit : CommitsTransaction d₂ queries₂ connects₂ d₃) :
    CommittedTogether d₁ es d₃ ↔ (∀ c ∈ es, ¬ c.FirstLost) ∧
      ∀ errno, isLost errno = true → queries₂.head? ≠ some (.error errno false) := by
  obtain ⟨hmy₁, t, ht⟩ := hbegin.opens
  have hat := transactionAt_of_run hmy₁ ht hrun
  have hne := hat.session_ne
  obtain ⟨hmy, hwhere⟩ := hat
  obtain ⟨res, hchecked⟩ := hcommit.checkedQuery
  have hcases := MySQLDatabase.withAnswers_checkedQuery_cases hmy hne hchecked
  rcases hwhere with ⟨hnone, hs, hcommits⟩ | ⟨⟨e, he, hlost⟩, hs, batches, hbatches, hall, hcommits⟩
  · -- the statements wait in the transaction
    have hrun := Server.run_commit_open hs
    have hdone : d₃.server.commits = d₁.server.commits ++ [(some t, es.map (·.statement))] →
        CommittedTogether d₁ es d₃ := fun h => ⟨t, ht, h⟩
    rcases hcases with ⟨hfirst, hserver⟩ | ⟨errno, executed, hhead, herrno, s, hs', hcommits', hserver⟩
    · refine iff_of_true (hdone ?_) ⟨hnone, ?_⟩
      · rw [hserver, hrun, hcommits]
      · intro errno herrno hhead
        exact hfirst ⟨errno, false, hhead, herrno⟩
    · rw [Server.run_commit_auto hs'] at hserver
      cases executed with
      | true =>
        refine iff_of_true (hdone ?_) ⟨hnone, ?_⟩
        · rw [hserver, hcommits', if_pos rfl, hrun, hcommits]
        · intro errno' herrno' hhead'
          cases hhead.symm.trans hhead'
      | false =>
        refine iff_of_false ?_ fun h => h.2 errno herrno hhead
        rintro ⟨t', -, h⟩
        rw [hserver, hcommits', if_neg Bool.false_ne_true, hcommits] at h
        simp at h
  · -- the transaction was rolled back
    refine iff_of_false ?_ fun h => h.1 e he hlost
    rintro ⟨t', -, h⟩
    have hrun := Server.run_commit_auto hs
    have hsame : d₃.server.commits = d₂.server.commits := by
      rcases hcases with ⟨-, hserver⟩ | ⟨errno, executed, -, -, s, hs', hcommits', hserver⟩
      · rw [hserver, hrun]
      · rw [hserver, Server.run_commit_auto hs', hcommits', hrun, ite_self]
    rw [hsame, hcommits] at h
    have heq := List.append_cancel_left h
    have := hall (some t', es.map (·.statement)) (by rw [heq]; exact List.mem_singleton_self _)
    cases this

end

/-- Two statements run, and the answer to the commit is lost after it was executed. -/
theorem committed_together_iff_run : ∃ d₁ d₂ d₃ : MySQLDatabase String,
    BeginsTransaction ⟨true, ⟨some none, [], 0⟩, [], []⟩ [.ok {}] [] d₁ ∧
    Run StatementSucceeds d₁ [⟨.execute, "a", [.ok { affectedRows := 1 }], []⟩,
      ⟨.executeInsertID, "b", [.ok { insertId := 7 }], []⟩] d₂ ∧
    CommitsTransaction d₂ [.error 2013 true, .ok {}, .ok {}, .ok {}] [.connected] d₃ ∧
    CommittedTogether d₁ [⟨.execute, "a", [.ok { affectedRows := 1 }], []⟩,
      ⟨.executeInsertID, "b", [.ok { insertId := 7 }], []⟩] d₃ := by
  let d (batch : List String) : MySQLDatabase String := ⟨true, ⟨some (some (0, batch)), [], 1⟩, [], []⟩
  have hbegin : BeginsTransaction ⟨true, ⟨some none, [], 0⟩, [], []⟩ [.ok {}] [] (d []) := rfl
  have ha : StatementSucceeds (d []) ⟨.execute, "a", [.ok { affectedRows := 1 }], []⟩ (d ["a"]) := rfl
  have hb : StatementSucceeds (d ["a"]) ⟨.executeInsertID, "b", [.ok { insertId := 7 }], []⟩ (d ["a", "b"]) := rfl
  have hcommit : CommitsTransaction (d ["a", "b"]) [.error 2013 true, .ok {}, .ok {}, .ok {}] [.connected]
      ⟨true, ⟨some none, [(some 0, ["a", "b"])], 1⟩, [], []⟩ := rfl
  have hrun := (Run.nil.snoc ha).snoc hb
  refine ⟨_, _, _, hbegin, hrun, hcommit, (committed_together_iff hbegin hrun hcommit).2 ⟨?_, ?_⟩⟩
  · intro c hc hlost
    obtain ⟨errno, executed, hhead, -⟩ := hlost
    simp only [List.nil_append, List.cons_append, List.mem_cons, List.not_mem_nil, or_false] at hc
    rcases hc with rfl | rfl <;> cases hhead
  · rintro errno - ⟨⟩

/-- **A statement that is lost** is committed alone, and the one before it is not. -/
theorem lost_statement_committed_alone : ∃ d₁ d₂ d₃ : MySQLDatabase String,
    BeginsTransaction ⟨true, ⟨some none, [], 0⟩, [], []⟩ [.ok {}] [] d₁ ∧
    Run StatementSucceeds d₁ [⟨.execute, "a", [.ok { affectedRows := 1 }], []⟩,
      ⟨.execute, "b", [.error 2006 false, .ok {}, .ok {}, .ok { affectedRows := 1 }], [.connected]⟩] d₂ ∧
    CommitsTransaction d₂ [.ok {}] [] d₃ ∧
    d₃.server.commits = [(none, ["b"])] ∧
    ¬ CommittedTogether d₁ [⟨.execute, "a", [.ok { affectedRows := 1 }], []⟩,
      ⟨.execute, "b", [.error 2006 false, .ok {}, .ok {}, .ok { affectedRows := 1 }], [.connected]⟩] d₃ := by
  let d (batch : List String) : MySQLDatabase String := ⟨true, ⟨some (some (0, batch)), [], 1⟩, [], []⟩
  let d₂ : MySQLDatabase String := ⟨true, ⟨some none, [(none, ["b"])], 1⟩, [], []⟩
  have hbegin : BeginsTransaction ⟨true, ⟨some none, [], 0⟩, [], []⟩ [.ok {}] [] (d []) := rfl
  have ha : StatementSucceeds (d []) ⟨.execute, "a", [.ok { affectedRows := 1 }], []⟩ (d ["a"]) := rfl
  have hb : StatementSucceeds (d ["a"])
      ⟨.execute, "b", [.error 2006 false, .ok {}, .ok {}, .ok { affectedRows := 1 }], [.connected]⟩ d₂ := rfl
  have hcommit : CommitsTransaction d₂ [.ok {}] [] d₂ := rfl
  refine ⟨_, _, _, hbegin, (Run.nil.snoc ha).snoc hb, hcommit, rfl, ?_⟩
  rintro ⟨t, -, h⟩
  cases h

end Zutils.Db
