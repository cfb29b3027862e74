import Zutils.Db.MySqlCallsSpec
import Zutils.Db.MySqlSpec

/-!
# A connection and its calls

What `Query`, `ExecuteInsertID` and `Execute` return with a server and finitely many answers, they return with the
outcomes that these answers come to, by the calls that are made of the client library (`statements_agree`). An answer
of a session that is gone comes to a lost query.
-/

namespace Zutils.Db.Client

open Zutils.Lib

variable {σ α β : Type}

/-- The sequence has the values of the list from `k` on. -/
def StartsWith (f : ℕ → β) (k : ℕ) (l : List β) : Prop := ∀ i v, l[i]? = some v → f (k + i) = v

/-- With the outcomes that the answers between `d` and `d'` come to, and where `BuildConnection` may be deep enough in
itself, the program returns `a`. -/
def Simulates (x : ℕ → Outcomes → Client σ α) (d d' : MySQLDatabase σ) (a : α) : Prop :=
  ∃ m cs qs, ∀ n (o : Outcomes) (s : ClientState σ), m ≤ n → s.my = d.my → StartsWith o.connects s.connects cs →
    StartsWith o.queries s.queries qs → Ensures (x n o) s (fun a' s' => a' = a ∧ s'.my = d'.my ∧
      s'.connects = s.connects + cs.length ∧ s'.queries = s.queries + qs.length) fun _ _ => False

/-- `BuildConnection` is simulated. -/
def BuildsAlike (build : MySQLDatabase σ → Except MySqlFault (MySQLDatabase σ × Bool)) : Prop :=
  ∀ d d' built, build d = .ok (d', built) → Simulates (fun n o => buildConnection o n) d d' built

/-- What a statement returns. -/
def answered (absent failed : α) (found : QueryOk → α) : Option (Except ℕ QueryOk) → α
  | none => absent
  | some (.error _) => failed
  | some (.ok r) => found r

section Simulation

variable {d d' d₁ d₂ : MySQLDatabase σ} {x : ℕ → Outcomes → Client σ α} {f : ℕ → Outcomes → α → Client σ β} {a : α}
  {b : β} {q : Query σ} {fn : ClientFn σ} {build : MySQLDatabase σ → Except MySqlFault (MySQLDatabase σ × Bool)}

lemma StartsWith.of_append {g : ℕ → β} {k : ℕ} {l l' : List β} (h : StartsWith g k (l ++ l')) :
    StartsWith g k l ∧ StartsWith g (k + l.length) l' := by
  constructor
  · intro i v hi
    apply h i v
    rw [List.getElem?_append_left (List.getElem?_eq_some_iff.1 hi).1]
    exact hi
  · intro i v hi
    rw [Nat.add_assoc]
    apply h (l.length + i) v
    rw [List.getElem?_append_right (Nat.le_add_right _ _), Nat.add_sub_cancel_left]
    exact hi

lemma StartsWith.head {g : ℕ → β} {k : ℕ} {v : β} {l : List β} (h : StartsWith g k (v :: l)) :
    g k = v ∧ StartsWith g (k + 1) l :=
  ⟨h 0 v rfl, (StartsWith.of_append (l := [v]) h).2⟩

lemma simulates_pure (d : MySQLDatabase σ) (a : α) : Simulates (fun _ _ => pure a) d d a :=
  ⟨0, [], [], fun _ _ _ _ hmy _ _ => ⟨rfl, hmy, rfl, rfl⟩⟩

lemma Simulates.bind (hx : Simulates x d d₁ a) (hf : Simulates (fun n o => f n o a) d₁ d₂ b) :
    Simulates (fun n o => x n o >>= f n o) d d₂ b := by
  obtain ⟨m, cs, qs, hx⟩ := hx
  obtain ⟨m', cs', qs', hf⟩ := hf
  refine ⟨max m m', cs ++ cs', qs ++ qs', fun n o s hn hmy hcs hqs => ?_⟩
  obtain ⟨hcs, hcs'⟩ := hcs.of_append
  obtain ⟨hqs, hqs'⟩ := hqs.of_append
  refine (hx n o s (Nat.le_trans (Nat.le_max_left m m') hn) hmy hcs hqs).bind ?_
  rintro _ s₁ ⟨rfl, hmy₁, hconnects₁, hqueries₁⟩
  rw [← hconnects₁] at hcs'
  rw [← hqueries₁] at hqs'
  refine (hf n o s₁ (Nat.le_trans (Nat.le_max_right m m') hn) hmy₁ hcs' hqs').imp ?_
  rintro _ s₂ ⟨rfl, hmy₂, hconnects₂, hqueries₂⟩
  rw [List.length_append, List.length_append]
  exact ⟨rfl, hmy₂, by omega, by omega⟩

lemma simulates_onMy (hmy : d.my = true ∨ fn.TakesNull = true) (hx : Simulates x d d a) :
    Simulates (fun n o => do onMy fn; x n o) d d a := by
  refine Simulates.bind (a := ()) ⟨0, [], [], fun n o s _ hs _ _ => ?_⟩ hx
  rw [ensures_onMy, if_pos (by rw [hs]; simpa using hmy)]
  exact ⟨rfl, hs, rfl, rfl⟩

lemma simulates_send {res : Except ℕ QueryOk} (h : d.realQuery q = .ok (d', res)) :
    Simulates (fun _ o => send o q) d d' res := by
  obtain ⟨hmy, hmy', -⟩ := MySQLDatabase.realQuery_cases h
  refine ⟨0, [], [res], fun n o s _ hs _ hqs => ?_⟩
  rw [ensures_send (hs.trans hmy)]
  exact ⟨hqs.head.1, hs.trans (hmy.trans hmy'.symm), rfl, rfl⟩

lemma simulates_safeQuery {res : Except ℕ QueryOk} (hbuild : BuildsAlike build)
    (h : d.safeQuery build q = .ok (d', res)) :
    Simulates (fun n o => safeQuery o (buildConnection o n) q) d d' res := by
  rcases MySQLDatabase.safeQuery_cases h with ⟨hreal, hkept⟩ | ⟨d₁, d₂, errno, built, hreal, hlost, hb, hlast⟩
  · refine (simulates_send hreal).bind ?_
    cases res with
    | ok r => exact simulates_pure d' _
    | error errno =>
      simp only [hkept errno rfl, Bool.false_eq_true, if_false]
      exact simulates_pure d' _
  · refine (simulates_send hreal).bind ?_
    simp only [hlost, if_true]
    refine (hbuild _ _ _ hb).bind ?_
    rcases hlast with ⟨rfl, hlast⟩ | ⟨rfl, rfl, rfl⟩
    · simp only [if_true]
      exact simulates_send hlast
    · simp only [Bool.false_eq_true, if_false]
      exact simulates_pure d' _

lemma simulates_checkConnection {connected : Bool} (hbuild : BuildsAlike build)
    (h : d.checkConnection build = .ok (d', connected)) :
    Simulates (fun n o => checkConnection (buildConnection o n)) d d' connected := by
  rcases MySQLDatabase.checkConnection_cases h with ⟨hmy, rfl, rfl⟩ | ⟨hmy, hb⟩
  · refine ⟨0, [], [], fun n o s _ hs _ _ => ?_⟩
    show Ensures (checkConnection (buildConnection o n)) s _ _
    rw [checkConnection, ensures_bind, ensures_get, if_pos (hs.trans hmy)]
    exact ⟨rfl, hs, rfl, rfl⟩
  · obtain ⟨m, cs, qs, hsim⟩ := hbuild _ _ _ hb
    refine ⟨m, cs, qs, fun n o s hn hs hcs hqs => ?_⟩
    show Ensures (checkConnection (buildConnection o n)) s _ _
    rw [checkConnection, ensures_bind, ensures_get, if_neg (by simp [hs, hmy])]
    exact hsim n o s hn hs hcs hqs

lemma my_of_safeQuery {r : QueryOk} (h : d.safeQuery build q = .ok (d', .ok r)) : d'.my = true := by
  rcases MySQLDatabase.safeQuery_cases h with ⟨hreal, -⟩ | ⟨d₁, d₂, errno, built, -, -, -, ⟨-, hreal⟩ | ⟨-, -, hres⟩⟩
  · exact (MySQLDatabase.realQuery_cases hreal).2.1
  · exact (MySQLDatabase.realQuery_cases hreal).2.1
  · cases hres

/-- **A statement** returns what its query is answered. -/
lemma simulates_statement (absent failed : α) {next : QueryOk → Client σ α} {found : QueryOk → α}
    {res : Option (Except ℕ QueryOk)} (hbuild : BuildsAlike build)
    (hnext : ∀ r (d : MySQLDatabase σ), d.my = true → Simulates (fun _ _ => next r) d d (found r))
    (h : d.checkedQuery build q = .ok (d', res)) :
    Simulates (fun n o => statement o (buildConnection o n) absent failed next q) d d'
      (answered absent failed found res) := by
  obtain ⟨⟨d₁, connected⟩, hcheck, h⟩ := bind_eq_ok.1 h
  refine (simulates_checkConnection hbuild hcheck).bind ?_
  cases connected with
  | false =>
    obtain ⟨rfl, rfl⟩ := Prod.mk.inj (Except.ok.inj h)
    exact simulates_pure d₁ absent
  | true =>
    obtain ⟨⟨d₂, res'⟩, hsafe, h⟩ := bind_eq_ok.1 h
    obtain ⟨rfl, rfl⟩ := Prod.mk.inj (Except.ok.inj h)
    simp only [if_true]
    refine (simulates_safeQuery hbuild hsafe).bind ?_
    cases res' with
    | ok r => exact hnext r d₂ (my_of_safeQuery hsafe)
    | error errno => exact simulates_onMy (.inr rfl) (simulates_pure d₂ failed)

lemma answered_ok (absent failed : α) (found : QueryOk → α) (r : QueryOk) :
    answered absent failed found (some (.ok r)) = found r := rfl

lemma simulates_executeWith {r : ℤ} (hbuild : BuildsAlike build) (h : d.executeWith build q = .ok (d', r)) :
    Simulates (fun n o => executeWith o (buildConnection o n) q) d d' r := by
  obtain ⟨⟨d₁, res⟩, hchecked, h⟩ := bind_eq_ok.1 h
  obtain ⟨rfl, hr⟩ := Prod.mk.inj (Except.ok.inj h)
  have hanswered : answered (-2000) (-1) (fun r => toInt r.affectedRows) res = r := by
    rcases res with _ | _ | r'
    · exact hr
    · exact hr
    · have hr : toInt r'.affectedRows = r := hr
      rwa [answered_ok]
  rw [← hanswered]
  exact simulates_statement _ _ hbuild (fun r d hmy => simulates_onMy (.inl hmy) (simulates_pure d _)) hchecked

lemma simulates_setUp {r₁ r₂ : ℤ} (hbuild : BuildsAlike build) (h₁ : d.executeWith build .setNames = .ok (d₁, r₁))
    (h₂ : d₁.executeWith build .setCharacterSet = .ok (d₂, r₂)) (hmy : d₂.my = true) :
    Simulates (fun n o => setUp o (buildConnection o n)) d d₂ true := by
  have hoptions : Simulates (fun _ _ => do
      onMy .options
      return true : ℕ → Outcomes → Client σ Bool) d₂ d₂ true :=
    simulates_onMy (.inl hmy) (simulates_pure d₂ true)
  have hsecond : Simulates (fun n o => do
      let _ ← executeWith o (buildConnection o n) .setCharacterSet
      onMy .options
      return true : ℕ → Outcomes → Client σ Bool) d₁ d₂ true :=
    (simulates_executeWith hbuild h₂).bind hoptions
  exact (simulates_executeWith hbuild h₁).bind hsecond

lemma simulates_buildConnection_failed (hmy : d'.my = false) :
    Simulates (fun n o => buildConnection o n) d d' false := by
  refine ⟨1, [.failed], [], fun n o s hn hs hcs _ => ?_⟩
  obtain ⟨n, rfl⟩ : ∃ n', n = n' + 1 := ⟨n - 1, by omega⟩
  show Ensures (buildConnection o (n + 1)) s _ _
  rw [ensures_buildConnection_failed hcs.head.1]
  exact ⟨rfl, hmy.symm, rfl, s.refused_queries⟩

lemma simulates_buildConnection_connected (hmy : d₁.my = true)
    (hsetUp : Simulates (fun n o => setUp o (buildConnection o n)) d₁ d' true) :
    Simulates (fun n o => buildConnection o n) d d' true := by
  obtain ⟨m, cs, qs, hsim⟩ := hsetUp
  refine ⟨m + 1, .connected :: cs, qs, fun n o s hn hs hcs hqs => ?_⟩
  obtain ⟨n, rfl⟩ : ∃ n', n = n' + 1 := ⟨n - 1, by omega⟩
  obtain ⟨hout, hcs⟩ := hcs.head
  show Ensures (buildConnection o (n + 1)) s _ _
  rw [ensures_buildConnection_connected hout]
  have hqueries : s.opened.queries = s.queries := s.opened_queries
  refine (hsim n o s.opened (Nat.le_of_succ_le_succ hn) hmy.symm hcs (hqueries.symm ▸ hqs)).imp ?_
  rintro _ s' ⟨rfl, hmy', hconnects, hqueries'⟩
  rw [ClientState.opened_connects] at hconnects
  exact ⟨rfl, hmy', by rw [hconnects, List.length_cons]; omega, by rw [hqueries', hqueries]⟩

/-- **`BuildConnection`**, by induction on how deep it may be in itself. -/
lemma buildConnectionWithin_alike (k : ℕ) :
    BuildsAlike (MySQLDatabase.buildConnectionWithin k : MySQLDatabase σ → _) := by
  induction k with
  | zero =>
    intro d d' built h
    cases h
  | succ k ih =>
    intro d d' built h
    rcases MySQLDatabase.buildConnectionWithin_cases h with
      ⟨connects, -, rfl, rfl⟩ | ⟨connects, d₁, r₁, r₂, -, rfl, h₁, h₂, hmy⟩
    · exact simulates_buildConnection_failed d.closeDb_my
    · exact simulates_buildConnection_connected rfl (simulates_setUp ih h₁ h₂ hmy)

lemma buildConnection_alike : BuildsAlike (MySQLDatabase.buildConnection : MySQLDatabase σ → _) :=
  fun d d' built h => buildConnectionWithin_alike (d.connects.length + 1) d d' built h

lemma simulates_executeInsertID {id : ℕ} (h : d.executeInsertID q = .ok (d', id)) :
    Simulates (fun n o => executeInsertIDWith o (buildConnection o n) q) d d' id := by
  obtain ⟨⟨d₁, res⟩, hchecked, h⟩ := bind_eq_ok.1 h
  obtain ⟨rfl, hid⟩ := Prod.mk.inj (Except.ok.inj h)
  have hanswered : answered 0 0 QueryOk.insertId res = id := by
    rcases res with _ | _ | r <;> exact hid
  rw [← hanswered]
  exact simulates_statement _ _ buildConnection_alike
    (fun r d hmy => simulates_onMy (.inl hmy) (simulates_pure d _)) hchecked

lemma simulates_query {found : Bool} (h : d.query q = .ok (d', found)) :
    Simulates (fun n o => queryWith o (buildConnection o n) q) d d' found := by
  obtain ⟨⟨d₁, res⟩, hchecked, h⟩ := bind_eq_ok.1 h
  obtain ⟨rfl, hfound⟩ := Prod.mk.inj (Except.ok.inj h)
  have hanswered : answered false false QueryOk.hasResult res = found := by
    rcases res with _ | _ | r <;> exact hfound
  rw [← hanswered]
  exact simulates_statement _ _ buildConnection_alike
    (fun r d hmy => simulates_onMy (.inl hmy) (simulates_onMy (.inl hmy) (simulates_onMy (.inl hmy) (simulates_pure d _))))
    hchecked

end Simulation

/-- With some outcomes the program returns `a`, from any database with the handle of `d` on, and leaves that of `d'`. -/
def AgreesOn (x : ℕ → Outcomes → Client σ α) (d d' : MySQLDatabase σ) (a : α) : Prop :=
  ∃ o m, ∀ n (s : ClientState σ), m ≤ n → s.my = d.my → s.connects = 0 → s.queries = 0 →
    ∃ s', x n o s = .ok a s' ∧ s'.my = d'.my

/-- The outcomes of two lists, and any behind them. -/
def listed (cs : List ConnectOutcome) (qs : List (Except ℕ QueryOk)) : Outcomes :=
  ⟨fun i => cs[i]?.getD .failed, fun i => qs[i]?.getD (.ok {})⟩

lemma Simulates.agreesOn {x : ℕ → Outcomes → Client σ α} {d d' : MySQLDatabase σ} {a : α} (h : Simulates x d d' a) :
    AgreesOn x d d' a := by
  obtain ⟨m, cs, qs, h⟩ := h
  refine ⟨listed cs qs, m, fun n s hn hmy hconnects hqueries => ?_⟩
  have hcs : StartsWith (listed cs qs).connects s.connects cs := fun i v hi => by simp [listed, hconnects, hi]
  have hqs : StartsWith (listed cs qs).queries s.queries qs := fun i v hi => by simp [listed, hqueries, hi]
  have hens := h n (listed cs qs) s hn hmy hcs hqs
  cases hx : x n (listed cs qs) s with
  | ok a' s' =>
    obtain ⟨rfl, hmy', -⟩ := hens.of_ok hx
    exact ⟨s', rfl, hmy'⟩
  | error e s' =>
    rw [Ensures, hx] at hens
    exact hens.elim

/-- **What the statements return** with a server and its answers, they return by calls of the client library. -/
theorem statements_agree (d d' : MySQLDatabase σ) (q : Query σ) :
    (∀ found, d.query q = .ok (d', found) → AgreesOn (fun n o => queryWith o (buildConnection o n) q) d d' found) ∧
    (∀ id, d.executeInsertID q = .ok (d', id) →
      AgreesOn (fun n o => executeInsertIDWith o (buildConnection o n) q) d d' id) ∧
    ∀ r, d.execute q = .ok (d', r) → AgreesOn (fun n o => executeWith o (buildConnection o n) q) d d' r :=
  ⟨fun _ h => (simulates_query h).agreesOn,
    fun _ h => (simulates_executeInsertID h).agreesOn,
    fun _ h => (simulates_executeWith buildConnection_alike h).agreesOn⟩

end Zutils.Db.Client
