import Zutils.Db.MySqlCallsSpec
import Mathlib.Data.Set.Defs

/-!
# How often a statement connects

A connection that has been built is set up by `SET NAMES` and `SET CHARACTER SET`, each by way of `Execute`. Where one of
them is lost, `SafeQuery` builds another connection, which is set up in the same way, and so on: a server that accepts
connections and drops every query is never done with. As long as no statement that sets up a connection is lost, a call
connects at most twice: without a connection at first, and once more when its query is lost.
-/

namespace Zutils.Db

open Zutils.Lib

variable {σ : Type}

/-- The codes of a lost connection. -/
def LostOutcome : Except ℕ QueryOk → Prop
  | .ok _ => False
  | .error errno => isLost errno = true

/-- If a connection is set up by the call, its outcome is in `A`. -/
def ClientFn.SetUpIn (A : Set (Except ℕ QueryOk)) : ClientFn σ → Prop
  | .realQuery .setNames outcome | .realQuery .setCharacterSet outcome => outcome ∈ A
  | _ => True

lemma ClientFn.SetUpIn.mono {A B : Set (Except ℕ QueryOk)} {fn : ClientFn σ} (h : fn.SetUpIn A)
    (hAB : ∀ outcome ∈ A, outcome ∈ B) : fn.SetUpIn B := by
  cases fn with
  | realQuery q outcome =>
    cases q with
    | setNames => exact hAB outcome h
    | setCharacterSet => exact hAB outcome h
    | _ => trivial
  | _ => trivial

namespace Client

variable (o : Outcomes) (s : ClientState σ) (call : DatabaseCall σ)

/-- The call returns, and connects at most `k` times. -/
def ReturnsWithin (k : ℕ) : Prop := ∃ n s', exec o n call s = .ok () s' ∧ s'.connects ≤ s.connects + k

/-- In the call, however deep it goes, the outcomes of what sets up connections are in `A`. -/
def SetsUpIn (A : Set (Except ℕ QueryOk)) : Prop :=
  ∀ n, ∀ c ∈ (finalState (exec o n call s)).calls.drop s.calls.length, c.fn.SetUpIn A

/-- What sets up a connection was lost, behind the first `m` calls. -/
def LostSetUp (m : ℕ) (s : ClientState σ) : Prop := ∃ c ∈ s.calls.drop m, ¬ c.fn.SetUpIn { r | ¬ LostOutcome r }

/-! ### The set-up is not lost -/

section Kept

variable {o : Outcomes} {s : ClientState σ} {q : Query σ} {m n : ℕ} {build : Client σ Bool}

lemma lostSetUp_stable (m : ℕ) : Stable o (LostSetUp m : ClientState σ → Prop) where
  add := by
    rintro s c ⟨c', hc', hlost⟩ -
    refine ⟨c', ?_, hlost⟩
    rw [ClientState.add_calls, List.drop_append]
    exact List.mem_append_left _ hc'
  handle := fun _ _ _ h => h
  connects := fun _ h => h
  queries := fun _ h => h

lemma lostSetUp_sent {errno : ℕ} (hq : q = .setNames ∨ q = .setCharacterSet)
    (hout : o.queries s.queries = .error errno) (hlost : isLost errno = true) (hm : m ≤ s.calls.length) :
    LostSetUp m (s.sent o q) := by
  refine ⟨⟨.realQuery q (.error errno), .my, s.mysql⟩, ?_, ?_⟩
  · rw [ClientState.sent, hout]
    show _ ∈ List.drop m (s.calls ++ _)
    rw [List.drop_append, Nat.sub_eq_zero_of_le hm, List.drop_zero]
    simp
  · rcases hq with rfl | rfl
    · exact fun h => h hlost
    · exact fun h => h hlost

lemma ensures_of_lostSetUp {α : Type} {x : Client σ α} {Q : α → ClientState σ → Prop} (hlost : LostSetUp m s)
    (hx : Keeps (LostSetUp m) x) : Ensures x s (fun a s' => Q a s' ∨ LostSetUp m s') fun _ => LostSetUp m :=
  Keeps.ensures hlost hx (fun _ _ => .inr) fun _ _ h => h

/-- Nothing has been built, and there is a connection. -/
structure StillConnected (m k : ℕ) (s : ClientState σ) : Prop where
  my_eq : s.my = true
  connects_eq : s.connects = k
  le_length : m ≤ s.calls.length

lemma StillConnected.add {k : ℕ} (h : StillConnected m k s) (c : ClientCall σ) : StillConnected m k (s.add c) := by
  refine ⟨h.my_eq, h.connects_eq, ?_⟩
  rw [ClientState.add_calls, List.length_append]
  exact Nat.le_add_right_of_le h.le_length

/-- **A set-up query stays on its connection**, or is lost. -/
lemma safeQuery_setUp {k : ℕ} (hbuild : Keeps (LostSetUp m) build) (hq : q = .setNames ∨ q = .setCharacterSet)
    (h : StillConnected m k s) :
    Ensures (safeQuery o build q) s (fun _ s' => StillConnected m k s' ∨ LostSetUp m s') fun _ => LostSetUp m := by
  have hsent : StillConnected m k (s.sent o q) := by
    refine ⟨h.my_eq, h.connects_eq, ?_⟩
    rw [ClientState.sent, List.length_append]
    exact Nat.le_add_right_of_le h.le_length
  rw [safeQuery, ensures_bind, ensures_send h.my_eq]
  cases hout : o.queries s.queries with
  | ok r => exact .inl hsent
  | error errno =>
    dsimp only
    by_cases hlost : isLost errno = true
    · rw [if_pos hlost]
      refine ensures_of_lostSetUp (lostSetUp_sent hq hout hlost h.le_length) ?_
      exact hbuild.bind fun built => .ite (lostSetUp_stable m).send (keeps_pure _)
    · rw [if_neg hlost]
      exact .inl hsent

lemma executeWith_setUp {k : ℕ} (hbuild : Keeps (LostSetUp m) build) (hq : q = .setNames ∨ q = .setCharacterSet)
    (h : StillConnected m k s) :
    Ensures (executeWith o build q) s (fun _ s' => StillConnected m k s' ∨ LostSetUp m s') fun _ => LostSetUp m := by
  rw [executeWith, ensures_statement h.my_eq, statementOn]
  refine (safeQuery_setUp hbuild hq h).bind ?_
  have hafter : ∀ (fn : ClientFn σ) (r : ℤ) s', FromOutcomes o fn → StillConnected m k s' ∨ LostSetUp m s' →
      Ensures (do onMy fn; return r) s' (fun _ s' => StillConnected m k s' ∨ LostSetUp m s') fun _ => LostSetUp m := by
    rintro fn r s' hfn (hs' | hs')
    · rw [ensures_bind, ensures_onMy_of_my hs'.my_eq]
      exact .inl (hs'.add _)
    · refine ensures_of_lostSetUp hs' ?_
      exact ((lostSetUp_stable m).onMy hfn).bind fun _ => keeps_pure _
  intro res s' hs'
  cases res with
  | ok r => exact hafter _ _ s' trivial hs'
  | error errno => exact hafter _ _ s' trivial hs'

/-- **`BuildConnection` connects once**, or what it sets up is lost. -/
lemma buildConnection_once (hm : m ≤ s.calls.length) : Ensures (buildConnection o (n + 1)) s
    (fun built s' => s'.connects = s.connects + 1 ∧ m ≤ s'.calls.length ∧ (built = true → s'.my = true) ∨ LostSetUp m s')
    fun _ => LostSetUp m := by
  have hclosed : m ≤ s.closed.calls.length := by
    rw [ClientState.closed_calls, List.length_append]
    exact Nat.le_add_right_of_le hm
  cases hout : o.connects s.connects with
  | noMemory =>
    rw [ensures_buildConnection_noMemory hout]
    refine .inl ⟨rfl, ?_, fun h => by cases h⟩
    rw [ClientState.inited, ClientState.add_calls, List.length_append]
    exact Nat.le_add_right_of_le hclosed
  | failed =>
    rw [ensures_buildConnection_failed hout]
    refine .inl ⟨rfl, ?_, fun h => by cases h⟩
    show m ≤ (s.attempted.calls ++ _).length
    rw [ClientState.attempted_calls, List.length_append, List.length_append]
    omega
  | connected =>
    have hopened : StillConnected m (s.connects + 1) s.opened := by
      refine ⟨rfl, rfl, ?_⟩
      show m ≤ (s.attempted.calls ++ _).length
      rw [ClientState.attempted_calls, List.length_append, List.length_append]
      omega
    have hstable : Stable o (LostSetUp m : ClientState σ → Prop) := lostSetUp_stable m
    have hbuild := hstable.buildConnection n
    rw [ensures_buildConnection_connected hout, setUp]
    refine (executeWith_setUp hbuild (.inl rfl) hopened).bind ?_
    rintro - s₁ (h₁ | h₁)
    · refine (executeWith_setUp hbuild (.inr rfl) h₁).bind ?_
      rintro - s₂ (h₂ | h₂)
      · rw [ensures_bind, ensures_onMy_of_my h₂.my_eq]
        have h₃ := h₂.add ⟨.options, .my, s₂.mysql⟩
        exact .inl ⟨h₃.connects_eq, h₃.le_length, fun _ => h₃.my_eq⟩
      · refine ensures_of_lostSetUp h₂ ?_
        exact (hstable.onMy (by trivial)).bind fun _ => keeps_pure _
    · refine ensures_of_lostSetUp h₁ ?_
      exact (hstable.executeWith hbuild).bind fun _ => (hstable.onMy (by trivial)).bind fun _ => keeps_pure _

variable {α : Type} {absent failed : α} {next : QueryOk → Client σ α}

lemma asks_connects {x : Client σ α} (hx : Asks x) (hmy : s.my = true) :
    Ensures x s (fun _ s' => s'.connects = s.connects) fun _ _ => False := by
  induction hx generalizing s with
  | ret a => exact rfl
  | ask hfn _ ih =>
    rw [ensures_bind, ensures_onMy_of_my hmy]
    exact ih hmy

/-- **A query is lost once at most.** -/
lemma safeQuery_once (hmy : s.my = true) (hm : m ≤ s.calls.length) :
    Ensures (safeQuery o (buildConnection o (n + 1)) q) s
      (fun res s' => s'.connects ≤ s.connects + 1 ∧ (∀ r, res = .ok r → s'.my = true) ∨ LostSetUp m s')
      fun _ => LostSetUp m := by
  have hlength : m ≤ (s.sent o q).calls.length := by
    rw [ClientState.sent, List.length_append]
    exact Nat.le_add_right_of_le hm
  rw [safeQuery, ensures_bind, ensures_send hmy]
  cases hout : o.queries s.queries with
  | ok r => exact .inl ⟨Nat.le_succ _, fun _ _ => hmy⟩
  | error errno =>
    dsimp only
    split
    · refine (buildConnection_once hlength).bind ?_
      rintro built s' (⟨hconnects, -, hbuilt⟩ | hlost)
      · have hconnects : s'.connects ≤ s.connects + 1 := Nat.le_of_eq hconnects
        split
        · rename_i hb
          rw [ensures_send (hbuilt hb)]
          exact .inl ⟨hconnects, fun _ _ => hbuilt hb⟩
        · exact .inl ⟨hconnects, fun _ h => by cases h⟩
      · refine ensures_of_lostSetUp hlost ?_
        exact .ite (lostSetUp_stable m).send (keeps_pure _)
    · exact .inl ⟨Nat.le_succ _, fun _ h => by cases h⟩

lemma statementOn_once (hnext : ∀ r, Asks (next r)) (hmy : s.my = true) (hm : m ≤ s.calls.length) :
    Ensures (statementOn o (buildConnection o (n + 1)) failed next q) s
      (fun _ s' => s'.connects ≤ s.connects + 1 ∨ LostSetUp m s') fun _ => LostSetUp m := by
  have hstable : Stable o (LostSetUp m : ClientState σ → Prop) := lostSetUp_stable m
  rw [statementOn]
  refine (safeQuery_once hmy hm).bind ?_
  rintro res s' (⟨hconnects, hmy'⟩ | hlost)
  · cases res with
    | ok r =>
      refine (asks_connects (hnext r) (hmy' r rfl)).mono (fun _ s₂ h₂ => .inl ?_) fun _ _ h => h.elim
      rwa [h₂]
    | error errno =>
      rw [ensures_bind, ensures_onMy, ClientFn.TakesNull, Bool.or_true, if_pos rfl]
      exact .inl hconnects
  · cases res with
    | ok r => exact ensures_of_lostSetUp hlost (hstable.asks (hnext r))
    | error errno =>
      refine ensures_of_lostSetUp hlost ?_
      exact (hstable.onMy (by trivial)).bind fun _ => keeps_pure _

/-- **A statement connects twice at most.** -/
lemma statement_twice (hnext : ∀ r, Asks (next r)) (hm : m ≤ s.calls.length) :
    Ensures (statement o (buildConnection o (n + 1)) absent failed next q) s
      (fun _ s' => s'.connects ≤ s.connects + 2 ∨ LostSetUp m s') fun _ => LostSetUp m := by
  by_cases hmy : s.my = true
  · rw [ensures_statement hmy]
    refine (statementOn_once hnext hmy hm).imp ?_
    rintro a s' (hconnects | hlost)
    · exact .inl (by omega)
    · exact .inr hlost
  · rw [ensures_statement_absent hmy]
    refine (buildConnection_once hm).imp ?_
    rintro connected s₁ (⟨hconnects₁, hm₁, hmy₁⟩ | hlost)
    · split
      · rename_i hconnected
        refine (statementOn_once hnext (hmy₁ hconnected) hm₁).imp ?_
        rintro a s' (hconnects | hlost)
        · exact .inl (by omega)
        · exact .inr hlost
      · exact .inl (by omega)
    · have hstable : Stable o (LostSetUp m : ClientState σ → Prop) := lostSetUp_stable m
      refine ensures_of_lostSetUp hlost ?_
      exact .ite (hstable.statementOn (hstable.buildConnection _) hnext) (keeps_pure _)

/-- **A call connects twice at most**, or what it sets up is lost. -/
lemma exec_twice {call : DatabaseCall σ} (hcall : call.IsStatement) (hm : m ≤ s.calls.length) :
    Ensures (exec o (n + 1) call) s (fun _ s' => s'.connects ≤ s.connects + 2 ∨ LostSetUp m s') fun _ =>
      LostSetUp m :=
  exec_statement (R := fun _ x => Ensures x s (fun _ s' => s'.connects ≤ s.connects + 2 ∨ LostSetUp m s') fun _ =>
    LostSetUp m) (fun _ hx => ensures_bind.2 hx) (fun hnext => statement_twice hnext hm) hcall

/-- **A call whose set-up is not lost** returns, and connects twice at most. -/
theorem returnsWithin_two {call : DatabaseCall σ} (hcall : call.IsStatement) (hkept : SetsUpIn o s call { r | ¬ LostOutcome r }) :
    ReturnsWithin o s call 2 := by
  have h := exec_twice (o := o) (n := 0) hcall (Nat.le_refl s.calls.length)
  have hnot : ¬ LostSetUp s.calls.length (finalState (exec o 1 call s)) := by
    rintro ⟨c, hc, hlost⟩
    exact hlost (hkept 1 c hc)
  cases hx : exec o 1 call s with
  | ok a s' =>
    rw [hx] at hnot
    exact ⟨1, s', hx, (h.of_ok hx).resolve_right hnot⟩
  | error e s' =>
    rw [hx] at hnot
    rw [Ensures, hx] at h
    exact absurd h hnot

end Kept

/-! ### A server that drops every query -/

/-- Every connection is made, and every query is lost. -/
def dropAll (errno : ℕ) : Outcomes := ⟨fun _ => .connected, fun _ => .error errno⟩

section Dropped

variable {s : ClientState σ} {errno n : ℕ} {q : Query σ} {build : Client σ Bool} {E : ClientStop → ClientState σ → Prop}
  {A : Set (Except ℕ QueryOk)} {o : Outcomes} {α : Type} {absent failed : α} {next : QueryOk → Client σ α}

/-- A statement whose query is lost returns only if `BuildConnection` does. -/
lemma statement_dropped (hlost : isLost errno = true) (hmy : s.my = true)
    (hbuild : Ensures build (s.sent (dropAll errno) q) (fun _ _ => False) E) :
    Ensures (statement (dropAll errno) build absent failed next q) s (fun _ _ => False) E := by
  rw [ensures_statement hmy, statementOn, ensures_bind, safeQuery, ensures_bind, ensures_send hmy]
  show Ensures (if isLost errno then _ else _) _ _ _
  rw [if_pos hlost, ensures_bind]
  exact hbuild.imp fun _ _ h => h.elim

/-- **`BuildConnection` connects as often as it may be in itself**, and does not return. -/
lemma buildConnection_dropped (hlost : isLost errno = true) (n : ℕ) (s : ClientState σ) :
    Ensures (buildConnection (dropAll errno) n) s (fun _ _ => False) fun e s' =>
      e = .tooDeep ∧ s.connects + n ≤ s'.connects := by
  induction n generalizing s with
  | zero => exact ⟨rfl, Nat.le_refl _⟩
  | succ n ih =>
    rw [ensures_buildConnection_connected rfl, setUp, ensures_bind]
    refine (statement_dropped hlost rfl (ih _)).mono (fun _ _ h => h.elim) ?_
    rintro e s' ⟨rfl, hconnects⟩
    rw [ClientState.sent_connects, ClientState.opened_connects] at hconnects
    exact ⟨rfl, by omega⟩

/-- **No statement returns.** -/
lemma exec_dropped (hlost : isLost errno = true) (n : ℕ) (s : ClientState σ) {call : DatabaseCall σ}
    (hcall : call.IsStatement) : Ensures (exec (dropAll errno) n call) s (fun _ _ => False) fun e s' =>
      e = .tooDeep ∧ s.connects + n ≤ s'.connects := by
  refine exec_statement (R := fun _ x => Ensures x s (fun _ _ => False) fun e s' =>
    e = .tooDeep ∧ s.connects + n ≤ s'.connects) (fun _ hx => ensures_bind.2 (hx.imp fun _ _ h => h.elim))
    (fun {α absent failed next q} hnext => ?_) hcall
  by_cases hmy : s.my = true
  · exact statement_dropped hlost hmy (buildConnection_dropped hlost n _)
  · rw [ensures_statement_absent hmy]
    exact (buildConnection_dropped hlost n s).imp fun _ _ h => h.elim

lemma not_returnsWithin_dropped (hlost : isLost errno = true) (s : ClientState σ) {call : DatabaseCall σ}
    (hcall : call.IsStatement) (k : ℕ) : ¬ ReturnsWithin (dropAll errno) s call k := by
  rintro ⟨n, s', hx, -⟩
  exact (exec_dropped hlost n s hcall).of_ok hx

lemma setUpIn_of_fromOutcomes {fn : ClientFn σ} (hA : ∀ i, o.queries i ∈ A) (hfn : FromOutcomes o fn) :
    fn.SetUpIn A := by
  cases fn with
  | realQuery q outcome =>
    obtain ⟨i, rfl⟩ := hfn
    cases q with
    | setNames => exact hA i
    | setCharacterSet => exact hA i
    | _ => trivial
  | _ => trivial

lemma setsUpIn_of_mem (hA : ∀ i, o.queries i ∈ A) (s : ClientState σ) (call : DatabaseCall σ) : SetsUpIn o s call A := by
  intro n
  have hstable : Stable o fun s' : ClientState σ => ∀ c ∈ s'.calls.drop s.calls.length, c.fn.SetUpIn A := by
    refine ⟨?_, fun _ _ _ h => h, fun _ h => h, fun _ h => h⟩
    intro s' c h hfn c' hc'
    rw [ClientState.add_calls, List.drop_append, List.mem_append] at hc'
    rcases hc' with hc' | hc'
    · exact h c' hc'
    · obtain rfl : c' = c := List.mem_singleton.1 (List.mem_of_mem_drop hc')
      exact setUpIn_of_fromOutcomes hA hfn
  refine ensures_finalState.1 (hstable.exec n call s fun c hc => ?_)
  rw [List.drop_length] at hc
  exact absurd hc List.not_mem_nil

end Dropped

/-- **Statements connect a bounded number of times and return**, among the outcomes where those of the set-up are in
`A`, if and only if none of these is a lost connection. -/
theorem statements_end_iff (A : Set (Except ℕ QueryOk)) :
    (∃ k, ∀ (o : Outcomes) (s : ClientState σ) (call : DatabaseCall σ), call.IsStatement → SetsUpIn o s call A →
      ReturnsWithin o s call k) ↔ ∀ outcome ∈ A, ¬ LostOutcome outcome := by
  constructor
  · rintro ⟨k, hreturns⟩ outcome hmem hlost
    cases outcome with
    | ok r => exact hlost
    | error errno =>
      have hcall : (DatabaseCall.beginTransaction : DatabaseCall σ).IsStatement := trivial
      have hall : ∀ i, (dropAll errno).queries i ∈ A := fun _ => hmem
      have hkept := setsUpIn_of_mem hall .new (.beginTransaction : DatabaseCall σ)
      exact not_returnsWithin_dropped hlost .new hcall k (hreturns _ _ _ hcall hkept)
  · intro hA
    exact ⟨2, fun o s call hcall hkept => returnsWithin_two hcall fun n c hc => (hkept n c hc).mono hA⟩

/-- `SET NAMES` is lost on every connection. -/
theorem statements_never_end :
    (∀ n, ∃ s' : ClientState ℕ, exec (dropAll 2006) n (.execute 0) .new = .error .tooDeep s' ∧ n ≤ s'.connects) ∧
    ¬ ∃ k, ∀ (o : Outcomes) (s : ClientState ℕ) (call : DatabaseCall ℕ), call.IsStatement → ReturnsWithin o s call k := by
  have hlost : isLost 2006 = true := by decide
  have hcall : (DatabaseCall.execute 0 : DatabaseCall ℕ).IsStatement := trivial
  constructor
  · intro n
    have h := exec_dropped hlost n .new hcall
    cases hx : exec (dropAll 2006) n (.execute 0 : DatabaseCall ℕ) .new with
    | ok a s' => exact (h.of_ok hx).elim
    | error e s' =>
      rw [Ensures, hx] at h
      obtain ⟨rfl, hconnects⟩ := h
      exact ⟨s', rfl, by rwa [ClientState.new, Nat.zero_add] at hconnects⟩
  · rintro ⟨k, hreturns⟩
    exact not_returnsWithin_dropped hlost .new hcall k (hreturns _ _ _ hcall)

end Client

end Zutils.Db
