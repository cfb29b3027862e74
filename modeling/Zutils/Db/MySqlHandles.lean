import Zutils.Db.MySqlCallsSpec
import Zutils.Lib.Run

/-!
# Calls on a handle that is dead

`BuildConnection` closes the handle before it connects, and leaves `my_` null when no connection is made. A statement
that was called without a connection returns then. But where the connection of a query is lost and no other one is
made, `SafeQuery` returns to a caller that asks `my_` for the message of the error, and that is null by then.

So the handles are live as long as `Ping` is called on a connection, and the attempts to connect in a statement succeed,
but for the first one of a statement that was called without a connection (`calls_live`).
-/

namespace Zutils.Db

open Zutils.Lib

variable {σ : Type}

/-- A connection is set up by `mysql_init`, `mysql_options` and `mysql_real_connect`. -/
def ClientFn.SetsUp : ClientFn σ → Prop
  | .init | .options | .realConnect => True
  | _ => False

/-- The handle is connected, or is set up. A connection that was lost has been neither closed nor refused. -/
def ClientCall.Live (c : ClientCall σ) : Prop := c.fn.SetsUp ∨ c.handle = .connected

/-- All calls with `my_` are live, and if `strict` those with `my_temp`, by which a connection that was refused is
reported. -/
def AllLive (strict : Bool) (calls : List (ClientCall σ)) : Prop :=
  ∀ c ∈ calls, strict = true ∨ c.var = .my → c.Live

namespace Client

variable (strict : Bool) (o : Outcomes) (s : ClientState σ) (call : DatabaseCall σ)

/-- **Where no connection is made** up to the state `s'`, this is at the first attempt, and there was no connection
before. If `strict`, the attempt does not get as far as `mysql_real_connect`. -/
def FailsFirst (s' : ClientState σ) : Prop := ∀ i, s.connects ≤ i → i < s'.connects →
  o.connects i ≠ .connected → i = s.connects ∧ s.my = false ∧ (strict = true → o.connects i = .noMemory)

/-- **When the handles of the call are live**: `Ping` is called on a connection, and in a statement, however deep it
goes, no attempt but the first one fails. -/
def Allowed : Prop :=
  (call.IsStatement ∨ s.my = true) ∧ ∀ n, FailsFirst strict o s (finalState (exec o n call s))

/-- A call that is allowed and returns. -/
def AllowedStep (s : ClientState σ) (call : DatabaseCall σ) (s' : ClientState σ) : Prop :=
  Allowed strict o s call ∧ ∃ n, exec o n call s = .ok () s'

/-- From the attempt `k` on all have been successful, and all calls are live. -/
structure Clean (k : ℕ) (s : ClientState σ) : Prop where
  live : AllLive strict s.calls
  handle : s.my = true → s.mysql = .connected
  le_connects : k ≤ s.connects
  good : ∀ i, k ≤ i → i < s.connects → o.connects i = .connected

/-- One has not, and not all calls are live. -/
def Broken (k : ℕ) (s : ClientState σ) : Prop :=
  ¬ AllLive strict s.calls ∧ ∃ i, k ≤ i ∧ i < s.connects ∧ o.connects i ≠ .connected

/-- One has not, and there is no connection. -/
def Unconnected (k : ℕ) (s : ClientState σ) : Prop :=
  s.my = false ∧ ∃ i, k ≤ i ∧ i < s.connects ∧ o.connects i ≠ .connected

/-- There is a connection, unless a dead handle has been used. -/
def OnConnection (k : ℕ) (s : ClientState σ) : Prop := Clean strict o k s ∧ s.my = true ∨ Broken strict o k s

/-- The state at either end. -/
def Settled (k : ℕ) (s : ClientState σ) : Prop := Clean strict o k s ∨ Broken strict o k s

section Steps

variable {strict : Bool} {o : Outcomes} {s : ClientState σ} {k n : ℕ} {q : Query σ} {build : Client σ Bool}
  {c : ClientCall σ} {calls : List (ClientCall σ)} {fn : ClientFn σ} {α : Type} {absent failed : α}
  {next : QueryOk → Client σ α}

lemma allLive_append {cs : List (ClientCall σ)} :
    AllLive strict (calls ++ cs) ↔ AllLive strict calls ∧ AllLive strict cs := List.forall_mem_append

lemma allLive_singleton : AllLive strict [c] ↔ (strict = true ∨ c.var = .my → c.Live) := List.forall_mem_singleton

lemma broken_stable (strict : Bool) (k : ℕ) : Stable o (Broken strict o k : ClientState σ → Prop) where
  add := fun s c h _ => ⟨fun hlive => h.1 (allLive_append.1 hlive).1, h.2⟩
  handle := fun _ _ _ h => h
  connects := by
    rintro s ⟨hdead, i, hk, hi, hbad⟩
    exact ⟨hdead, i, hk, Nat.lt_succ_of_lt hi, hbad⟩
  queries := fun _ h => h

/-- After a dead handle has been used, all that is kept holds. -/
lemma ensures_of_broken {x : Client σ α} {Q : α → ClientState σ → Prop} (hbroken : Broken strict o k s)
    (hx : Keeps (Broken strict o k) x) (hQ : ∀ a s', Broken strict o k s' → Q a s') :
    Ensures x s Q fun _ => Settled strict o k :=
  Keeps.ensures hbroken hx hQ fun _ _ => .inr

lemma OnConnection.settled (h : OnConnection strict o k s) : Settled strict o k s := h.imp_left And.left

lemma Clean.add (h : Clean strict o k s) (hc : strict = true ∨ c.var = .my → c.Live) : Clean strict o k (s.add c) :=
  ⟨allLive_append.2 ⟨h.live, allLive_singleton.2 hc⟩, h.handle, h.le_connects, h.good⟩

lemma Clean.onMy (h : Clean strict o k s) (hmy : s.my = true) : Clean strict o k (s.add ⟨fn, .my, s.mysql⟩) :=
  h.add fun _ => .inr (h.handle hmy)

lemma Clean.sent (h : Clean strict o k s) (hmy : s.my = true) : Clean strict o k (s.sent o q) := by
  have hlive : ∀ fn : ClientFn σ, strict = true ∨ HandleVar.my = .my → ClientCall.Live ⟨fn, .my, s.mysql⟩ :=
    fun _ _ => .inr (h.handle hmy)
  refine ⟨?_, h.handle, h.le_connects, h.good⟩
  rw [ClientState.sent]
  refine allLive_append.2 ⟨h.live, ?_⟩
  cases o.queries s.queries with
  | ok r => exact allLive_singleton.2 (hlive _)
  | error errno => exact allLive_append.2 ⟨allLive_singleton.2 (hlive _), allLive_singleton.2 (hlive _)⟩

lemma onConnection_onMy (h : OnConnection strict o k s) (hfn : FromOutcomes o fn) (a : α) :
    Ensures (do onMy fn; return a : Client σ α) s (fun _ => OnConnection strict o k) fun _ => Settled strict o k := by
  rcases h with ⟨hclean, hmy⟩ | hbroken
  · rw [ensures_bind, ensures_onMy_of_my hmy]
    exact .inl ⟨hclean.onMy hmy, hmy⟩
  · refine ensures_of_broken hbroken ?_ fun _ _ => .inr
    exact ((broken_stable strict k).onMy hfn).bind fun _ => keeps_pure _

lemma onConnection_asks {x : Client σ α} (hx : Asks x) (h : OnConnection strict o k s) :
    Ensures x s (fun _ => OnConnection strict o k) fun _ => Settled strict o k := by
  rcases h with ⟨hclean, hmy⟩ | hbroken
  · induction hx generalizing s with
    | ret a => exact .inl ⟨hclean, hmy⟩
    | ask hfn _ ih =>
      rw [ensures_bind, ensures_onMy_of_my hmy]
      exact ih (hclean.onMy hmy) hmy
  · exact ensures_of_broken hbroken ((broken_stable strict k).asks hx) fun _ _ => .inr

/-- **The message of an error is asked of a null handle** where no other connection has been made. -/
lemma unconnected_error (h : Unconnected o k s) (a : α) :
    Ensures (do onMy .error; return a : Client σ α) s (fun _ => OnConnection strict o k) fun _ =>
      Settled strict o k := by
  obtain ⟨hmy, hbad⟩ := h
  rw [ensures_bind, ensures_onMy, ClientFn.TakesNull, Bool.or_true, if_pos rfl, ClientState.handle, hmy]
  refine .inr ⟨fun hlive => ?_, hbad⟩
  rcases allLive_singleton.1 (allLive_append.1 hlive).2 (.inr rfl) with hsets | hnull
  · exact hsets
  · cases hnull

/-- What `BuildConnection` does from a clean state. -/
def Builds (strict : Bool) (o : Outcomes) (k : ℕ) (build : Client σ Bool) : Prop :=
  Keeps (Broken strict o k) build ∧ ∀ s, Clean strict o k s → Ensures build s
    (fun built s' => built = true ∧ OnConnection strict o k s' ∨
      built = false ∧ o.connects s.connects ≠ .connected ∧ Unconnected o k s') fun _ => Settled strict o k

lemma safeQuery_live (hbuild : Builds strict o k build) (h : OnConnection strict o k s) :
    Ensures (safeQuery o build q) s (fun res s' => OnConnection strict o k s' ∨
      (∃ errno, res = .error errno) ∧ Unconnected o k s') fun _ => Settled strict o k := by
  have hstable : Stable o (Broken strict o k : ClientState σ → Prop) := broken_stable strict k
  rcases h with ⟨hclean, hmy⟩ | hbroken
  · have hsent : Clean strict o k (s.sent o q) := hclean.sent hmy
    rw [safeQuery, ensures_bind, ensures_send hmy]
    cases o.queries s.queries with
    | ok r => exact .inl (.inl ⟨hsent, hmy⟩)
    | error errno =>
      dsimp only
      split
      · refine (hbuild.2 _ hsent).bind ?_
        rintro built s' (⟨rfl, ⟨hclean', hmy'⟩ | hbroken⟩ | ⟨rfl, -, hun⟩)
        · rw [if_pos rfl, ensures_send hmy']
          exact .inl (.inl ⟨hclean'.sent hmy', hmy'⟩)
        · rw [if_pos rfl]
          exact ensures_of_broken hbroken hstable.send fun _ _ h => .inl (.inr h)
        · exact .inr ⟨⟨errno, rfl⟩, hun⟩
      · exact .inl (.inl ⟨hsent, hmy⟩)
  · exact ensures_of_broken hbroken (hstable.safeQuery hbuild.1) fun _ _ h => .inl (.inr h)

/-- **A statement on a connection** ends on one, or a dead handle has been used. -/
lemma statementOn_live (hbuild : Builds strict o k build) (hnext : ∀ r, Asks (next r)) (h : OnConnection strict o k s) :
    Ensures (statementOn o build failed next q) s (fun _ => OnConnection strict o k) fun _ => Settled strict o k := by
  rw [statementOn]
  refine (safeQuery_live hbuild h).bind ?_
  rintro res s' (h | ⟨⟨errno, rfl⟩, hun⟩)
  · cases res with
    | ok r => exact onConnection_asks (hnext r) h
    | error errno => exact onConnection_onMy h (by trivial) failed
  · exact unconnected_error hun failed

lemma executeWith_live (hbuild : Builds strict o k build) (h : OnConnection strict o k s) :
    Ensures (executeWith o build q) s (fun _ => OnConnection strict o k) fun _ => Settled strict o k := by
  by_cases hmy : s.my = true
  · rw [executeWith, ensures_statement hmy]
    exact statementOn_live hbuild asks_execute h
  · have hbroken := h.resolve_left fun h => hmy h.2
    exact ensures_of_broken hbroken ((broken_stable strict k).executeWith hbuild.1) fun _ _ => .inr

lemma setUp_live (hbuild : Builds strict o k build) (h : OnConnection strict o k s) :
    Ensures (setUp o build) s (fun built s' => built = true ∧ OnConnection strict o k s') fun _ =>
      Settled strict o k := by
  rw [setUp]
  refine (executeWith_live hbuild h).bind fun _ s₁ h₁ => ?_
  refine (executeWith_live hbuild h₁).bind fun _ s₂ h₂ => ?_
  rw [ensures_bind]
  rcases h₂ with ⟨hclean, hmy⟩ | hbroken
  · rw [ensures_onMy_of_my hmy]
    exact ⟨rfl, .inl ⟨hclean.onMy hmy, hmy⟩⟩
  · refine ensures_of_broken hbroken ((broken_stable strict k).onMy ?_) fun _ _ h => ⟨rfl, .inr h⟩
    trivial

lemma Clean.attempted (h : Clean strict o k s) : AllLive strict s.attempted.calls := by
  have hclose : AllLive strict (if s.my then [⟨.close, .my, s.mysql⟩] else [] : List (ClientCall σ)) := by
    split
    · rename_i hmy
      exact allLive_singleton.2 fun _ => .inr (h.handle hmy)
    · exact fun c hc => absurd hc List.not_mem_nil
  rw [ClientState.attempted_calls, ClientState.closed_calls]
  refine allLive_append.2 ⟨allLive_append.2 ⟨h.live, hclose⟩, ?_⟩
  intro c hc _
  simp only [List.mem_cons, List.not_mem_nil, or_false] at hc
  rcases hc with rfl | rfl | rfl
  · exact .inl trivial
  · exact .inl trivial
  · exact .inl trivial

lemma Clean.opened (h : Clean strict o k s) (hout : o.connects s.connects = .connected) :
    Clean strict o k s.opened := by
  refine ⟨allLive_append.2 ⟨h.attempted, allLive_singleton.2 fun _ => .inr rfl⟩, fun _ => rfl,
    Nat.le_succ_of_le h.le_connects, ?_⟩
  intro i hk hi
  rcases Nat.lt_succ_iff_lt_or_eq.1 hi with hi | rfl
  · exact h.good i hk hi
  · exact hout

/-- **`BuildConnection`**, by induction on how deep it may be in itself. -/
lemma buildConnection_live (n : ℕ) : Builds strict o k (buildConnection o n : Client σ Bool) := by
  induction n with
  | zero => exact ⟨(broken_stable strict k).buildConnection 0, fun s h => .inl h⟩
  | succ n ih =>
    refine ⟨(broken_stable strict k).buildConnection (n + 1), fun s h => ?_⟩
    have hfails : o.connects s.connects ≠ .connected → ∀ s' : ClientState σ, s'.my = false →
        s'.connects = s.connects + 1 → false = true ∧ OnConnection strict o k s' ∨
          false = false ∧ o.connects s.connects ≠ .connected ∧ Unconnected o k s' := fun hbad s' hmy hconnects =>
      .inr ⟨rfl, hbad, hmy, s.connects, h.le_connects, by omega, hbad⟩
    cases hout : o.connects s.connects with
    | noMemory =>
      rw [ensures_buildConnection_noMemory hout]
      exact hout ▸ hfails (by rw [hout]; decide) _ s.inited_my rfl
    | failed =>
      rw [ensures_buildConnection_failed hout]
      exact hout ▸ hfails (by rw [hout]; decide) _ rfl rfl
    | connected =>
      rw [ensures_buildConnection_connected hout]
      exact (setUp_live ih (.inl ⟨h.opened hout, rfl⟩)).imp fun _ _ => .inl

end Steps

/-! ### A call of the database -/

section Calls

variable {strict : Bool} {o : Outcomes} {s : ClientState σ} {call : DatabaseCall σ} {k : ℕ}

lemma exec_settled (hcall : call.IsStatement) (h : Clean strict o k s)
    (hopen : s.my = true ∨ o.connects s.connects = .connected) (n : ℕ) :
    Settled strict o k (finalState (exec o n call s)) := by
  apply ensures_finalState.1
  refine exec_statement (R := fun _ x => Ensures x s (fun _ => Settled strict o k) fun _ => Settled strict o k)
    (fun _ hx => ensures_bind.2 hx) ?_ hcall
  intro α absent failed next q hnext
  by_cases hmy : s.my = true
  · rw [ensures_statement hmy]
    exact (statementOn_live (buildConnection_live n) hnext (.inl ⟨h, hmy⟩)).imp fun _ _ h => h.settled
  · rw [ensures_statement_absent hmy]
    refine ((buildConnection_live n).2 s h).imp ?_
    rintro built s' (⟨rfl, h'⟩ | ⟨-, hbad, -⟩)
    · rw [if_pos rfl]
      exact (statementOn_live (buildConnection_live n) hnext h').imp fun _ _ h => h.settled
    · exact absurd (hopen.resolve_left hmy) hbad

/-- There is no connection after the first attempt, if there was any. -/
def Refused (o : Outcomes) (s s' : ClientState σ) : Prop :=
  s' = s ∨ o.connects s.connects = .noMemory ∧ s' = s.inited ∨ o.connects s.connects = .failed ∧ s' = s.refused

lemma exec_refused (hcall : call.IsStatement) (hmy : s.my ≠ true) (hbad : o.connects s.connects ≠ .connected) (n : ℕ) :
    Refused o s (finalState (exec o n call s)) := by
  apply ensures_finalState.1
  refine exec_statement (R := fun _ x => Ensures x s (fun _ => Refused o s) fun _ => Refused o s)
    (fun _ hx => ensures_bind.2 hx) ?_ hcall
  intro α absent failed next q hnext
  rw [ensures_statement_absent hmy]
  cases n with
  | zero => exact .inl rfl
  | succ n =>
    cases hout : o.connects s.connects with
    | noMemory =>
      rw [ensures_buildConnection_noMemory hout]
      exact .inr (.inl ⟨hout, rfl⟩)
    | failed =>
      rw [ensures_buildConnection_failed hout]
      exact .inr (.inr ⟨hout, rfl⟩)
    | connected => exact absurd hout hbad

/-- What is left of a database whose calls are live: the handle of a connection is connected. -/
structure Sound (strict : Bool) (s : ClientState σ) : Prop where
  live : AllLive strict s.calls
  handle : s.my = true → s.mysql = .connected

lemma Sound.clean (h : Sound strict s) (o : Outcomes) : Clean strict o s.connects s :=
  ⟨h.live, h.handle, Nat.le_refl _, fun _ hk hi => absurd hi (Nat.not_lt.2 hk)⟩

/-- Where there is a connection in the end, no attempt has failed. -/
lemma Settled.iff {s' : ClientState σ} (h : Settled strict o s.connects s')
    (hopen : s.my = true ∨ o.connects s.connects = .connected) :
    (AllLive strict s'.calls ↔ FailsFirst strict o s s') ∧ (AllLive strict s'.calls → Sound strict s') := by
  rcases h with hclean | ⟨hdead, _, hk, hi, hbad⟩
  · exact ⟨iff_of_true hclean.live fun i hk hi hbad => absurd (hclean.good i hk hi) hbad,
      fun _ => ⟨hclean.live, hclean.handle⟩⟩
  · refine ⟨iff_of_false hdead fun hfirst => ?_, fun hlive => absurd hlive hdead⟩
    obtain ⟨rfl, hmy, -⟩ := hfirst _ hk hi hbad
    rcases hopen with hopen | hopen
    · rw [hmy] at hopen
      cases hopen
    · exact hbad hopen

/-- Where there is none, the first attempt may have been reported. -/
lemma Refused.iff {s' : ClientState σ} (h : Refused o s s') (hs : Sound strict s) (hmy : s.my ≠ true) :
    (AllLive strict s'.calls ↔ FailsFirst strict o s s') ∧ (AllLive strict s'.calls → Sound strict s') := by
  have hmy : s.my = false := Bool.eq_false_iff.2 hmy
  have hclosed : s.closed = s := by
    rw [ClientState.closed, if_neg (Bool.eq_false_iff.1 hmy)]
  rcases h with rfl | ⟨hout, rfl⟩ | ⟨hout, rfl⟩
  · exact ⟨iff_of_true hs.live fun i hk hi => absurd hi (Nat.not_lt.2 hk), fun _ => hs⟩
  · have hlive : AllLive strict s.inited.calls := by
      rw [ClientState.inited, hclosed]
      exact allLive_append.2 ⟨hs.live, allLive_singleton.2 fun _ => .inl trivial⟩
    refine ⟨iff_of_true hlive fun i hk hi _ => ?_, fun _ => ⟨hlive, fun h => ?_⟩⟩
    · obtain rfl : i = s.connects := Nat.le_antisymm (Nat.lt_succ_iff.1 hi) hk
      exact ⟨rfl, hmy, fun _ => hout⟩
    · rw [ClientState.inited_my] at h
      cases h
  · have hiff : AllLive strict s.refused.calls ↔ strict ≠ true := by
      rw [ClientState.refused]
      refine allLive_append.trans (Iff.trans (and_iff_right (hs.clean o).attempted) (allLive_singleton.trans ?_))
      constructor
      · intro h hstrict
        rcases h (.inl hstrict) with h | h
        · exact h
        · cases h
      · rintro hnot (hstrict | hvar)
        · exact absurd hstrict hnot
        · cases hvar
    refine ⟨hiff.trans ⟨fun hnot i hk hi _ => ?_, fun hfirst hstrict => ?_⟩, fun hlive => ⟨hlive, fun h => by cases h⟩⟩
    · obtain rfl : i = s.connects := Nat.le_antisymm (Nat.lt_succ_iff.1 hi) hk
      exact ⟨rfl, hmy, fun hstrict => absurd hstrict hnot⟩
    · have hbad : o.connects s.connects ≠ .connected := by
        rw [hout]
        decide
      have hmemory := (hfirst s.connects le_rfl (Nat.lt_succ_self _) hbad).2.2 hstrict
      rw [hout] at hmemory
      cases hmemory

lemma exec_ping (n : ℕ) (er : ℤ) :
    finalState (exec o n (.ping er) s) = s.add ⟨.ping, .my, s.handle⟩ := by
  have h : Ensures (exec o n (.ping er)) s (fun _ s' => s' = s.add ⟨.ping, .my, s.handle⟩) fun _ s' =>
      s' = s.add ⟨.ping, .my, s.handle⟩ := by
    simp [exec, ping, ensures_onMy]
  exact ensures_finalState.1 h

/-- **A call of the database** from a sound state. -/
lemma exec_iff (hs : Sound strict s) (n : ℕ) (call : DatabaseCall σ) :
    (AllLive strict (finalState (exec o n call s)).calls ↔
      (call.IsStatement ∨ s.my = true) ∧ FailsFirst strict o s (finalState (exec o n call s))) ∧
    (AllLive strict (finalState (exec o n call s)).calls → Sound strict (finalState (exec o n call s))) := by
  by_cases hcall : call.IsStatement
  · have hfound : call.IsStatement ∨ s.my = true := .inl hcall
    rw [and_iff_right hfound]
    by_cases hopen : s.my = true ∨ o.connects s.connects = .connected
    · exact (exec_settled hcall (hs.clean o) hopen n).iff hopen
    · rw [not_or] at hopen
      exact (exec_refused hcall hopen.1 hopen.2 n).iff hs hopen.1
  · rw [or_iff_right hcall]
    cases call with
    | ping er =>
      have hlive : AllLive strict (s.add ⟨.ping, .my, s.handle⟩).calls ↔ s.my = true := by
        refine allLive_append.trans (Iff.trans (and_iff_right hs.live) (allLive_singleton.trans ?_))
        constructor
        · intro h
          by_contra hmy
          rcases h (.inr rfl) with h | h
          · exact h
          · rw [ClientState.handle, if_neg hmy] at h
            cases h
        · intro hmy _
          rw [ClientCall.Live, ClientState.handle, if_pos hmy]
          exact .inr (hs.handle hmy)
      have hfirst : FailsFirst strict o s (s.add ⟨.ping, .my, s.handle⟩) := fun i hk hi =>
        absurd hi (Nat.not_lt.2 hk)
      rw [exec_ping, hlive, and_iff_left hfirst]
      exact ⟨Iff.rfl, fun hmy => ⟨hlive.2 hmy, hs.handle⟩⟩
    | _ => exact absurd trivial hcall

/-- **All handles are live** along a run of calls that are allowed, and in the next call, however deep it goes, if and
only if it is allowed. -/
theorem calls_live {calls : List (DatabaseCall σ)} (hrun : Run (AllowedStep strict o) .new calls s) :
    AllLive strict s.calls ∧
      ∀ call, (∀ n, AllLive strict (finalState (exec o n call s)).calls) ↔ Allowed strict o s call := by
  have hs : Sound strict s := by
    refine hrun.inv (P := fun _ s => Sound strict s) ⟨fun c hc => absurd hc List.not_mem_nil, fun h => by cases h⟩ ?_
    rintro - s call s' hs ⟨⟨hfound, hfirst⟩, n, hexec⟩
    obtain ⟨hiff, hsound⟩ := exec_iff (o := o) hs n call
    rw [hexec] at hiff hsound
    have hto := hfirst n
    rw [hexec] at hto
    exact hsound (hiff.2 ⟨hfound, hto⟩)
  refine ⟨hs.live, fun call => ⟨fun hlive => ?_, fun hallowed n => ?_⟩⟩
  · exact ⟨((exec_iff hs 0 call).1.1 (hlive 0)).1, fun n => ((exec_iff hs n call).1.1 (hlive n)).2⟩
  · exact (exec_iff hs n call).1.2 ⟨hallowed.1, hallowed.2 n⟩

/-- There is no memory for the first connection. -/
def noMemoryFirst : Outcomes := ⟨fun i => if i = 0 then .noMemory else .connected, fun _ => .ok {}⟩

/-- A statement that gets no connection, and then one that gets one, on which `Ping` is called. -/
theorem calls_live_second : ∃ s : ClientState ℕ,
    Run (AllowedStep true noMemoryFirst) .new [.execute 7, .query 8, .ping 0] s ∧ s.my = true ∧
    AllLive true s.calls ∧ ∀ call, (∀ n, AllLive true (finalState (exec noMemoryFirst n call s)).calls) ↔
      Allowed true noMemoryFirst s call := by
  have hallowed : ∀ (s : ClientState ℕ) call, call.IsStatement ∨ s.my = true → (s.connects = 0 → s.my = false) →
      Allowed true noMemoryFirst s call := by
    refine fun s call hfound hnew => ⟨hfound, fun n i hk hi hbad => ?_⟩
    have hzero : i = 0 := by
      by_contra hne
      exact hbad (if_neg hne)
    rw [hzero, Nat.le_zero] at hk
    exact ⟨hzero.trans hk.symm, hnew hk, fun _ => if_pos hzero⟩
  have hrun : Run (AllowedStep true noMemoryFirst) .new [.execute 7, .query 8, .ping 0] _ :=
    ((Run.nil.snoc ⟨hallowed .new (.execute 7) (.inl trivial) fun _ => rfl, 1, rfl⟩).snoc
      ⟨hallowed _ (.query 8) (.inl trivial) (by decide), 1, rfl⟩).snoc
      ⟨hallowed _ (.ping 0) (.inr rfl) (by decide), 1, rfl⟩
  exact ⟨_, hrun, rfl, calls_live hrun⟩

/-- The first connection is lost when it has been set up, and no other one is made. -/
def lostOnce : Outcomes :=
  ⟨fun i => if i = 0 then .connected else .failed, fun i => if i < 2 then .ok {} else .error 2006⟩

/-- `mysql_error` is called with null, and so is `mysql_ping` by the next call. -/
theorem call_dead : ∃ s s' : ClientState ℕ,
    exec lostOnce 2 (.execute 7) .new = .ok () s ∧
    s.calls.getLast? = some ⟨.error, .my, .null⟩ ∧ ¬ AllLive false s.calls ∧
    exec lostOnce 2 (.ping 0) s = .error .nullHandle s' ∧
    s'.calls.getLast? = some ⟨.ping, .my, .null⟩ := by
  refine ⟨_, _, rfl, rfl, ?_, rfl, rfl⟩
  intro hlive
  rcases hlive ⟨.error, .my, .null⟩ (List.mem_of_getLast? rfl) (.inr rfl) with h | h
  · exact h
  · cases h

end Calls

end Client

end Zutils.Db
