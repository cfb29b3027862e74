import Zutils.Db.MySql

/-!
# What a query does

`BuildConnection` commits nothing and leaves no transaction open (`buildConnection_quiet`), so that a query that succeeds
was executed at once, or in a new session (`checkedQuery_ok_cases`).
-/

namespace Zutils.Db

open Zutils.Lib

namespace MySQLDatabase

variable {σ : Type} {d d' : MySQLDatabase σ} {q : Query σ}
  {build : MySQLDatabase σ → Except MySqlFault (MySQLDatabase σ × Bool)}

/-! ### A new connection -/

/-- The session is gone, or no transaction is open in it. -/
def NoneOpen (d : MySQLDatabase σ) : Prop := d.server.session = none ∨ d.server.session = some none

/-- Nothing is committed, and none is open afterwards if none was. -/
structure Quiet (d d' : MySQLDatabase σ) : Prop where
  commits_eq : d'.server.commits = d.server.commits
  noneOpen : d.NoneOpen → d'.NoneOpen

/-- What `BuildConnection` may do: nothing is committed, and it returns true with a session where no transaction is
open, or with none. -/
def BuildsQuietly (build : MySQLDatabase σ → Except MySqlFault (MySQLDatabase σ × Bool)) : Prop :=
  ∀ d d' built, build d = .ok (d', built) → d.Quiet d' ∧ (built = true → d'.NoneOpen)

lemma Quiet.refl : d.Quiet d := ⟨rfl, id⟩

lemma Quiet.trans {d'' : MySQLDatabase σ} (h : d.Quiet d') (h' : d'.Quiet d'') : d.Quiet d'' :=
  ⟨h'.commits_eq.trans h.commits_eq, h'.noneOpen ∘ h.noneOpen⟩

/-- **What `mysql_real_query` does**: it is answered, by a session that is alive, or the query is lost, or it fails. -/
lemma realQuery_cases {res : Except ℕ QueryOk} (h : d.realQuery q = .ok (d', res)) : d.my = true ∧ d'.my = true ∧
    ((∃ r, res = .ok r ∧ d.server.session ≠ none ∧ d.queries.head? = some (.ok r) ∧ d'.server = d.server.run q) ∨
    (∃ errno executed, res = .error errno ∧ d.server.session ≠ none ∧ isLost errno = true ∧
      d.queries.head? = some (.error errno executed) ∧
      d'.server = (if executed then d.server.run q else d.server).disconnect) ∨
    ∃ errno, res = .error errno ∧ d'.server = d.server ∧ (isLost errno = true → d.server.session = none)) := by
  unfold realQuery at h
  by_cases hmy : d.my = true
  · rw [if_neg (by simp [hmy])] at h
    refine ⟨hmy, ?_⟩
    rcases hqueries : d.queries with _ | ⟨answer, queries⟩
    · simp only [hqueries] at h
      cases h
    · simp only [hqueries] at h
      by_cases hs : d.server.session = none
      · rw [if_pos hs] at h
        obtain ⟨rfl, rfl⟩ := Prod.mk.inj (Except.ok.inj h)
        exact ⟨hmy, .inr (.inr ⟨2006, rfl, rfl, fun _ => hs⟩)⟩
      · rw [if_neg hs] at h
        cases answer with
        | ok r =>
          obtain ⟨rfl, rfl⟩ := Prod.mk.inj (Except.ok.inj h)
          exact ⟨hmy, .inl ⟨r, rfl, hs, rfl, rfl⟩⟩
        | error errno executed =>
          dsimp only at h
          by_cases hlost : isLost errno = true
          · rw [if_pos hlost] at h
            obtain ⟨rfl, rfl⟩ := Prod.mk.inj (Except.ok.inj h)
            exact ⟨hmy, .inr (.inl ⟨errno, executed, rfl, hs, hlost, rfl, rfl⟩)⟩
          · rw [if_neg hlost] at h
            obtain ⟨rfl, rfl⟩ := Prod.mk.inj (Except.ok.inj h)
            exact ⟨hmy, .inr (.inr ⟨errno, rfl, rfl, fun h => absurd h hlost⟩)⟩
  · rw [if_pos (by simpa using hmy)] at h
    cases h

/-- **What `SafeQuery` does**: it sends the query once, or once more after a connection was built. -/
lemma safeQuery_cases {res : Except ℕ QueryOk} (h : d.safeQuery build q = .ok (d', res)) :
    (d.realQuery q = .ok (d', res) ∧ ∀ errno, res = .error errno → isLost errno = false) ∨
    ∃ d₁ d₂ errno built, d.realQuery q = .ok (d₁, .error errno) ∧ isLost errno = true ∧ build d₁ = .ok (d₂, built) ∧
      (built = true ∧ d₂.realQuery q = .ok (d', res) ∨ built = false ∧ d' = d₂ ∧ res = .error errno) := by
  obtain ⟨⟨d₁, res₁⟩, h₁, h⟩ := bind_eq_ok.1 h
  cases res₁ with
  | ok r =>
    obtain ⟨rfl, rfl⟩ := Prod.mk.inj (Except.ok.inj h)
    exact .inl ⟨h₁, fun errno h => by cases h⟩
  | error errno =>
    dsimp only at h
    by_cases hlost : isLost errno = true
    · rw [if_pos hlost] at h
      obtain ⟨⟨d₂, built⟩, h₂, h⟩ := bind_eq_ok.1 h
      refine .inr ⟨d₁, d₂, errno, built, h₁, hlost, h₂, ?_⟩
      cases built with
      | true => exact .inl ⟨rfl, h⟩
      | false =>
        obtain ⟨rfl, rfl⟩ := Prod.mk.inj (Except.ok.inj h)
        exact .inr ⟨rfl, rfl, rfl⟩
    · rw [if_neg hlost] at h
      obtain ⟨rfl, rfl⟩ := Prod.mk.inj (Except.ok.inj h)
      refine .inl ⟨h₁, ?_⟩
      rintro _ ⟨⟩
      exact Bool.eq_false_iff.2 hlost

/-- **What `CheckConnection` does**: nothing on a connection, and else it builds one. -/
lemma checkConnection_cases {connected : Bool} (h : d.checkConnection build = .ok (d', connected)) :
    (d.my = true ∧ connected = true ∧ d' = d) ∨ (d.my = false ∧ build d = .ok (d', connected)) := by
  unfold checkConnection at h
  split at h
  · rename_i hmy
    obtain ⟨rfl, rfl⟩ := Prod.mk.inj (Except.ok.inj h)
    exact .inl ⟨hmy, rfl, rfl⟩
  · rename_i hmy
    exact .inr ⟨Bool.eq_false_iff.2 hmy, h⟩

@[simp] lemma closeDb_my (d : MySQLDatabase σ) : d.closeDb.my = false := by
  unfold closeDb
  split
  · rfl
  · rename_i hmy
    exact Bool.eq_false_iff.2 hmy

lemma closeDb_quiet (d : MySQLDatabase σ) : d.Quiet d.closeDb := by
  unfold closeDb
  split
  · exact ⟨rfl, fun _ => .inl rfl⟩
  · exact .refl

/-- **What `BuildConnection` does**: it closes the handle, and no connection is made, or one is made and set up. -/
lemma buildConnectionWithin_cases {n : ℕ} {built : Bool} (h : buildConnectionWithin (n + 1) d = .ok (d', built)) :
    (∃ connects, d.closeDb.connects = .failed :: connects ∧ built = false ∧ d' = { d.closeDb with connects }) ∨
    ∃ connects d₁ r₁ r₂, d.closeDb.connects = .connected :: connects ∧ built = true ∧
      { d.closeDb with connects, my := true, server := d.closeDb.server.connect }.executeWith
        (buildConnectionWithin n) .setNames = .ok (d₁, r₁) ∧
      d₁.executeWith (buildConnectionWithin n) .setCharacterSet = .ok (d', r₂) ∧ d'.my = true := by
  rw [buildConnectionWithin] at h
  dsimp only at h
  rcases hc : d.closeDb.connects with _ | ⟨_ | _, connects⟩
  · simp only [hc] at h
    cases h
  · simp only [hc] at h
    obtain ⟨⟨d₁, r₁⟩, h₁, h⟩ := bind_eq_ok.1 h
    obtain ⟨⟨d₂, r₂⟩, h₂, h⟩ := bind_eq_ok.1 h
    split at h
    · cases h
    · rename_i hmy
      obtain ⟨rfl, rfl⟩ := Prod.mk.inj (Except.ok.inj h)
      exact .inr ⟨connects, d₁, r₁, r₂, rfl, rfl, h₁, h₂, by simpa using hmy⟩
  · simp only [hc] at h
    obtain ⟨rfl, rfl⟩ := Prod.mk.inj (Except.ok.inj h)
    exact .inl ⟨connects, rfl, rfl, rfl⟩

lemma realQuery_quiet {res : Except ℕ QueryOk} (hq : q = .setNames ∨ q = .setCharacterSet)
    (h : d.realQuery q = .ok (d', res)) : d.Quiet d' := by
  obtain ⟨-, -, h⟩ := realQuery_cases h
  simp only [Server.run_set hq, ite_self] at h
  rcases h with ⟨r, -, -, -, hserver⟩ | ⟨errno, executed, -, -, -, -, hserver⟩ | ⟨errno, -, hserver, -⟩
  · exact ⟨by rw [hserver], fun h => by rwa [NoneOpen, hserver]⟩
  · exact ⟨by rw [hserver]; rfl, fun _ => .inl (by rw [hserver]; rfl)⟩
  · exact ⟨by rw [hserver], fun h => by rwa [NoneOpen, hserver]⟩

lemma executeWith_quiet {r : ℤ} (hbuild : BuildsQuietly build) (hq : q = .setNames ∨ q = .setCharacterSet)
    (h : d.executeWith build q = .ok (d', r)) : d.Quiet d' := by
  obtain ⟨⟨d₁, res⟩, hchecked, hr⟩ := bind_eq_ok.1 h
  obtain ⟨rfl, -⟩ := Prod.mk.inj (Except.ok.inj hr)
  obtain ⟨⟨d₀, connected⟩, hcheck, hrest⟩ := bind_eq_ok.1 hchecked
  have h₀ : d.Quiet d₀ := by
    rcases checkConnection_cases hcheck with ⟨-, -, rfl⟩ | ⟨-, hb⟩
    · exact .refl
    · exact (hbuild _ _ _ hb).1
  cases connected with
  | false =>
    obtain ⟨rfl, -⟩ := Prod.mk.inj (Except.ok.inj hrest)
    exact h₀
  | true =>
    obtain ⟨⟨d₂, res'⟩, hsafe, hret⟩ := bind_eq_ok.1 hrest
    obtain ⟨rfl, -⟩ := Prod.mk.inj (Except.ok.inj hret)
    apply h₀.trans
    rcases safeQuery_cases hsafe with ⟨hreal, -⟩ | ⟨d₁, d₃, errno, built, hreal, -, hb, hlast⟩
    · exact realQuery_quiet hq hreal
    · have h₁ := (realQuery_quiet hq hreal).trans (hbuild _ _ _ hb).1
      rcases hlast with ⟨-, hlast⟩ | ⟨-, rfl, -⟩
      · exact h₁.trans (realQuery_quiet hq hlast)
      · exact h₁

/-- **`BuildConnection` is quiet**, by induction on how deep it calls itself. -/
lemma buildConnectionWithin_quiet (n : ℕ) : BuildsQuietly (buildConnectionWithin n : MySQLDatabase σ → _) := by
  induction n with
  | zero =>
    intro d d' built h
    cases h
  | succ n ih =>
    intro d d' built h
    rcases buildConnectionWithin_cases h with
      ⟨connects, -, rfl, rfl⟩ | ⟨connects, d₁, r₁, r₂, -, rfl, h₁, h₂, -⟩
    · exact ⟨⟨d.closeDb_quiet.commits_eq, d.closeDb_quiet.noneOpen⟩, fun h => by cases h⟩
    · have hq := (executeWith_quiet ih (.inl rfl) h₁).trans (executeWith_quiet ih (.inr rfl) h₂)
      have hopen : d'.NoneOpen := hq.noneOpen (.inr rfl)
      exact ⟨⟨hq.commits_eq.trans d.closeDb_quiet.commits_eq, fun _ => hopen⟩, fun _ => hopen⟩

lemma buildConnection_quiet : BuildsQuietly (buildConnection : MySQLDatabase σ → _) :=
  fun _ _ _ h => buildConnectionWithin_quiet _ _ _ _ h

/-! ### A query that succeeds -/

/-- **A query that succeeds** was executed in the end by a session that is alive. -/
lemma checkedQuery_ok {r : QueryOk} (h : d.checkedQuery build q = .ok (d', some (.ok r))) :
    d'.my = true ∧ ∃ s : Server σ, s.session ≠ none ∧ d'.server = s.run q := by
  obtain ⟨⟨d₀, connected⟩, -, hrest⟩ := bind_eq_ok.1 h
  have hreal : ∀ {d₁ : MySQLDatabase σ}, d₁.realQuery q = .ok (d', .ok r) →
      d'.my = true ∧ ∃ s : Server σ, s.session ≠ none ∧ d'.server = s.run q := by
    intro d₁ h₁
    obtain ⟨-, hmy, ⟨-, -, hs, -, hserver⟩ | ⟨_, _, hres, -⟩ | ⟨_, hres, -⟩⟩ := realQuery_cases h₁
    · exact ⟨hmy, d₁.server, hs, hserver⟩
    · cases hres
    · cases hres
  cases connected with
  | false => cases hrest
  | true =>
    obtain ⟨⟨d₂, res⟩, hsafe, hret⟩ := bind_eq_ok.1 hrest
    obtain ⟨rfl, hres⟩ := Prod.mk.inj (Except.ok.inj hret)
    obtain rfl := Option.some.inj hres
    rcases safeQuery_cases hsafe with ⟨h₁, -⟩ | ⟨d₁, d₃, errno, built, -, -, -, ⟨-, h₃⟩ | ⟨-, -, hres⟩⟩
    · exact hreal h₁
    · exact hreal h₃
    · cases hres

/-- The first attempt of a query is lost. -/
def FirstLost (queries : List QueryAnswer) : Prop :=
  ∃ errno executed, queries.head? = some (.error errno executed) ∧ isLost errno = true

/-- **A query that succeeds on a connection** is executed at once, or it is lost, executed or not, and executed in a new
session. -/
lemma checkedQuery_ok_cases {r : QueryOk} (hbuild : BuildsQuietly build) (hmy : d.my = true)
    (hs : d.server.session ≠ none) (h : d.checkedQuery build q = .ok (d', some (.ok r))) :
    (¬ FirstLost d.queries ∧ d'.server = d.server.run q) ∨
    ∃ errno executed, d.queries.head? = some (.error errno executed) ∧ isLost errno = true ∧
      ∃ s : Server σ, s.session = some none ∧ s.commits = (if executed then d.server.run q else d.server).commits ∧
        d'.server = s.run q := by
  obtain ⟨⟨d₀, connected⟩, hcheck, hrest⟩ := bind_eq_ok.1 h
  rw [checkConnection, if_pos hmy] at hcheck
  obtain ⟨rfl, rfl⟩ := Prod.mk.inj (Except.ok.inj hcheck)
  obtain ⟨⟨d₂, res⟩, hsafe, hret⟩ := bind_eq_ok.1 hrest
  obtain ⟨rfl, hres⟩ := Prod.mk.inj (Except.ok.inj hret)
  obtain rfl := Option.some.inj hres
  rcases safeQuery_cases hsafe with ⟨h₁, -⟩ | ⟨d₁, d₃, errno, built, h₁, hlost, hb, ⟨rfl, h₃⟩ | ⟨-, -, hres⟩⟩
  · obtain ⟨-, -, ⟨r', -, -, hhead, hserver⟩ | ⟨_, _, hres, -⟩ | ⟨_, hres, -⟩⟩ := realQuery_cases h₁
    · refine .inl ⟨?_, hserver⟩
      rintro ⟨errno, executed, hhead', -⟩
      cases hhead.symm.trans hhead'
    · cases hres
    · cases hres
  · obtain ⟨-, -, ⟨_, hres, -⟩ | ⟨_, executed, hres, -, -, hhead, hserver⟩ | ⟨_, hres, -, hgone⟩⟩ := realQuery_cases h₁
    · cases hres
    · obtain rfl := Except.error.inj hres
      right
      refine ⟨errno, executed, hhead, hlost, d₃.server, ?_, ?_, ?_⟩
      · obtain ⟨-, -, ⟨_, -, hs₃, -, -⟩ | ⟨_, _, hres, -⟩ | ⟨_, hres, -⟩⟩ := realQuery_cases h₃
        · exact ((hbuild _ _ _ hb).2 rfl).resolve_left hs₃
        · cases hres
        · cases hres
      · rw [(hbuild _ _ _ hb).1.commits_eq, hserver]
        rfl
      · obtain ⟨-, -, ⟨_, -, -, -, hserver₃⟩ | ⟨_, _, hres, -⟩ | ⟨_, hres, -⟩⟩ := realQuery_cases h₃
        · exact hserver₃
        · cases hres
        · cases hres
    · obtain rfl := Except.error.inj hres
      exact absurd (hgone hlost) hs
  · cases hres

/-- A call finds its answers. -/
def withAnswers (d : MySQLDatabase σ) (queries : List QueryAnswer) (connects : List ConnectAnswer) : MySQLDatabase σ :=
  { d with queries, connects }

/-- **A call that succeeds on a connection**, with the answers that it finds. -/
lemma withAnswers_checkedQuery_cases {r : QueryOk} {queries : List QueryAnswer} {connects : List ConnectAnswer}
    (hmy : d.my = true) (hs : d.server.session ≠ none)
    (h : (d.withAnswers queries connects).checkedQuery buildConnection q = .ok (d', some (.ok r))) :
    (¬ FirstLost queries ∧ d'.server = d.server.run q) ∨
    ∃ errno executed, queries.head? = some (.error errno executed) ∧ isLost errno = true ∧
      ∃ s : Server σ, s.session = some none ∧ s.commits = (if executed then d.server.run q else d.server).commits ∧
        d'.server = s.run q :=
  checkedQuery_ok_cases (d := d.withAnswers queries connects) buildConnection_quiet hmy hs h

end MySQLDatabase

end Zutils.Db
