import Mathlib.Tactic.Common

/-!
# A database server and one session of it

What a client can tell of a transactional server: its session, in which a transaction may be open, and the batches of
statements that were committed, each all at once. A statement outside of a transaction is a batch of its own
(autocommit). The end of a session rolls back what is open. Transactions are numbered, so that a batch says which one
it comes from.
-/

namespace Zutils.Lib

/-- What a session is asked to do. -/
inductive Query (σ : Type) where
  | startTransaction
  | commit
  | rollback
  | setNames
  | setCharacterSet
  | statement (s : σ)
  deriving DecidableEq, Repr

/-- A server. -/
structure Server (σ : Type) where
  /-- The session, if it is alive, with the number and the statements of the transaction that is open in it. -/
  session : Option (Option (ℕ × List σ))
  /-- The batches committed, each with the transaction it comes from. -/
  commits : List (Option ℕ × List σ)
  nextTransaction : ℕ
  deriving DecidableEq, Repr

namespace Server

variable {σ : Type} (s : Server σ)

/-- A new session. -/
def connect : Server σ := { s with session := some none }

/-- The end of the session. -/
def disconnect : Server σ := { s with session := none }

/-- What is open is committed. -/
def commitOpen : Server σ :=
  match s.session with
  | some (some (t, batch)) => { s with session := some none, commits := s.commits ++ [(some t, batch)] }
  | some none | none => s

/-- The session does what it is asked to; to start a transaction commits the one that is open. -/
def run (q : Query σ) : Server σ :=
  match s.session with
  | none => s
  | some current =>
    match q with
    | .startTransaction =>
      { s.commitOpen with session := some (some (s.nextTransaction, [])), nextTransaction := s.nextTransaction + 1 }
    | .commit => s.commitOpen
    | .rollback => { s with session := some none }
    | .setNames | .setCharacterSet => s
    | .statement a =>
      match current with
      | some (t, batch) => { s with session := some (some (t, batch ++ [a])) }
      | none => { s with commits := s.commits ++ [(none, [a])] }

variable {s} {t : ℕ} {batch : List σ} {a : σ}

lemma run_startTransaction (h : s.session ≠ none) :
    (s.run .startTransaction).session = some (some (s.nextTransaction, [])) := by
  obtain ⟨current, hc⟩ := Option.ne_none_iff_exists'.1 h
  simp only [run, hc]

lemma run_statement_open (h : s.session = some (some (t, batch))) :
    s.run (.statement a) = { s with session := some (some (t, batch ++ [a])) } := by
  simp only [run, h]

lemma run_statement_auto (h : s.session = some none) :
    s.run (.statement a) = { s with commits := s.commits ++ [(none, [a])] } := by
  simp only [run, h]

lemma run_commit_open (h : s.session = some (some (t, batch))) :
    s.run .commit = { s with session := some none, commits := s.commits ++ [(some t, batch)] } := by
  simp only [run, commitOpen, h]

lemma run_commit_auto (h : s.session = some none) : s.run .commit = s := by
  simp only [run, commitOpen, h]

lemma run_set {q : Query σ} (hq : q = .setNames ∨ q = .setCharacterSet) : s.run q = s := by
  rcases hs : s.session with _ | current
  · simp only [run, hs]
  · rcases hq with rfl | rfl <;> simp only [run, hs]

end Server

end Zutils.Lib
