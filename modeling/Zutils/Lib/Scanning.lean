import Mathlib.Data.List.Basic

/-!
# Documents that are read piece by piece

A document is a list of pieces: bytes that mean nothing by themselves, tokens, blocks of content, and marks, which
have no bytes and say that something ends here. A scanner reads it in portions that may end anywhere, and calls for
what it has read, with the bytes of the token or block that are in the portion (`scan`).

A portion that ends in a token cuts it, and one that ends with the last byte of a token has not seen that the token
ends: in either case the scanner calls once more for what is left. A block has a length that is known before, so no
call is made for an empty rest. A mark is called for as soon as all bytes in front of it have been read.

A document is `Closed` when a byte follows each token. If a portion takes in a closed document, the calls for it are
the calls that are made when it is read at once (`scan_append`).
-/

namespace Zutils.Lib

variable {β κ : Type*}

/-- A piece of a document; what is called for has a kind. -/
inductive Piece (β κ : Type*) where
  | silent (bs : List β)
  | token (k : κ) (bs : List β)
  | block (k : κ) (bs : List β)
  | mark (k : κ)
  deriving Repr

namespace Piece

def bytes : Piece β κ → List β
  | silent bs | token _ bs | block _ bs => bs
  | mark _ => []

/-- What is called for the piece when it is read at once. -/
def call : Piece β κ → Option (κ × List β)
  | silent _ => none
  | token k bs | block k bs => some (k, bs)
  | mark k => some (k, [])

end Piece

/-- The bytes of a document. -/
def bytesOf (ps : List (Piece β κ)) : List β := ps.flatMap Piece.bytes

/-- The calls for a document that is read at once. -/
def callsOf (ps : List (Piece β κ)) : List (κ × List β) := ps.filterMap Piece.call

/-- The calls for a portion of `n` bytes, and what is left of the document. -/
def scan : List (Piece β κ) → ℕ → List (κ × List β) × List (Piece β κ)
  | [], _ => ([], [])
  | .silent bs :: ps, n => if n < bs.length then ([], .silent (bs.drop n) :: ps) else scan ps (n - bs.length)
  | .token k bs :: ps, n =>
    if n ≤ bs.length then (if n = 0 then [] else [(k, bs.take n)], .token k (bs.drop n) :: ps)
    else ((k, bs) :: (scan ps (n - bs.length)).1, (scan ps (n - bs.length)).2)
  | .block k bs :: ps, n =>
    if n < bs.length then (if n = 0 then [] else [(k, bs.take n)], .block k (bs.drop n) :: ps)
    else ((k, bs) :: (scan ps (n - bs.length)).1, (scan ps (n - bs.length)).2)
  | .mark k :: ps, n => ((k, []) :: (scan ps n).1, (scan ps n).2)

/-- A byte follows each token. -/
def Closed : List (Piece β κ) → Prop
  | [] => True
  | .token _ _ :: ps => 0 < (bytesOf ps).length ∧ Closed ps
  | .silent _ :: ps | .block _ _ :: ps | .mark _ :: ps => Closed ps

section Scan

variable {ps qs : List (Piece β κ)} {n : ℕ}

@[simp] lemma bytesOf_nil : bytesOf ([] : List (Piece β κ)) = [] := rfl

@[simp] lemma bytesOf_cons (p : Piece β κ) : bytesOf (p :: ps) = p.bytes ++ bytesOf ps := rfl

@[simp] lemma bytesOf_append : bytesOf (ps ++ qs) = bytesOf ps ++ bytesOf qs := List.flatMap_append

lemma callsOf_append : callsOf (ps ++ qs) = callsOf ps ++ callsOf qs := List.filterMap_append

/-- What is left of the document after a portion has the bytes that are left. -/
lemma bytesOf_scan (ps : List (Piece β κ)) (n : ℕ) : bytesOf (scan ps n).2 = (bytesOf ps).drop n := by
  have hcut : ∀ {bs rest : List β} {n : ℕ}, n ≤ bs.length → bs.drop n ++ rest = (bs ++ rest).drop n :=
    fun h => (List.drop_append_of_le_length h).symm
  have hpast : ∀ {bs rest : List β} {n : ℕ}, bs.length ≤ n → rest.drop (n - bs.length) = (bs ++ rest).drop n :=
    fun {bs _ _} h => by rw [List.drop_append, List.drop_eq_nil_of_le h, List.nil_append]
  induction ps generalizing n with
  | nil => rw [scan, bytesOf_nil, List.drop_nil]
  | cons p ps ih =>
    cases p with
    | silent bs =>
      rw [scan]
      split
      · exact hcut (by omega)
      · exact (ih _).trans (hpast (by omega))
    | token k bs =>
      rw [scan]
      split
      · exact hcut (by omega)
      · exact (ih _).trans (hpast (by omega))
    | block k bs =>
      rw [scan]
      split
      · exact hcut (by omega)
      · exact (ih _).trans (hpast (by omega))
    | mark k => exact ih n

/-- **A closed document that is taken in whole** is called for as if it were read at once, and the rest of the portion
is for what follows. -/
theorem scan_append (hps : Closed ps) (qs : List (Piece β κ)) (n : ℕ) :
    scan (ps ++ qs) ((bytesOf ps).length + n) = (callsOf ps ++ (scan qs n).1, (scan qs n).2) := by
  induction ps with
  | nil => rw [List.nil_append, bytesOf_nil, List.length_nil, Nat.zero_add]; rfl
  | cons p ps ih =>
    have hrest : ∀ bs : List β, (bs ++ bytesOf ps).length + n - bs.length = (bytesOf ps).length + n := fun bs => by
      rw [List.length_append]
      omega
    cases p with
    | silent bs =>
      rw [List.cons_append, bytesOf_cons, Piece.bytes, scan, hrest, if_neg (by rw [List.length_append]; omega),
        ih hps]
      rfl
    | token k bs =>
      obtain ⟨hpos, hps⟩ := hps
      rw [List.cons_append, bytesOf_cons, Piece.bytes, scan, hrest, if_neg (by rw [List.length_append]; omega),
        ih hps]
      rfl
    | block k bs =>
      rw [List.cons_append, bytesOf_cons, Piece.bytes, scan, hrest, if_neg (by rw [List.length_append]; omega),
        ih hps]
      rfl
    | mark k =>
      rw [List.cons_append, bytesOf_cons, Piece.bytes, List.nil_append, scan, ih hps]
      rfl

/-- **A portion that ends in silent bytes in front of a token**, or where the token begins, calls for nothing. -/
lemma scan_silent_token {bs : List β} (hn : n ≤ bs.length) (k : κ) (t : List β) (ps : List (Piece β κ)) :
    (scan (.silent bs :: .token k t :: ps) n).1 = [] ∧
      ((scan (.silent bs :: .token k t :: ps) n).2 = .silent (bs.drop n) :: .token k t :: ps ∨
        bs.drop n = [] ∧ (scan (.silent bs :: .token k t :: ps) n).2 = .token k t :: ps) := by
  rw [scan]
  split
  · exact ⟨rfl, .inl rfl⟩
  · obtain rfl : n = bs.length := by omega
    rw [Nat.sub_self, scan, if_pos (Nat.zero_le _), if_pos rfl, List.drop_zero, List.drop_length]
    exact ⟨rfl, .inr ⟨rfl, rfl⟩⟩

end Scan

end Zutils.Lib
