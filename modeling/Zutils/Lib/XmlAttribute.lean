import Zutils.Lib.XmlLexer

/-!
# What an attribute value of XML means

Line ends become line feeds, white space becomes spaces, and then what the references stand for is put in, to predefined
entities or to characters by their numbers. So white space other than spaces comes through only by reference.
-/

namespace Zutils.Lib.Xml

/-- Line ends are made line feeds; the flag says that a carriage return comes before. -/
def lineEnds : Bool → List UInt8 → List UInt8
  | _, [] => []
  | after, c :: cs =>
    if c = 0x0D then 0x0A :: lineEnds true cs
    else if c = 0x0A ∧ after then lineEnds false cs
    else c :: lineEnds false cs

/-- White space is made a space. -/
def spaced (c : UInt8) : UInt8 := if isSpace c then 0x20 else c

def normalize (bs : List UInt8) : List UInt8 := (lineEnds false bs).map spaced

/-- A digit, in either case. -/
def digitOf (base : ℕ) (c : UInt8) : Option ℕ :=
  let digit :=
    if 0x30 ≤ c ∧ c ≤ 0x39 then some (c.toNat - 0x30)
    else if 0x41 ≤ c ∧ c ≤ 0x46 then some (c.toNat - 0x37)
    else if 0x61 ≤ c ∧ c ≤ 0x66 then some (c.toNat - 0x57)
    else none
  digit.filter (· < base)

def numberOf (base : ℕ) (digits : List UInt8) : Option ℕ :=
  if digits = [] then none else digits.foldlM (fun n c => (digitOf base c).map (base * n + ·)) 0

/-- The characters that a document may have. -/
def isCharacter (n : ℕ) : Bool := n = 0x09 ∨ n = 0x0A ∨ n = 0x0D ∨ 0x20 ≤ n ∧ n.isValidChar ∧ n ≠ 0xFFFE ∧ n ≠ 0xFFFF

/-- The bytes of a character. -/
def characterOf (n : ℕ) : Option (List UInt8) :=
  if isCharacter n then some (String.utf8EncodeChar (Char.ofNat n)) else none

/-- What stands between `&` and `;`. -/
def reference (name : List UInt8) : Option (List UInt8) :=
  if name.take 2 = [0x23, 0x78] then numberOf 16 (name.drop 2) >>= characterOf
  else if name.take 1 = [0x23] then numberOf 10 (name.drop 1) >>= characterOf
  else (entities.lookup name).map ([·])

/-- Putting in what references stand for, where `name` is what has been read of one. -/
def putInFrom : Option (List UInt8) → List UInt8 → Option (List UInt8)
  | none, [] => some []
  | some _, [] => none
  | none, c :: cs => if c = kAmpersand then putInFrom (some []) cs else (c :: ·) <$> putInFrom none cs
  | some name, c :: cs =>
    if c = kSemicolon then
      match reference name with
      | some bs => (bs ++ ·) <$> putInFrom none cs
      | none => none
    else putInFrom (some (name ++ [c])) cs

/-- **What a value means**, if it may stand in a start tag. -/
def decodeValue (bs : List UInt8) : Option (List UInt8) :=
  if kLess ∈ bs then none else putInFrom none (normalize bs)

/-- A line feed by its number, and one that is made a space. -/
example : decodeValue [kAmpersand, 0x23, 0x31, 0x30, kSemicolon, 0x0D, 0x0A, 0x61] = some [0x0A, 0x20, 0x61] := by decide

section

variable {bs v : List UInt8} {c : UInt8}

lemma spaced_eq_self (h : isSpace c = true → c = 0x20) : spaced c = c := by
  rw [spaced]
  split
  · rename_i hc
    exact (h hc).symm
  · rfl

lemma spaced_isSpace (h : isSpace (spaced c) = true) : spaced c = 0x20 := by
  rw [spaced] at h ⊢
  split
  · rfl
  · rename_i hc
    rw [if_neg hc] at h
    exact absurd h hc

/-- Without line feeds it does not matter what comes before. -/
lemma normalize_of_noLineFeed (h : 0x0A ∉ bs) : normalize bs = bs.map spaced := by
  have hends : ∀ (after : Bool) (bs : List UInt8), 0x0A ∉ bs → (lineEnds after bs).map spaced = bs.map spaced := by
    intro after bs h
    induction bs generalizing after with
    | nil => rfl
    | cons c cs ih =>
      rw [List.mem_cons, not_or] at h
      rw [lineEnds]
      split_ifs with hreturn hfeed
      · subst hreturn
        rw [List.map_cons, List.map_cons, ih true h.2]
        rfl
      · exact absurd hfeed.1.symm h.1
      · rw [List.map_cons, List.map_cons, ih false h.2]
  exact hends false bs h

lemma reference_of_lookup {name : List UInt8} {b : UInt8} (h : entities.lookup name = some b) :
    reference name = some [b] := by
  have hmem : (name, b) ∈ entities := by
    obtain ⟨before, after, heq, -⟩ := List.lookup_eq_some_iff.1 h
    rw [heq]
    exact List.mem_append_right before List.mem_cons_self
  simp only [entities, List.mem_cons, Prod.mk.injEq, List.not_mem_nil, or_false] at hmem
  rcases hmem with ⟨rfl, rfl⟩ | ⟨rfl, rfl⟩ | ⟨rfl, rfl⟩ | ⟨rfl, rfl⟩ | ⟨rfl, rfl⟩ <;> rfl

lemma putInFrom_of_decodeFrom {name : Option (List UInt8)} (h : decodeFrom name bs = some v) :
    putInFrom name bs = some v := by
  induction bs generalizing name v with
  | nil => cases name <;> exact h
  | cons c cs ih =>
    cases name with
    | none =>
      rw [decodeFrom] at h
      rw [putInFrom]
      split
      · rename_i hc
        rw [if_pos hc] at h
        exact ih h
      · rename_i hc
        rw [if_neg hc] at h
        obtain ⟨w, hw, rfl⟩ := Option.map_eq_some_iff.1 h
        rw [ih hw]
        rfl
    | some name =>
      rw [decodeFrom] at h
      rw [putInFrom]
      split
      · rename_i hc
        rw [if_pos hc] at h
        cases hlookup : entities.lookup name with
        | none =>
          rw [hlookup] at h
          cases h
        | some b =>
          rw [hlookup] at h
          obtain ⟨w, hw, rfl⟩ := Option.map_eq_some_iff.1 h
          rw [reference_of_lookup hlookup]
          dsimp only
          rw [ih hw]
          rfl
      · rename_i hc
        rw [if_neg hc] at h
        exact ih h

/-- **Without line feeds and `<`**, a value means what is decoded of it with its white space made spaces. -/
theorem decodeValue_eq (hless : kLess ∉ bs) (hfeed : 0x0A ∉ bs) (h : decode (bs.map spaced) = some v) :
    decodeValue bs = some v := by
  rw [decodeValue, if_neg hless, normalize_of_noLineFeed hfeed]
  exact putInFrom_of_decodeFrom h

end

end Zutils.Lib.Xml
