import Zutils.Lib.OrderedSet
import Zutils.Base.Checked
import Mathlib.Logic.Function.Basic

/-!
# Maps with an order of insertion (`base2/linked_map.h`)

`linked_map` has its entries in a `std::list` and finds them by a `std::set` of iterators, which are compared by the keys
that they point to. To look for a key, an entry with that key is put into a list of its own, and the set is searched for
its iterator.

The nodes of the lists are kept by their addresses, which are not used twice. An iterator is the address of a node, and
`none` is the end. To follow an iterator to a node that is gone is a fault.
-/

namespace Zutils

open Lib

/-- An iterator that points to nothing. -/
inductive MapFault where
  | danglingIterator
  deriving DecidableEq, Repr

structure LinkedMap (K V : Type) where
  nodes : ℕ → Option (K × V)
  /-- The next address. -/
  next : ℕ
  theList : List ℕ
  theSet : List ℕ

namespace LinkedMap

variable {K V : Type}

def new : LinkedMap K V := ⟨fun _ => none, 0, [], []⟩

section

variable (theOrder : K → K → Bool) (m : LinkedMap K V)

/-- `*pos`. -/
def deref (pos : ℕ) : Except MapFault (K × V) :=
  match m.nodes pos with
  | some value => .ok value
  | none => .error .danglingIterator

/-- A node for the value, with its address. -/
def newNode (value : K × V) : LinkedMap K V × ℕ :=
  ({ m with nodes := Function.update m.nodes m.next (some value), next := m.next + 1 }, m.next)

def freeNode (pos : ℕ) : LinkedMap K V := { m with nodes := Function.update m.nodes pos none }

/-- `pos->second = mapped`. -/
def assign (pos : ℕ) (mapped : V) : Except MapFault (LinkedMap K V) := do
  let value ← m.deref pos
  return { m with nodes := Function.update m.nodes pos (some (value.1, mapped)) }

/-- `compare_keys`. -/
def compareKeys (lhs rhs : ℕ) : Except MapFault Bool := do
  let l ← m.deref lhs
  let r ← m.deref rhs
  return theOrder l.1 r.1

/-- `find`. -/
def find [Inhabited V] (key : K) : Except MapFault (LinkedMap K V × Option ℕ) := do
  let (m, dummy) := m.newNode (key, default)
  let found ← OrderedSet.find (m.compareKeys theOrder) dummy m.theSet
  return (m.freeNode dummy, found)

/-- `insert`. -/
def insert (value : K × V) : Except MapFault (LinkedMap K V × ℕ) := do
  let (m, dummy) := m.newNode value
  let found ← OrderedSet.find (m.compareKeys theOrder) dummy m.theSet
  match found with
  | none =>
    let (m, pos) := m.newNode value
    let m := { m with theList := m.theList ++ [pos] }
    let theSet ← OrderedSet.insert (m.compareKeys theOrder) pos m.theSet
    return (freeNode { m with theSet } dummy, pos)
  | some pos => do
    let m ← m.assign pos value.2
    return (m.freeNode dummy, pos)

/-- `erase`, with the iterator behind. The set is searched for the key of the iterator. -/
def erase (pos : ℕ) : Except MapFault (LinkedMap K V × Option ℕ) := do
  let theSet ← OrderedSet.erase (m.compareKeys theOrder) pos m.theSet
  if pos ∈ m.theList then
    return (freeNode { m with theSet, theList := m.theList.erase pos } pos,
      (m.theList.drop (m.theList.idxOf pos + 1)).head?)
  else .error .danglingIterator

/-- `size`. -/
def size : ℕ := m.theSet.length

/-- `empty`. -/
def empty : Bool := m.theSet.length = 0

/-- `operator[]`: the iterator to the entry, whose value may be assigned to. -/
def subscript [Inhabited V] (key : K) : Except MapFault (LinkedMap K V × ℕ) := m.insert theOrder (key, default)

/-- From `begin()` to `end()`. -/
def iterate : Except MapFault (List (K × V)) := m.theList.mapM m.deref

end

end LinkedMap

/-- A call of a map, where `erase` is given an iterator, and for the history the key of its entry. -/
inductive MapCall (K V : Type) where
  | insert (value : K × V)
  | erase (pos : ℕ) (key : K)
  | find (key : K)
  | size
  | empty

namespace LinkedMap

variable {K V : Type} [Inhabited V] (theOrder : K → K → Bool) (m : LinkedMap K V)

def call : MapCall K V → Except MapFault (LinkedMap K V)
  | .insert value => Prod.fst <$> m.insert theOrder value
  | .erase pos _ => Prod.fst <$> m.erase theOrder pos
  | .find key => Prod.fst <$> m.find theOrder key
  | .size | .empty => .ok m

/-- The iterator of an entry of the map is valid. -/
def Valid : MapCall K V → Prop
  | .erase pos key => pos ∈ m.theList ∧ ∃ mapped, m.nodes pos = some (key, mapped)
  | _ => True

end LinkedMap

end Zutils
