import Zutils.Base.LinkedMap
import Zutils.Lib.InsertionOrder
import Zutils.Lib.Run

/-!
# What a map with an order of insertion holds

The entries of a `linked_map` are those that its list points to (`entries`). It is `Coherent` if its set points to the
same nodes as its list, and they are in the set in the order of their keys. Then each operation does to the entries what
`Lib.InsertionOrder` says (`insert_spec`, `erase_spec`, `find_spec`), and no iterator dangles.
-/

namespace Zutils

open Lib InsertionOrder OrderedSet

namespace LinkedMap

variable {K V : Type}

/-- The entries, from first to last. -/
def entries (m : LinkedMap K V) : List (K × V) := m.theList.filterMap m.nodes

/-- The key at an address, which is `k` if there is none. -/
def keyOr (m : LinkedMap K V) (k : K) (i : ℕ) : K := (m.nodes i).elim k Prod.fst

/-- The set and the list point to the same nodes. -/
structure Coherent (theOrder : K → K → Bool) (m : LinkedMap K V) : Prop where
  live : ∀ i ∈ m.theList, i < m.next ∧ ∃ e, m.nodes i = some e
  perm : m.theSet.Perm m.theList
  sorted : ∀ k, Sorted theOrder (m.keyOr k) m.theSet

variable {theOrder : K → K → Bool} {m m' : LinkedMap K V} {k : K} {i pos : ℕ} {e value : K × V}

lemma keyOr_eq (h : m.nodes i = some e) : m.keyOr k i = e.1 := by
  simp [keyOr, h]

lemma deref_eq (h : m.nodes pos = some e) : m.deref pos = .ok e := by
  simp [deref, h]

lemma mem_entries : e ∈ m.entries ↔ ∃ i ∈ m.theList, m.nodes i = some e := by
  simp [entries]

lemma compareKeys_eq {j : ℕ} (hi : ∃ e, m.nodes i = some e) (hj : ∃ e, m.nodes j = some e) :
    m.compareKeys theOrder i j = .ok (theOrder (m.keyOr k i) (m.keyOr k j)) := by
  obtain ⟨e, he⟩ := hi
  obtain ⟨e', he'⟩ := hj
  simp [compareKeys, deref_eq he, deref_eq he', keyOr_eq he, keyOr_eq he', bind, Except.bind, pure, Except.pure]

lemma compares {is : List ℕ} (his : ∀ i ∈ is, ∃ e, m.nodes i = some e) (hpos : ∃ e, m.nodes pos = some e) (k : K) :
    Compares theOrder (m.keyOr k) (m.compareKeys theOrder) pos is :=
  fun i hi => ⟨compareKeys_eq (his i hi) hpos, compareKeys_eq hpos (his i hi)⟩

namespace Coherent

lemma new : Coherent theOrder (LinkedMap.new : LinkedMap K V) where
  live := by simp [LinkedMap.new]
  perm := .refl _
  sorted _ := .nil

lemma mem_theSet (h : Coherent theOrder m) : i ∈ m.theSet ↔ i ∈ m.theList := h.perm.mem_iff

lemma lt_next (h : Coherent theOrder m) (hi : i ∈ m.theList) : i < m.next := (h.live i hi).1

lemma ne_next (h : Coherent theOrder m) (hi : i ∈ m.theList) : i ≠ m.next := Nat.ne_of_lt (h.lt_next hi)

/-- **The frame rule**: only what the list points to matters. -/
lemma frame (h : Coherent theOrder m) (hlist : m'.theList = m.theList) (hset : m'.theSet = m.theSet)
    (hnext : m.next ≤ m'.next) (hnodes : ∀ i ∈ m.theList, m'.nodes i = m.nodes i) :
    Coherent theOrder m' ∧ m'.entries = m.entries := by
  refine ⟨⟨fun i hi => ?_, ?_, fun k => ?_⟩, ?_⟩
  · rw [hlist] at hi
    obtain ⟨hlt, hlive⟩ := h.live i hi
    exact ⟨Nat.lt_of_lt_of_le hlt hnext, by rwa [hnodes i hi]⟩
  · rw [hlist, hset]
    exact h.perm
  · rw [hset]
    refine (h.sorted k).congr fun i hi => ?_
    simp [keyOr, hnodes i (h.mem_theSet.1 hi)]
  · simp only [entries, hlist]
    exact List.filterMap_congr hnodes

lemma eq_of_equivalent (h : Coherent theOrder m) {j : ℕ} {e' : K × V} (hi : i ∈ m.theList) (hj : j ∈ m.theList)
    (he : m.nodes i = some e) (he' : m.nodes j = some e') (hee : Equivalent theOrder e.1 e'.1) : i = j := by
  refine (h.sorted e.1).eq_of_equivalent (h.mem_theSet.2 hi) (h.mem_theSet.2 hj) ?_
  rwa [keyOr_eq he, keyOr_eq he']

lemma entry_unique (h : Coherent theOrder m) {e e' : K × V} (he : e ∈ m.entries) (he' : e' ∈ m.entries)
    (hee : Equivalent theOrder e.1 e'.1) : e = e' := by
  obtain ⟨i, hi, hnode⟩ := mem_entries.1 he
  obtain ⟨j, hj, hnode'⟩ := mem_entries.1 he'
  obtain rfl := h.eq_of_equivalent hi hj hnode hnode' hee
  exact Option.some.inj (hnode.symm.trans hnode')

lemma newNode (h : Coherent theOrder m) (value : K × V) :
    Coherent theOrder (m.newNode value).1 ∧ (m.newNode value).1.entries = m.entries := by
  refine h.frame rfl rfl (Nat.le_succ m.next) fun i hi => ?_
  simp [LinkedMap.newNode, h.ne_next hi]

lemma freeNode (h : Coherent theOrder m) (hpos : pos ∉ m.theList) :
    Coherent theOrder (m.freeNode pos) ∧ (m.freeNode pos).entries = m.entries := by
  refine h.frame rfl rfl le_rfl fun i hi => ?_
  have hne : i ≠ pos := fun heq => hpos (heq ▸ hi)
  simp [LinkedMap.freeNode, hne]

variable [IsStrictWeakOrder K fun a b => theOrder a b = true]

lemma nodup (h : Coherent theOrder m) : m.theList.Nodup := by
  rcases List.eq_nil_or_concat m.theList with hnil | ⟨is, i, hlast⟩
  · simp [hnil]
  · obtain ⟨-, e, -⟩ := h.live i (by simp [hlast])
    exact h.perm.nodup_iff.1 (h.sorted e.1).nodup

/-- **The search** for a key, with a node for it, which has the next address. -/
lemma search (h : Coherent theOrder m) (value : K × V) :
    (∃ pos e, OrderedSet.find ((m.newNode value).1.compareKeys theOrder) m.next m.theSet = .ok (some pos) ∧
      pos ∈ m.theList ∧ m.nodes pos = some e ∧ Equivalent theOrder e.1 value.1) ∨
    (OrderedSet.find ((m.newNode value).1.compareKeys theOrder) m.next m.theSet = .ok none ∧
      ¬ ∃ e ∈ m.entries, Equivalent theOrder e.1 value.1) := by
  have hold : ∀ i ∈ m.theSet, (m.newNode value).1.nodes i = m.nodes i := by
    intro i hi
    simp [LinkedMap.newNode, h.ne_next (h.mem_theSet.1 hi)]
  have hdummy : (m.newNode value).1.nodes m.next = some value := by
    simp [LinkedMap.newNode]
  have hsorted : Sorted theOrder ((m.newNode value).1.keyOr value.1) m.theSet := by
    refine (h.sorted value.1).congr fun i hi => ?_
    simp [keyOr, hold i hi]
  have hlive : ∀ i ∈ m.theSet, ∃ e, (m.newNode value).1.nodes i = some e := by
    intro i hi
    rw [hold i hi]
    exact (h.live i (h.mem_theSet.1 hi)).2
  rw [find_eq hsorted (compares hlive ⟨value, hdummy⟩ value.1), keyOr_eq hdummy]
  cases hfind : m.theSet.find? fun i => Equivalent theOrder ((m.newNode value).1.keyOr value.1 i) value.1 with
  | some pos =>
    have hpos := List.mem_of_find?_eq_some hfind
    obtain ⟨-, e, he⟩ := h.live pos (h.mem_theSet.1 hpos)
    have heq := List.find?_some hfind
    rw [decide_eq_true_iff, keyOr_eq ((hold pos hpos).trans he)] at heq
    exact .inl ⟨pos, e, rfl, h.mem_theSet.1 hpos, he, heq⟩
  | none =>
    refine .inr ⟨rfl, ?_⟩
    rintro ⟨e, hmem, heq⟩
    obtain ⟨i, hi, he⟩ := mem_entries.1 hmem
    have hi := h.mem_theSet.2 hi
    have hne := List.find?_eq_none.1 hfind i hi
    rw [keyOr_eq ((hold i hi).trans he)] at hne
    exact hne (by simpa using heq)

/-- **`find`** gives the iterator of the entry with the key, and leaves the map as it is. -/
theorem find_spec [Inhabited V] (h : Coherent theOrder m) (k : K) : ∃ m' found, m.find theOrder k = .ok (m', found) ∧
    Coherent theOrder m' ∧ m'.entries = m.entries ∧ m'.theList = m.theList ∧
    (∀ i ∈ m.theList, m'.nodes i = m.nodes i) ∧
    (found = none ∧ (¬ ∃ e ∈ m.entries, Equivalent theOrder e.1 k) ∨
      ∃ pos e, found = some pos ∧ pos ∈ m.theList ∧ m.nodes pos = some e ∧ Equivalent theOrder e.1 k) := by
  obtain ⟨hnew, hsame⟩ := h.newNode (k, default)
  obtain ⟨hfree, hentries⟩ := hnew.freeNode fun hmem => h.ne_next hmem rfl
  have hnodes : ∀ i ∈ m.theList, ((m.newNode (k, default)).1.freeNode m.next).nodes i = m.nodes i := by
    intro i hi
    simp [LinkedMap.freeNode, LinkedMap.newNode, h.ne_next hi]
  rcases h.search (k, default) with ⟨pos, e, hfind, hpos, he, heq⟩ | ⟨hfind, hnone⟩
  · refine ⟨_, some pos, ?_, hfree, hentries.trans hsame, rfl, hnodes, .inr ⟨pos, e, rfl, hpos, he, heq⟩⟩
    exact congrArg (· >>= fun found => pure (_, found)) hfind
  · refine ⟨_, none, ?_, hfree, hentries.trans hsame, rfl, hnodes, .inl ⟨rfl, hnone⟩⟩
    exact congrArg (· >>= fun found => pure (_, found)) hfind

lemma assign (h : Coherent theOrder m) (hpos : pos ∈ m.theList) (he : m.nodes pos = some e)
    (heq : Equivalent theOrder e.1 k) (v : V) : ∃ m', m.assign pos v = .ok m' ∧ Coherent theOrder m' ∧
      m'.entries = put (Equivalent theOrder) m.entries k v ∧ m'.theList = m.theList ∧ m'.next = m.next ∧
      m'.nodes pos = some (e.1, v) := by
  refine ⟨{ m with nodes := Function.update m.nodes pos (some (e.1, v)) }, ?_, ⟨?_, h.perm, fun k => ?_⟩, ?_, rfl, rfl,
    Function.update_self ..⟩
  · simp [LinkedMap.assign, deref_eq he, bind, Except.bind, pure, Except.pure]
  · intro i hi
    refine ⟨h.lt_next hi, ?_⟩
    by_cases hip : i = pos
    · exact ⟨(e.1, v), by simp [hip]⟩
    · obtain ⟨-, e', he'⟩ := h.live i hi
      exact ⟨e', by simp [hip, he']⟩
  · refine (h.sorted k).congr fun i _ => ?_
    by_cases hip : i = pos
    · simp [keyOr, hip, he]
    · simp [keyOr, hip]
  · have hput : ∃ e ∈ m.entries, Equivalent theOrder e.1 k := ⟨e, mem_entries.2 ⟨pos, hpos, he⟩, heq⟩
    rw [put, if_pos hput, entries, entries, List.map_filterMap]
    refine List.filterMap_congr fun i hi => ?_
    by_cases hip : i = pos
    · simp [hip, he, heq]
    · obtain ⟨-, e', he'⟩ := h.live i hi
      have hne : ¬ Equivalent theOrder e'.1 k := fun heq' => hip (h.eq_of_equivalent hi hpos he' he (heq'.trans heq.symm))
      simp [hip, he', hne]

lemma append (h : Coherent theOrder m) (hlt : pos < m.next) (he : m.nodes pos = some e)
    (hnone : ¬ ∃ e' ∈ m.entries, Equivalent theOrder e'.1 e.1) :
    ∃ theSet, OrderedSet.insert (compareKeys theOrder { m with theList := m.theList ++ [pos] }) pos m.theSet = .ok theSet ∧
      Coherent theOrder { m with theList := m.theList ++ [pos], theSet } ∧
      entries { m with theList := m.theList ++ [pos], theSet } = put (Equivalent theOrder) m.entries e.1 e.2 := by
  have hlive : ∀ i ∈ m.theSet, ∃ e, m.nodes i = some e := fun i hi => (h.live i (h.mem_theSet.1 hi)).2
  have hnew : ∀ i ∈ m.theSet, ¬ Equivalent theOrder (m.keyOr e.1 i) (m.keyOr e.1 pos) := by
    intro i hi heq
    obtain ⟨e', he'⟩ := hlive i hi
    rw [keyOr_eq he', keyOr_eq he] at heq
    exact hnone ⟨e', mem_entries.2 ⟨i, h.mem_theSet.1 hi, he'⟩, heq⟩
  obtain ⟨theSet, hinsert, hsorted, hperm⟩ := insert_spec (h.sorted e.1) (compares hlive ⟨e, he⟩ e.1) hnew
  have hall : ∀ i ∈ m.theList ++ [pos], i < m.next ∧ ∃ e, m.nodes i = some e := by
    intro i hi
    rcases List.mem_append.1 hi with hi | hi
    · exact h.live i hi
    · rw [List.mem_singleton.1 hi]
      exact ⟨hlt, e, he⟩
  have hperm' : theSet.Perm (m.theList ++ [pos]) :=
    hperm.trans ((h.perm.cons pos).trans (List.perm_append_singleton pos m.theList).symm)
  refine ⟨theSet, hinsert, ⟨hall, hperm', fun k => hsorted.congr fun i hi => ?_⟩, ?_⟩
  · obtain ⟨-, e', he'⟩ := hall i (hperm'.mem_iff.1 hi)
    exact (keyOr_eq he').trans (keyOr_eq (m := { m with theList := m.theList ++ [pos], theSet }) he').symm
  · rw [put, if_neg hnone]
    simp [entries, he]

/-- **`insert`** puts the value, and gives the iterator of its entry. -/
theorem insert_spec (h : Coherent theOrder m) (value : K × V) : ∃ m' pos, m.insert theOrder value = .ok (m', pos) ∧
    Coherent theOrder m' ∧ m'.entries = put (Equivalent theOrder) m.entries value.1 value.2 ∧
    ∃ k, pos ∈ m'.theList ∧ m'.nodes pos = some (k, value.2) ∧ Equivalent theOrder k value.1 := by
  obtain ⟨hnew, hsame⟩ := h.newNode value
  have hdummy : m.next ∉ m.theList := fun hmem => h.ne_next hmem rfl
  rcases h.search value with ⟨pos, e, hfind, hpos, he, heq⟩ | ⟨hfind, hnone⟩
  · have hne := h.ne_next hpos
    have hkept : (m.newNode value).1.nodes pos = some e := by simp [LinkedMap.newNode, hne, he]
    obtain ⟨m', hassign, hm', hput, hlist, -, hnode⟩ := hnew.assign hpos hkept heq value.2
    have hout : m.next ∉ m'.theList := by rwa [hlist]
    obtain ⟨hfree, hentries⟩ := hm'.freeNode hout
    refine ⟨m'.freeNode m.next, pos, ?_, hfree, by rw [hentries, hput, hsame], e.1, ?_, ?_, heq⟩
    · simp only [LinkedMap.newNode] at hfind hassign
      simp [LinkedMap.insert, LinkedMap.newNode, hfind, hassign, bind, Except.bind, pure, Except.pure]
    · rwa [show (m'.freeNode m.next).theList = m.theList from hlist]
    · simp [LinkedMap.freeNode, hne, hnode]
  · obtain ⟨hnew', hsame'⟩ := hnew.newNode value
    have hnode : ((m.newNode value).1.newNode value).1.nodes (m.next + 1) = some value := by simp [LinkedMap.newNode]
    rw [← hsame, ← hsame'] at hnone
    obtain ⟨theSet, hinsert, happend, hput⟩ := hnew'.append (Nat.lt_succ_self (m.next + 1)) hnode hnone
    have hout : m.next ∉ m.theList ++ [m.next + 1] := by simp [hdummy]
    obtain ⟨hfree, hentries⟩ := happend.freeNode hout
    refine ⟨_, m.next + 1, ?_, hfree, by rw [hentries, hput, hsame', hsame], value.1, ?_, ?_, equivalent_refl value.1⟩
    · simp only [LinkedMap.newNode] at hfind hinsert
      simp [LinkedMap.insert, LinkedMap.newNode, hfind, hinsert, bind, Except.bind, pure, Except.pure]
    · simp [LinkedMap.freeNode]
    · simp [LinkedMap.freeNode, hnode]

/-- **`erase`** removes the key of the iterator. -/
theorem erase_spec (h : Coherent theOrder m) (hpos : pos ∈ m.theList) (he : m.nodes pos = some e) :
    ∃ m' behind, m.erase theOrder pos = .ok (m', behind) ∧ Coherent theOrder m' ∧
      m'.entries = remove (Equivalent theOrder) m.entries e.1 := by
  have hlive : ∀ i ∈ m.theSet, ∃ e, m.nodes i = some e := fun i hi => (h.live i (h.mem_theSet.1 hi)).2
  -- Only the node itself has a key that is equivalent to its own.
  have hother : ∀ {i e'}, i ∈ m.theList → m.nodes i = some e' → (Equivalent theOrder e'.1 e.1 ↔ i = pos) := by
    intro i e' hi he'
    refine ⟨h.eq_of_equivalent hi hpos he' he, ?_⟩
    rintro rfl
    rw [Option.some.inj (he'.symm.trans he)]
    exact equivalent_refl e.1
  have hset : (m.theSet.filter fun i => ¬ Equivalent theOrder (m.keyOr e.1 i) (m.keyOr e.1 pos)) = m.theSet.erase pos := by
    rw [(h.perm.nodup_iff.2 h.nodup).erase_eq_filter]
    refine List.filter_congr fun i hi => ?_
    obtain ⟨e', he'⟩ := hlive i hi
    rw [Bool.eq_iff_iff]
    simp [keyOr_eq he', keyOr_eq he, hother (h.mem_theSet.1 hi) he']
  have herase := erase_eq (h.sorted e.1) (compares hlive ⟨e, he⟩ e.1)
  rw [hset] at herase
  have hshorter : Coherent theOrder { m with theSet := m.theSet.erase pos, theList := m.theList.erase pos } :=
    ⟨fun i hi => h.live i (List.mem_of_mem_erase hi), h.perm.erase pos, fun k => (h.sorted k).sublist List.erase_sublist⟩
  obtain ⟨hfree, hentries⟩ := hshorter.freeNode (h.nodup.not_mem_erase)
  refine ⟨_, (m.theList.drop (m.theList.idxOf pos + 1)).head?, ?_, hfree, ?_⟩
  · simp [LinkedMap.erase, herase, hpos, bind, Except.bind, pure, Except.pure]
  · rw [hentries, entries, entries, remove, h.nodup.erase_eq_filter, List.filterMap_filter, List.filter_filterMap]
    refine List.filterMap_congr fun i hi => ?_
    obtain ⟨-, e', he'⟩ := h.live i hi
    by_cases hip : i = pos
    · simp [hip, he, equivalent_refl e.1, Option.filter]
    · simp [hip, he', hother hi he', Option.filter]

end Coherent

/-! ### Runs -/

end LinkedMap

/-- What a call does to the entries. -/
def MapCall.change {K V : Type} : MapCall K V → Change K V
  | .insert value => .put value.1 value.2
  | .erase _ key => .remove key
  | .find _ | .size | .empty => .none

namespace LinkedMap

variable {K V : Type} {theOrder : K → K → Bool} {m m' : LinkedMap K V} {calls : List (MapCall K V)}

lemma Coherent.iterate_eq (h : Coherent theOrder m) : m.iterate = .ok m.entries := by
  have hall : ∀ is : List ℕ, (∀ i ∈ is, ∃ e, m.nodes i = some e) → is.mapM m.deref = .ok (is.filterMap m.nodes) := by
    intro is
    induction is with
    | nil => exact fun _ => rfl
    | cons i is ih =>
      intro hlive
      obtain ⟨⟨e, he⟩, hlive⟩ := List.forall_mem_cons.1 hlive
      simp [List.mapM_cons, deref_eq he, he, ih hlive, bind, Except.bind, pure, Except.pure]
  exact hall m.theList fun i hi => (h.live i hi).2

lemma Coherent.size_eq (h : Coherent theOrder m) : m.size = m.entries.length := by
  rw [size, h.perm.length_eq, entries, eq_comm, List.filterMap_length_eq_length]
  intro i hi
  obtain ⟨-, e, he⟩ := h.live i hi
  simp [he]

variable [Inhabited V] [IsStrictWeakOrder K fun a b => theOrder a b = true]

/-- The runs of valid calls. -/
abbrev MapRun (theOrder : K → K → Bool) : List (MapCall K V) → LinkedMap K V → Prop :=
  Run (fun m c m' => m.Valid c ∧ m.call theOrder c = .ok m') new

lemma equivalence : Equivalence (Equivalent theOrder) := ⟨equivalent_refl, Equivalent.symm, Equivalent.trans⟩

/-- **One call** does to the entries what it is for. -/
lemma Coherent.call_spec (h : Coherent theOrder m) {c : MapCall K V} (hc : m.Valid c) :
    ∃ m', m.call theOrder c = .ok m' ∧ Coherent theOrder m' ∧
      m'.entries = c.change.apply (Equivalent theOrder) m.entries := by
  cases c with
  | insert value =>
    obtain ⟨m', pos, hinsert, hm', hentries, -⟩ := h.insert_spec value
    exact ⟨m', by simp [call, hinsert], hm', hentries⟩
  | erase pos key =>
    obtain ⟨hpos, mapped, he⟩ := hc
    obtain ⟨m', behind, herase, hm', hentries⟩ := h.erase_spec hpos he
    exact ⟨m', by simp [call, herase], hm', hentries⟩
  | find key =>
    obtain ⟨m', found, hfind, hm', hentries, -⟩ := h.find_spec key
    exact ⟨m', by simp [call, hfind], hm', hentries⟩
  | size => exact ⟨m, rfl, h, rfl⟩
  | empty => exact ⟨m, rfl, h, rfl⟩

/-- **What holds along runs.** -/
lemma MapRun.inv (hrun : MapRun theOrder calls m) :
    Coherent theOrder m ∧ InOrder (Equivalent theOrder) (calls.map MapCall.change) m.entries := by
  refine Run.inv (P := fun calls m => Coherent theOrder m ∧
    InOrder (Equivalent theOrder) (calls.map MapCall.change) m.entries) hrun ⟨.new, inOrder_nil⟩ ?_
  rintro calls m c m' ⟨hm, hin⟩ ⟨hc, hcall⟩
  obtain ⟨m'', hcall', hm', hentries⟩ := hm.call_spec hc
  obtain rfl : m' = m'' := Except.ok.inj (hcall.symm.trans hcall')
  refine ⟨hm', ?_⟩
  rw [hentries, List.map_append]
  exact hin.apply equivalence c.change

/-- **A map is in the order of insertion.** Its set and its list have the same iterators, to entries with different keys, which
are in the order in which their keys were put first, with the values that were put last. `find` gives the iterator of the
entry with the key, the size is the number of entries, and no call fails. -/
theorem insertion_ordered (hrun : MapRun theOrder calls m) :
    (m.theSet.Perm m.theList ∧ m.theList.Nodup) ∧
    (∃ es, m.iterate = .ok es ∧ InOrder (Equivalent theOrder) (calls.map MapCall.change) es ∧
      m.size = es.length ∧ (m.empty = true ↔ es = [])) ∧
    (∀ k, ∃ m' found, m.find theOrder k = .ok (m', found) ∧ m'.iterate = m.iterate ∧
      (found = none ∧ ¬ Present (Equivalent theOrder) k (calls.map MapCall.change) ∨
        ∃ pos e, found = some pos ∧ pos ∈ m'.theList ∧ m'.nodes pos = some e ∧ Equivalent theOrder e.1 k ∧
          LastPut (Equivalent theOrder) k e.2 (calls.map MapCall.change))) ∧
    ∀ c, m.Valid c → ∃ m', m.call theOrder c = .ok m' := by
  obtain ⟨hm, hin⟩ := hrun.inv
  refine ⟨⟨hm.perm, hm.nodup⟩, ⟨m.entries, hm.iterate_eq, hin, hm.size_eq, ?_⟩, fun k => ?_, fun c hc => ?_⟩
  · rw [← List.length_eq_zero_iff, ← hm.size_eq]
    simp [empty, size]
  · obtain ⟨m', found, hfind, hm', hentries, hlist, hnodes, hfound⟩ := hm.find_spec k
    refine ⟨m', found, hfind, by rw [hm'.iterate_eq, hentries, hm.iterate_eq], ?_⟩
    rcases hfound with ⟨hnone, habsent⟩ | ⟨pos, e, hsome, hpos, he, heq⟩
    · exact .inl ⟨hnone, mt hin.present_iff.1 habsent⟩
    · refine .inr ⟨pos, e, hsome, by rwa [hlist], by rw [hnodes pos hpos, he], heq, (hin.value k e.2).1 ⟨e.1, ?_, heq⟩⟩
      exact mem_entries.2 ⟨pos, hpos, he⟩
  · obtain ⟨m', hcall, -⟩ := hm.call_spec hc
    exact ⟨m', hcall⟩

lemma natOrder_weak : IsStrictWeakOrder ℕ fun a b => decide (a < b) = true where
  irrefl := by simp
  trans a b c := by simpa using Nat.lt_trans
  incomp_trans a b c := by
    simp only [decide_eq_true_eq]
    omega

/-- A key that is erased and inserted again comes to the end. -/
theorem insertion_ordered_again : ∃ m : LinkedMap ℕ ℕ,
    MapRun (fun a b => decide (a < b)) [.insert (4, 3), .insert (2, 1), .erase 1 4, .insert (4, 7)] m ∧
    m.iterate = .ok [(2, 1), (4, 7)] ∧ m.size = 2 := by
  have : IsStrictWeakOrder ℕ fun a b => decide (a < b) = true := natOrder_weak
  have hrun : ∃ m : LinkedMap ℕ ℕ, MapRun (fun a b => decide (a < b))
      ([] ++ [.insert (4, 3)] ++ [.insert (2, 1)] ++ [.erase 1 4] ++ [.insert (4, 7)]) m ∧
      m.iterate = .ok [(2, 1), (4, 7)] :=
    ⟨_, (((Run.nil.snoc ⟨trivial, rfl⟩).snoc ⟨trivial, rfl⟩).snoc ⟨⟨List.mem_cons_self, 3, rfl⟩, rfl⟩).snoc
      ⟨trivial, rfl⟩, rfl⟩
  obtain ⟨m, hrun, hiterate⟩ := hrun
  obtain ⟨-, ⟨es, hes, -, hsize, -⟩, -⟩ := insertion_ordered hrun
  obtain rfl := Except.ok.inj (hiterate.symm.trans hes)
  exact ⟨m, hrun, hiterate, hsize⟩

end LinkedMap

end Zutils
