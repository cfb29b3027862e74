import Zutils.Base.LinkedMapSpec

/-!
# The subscript of a map with an order of insertion (`base2/linked_map.h`)

`operator[]` inserts the key with a default value, and `insert` gives a present key the value that it is called with. So
to read an entry by its subscript sets it to the default value: a subscript is that of a map if and only if the key is
absent or has the default value already (`subscript_iff`).
-/

namespace Zutils

open Lib InsertionOrder OrderedSet

/-- A use of a map: a call, `m[k] = v`, or `m[k]` as a value. -/
inductive MapUse (K V : Type) where
  | call (c : MapCall K V)
  | write (k : K) (v : V)
  | read (k : K)

namespace MapUse

variable {K V : Type} [Inhabited V]

/-- What the use is for: to read changes nothing. -/
def purpose : MapUse K V → Change K V
  | .call c => c.change
  | .write k v => .put k v
  | .read _ => .none

end MapUse

namespace LinkedMap

variable {K V : Type} [Inhabited V] (theOrder : K → K → Bool)

/-- The map after the use, with the value that is read. -/
def use (m : LinkedMap K V) : MapUse K V → Except MapFault (LinkedMap K V × Option V)
  | .call c => do
    let m ← m.call theOrder c
    return (m, none)
  | .write k v => do
    let (m, pos) ← m.subscript theOrder k
    let m ← m.assign pos v
    return (m, none)
  | .read k => do
    let (m, pos) ← m.subscript theOrder k
    let e ← m.deref pos
    return (m, some e.2)

/-- The iterator of a call is valid. -/
def ValidUse (m : LinkedMap K V) : MapUse K V → Prop
  | .call c => m.Valid c
  | _ => True

/-- The runs of uses, with the values that are read. -/
abbrev UseRun (theOrder : K → K → Bool) : List (MapUse K V × Option V) → LinkedMap K V → Prop :=
  Run (fun m a m' => m.ValidUse a.1 ∧ m.use theOrder a.1 = .ok (m', a.2)) new

/-- **A subscript** gives the entry of its key and changes nothing, or appends the key with the default value. -/
def Subscripts (m : LinkedMap K V) (k : K) : Prop :=
  ∃ es m' pos e', m.iterate = .ok es ∧ m.subscript theOrder k = .ok (m', pos) ∧ m'.nodes pos = some e' ∧
    (∀ e ∈ es, Equivalent theOrder e.1 k → e' = e ∧ m'.iterate = .ok es) ∧
    ((∀ e ∈ es, ¬ Equivalent theOrder e.1 k) → e' = (k, default) ∧ m'.iterate = .ok (es ++ [(k, default)]))

/-- What is read of a key is the value that was put last, or the default one if the key is absent. -/
def ReadsLast (as : List (MapUse K V × Option V)) : Prop :=
  ∀ p k r q, as = p ++ (.read k, r) :: q →
    (∀ v, LastPut (Equivalent theOrder) k v (p.map fun a => a.1.purpose) → r = some v) ∧
    (¬ Present (Equivalent theOrder) k (p.map fun a => a.1.purpose) → r = some default)

/-- A key is read only while it is absent or the value that was put last is the default one. -/
def ReadsDefault (as : List (MapUse K V × Option V)) : Prop :=
  ∀ p k r q, as = p ++ (.read k, r) :: q →
    ∀ v, LastPut (Equivalent theOrder) k v (p.map fun a => a.1.purpose) → v = default

variable {theOrder} {m m' : LinkedMap K V} {k : K} {as : List (MapUse K V × Option V)} {u : MapUse K V} {r : Option V}

lemma put_default_eq_iff {es : List (K × V)} (hk : ∃ e ∈ es, Equivalent theOrder e.1 k) :
    put (Equivalent theOrder) es k default = es ↔ ∀ e ∈ es, Equivalent theOrder e.1 k → e.2 = default := by
  rw [put, if_pos hk]
  nth_rewrite 2 [← List.map_id es]
  rw [List.map_inj_left]
  refine forall₂_congr fun e _ => ?_
  by_cases hek : Equivalent theOrder e.1 k
  · simp [hek, Prod.ext_iff, eq_comm]
  · simp [hek]

variable [IsStrictWeakOrder K fun a b => theOrder a b = true]

lemma Coherent.subscript_spec (h : Coherent theOrder m) (k : K) : ∃ m' pos, m.subscript theOrder k = .ok (m', pos) ∧
    Coherent theOrder m' ∧ m'.entries = put (Equivalent theOrder) m.entries k default ∧
    ∃ k', pos ∈ m'.theList ∧ m'.nodes pos = some (k', default) ∧ Equivalent theOrder k' k :=
  h.insert_spec (k, default)

/-- **One use** keeps the map coherent, and what is read is the default value. -/
lemma Coherent.use_spec (h : Coherent theOrder m) (hu : m.ValidUse u) (huse : m.use theOrder u = .ok (m', r)) :
    Coherent theOrder m' ∧ ∀ k, u = .read k → r = some default := by
  cases u with
  | call c =>
    obtain ⟨m'', hcall, hm'', -⟩ := h.call_spec hu
    simp only [use, hcall, bind, Except.bind, pure, Except.pure, Except.ok.injEq, Prod.mk.injEq] at huse
    obtain ⟨rfl, -⟩ := huse
    exact ⟨hm'', by simp⟩
  | write k v =>
    obtain ⟨m₁, pos, hsub, hm₁, -, k', hpos, hnode, hkk⟩ := h.subscript_spec k
    obtain ⟨m₂, hassign, hm₂, -⟩ := hm₁.assign hpos hnode hkk v
    simp only [use, hsub, hassign, bind, Except.bind, pure, Except.pure, Except.ok.injEq, Prod.mk.injEq] at huse
    obtain ⟨rfl, -⟩ := huse
    exact ⟨hm₂, by simp⟩
  | read k =>
    obtain ⟨m₁, pos, hsub, hm₁, -, k', hpos, hnode, hkk⟩ := h.subscript_spec k
    simp only [use, hsub, deref_eq hnode, bind, Except.bind, pure, Except.pure, Except.ok.injEq, Prod.mk.injEq] at huse
    obtain ⟨rfl, rfl⟩ := huse
    exact ⟨hm₁, fun _ _ => rfl⟩

/-- **What holds along runs.** -/
lemma UseRun.inv (hrun : UseRun theOrder as m) :
    Coherent theOrder m ∧ ∀ p k r q, as = p ++ (.read k, r) :: q → r = some default := by
  refine Run.inv (P := fun as m => Coherent theOrder m ∧ ∀ p k r q, as = p ++ (.read k, r) :: q → r = some default)
    hrun ⟨.new, by simp⟩ ?_
  rintro as m ⟨u, r⟩ m' ⟨hm, hreads⟩ ⟨hu, huse⟩
  obtain ⟨hm', hr⟩ := hm.use_spec hu huse
  refine ⟨hm', fun p k r' q heq => ?_⟩
  rcases snoc_eq_append_cons heq with ⟨-, hlast⟩ | ⟨q', hbefore⟩
  · obtain ⟨rfl, rfl⟩ := Prod.mk.inj hlast
    exact hr k rfl
  · exact hreads p k r' q' hbefore

/-- **A subscript is that of a map** while the key is absent or has the default value. -/
lemma Coherent.subscripts_iff (h : Coherent theOrder m) :
    Subscripts theOrder m k ↔ ∀ e ∈ m.entries, Equivalent theOrder e.1 k → e.2 = default := by
  obtain ⟨m', pos, hsub, hm', hput, k', hpos, hnode, hkk⟩ := h.subscript_spec k
  constructor
  · rintro ⟨es, m₁, pos₁, e', hes, hsub₁, hnode₁, hpresent, -⟩ e he hek
    obtain rfl := Except.ok.inj (h.iterate_eq.symm.trans hes)
    obtain ⟨rfl, rfl⟩ := Prod.mk.inj (Except.ok.inj (hsub.symm.trans hsub₁))
    obtain ⟨rfl, -⟩ := hpresent e he hek
    rw [← Option.some.inj (hnode.symm.trans hnode₁)]
  · intro hdefault
    have hmem : (k', default) ∈ m'.entries := mem_entries.2 ⟨pos, hpos, hnode⟩
    refine ⟨m.entries, m', pos, (k', default), h.iterate_eq, hsub, hnode, fun e he hek => ?_, fun habsent => ?_⟩
    · have hsame : m'.entries = m.entries := hput.trans ((put_default_eq_iff ⟨e, he, hek⟩).2 hdefault)
      rw [hsame] at hmem
      exact ⟨h.entry_unique hmem he (hkk.trans hek.symm), by rw [hm'.iterate_eq, hsame]⟩
    · have hnone : ¬ ∃ e ∈ m.entries, Equivalent theOrder e.1 k := by
        rintro ⟨e, he, hek⟩
        exact habsent e he hek
      have hend : m'.entries = m.entries ++ [(k, default)] := hput.trans (if_neg hnone)
      rw [hend] at hmem
      refine ⟨?_, by rw [hm'.iterate_eq, hend]⟩
      rcases List.mem_append.1 hmem with hmem | hmem
      · exact absurd hkk (habsent _ hmem)
      · exact List.mem_singleton.1 hmem

/-- **A subscript is that of a map** if and only if its key is absent or has the default value, in each state of a map; and
what is read along a run is what was put last if and only if that is always the default value. -/
theorem subscript_iff (hrun : UseRun theOrder as m) :
    (∀ k, Subscripts theOrder m k ↔ ∀ e ∈ m.entries, Equivalent theOrder e.1 k → e.2 = default) ∧
    (ReadsLast theOrder as ↔ ReadsDefault theOrder as) := by
  obtain ⟨hm, hreads⟩ := hrun.inv
  refine ⟨fun k => hm.subscripts_iff, fun hlast p k r q heq v hv => ?_, fun hdefault p k r q heq => ⟨fun v hv => ?_, ?_⟩⟩
  · have hr := hreads p k r q heq
    rw [(hlast p k r q heq).1 v hv] at hr
    exact Option.some.inj hr
  · rw [hreads p k r q heq, hdefault p k r q heq v hv]
  · intro _
    exact hreads p k r q heq

/-- A key without a value is read twice. -/
theorem subscript_default : ∃ m : LinkedMap ℕ ℕ,
    UseRun (fun a b => decide (a < b)) [(.read 4, some 0), (.read 4, some 0)] m ∧
    Subscripts (fun a b => decide (a < b)) m 4 := by
  have : IsStrictWeakOrder ℕ fun a b => decide (a < b) = true := natOrder_weak
  have hrun : ∃ m : LinkedMap ℕ ℕ, UseRun (fun a b => decide (a < b)) ([] ++ [(.read 4, some 0)] ++ [(.read 4, some 0)]) m ∧
      m.entries = [(4, 0)] :=
    ⟨_, (Run.nil.snoc ⟨trivial, rfl⟩).snoc ⟨trivial, rfl⟩, rfl⟩
  obtain ⟨m, hrun, hentries⟩ := hrun
  refine ⟨m, hrun, ((subscript_iff hrun).1 4).2 ?_⟩
  simp [hentries]

/-- A value is lost when it is read. -/
theorem subscript_resets : ¬ ∀ (as : List (MapUse ℕ ℕ × Option ℕ)) (m : LinkedMap ℕ ℕ),
    UseRun (fun a b => decide (a < b)) as m →
    (∀ k, Subscripts (fun a b => decide (a < b)) m k) ∧ ReadsLast (fun a b => decide (a < b)) as := by
  intro hall
  have hrun : ∃ m : LinkedMap ℕ ℕ,
      UseRun (fun a b => decide (a < b)) ([] ++ [(.write 4 3, none)] ++ [(.read 4, some 0)]) m :=
    ⟨_, (Run.nil.snoc ⟨trivial, rfl⟩).snoc ⟨trivial, rfl⟩⟩
  obtain ⟨m, hrun⟩ := hrun
  obtain ⟨-, hreads⟩ := hall _ m hrun
  have hput : LastPut (Equivalent fun a b => decide (a < b)) 4 3 [MapUse.purpose (.write 4 3 : MapUse ℕ ℕ)] :=
    ⟨[], .put 4 3, [], rfl, ⟨4, rfl, by decide⟩, by simp⟩
  have hthree := (hreads [(.write 4 3, none)] 4 (some 0) [] rfl).1 3 hput
  exact absurd hthree (by decide)

end LinkedMap

end Zutils
