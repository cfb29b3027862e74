import Zutils.Base.DynLibManager

/-!
# Who may unload a shared library

All clients of a name share one library, and the first one that unloads it deletes it for all of them. So the clients are
safe along a run if and only if each library is unloaded by a client that has it alone, and `dlclose` does not fail
(`safe_iff`).
-/

namespace Zutils

open Lib

namespace DynLibManager

variable {m : DynLibManager} {filename name : List UInt8} {lib : ℕ} {libs libs' : ℕ → Option DynLib} {closes : ℕ → Bool}
  {es : List (List UInt8 × ℕ)}

lemma mem_of_find (h : m.find filename = some lib) : (filename, lib) ∈ m.mLibList := by
  obtain ⟨e, he, rfl⟩ := Option.map_eq_some_iff.1 h
  have hname := List.find?_some he
  rw [decide_eq_true_iff] at hname
  rw [← hname]
  exact List.mem_of_find?_eq_some he

lemma not_mem_of_find (h : m.find filename = none) : (filename, lib) ∉ m.mLibList := by
  intro hmem
  have hne := List.find?_eq_none.1 (Option.map_eq_none_iff.1 h) _ hmem
  simp at hne

/-- **The loop of the destructor** deletes what the entries stand for, if their names are different and `dlclose` does not
fail. -/
lemma foldlM_destroyEntry (hcloses : ∀ lib, closes lib = true) (hnames : (es.map Prod.fst).Nodup)
    (hes : ∀ e ∈ es, libs e.2 = some ⟨e.1, true⟩) :
    ∃ libs', es.foldlM (destroyEntry closes) libs = .ok libs' ∧
      ∀ lib, libs' lib = if lib ∈ es.map Prod.snd then none else libs lib := by
  induction es generalizing libs with
  | nil => exact ⟨libs, rfl, by simp⟩
  | cons e es ih =>
    obtain ⟨he, hes⟩ := List.forall_mem_cons.1 hes
    rw [List.map_cons, List.nodup_cons] at hnames
    obtain ⟨hnew, hnames⟩ := hnames
    -- Another entry stands for another library, because that has another name.
    have hother : ∀ e' ∈ es, e'.2 ≠ e.2 := by
      intro e' he' heq
      have hsame := (hes e' he').symm.trans ((congrArg libs heq).trans he)
      simp only [Option.some.injEq, DynLib.mk.injEq, and_true] at hsame
      exact hnew (hsame ▸ List.mem_map_of_mem he')
    have hrest : ∀ e' ∈ es, Function.update libs e.2 none e'.2 = some ⟨e'.1, true⟩ := by
      intro e' he'
      rw [Function.update_of_ne (hother e' he')]
      exact hes e' he'
    obtain ⟨libs', hfold, hlibs'⟩ := ih hnames hrest
    refine ⟨libs', ?_, fun lib => ?_⟩
    · simpa [destroyEntry, deref, he, hcloses, bind, Except.bind, pure, Except.pure] using hfold
    · rw [hlibs' lib]
      by_cases hlib : lib = e.2
      · simp [hlib]
      · simp only [List.map_cons, List.mem_cons, hlib, false_or, ne_eq, not_false_eq_true, Function.update_of_ne]

end DynLibManager

namespace DynLibClients

variable {ι : Type}

/-- What holds while each library is unloaded alone: the map has what is loaded, by the names. -/
structure Inv (s : DynLibClients ι) : Prop where
  fresh : ∀ lib l, s.manager.libs lib = some l → lib < s.manager.next
  names : (s.manager.mLibList.map Prod.fst).Nodup
  mem_iff : ∀ name lib, (name, lib) ∈ s.manager.mLibList ↔ s.manager.libs lib = some ⟨name, true⟩
  held : ∀ c lib, s.held c = some lib → ∃ name, s.manager.libs lib = some ⟨name, true⟩

lemma inv_new : Inv (new : DynLibClients ι) where
  fresh lib l h := by simp [new, DynLibManager.new] at h
  names := by simp [new, DynLibManager.new]
  mem_iff := by simp [new, DynLibManager.new]
  held c lib h := by simp [new] at h

lemma Inv.lib_unique {s : DynLibClients ι} (h : Inv s) {lib lib' : ℕ} {name : List UInt8}
    (hlib : s.manager.libs lib = some ⟨name, true⟩) (hlib' : s.manager.libs lib' = some ⟨name, true⟩) : lib = lib' :=
  congrArg Prod.snd (List.inj_on_of_nodup_map h.names ((h.mem_iff name lib).2 hlib) ((h.mem_iff name lib').2 hlib') rfl)

lemma Inv.update_next {s : DynLibClients ι} (h : Inv s) {lib : ℕ} {l l' : DynLib} :
    Function.update s.manager.libs s.manager.next (some l) lib = some l' ↔
      lib = s.manager.next ∧ l = l' ∨ s.manager.libs lib = some l' := by
  by_cases hlib : lib = s.manager.next
  · have hnone : s.manager.libs s.manager.next ≠ some l' := fun hl => Nat.lt_irrefl _ (h.fresh _ _ hl)
    rw [hlib, Function.update_self]
    simp [hnone]
  · rw [Function.update_of_ne hlib]
    simp [hlib]

variable [DecidableEq ι]

/-- **The clients are safe**: no client's library is unloaded or deleted, no call of theirs uses what is deleted, and the
destructor deletes exactly the libraries that are still loaded, while `dlclose` does not fail. -/
structure Safe (s : DynLibClients ι) : Prop where
  held : ∀ c lib, s.held c = some lib → ∃ l, s.manager.libs lib = some l ∧ l.loaded = true
  calls : ∀ a, s.Valid a → ∃ s', s.call a = .ok s'
  destructor : ∀ closes : ℕ → Bool, (∀ lib, closes lib = true) → ∃ libs', s.manager.destroy closes = .ok libs' ∧
    ∀ lib l, s.manager.libs lib = some l → (libs' lib = none ↔ l.loaded = true)

/-- The client has alone what it unloads, and `dlclose` does not fail. -/
def Alone (s : DynLibClients ι) : DynLibCall ι → Prop
  | .load _ _ _ => True
  | .unload c closes => closes = true ∧ ∀ c', c' ≠ c → s.held c' ≠ s.held c

variable {s s' : DynLibClients ι} {a : DynLibCall ι} {c : ι} {lib : ℕ} {name : List UInt8} {closes : Bool}

lemma call_unload (hc : s.held c = some lib) (hlib : s.manager.libs lib = some ⟨name, true⟩) :
    s.call (.unload c closes) = .ok
      { manager := { s.manager with
          mLibList := s.manager.mLibList.filter fun e => e.1 ≠ name
          libs := if closes then Function.update s.manager.libs lib none else s.manager.libs }
        held := Function.update s.held c none } := by
  cases closes <;>
    simp [call, hc, DynLibManager.unload, DynLibManager.deref, hlib, bind, Except.bind, pure, Except.pure]

lemma held_of_update {c' : ι} {o : Option ℕ} (h : Function.update s.held c o c' = some lib) :
    c' = c ∧ o = some lib ∨ c' ≠ c ∧ s.held c' = some lib := by
  by_cases hcc : c' = c
  · rw [hcc, Function.update_self] at h
    exact .inl ⟨hcc, h⟩
  · rw [Function.update_of_ne hcc] at h
    exact .inr ⟨hcc, h⟩

namespace Inv

/-- **While the map has what is loaded, the clients are safe.** -/
lemma safe (h : Inv s) : Safe s where
  held c lib hc := by
    obtain ⟨name, hlib⟩ := h.held c lib hc
    exact ⟨_, hlib, rfl⟩
  calls a ha := by
    cases a with
    | load c filename opens => exact ⟨_, rfl⟩
    | unload c closes =>
      obtain ⟨lib, hc⟩ := Option.ne_none_iff_exists'.1 ha
      obtain ⟨name, hlib⟩ := h.held c lib hc
      exact ⟨_, call_unload hc hlib⟩
  destructor closes hcloses := by
    obtain ⟨libs', hdestroy, hlibs'⟩ := DynLibManager.foldlM_destroyEntry hcloses h.names
      (fun e he => (h.mem_iff e.1 e.2).1 he)
    refine ⟨libs', hdestroy, fun lib l hl => ?_⟩
    have hlisted : lib ∈ s.manager.mLibList.map Prod.snd ↔ l.loaded = true := by
      simp only [List.mem_map, Prod.exists, exists_eq_right, h.mem_iff, hl, Option.some.injEq]
      constructor
      · rintro ⟨name, rfl⟩
        rfl
      · intro hloaded
        exact ⟨l.name, by rw [← hloaded]⟩
    rw [hlibs' lib, ← hlisted]
    by_cases hmem : lib ∈ s.manager.mLibList.map Prod.snd
    · simp only [hmem, if_true]
    · simp only [hmem, if_false, hl, reduceCtorEq]

lemma load_found (h : Inv s) (hfind : s.manager.find name = some lib) :
    Inv { s with held := Function.update s.held c (some lib) } where
  fresh := h.fresh
  names := h.names
  mem_iff := h.mem_iff
  held c' lib' hc' := by
    obtain ⟨-, hlib⟩ | ⟨-, hc'⟩ := held_of_update hc'
    · obtain rfl := Option.some.inj hlib
      exact ⟨name, (h.mem_iff name lib).1 (DynLibManager.mem_of_find hfind)⟩
    · exact h.held c' lib' hc'

lemma load_opened (h : Inv s) (hfind : s.manager.find name = none) :
    Inv { manager := { s.manager with
            libs := Function.update s.manager.libs s.manager.next (some ⟨name, true⟩)
            next := s.manager.next + 1
            mLibList := s.manager.mLibList.orderedInsert (fun e e' => e.1 ≤ e'.1) (name, s.manager.next) }
          held := Function.update s.held c (some s.manager.next) } := by
  have hperm := List.perm_orderedInsert (fun e e' : List UInt8 × ℕ => e.1 ≤ e'.1) (name, s.manager.next) s.manager.mLibList
  refine ⟨fun lib l hl => ?_, ?_, fun name' lib => ?_, fun c' lib hc' => ?_⟩
  · obtain ⟨rfl, -⟩ | hl := h.update_next.1 hl
    · exact Nat.lt_succ_self _
    · exact Nat.lt_succ_of_lt (h.fresh lib l hl)
  · rw [(hperm.map Prod.fst).nodup_iff, List.map_cons, List.nodup_cons]
    refine ⟨fun hmem => ?_, h.names⟩
    obtain ⟨e, he, hname⟩ := List.mem_map.1 hmem
    have hname : e.1 = name := hname
    rw [← hname] at hfind
    exact DynLibManager.not_mem_of_find hfind he
  · simp only [hperm.mem_iff, List.mem_cons, Prod.mk.injEq, h.mem_iff, h.update_next, DynLib.mk.injEq, and_true]
    rw [and_comm, eq_comm (a := name')]
  · obtain ⟨-, hlib⟩ | ⟨-, hc'⟩ := held_of_update hc'
    · exact ⟨name, h.update_next.2 (.inl ⟨(Option.some.inj hlib).symm, rfl⟩)⟩
    · obtain ⟨name', hlib⟩ := h.held c' lib hc'
      exact ⟨name', h.update_next.2 (.inr hlib)⟩

lemma load_failed (h : Inv s) :
    Inv { manager := { s.manager with
            libs := Function.update s.manager.libs s.manager.next (some ⟨name, false⟩)
            next := s.manager.next + 1 }
          held := Function.update s.held c none } := by
  refine ⟨fun lib l hl => ?_, h.names, fun name' lib => ?_, fun c' lib hc' => ?_⟩
  · obtain ⟨rfl, -⟩ | hl := h.update_next.1 hl
    · exact Nat.lt_succ_self _
    · exact Nat.lt_succ_of_lt (h.fresh lib l hl)
  · simp only [h.mem_iff, h.update_next, DynLib.mk.injEq, Bool.false_eq_true, and_false, false_or]
  · obtain ⟨-, hlib⟩ | ⟨-, hc'⟩ := held_of_update hc'
    · cases hlib
    · obtain ⟨name', hlib⟩ := h.held c' lib hc'
      exact ⟨name', h.update_next.2 (.inr hlib)⟩

/-- **To load** a library keeps the map. -/
lemma load (h : Inv s) {filename : List UInt8} {opens : Bool}
    (hcall : s.call (.load c filename opens) = .ok s') : Inv s' := by
  cases hfind : s.manager.find filename with
  | some lib =>
    simp only [call, DynLibManager.load, hfind, Except.ok.injEq] at hcall
    subst hcall
    exact h.load_found hfind
  | none =>
    cases opens with
    | true =>
      simp only [call, DynLibManager.load, hfind, if_true, Except.ok.injEq] at hcall
      subst hcall
      exact h.load_opened hfind
    | false =>
      simp only [call, DynLibManager.load, hfind, Bool.false_eq_true, if_false, Except.ok.injEq] at hcall
      subst hcall
      exact h.load_failed

/-- **To unload** a library that the client has alone keeps the map. -/
lemma unload (h : Inv s) (hc : s.held c = some lib) (halone : ∀ c', c' ≠ c → s.held c' ≠ s.held c)
    (hcall : s.call (.unload c true) = .ok s') : Inv s' := by
  obtain ⟨name, hlib⟩ := h.held c lib hc
  rw [call_unload hc hlib] at hcall
  obtain rfl := Except.ok.inj hcall
  simp only [if_true]
  refine ⟨fun lib' l hl => ?_, ?_, fun name' lib' => ?_, fun c' lib' hc' => ?_⟩
  · by_cases hne : lib' = lib
    · simp [hne] at hl
    · simp only [ne_eq, hne, not_false_eq_true, Function.update_of_ne] at hl
      exact h.fresh lib' l hl
  · exact h.names.sublist (List.filter_sublist.map Prod.fst)
  · simp only [List.mem_filter, h.mem_iff, decide_eq_true_eq]
    by_cases hne : lib' = lib
    · subst hne
      simp [hlib, eq_comm]
    · simp only [ne_eq, hne, not_false_eq_true, Function.update_of_ne, and_iff_left_iff_imp]
      rintro hlib' rfl
      exact hne (h.lib_unique hlib' hlib)
  · obtain ⟨-, hnone⟩ | ⟨hcc, hother⟩ := held_of_update hc'
    · cases hnone
    have hne : lib' ≠ lib := by
      rintro rfl
      exact halone c' hcc (hother.trans hc.symm)
    obtain ⟨name', hlib'⟩ := h.held c' lib' hother
    exact ⟨name', by simpa [hne] using hlib'⟩

/-- **Only what a client has alone is unloaded safely.** -/
lemma alone_of_safe (h : Inv s) (ha : s.Valid a) (hcall : s.call a = .ok s') (hsafe : Safe s') : Alone s a := by
  cases a with
  | load c filename opens => trivial
  | unload c closes =>
    obtain ⟨lib, hc⟩ := Option.ne_none_iff_exists'.1 ha
    obtain ⟨name, hlib⟩ := h.held c lib hc
    rw [call_unload hc hlib] at hcall
    obtain rfl := Except.ok.inj hcall
    cases closes with
    | false =>
      -- The destructor does not know the library any more.
      exfalso
      have hnames := h.names.sublist
        ((List.filter_sublist (p := fun e : List UInt8 × ℕ => decide (e.1 ≠ name))).map Prod.fst)
      obtain ⟨libs', hdestroy, hlibs'⟩ := DynLibManager.foldlM_destroyEntry (fun _ => rfl) hnames
        fun e he => (h.mem_iff e.1 e.2).1 (List.mem_of_mem_filter he)
      obtain ⟨libs'', hdestroy', hdeleted⟩ := hsafe.destructor (fun _ => true) fun _ => rfl
      obtain rfl : libs' = libs'' := Except.ok.inj (hdestroy.symm.trans hdestroy')
      have hnone := (hdeleted lib _ hlib).2 rfl
      rw [hlibs' lib, if_neg] at hnone
      · rw [hlib] at hnone
        cases hnone
      · intro hmem
        obtain ⟨e, he, rfl⟩ := List.mem_map.1 hmem
        obtain ⟨he, hne⟩ := List.mem_filter.1 he
        have hname := (h.mem_iff e.1 e.2).1 he
        rw [hlib, Option.some.injEq, DynLib.mk.injEq] at hname
        exact (of_decide_eq_true hne) hname.1.symm
    | true =>
      refine ⟨rfl, fun c' hcc hsame => ?_⟩
      have hc' : Function.update s.held c none c' = some lib := by rw [Function.update_of_ne hcc, hsame, hc]
      obtain ⟨l, hl, -⟩ := hsafe.held c' lib hc'
      simp at hl

end Inv

/-- **The clients of shared libraries are safe** in all states of a run if and only if each library that is unloaded in it is
unloaded by a client that has it alone, and `dlclose` does not fail. -/
theorem safe_iff {calls : List (DynLibCall ι)} (hrun : DynLibRun calls s) :
    (∀ p q t, calls = p ++ q → DynLibRun p t → Safe t) ↔
      ∀ p a q t, calls = p ++ a :: q → DynLibRun p t → Alone t a := by
  refine Run.forall_good_iff ?_ inv_new (fun h => Inv.safe h) ?_ ?_ hrun
  · rintro s a s' s'' ⟨-, h⟩ ⟨-, h'⟩
    exact Except.ok.inj (h.symm.trans h')
  · rintro s a s' h ⟨ha, hcall⟩ halone
    cases a with
    | load c filename opens => exact h.load hcall
    | unload c closes =>
      obtain ⟨rfl, halone⟩ := halone
      obtain ⟨lib, hc⟩ := Option.ne_none_iff_exists'.1 ha
      exact h.unload hc halone hcall
  · rintro s a s' h ⟨ha, hcall⟩ hsafe
    exact h.alone_of_safe ha hcall hsafe

/-- `"libxml"` -/
def libName : List UInt8 := [0x6C, 0x69, 0x62, 0x78, 0x6D, 0x6C]

/-- `"libsql"` -/
def otherName : List UInt8 := [0x6C, 0x69, 0x62, 0x73, 0x71, 0x6C]

lemma three_loads : ∃ t : DynLibClients ℕ,
    DynLibRun [.load 0 libName true, .load 1 libName true, .load 2 otherName true] t ∧
    t.held = Function.update (Function.update (Function.update (fun _ => none) 0 (some 0)) 1 (some 0)) 2 (some 1) ∧
    t.manager.libs 1 = some ⟨otherName, true⟩ := by
  refine ⟨_, ((Run.nil.snoc ⟨?_, rfl⟩).snoc ⟨?_, rfl⟩).snoc ⟨?_, rfl⟩, rfl, rfl⟩
  · rfl
  · rfl
  · rfl

/-- The third one unloads it. -/
theorem safe_shared : ∃ s : DynLibClients ℕ,
    DynLibRun [.load 0 libName true, .load 1 libName true, .load 2 otherName true, .unload 2 true] s ∧
    s.held 0 = s.held 1 ∧ s.manager.libs 1 = none ∧ Safe s := by
  obtain ⟨t, ht, hheld, hlib⟩ := three_loads
  have hunload : t.call (.unload 2 true) = _ := call_unload (show t.held 2 = some 1 by rw [hheld]; rfl) hlib
  have hrun := ht.snoc ⟨show t.Valid (.unload 2 true) by rw [Valid, hheld]; exact Option.some_ne_none 1, hunload⟩
  refine ⟨_, hrun, by simp [hheld], by simp, (safe_iff hrun).2 (fun p a q t' heq ht' => ?_) _ [] _
    (List.append_nil _).symm hrun⟩
  cases a with
  | load c filename opens => trivial
  | unload c closes =>
    rcases snoc_eq_append_cons heq with ⟨rfl, hcall⟩ | ⟨q', hloads⟩
    · obtain ⟨rfl, rfl⟩ := DynLibCall.unload.inj hcall
      obtain rfl := Run.unique (fun s a s' s'' h h' => Except.ok.inj (h.2.symm.trans h'.2)) ht ht'
      refine ⟨rfl, fun c hc => ?_⟩
      rw [hheld, Function.update_self, Function.update_of_ne hc]
      by_cases hone : c = 1 <;> by_cases hzero : c = 0 <;> simp [hone, hzero]
    · have hmem : DynLibCall.unload c closes ∈ p ++ .unload c closes :: q' := by simp
      rw [← hloads] at hmem
      simp at hmem

/-- The library is deleted when the first of them unloads it. -/
theorem unload_shared : ¬ ∀ (calls : List (DynLibCall ℕ)) (s : DynLibClients ℕ), DynLibRun calls s →
    ∀ p q t, calls = p ++ q → DynLibRun p t → Safe t := by
  intro hall
  have hrun : ∃ s : DynLibClients ℕ,
      DynLibRun ([] ++ [.load 0 libName true] ++ [.load 1 libName true] ++ [.unload 0 true]) s ∧
      s.held 1 = some 0 ∧ s.manager.libs 0 = none := by
    refine ⟨_, ((Run.nil.snoc ⟨?_, rfl⟩).snoc ⟨?_, rfl⟩).snoc ⟨?_, rfl⟩, rfl, rfl⟩
    · exact Option.some_ne_none 0
    · rfl
    · rfl
  obtain ⟨s, hrun, hheld, hnone⟩ := hrun
  obtain ⟨l, hl, -⟩ := (hall _ s hrun _ [] s (List.append_nil _).symm hrun).held 1 0 hheld
  rw [hnone] at hl
  cases hl

end DynLibClients

end Zutils
