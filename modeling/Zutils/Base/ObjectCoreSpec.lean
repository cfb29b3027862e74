import Zutils.Base.ObjectCore
import Zutils.Lib.Links
import Zutils.Lib.Run

/-!
# What `IsKindOf` answers

A class should be of the kind of every class that is reached by its declared bases (`Matches`). What `IsKindOf` finds is
what the primary bases reach from the classes on the way of `base_next_` (`isKindOf_spec`). A class has one `base_next_`
for all lists in which it stands, and of a class that is constructed later with it as an additional base it keeps the
link of the last list.

So a construction keeps the answers right if and only if all that the new class inherits comes from its primary bases or
from its first additional base, and each additional base is itself derived from the one behind it and inherits all else
from its primary bases (`Fits`).
-/

namespace Zutils

open Lib Relation

namespace Class

variable {α : Type*}

namespace Construction

/-- The class that is constructed. -/
def this : Construction α → α
  | .object this => this
  | .derived this _ _ => this

/-- The primary base. -/
def baseClass : Construction α → Option α
  | .object _ => none
  | .derived _ baseClass _ => some baseClass

/-- The additional bases. -/
def extras : Construction α → List α
  | .object _ => []
  | .derived _ _ baseNextClasses => baseNextClasses

/-- All bases. -/
def bases : Construction α → List α
  | .object _ => []
  | .derived _ baseClass baseNextClasses => baseClass :: baseNextClasses

/-- What the new class has as its `base_next_`. -/
def firstLink (d : Construction α) : Option α := if d.extras.length ≤ 8 then d.extras.head? else none

end Construction

/-! ### The declared hierarchy -/

/-- The class has been constructed. -/
def Constructed (ds : List (Construction α)) (c : α) : Prop := ∃ d ∈ ds, d.this = c

/-- The one class is declared with the other as a base. -/
def Declares (ds : List (Construction α)) (c b : α) : Prop := ∃ d ∈ ds, d.this = c ∧ b ∈ d.bases

/-- The one class is declared with the other as its primary base. -/
def Primary (ds : List (Construction α)) (c b : α) : Prop := ∃ d ∈ ds, d.this = c ∧ d.baseClass = some b

/-- What is reached by declared bases. -/
def Reaches (ds : List (Construction α)) : α → α → Prop := ReflTransGen (Declares ds)

/-- What is reached by primary bases. -/
def PrimaryReaches (ds : List (Construction α)) : α → α → Prop := ReflTransGen (Primary ds)

/-- A class is constructed once, after its bases. -/
def Allowed (ds : List (Construction α)) (d : Construction α) : Prop :=
  ¬ Constructed ds d.this ∧ (∀ b ∈ d.bases, Constructed ds b) ∧ d.extras.length ≤ 9

instance [DecidableEq α] (ds : List (Construction α)) (c : α) : Decidable (Constructed ds c) :=
  inferInstanceAs (Decidable (∃ d ∈ ds, d.this = c))

instance [DecidableEq α] (ds : List (Construction α)) (d : Construction α) : Decidable (Allowed ds d) :=
  inferInstanceAs (Decidable (_ ∧ _ ∧ _))

/-- **When a construction keeps the answers right.** -/
structure Fits (ds : List (Construction α)) [DecidableEq α] (d : Construction α) : Prop where
  /-- What the new class inherits comes from its primary base by primary bases, or from its first additional base. -/
  inherits : ∀ b ∈ d.bases, ∀ x, Reaches ds b x →
    (∃ p, d.baseClass = some p ∧ PrimaryReaches ds p x) ∨ ∃ e, d.firstLink = some e ∧ Reaches ds e x
  /-- An additional base is derived from the one behind it. -/
  follows : ∀ c ∈ d.extras, ∀ e, follower d.extras c = some e → Reaches ds c e
  /-- An additional base inherits from its primary bases or from the one behind it. -/
  covers : ∀ c ∈ d.extras, ∀ x, Reaches ds c x →
    PrimaryReaches ds c x ∨ ∃ e, follower d.extras c = some e ∧ Reaches ds e x

/-- **The answers are right.** -/
def Matches [DecidableEq α] (m : Memory α) (ds : List (Construction α)) : Prop :=
  ∀ c x, Constructed ds c → Constructed ds x →
    ∃ r, Settles (fun n => m.isKindOf n c x) r ∧ (r = true ↔ Reaches ds c x)

/-- What every run of constructions keeps. -/
structure Inv (m : Memory α) (ds : List (Construction α)) : Prop where
  fresh : ∀ c, ¬ Constructed ds c → m c = ⟨none, none⟩
  base_iff : ∀ c b, (m c).base = some b ↔ Primary ds c b
  bases : ∀ c b, Declares ds c b → Constructed ds b
  baseNext : ∀ c d, (m c).baseNext = some d → Constructed ds d
  base_ends : ∀ c, Ends (fun c => (m c).base) c
  baseNext_ends : ∀ c, Ends (fun c => (m c).baseNext) c

section Kinds

variable [DecidableEq α] {m : Memory α} {c x : α}

lemma settles_derivedFrom (hc : c ≠ x) {r : Bool} (h : Settles (fun n => m.derivedFrom n (m c).base x) r) :
    Settles (fun n => m.derivedFrom n (some c) x) r := by
  obtain ⟨n, hn⟩ := h
  refine .succ (n := n) ?_
  intro k hk
  rw [Memory.derivedFrom, if_neg hc]
  exact hn k hk

lemma derivedFrom_spec (h : Ends (fun c => (m c).base) c) (x : α) :
    ∃ r, Settles (fun n => m.derivedFrom n (some c) x) r ∧ (r = true ↔ Along (fun c => (m c).base) c x) := by
  have hself : Settles (fun n => m.derivedFrom n (some x) x) true := .succ (n := 0) fun _ _ => if_pos rfl
  induction h with
  | @last c hnone =>
    by_cases hc : c = x
    · exact ⟨true, hc ▸ hself, iff_of_true rfl (along_iff.2 (.inl hc))⟩
    · refine ⟨false, settles_derivedFrom hc ?_, iff_of_false Bool.false_ne_true ?_⟩
      · rw [hnone]
        exact .succ (n := 0) fun _ _ => rfl
      · rw [along_iff, hnone]
        rintro (heq | ⟨d, hd, -⟩)
        · exact hc heq
        · cases hd
  | @link c d hd _ ih =>
    by_cases hc : c = x
    · exact ⟨true, hc ▸ hself, iff_of_true rfl (along_iff.2 (.inl hc))⟩
    · obtain ⟨r, hsettles, hr⟩ := ih
      refine ⟨r, settles_derivedFrom hc ?_, ?_⟩
      · rw [hd]
        exact hsettles
      · rw [hr, along_iff (c := c), hd]
        simp only [hc, Option.some.injEq, exists_eq_left', false_or]

/-- What the bases reach from the classes on the way of `base_next_`. -/
def Finds (m : Memory α) (c x : α) : Prop :=
  Found (fun c => (m c).baseNext) (fun d => Along (fun c => (m c).base) d x) c

/-- **`IsKindOf` finds** what the bases reach from the classes on the way of `base_next_`. -/
lemma isKindOf_spec (hbase : ∀ c, Ends (fun c => (m c).base) c) (h : Ends (fun c => (m c).baseNext) c) (x : α) :
    ∃ r, Settles (fun n => m.isKindOf n c x) r ∧ (r = true ↔ Finds m c x) := by
  induction h with
  | @last c hnone =>
    obtain ⟨r, ⟨n, hn⟩, hr⟩ := derivedFrom_spec (hbase c) x
    refine ⟨r, .succ (n := n) ?_, ?_⟩
    · intro k hk
      have htest : m.derivedFrom k (some c) x = some r := hn k hk
      rw [Memory.isKindOf, htest, hnone]
      cases r <;> rfl
    · rw [hr, Finds, found_iff, hnone]
      simp only [reduceCtorEq, false_and, exists_false, or_false]
  | @link c d hd _ ih =>
    obtain ⟨r, ⟨n, hn⟩, hr⟩ := derivedFrom_spec (hbase c) x
    obtain ⟨r', ⟨n', hn'⟩, hr'⟩ := ih
    refine ⟨r || r', .succ (n := n + n') ?_, ?_⟩
    · intro k hk
      have htest : m.derivedFrom k (some c) x = some r := hn k (by omega)
      rw [Memory.isKindOf, htest, hd]
      cases r with
      | true => rfl
      | false => exact hn' k (by omega)
    · rw [Bool.or_eq_true, hr, hr', Finds, Finds, found_iff (c := c), hd]
      simp only [Option.some.injEq, exists_eq_left']

end Kinds

/-! ### One construction -/

section Declared

variable {ds : List (Construction α)} {d : Construction α} {c b x : α}

namespace Construction

lemma baseClass_mem (h : d.baseClass = some b) : b ∈ d.bases := by
  cases d with
  | object => cases h
  | derived this base extras =>
    obtain rfl : base = b := Option.some.inj h
    exact List.mem_cons_self

lemma extras_mem (h : c ∈ d.extras) : c ∈ d.bases := by
  cases d with
  | object => cases h
  | derived this base extras => exact List.mem_cons_of_mem base h

lemma firstLink_mem (h : d.firstLink = some c) : c ∈ d.extras := by
  rw [firstLink] at h
  split at h
  · exact List.mem_of_mem_head? h
  · cases h

end Construction

lemma Primary.declares (h : Primary ds c b) : Declares ds c b := by
  obtain ⟨d, hd, hthis, hbase⟩ := h
  exact ⟨d, hd, hthis, Construction.baseClass_mem hbase⟩

lemma Declares.constructed (h : Declares ds c b) : Constructed ds c := by
  obtain ⟨d, hd, hthis, -⟩ := h
  exact ⟨d, hd, hthis⟩

lemma PrimaryReaches.reaches (h : PrimaryReaches ds c x) : Reaches ds c x :=
  ReflTransGen.mono (fun _ _ hprimary => hprimary.declares) _ _ h

lemma primaryReaches_of_extras (hds : ∀ d ∈ ds, d.extras = [])
    (h : Reaches ds c x) : PrimaryReaches ds c x := by
  refine ReflTransGen.mono ?_ _ _ h
  rintro c b ⟨d, hd, hthis, hb⟩
  refine ⟨d, hd, hthis, ?_⟩
  have hextras := hds d hd
  cases d with
  | object this => cases hb
  | derived this base extras =>
    rcases List.mem_cons.1 hb with rfl | hmem
    · rfl
    · rw [Construction.extras] at hextras
      rw [hextras] at hmem
      cases hmem

lemma reaches_mem (l : List α)
    (hl : ∀ d ∈ ds, d.this ∈ l → ∀ b ∈ d.bases, b ∈ l) (hc : c ∈ l) (h : Reaches ds c x) : x ∈ l := by
  induction h with
  | refl => exact hc
  | tail _ hstep ih =>
    obtain ⟨d, hd, hthis, hb⟩ := hstep
    exact hl d hd (hthis ▸ ih) _ hb

lemma constructed_snoc : Constructed (ds ++ [d]) c ↔ Constructed ds c ∨ c = d.this := by
  simp only [Constructed, List.mem_append, List.mem_singleton, or_and_right, exists_or, exists_eq_left, eq_comm (a := c)]

lemma declares_snoc : Declares (ds ++ [d]) c b ↔ Declares ds c b ∨ c = d.this ∧ b ∈ d.bases := by
  simp only [Declares, List.mem_append, List.mem_singleton, or_and_right, exists_or, exists_eq_left, eq_comm (a := c)]

lemma primary_snoc : Primary (ds ++ [d]) c b ↔ Primary ds c b ∨ c = d.this ∧ d.baseClass = some b := by
  simp only [Primary, List.mem_append, List.mem_singleton, or_and_right, exists_or, exists_eq_left, eq_comm (a := c)]

lemma Inv.declares_ne {m : Memory α} (h : Inv m ds) (hd : Allowed ds d) :
    ∀ c b, Declares ds c b → c ≠ d.this ∧ b ≠ d.this := by
  intro c b hdecl
  exact ⟨fun heq => hd.1 (heq ▸ hdecl.constructed), fun heq => hd.1 (heq ▸ h.bases c b hdecl)⟩

end Declared

section Construct

variable [DecidableEq α] {m : Memory α} {ds : List (Construction α)} {d : Construction α} {l : List α} {c x : α}

lemma update_base (m : Memory α) (a : α) (e : Class α) (c : α) :
    (Function.update m a e c).base = if c = a then e.base else (m c).base := by
  by_cases ha : c = a
  · rw [ha, Function.update_self, if_pos rfl]
  · rw [Function.update_of_ne ha, if_neg ha]

lemma update_baseNext (m : Memory α) (a : α) (e : Class α) (c : α) :
    (Function.update m a e c).baseNext = if c = a then e.baseNext else (m c).baseNext := by
  by_cases ha : c = a
  · rw [ha, Function.update_self, if_pos rfl]
  · rw [Function.update_of_ne ha, if_neg ha]

lemma setBaseNext_base (m : Memory α) (a : α) (next : Option α) (c : α) :
    (m.setBaseNext a next c).base = (m c).base := by
  rw [Memory.setBaseNext, update_base]
  split
  · rename_i ha
    rw [ha]
  · rfl

lemma link_base : (m.link l c).base = (m c).base := by
  induction l generalizing m with
  | nil => rfl
  | cons a rest ih =>
    cases rest with
    | nil => exact setBaseNext_base m a none c
    | cons b rest => exact ih.trans (setBaseNext_base m a (some b) c)

/-- The links that the additional bases have with one another. -/
lemma link_baseNext : (m.link l c).baseNext = if c ∈ l then follower l c else (m c).baseNext := by
  induction l generalizing m with
  | nil => rfl
  | cons a rest ih =>
    have hstep : (m.link (a :: rest) c).baseNext =
        if c ∈ rest then follower rest c else if c = a then rest.head? else (m c).baseNext := by
      cases rest with
      | nil => exact update_baseNext m a _ c
      | cons b rest => rw [Memory.link, ih, Memory.setBaseNext, update_baseNext, List.head?_cons]
    rw [hstep, follower]
    by_cases hc : c ∈ rest
    · rw [if_pos hc, if_pos hc, if_pos (List.mem_cons_of_mem a hc)]
    · rw [if_neg hc, if_neg hc]
      by_cases ha : c = a
      · rw [if_pos ha, if_pos ha, if_pos (ha ▸ List.mem_cons_self)]
      · rw [if_neg ha, if_neg]
        exact fun hmem => (List.mem_cons.1 hmem).elim ha hc

lemma construct_base : (m.construct d c).base = if c = d.this then d.baseClass else (m c).base := by
  cases d with
  | object this => exact update_base m this _ c
  | derived this base extras =>
    rw [Memory.construct]
    split
    · exact link_base.trans (update_base m this _ c)
    · exact link_base.trans (update_base m this _ c)

/-- Only the constructor with nine additional bases leaves the `base_next_` of the new class as it is. -/
lemma construct_baseNext (hfresh : 8 < d.extras.length → (m d.this).baseNext = none) : (m.construct d c).baseNext =
    if c ∈ d.extras then follower d.extras c else if c = d.this then d.firstLink else (m c).baseNext := by
  cases d with
  | object this => exact update_baseNext m this _ c
  | derived this base extras =>
    rw [Memory.construct, Construction.firstLink]
    by_cases hlen : extras.length ≤ 8
    · have hlen' : (Construction.derived this base extras).extras.length ≤ 8 := hlen
      rw [if_pos hlen, if_pos hlen', Memory.derived, link_baseNext, update_baseNext]
      rfl
    · have hlen' : ¬ (Construction.derived this base extras).extras.length ≤ 8 := hlen
      have hfresh' : (m this).baseNext = none := hfresh (not_le.1 hlen')
      rw [if_neg hlen, if_neg hlen', Memory.derived9, link_baseNext, update_baseNext, hfresh']
      rfl

/-- **The links of additional bases end** also where some are linked in more than one list: the additional bases are
linked in the order of their list, and what is linked to one of them or to the new class is linked to an end. -/
lemma construct_baseNext_ends (hself : d.this ∉ d.extras) (hfresh : 8 < d.extras.length → (m d.this).baseNext = none)
    (h : ∀ c, Ends (fun c => (m c).baseNext) c) (c : α) : Ends (fun c => (m.construct d c).baseNext) c := by
  have hends : ∀ c ∈ d.extras, Ends (fun c => (m.construct d c).baseNext) c := by
    refine ends_of_follower ?_
    intro c hc
    exact (construct_baseNext hfresh).trans (if_pos hc)
  refine (h c).overwrite (l := d.this :: d.extras) ?_ ?_
  · intro c hc
    rw [List.mem_cons, not_or] at hc
    exact (construct_baseNext hfresh).trans ((if_neg hc.2).trans (if_neg hc.1))
  · intro c hc
    rcases List.mem_cons.1 hc with rfl | hc
    · have hthis : (m.construct d d.this).baseNext = d.firstLink := by
        rw [construct_baseNext hfresh, if_neg hself, if_pos rfl]
      cases hfirst : d.firstLink with
      | none => exact .last (hthis.trans hfirst)
      | some e => exact .link (hthis.trans hfirst) (hends e (Construction.firstLink_mem hfirst))
    · exact hends c hc

lemma Inv.construct_baseNext (h : Inv m ds) (hd : Allowed ds d) (c : α) : (m.construct d c).baseNext =
    if c ∈ d.extras then follower d.extras c else if c = d.this then d.firstLink else (m c).baseNext := by
  refine Class.construct_baseNext fun _ => ?_
  rw [h.fresh d.this hd.1]

lemma Inv.construct_base_ends (h : Inv m ds) (hd : Allowed ds d) (c : α) :
    Ends (fun c => (m.construct d c).base) c := by
  have hold : ∀ c, Constructed ds c → (m.construct d c).base = (m c).base := by
    intro c hc
    have hne : c ≠ d.this := fun heq => hd.1 (heq ▸ hc)
    rw [construct_base, if_neg hne]
  have hends : ∀ c, Constructed ds c → Ends (fun c => (m.construct d c).base) c := by
    intro c hc
    refine (h.base_ends c).congr (N := Constructed ds) ?_ hold hc
    intro c b _ hb
    exact h.bases c b ((h.base_iff c b).1 hb).declares
  refine (h.base_ends c).overwrite (l := [d.this]) ?_ ?_
  · intro c hc
    exact construct_base.trans (if_neg (fun heq => hc (List.mem_singleton.2 heq)))
  · intro c hc
    obtain rfl := List.mem_singleton.1 hc
    have hthis : (m.construct d d.this).base = d.baseClass := by rw [construct_base, if_pos rfl]
    cases hbase : d.baseClass with
    | none => exact .last (hthis.trans hbase)
    | some b => exact .link (hthis.trans hbase) (hends b (hd.2.1 b (Construction.baseClass_mem hbase)))

lemma Inv.construct_baseNext_ends (h : Inv m ds) (hd : Allowed ds d) (c : α) :
    Ends (fun c => (m.construct d c).baseNext) c := by
  refine Class.construct_baseNext_ends (fun hmem => hd.1 (hd.2.1 _ (Construction.extras_mem hmem))) (fun _ => ?_)
    h.baseNext_ends c
  rw [h.fresh d.this hd.1]

lemma Inv.construct (h : Inv m ds) (hd : Allowed ds d) : Inv (m.construct d) (ds ++ [d]) := by
  have hextra : ∀ c ∈ d.extras, Constructed ds c := fun c hc => hd.2.1 c (Construction.extras_mem hc)
  refine ⟨?_, ?_, ?_, ?_, h.construct_base_ends hd, h.construct_baseNext_ends hd⟩
  · intro c hc
    rw [constructed_snoc, not_or] at hc
    have hbase : (m.construct d c).base = none := by rw [construct_base, if_neg hc.2, h.fresh c hc.1]
    have hnext : (m.construct d c).baseNext = none := by
      rw [h.construct_baseNext hd, if_neg (fun hmem => hc.1 (hextra c hmem)), if_neg hc.2, h.fresh c hc.1]
    exact Class.ext hbase hnext
  · intro c b
    rw [construct_base, primary_snoc]
    by_cases hc : c = d.this
    · rw [if_pos hc]
      refine ⟨fun hb => .inr ⟨hc, hb⟩, ?_⟩
      rintro (hprimary | ⟨-, hb⟩)
      · exact absurd hc (h.declares_ne hd c b hprimary.declares).1
      · exact hb
    · rw [if_neg hc, h.base_iff]
      refine ⟨.inl, ?_⟩
      rintro (hprimary | ⟨heq, -⟩)
      · exact hprimary
      · exact absurd heq hc
  · intro c b hdecl
    rw [declares_snoc] at hdecl
    rw [constructed_snoc]
    rcases hdecl with hdecl | ⟨-, hb⟩
    · exact .inl (h.bases c b hdecl)
    · exact .inl (hd.2.1 b hb)
  · intro c e hnext
    rw [h.construct_baseNext hd] at hnext
    rw [constructed_snoc]
    split at hnext
    · exact .inl (hextra e (follower_mem hnext))
    · split at hnext
      · exact .inl (hextra e (Construction.firstLink_mem hnext))
      · exact .inl (h.baseNext c e hnext)

end Construct

/-! ### The answers -/

section Answers

variable {m : Memory α} {ds : List (Construction α)} {d : Construction α} {c x : α}

/-- The answers for the class follow from those for the class that its `base_next_` names. -/
def LocallyRight (m : Memory α) (ds : List (Construction α)) (c : α) : Prop :=
  ∀ x, Reaches ds c x ↔ PrimaryReaches ds c x ∨ ∃ e, (m c).baseNext = some e ∧ Reaches ds e x

lemma Inv.reaches_constructed (h : Inv m ds) (hc : Constructed ds c) (hx : Reaches ds c x) : Constructed ds x := by
  induction hx with
  | refl => exact hc
  | tail _ hstep _ => exact h.bases _ _ hstep

lemma Inv.along_base (h : Inv m ds) : Along (fun c => (m c).base) c x ↔ PrimaryReaches ds c x := by
  have heq : (fun c b => (m c).base = some b) = Primary ds := by
    funext c b
    exact propext (h.base_iff c b)
  rw [Along, heq, PrimaryReaches]

/-- **The answers are right** if and only if they are locally right. -/
lemma Inv.matches_iff [DecidableEq α] (h : Inv m ds) :
    Matches m ds ↔ ∀ c, Constructed ds c → LocallyRight m ds c := by
  have hfinds : ∀ c x, Finds m c x ↔ PrimaryReaches ds c x ∨ ∃ e, (m c).baseNext = some e ∧ Finds m e x := by
    intro c x
    exact found_iff.trans (or_congr h.along_base Iff.rfl)
  have hclosed : ∀ c e, Constructed ds c → (m c).baseNext = some e → Constructed ds e :=
    fun c e _ he => h.baseNext c e he
  -- What is found from a constructed class has been constructed.
  have hfound : ∀ c x, Constructed ds c → Finds m c x → Constructed ds x := by
    rintro c x hc ⟨e, hce, hex⟩
    refine h.reaches_constructed ?_ (h.along_base.1 hex).reaches
    induction hce with
    | refl => exact hc
    | tail _ hstep _ => exact h.baseNext _ _ hstep
  constructor
  · intro hmatch
    have hright : ∀ c x, Constructed ds c → (Finds m c x ↔ Reaches ds c x) := by
      intro c x hc
      have hiff : Constructed ds x → (Finds m c x ↔ Reaches ds c x) := by
        intro hx
        obtain ⟨r, hr, hreach⟩ := hmatch c x hc hx
        obtain ⟨r', hr', hk'⟩ := isKindOf_spec h.base_ends (h.baseNext_ends c) x
        rw [← hreach, ← hk', hr.unique hr']
      exact ⟨fun hk => (hiff (hfound c x hc hk)).1 hk, fun hr => (hiff (h.reaches_constructed hc hr)).2 hr⟩
    intro c hc x
    rw [← hright c x hc, hfinds]
    refine or_congr Iff.rfl (exists_congr ?_)
    intro e
    exact and_congr_right fun he => hright e x (h.baseNext c e he)
  · intro hlocal c x hc _
    obtain ⟨r, hr, hk⟩ := isKindOf_spec h.base_ends (h.baseNext_ends c) x
    refine ⟨r, hr, hk.trans ?_⟩
    refine found_unique (N := Constructed ds) (P := fun c => Reaches ds c x) hclosed ?_ (h.baseNext_ends c) hc
    intro c hc
    exact (hlocal c hc x).trans (or_congr h.along_base.symm Iff.rfl)

lemma Inv.reaches_old (h : Inv m ds) (hd : Allowed ds d) (hc : Constructed ds c) :
    Reaches (ds ++ [d]) c x ↔ Reaches ds c x :=
  reach_old (fun _ _ => declares_snoc) (fun c b hdecl => (h.declares_ne hd c b hdecl).2) fun heq => hd.1 (heq ▸ hc)

lemma Inv.reaches_new (h : Inv m ds) (hd : Allowed ds d) :
    Reaches (ds ++ [d]) d.this x ↔ x = d.this ∨ ∃ b ∈ d.bases, Reaches ds b x :=
  reach_new (fun _ _ => declares_snoc) (h.declares_ne hd) fun b hb heq => hd.1 (heq ▸ hd.2.1 b hb)

lemma Inv.primaryReaches_old (h : Inv m ds) (hd : Allowed ds d) (hc : Constructed ds c) :
    PrimaryReaches (ds ++ [d]) c x ↔ PrimaryReaches ds c x :=
  reach_old (fun _ _ => primary_snoc) (fun c b hprimary => (h.declares_ne hd c b hprimary.declares).2)
    fun heq => hd.1 (heq ▸ hc)

lemma Inv.primaryReaches_new (h : Inv m ds) (hd : Allowed ds d) :
    PrimaryReaches (ds ++ [d]) d.this x ↔ x = d.this ∨ ∃ p, d.baseClass = some p ∧ PrimaryReaches ds p x :=
  reach_new (fun _ _ => primary_snoc) (fun c b hprimary => h.declares_ne hd c b hprimary.declares)
    fun _ hb heq => hd.1 (heq ▸ hd.2.1 _ (Construction.baseClass_mem hb))

variable [DecidableEq α]

lemma Inv.locallyRight_old (h : Inv m ds) (hd : Allowed ds d) (hc : Constructed ds c) (hextra : c ∉ d.extras) :
    LocallyRight (m.construct d) (ds ++ [d]) c ↔ LocallyRight m ds c := by
  have hne : c ≠ d.this := fun heq => hd.1 (heq ▸ hc)
  refine forall_congr' fun x => ?_
  rw [h.construct_baseNext hd, if_neg hextra, if_neg hne, h.reaches_old hd hc, h.primaryReaches_old hd hc]
  refine iff_congr Iff.rfl (or_congr Iff.rfl (exists_congr fun e => ?_))
  exact and_congr_right fun he => h.reaches_old hd (h.baseNext c e he)

lemma Inv.locallyRight_extra (h : Inv m ds) (hd : Allowed ds d) (hc : c ∈ d.extras) :
    LocallyRight (m.construct d) (ds ++ [d]) c ↔ (∀ e, follower d.extras c = some e → Reaches ds c e) ∧
      ∀ x, Reaches ds c x → PrimaryReaches ds c x ∨ ∃ e, follower d.extras c = some e ∧ Reaches ds e x := by
  have hcon : ∀ e ∈ d.extras, Constructed ds e := fun e he => hd.2.1 e (Construction.extras_mem he)
  have hnew : LocallyRight (m.construct d) (ds ++ [d]) c ↔
      ∀ x, Reaches ds c x ↔ PrimaryReaches ds c x ∨ ∃ e, follower d.extras c = some e ∧ Reaches ds e x := by
    refine forall_congr' fun x => ?_
    rw [h.construct_baseNext hd, if_pos hc, h.reaches_old hd (hcon c hc), h.primaryReaches_old hd (hcon c hc)]
    refine iff_congr Iff.rfl (or_congr Iff.rfl (exists_congr fun e => ?_))
    exact and_congr_right fun he => h.reaches_old hd (hcon e (follower_mem he))
  rw [hnew]
  constructor
  · intro hright
    exact ⟨fun e he => (hright e).2 (.inr ⟨e, he, .refl⟩), fun x hx => (hright x).1 hx⟩
  · rintro ⟨hfollows, hcovers⟩ x
    refine ⟨hcovers x, ?_⟩
    rintro (hprimary | ⟨e, he, hex⟩)
    · exact hprimary.reaches
    · exact (hfollows e he).trans hex

lemma Inv.locallyRight_new (h : Inv m ds) (hd : Allowed ds d) :
    LocallyRight (m.construct d) (ds ++ [d]) d.this ↔ ∀ b ∈ d.bases, ∀ x, Reaches ds b x →
      (∃ p, d.baseClass = some p ∧ PrimaryReaches ds p x) ∨ ∃ e, d.firstLink = some e ∧ Reaches ds e x := by
  have hcon : ∀ b ∈ d.bases, Constructed ds b := hd.2.1
  have hout : d.this ∉ d.extras := fun hmem => hd.1 (hcon _ (Construction.extras_mem hmem))
  have hnew : LocallyRight (m.construct d) (ds ++ [d]) d.this ↔ ∀ x, (x = d.this ∨ ∃ b ∈ d.bases, Reaches ds b x) ↔
      (x = d.this ∨ ∃ p, d.baseClass = some p ∧ PrimaryReaches ds p x) ∨ ∃ e, d.firstLink = some e ∧ Reaches ds e x := by
    refine forall_congr' fun x => ?_
    rw [h.construct_baseNext hd, if_neg hout, if_pos rfl, h.reaches_new hd, h.primaryReaches_new hd]
    refine iff_congr Iff.rfl (or_congr Iff.rfl (exists_congr fun e => ?_))
    exact and_congr_right fun he => h.reaches_old hd (hcon e (Construction.extras_mem (Construction.firstLink_mem he)))
  rw [hnew]
  constructor
  · intro hright b hb x hx
    have hne : x ≠ d.this := fun heq => hd.1 (heq ▸ h.reaches_constructed (hcon b hb) hx)
    rcases (hright x).1 (.inr ⟨b, hb, hx⟩) with (heq | hprimary) | hfirst
    · exact absurd heq hne
    · exact .inl hprimary
    · exact .inr hfirst
  · intro hinherits x
    constructor
    · rintro (heq | ⟨b, hb, hx⟩)
      · exact .inl (.inl heq)
      · rcases hinherits b hb x hx with hprimary | hfirst
        · exact .inl (.inr hprimary)
        · exact .inr hfirst
    · rintro ((heq | ⟨p, hp, hx⟩) | ⟨e, he, hx⟩)
      · exact .inl heq
      · exact .inr ⟨p, Construction.baseClass_mem hp, hx.reaches⟩
      · exact .inr ⟨e, Construction.extras_mem (Construction.firstLink_mem he), hx⟩

/-- **One construction**: where the answers are right, they stay so if and only if the construction fits. -/
theorem construct_iff (h : Inv m ds) (hd : Allowed ds d) (hmatch : Matches m ds) :
    Matches (m.construct d) (ds ++ [d]) ↔ Fits ds d := by
  have hcon : ∀ c ∈ d.extras, Constructed ds c := fun c hc => hd.2.1 c (Construction.extras_mem hc)
  rw [(h.construct hd).matches_iff]
  constructor
  · intro hlocal
    have hextra : ∀ c ∈ d.extras, LocallyRight (m.construct d) (ds ++ [d]) c :=
      fun c hc => hlocal c (constructed_snoc.2 (.inl (hcon c hc)))
    exact ⟨(h.locallyRight_new hd).1 (hlocal d.this (constructed_snoc.2 (.inr rfl))),
      fun c hc => ((h.locallyRight_extra hd hc).1 (hextra c hc)).1,
      fun c hc => ((h.locallyRight_extra hd hc).1 (hextra c hc)).2⟩
  · intro hfits c hc
    rcases constructed_snoc.1 hc with hc | rfl
    · by_cases hmem : c ∈ d.extras
      · exact (h.locallyRight_extra hd hmem).2 ⟨hfits.follows c hmem, hfits.covers c hmem⟩
      · exact (h.locallyRight_old hd hc hmem).2 (h.matches_iff.1 hmatch c hc)
    · exact (h.locallyRight_new hd).2 hfits.inherits

end Answers

/-! ### Runs -/

section Runs

variable [DecidableEq α]

/-- A construction. -/
def Step : Memory α × List (Construction α) → Construction α → Memory α × List (Construction α) → Prop :=
  fun s d s' => Allowed s.2 d ∧ s'.1 = s.1.construct d ∧ s'.2 = s.2 ++ [d]

/-- A construction that fits. -/
def FitStep : Memory α × List (Construction α) → Construction α → Memory α × List (Construction α) → Prop :=
  fun s d s' => Fits s.2 d ∧ Step s d s'

/-- **Along a run of constructions that fit** `IsKindOf` answers what has been declared; and after the next construction
it does so if and only if that one fits. -/
theorem isKindOf_matches {as : List (Construction α)} {m : Memory α} {ds : List (Construction α)}
    (hrun : Run FitStep (Memory.zero, []) as (m, ds)) :
    Matches m ds ∧ ∀ d, Allowed ds d → (Matches (m.construct d) (ds ++ [d]) ↔ Fits ds d) := by
  have hinv : Inv m ds ∧ Matches m ds := by
    refine hrun.inv (P := fun _ s => Inv s.1 s.2 ∧ Matches s.1 s.2) ?_ ?_
    · refine ⟨⟨fun c _ => rfl, fun c b => ?_, ?_, ?_, fun c => .last rfl, fun c => .last rfl⟩, ?_⟩
      · exact iff_of_false (by rintro ⟨⟩) (by rintro ⟨d, hd, -⟩; cases hd)
      · rintro c b ⟨d, hd, -⟩
        cases hd
      · intro c d hd
        cases hd
      · rintro c x ⟨d, hd, -⟩
        cases hd
    · rintro - ⟨m, ds⟩ d ⟨m', ds'⟩ ⟨hinv, hmatch⟩ ⟨hfits, hd, rfl, rfl⟩
      exact ⟨hinv.construct hd, (construct_iff hinv hd hmatch).2 hfits⟩
  exact ⟨hinv.2, fun d hd => construct_iff hinv.1 hd hinv.2⟩

lemma Step.run {as ds : List (Construction α)} {m : Memory α} (h : Run Step (Memory.zero, []) as (m, ds))
    (d : Construction α) (hd : Allowed ds d) : Run Step (Memory.zero, []) (as ++ [d]) (m.construct d, ds ++ [d]) :=
  h.snoc ⟨hd, rfl, rfl⟩

lemma FitStep.run {as ds : List (Construction α)} {m : Memory α} (h : Run FitStep (Memory.zero, []) as (m, ds))
    {d : Construction α} (hfits : Fits ds d) (hd : Allowed ds d) :
    Run FitStep (Memory.zero, []) (as ++ [d]) (m.construct d, ds ++ [d]) :=
  h.snoc ⟨hfits, hd, rfl, rfl⟩

/-- A class with an interface as its additional base. -/
theorem isKindOf_matches_interface : ∃ m ds, Run FitStep (Memory.zero, [])
      [.object 0, .derived 1 0 [], .derived 2 0 [1]] (m, ds) ∧
    Matches m ds ∧ ∀ d, Allowed ds d → (Matches (m.construct d) (ds ++ [d]) ↔ Fits ds d) := by
  have hobject : Fits (α := ℕ) [] (.object 0) := ⟨by rintro b ⟨⟩, by rintro c ⟨⟩, by rintro c ⟨⟩⟩
  have hsingle : Fits (α := ℕ) [.object 0] (.derived 1 0 []) := by
    refine ⟨?_, by rintro c ⟨⟩, by rintro c ⟨⟩⟩
    intro b hb x hx
    rw [List.mem_singleton.1 hb] at hx
    exact .inl ⟨0, rfl, primaryReaches_of_extras (by decide) hx⟩
  have hdouble : Fits (α := ℕ) [.object 0, .derived 1 0 []] (.derived 2 0 [1]) := by
    refine ⟨?_, ?_, ?_⟩
    · intro b hb x hx
      rcases List.mem_cons.1 hb with rfl | hb
      · exact .inl ⟨0, rfl, primaryReaches_of_extras (by decide) hx⟩
      · exact .inr ⟨1, rfl, List.mem_singleton.1 hb ▸ hx⟩
    · intro c hc e he
      obtain rfl := List.mem_singleton.1 hc
      cases he
    · intro c _ x hx
      exact .inl (primaryReaches_of_extras (by decide) hx)
  have hrun := FitStep.run (FitStep.run .nil hobject (by decide)) hsingle (by decide)
  have hrun := FitStep.run hrun hdouble (by decide)
  exact ⟨_, _, hrun, isKindOf_matches hrun⟩

/-- With two additional bases the first is taken for a class that is derived from the second. -/
theorem interfaces_linked : ∃ m ds, Run Step (Memory.zero, [])
      [.object 0, .derived 1 0 [], .derived 2 0 [], .derived 3 0 [1, 2]] (m, ds) ∧ ¬ Matches m ds := by
  have hrun := Step.run (Step.run .nil (.object 0) (by decide)) (.derived 1 0 []) (by decide)
  have hrun := Step.run (Step.run hrun (.derived 2 0 []) (by decide)) (.derived 3 0 [1, 2]) (by decide)
  refine ⟨_, _, hrun, ?_⟩
  intro hmatch
  obtain ⟨r, ⟨n, hn⟩, hr⟩ := hmatch 1 2 (by decide) (by decide)
  have htrue : some true = some r := hn (n + 5) (by omega)
  have hreach := hr.1 (Option.some.inj htrue).symm
  exact absurd (reaches_mem [0, 1] (by decide) (by decide) hreach) (by decide)

end Runs

end Class

end Zutils
