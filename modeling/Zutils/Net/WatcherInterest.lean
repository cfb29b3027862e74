import Zutils.Net.WatcherRegistrations

/-!
# What epoll has been told of

epoll has one entry for a descriptor, with the kinds of all the events on it, so that `epoll_add` and `epoll_del` have to
put together what is left of it. As long as no watcher asks for a kind that another one watches for, and the kernel
takes back what it has been told, the entry is precisely what is watched for, and what epoll reports of it reaches the
event of the watcher (`told_of_registrations`).
-/

namespace Zutils.Net

open Zutils.Lib

/-! ### The base -/

namespace EventBase

variable {b b' : EventBase} {e f : ℕ} {ev : Event} {k : IoKind}

/-- The kinds of a descriptor that have an event. -/
def there (b : EventBase) (f : ℕ) : IoMask := fun k => (b.fds f k).isSome

lemma there_congr (h : b'.fds f = b.fds f) : b'.there f = b.there f := by
  unfold there
  rw [h]

/-- The events that are inserted are in the table, and epoll has been told of what is in it. -/
structure Told (b : EventBase) : Prop where
  masks : ∀ e ev, b.events e = some ev → ev.mask.any = true
  slot : ∀ e ev k, b.events e = some ev → ev.inserted = true → ev.mask k = true → b.fds ev.fd k = some e
  interest : ∀ f, b.interest f = if (b.there f).any then some (b.there f) else none

lemma told_new : EventBase.new.Told where
  masks _ _ h := by cases h
  slot _ _ _ h := by cases h
  interest _ := rfl

lemma Told.replace (h : b.Told) {o : Option Event} (hevents : b'.events = Function.update b.events e o)
    (hfds : b'.fds = b.fds) (hinterest : b'.interest = b.interest)
    (ho : ∀ ev, o = some ev → ev.mask.any = true ∧ ev.inserted = false) : b'.Told := by
  refine ⟨fun e' ev' he' => ?_, fun e' ev' k he' hins hk => ?_, fun f => ?_⟩
  · rw [hevents] at he'
    by_cases hne : e' = e
    · subst hne
      rw [Function.update_self] at he'
      exact (ho ev' he').1
    · rw [Function.update_of_ne hne] at he'
      exact h.masks e' ev' he'
  · rw [hevents] at he'
    rw [hfds]
    by_cases hne : e' = e
    · subst hne
      rw [Function.update_self] at he'
      rw [(ho ev' he').2] at hins
      cases hins
    · rw [Function.update_of_ne hne] at he'
      exact h.slot e' ev' k he' hins hk
  · rw [hinterest, there_congr (congrFun hfds f)]
    exact h.interest f

lemma Told.keeps (h : b.Told) (hkeeps : b.Keeps b') : b'.Told := by
  have hinfo : ∀ e ev', b'.events e = some ev' → ∃ ev, b.events e = some ev ∧ EventBase.info ev = EventBase.info ev' := by
    intro e ev' he
    have hmap := hkeeps.info e
    rw [he, Option.map_some] at hmap
    exact Option.map_eq_some_iff.1 hmap.symm
  refine ⟨fun e ev' he => ?_, fun e ev' k he hins hk => ?_, fun f => ?_⟩
  · obtain ⟨ev, hev, hsame⟩ := hinfo e ev' he
    simp only [EventBase.info, Prod.mk.injEq] at hsame
    rw [← hsame.2.1]
    exact h.masks e ev hev
  · obtain ⟨ev, hev, hsame⟩ := hinfo e ev' he
    simp only [EventBase.info, Prod.mk.injEq] at hsame
    obtain ⟨hfd, hmask, -, -, hins'⟩ := hsame
    rw [← hins'] at hins
    rw [← hmask] at hk
    rw [← hfd, hkeeps.fds]
    exact h.slot e ev k hev hins hk
  · rw [hkeeps.interest, there_congr (congrFun hkeeps.fds f)]
    exact h.interest f

lemma Told.interest_update (h : b.Told) {g : IoKind → Option ℕ} (hfds : b'.fds = Function.update b.fds f g)
    (hinterest : b'.interest = Function.update b.interest f
      (if IoMask.any fun k => (g k).isSome then some fun k => (g k).isSome else none)) (f' : ℕ) :
    b'.interest f' = if (b'.there f').any then some (b'.there f') else none := by
  by_cases hne : f' = f
  · subst hne
    have hthere : b'.there f' = fun k => (g k).isSome := by
      unfold there
      rw [hfds, Function.update_self]
    rw [hinterest, Function.update_self, hthere]
  · have hsame : b'.fds f' = b.fds f' := by rw [hfds, Function.update_of_ne hne]
    rw [hinterest, Function.update_of_ne hne, there_congr hsame]
    exact h.interest f'

lemma epollDel_fds_of_any (hany : ev.mask.any = true) (ok : Bool) :
    (b.epollDel ev ok).2.fds = Function.update b.fds ev.fd fun k => if ev.mask k then none else b.fds ev.fd k := by
  rw [epollDel_fds]
  congr 1
  funext k
  have hother : k.other.other = k := by cases k <;> rfl
  cases hk : ev.mask k with
  | true =>
    rw [if_pos rfl, if_neg]
    rintro ⟨hsole, -⟩
    have hnot := (IoMask.sole_eq_some.1 hsole).2
    rw [hother, hk] at hnot
    cases hnot
  | false =>
    rw [if_neg Bool.false_ne_true]
    have hsole : ev.mask.sole = some k.other := by
      obtain ⟨k', hk'⟩ := IoMask.any_iff.1 hany
      rw [IoMask.sole_eq_some, hother]
      refine ⟨?_, hk⟩
      rcases k.eq_or_other k' with rfl | rfl
      · rw [hk] at hk'
        cases hk'
      · exact hk'
    cases hthere : (b.fds ev.fd k).isSome with
    | true => rw [if_pos ⟨hsole, rfl⟩]
    | false =>
      rw [if_neg fun hboth => Bool.false_ne_true hboth.2]
      exact (Option.not_isSome_iff_eq_none.1 (ne_true_of_eq_false hthere)).symm

/-- `epoll_ctl` does what it is asked for, if the descriptor is there and not to be added. -/
lemma epollCtl_told (hsame : b'.interest = b.interest) {op : EpollOp} {m : IoMask} (hop : op ≠ .add)
    (hthere : (b.interest f).isSome = true) :
    (b'.epollCtl true op f m).2.interest = Function.update b.interest f (if op = .del then none else some m) := by
  have hnone : (b'.interest f).isNone = false := by
    rw [hsame, ← Option.not_isSome, hthere]
    rfl
  rw [epollCtl, hnone, decide_eq_false hop, ← hsame]
  rfl

lemma left_sole {g : IoKind → Option ℕ} {m : IoMask} (hk : m k = true) (hother : m k.other = false) :
    (fun k' => (if m k' then none else g k').isSome) = fun k' => decide (k' = k.other) && (g k.other).isSome := by
  have hne : k ≠ k.other := by cases k <;> simp [IoKind.other]
  funext k'
  rcases k.eq_or_other k' with rfl | rfl
  · rw [if_pos hk, decide_eq_false hne]
    rfl
  · rw [hother, if_neg Bool.false_ne_true, decide_eq_true rfl, Bool.true_and]

/-- **`epoll_del`** tells epoll what is left. -/
lemma epollDel_interest (hany : ev.mask.any = true) (hthere : (b.interest ev.fd).isSome = true) :
    (b.epollDel ev true).2.interest = Function.update b.interest ev.fd
      (if IoMask.any fun k => (if ev.mask k then none else b.fds ev.fd k).isSome then
        some fun k => (if ev.mask k then none else b.fds ev.fd k).isSome else none) := by
  obtain ⟨k₀, hk₀⟩ := IoMask.any_iff.1 hany
  rw [epollDel]
  split
  · rename_i k hsole
    obtain ⟨hk, hnot⟩ := IoMask.sole_eq_some.1 hsole
    rw [left_sole hk hnot]
    split
    · rename_i hother
      refine Eq.trans (epollCtl_told rfl (by decide) hthere) ?_
      rw [hother]
      have hany : (IoMask.any fun k' => decide (k' = k.other) && true) = true :=
        IoMask.any_iff.2 ⟨k.other, by rw [decide_eq_true rfl]; rfl⟩
      rw [if_pos hany, if_neg (by decide)]
      simp only [Bool.and_true]
    · rename_i hnone
      refine Eq.trans (epollCtl_told rfl (by decide) hthere) ?_
      rw [eq_false_of_ne_true hnone]
      have hany : ¬ (IoMask.any fun k' => decide (k' = k.other) && false) = true := fun hany => by
        obtain ⟨k', hk'⟩ := IoMask.any_iff.1 hany
        rw [Bool.and_false] at hk'
        cases hk'
      rw [if_neg hany, if_pos rfl]
  · rename_i hsole
    have hboth : ∀ k, ev.mask k = true := by
      intro k
      by_contra hk
      have hother : k.other.other = k := by cases k <;> rfl
      have hsole' : ev.mask.sole = some k.other := by
        rw [IoMask.sole_eq_some, hother]
        refine ⟨?_, eq_false_of_ne_true hk⟩
        rcases k.eq_or_other k₀ with rfl | rfl
        · exact absurd hk₀ hk
        · exact hk₀
      rw [hsole] at hsole'
      cases hsole'
    refine Eq.trans (epollCtl_told rfl (by decide) hthere) ?_
    have hany : ¬ (IoMask.any fun k => (if ev.mask k then none else b.fds ev.fd k).isSome) = true := fun hany => by
      obtain ⟨k', hk'⟩ := IoMask.any_iff.1 hany
      rw [if_pos (hboth k')] at hk'
      cases hk'
    rw [if_neg hany, if_pos rfl]

/-- **`event_del`** of an event. -/
lemma Told.eventDel (h : b.Told) (hok : b.Ok) (he : b.events e = some ev) : (b.eventDel e true).2.Told := by
  have hevents := (hok.eventDel he true).2
  have hany := h.masks e ev he
  cases hins : ev.inserted with
  | false =>
    refine h.replace hevents ?_ ?_ fun ev' hev' => Option.some.inj hev' ▸ ⟨hany, rfl⟩
    · rw [EventBase.eventDel, he]
      simp only [hins, Bool.false_eq_true, if_false]
    · rw [EventBase.eventDel, he]
      simp only [hins, Bool.false_eq_true, if_false]
  | true =>
    obtain ⟨k₀, hk₀⟩ := IoMask.any_iff.1 hany
    have hthere : (b.interest ev.fd).isSome = true := by
      have hslot : (b.there ev.fd).any = true := IoMask.any_iff.2 ⟨k₀, by rw [there, h.slot e ev k₀ he hins hk₀]; rfl⟩
      rw [h.interest, if_pos hslot]
      rfl
    have hfds : (b.eventDel e true).2.fds =
        Function.update b.fds ev.fd fun k => if ev.mask k then none else b.fds ev.fd k := by
      rw [EventBase.eventDel, he]
      simp only [hins, if_true]
      exact epollDel_fds_of_any hany true
    have hinterest : (b.eventDel e true).2.interest = Function.update b.interest ev.fd
        (if IoMask.any fun k => (if ev.mask k then none else b.fds ev.fd k).isSome then
          some fun k => (if ev.mask k then none else b.fds ev.fd k).isSome else none) := by
      rw [EventBase.eventDel, he]
      simp only [hins, if_true]
      exact epollDel_interest hany hthere
    refine ⟨fun e' ev' he' => ?_, fun e' ev' k he' hins' hk => ?_, h.interest_update hfds hinterest⟩
    · rw [hevents] at he'
      by_cases hne : e' = e
      · subst hne
        rw [Function.update_self] at he'
        rw [← Option.some.inj he']
        exact hany
      · rw [Function.update_of_ne hne] at he'
        exact h.masks e' ev' he'
    · rw [hevents] at he'
      by_cases hne : e' = e
      · subst hne
        rw [Function.update_self] at he'
        rw [← Option.some.inj he'] at hins'
        cases hins'
      rw [Function.update_of_ne hne] at he'
      have hold := h.slot e' ev' k he' hins' hk
      rw [hfds]
      by_cases hfd : ev'.fd = ev.fd
      · rw [hfd, Function.update_self, if_neg, ← hfd, hold]
        -- the other event has a kind of its own
        intro hmask
        rw [hfd, h.slot e ev k he hins hmask] at hold
        exact hne (Option.some.inj hold).symm
      · rw [Function.update_of_ne hfd, hold]

lemma epollAdd_interest {ok : Bool} (hany : ev.mask.any = true) (hadded : (b.epollAdd e ev ok).1 = true) :
    (b.epollAdd e ev ok).2.interest = Function.update b.interest ev.fd
      (if IoMask.any fun k => (if ev.mask k then some e else b.fds ev.fd k).isSome then
        some fun k => (if ev.mask k then some e else b.fds ev.fd k).isSome else none) := by
  have hctl : ∀ op m, op ≠ EpollOp.del → b.epollCtl ok op ev.fd m = (false, b) ∨
      b.epollCtl ok op ev.fd m = (true, { b with interest := Function.update b.interest ev.fd (some m) }) := by
    intro op m hop
    rw [epollCtl, if_neg hop]
    split
    · exact .inr rfl
    · exact .inl rfl
  have hunion : (fun k => (if ev.mask k then some e else b.fds ev.fd k).isSome) =
      IoMask.union (fun k => (b.fds ev.fd k).isSome) ev.mask := by
    funext k
    cases hk : ev.mask k with
    | true => rw [IoMask.union, hk, Bool.or_true]; rfl
    | false => rw [IoMask.union, hk, Bool.or_false]; rfl
  have hsome : (IoMask.union (fun k => (b.fds ev.fd k).isSome) ev.mask).any = true := by
    obtain ⟨k, hk⟩ := IoMask.any_iff.1 hany
    exact IoMask.any_iff.2 ⟨k, by rw [IoMask.union, hk, Bool.or_true]⟩
  rw [hunion, if_pos hsome]
  have hop : (if IoMask.any fun k => (b.fds ev.fd k).isSome then EpollOp.mod else .add) ≠ .del := by
    split <;> decide
  rcases hctl _ (IoMask.union (fun k => (b.fds ev.fd k).isSome) ev.mask) hop with hno | hyes
  · simp only [epollAdd, hno] at hadded
    cases hadded
  · simp only [epollAdd, hyes]
    rfl

/-- **`event_add`** of an event that is set, for kinds that nobody has. -/
lemma Told.eventAdd (h : b.Told) (he : b.events e = some ev) (hins : ev.inserted = false) (hact : ev.active = false)
    (hfree : ∀ k, ev.mask k = true → b.fds ev.fd k = none) (ok : Bool) : (b.eventAdd e ok).2.Told := by
  have hidle : (ev.inserted || ev.active) = false := by rw [hins, hact]; rfl
  rw [EventBase.eventAdd, he]
  simp only [hidle, Bool.false_eq_true, if_false]
  rcases epollAdd_cases b e ev ok with hfail | ⟨hadded, hevents, -, -, hfds⟩
  · rw [hfail]
    exact h
  rw [if_pos hadded]
  have hinterest : (b.epollAdd e ev ok).2.interest = Function.update b.interest ev.fd
      (if IoMask.any fun k => (if ev.mask k then some e else b.fds ev.fd k).isSome then
        some fun k => (if ev.mask k then some e else b.fds ev.fd k).isSome else none) :=
    epollAdd_interest (h.masks e ev he) hadded
  have hevents' : ((b.epollAdd e ev ok).2.setEvent e { ev with inserted := true }).events =
      Function.update b.events e (some { ev with inserted := true }) := by rw [setEvent, hevents]
  refine ⟨fun e' ev' he' => ?_, fun e' ev' k he' hins' hk => ?_, h.interest_update hfds hinterest⟩
  · rw [hevents'] at he'
    by_cases hne : e' = e
    · subst hne
      rw [Function.update_self] at he'
      rw [← Option.some.inj he']
      exact h.masks e' ev he
    · rw [Function.update_of_ne hne] at he'
      exact h.masks e' ev' he'
  · rw [hevents'] at he'
    show (b.epollAdd e ev ok).2.fds ev'.fd k = some e'
    rw [hfds]
    by_cases hne : e' = e
    · subst hne
      rw [Function.update_self] at he'
      rw [← Option.some.inj he'] at hk ⊢
      rw [Function.update_self, if_pos hk]
    · rw [Function.update_of_ne hne] at he'
      have hold := h.slot e' ev' k he' hins' hk
      by_cases hfd : ev'.fd = ev.fd
      · rw [hfd, Function.update_self, if_neg, ← hfd, hold]
        intro hmask
        rw [hfd, hfree k hmask] at hold
        cases hold
      · rw [Function.update_of_ne hfd, hold]

lemma Told.popActive (h : b.Told) (hok : b.Ok) (hmem : e ∈ b.activequeue) : (b.popActive e true).Told := by
  obtain ⟨ev, he, hactive⟩ := (hok.queue e).1 hmem
  rw [EventBase.popActive, he]
  dsimp only
  split
  · exact h.keeps (keeps_update { ev with active := false, ncalls := 0, pncalls := true } he rfl rfl rfl rfl)
  · exact (h.eventDel hok he).replace (e := e)
      (o := some { ev with inserted := false, active := false, ncalls := 0, pncalls := true }) rfl rfl rfl
      fun ev' hev' => Option.some.inj hev' ▸ ⟨h.masks e ev he, rfl⟩

/-- The event is active, with the kind. -/
def Pending (b : EventBase) (e : ℕ) (k : IoKind) : Prop :=
  ∃ ev, b.events e = some ev ∧ ev.active = true ∧ ev.res k = true

lemma pending_eventActive (he : b.events e = some ev) (k : IoKind) : (b.eventActive e k).Pending e k := by
  rw [EventBase.eventActive, he]
  dsimp only
  split
  · rename_i hactive
    exact ⟨_, Function.update_self .., hactive, Function.update_self ..⟩
  · exact ⟨_, Function.update_self .., rfl, decide_eq_true rfl⟩

lemma Pending.eventActive (h : b.Pending e k) (e' : ℕ) (k' : IoKind) : (b.eventActive e' k').Pending e k := by
  obtain ⟨ev, he, hactive, hres⟩ := h
  rw [EventBase.eventActive]
  split
  · exact ⟨ev, he, hactive, hres⟩
  · rename_i ev' he'
    by_cases hne : e = e'
    · subst hne
      obtain rfl : ev = ev' := Option.some.inj (he.symm.trans he')
      rw [if_pos hactive]
      refine ⟨_, Function.update_self .., hactive, ?_⟩
      show Function.update ev.res k' true k = true
      by_cases hk : k = k'
      · rw [hk, Function.update_self]
      · rw [Function.update_of_ne hk, hres]
    · split
      · exact ⟨ev, (Function.update_of_ne hne ..).trans he, hactive, hres⟩
      · exact ⟨ev, (Function.update_of_ne hne ..).trans he, hactive, hres⟩

/-- **What epoll reports** reaches the event in the table. -/
lemma Ok.pending_report (h : b.Ok) {what : IoMask} (hslot : b.fds f k = some e) (hwhat : what k = true) :
    (b.report f what).Pending e k := by
  have hsecond : ∀ {b₁ : EventBase}, b₁.Pending e k → ∀ entry, (b₁.activate entry .write).Pending e k := by
    intro b₁ hpending entry
    cases entry with
    | none => exact hpending
    | some e' => exact hpending.eventActive e' .write
  obtain ⟨ev, he, -⟩ := h.slot f k e hslot
  rw [EventBase.report]
  cases k with
  | read =>
    refine hsecond ?_ _
    rw [if_pos hwhat, hslot]
    exact pending_eventActive he .read
  | write =>
    have hentry : ∀ e, (if what .read then b.fds f .read else none) = some e → ∃ f, b.fds f .read = some e := by
      intro e he
      split at he
      · exact ⟨f, he⟩
      · cases he
    obtain ⟨hok₁, hkeeps₁⟩ := h.activate hentry
    have hslot₁ : (b.activate (if what .read then b.fds f .read else none) .read).fds f .write = some e := by
      rw [hkeeps₁.fds]
      exact hslot
    obtain ⟨ev₁, he₁, -⟩ := hok₁.slot f .write e hslot₁
    rw [if_pos hwhat, hslot]
    exact pending_eventActive he₁ .write

end EventBase

/-! ### The watchers -/

lemma WatchMode.any_mask (mode : WatchMode) : mode.mask.any = true := by cases mode <;> rfl

/-- What is asked for is watched for by no other watcher, and the kernel takes back what it has been told. -/
def WatchEvent.Alone : WatchEvent → Watchers → Prop
  | watch c fd persistent mode delegate delOk _, s => delOk = true ∧
    ∀ c' reg, c' ≠ c → s.registrationOf c' = some reg → reg.armed = true → reg.fd = fd → ∀ k, reg.mask k = true →
      (s.registrations.joined c fd persistent mode delegate).mask k = false
  | stop _ ok, _ => ok = true
  | destroy _ ok, _ => ok = true
  | processActive ok, _ => ok = true
  | _, _ => True

/-- The steps of such clients. -/
def WatchesAlone (s : Watchers) (e : WatchEvent) (s' : Watchers) : Prop := Watches s e s' ∧ e.Alone s

namespace Watchers

variable {s s' : Watchers} {c e f : ℕ} {w : FileDescriptorWatcher} {k : IoKind}

lemma Sound.registration_of_event (h : s.Sound) {ev : Event} (he : s.base.events e = some ev)
    (hins : ev.inserted = true) : ∃ w d, s.controllers ev.arg = some w ∧ w.event = some e ∧
      s.registrationOf ev.arg = some ⟨ev.fd, ev.mask, ev.persist, d, true⟩ := by
  obtain ⟨w, hc, hevent⟩ := h.owned e ev he
  obtain ⟨-, d, hd⟩ := h.owns ev.arg w e hc hevent
  exact ⟨w, d, hc, hevent, by rw [registrationOf_eq hc hevent he hd, hins]⟩

lemma Sound.free_of_alone (h : s.Sound) (hc : s.controllers c = some w) {base : EventBase} (hbase : base.Ok)
    (hevents : ∀ e ev, base.events e = some ev → ev.inserted = true → w.event ≠ some e ∧ s.base.events e = some ev)
    {fd : ℕ} {mask : IoMask} (halone : ∀ c' reg, c' ≠ c → s.registrationOf c' = some reg → reg.armed = true →
      reg.fd = fd → ∀ k, reg.mask k = true → mask k = false) (hk : mask k = true) : base.fds fd k = none := by
  by_contra hsome
  obtain ⟨e, hslot⟩ := Option.ne_none_iff_exists'.1 hsome
  obtain ⟨ev, he, hfd, hmask, hins⟩ := hbase.slot fd k e hslot
  obtain ⟨hother, hev⟩ := hevents e ev he hins
  obtain ⟨w', d, hc', hevent, hreg⟩ := h.registration_of_event hev hins
  have hne : ev.arg ≠ c := by
    intro heq
    rw [heq, hc] at hc'
    obtain rfl := Option.some.inj hc'
    exact hother hevent
  have hnot := halone ev.arg _ hne hreg rfl hfd k hmask
  rw [hk] at hnot
  cases hnot

lemma told_arm {base : EventBase} (ht : base.Told) {fd : ℕ} {mask : IoMask} (hany : mask.any = true)
    (hfree : ∀ k, mask k = true → base.fds fd k = none) (n : ℕ) (persist : Bool) (delegate : ℕ) (ok : Bool) :
    ({ s with base := base, nextEvent := n }.arm w c e (Event.set fd mask persist c) delegate ok).2.base.Told := by
  have hset : (base.setEvent e (Event.set fd mask persist c)).Told :=
    ht.replace rfl rfl rfl fun ev hev => Option.some.inj hev ▸ ⟨hany, rfl⟩
  have hadd := hset.eventAdd (e := e) (Function.update_self ..) rfl rfl hfree ok
  rw [Watchers.arm]
  dsimp only
  split
  · exact hadd
  · exact hadd.replace (o := none) rfl rfl rfl fun ev hev => by cases hev

lemma Sound.told_watch (h : s.Sound) (ht : s.base.Told) (hc : s.controllers c = some w) {fd : ℕ} {persistent : Bool}
    {mode : WatchMode} {delegate : ℕ} (halone : ∀ c' reg, c' ≠ c → s.registrationOf c' = some reg → reg.armed = true →
      reg.fd = fd → ∀ k, reg.mask k = true → (s.registrations.joined c fd persistent mode delegate).mask k = false)
    (addOk : Bool) : (s.watchFileDescriptor fd persistent mode c w delegate true addOk).2.base.Told := by
  rw [watchFileDescriptor]
  cases he : w.event with
  | none =>
    have hnone : s.registrationOf c = none := registrationOf_none fun w' hw' => by
      obtain rfl := Option.some.inj (hc.symm.trans hw')
      exact he
    refine told_arm ht mode.any_mask (fun k hk => h.free_of_alone hc h.base (fun e ev hev _ => ?_) halone ?_) _ _ _ _
    · rw [he]
      exact ⟨(Option.some_ne_none e).symm, hev⟩
    · simp only [Registrations.joined, registrations, hnone, Option.elim_none, IoMask.union, Bool.false_or]
      exact hk
  | some e =>
    obtain ⟨⟨ev, hev, -⟩, d, hd⟩ := h.owns c w e hc he
    obtain ⟨hok, hevents⟩ := h.base.eventDel hev true
    have hold : s.registrationOf c = some ⟨ev.fd, ev.mask, ev.persist, d, ev.inserted⟩ := registrationOf_eq hc he hev hd
    have hdel := ht.eventDel h.base hev
    dsimp only
    rw [hev]
    dsimp only
    split
    · exact hdel.replace (o := none) rfl rfl rfl fun ev' hev' => by cases hev'
    · have hany : (ev.mask.union mode.mask).any = true := by
        obtain ⟨k, hk⟩ := IoMask.any_iff.1 mode.any_mask
        exact IoMask.any_iff.2 ⟨k, by rw [IoMask.union, hk, Bool.or_true]⟩
      refine told_arm hdel hany (fun k hk => h.free_of_alone hc hok (fun e' ev' hev' hins => ?_) halone ?_) _ _ _ _
      · rw [hevents] at hev'
        by_cases hne : e' = e
        · subst hne
          rw [Function.update_self] at hev'
          rw [← Option.some.inj hev'] at hins
          cases hins
        · rw [Function.update_of_ne hne] at hev'
          exact ⟨fun heq => hne (Option.some.inj (he.symm.trans heq)).symm, hev'⟩
      · simp only [Registrations.joined, registrations, hold, Option.elim_some]
        exact hk

lemma Sound.told_stop (h : s.Sound) (ht : s.base.Told) (hc : s.controllers c = some w) :
    (s.stopWatchingFileDescriptor c w true).2.base.Told := by
  rw [stopWatchingFileDescriptor]
  cases he : w.event with
  | none => exact ht
  | some e =>
    obtain ⟨⟨ev, hev, -⟩, -⟩ := h.owns c w e hc he
    exact (ht.eventDel h.base hev).replace (o := none) rfl rfl rfl fun ev' hev' => by cases hev'

/-- **Every step** of clients that are alone keeps epoll told. -/
lemma Sound.told_exec (h : s.Sound) (ht : s.base.Told) {a : WatchEvent} (ha : a.exec s = some s') (halone : a.Alone s) :
    s'.base.Told := by
  cases a with
  | create =>
    obtain rfl := Option.some.inj ha
    exact ht
  | watch c fd persistent mode delegate delOk addOk =>
    obtain ⟨w, hc, rfl⟩ := Option.map_eq_some_iff.1 ha
    obtain ⟨rfl, halone⟩ := halone
    exact h.told_watch ht hc halone addOk
  | stop c ok =>
    obtain ⟨w, hc, rfl⟩ := Option.map_eq_some_iff.1 ha
    obtain rfl : ok = true := halone
    exact h.told_stop ht hc
  | destroy c ok =>
    obtain ⟨w, hc, rfl⟩ := Option.map_eq_some_iff.1 ha
    obtain rfl : ok = true := halone
    exact h.told_stop ht hc
  | report fd what =>
    obtain rfl := Option.some.inj ha
    exact ht.keeps (h.base.report fd what).2
  | processActive ok =>
    obtain ⟨e, he, rfl⟩ := Option.map_eq_some_iff.1 ha
    obtain rfl : ok = true := halone
    have hmem := List.mem_of_mem_head? he
    obtain ⟨ev, w, d, -, -, -, -, -, -, -, -, -, heq⟩ := h.processActive hmem true
    rw [heq]
    exact ht.popActive h.base hmem
  | callbackReturns =>
    simp only [WatchEvent.exec] at ha
    split at ha
    · cases ha
    · obtain rfl := Option.some.inj ha
      rw [callbackReturns]
      split
      · split
        · exact ht
        · split
          · exact ht
          · exact ht
      · exact ht

/-- **epoll has been told of what is watched for**, in any run in which no watcher asks for a kind that another one
watches for, and what it reports of it reaches the event of the watcher. -/
theorem told_of_registrations {es : List WatchEvent} (h : Run WatchesAlone new es s) :
    (∀ f k, (∃ m, s.base.interest f = some m ∧ m k = true) ↔ ∃ c reg, s.registrationOf c = some reg ∧
      reg.armed = true ∧ reg.fd = f ∧ reg.mask k = true) ∧
    ∀ c reg k what, s.registrationOf c = some reg → reg.armed = true → reg.mask k = true → what k = true →
      ∃ w e, s.controllers c = some w ∧ w.event = some e ∧ e ∈ (s.base.report reg.fd what).activequeue ∧
        (s.base.report reg.fd what).Pending e k := by
  obtain ⟨hs, ht⟩ := h.inv (P := fun _ s => s.Sound ∧ s.base.Told) ⟨sound_new, EventBase.told_new⟩
    fun _ _ _ _ hinv ha => ⟨hinv.1.exec ha.1, hinv.1.told_exec hinv.2 ha.1 ha.2⟩
  have hslot : ∀ {c reg}, s.registrationOf c = some reg → reg.armed = true → ∀ {k}, reg.mask k = true →
      ∃ w e, s.controllers c = some w ∧ w.event = some e ∧ s.base.fds reg.fd k = some e := by
    intro c reg hreg harmed k hk
    obtain ⟨w, e, ev, d, hc, he, hev, -, rfl⟩ := registrationOf_eq_some.1 hreg
    exact ⟨w, e, hc, he, ht.slot e ev k hev harmed hk⟩
  refine ⟨fun f k => ⟨?_, ?_⟩, fun c reg k what hreg harmed hk hwhat => ?_⟩
  · rintro ⟨m, hm, hk⟩
    rw [ht.interest] at hm
    split at hm
    · rw [← Option.some.inj hm] at hk
      obtain ⟨e, he⟩ := Option.isSome_iff_exists.1 hk
      obtain ⟨ev, hev, hfd, hmask, hins⟩ := hs.base.slot f k e he
      obtain ⟨w, d, -, -, hreg⟩ := hs.registration_of_event hev hins
      exact ⟨ev.arg, _, hreg, rfl, hfd, hmask⟩
    · cases hm
  · rintro ⟨c, reg, hreg, harmed, rfl, hk⟩
    obtain ⟨w, e, -, -, he⟩ := hslot hreg harmed hk
    have hthere : s.base.there reg.fd k = true := by
      rw [EventBase.there, he]
      rfl
    exact ⟨s.base.there reg.fd, by rw [ht.interest, if_pos (IoMask.any_iff.2 ⟨k, hthere⟩)], hthere⟩
  · obtain ⟨w, e, hc, he, hslot⟩ := hslot hreg harmed hk
    have hpending := hs.base.pending_report hslot hwhat
    have ⟨ev, hev, hactive, _⟩ := hpending
    exact ⟨w, e, hc, he, ((hs.base.report reg.fd what).1.queue e).2 ⟨ev, hev, hactive⟩, hpending⟩

/-- Two watchers on a descriptor, one for reading and one for writing, of which one stops. -/
theorem told_of_registrations_run : ∃ s, Run WatchesAlone new [.create, .create, .watch 0 5 true .watchRead 7 true true,
      .watch 1 5 true .watchWrite 8 true true, .stop 0 true] s ∧
    ∃ c reg, s.registrationOf c = some reg ∧ reg.armed = true ∧ reg.fd = 5 ∧ reg.mask .write = true := by
  let first : WatchEvent := .watch 0 5 true .watchRead 7 true true
  let second : WatchEvent := .watch 1 5 true .watchWrite 8 true true
  have h₁ := (Run.nil.snoc (a := WatchEvent.create) ⟨rfl, trivial⟩ : Run WatchesAlone new _ _).snoc
    (a := WatchEvent.create) ⟨rfl, trivial⟩
  have h₂ := h₁.snoc (a := first) ⟨rfl, rfl, fun c reg hne hreg => by
    obtain ⟨w, e, ev, d, hc, he, hev, hd, -⟩ := registrationOf_eq_some.1 hreg
    cases hev⟩
  have h₃ := h₂.snoc (a := second) ⟨rfl, rfl, fun c reg hne hreg _ _ k hk => by
    cases k with
    | read => rfl
    | write =>
      -- there is one event only, which is for reading
      obtain ⟨w, e, ev, d, -, -, hev, -, rfl⟩ := registrationOf_eq_some.1 hreg
      cases e with
      | zero =>
        rw [← Option.some.inj hev] at hk
        cases hk
      | succ e => cases hev⟩
  have h₄ := h₃.snoc (a := WatchEvent.stop 0 true) ⟨rfl, rfl⟩
  exact ⟨_, h₄, ((told_of_registrations h₄).1 5 .write).1 ⟨_, rfl, rfl⟩⟩

end Watchers

end Zutils.Net
