import Mathlib.Data.List.Nodup
import Zutils.Net.Watchers

/-!
# No watcher and no event is used when it is gone

Whatever clients do, in callbacks and outside, and whatever the kernel answers: the table of epoll and the queue of
active events have only events in them that have not been deleted, each event in memory is owned by one watcher, and
who has an event has a delegate (`Sound`). So nothing that is gone is used, and no event leaks (`no_dangling`).
-/

namespace Zutils.Net

open Zutils.Lib

/-! ### The base -/

namespace IoMask

lemma any_iff {m : IoMask} : m.any = true ↔ ∃ k, m k = true := by
  rw [any, Bool.or_eq_true]
  refine ⟨fun h => h.elim (⟨_, ·⟩) (⟨_, ·⟩), ?_⟩
  rintro ⟨k, hk⟩
  cases k with
  | read => exact .inl hk
  | write => exact .inr hk

lemma sole_eq_some {m : IoMask} {k : IoKind} : m.sole = some k ↔ m k = true ∧ m k.other = false := by
  cases k <;> cases hr : m .read <;> cases hw : m .write <;> simp [sole, IoKind.other, hr, hw]

end IoMask

lemma IoKind.eq_or_other (k k' : IoKind) : k' = k ∨ k' = k.other := by
  cases k <;> cases k' <;> simp [other]

namespace EventBase

variable {b b' : EventBase} {e e' f : ℕ} {ev : Event} {k : IoKind} {ok : Bool}

/-- What may be said of an event in memory. -/
structure EventOk (ev : Event) : Prop where
  active : ev.active = true → ev.inserted = true ∧ ev.res.any = true ∧ ∀ k, ev.res k = true → ev.mask k = true
  pncalls : ev.pncalls = true → ev.ncalls = 0

/-- The table and the queue have only events that are there, and are registered. -/
structure Ok (b : EventBase) : Prop where
  fault : b.fault = false
  slot : ∀ f k e, b.fds f k = some e → ∃ ev, b.events e = some ev ∧ ev.fd = f ∧ ev.mask k = true ∧ ev.inserted = true
  queue : ∀ e, e ∈ b.activequeue ↔ ∃ ev, b.events e = some ev ∧ ev.active = true
  nodup : b.activequeue.Nodup
  event : ∀ e ev, b.events e = some ev → EventOk ev

lemma ok_new : EventBase.new.Ok where
  fault := rfl
  slot _ _ _ h := by cases h
  queue e := by simp [new]
  nodup := List.nodup_nil
  event _ _ h := by cases h

/-- **One event changes**, or is made or deleted; the table and the queue change with it. -/
lemma Ok.change (h : b.Ok) {o : Option Event} (hevents : b'.events = Function.update b.events e o)
    (hfault : b'.fault = b.fault)
    (hslot : ∀ f k e', b'.fds f k = some e' → b.fds f k = some e' ∧ e' ≠ e ∨
      e' = e ∧ ∃ ev, o = some ev ∧ ev.fd = f ∧ ev.mask k = true ∧ ev.inserted = true)
    (hqueue : ∀ e', e' ∈ b'.activequeue ↔ e' ≠ e ∧ e' ∈ b.activequeue ∨ e' = e ∧ ∃ ev, o = some ev ∧ ev.active = true)
    (hnodup : b'.activequeue.Nodup) (hev : ∀ ev, o = some ev → EventOk ev) : b'.Ok := by
  refine ⟨hfault.trans h.fault, fun f k e' he' => ?_, fun e' => ?_, hnodup, fun e' ev he' => ?_⟩
  · rw [hevents]
    rcases hslot f k e' he' with ⟨hold, hne⟩ | ⟨rfl, hnew⟩
    · rw [Function.update_of_ne hne]
      exact h.slot f k e' hold
    · rwa [Function.update_self]
  · rw [hevents, hqueue]
    by_cases hne : e' = e
    · subst hne
      simp
    · rw [Function.update_of_ne hne, h.queue]
      simp [hne]
  · rw [hevents] at he'
    by_cases hne : e' = e
    · subst hne
      rw [Function.update_self] at he'
      exact hev ev he'
    · rw [Function.update_of_ne hne] at he'
      exact h.event e' ev he'

/-- `epoll_ctl` changes nothing but what the kernel knows. -/
lemma epollCtl_frame (ok : Bool) (op : EpollOp) (fd : ℕ) (m : IoMask) :
    (b.epollCtl ok op fd m).2.events = b.events ∧ (b.epollCtl ok op fd m).2.fds = b.fds ∧
      (b.epollCtl ok op fd m).2.activequeue = b.activequeue ∧ (b.epollCtl ok op fd m).2.fault = b.fault := by
  rw [epollCtl]
  split <;> exact ⟨rfl, rfl, rfl, rfl⟩

lemma epollDel_fds (ev : Event) (ok : Bool) : (b.epollDel ev ok).2.fds = Function.update b.fds ev.fd fun k =>
    if ev.mask.sole = some k.other ∧ (b.fds ev.fd k).isSome = true then b.fds ev.fd k else none := by
  have hother : ∀ k : IoKind, k.other.other = k := fun k => by cases k <;> rfl
  rw [epollDel]
  split
  · rename_i k hsole
    split
    · rename_i hthere
      rw [(epollCtl_frame ..).2.1]
      show Function.update b.fds ev.fd _ = _
      congr 1
      funext k'
      rcases k.eq_or_other k' with rfl | rfl
      · rw [Function.update_self, if_neg]
        rintro ⟨hk, -⟩
        cases k' <;> simp [IoKind.other, hsole] at hk
      · rw [Function.update_of_ne (by cases k <;> simp [IoKind.other]), hother, if_pos ⟨hsole, hthere⟩]
    · rename_i hnone
      rw [(epollCtl_frame ..).2.1]
      show Function.update b.fds ev.fd _ = _
      congr 1
      funext k'
      rw [if_neg]
      rintro ⟨hk, hthere⟩
      obtain rfl : k = k'.other := Option.some.inj (hsole.symm.trans hk)
      rw [hother] at hnone
      exact hnone hthere
  · rename_i hsole
    rw [(epollCtl_frame ..).2.1]
    show Function.update b.fds ev.fd _ = _
    congr 1
    funext k'
    rw [if_neg]
    rintro ⟨hk, -⟩
    rw [hsole] at hk
    cases hk

lemma epollDel_frame (ev : Event) (ok : Bool) : (b.epollDel ev ok).2.events = b.events ∧
    (b.epollDel ev ok).2.activequeue = b.activequeue ∧ (b.epollDel ev ok).2.fault = b.fault := by
  rw [epollDel]
  split
  · split <;> exact ⟨(epollCtl_frame ..).1, (epollCtl_frame ..).2.2⟩
  · exact ⟨(epollCtl_frame ..).1, (epollCtl_frame ..).2.2⟩

lemma Ok.epollDel_slot (h : b.Ok) (he : b.events e = some ev) {f : ℕ} {k : IoKind}
    (hslot : (b.epollDel ev ok).2.fds f k = some e') : b.fds f k = some e' ∧ e' ≠ e := by
  rw [epollDel_fds] at hslot
  have hold : b.fds f k = some e' ∧ (f = ev.fd → ev.mask.sole = some k.other) := by
    by_cases hf : f = ev.fd
    · subst hf
      rw [Function.update_self] at hslot
      split at hslot
      · rename_i hk
        exact ⟨hslot, fun _ => hk.1⟩
      · cases hslot
    · rw [Function.update_of_ne hf] at hslot
      exact ⟨hslot, fun heq => absurd heq hf⟩
  refine ⟨hold.1, ?_⟩
  rintro rfl
  -- the event does not watch for the kind that is left
  obtain ⟨ev', hev', hfd, hmask, -⟩ := h.slot f k e' hold.1
  obtain rfl : ev = ev' := Option.some.inj (he.symm.trans hev')
  have hnot := (IoMask.sole_eq_some.1 (hold.2 hfd.symm)).2
  have hother : k.other.other = k := by cases k <;> rfl
  rw [hother, hmask] at hnot
  cases hnot

/-- **`event_del`** takes an event out of the table and of the queue. -/
lemma Ok.eventDel (h : b.Ok) (he : b.events e = some ev) (ok : Bool) :
    (b.eventDel e ok).2.Ok ∧
      (b.eventDel e ok).2.events = Function.update b.events e (some { ev with inserted := false, active := false }) := by
  have hev := h.event e ev he
  have hfault : (b.fault || (ev.ncalls ≠ 0 && ev.pncalls)) = b.fault := by
    cases hp : ev.pncalls with
    | false => simp
    | true => simp [hev.pncalls hp]
  have hqueue : ∀ e', (e' ∈ if ev.active then b.activequeue.erase e else b.activequeue) ↔
      e' ≠ e ∧ e' ∈ b.activequeue := by
    intro e'
    split
    · exact h.nodup.mem_erase_iff
    · rename_i hidle
      refine (and_iff_right_of_imp fun hmem => ?_).symm
      rintro rfl
      obtain ⟨ev', hev', hactive⟩ := (h.queue e').1 hmem
      obtain rfl : ev = ev' := Option.some.inj (he.symm.trans hev')
      exact hidle hactive
  have hnodup : (if ev.active then b.activequeue.erase e else b.activequeue).Nodup := by
    split
    · exact h.nodup.erase e
    · exact h.nodup
  have hidle : EventOk { ev with inserted := false, active := false } := ⟨fun hactive => (by cases hactive), hev.pncalls⟩
  -- the base before `epoll_del`
  let b₁ : EventBase := { b with
    events := Function.update b.events e (some { ev with inserted := false, active := false })
    activequeue := if ev.active then b.activequeue.erase e else b.activequeue }
  have hb₁ : (b.eventDel e ok).2 = if ev.inserted then (b₁.epollDel ev ok).2 else b₁ := by
    rw [EventBase.eventDel, he]
    simp only [hfault]
    split <;> rfl
  rw [hb₁]
  split
  · obtain ⟨hevents, hqueue', hfault'⟩ := epollDel_frame (b := b₁) ev ok
    refine ⟨h.change hevents hfault' (fun f k e' hslot => .inl ?_) (fun e' => ?_) (hqueue' ▸ hnodup) ?_, hevents⟩
    · have hfds : (b₁.epollDel ev ok).2.fds = (b.epollDel ev ok).2.fds := by
        rw [epollDel_fds, epollDel_fds]
      rw [hfds] at hslot
      exact h.epollDel_slot he hslot
    · rw [hqueue']
      simpa using hqueue e'
    · exact fun ev' hev' => Option.some.inj hev' ▸ hidle
  · rename_i hinserted
    refine ⟨Ok.change h rfl rfl (fun f k e' hslot => .inl ⟨hslot, ?_⟩) (fun e' => ?_) hnodup ?_, rfl⟩
    · rintro rfl
      obtain ⟨ev', hev', -, -, hins⟩ := h.slot f k e' hslot
      obtain rfl : ev = ev' := Option.some.inj (he.symm.trans hev')
      exact hinserted hins
    · simpa using hqueue e'
    · exact fun ev' hev' => Option.some.inj hev' ▸ hidle

lemma Ok.replace (h : b.Ok) (hold : ∀ ev, b.events e = some ev → ev.inserted = false) {o : Option Event}
    (hnew : ∀ ev, o = some ev → ev.active = false ∧ EventOk ev) :
    { b with events := Function.update b.events e o }.Ok := by
  have hnone : e ∉ b.activequeue := by
    intro hmem
    obtain ⟨ev, he, hactive⟩ := (h.queue e).1 hmem
    have hins := ((h.event e ev he).active hactive).1
    rw [hold ev he] at hins
    cases hins
  refine h.change rfl rfl (fun f k e' hslot => .inl ⟨hslot, ?_⟩) (fun e' => ?_) h.nodup fun ev hev => (hnew ev hev).2
  · rintro rfl
    obtain ⟨ev, he, -, -, hins⟩ := h.slot f k e' hslot
    rw [hold ev he] at hins
    cases hins
  · constructor
    · intro hmem
      refine .inl ⟨?_, hmem⟩
      rintro rfl
      exact hnone hmem
    · rintro (⟨-, hmem⟩ | ⟨-, ev, hev, hactive⟩)
      · exact hmem
      · rw [(hnew ev hev).1] at hactive
        cases hactive

/-- The kernel refuses, or the event is entered in the table. -/
lemma epollAdd_cases (b : EventBase) (e : ℕ) (ev : Event) (ok : Bool) : b.epollAdd e ev ok = (false, b) ∨
    (b.epollAdd e ev ok).1 = true ∧ (b.epollAdd e ev ok).2.events = b.events ∧
      (b.epollAdd e ev ok).2.activequeue = b.activequeue ∧ (b.epollAdd e ev ok).2.fault = b.fault ∧
      (b.epollAdd e ev ok).2.fds = Function.update b.fds ev.fd fun k => if ev.mask k then some e else b.fds ev.fd k := by
  have hctl : ∀ op m, b.epollCtl ok op ev.fd m = (false, b) ∨
      ∃ i, b.epollCtl ok op ev.fd m = (true, { b with interest := i }) := by
    intro op m
    rw [epollCtl]
    split
    · exact .inr ⟨_, rfl⟩
    · exact .inl rfl
  rcases hctl (if IoMask.any fun k => (b.fds ev.fd k).isSome then .mod else .add)
    (IoMask.union (fun k => (b.fds ev.fd k).isSome) ev.mask) with hno | ⟨i, hyes⟩
  · exact .inl (by simp only [epollAdd, hno]; rfl)
  · exact .inr (by simp only [epollAdd, hyes]; exact ⟨rfl, rfl, rfl, rfl, rfl⟩)

/-- **`event_add`** of an event that is set and no more: the kernel refuses it, and nothing changes, or it is entered. -/
lemma Ok.eventAdd (h : b.Ok) (he : b.events e = some ev) (hins : ev.inserted = false) (hact : ev.active = false)
    (ok : Bool) : b.eventAdd e ok = (false, b) ∨ ((b.eventAdd e ok).1 = true ∧ (b.eventAdd e ok).2.Ok ∧
      (b.eventAdd e ok).2.events = Function.update b.events e (some { ev with inserted := true })) := by
  have hev := h.event e ev he
  have hidle : (ev.inserted || ev.active) = false := by rw [hins, hact]; rfl
  rw [EventBase.eventAdd, he]
  simp only [hidle, Bool.false_eq_true, if_false]
  rcases epollAdd_cases b e ev ok with hfail | ⟨hadded, hevents, hqueue, hfault, hfds⟩
  · exact .inl (by rw [hfail]; rfl)
  rw [if_pos hadded]
  have hevents' : ((b.epollAdd e ev ok).2.setEvent e { ev with inserted := true }).events =
      Function.update b.events e (some { ev with inserted := true }) := by rw [setEvent, hevents]
  have hfresh : ∀ f k e', b.fds f k = some e' → e' ≠ e := by
    rintro f k e' hold rfl
    obtain ⟨ev', hev', -, -, hins'⟩ := h.slot f k e' hold
    obtain rfl : ev = ev' := Option.some.inj (he.symm.trans hev')
    rw [hins] at hins'
    cases hins'
  refine .inr ⟨rfl, h.change hevents' hfault (fun f k e' hslot => ?_) (fun e' => ?_) ?_ ?_, hevents'⟩
  · have hslot' : (b.epollAdd e ev ok).2.fds f k = some e' := hslot
    rw [hfds] at hslot'
    by_cases hf : f = ev.fd
    · subst hf
      rw [Function.update_self] at hslot'
      split at hslot'
      · rename_i hk
        exact .inr ⟨(Option.some.inj hslot').symm, _, rfl, rfl, hk, rfl⟩
      · exact .inl ⟨hslot', hfresh _ _ _ hslot'⟩
    · rw [Function.update_of_ne hf] at hslot'
      exact .inl ⟨hslot', hfresh _ _ _ hslot'⟩
  · show e' ∈ (b.epollAdd e ev ok).2.activequeue ↔ _
    rw [hqueue]
    constructor
    · intro hmem
      refine .inl ⟨?_, hmem⟩
      rintro rfl
      obtain ⟨ev', hev', hactive⟩ := (h.queue e').1 hmem
      obtain rfl : ev = ev' := Option.some.inj (he.symm.trans hev')
      exact absurd (hact.symm.trans hactive) Bool.false_ne_true
    · rintro (⟨-, hmem⟩ | ⟨-, ev', hev', hactive⟩)
      · exact hmem
      · obtain rfl := Option.some.inj hev'
        exact absurd (hact.symm.trans hactive) Bool.false_ne_true
  · show (b.epollAdd e ev ok).2.activequeue.Nodup
    rw [hqueue]
    exact h.nodup
  · intro ev' hev'
    obtain rfl := Option.some.inj hev'
    exact ⟨fun hactive => absurd (hact.symm.trans hactive) Bool.false_ne_true, hev.pncalls⟩

/-- What is registered of an event. -/
def info (ev : Event) : ℕ × IoMask × Bool × ℕ × Bool := (ev.fd, ev.mask, ev.persist, ev.arg, ev.inserted)

/-- Nothing that is registered changes. -/
structure Keeps (b b' : EventBase) : Prop where
  fds : b'.fds = b.fds
  interest : b'.interest = b.interest
  info : ∀ e, (b'.events e).map EventBase.info = (b.events e).map EventBase.info

lemma Keeps.refl (b : EventBase) : b.Keeps b := ⟨rfl, rfl, fun _ => rfl⟩

lemma Keeps.trans {b'' : EventBase} (h : b.Keeps b') (h' : b'.Keeps b'') : b.Keeps b'' :=
  ⟨h'.fds.trans h.fds, h'.interest.trans h.interest, fun e => (h'.info e).trans (h.info e)⟩

lemma keeps_update (ev' : Event) (he : b.events e = some ev) (hinfo : EventBase.info ev' = EventBase.info ev)
    (hevents : b'.events = Function.update b.events e (some ev')) (hfds : b'.fds = b.fds)
    (hinterest : b'.interest = b.interest) : b.Keeps b' := by
  refine ⟨hfds, hinterest, fun e' => ?_⟩
  rw [hevents]
  by_cases hne : e' = e
  · subst hne
    rw [Function.update_self, he, Option.map_some, Option.map_some, hinfo]
  · rw [Function.update_of_ne hne]

/-- **`event_active`** of an event in the table. -/
lemma Ok.eventActive (h : b.Ok) (hslot : b.fds f k = some e) :
    (b.eventActive e k).Ok ∧ b.Keeps (b.eventActive e k) := by
  obtain ⟨ev, he, -, hmask, hins⟩ := h.slot f k e hslot
  have hev := h.event e ev he
  have hslots : ∀ {b' : EventBase} {ev' : Event}, b'.fds = b.fds → EventBase.info ev' = EventBase.info ev →
      ∀ f k e', b'.fds f k = some e' → b.fds f k = some e' ∧ e' ≠ e ∨
        e' = e ∧ ∃ ev'', some ev' = some ev'' ∧ ev''.fd = f ∧ ev''.mask k = true ∧ ev''.inserted = true := by
    intro b' ev' hfds hinfo f' k' e' hslot'
    rw [hfds] at hslot'
    by_cases hne : e' = e
    · rw [hne] at hslot'
      obtain ⟨ev'', hev'', hfd, hmask', hins'⟩ := h.slot f' k' e hslot'
      obtain rfl : ev = ev'' := Option.some.inj (he.symm.trans hev'')
      simp only [EventBase.info, Prod.mk.injEq] at hinfo
      exact .inr ⟨hne, ev', rfl, hinfo.1.trans hfd, by rw [hinfo.2.1]; exact hmask', hinfo.2.2.2.2.trans hins'⟩
    · exact .inl ⟨hslot', hne⟩
  rw [EventBase.eventActive, he]
  dsimp only
  split
  · rename_i hactive
    obtain ⟨-, hany, hres⟩ := hev.active hactive
    refine ⟨h.change rfl rfl (hslots rfl rfl) (fun e' => ?_) h.nodup fun ev' hev' => ?_,
      keeps_update { ev with res := Function.update ev.res k true } he rfl rfl rfl rfl⟩
    · show e' ∈ b.activequeue ↔ _
      have hmem : e ∈ b.activequeue := (h.queue e).2 ⟨ev, he, hactive⟩
      constructor
      · intro hmem'
        by_cases hne : e' = e
        · exact .inr ⟨hne, _, rfl, hactive⟩
        · exact .inl ⟨hne, hmem'⟩
      · rintro (⟨-, hmem'⟩ | ⟨rfl, -⟩)
        · exact hmem'
        · exact hmem
    · obtain rfl := Option.some.inj hev'
      refine ⟨fun _ => ⟨hins, IoMask.any_iff.2 ⟨k, Function.update_self ..⟩, fun k' hk' => ?_⟩, hev.pncalls⟩
      by_cases hne : k' = k
      · rw [hne]
        exact hmask
      · have hk'' : Function.update ev.res k true k' = true := hk'
        rw [Function.update_of_ne hne] at hk''
        exact hres k' hk''
  · rename_i hidle
    have hnone : e ∉ b.activequeue := by
      intro hmem
      obtain ⟨ev', hev', hactive⟩ := (h.queue e).1 hmem
      obtain rfl : ev = ev' := Option.some.inj (he.symm.trans hev')
      exact hidle hactive
    refine ⟨h.change rfl rfl (hslots rfl rfl) (fun e' => ?_) ?_ fun ev' hev' => ?_,
      keeps_update { ev with active := true, res := fun k' => k' = k, ncalls := 1, pncalls := false }
        he rfl rfl rfl rfl⟩
    · show e' ∈ b.activequeue ++ [e] ↔ _
      rw [List.mem_append, List.mem_singleton]
      constructor
      · rintro (hmem | rfl)
        · refine .inl ⟨?_, hmem⟩
          rintro rfl
          exact hnone hmem
        · exact .inr ⟨rfl, _, rfl, rfl⟩
      · rintro (⟨-, hmem⟩ | ⟨rfl, -⟩)
        · exact .inl hmem
        · exact .inr rfl
    · show (b.activequeue ++ [e]).Nodup
      exact List.nodup_append.2 ⟨h.nodup, List.nodup_singleton e, fun a ha c hc => by
        rw [List.mem_singleton.1 hc]
        rintro rfl
        exact hnone ha⟩
    · obtain rfl := Option.some.inj hev'
      refine ⟨fun _ => ⟨hins, IoMask.any_iff.2 ⟨k, decide_eq_true rfl⟩, fun k' hk' => ?_⟩, fun hp => by cases hp⟩
      rw [of_decide_eq_true hk']
      exact hmask

lemma Ok.activate (h : b.Ok) {entry : Option ℕ} (hentry : ∀ e, entry = some e → ∃ f, b.fds f k = some e) :
    (b.activate entry k).Ok ∧ b.Keeps (b.activate entry k) := by
  cases entry with
  | none => exact ⟨h, .refl b⟩
  | some e =>
    obtain ⟨f, hslot⟩ := hentry e rfl
    exact h.eventActive hslot

/-- **What is reported** makes events active that are registered. -/
lemma Ok.report (h : b.Ok) (fd : ℕ) (what : IoMask) : (b.report fd what).Ok ∧ b.Keeps (b.report fd what) := by
  have hentry : ∀ k e, (if what k then b.fds fd k else none) = some e → ∃ f, b.fds f k = some e := by
    intro k e he
    split at he
    · exact ⟨fd, he⟩
    · cases he
  obtain ⟨h₁, hkeeps₁⟩ := h.activate (hentry .read)
  have hwrite : ∀ e, (if what .write then b.fds fd .write else none) = some e →
      ∃ f, (b.activate (if what .read then b.fds fd .read else none) .read).fds f .write = some e := by
    rw [hkeeps₁.fds]
    exact hentry .write
  obtain ⟨h₂, hkeeps₂⟩ := h₁.activate hwrite
  exact ⟨h₂, hkeeps₁.trans hkeeps₂⟩

/-- **The event whose callback is next** is not active any more, and is still registered if it is persistent. -/
lemma Ok.popActive (h : b.Ok) (hmem : e ∈ b.activequeue) (ok : Bool) : ∃ ev, b.events e = some ev ∧
    ev.inserted = true ∧ ev.res.any = true ∧ (∀ k, ev.res k = true → ev.mask k = true) ∧ (b.popActive e ok).Ok ∧
    (b.popActive e ok).events = Function.update b.events e
      (some { ev with inserted := ev.persist, active := false, ncalls := 0, pncalls := true }) := by
  obtain ⟨ev, he, hactive⟩ := (h.queue e).1 hmem
  obtain ⟨hins, hany, hres⟩ := (h.event e ev he).active hactive
  refine ⟨ev, he, hins, hany, hres, ?_⟩
  have hdone : ∀ ins, EventOk { ev with inserted := ins, active := false, ncalls := 0, pncalls := true } :=
    fun ins => ⟨fun hact => (by cases hact), fun _ => rfl⟩
  rw [EventBase.popActive, he]
  dsimp only
  by_cases hpersist : ev.persist = true
  · rw [if_pos hpersist, if_pos hactive]
    have hsame : { ev with active := false, ncalls := 0, pncalls := true } =
        { ev with inserted := ev.persist, active := false, ncalls := 0, pncalls := true } := by rw [hpersist, ← hins]
    rw [hsame]
    refine ⟨h.change rfl rfl (fun f k e' hslot => ?_) (fun e' => ?_) (h.nodup.erase e) fun ev' hev' => ?_, rfl⟩
    · by_cases hne : e' = e
      · subst hne
        obtain ⟨ev', hev', hfd, hmask, -⟩ := h.slot f k e' hslot
        obtain rfl : ev = ev' := Option.some.inj (he.symm.trans hev')
        exact .inr ⟨rfl, _, rfl, hfd, hmask, hpersist⟩
      · exact .inl ⟨hslot, hne⟩
    · show e' ∈ b.activequeue.erase e ↔ _
      rw [h.nodup.mem_erase_iff]
      refine ⟨.inl, ?_⟩
      rintro (hmem' | ⟨-, ev', hev', hact⟩)
      · exact hmem'
      · obtain rfl := Option.some.inj hev'
        cases hact
    · exact Option.some.inj hev' ▸ hdone _
  · rw [if_neg hpersist]
    obtain ⟨hok, hevents⟩ := h.eventDel he ok
    have hreplace := hok.replace (e := e)
      (o := some { ev with inserted := ev.persist, active := false, ncalls := 0, pncalls := true })
      (fun ev' hev' => by
        rw [hevents, Function.update_self] at hev'
        exact Option.some.inj hev' ▸ rfl)
      (fun ev' hev' => Option.some.inj hev' ▸ ⟨rfl, hdone _⟩)
    rw [eq_false_of_ne_true hpersist] at hreplace ⊢
    refine ⟨hreplace, ?_⟩
    show Function.update (b.eventDel e ok).2.events e _ = _
    rw [hevents, Function.update_idem]

end EventBase

/-! ### The watchers -/

namespace Watchers

variable {s s' : Watchers} {c e : ℕ} {w : FileDescriptorWatcher}

/-- Each event is owned by one watcher, and who has an event has a delegate. -/
structure Sound (s : Watchers) : Prop where
  base : s.base.Ok
  freshEvent : ∀ e, s.nextEvent ≤ e → s.base.events e = none
  freshController : ∀ c, s.nextController ≤ c → s.controllers c = none
  owned : ∀ e ev, s.base.events e = some ev → ∃ w, s.controllers ev.arg = some w ∧ w.event = some e
  owns : ∀ c w e, s.controllers c = some w → w.event = some e →
    (∃ ev, s.base.events e = some ev ∧ ev.arg = c) ∧ ∃ d, w.watcher = some d

lemma sound_new : Watchers.new.Sound where
  base := EventBase.ok_new
  freshEvent _ _ := rfl
  freshController _ _ := rfl
  owned _ _ h := by cases h
  owns _ _ _ h := by cases h

lemma Sound.rebase (h : s.Sound) {base : EventBase} (hbase : base.Ok)
    (harg : ∀ e, (base.events e).map Event.arg = (s.base.events e).map Event.arg) : { s with base := base }.Sound where
  base := hbase
  freshEvent e he := by
    have hmap := harg e
    rw [h.freshEvent e he] at hmap
    exact Option.map_eq_none_iff.1 hmap
  freshController := h.freshController
  owned e ev he := by
    have hmap := harg e
    rw [show base.events e = some ev from he, Option.map_some] at hmap
    obtain ⟨ev', he', harg'⟩ := Option.map_eq_some_iff.1 hmap.symm
    rw [← harg']
    exact h.owned e ev' he'
  owns c w e hc he := by
    obtain ⟨⟨ev, hev, rfl⟩, hd⟩ := h.owns c w e hc he
    have hmap := harg e
    rw [hev, Option.map_some] at hmap
    exact ⟨Option.map_eq_some_iff.1 hmap, hd⟩

lemma Sound.keeps (h : s.Sound) {base : EventBase} (hbase : base.Ok) (hkeeps : s.base.Keeps base) :
    { s with base := base }.Sound := by
  refine h.rebase hbase fun e => ?_
  have hinfo := congrArg (Option.map fun i : ℕ × IoMask × Bool × ℕ × Bool => i.2.2.2.1) (hkeeps.info e)
  rw [Option.map_map, Option.map_map] at hinfo
  exact hinfo

lemma Sound.event_lt (h : s.Sound) {ev : Event} (he : s.base.events e = some ev) : e < s.nextEvent := by
  by_contra hle
  rw [h.freshEvent e (Nat.le_of_not_lt hle)] at he
  cases he

lemma Sound.alone (h : s.Sound) (hc : s.controllers c = some w)
    (hold : w.event = some e ∨ e = s.nextEvent ∧ w.event = none) :
    ∀ c' w', c' ≠ c → s.controllers c' = some w' → w'.event ≠ some e := by
  intro c' w' hne hc' hevent
  obtain ⟨⟨ev, hev, harg⟩, -⟩ := h.owns c' w' e hc' hevent
  rcases hold with hown | ⟨rfl, -⟩
  · obtain ⟨⟨ev₁, hev₁, harg₁⟩, -⟩ := h.owns c w e hc hown
    obtain rfl : ev = ev₁ := Option.some.inj (hev.symm.trans hev₁)
    exact hne (harg.symm.trans harg₁)
  · rw [h.freshEvent _ (Nat.le_refl _)] at hev
    cases hev

/-- **The watcher `c` changes**, with the event that it has, or has got. -/
lemma Sound.change (h : s.Sound) (hc : s.controllers c = some w)
    (hold : w.event = some e ∨ e = s.nextEvent ∧ w.event = none) {base : EventBase} (hbase : base.Ok)
    {o : Option Event} (hevents : base.events = Function.update s.base.events e o) {n : ℕ} (hn : s.nextEvent ≤ n)
    (hlt : e < n) {o' : Option FileDescriptorWatcher}
    (hnew : (o = none ∧ ∀ w', o' = some w' → w'.event = none) ∨
      ∃ ev d, o = some ev ∧ ev.arg = c ∧ o' = some ⟨some e, some d⟩) :
    { s with base := base, nextEvent := n, controllers := Function.update s.controllers c o' }.Sound := by
  have halone := h.alone hc hold
  have hclt : c < s.nextController := by
    by_contra hle
    rw [h.freshController c (Nat.le_of_not_lt hle)] at hc
    cases hc
  refine ⟨hbase, fun e' he' => ?_, fun c' hc' => ?_, fun e' ev he' => ?_, fun c' w' e' hc' he' => ?_⟩
  · show base.events e' = none
    have hne : e' ≠ e := by
      rintro rfl
      exact absurd hlt (Nat.not_lt.2 he')
    rw [hevents, Function.update_of_ne hne]
    exact h.freshEvent e' (Nat.le_trans hn he')
  · show Function.update s.controllers c o' c' = none
    have hne : c' ≠ c := by
      rintro rfl
      exact absurd hclt (Nat.not_lt.2 hc')
    rw [Function.update_of_ne hne]
    exact h.freshController c' hc'
  · show ∃ w, Function.update s.controllers c o' ev.arg = some w ∧ w.event = some e'
    have hev : base.events e' = some ev := he'
    rw [hevents] at hev
    by_cases hne : e' = e
    · subst hne
      rw [Function.update_self] at hev
      rcases hnew with ⟨ho, -⟩ | ⟨ev', d, ho, harg, ho'⟩
      · rw [ho] at hev
        cases hev
      · obtain rfl : ev' = ev := Option.some.inj (ho.symm.trans hev)
        rw [harg, Function.update_self]
        exact ⟨_, ho', rfl⟩
    · rw [Function.update_of_ne hne] at hev
      obtain ⟨w', hw', hevw⟩ := h.owned e' ev hev
      refine ⟨w', ?_, hevw⟩
      rw [Function.update_of_ne, hw']
      -- the watcher has one event only
      intro heq
      rw [heq, hc] at hw'
      obtain rfl := Option.some.inj hw'
      rcases hold with hown | ⟨-, hnone⟩
      · exact hne (Option.some.inj (hevw.symm.trans hown))
      · rw [hnone] at hevw
        cases hevw
  · have hc₁ : Function.update s.controllers c o' c' = some w' := hc'
    show (∃ ev, base.events e' = some ev ∧ ev.arg = c') ∧ _
    rw [hevents]
    by_cases hne : c' = c
    · subst hne
      rw [Function.update_self] at hc₁
      rcases hnew with ⟨-, hnone⟩ | ⟨ev', d, ho, harg, ho'⟩
      · rw [hnone w' hc₁] at he'
        cases he'
      · obtain rfl := Option.some.inj (hc₁.symm.trans ho')
        obtain rfl := Option.some.inj he'
        rw [Function.update_self]
        exact ⟨⟨ev', ho, harg⟩, d, rfl⟩
    · rw [Function.update_of_ne hne] at hc₁
      have hother : e' ≠ e := by
        rintro rfl
        exact halone c' w' hne hc₁ he'
      rw [Function.update_of_ne hother]
      exact h.owns c' w' e' hc₁ he'

/-- What has been called, and is under way, does not matter. -/
lemma Sound.call (h : s.Sound) (notifications : List Notification) (calls : List WatcherCall) :
    { s with notifications := notifications, calls := calls }.Sound :=
  ⟨h.base, h.freshEvent, h.freshController, h.owned, h.owns⟩

lemma Sound.create (h : s.Sound) : s.create.Sound := by
  have hnone := h.freshController _ (Nat.le_refl _)
  refine ⟨h.base, h.freshEvent, fun c hc => ?_, fun e ev he => ?_, fun c w e hc he => ?_⟩
  · show Function.update s.controllers s.nextController _ c = none
    have hlt : s.nextController < c := hc
    rw [Function.update_of_ne (Nat.ne_of_gt hlt)]
    exact h.freshController c (Nat.le_of_lt hlt)
  · obtain ⟨w, hw, hevent⟩ := h.owned e ev he
    refine ⟨w, ?_, hevent⟩
    show Function.update s.controllers s.nextController _ ev.arg = some w
    rw [Function.update_of_ne, hw]
    intro heq
    rw [heq, hnone] at hw
    cases hw
  · have hc₁ : Function.update s.controllers s.nextController (some ⟨none, none⟩) c = some w := hc
    by_cases hne : c = s.nextController
    · subst hne
      rw [Function.update_self] at hc₁
      obtain rfl := Option.some.inj hc₁
      cases he
    · rw [Function.update_of_ne hne] at hc₁
      exact h.owns c w e hc₁ he

/-- **An event is armed** that is not registered: the kernel refuses, and it is deleted, or it is registered. -/
lemma Sound.arm (h : s.Sound) (hc : s.controllers c = some w)
    (hold : w.event = some e ∨ e = s.nextEvent ∧ w.event = none) {base : EventBase} (hbase : base.Ok)
    (hevents : ∀ e', e' ≠ e → base.events e' = s.base.events e')
    (hidle : ∀ ev, base.events e = some ev → ev.inserted = false) {n : ℕ} (hn : s.nextEvent ≤ n) (hlt : e < n)
    (fd : ℕ) (mask : IoMask) (persist : Bool) (delegate : ℕ) (ok : Bool) {r : Bool × Watchers}
    (hr : { s with base := base, nextEvent := n }.arm w c e (Event.set fd mask persist c) delegate ok = r) :
    r.2.Sound ∧ ((r.1 = false ∧ r.2 = { s with
        base := (base.setEvent e (Event.set fd mask persist c)).free e
        nextEvent := n
        controllers := Function.update s.controllers c (some { w with event := none }) }) ∨
      (r.1 = true ∧
        r.2.base.events = Function.update s.base.events e (some { Event.set fd mask persist c with inserted := true }) ∧
        r.2 = { s with
          base := ((base.setEvent e (Event.set fd mask persist c)).eventAdd e ok).2
          nextEvent := n
          controllers := Function.update s.controllers c (some ⟨some e, some delegate⟩) })) := by
  have hset : (base.setEvent e (Event.set fd mask persist c)).Ok :=
    hbase.replace hidle fun ev hev => Option.some.inj hev ▸ ⟨rfl, fun hact => (by cases hact), fun hp => (by cases hp)⟩
  have hself : (base.setEvent e (Event.set fd mask persist c)).events e = some (Event.set fd mask persist c) :=
    Function.update_self ..
  have hother : ∀ o, Function.update (base.setEvent e (Event.set fd mask persist c)).events e o =
      Function.update s.base.events e o := by
    intro o
    funext e'
    by_cases hne : e' = e
    · subst hne
      rw [Function.update_self, Function.update_self]
    · rw [Function.update_of_ne hne, Function.update_of_ne hne, ← hevents e' hne]
      exact Function.update_of_ne hne ..
  rw [Watchers.arm] at hr
  dsimp only at hr
  rcases hset.eventAdd hself rfl rfl ok with hfail | ⟨hadded, hok, hevents'⟩
  · rw [hfail] at hr
    subst hr
    have hfree : (EventBase.free (base.setEvent e (Event.set fd mask persist c)) e).Ok :=
      hset.replace (fun ev hev => Option.some.inj (hself.symm.trans hev) ▸ rfl) fun ev hev => by cases hev
    exact ⟨h.change hc hold hfree (hother none) hn hlt (.inl ⟨rfl, fun w' hw' => Option.some.inj hw' ▸ rfl⟩),
      .inl ⟨rfl, rfl⟩⟩
  · rw [hadded, if_pos rfl] at hr
    subst hr
    exact ⟨h.change hc hold hok (hevents'.trans (hother _)) hn hlt (.inr ⟨_, delegate, rfl, rfl, rfl⟩),
      .inr ⟨rfl, hevents'.trans (hother _), rfl⟩⟩

lemma Sound.release (h : s.Sound) (hc : s.controllers c = some w) (he : w.event = some e) (ok : Bool)
    {o' : Option FileDescriptorWatcher} (ho' : ∀ w', o' = some w' → w'.event = none) :
    { s with base := (s.base.eventDel e ok).2.free e, controllers := Function.update s.controllers c o' }.Sound := by
  obtain ⟨⟨ev, hev, -⟩, -⟩ := h.owns c w e hc he
  obtain ⟨hok, hevents⟩ := h.base.eventDel hev ok
  have hlt := h.event_lt hev
  have hfree : ((s.base.eventDel e ok).2.free e).Ok :=
    hok.replace (fun ev' hev' => by
      rw [hevents, Function.update_self] at hev'
      exact Option.some.inj hev' ▸ rfl) fun ev' hev' => by cases hev'
  refine h.change hc (.inl he) hfree (o := none) ?_ (Nat.le_refl _) hlt (.inl ⟨rfl, ho'⟩)
  show Function.update (s.base.eventDel e ok).2.events e none = _
  rw [hevents, Function.update_idem]

lemma Sound.watch (h : s.Sound) (hc : s.controllers c = some w) (fd : ℕ) (persistent : Bool) (mode : WatchMode)
    (delegate : ℕ) (delOk addOk : Bool) :
    (s.watchFileDescriptor fd persistent mode c w delegate delOk addOk).2.Sound := by
  rw [watchFileDescriptor]
  cases he : w.event with
  | none =>
    dsimp only
    refine (h.arm hc (.inr ⟨rfl, he⟩) h.base (fun _ _ => rfl) (fun ev hev => ?_) (Nat.le_succ _) (Nat.lt_succ_self _)
      fd mode.mask persistent delegate addOk rfl).1
    rw [h.freshEvent _ (Nat.le_refl _)] at hev
    cases hev
  | some e =>
    obtain ⟨⟨ev, hev, -⟩, -⟩ := h.owns c w e hc he
    obtain ⟨hok, hevents⟩ := h.base.eventDel hev delOk
    have hlt := h.event_lt hev
    dsimp only
    rw [hev]
    dsimp only
    split
    · exact h.release hc he delOk fun w' hw' => Option.some.inj hw' ▸ rfl
    · refine (h.arm hc (.inl he) hok (fun e' hne => ?_) (fun ev' hev' => ?_) (Nat.le_refl _) hlt _ _ _ delegate addOk
        rfl).1
      · rw [hevents, Function.update_of_ne hne]
      · rw [hevents, Function.update_self] at hev'
        exact Option.some.inj hev' ▸ rfl

lemma Sound.stop (h : s.Sound) (hc : s.controllers c = some w) (ok : Bool) :
    (s.stopWatchingFileDescriptor c w ok).2.Sound := by
  rw [stopWatchingFileDescriptor]
  cases he : w.event with
  | none => exact h
  | some e => exact h.release hc he ok fun w' hw' => Option.some.inj hw' ▸ rfl

lemma Sound.destroy (h : s.Sound) (hc : s.controllers c = some w) (ok : Bool) : (s.destroy c w ok).Sound := by
  rw [Watchers.destroy, stopWatchingFileDescriptor]
  cases he : w.event with
  | none =>
    -- an event that is not there
    have hnone := h.freshEvent _ (Nat.le_refl _)
    have hsame : s.base.events = Function.update s.base.events s.nextEvent none := by
      rw [← hnone, Function.update_eq_self]
    have hdone := h.change hc (.inr ⟨rfl, he⟩) h.base hsame (Nat.le_succ _) (Nat.lt_succ_self _)
      (.inl ⟨rfl, fun w' (hw' : (none : Option FileDescriptorWatcher) = some w') => by cases hw'⟩)
    exact ⟨hdone.base, h.freshEvent, hdone.freshController, hdone.owned, hdone.owns⟩
  | some e =>
    have hdone := h.release hc he ok fun w' (hw' : (none : Option FileDescriptorWatcher) = some w') => by cases hw'
    simpa [setController] using hdone

/-- **A notification** is of a watcher that is there, and has a delegate. -/
lemma Sound.processActive (h : s.Sound) (hmem : e ∈ s.base.activequeue) (ok : Bool) : ∃ ev w d,
    s.base.events e = some ev ∧ s.controllers ev.arg = some w ∧ w.event = some e ∧ w.watcher = some d ∧
    ev.inserted = true ∧ ev.res.any = true ∧ (∀ k, ev.res k = true → ev.mask k = true) ∧
    { s with base := s.base.popActive e ok }.Sound ∧
    (s.base.popActive e ok).events = Function.update s.base.events e
      (some { ev with inserted := ev.persist, active := false, ncalls := 0, pncalls := true }) ∧
    s.processActive e ok = { s with base := s.base.popActive e ok }.call ev.arg d ev.fd
      (if ev.res .write then .write else .read) (ev.res .write && ev.res .read) := by
  obtain ⟨ev, he, hins, hany, hres, hok, hevents⟩ := h.base.popActive hmem ok
  obtain ⟨w, hw, hevent⟩ := h.owned e ev he
  obtain ⟨-, d, hd⟩ := h.owns ev.arg w e hw hevent
  refine ⟨ev, w, d, he, hw, hevent, hd, hins, hany, hres, h.rebase hok fun e' => ?_, hevents, ?_⟩
  · rw [hevents]
    by_cases hne : e' = e
    · subst hne
      rw [Function.update_self, he]
      rfl
    · rw [Function.update_of_ne hne]
  · rw [Watchers.processActive, he]
    simp only [onLibeventNotification, hw, hd]
    cases hwrite : ev.res .write with
    | true => simp
    | false =>
      have hread : ev.res .read = true := by simpa [IoMask.any, hwrite] using hany
      simp [hread]

/-- **Every step** keeps the watchers sound. -/
theorem Sound.exec (h : s.Sound) {a : WatchEvent} (ha : a.exec s = some s') : s'.Sound := by
  cases a with
  | create =>
    obtain rfl := Option.some.inj ha
    exact h.create
  | watch c fd persistent mode delegate delOk addOk =>
    obtain ⟨w, hc, rfl⟩ := Option.map_eq_some_iff.1 ha
    exact h.watch hc fd persistent mode delegate delOk addOk
  | stop c ok =>
    obtain ⟨w, hc, rfl⟩ := Option.map_eq_some_iff.1 ha
    exact h.stop hc ok
  | destroy c ok =>
    obtain ⟨w, hc, rfl⟩ := Option.map_eq_some_iff.1 ha
    exact h.destroy hc ok
  | report fd what =>
    obtain rfl := Option.some.inj ha
    obtain ⟨hok, hkeeps⟩ := h.base.report fd what
    exact h.keeps hok hkeeps
  | processActive ok =>
    obtain ⟨e, he, rfl⟩ := Option.map_eq_some_iff.1 ha
    obtain ⟨ev, w, d, -, -, -, -, -, -, -, hsound, -, heq⟩ := h.processActive (List.mem_of_mem_head? he) ok
    rw [heq]
    exact hsound.call _ _
  | callbackReturns =>
    simp only [WatchEvent.exec] at ha
    split at ha
    · cases ha
    · rename_i n rest hn
      obtain rfl := Option.some.inj ha
      have hrest : { s with notifications := rest }.Sound := h.call rest s.calls
      rw [callbackReturns]
      split
      · split
        · exact hrest
        · split
          · exact hrest
          · exact hrest.call _ _
      · exact hrest

lemma sound_of_run {es : List WatchEvent} (h : Run Watches new es s) : s.Sound :=
  h.inv (P := fun _ s => s.Sound) sound_new fun _ _ _ _ hs ha => hs.exec ha

/-- **Nothing that is gone is used**, in any run: no event that has been deleted, no watcher that has been destroyed, and
libevent does not stop the process. What epoll and the queue point to is there, and each event in memory is owned by
exactly one watcher. -/
theorem no_dangling {es : List WatchEvent} (h : Run Watches new es s) : s.base.fault = false ∧
    (∀ f k e, s.base.fds f k = some e → (s.base.events e).isSome) ∧
    (∀ e ∈ s.base.activequeue, (s.base.events e).isSome) ∧
    ∀ e, (s.base.events e).isSome ↔ ∃ c, (∃ w, s.controllers c = some w ∧ w.event = some e) ∧
      ∀ c' w', s.controllers c' = some w' → w'.event = some e → c' = c := by
  have hs := sound_of_run h
  refine ⟨hs.base.fault, fun f k e hslot => ?_, fun e hmem => ?_, fun e => ⟨fun he => ?_, ?_⟩⟩
  · obtain ⟨ev, he, -⟩ := hs.base.slot f k e hslot
    rw [he]
    rfl
  · obtain ⟨ev, he, -⟩ := (hs.base.queue e).1 hmem
    rw [he]
    rfl
  · obtain ⟨ev, he⟩ := Option.isSome_iff_exists.1 he
    obtain ⟨w, hc, hevent⟩ := hs.owned e ev he
    refine ⟨ev.arg, ⟨w, hc, hevent⟩, fun c' w' hc' hevent' => ?_⟩
    by_contra hne
    exact hs.alone hc (.inl hevent) c' w' hne hc' hevent'
  · rintro ⟨c, ⟨w, hc, hevent⟩, -⟩
    obtain ⟨⟨ev, he, -⟩, -⟩ := hs.owns c w e hc hevent
    rw [he]
    rfl

/-- A watcher that is destroyed in its callback for writing, with one for reading to come, and two on a descriptor. -/
theorem no_dangling_run : ∃ s, Run Watches new [.create, .create, .watch 0 5 true .watchReadWrite 7 true true,
      .watch 1 5 false .watchRead 8 true true, .report 5 fun _ => true, .processActive true, .processActive true,
      .destroy 0 true, .callbackReturns, .stop 1 true, .callbackReturns] s ∧ s.base.fault = false := by
  have h : Run Watches new [.create, .create, .watch 0 5 true .watchReadWrite 7 true true,
      .watch 1 5 false .watchRead 8 true true, .report 5 fun _ => true, .processActive true, .processActive true,
      .destroy 0 true, .callbackReturns, .stop 1 true, .callbackReturns] _ :=
    Run.of_foldlM (f := fun s e => WatchEvent.exec e s) (fun _ _ _ he => he) rfl
  exact ⟨_, h, (no_dangling h).1⟩

end Watchers

end Zutils.Net
